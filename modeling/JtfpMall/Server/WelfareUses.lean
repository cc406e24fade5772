import JtfpMall.Server.Crashes

/-!
# Uses of welfare codes

A use compares the counters of the row and raises one of them, with whatever the admin pages have
put there: a text is compared as a number and raised by appending a digit, a fraction is used once
more than it allows. Where the counters count, the uses of a row between two admin writes to it are
at most what is left.
-/

namespace JtfpMall

open JtfpMall.Js
open JtfpMall.Lib
open JtfpMall.WelfareCodes (hasCode validity usedUp)

/-- `Number(v)`; what does not convert is no number. -/
def numberOf (v : JsVal) : JsNum :=
  match v.toNumber with
  | .ok n => n
  | .error _ => .nan

/-- `v + 1` is a sum of numbers. -/
def addsUp : JsVal → Bool
  | .str _ => false
  | v => !v.isObject

/-- The used count is a number, null or a boolean, at which adding one is exact, and one more use
does not go over the total. -/
def CountsUp (r : Row) : Prop :=
  addsUp (r.get "used_count") = true ∧
    ∃ u, numberOf (r.get "used_count") = .fin u ∧ toDouble (u + 1) = .fin (u + 1) ∧
      match numberOf (r.get "total_count") with
      | .nan => False
      | .inf _ => True
      | .fin t => u + 1 ≤ t

/-- `n` is at most `max(0, total - used)`; a difference that is no number allows none. -/
def Within (n : ℕ) : JsNum → JsNum → Prop
  | .fin total, .fin used => (n : ℚ) ≤ max 0 (total - used)
  | .inf false, .fin _ => True
  | .fin _, .inf true => True
  | .inf false, .inf true => True
  | _, _ => n = 0

/-- The row a use with this body may use: the first with the code, if the code is valid now. -/
def usableRow (env : Env) (body : JsVal) (now : String) (s : Store) : Option Row :=
  match env.validateReq body with
  | .error _ => none
  | .ok code =>
    (s.findOne .welfareCodes (hasCode (.str code))).filter fun r =>
      match validity r now with
      | .ok (.valid _) => true
      | _ => false

/-- `success: true`. -/
def Response.succeeded (r : Response) : Bool :=
  match r.body.lookup "success" with
  | some (.val v) => decide (v = .bool true)
  | _ => false

namespace Server

/-- The row that the event, a successful use, hits. -/
def usedRow (env : Env) (s : Store) : Event → Option Row
  | .request (.anyone (.useCode body)) at_ =>
    match answer env (.anyone (.useCode body)) at_ s with
    | .ok response => if response.succeeded then usableRow env body (at_.clock 0) s else none
    | .error _ => none
  | _ => none

/-- How many successful uses of the run hit the row with this id. -/
def uses (env : Env) (id : JsVal) : Store → List Event → ℕ
  | _, [] => 0
  | s, e :: es => (if (usedRow env s e).map (fun r => r.get "id") = some id then 1 else 0) +
      (step env s e).elim 0 fun s' => uses env id s' es

/-- An admin write to the row with this id. -/
def Event.WritesCode (id : JsVal) : Event → Prop
  | .request (.admin true (.updateWelfareCode i _)) _ => JsVal.num (parseInt i) = id
  | .request (.admin true (.deleteWelfareCode i)) _ => JsVal.num (parseInt i) = id
  | _ => False

/-- A use finds counters that count, and a PUT on a welfare code names no other id. -/
def Event.Countable (env : Env) (s : Store) : Event → Prop
  | .request (.anyone (.useCode body)) at_ =>
    ∀ r, usableRow env body (at_.clock 0) s = some r → CountsUp r
  | .request (.admin true (.updateWelfareCode i body)) _ =>
    s.findById .welfareCodes (.num (parseInt i)) = none ∨ KeepsId body (parseInt i)
  | _ => True

end Server

/-- The row `r` is used once more: its count goes up by one, and no other row changes. -/
structure RaisedOnce (s s' : Store) (r : Row) : Prop where
  tables : ∀ t, t ≠ .welfareCodes → s'.cache.rows t = s.cache.rows t
  row : ∃ r', s'.cache.rows .welfareCodes =
      ((s.cache.rows .welfareCodes).map fun x => if x = r then r' else x) ∧
    (∃ u, numberOf (r.get "used_count") = .fin u ∧ numberOf (r'.get "used_count") = .fin (u + 1)) ∧
    ∀ k, k ≠ "used_count" → k ≠ "updated_at" → r'.get k = r.get k

theorem toPrimitive_of_addsUp {v : JsVal} (h : addsUp v = true) : v.toPrimitive = .ok v := by
  unfold JsVal.toPrimitive
  rw [if_neg]
  cases v <;> simp_all [addsUp]

theorem numberOf_of_addsUp {v : JsVal} (h : addsUp v = true) : numberOf v = v.primitiveToNumber := by
  unfold numberOf JsVal.toNumber
  rw [toPrimitive_of_addsUp h]
  rfl

theorem numberOf_eq {v p : JsVal} (h : v.toPrimitive = .ok p) : numberOf v = p.primitiveToNumber := by
  unfold numberOf JsVal.toNumber
  rw [h]
  rfl

/-- The raised count. -/
theorem add_one {v : JsVal} {u : ℚ} (h : addsUp v = true) (hu : numberOf v = .fin u)
    (hone : toDouble (u + 1) = .fin (u + 1)) : v.add (.num (.fin 1)) = .ok (.num (.fin (u + 1))) := by
  rw [numberOf_of_addsUp h] at hu
  have hsum : (v.primitiveToNumber.add (.fin 1)) = .fin (u + 1) := by
    rw [hu]
    exact hone
  unfold JsVal.add
  rw [toPrimitive_of_addsUp h]
  cases v with
  | str s => cases h
  | arr xs => cases h
  | obj fs => cases h
  | _ => exact congrArg (fun n => Except.ok (JsVal.num n)) hsum

/-- A row that is not used up has a use left, or a total that is no number. -/
theorem left_of_usedUp {r : Row} {u : ℚ} (h : addsUp (r.get "used_count") = true)
    (hu : numberOf (r.get "used_count") = .fin u) (hused : usedUp r = .ok false) :
    numberOf (r.get "total_count") ≠ .inf true := by
  intro ht
  rw [numberOf_of_addsUp h] at hu
  unfold usedUp JsVal.ge JsVal.lt? at hused
  rw [toPrimitive_of_addsUp h] at hused
  cases hq : (r.get "total_count").toPrimitive with
  | error e =>
    rw [hq] at hused
    cases hused
  | ok q =>
    rw [numberOf_eq hq] at ht
    have hlt : (r.get "used_count").primitiveToNumber.lt? q.primitiveToNumber = some false := by
      rw [hu, ht]
      rfl
    rw [hq] at hused
    cases hv : r.get "used_count" with
    | str s =>
      rw [hv] at h
      cases h
    | _ =>
      rw [hv] at hused hlt
      change Except.ok (_ == some false) = Except.ok false at hused
      rw [hlt] at hused
      cases hused

theorem usedUp_of_validity {r r' : Row} {now : String} (h : validity r now = .ok (.valid r')) :
    usedUp r = .ok false := by
  unfold validity at h
  split at h
  · cases h
  obtain ⟨used, hused, h⟩ := bind_ok h
  cases used with
  | true => cases h
  | false => exact hused

theorem mem_of_usableRow {env : Env} {body : JsVal} {now : String} {s : Store} {r : Row}
    (h : usableRow env body now s = some r) : r ∈ s.cache.rows .welfareCodes := by
  unfold usableRow at h
  split at h
  · cases h
  · exact (mem_of_findOne (Option.filter_eq_some_iff.mp h).1).1

theorem usedUp_of_usableRow {env : Env} {body : JsVal} {now : String} {s : Store} {r : Row}
    (h : usableRow env body now s = some r) : usedUp r = .ok false := by
  unfold usableRow at h
  split at h
  · cases h
  · have hv := (Option.filter_eq_some_iff.mp h).2
    split at hv
    · rename_i hv'
      exact usedUp_of_validity hv'
    · cases hv

theorem run_validateCode (code : JsVal) (now : String) (s : Store) :
    (WelfareCodes.validateCode code now).run s =
      ((s.findOne .welfareCodes (hasCode code)).elim (.ok (.refused "福利码不存在"))
        fun wc => validity wc now, s) := by
  have hread : (WelfareCodes.findByCode code).run s =
      (.ok (s.findOne .welfareCodes (hasCode code)), s) := rfl
  unfold WelfareCodes.validateCode
  rw [Action.run_bind, hread]
  cases s.findOne .welfareCodes (hasCode code) <;> rfl

/-- A row that is not used up is updated with the raised count, if that is one. -/
theorem run_useCode {code : JsVal} {s : Store} {r : Row}
    (hf : s.findOne .welfareCodes (hasCode code) = some r) (hused : usedUp r = .ok false) (now : String) :
    (WelfareCodes.useCode code now).run s =
      match (r.get "used_count").add (.num (.fin 1)) with
      | .ok v => (.ok (s.update .welfareCodes (r.get "id") (.ofList [("used_count", v)]) now).1,
          (s.update .welfareCodes (r.get "id") (.ofList [("used_count", v)]) now).2)
      | .error e => (.error e, s) := by
  have hread : (WelfareCodes.findByCode code).run s = (.ok (some r), s) := by
    rw [← hf]
    rfl
  unfold WelfareCodes.useCode
  rw [Action.run_bind, hread]
  dsimp only
  rw [Action.run_bind, Action.run_lift, hused]
  dsimp only
  rw [if_neg (by decide), Action.run_bind, Action.run_lift]
  cases (r.get "used_count").add (.num (.fin 1)) <;> rfl

theorem run_use_of_none {env : Env} {body : JsVal} {at_ : Moment} {s : Store}
    (h : usableRow env body (at_.clock 0) s = none) :
    ((WelfareRoutes.use env body at_).run s).2 = s := by
  unfold usableRow at h
  unfold WelfareRoutes.use guarded
  rw [Action.snd_run_attempt]
  cases hcode : env.validateReq body with
  | error issue => rfl
  | ok code =>
    rw [hcode] at h
    dsimp only at h ⊢
    rw [Action.run_bind, run_validateCode]
    cases hf : s.findOne .welfareCodes (hasCode (.str code)) with
    | none => rfl
    | some r =>
      rw [hf] at h
      dsimp only [Option.elim_some]
      cases hv : validity r (at_.clock 0) with
      | error e => rfl
      | ok result =>
        cases result with
        | refused message => rfl
        | valid r' => simp [Option.filter, hv] at h

theorem run_use_of_some {env : Env} {body : JsVal} {at_ : Moment} {s : Store} {r : Row} {v : JsVal}
    (h : usableRow env body (at_.clock 0) s = some r)
    (hadd : (r.get "used_count").add (.num (.fin 1)) = .ok v) :
    (WelfareRoutes.use env body at_).run s =
      (.ok (WelfareRoutes.useResult
          (s.update .welfareCodes (r.get "id") (.ofList [("used_count", v)]) (at_.clock 1)).1),
        (s.update .welfareCodes (r.get "id") (.ofList [("used_count", v)]) (at_.clock 1)).2) := by
  have hused := usedUp_of_usableRow h
  unfold usableRow at h
  unfold WelfareRoutes.use guarded
  rw [Action.run_attempt]
  cases hcode : env.validateReq body with
  | error issue =>
    rw [hcode] at h
    cases h
  | ok code =>
    rw [hcode] at h
    dsimp only at h ⊢
    obtain ⟨hf, hvalid⟩ := Option.filter_eq_some_iff.mp h
    rw [Action.run_bind, run_validateCode, hf]
    dsimp only [Option.elim_some]
    cases hv : validity r (at_.clock 0) with
    | error e =>
      rw [hv] at hvalid
      cases hvalid
    | ok result =>
      cases result with
      | refused message =>
        rw [hv] at hvalid
        cases hvalid
      | valid r' =>
        dsimp only
        rw [Action.run_bind, run_useCode hf hused, hadd]
        rfl

/-- The row with the raised count. -/
def raised (u : ℚ) (now : String) (r : Row) : Row :=
  Store.merged (.ofList [("used_count", .num (.fin (u + 1)))]) now r

theorem get_raised_count (u : ℚ) (now : String) (r : Row) :
    (raised u now r).get "used_count" = .num (.fin (u + 1)) := by
  rw [raised, get_merged_of_ne (by decide), Dict.has_ofList]
  simp [Dict.ofList]

theorem get_raised {k : String} (hk : k ≠ "used_count") (hk' : k ≠ "updated_at") (u : ℚ) (now : String)
    (r : Row) : (raised u now r).get k = r.get k := by
  rw [raised, get_merged_of_ne hk', Dict.has_ofList]
  simp [hk]

namespace Server

section
variable {env : Env} {s s' : Store} {e : Event} {r : Row}

theorem usableRow_of_usedRow {body : JsVal} {at_ : Moment}
    (h : usedRow env s (.request (.anyone (.useCode body)) at_) = some r) :
    usableRow env body (at_.clock 0) s = some r := by
  unfold usedRow at h
  dsimp only at h
  split at h
  · split at h
    · exact h
    · cases h
  · cases h

/-- A use leaves the store alone, or it raises the count of the row it may use. -/
theorem serve_use {body : JsVal} (at_ : Moment) (hi : Issued s.cache .welfareCodes)
    (hk : ∀ r, usableRow env body (at_.clock 0) s = some r → CountsUp r) :
    let e : Event := .request (.anyone (.useCode body)) at_
    (usedRow env s e = none ∧ serve env (.anyone (.useCode body)) at_ s = s) ∨
      ∃ r u, usedRow env s e = some r ∧ usableRow env body (at_.clock 0) s = some r ∧
        numberOf (r.get "used_count") = .fin u ∧
        serve env (.anyone (.useCode body)) at_ s = (s.update .welfareCodes (r.get "id")
          (.ofList [("used_count", .num (.fin (u + 1)))]) (at_.clock 1)).2 := by
  intro e
  cases hu : usableRow env body (at_.clock 0) s with
  | none =>
    refine Or.inl ⟨?_, run_use_of_none hu⟩
    change (match answer env (.anyone (.useCode body)) at_ s with
      | .ok response => if response.succeeded then usableRow env body (at_.clock 0) s else none
      | .error _ => none) = none
    rw [hu]
    split
    · exact ite_self _
    · rfl
  | some r =>
    obtain ⟨hadds, u, hnum, hone, _⟩ := hk r hu
    have hrun := run_use_of_some hu (add_one hadds hnum hone)
    have hfound : (s.update .welfareCodes (r.get "id")
        (.ofList [("used_count", .num (.fin (u + 1)))]) (at_.clock 1)).1 = true := by
      have hm := mem_of_usableRow hu
      unfold Store.update
      rw [if_pos ((Store.any_hasId_iff ..).mpr ⟨r, hi.find hm⟩)]
    refine Or.inr ⟨r, u, ?_, rfl, hnum, congrArg Prod.snd hrun⟩
    have hanswer : answer env (.anyone (.useCode body)) at_ s = .ok (WelfareRoutes.useResult true) := by
      rw [← hfound]
      exact congrArg Prod.fst hrun
    change (match answer env (.anyone (.useCode body)) at_ s with
      | .ok response => if response.succeeded then usableRow env body (at_.clock 0) s else none
      | .error _ => none) = some r
    rw [hanswer]
    exact hu

/-- A successful use raises the count of its row by one, and changes no other row. -/
theorem raisedOnce_update (hi : Issued s.cache .welfareCodes) (hr : r ∈ s.cache.rows .welfareCodes)
    {u : ℚ} (hu : numberOf (r.get "used_count") = .fin u) (now : String) :
    RaisedOnce s (s.update .welfareCodes (r.get "id")
      (.ofList [("used_count", .num (.fin (u + 1)))]) now).2 r where
  tables t ht := by rw [Store.rows_update, if_neg ht]
  row := by
    refine ⟨raised u now r, ?_, ⟨u, hu, ?_⟩, fun k hk hk' => get_raised hk hk' u now r⟩
    · rw [(hi.oneRow hr).updated]
      refine List.map_congr_left fun x _ => ?_
      by_cases hx : x = r
      · rw [if_pos hx, if_pos hx, hx]
        rfl
      · rw [if_neg hx, if_neg hx]
    · rw [get_raised_count]
      rfl

/-- What a request but a use does to a row that it does not write. -/
theorem mem_serve {q : Request} {at_ : Moment} (hq : ∀ body, q ≠ .anyone (.useCode body))
    (hr : r ∈ s.cache.rows .welfareCodes) (hw : ¬(Event.request q at_).WritesCode (r.get "id")) :
    r ∈ (serve env q at_ s).cache.rows .welfareCodes := by
  by_cases ht : Table.welfareCodes ∈ q.tables
  · have hid : ∀ i : String, ¬JsVal.num (parseInt i) = r.get "id" →
        Store.hasId (.num (parseInt i)) r = false := by
      intro i hne
      rw [← Bool.not_eq_true]
      exact fun h => hne (JsVal.eq_of_strictEq h).symm
    unfold Request.tables at ht
    split at ht
    all_goals first
      | exact absurd ht (by decide)
      | skip
    · rename_i body
      change r ∈ (s.insert .welfareCodes (WelfareCodes.newCode body) (at_.clock 0)).2.cache.rows _
      rw [Store.rows_insert, if_pos rfl]
      exact List.mem_append_left _ hr
    · rename_i i body
      obtain ⟨h, _⟩ | ⟨data, _, h⟩ := serve_put env (r := .admin true (.updateWelfareCode i body)) rfl at_ s
      · rwa [h]
      · rw [h, Store.rows_update, if_pos rfl]
        exact mem_modifyFirst_of_not hr (hid i hw)
    · rename_i i
      change r ∈ ((s.removeWhere .welfareCodeItems _).2.remove .welfareCodes _).2.cache.rows _
      rw [Store.rows_remove, if_pos rfl, Store.rows_removeWhere, if_neg (by decide)]
      exact (List.mem_eraseP_of_neg (by rw [hid i hw]; exact Bool.false_ne_true)).mpr hr
    · rename_i body
      exact absurd rfl (hq body)
  · exact (serve_sameRows env ht at_ s).perm.mem_iff.mpr hr

/-- A row that no admin write goes to stays, as it is or with its count raised by a use. -/
theorem row_step (hi : Issued s.cache .welfareCodes) (he : e.Serving) (hk : e.Countable env s)
    (hs : step env s e = some s') (hr : r ∈ s.cache.rows .welfareCodes)
    (hw : ¬e.WritesCode (r.get "id")) :
    ((usedRow env s e).map (fun r => r.get "id") ≠ some (r.get "id") ∧ r ∈ s'.cache.rows .welfareCodes) ∨
      ∃ u now, (usedRow env s e).map (fun r => r.get "id") = some (r.get "id") ∧ CountsUp r ∧
        usedUp r = .ok false ∧ numberOf (r.get "used_count") = .fin u ∧
        raised u now r ∈ s'.cache.rows .welfareCodes := by
  cases e with
  | request q at_ =>
    cases hs
    by_cases hq : ∃ body, q = .anyone (.useCode body)
    · obtain ⟨body, rfl⟩ := hq
      obtain ⟨hnone, hserve⟩ | ⟨x, u, hused, husable, hu, hserve⟩ := serve_use at_ hi hk
      · rw [hnone, hserve]
        exact Or.inl ⟨(Option.some_ne_none _).symm, hr⟩
      · have hx := mem_of_usableRow husable
        rw [hused, hserve, (hi.oneRow hx).updated, Option.map_some]
        by_cases hxr : r = x
        · subst hxr
          refine Or.inr ⟨u, at_.clock 1, rfl, hk r husable, usedUp_of_usableRow husable, hu, ?_⟩
          exact List.mem_map.mpr ⟨r, hr, if_pos rfl⟩
        · refine Or.inl ⟨fun he => hxr ?_, List.mem_map.mpr ⟨r, hr, if_neg hxr⟩⟩
          exact hi.eq_of_get hx hr (Option.some.inj he).symm
    · refine Or.inl ⟨?_, mem_serve (fun body hb => hq ⟨body, hb⟩) hr hw⟩
      have hnone : usedRow env s (.request q at_) = none := by
        unfold usedRow
        split
        · rename_i body at' heq
          cases heq
          exact absurd ⟨body, rfl⟩ hq
        · rfl
      rw [hnone]
      exact (Option.some_ne_none _).symm
  | operation w now => exact absurd he id
  | timer now =>
    simp only [step] at hs
    split at hs
    · cases hs
      rw [Store.timerFired_eq, Store.rows_flushNow]
      exact Or.inl ⟨(Option.some_ne_none _).symm, hr⟩
    · cases hs
  | flush now =>
    cases hs
    rw [Store.rows_flushNow]
    exact Or.inl ⟨(Option.some_ne_none _).symm, hr⟩
  | restart loadedAt clock => exact absurd he id

theorem issued_countable (hi : Issued s.cache .welfareCodes) (he : e.Serving) (hk : e.Countable env s)
    (hs : step env s e = some s') : Issued s'.cache .welfareCodes := by
  cases e with
  | request q at_ =>
    cases hs
    by_cases hmissing : ∃ id, q.put = some (.welfareCodes, id) ∧
        s.findById .welfareCodes (.num id) = none
    · obtain ⟨id, hput, hnone⟩ := hmissing
      rw [serve_put_of_missing env hput hnone]
      exact hi
    · refine issued_serve hi (fun ht => ?_) at_
      unfold Request.tables at ht
      split at ht
      all_goals first
        | exact absurd ht (by decide)
        | trivial
        | skip
      rename_i i body
      exact hk.resolve_left fun hnone => hmissing ⟨_, rfl, hnone⟩
  | operation w now => exact absurd he id
  | timer now =>
    simp only [step] at hs
    split at hs
    · cases hs
      exact issued_flushNow hi now
    · cases hs
  | flush now =>
    cases hs
    exact issued_flushNow hi now
  | restart loadedAt clock => exact absurd he id

/-- The events of the runs considered. -/
def Event.Counting (env : Env) (s : Store) (e : Event) : Prop := e.Serving ∧ e.Countable env s

/-- What is left of the counters bounds the uses. -/
theorem uses_le {t : Store} {fs : List Event} (hi : Issued s.cache .welfareCodes)
    (hok : Along (step env) (Event.Counting env) s fs) (hr : run (step env) s fs = some t)
    (hm : r ∈ s.cache.rows .welfareCodes) (hw : ∀ e ∈ fs, ¬e.WritesCode (r.get "id")) :
    uses env (r.get "id") s fs = 0 ∨ ∃ u, numberOf (r.get "used_count") = .fin u ∧
      (numberOf (r.get "total_count") = .inf false ∨
        ∃ q, numberOf (r.get "total_count") = .fin q ∧ u + uses env (r.get "id") s fs ≤ q) := by
  induction fs generalizing s r with
  | nil => exact Or.inl rfl
  | cons e fs ih =>
    rw [run_cons, Option.bind_eq_some_iff] at hr
    obtain ⟨s', hs', hr⟩ := hr
    have hi' := issued_countable hi hok.1.1 hok.1.2 hs'
    have hw' : ∀ e ∈ fs, ¬e.WritesCode (r.get "id") := fun e' he' => hw e' (List.mem_cons_of_mem e he')
    have hcount : uses env (r.get "id") s (e :: fs) =
        (if (usedRow env s e).map (fun r => r.get "id") = some (r.get "id") then 1 else 0) +
          uses env (r.get "id") s' fs := by
      rw [uses, hs']
      rfl
    obtain ⟨hnot, hm'⟩ | ⟨u, now, huse, hcounts, hleft, hu, hm'⟩ :=
      row_step hi hok.1.1 hok.1.2 hs' hm (hw e List.mem_cons_self)
    · rw [hcount, if_neg hnot, Nat.zero_add]
      exact ih hi' (hok.2 s' hs') hr hm' hw'
    · rw [hcount, if_pos huse]
      refine Or.inr ⟨u, hu, ?_⟩
      have hrest := ih hi' (hok.2 s' hs') hr hm' (by
        rw [get_raised (by decide) (by decide)]
        exact hw')
      rw [get_raised (k := "id") (by decide) (by decide),
        get_raised (k := "total_count") (by decide) (by decide), get_raised_count] at hrest
      obtain ⟨hadds, u', hu', _, htotal⟩ := hcounts
      rw [hu, JsNum.fin.injEq] at hu'
      subst hu'
      cases hq : numberOf (r.get "total_count") with
      | nan =>
        rw [hq] at htotal
        exact htotal.elim
      | inf neg =>
        cases neg with
        | true => exact absurd hq (left_of_usedUp hadds hu hleft)
        | false => exact Or.inl rfl
      | fin q =>
        rw [hq] at htotal hrest
        refine Or.inr ⟨q, rfl, ?_⟩
        obtain hzero | ⟨v, hv, hinf | ⟨q', hq', hle⟩⟩ := hrest
        · rw [hzero]
          simpa using htotal
        · cases hinf
        · cases hv
          cases hq'
          push_cast
          linarith

theorem within_zero (a b : JsNum) : Within 0 a b := by
  unfold Within
  split
  · exact le_of_eq_of_le Nat.cast_zero (le_max_left _ _)
  all_goals trivial

/-- In every run whose uses find counters that count, and whose admin writes change no id: from any
state of it on, the uses that hit a row before the next admin write to it are at most what its
counters leave, and each raises the used count by one and changes no other row. -/
theorem welfare_uses_bounded {loadedAt : String} {clock : ℕ → String} {es : List Event}
    (hok : Along (step env) (Event.Counting env) (start loadedAt clock .empty) es)
    (hr : run (step env) (start loadedAt clock .empty) es = some s) :
    (∀ r ∈ s.cache.rows .welfareCodes, ∀ fs t, Along (step env) (Event.Counting env) s fs →
      run (step env) s fs = some t → (∀ e ∈ fs, ¬e.WritesCode (r.get "id")) →
      Within (uses env (r.get "id") s fs) (numberOf (r.get "total_count"))
        (numberOf (r.get "used_count"))) ∧
    ∀ body at_ r, Event.Countable env s (.request (.anyone (.useCode body)) at_) →
      usedRow env s (.request (.anyone (.useCode body)) at_) = some r →
      RaisedOnce s (serve env (.anyone (.useCode body)) at_ s) r := by
  have hi : Issued s.cache .welfareCodes :=
    run_invariant (step env) (fun s => Issued s.cache .welfareCodes)
      (fun _ _ _ hi ho hs => issued_countable hi ho.1 ho.2 hs) (issued_start loadedAt clock _) hok hr
  constructor
  · intro r hm fs t hfs hrun hw
    obtain hzero | ⟨u, hu, hinf | ⟨q, hq, hle⟩⟩ := uses_le hi hfs hrun hm hw
    · rw [hzero]
      exact within_zero _ _
    · rw [hu, hinf]
      trivial
    · rw [hu, hq]
      exact le_max_of_le_right (by linarith)
  · intro body at_ r hk hused
    obtain ⟨hnone, _⟩ | ⟨x, u, hx, husable, hu, hserve⟩ := serve_use at_ hi hk
    · rw [hused] at hnone
      cases hnone
    · rw [hused, Option.some.injEq] at hx
      subst hx
      rw [hserve]
      exact raisedOnce_update hi (mem_of_usableRow husable) hu _

end

/-- The creation of the code "A" with these counters. -/
def createCode (total used : JsVal) : Event :=
  .request (.admin true (.createWelfareCode (.ofList [("code", .str "A"), ("total_count", total),
    ("used_count", used)]))) (moment "t2")

def useA : Event := .request (.anyone (.useCode (.obj [("code", .str "A")]))) (moment "t3")

/-- A code for two uses is used. -/
theorem welfare_uses_bounded_once :
    ∃ s r t, run (step .plain) (start "t0" (fun _ => "t1") .empty)
        [createCode (.num (.fin 2)) (.num (.fin 0))] = some s ∧
      run (step .plain) s [useA] = some t ∧ r ∈ s.cache.rows .welfareCodes ∧
      uses .plain (r.get "id") s [useA] = 1 ∧
      Within (uses .plain (r.get "id") s [useA]) (numberOf (r.get "total_count"))
        (numberOf (r.get "used_count")) := by
  obtain ⟨s, hs, hread, hone⟩ : ∃ s, run (step .plain) (start "t0" (fun _ => "t1") .empty)
      [createCode (.num (.fin 2)) (.num (.fin 0))] = some s ∧
      (usableRow .plain (.obj [("code", .str "A")]) "t3" s).map
        (fun r => (r.get "used_count", r.get "total_count")) =
          some (.num (.fin 0), .num (.fin 2)) ∧
      (s.cache.rows .welfareCodes).map (fun r => uses .plain (r.get "id") s [useA]) = [1] :=
    ⟨_, rfl, by decide +kernel, by decide +kernel⟩
  have hcreated : Along (step .plain) (Event.Counting .plain) (start "t0" (fun _ => "t1") .empty)
      [createCode (.num (.fin 2)) (.num (.fin 0))] := ⟨⟨trivial, trivial⟩, fun _ _ => trivial⟩
  have hcountable : Event.Countable .plain s useA := by
    intro r hr
    have hcounts := congrArg (Option.map fun r : Row => (r.get "used_count", r.get "total_count")) hr
    rw [Option.map_some] at hcounts
    obtain ⟨hused, htotal⟩ := Prod.mk.inj (Option.some.inj (hcounts.symm.trans hread))
    unfold CountsUp
    rw [hused, htotal]
    refine ⟨rfl, 0, rfl, by decide +kernel, ?_⟩
    change (0 : ℚ) + 1 ≤ 2
    norm_num
  obtain ⟨r, hm, huse⟩ : ∃ r ∈ s.cache.rows .welfareCodes, uses .plain (r.get "id") s [useA] = 1 := by
    have hmem : 1 ∈ (s.cache.rows .welfareCodes).map fun r => uses .plain (r.get "id") s [useA] := by
      rw [hone]
      exact List.mem_singleton_self 1
    exact List.mem_map.mp hmem
  refine ⟨s, r, _, hs, rfl, hm, huse, ?_⟩
  refine (welfare_uses_bounded hcreated hs).1 r hm [useA] _ ⟨⟨trivial, hcountable⟩, fun _ _ => trivial⟩ rfl ?_
  intro e he
  rw [List.mem_singleton.mp he]
  exact id

/-- The used count "1" of a new code is a text: one use raises it to "11". -/
theorem text_count_leaps :
    ∃ s r t, run (step .plain) (start "t0" (fun _ => "t1") .empty)
        [createCode (.num (.fin 5)) (.str "1")] = some s ∧
      step .plain s useA = some t ∧ usedRow .plain s useA = some r ∧
      numberOf (r.get "used_count") = .fin 1 ∧ ¬RaisedOnce s t r := by
  obtain ⟨s, t, hs, ht, hused, hafter⟩ : ∃ s t, run (step .plain) (start "t0" (fun _ => "t1") .empty)
        [createCode (.num (.fin 5)) (.str "1")] = some s ∧ step .plain s useA = some t ∧
      (usedRow .plain s useA).map (fun r => numberOf (r.get "used_count")) = some (.fin 1) ∧
      (t.cache.rows .welfareCodes).map (fun r => numberOf (r.get "used_count")) = [.fin 11] :=
    ⟨_, _, rfl, rfl, by decide +kernel, by decide +kernel⟩
  obtain ⟨r, hr, hone⟩ := Option.map_eq_some_iff.mp hused
  refine ⟨s, r, t, hs, ht, hr, hone, fun h => ?_⟩
  obtain ⟨r', hrows, ⟨u, hu, hu'⟩, _⟩ := h.row
  have hm : r' ∈ t.cache.rows .welfareCodes := by
    rw [hrows]
    exact List.mem_map.mpr ⟨r, mem_of_usableRow (usableRow_of_usedRow hr), if_pos rfl⟩
  have hmem : numberOf (r'.get "used_count") ∈
      (t.cache.rows .welfareCodes).map fun r => numberOf (r.get "used_count") := List.mem_map_of_mem hm
  rw [hafter, List.mem_singleton, hu', JsNum.fin.injEq] at hmem
  rw [hone, JsNum.fin.injEq] at hu
  linarith

end Server

end JtfpMall
