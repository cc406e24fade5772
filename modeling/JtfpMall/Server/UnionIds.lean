import JtfpMall.Lib.Registry
import JtfpMall.Server.Logins

/-!
# Identities that merge

The two tables of accounts stand for a registry: an identity is an entry, its provider with its
openid the key, its unionid the tag and its user the person. A login over an identity enrols the
key, so two logins return one user exactly when the registry links their keys.
-/

namespace JtfpMall

open JtfpMall.Js
open JtfpMall.Lib
open JtfpMall.Users (hasIdentity newUser newIdentity orNull)

/-- A call of `findOrCreateUserByIdentity`. -/
structure IdentityCall where
  provider : String
  params : Users.Params
  clock : ℕ → String

namespace IdentityCall

def key (c : IdentityCall) : String × String := (c.provider, c.params.openid)

/-- The unionid; an empty one counts as none. -/
def tag (c : IdentityCall) : Option String := c.params.unionid.filter fun w => decide (w ≠ "")

def act (c : IdentityCall) : Act Row :=
  Users.findOrCreateUserByIdentity c.provider c.params c.clock

end IdentityCall

/-- What the calls return, one after another, and the store after them. -/
def identifyAll : List IdentityCall → Store → List (Except JsError Row) × Store
  | [], s => ([], s)
  | c :: cs, s =>
    let (x, s') := c.act.run s
    let (xs, s'') := identifyAll cs s'
    (x :: xs, s'')

/-- The row of `user_identities` an entry stands for. -/
structure Represents (e : Enrolment (String × String) String) (i : Row) : Prop where
  provider : i.get "provider" = .str e.key.1
  openid : i.get "openid" = .str e.key.2
  unionid : i.get "unionid" = e.tag.elim .null .str
  user : i.get "user_id" = .num (.ofNat e.person)

/-- The tables of accounts hold the registry, and its persons are users of earlier numbers. -/
structure Registered (s : Store) (r : List (Enrolment (String × String) String)) : Prop where
  identities : List.Forall₂ Represents r (s.cache.rows .userIdentities)
  users : ∀ e ∈ r, ∃ u ∈ s.cache.rows .users, u.get "id" = .num (.ofNat e.person)
  issued : ∀ e ∈ r, 0 < e.person ∧ e.person < s.cache.next .users

section
variable {s : Store} {r : List (Enrolment (String × String) String)} {c : IdentityCall}

theorem orNull_eq (v : Option String) :
    orNull v = (v.filter fun w => decide (w ≠ "")).elim .null .str := by
  cases v with
  | none => rfl
  | some w => by_cases hw : w = "" <;> simp [orNull, absent, JsVal.or, JsVal.truthy, Option.filter, hw]

theorem Represents.of_columns {e : Enrolment (String × String) String} {i i' : Row}
    (h : Represents e i) (hc : SameColumns identityColumns i i') : Represents e i' := by
  constructor
  · rw [hc "provider" (by decide), h.provider]
  · rw [hc "openid" (by decide), h.openid]
  · rw [hc "unionid" (by decide), h.unionid]
  · rw [hc "user_id" (by decide), h.user]

theorem Represents.hasIdentity {e : Enrolment (String × String) String} {i : Row}
    (h : Represents e i) (provider openid : String) :
    decide (e.key = (provider, openid)) = hasIdentity provider openid i := by
  unfold Users.hasIdentity
  rw [h.provider, h.openid, Bool.eq_iff_iff]
  simp [JsVal.strictEq, Prod.ext_iff]

/-- The search by identity is the search by key. -/
theorem Registered.byKey (h : Registered s r) (c : IdentityCall) :
    Option.Rel Represents (Registry.byKey c.key r)
      (s.findOne .userIdentities (hasIdentity c.provider c.params.openid)) :=
  find?_forall₂ h.identities fun _ _ hr => hr.hasIdentity c.provider c.params.openid

/-- The search by unionid is the search by tag. -/
theorem Registered.byTag (h : Registered s r) (c : IdentityCall) :
    Option.Rel Represents (Registry.byTag c.tag r)
      (if (absent c.params.unionid).truthy then s.findOne .userIdentities
        (fun i => (i.get "unionid").strictEq (absent c.params.unionid)) else none) := by
  unfold IdentityCall.tag
  cases hu : c.params.unionid with
  | none => exact .none
  | some w =>
    by_cases hw : w = ""
    · rw [hw]
      exact .none
    · have htruthy : (absent (some w)).truthy = true := decide_eq_true hw
      rw [htruthy, if_pos rfl, Option.filter_some, if_pos (decide_eq_true hw)]
      refine find?_forall₂ h.identities fun e i hr => ?_
      rw [hr.unionid, Bool.eq_iff_iff]
      cases e.tag <;> simp [JsVal.strictEq, absent]

/-- A new user belongs to no entry yet. -/
theorem Registered.insert_user (h : Registered s r) (row : Row) (now : String) :
    Registered (s.insert .users row now).2 r where
  identities := by
    rw [Store.rows_insert, if_neg (by decide)]
    exact h.identities
  users e he := by
    obtain ⟨u, hu, hid⟩ := h.users e he
    rw [Store.rows_insert, if_pos rfl]
    exact ⟨u, List.mem_append_left _ hu, hid⟩
  issued e he := by
    rw [Store.next_insert, if_pos rfl]
    exact ⟨(h.issued e he).1, Nat.lt_succ_of_lt (h.issued e he).2⟩

/-- An identity bound to a user is one more entry. -/
theorem Registered.insert_identity (h : Registered s r) (c : IdentityCall) {id : ℕ}
    (hid : 0 < id ∧ id < s.cache.next .users)
    (hu : ∃ u ∈ s.cache.rows .users, u.get "id" = .num (.ofNat id)) (now now' : String) :
    Registered ((s.insert .userIdentities (newIdentity c.provider c.params (.num (.ofNat id)))
      now).2.flushNow now') (r ++ [⟨c.key, c.tag, id⟩]) where
  identities := by
    rw [rows_bound, if_pos rfl]
    refine List.rel_append h.identities (.cons ⟨?_, ?_, ?_, ?_⟩ .nil)
    all_goals change (Store.newRow _ _ _).get _ = _
    · simp [Store.newRow, newIdentity, Dict.ofList, Dict.get_set, IdentityCall.key]
    · simp [Store.newRow, newIdentity, Dict.ofList, Dict.get_set, IdentityCall.key]
    · simp [Store.newRow, newIdentity, Dict.ofList, Dict.get_set, IdentityCall.tag, orNull_eq]
    · simp [Store.newRow, newIdentity, Dict.ofList, Dict.get_set]
  users e he := by
    rw [rows_bound, if_neg (by decide)]
    rcases List.mem_append.mp he with he | he
    · exact h.users e he
    · rw [List.mem_singleton.mp he]
      exact hu
  issued e he := by
    rw [Store.next_flushNow, Store.next_insert, if_neg (by decide)]
    rcases List.mem_append.mp he with he | he
    · exact h.issued e he
    · rw [List.mem_singleton.mp he]
      exact hid

theorem Registered.update_identity (h : Registered s r) {updates : Row}
    (hu : ∀ k ∈ identityColumns, updates.has k = false) (id : JsVal) (now : String) :
    Registered (s.update .userIdentities id updates now).2 r where
  identities := by
    rw [Store.rows_update, if_pos rfl]
    refine forall₂_modifyFirst (fun e i hr => hr.of_columns fun k hk => ?_) h.identities
    have hne : k ≠ "updated_at" := by
      rintro rfl
      exact absurd hk (by decide)
    rw [Store.merged, Dict.get_set_of_ne _ _ hne, Dict.get_spread, hu k hk]
    rfl
  users e he := by
    rw [Store.rows_update, if_neg (by decide)]
    exact h.users e he
  issued e he := by
    rw [Store.next_update]
    exact h.issued e he

/-- A known identity returns its user, and keeps it. -/
theorem identify_known (h : Registered s r) {e : Enrolment (String × String) String}
    (he : Registry.byKey c.key r = some e) :
    ∃ user s', c.act.run s = (.ok user, s') ∧ user.get "id" = .num (.ofNat e.person) ∧
      Registered s' r := by
  have hrel := h.byKey c
  rw [he] at hrel
  generalize hf : s.findOne .userIdentities _ = found at hrel
  cases hrel with
  | some hi =>
    rename_i i
    -- the update of the session key, if there is one, leaves the columns of the entry alone
    have hsave : ∃ saved s', (Users.saveSessionKey c.params i (c.clock 0)).run s = (.ok saved, s') ∧
        Registered s' r := by
      unfold Users.saveSessionKey
      split
      · refine ⟨_, _, rfl, h.update_identity (fun k hk => ?_) _ _⟩
        rw [Dict.has_ofList]
        simp only [identityColumns, List.mem_cons, List.not_mem_nil, or_false] at hk
        rcases hk with rfl | rfl | rfl | rfl <;> simp
      · exact ⟨_, _, rfl, h⟩
    obtain ⟨saved, s', hrun, h'⟩ := hsave
    obtain ⟨u, hu, hid⟩ := h'.users e (Registry.mem_of_byKey he).1
    obtain ⟨user, huser, hid'⟩ := findById_of_mem hu hid
    refine ⟨user, s', ?_, hid', h'⟩
    unfold IdentityCall.act Users.findOrCreateUserByIdentity Act.findOne
    rw [Action.run_reads_bind, hf]
    dsimp only
    rw [Action.run_bind, hrun]
    unfold Act.findById
    dsimp only
    rw [Action.run_reads_bind, hi.user, huser]
    rfl

/-- Step 3 settles the user: the one of the tag, or the one of the next number. -/
theorem settle_user (h : Registered s r) (c : IdentityCall) {found : Option Row}
    (hrel : Option.Rel Represents (Registry.byTag c.tag r) found) {id : ℕ}
    (hid : id = Registry.personFor c.tag (s.cache.next .users) r) :
    ∃ t, (Users.userFor found c.params (c.clock 1)).run s = (.ok (.num (.ofNat id)), t) ∧
      Registered t r ∧ t.cache.rows .userIdentities = s.cache.rows .userIdentities ∧
      (∃ u ∈ t.cache.rows .users, u.get "id" = .num (.ofNat id)) ∧
      0 < id ∧ id < t.cache.next .users := by
  unfold Registry.personFor at hid
  cases hj : Registry.byTag c.tag r with
  | some e =>
    rw [hj] at hrel hid
    have he := (Registry.mem_of_byTag hj).1
    cases hrel with
    | some hi =>
      rename_i i
      have huser : i.get "user_id" = .num (.ofNat id) := by rw [hi.user, hid]; rfl
      have hpos : 0 < id := hid ▸ (h.issued e he).1
      have htrue : (i.get "user_id").truthy = true := by
        rw [huser]
        simp [JsVal.truthy, JsNum.truthy, JsNum.ofNat]
        omega
      refine ⟨s, ?_, h, rfl, ?_, hpos, hid ▸ (h.issued e he).2⟩
      · unfold Users.userFor
        simp only [Option.elim_some, htrue, if_true]
        rw [huser]
        rfl
      · obtain ⟨u, hu, hue⟩ := h.users e he
        exact ⟨u, hu, by rw [hue, hid]; rfl⟩
  | none =>
    rw [hj] at hrel hid
    change id = s.cache.next .users at hid
    cases hrel
    have hrow : (s.insert .users (newUser c.params) (c.clock 1)).1.get "id" = .num (.ofNat id) := by
      rw [hid]
      exact get_newRow_id _ _ _
    refine ⟨(s.insert .users (newUser c.params) (c.clock 1)).2, ?_, h.insert_user _ _, ?_, ?_, ?_, ?_⟩
    · rw [← hrow]
      rfl
    · rw [Store.rows_insert, if_neg (by decide)]
    · refine ⟨_, ?_, hrow⟩
      rw [Store.rows_insert, if_pos rfl]
      exact List.mem_append_right _ (List.mem_singleton_self _)
    · rw [hid]
      exact s.cache.next_pos .users
    · rw [Store.next_insert, if_pos rfl, hid]
      exact Nat.lt_succ_self _

/-- A new identity is bound to the user that step 3 settles. -/
theorem identify_new (h : Registered s r) (hk : Registry.byKey c.key r = none) {id : ℕ}
    (hid : id = Registry.personFor c.tag (s.cache.next .users) r) :
    ∃ user s', c.act.run s = (.ok user, s') ∧ user.get "id" = .num (.ofNat id) ∧
      Registered s' (r ++ [⟨c.key, c.tag, id⟩]) := by
  have hrel := h.byKey c
  rw [hk] at hrel
  generalize hf : s.findOne .userIdentities _ = found at hrel
  cases hrel
  obtain ⟨t, hfor, ht, hrows, ⟨u, hu, hue⟩, hissued⟩ := settle_user h c (h.byTag c) hid
  obtain ⟨user, huser, hid'⟩ := findById_of_mem hu hue
  have hf' : t.findOne .userIdentities (hasIdentity c.provider c.params.openid) = none := by
    unfold Store.findOne Store.getTable at hf ⊢
    rwa [hrows]
  refine ⟨user, _, ?_, hid', ht.insert_identity c hissued ⟨u, hu, hue⟩ (c.clock 2) (c.clock 3)⟩
  unfold IdentityCall.act Users.findOrCreateUserByIdentity Act.findOne
  rw [Action.run_reads_bind, hf]
  exact run_bindIdentity rfl hfor hf' huser

/-- A call enrols its key: it returns the person of the registry. -/
theorem identify_enrolls (h : Registered s r) (c : IdentityCall) :
    ∃ user s', c.act.run s = (.ok user, s') ∧
      user.get "id" = .num (.ofNat (Registry.enroll c.key c.tag (s.cache.next .users) r).1) ∧
      Registered s' (Registry.enroll c.key c.tag (s.cache.next .users) r).2 := by
  unfold Registry.enroll
  cases hk : Registry.byKey c.key r with
  | some e => exact identify_known h hk
  | none => exact identify_new h hk rfl

/-- What a run of calls leaves: a faithful registry of the keys seen, and the persons returned. -/
theorem identifyAll_enrolls {attached : String × String → Option String} (h : Registered s r)
    (hr : Registry.Faithful attached r) {calls : List IdentityCall}
    (hcalls : ∀ c ∈ calls, c.tag = attached c.key) :
    ∃ r', Registered (identifyAll calls s).2 r' ∧ Registry.Faithful attached r' ∧ r <+: r' ∧
      (∀ e ∈ r', e ∈ r ∨ e.key ∈ calls.map IdentityCall.key) ∧
      List.Forall₂ (fun (c : IdentityCall) x => ∃ user, x = .ok user ∧ ∃ e ∈ r', e.key = c.key ∧
        user.get "id" = .num (.ofNat e.person)) calls (identifyAll calls s).1 := by
  induction calls generalizing s r with
  | nil => exact ⟨r, h, hr, List.prefix_refl r, fun e he => Or.inl he, .nil⟩
  | cons c calls ih =>
    obtain ⟨user, s', hrun, hid, h'⟩ := identify_enrolls h c
    have hfresh : ∀ e ∈ r, e.person ≠ s.cache.next .users :=
      fun e he => Nat.ne_of_lt (h.issued e he).2
    have hfaithful := hr.enroll hfresh c.key
    rw [← hcalls c List.mem_cons_self] at hfaithful
    obtain ⟨e, he, hkey, hperson⟩ :=
      Registry.mem_enroll c.key c.tag (s.cache.next .users) r
    obtain ⟨r', hreg, hf, hpre, hkeys, hall⟩ :=
      ih h' hfaithful fun d hd => hcalls d (List.mem_cons_of_mem c hd)
    have hstep : identifyAll (c :: calls) s =
        (.ok user :: (identifyAll calls s').1, (identifyAll calls s').2) := by
      rw [identifyAll, hrun]
    rw [hstep]
    refine ⟨r', hreg, hf, (Registry.prefix_enroll _ _ _ r).trans hpre, fun e he => ?_,
      .cons ⟨user, rfl, e, hpre.subset he, hkey, by rw [hid, hperson]⟩ hall⟩
    rcases hkeys e he with he | he
    · rcases Registry.of_mem_enroll he with he | he
      · exact Or.inl he
      · rw [he]
        exact Or.inr List.mem_cons_self
    · exact Or.inr (List.mem_cons_of_mem _ he)

end

/-- From an empty table of identities, with one unionid or none for each provider and openid, every
call returns a user; two calls return one user exactly when they come from one identity or share a unionid; each
identity seen has exactly one row, and the row names a user. -/
theorem identities_merge {s : Store} (hi : s.cache.rows .userIdentities = [])
    {calls : List IdentityCall}
    (hsame : ∀ c ∈ calls, ∀ c' ∈ calls, c.key = c'.key → c.tag = c'.tag) :
    (∃ person : String × String → ℕ,
      List.Forall₂ (fun (c : IdentityCall) x => ∃ user, x = .ok user ∧
        user.get "id" = .num (.ofNat (person c.key))) calls (identifyAll calls s).1 ∧
      ∀ c ∈ calls, ∀ c' ∈ calls, person c.key = person c'.key ↔
        c.key = c'.key ∨ ∃ w, c.tag = some w ∧ c'.tag = some w) ∧
    (∀ provider openid, (((identifyAll calls s).2.cache.rows .userIdentities).filter
        (hasIdentity provider openid)).length =
      if (provider, openid) ∈ calls.map IdentityCall.key then 1 else 0) ∧
    ∀ i ∈ (identifyAll calls s).2.cache.rows .userIdentities,
      (∃ c ∈ calls, hasIdentity c.provider c.params.openid i = true) ∧
      ∃ u ∈ (identifyAll calls s).2.cache.rows .users, i.get "user_id" = u.get "id" := by
  let attached : String × String → Option String := fun k =>
    (calls.find? fun c => decide (c.key = k)).bind IdentityCall.tag
  have hcalls : ∀ c ∈ calls, c.tag = attached c.key := by
    intro c hc
    cases hf : calls.find? fun d => decide (d.key = c.key) with
    | none => exact absurd (decide_eq_true rfl) (List.find?_eq_none.mp hf c hc)
    | some d =>
      have hk : d.key = c.key := by simpa using List.find?_some hf
      change c.tag = (calls.find? fun d => decide (d.key = c.key)).bind IdentityCall.tag
      rw [hf]
      exact hsame c hc d (List.mem_of_find?_eq_some hf) hk.symm
  have hstart : Registered s [] :=
    ⟨by rw [hi]; exact .nil, fun _ he => (nomatch he), fun _ he => (nomatch he)⟩
  obtain ⟨r, hreg, hf, _, hkeys, hall⟩ := identifyAll_enrolls hstart .nil hcalls
  have hseen : ∀ c ∈ calls, ∃ e ∈ r, e.key = c.key ∧ e.tag = c.tag := by
    intro c hc
    obtain ⟨_, _, _, _, e, he, hk, _⟩ := exists_of_forall₂ hall hc
    exact ⟨e, he, hk, by rw [hf.tags e he, hk, hcalls c hc]⟩
  let person : String × String → ℕ := fun k => (Registry.byKey k r).elim 0 Enrolment.person
  have hperson : ∀ e ∈ r, person e.key = e.person := by
    intro e he
    change (Registry.byKey e.key r).elim 0 Enrolment.person = _
    rw [hf.byKey_of_mem he]
    rfl
  refine ⟨⟨person, hall.imp fun c x hx => ?_, fun c hc c' hc' => ?_⟩, fun provider openid => ?_, ?_⟩
  · obtain ⟨user, hx, e, he, hk, hid⟩ := hx
    exact ⟨user, hx, by rw [hid, ← hk, hperson e he]⟩
  · obtain ⟨e, he, hk, htag⟩ := hseen c hc
    obtain ⟨e', he', hk', htag'⟩ := hseen c' hc'
    rw [← hk, ← hk', ← htag, ← htag', hperson e he, hperson e' he']
    exact hf.persons e he e' he'
  · have hrows := filter_forall₂ (q := hasIdentity provider openid) hreg.identities
      (p := fun e => decide (e.key = (provider, openid))) fun e i hr => hr.hasIdentity provider openid
    have hiff : (provider, openid) ∈ r.map Enrolment.key ↔
        (provider, openid) ∈ calls.map IdentityCall.key := by
      constructor
      · intro h
        obtain ⟨e, he, hk⟩ := List.mem_map.mp h
        rcases hkeys e he with he | he
        · exact absurd he List.not_mem_nil
        · exact hk ▸ he
      · intro h
        obtain ⟨c, hc, hk⟩ := List.mem_map.mp h
        obtain ⟨e, he, hke, _⟩ := hseen c hc
        exact List.mem_map.mpr ⟨e, he, hke.trans hk⟩
    rw [← hrows.length_eq, hf.count_key]
    by_cases hk : (provider, openid) ∈ calls.map IdentityCall.key
    · rw [if_pos hk, if_pos (hiff.mpr hk)]
    · rw [if_neg hk, if_neg fun h => hk (hiff.mp h)]
  · intro i hm
    obtain ⟨e, he, hr⟩ := exists_of_forall₂ hreg.identities.flip hm
    obtain ⟨u, hu, hid⟩ := hreg.users e he
    refine ⟨?_, u, hu, by rw [hr.user, hid]⟩
    rcases hkeys e he with he' | he'
    · exact absurd he' List.not_mem_nil
    · obtain ⟨c, hc, hk⟩ := List.mem_map.mp he'
      refine ⟨c, hc, ?_⟩
      rw [← hr.hasIdentity]
      exact decide_eq_true hk.symm

/-- Logins over two identities with one unionid, and over a third with an empty one. -/
def threeIdentities : List IdentityCall :=
  [⟨"wechat_mini", ⟨"a", some "w", some "k1", none, none⟩, fun _ => "t1"⟩,
    ⟨"wechat_app", ⟨"b", some "w", none, none, none⟩, fun _ => "t2"⟩,
    ⟨"phone", ⟨"b", some "", none, none, none⟩, fun _ => "t3"⟩,
    ⟨"wechat_mini", ⟨"a", some "w", some "k2", none, none⟩, fun _ => "t4"⟩]

/-- The first two are one person, and the third is another. -/
theorem identities_merge_three :
    let s := Store.loadData "t0" "t0" .empty
    let rows := (identifyAll threeIdentities s).2.cache.rows .userIdentities
    rows.map (fun i => i.get "user_id") =
        [.num (.fin 1), .num (.fin 1), .num (.fin 2)] ∧
      (rows.filter (Users.hasIdentity "wechat_mini" "a")).length = 1 := by
  intro s rows
  have hsame : ∀ c ∈ threeIdentities, ∀ c' ∈ threeIdentities, c.key = c'.key → c.tag = c'.tag := by
    decide
  have hmerge := identities_merge (s := s) rfl hsame
  exact ⟨by decide, hmerge.2.1 "wechat_mini" "a"⟩

end JtfpMall
