import JtfpMall.Store.Keys
import JtfpMall.Server.Runs

/-!
# Row identity

Ids are issued by a counter and keyed on by every lookup. A row keeps its id under
every write except an update whose data carry an `id` of their own, and the PUT
handlers of products, properties and welfare codes pass the body on as it is.
-/

namespace JtfpMall

open JtfpMall.Js
open JtfpMall.Lib

/-- The ids of a table are issued numbers, each on one row. -/
def Issued (d : StoreData) (t : Table) : Prop :=
  KeyColumn "id" (fun v => ∃ n, v = .num (.ofNat n) ∧ n < d.next t) (d.rows t)

namespace Issued

variable {d d' : StoreData} {t : Table}

theorem of_rows (h : Issued d t) {rows : List Row} (hr : d'.rows t = rows)
    (hk : ∀ {allowed}, KeyColumn "id" allowed (d.rows t) → KeyColumn "id" allowed rows)
    (hn : d'.next t = d.next t) : Issued d' t := by
  unfold Issued
  rw [hr, hn]
  exact hk h

theorem perm (h : Issued d t) (hp : (d'.rows t).Perm (d.rows t)) (hn : d'.next t = d.next t) :
    Issued d' t := h.of_rows rfl (fun hk => hk.perm hp) hn

theorem unique (h : Issued d t) (id : JsVal) : Unique (Store.hasId id) (d.rows t) :=
  KeyColumn.unique h id

theorem hasId_self (h : Issued d t) {r : Row} (hr : r ∈ d.rows t) :
    Store.hasId (r.get "id") r = true := by
  obtain ⟨n, hn, _⟩ := h.values r hr
  unfold Store.hasId
  rw [hn]
  simp [JsVal.strictEq]

/-- An issued id is on one row. -/
theorem hasId_iff (h : Issued d t) {r r' : Row} (hr : r ∈ d.rows t) (hr' : r' ∈ d.rows t) :
    Store.hasId (r.get "id") r' = true ↔ r' = r := by
  constructor
  · intro hid
    exact h.eq_of_get hr hr' (JsVal.eq_of_strictEq hid)
  · rintro rfl
    exact h.hasId_self hr

/-- A lookup by an issued id finds the one row that has it. -/
theorem find (h : Issued d t) {r : Row} (hr : r ∈ d.rows t) :
    (d.rows t).find? (Store.hasId (r.get "id")) = some r := by
  refine KeyColumn.find? h (fun v hv => ?_) hr
  obtain ⟨n, rfl, _⟩ := hv
  simp [JsVal.strictEq]

end Issued

theorem get_newRow_id (row : Row) (id : ℕ) (now : String) :
    (Store.newRow row id now).get "id" = .num (.ofNat id) := by
  simp [Store.newRow, Dict.get_set]

theorem get_merged_id (updates row : Row) (now : String) :
    (Store.merged updates now row).get "id" =
      if updates.has "id" then updates.get "id" else row.get "id" := by
  unfold Store.merged
  rw [Dict.get_set_of_ne _ _ (by decide), Dict.get_spread]

theorem get_merged_of_ne {updates : Row} {k : String} (hk : k ≠ "updated_at") (now : String)
    (row : Row) : (Store.merged updates now row).get k =
      if updates.has k then updates.get k else row.get k := by
  rw [Store.merged, Dict.get_set_of_ne _ _ hk, Dict.get_spread]

/-- The row an update hits keeps its id. -/
theorem get_merged_id_of_keepsIds {t : Table} {id : JsVal} {updates row : Row}
    (h : (Write.update t id updates).KeepsIds) (hr : Store.hasId id row = true) (now : String) :
    (Store.merged updates now row).get "id" = row.get "id" := by
  rw [get_merged_id]
  rcases h with h | h
  · simp [h]
  · have hid : row.get "id" = id := JsVal.eq_of_strictEq hr
    rw [h, hid, ite_self]

theorem ids_update {t : Table} {id : JsVal} {updates : Row}
    (h : (Write.update t id updates).KeepsIds) (now : String) (s : Store) :
    (((s.update t id updates now).2.cache.rows t).map fun r => r.get "id") =
      (s.cache.rows t).map fun r => r.get "id" := by
  rw [Store.rows_update, if_pos rfl]
  refine map_modifyFirst fun r hr => ?_
  exact get_merged_id_of_keepsIds h (List.find?_some hr) now

theorem Issued.insert {s : Store} {t : Table} (h : Issued s.cache t) (row : Row) (now : String) :
    Issued (s.insert t row now).2.cache t := by
  unfold Issued
  rw [Store.rows_insert, if_pos rfl, Store.next_insert, if_pos rfl]
  have hk : KeyColumn "id" (fun v => ∃ n, v = .num (.ofNat n) ∧ n < s.cache.next t + 1)
      (s.cache.rows t) := by
    refine h.mono fun v hv => ?_
    obtain ⟨n, hn, hlt⟩ := hv
    exact ⟨n, hn, by omega⟩
  refine hk.concat ⟨s.cache.next t, get_newRow_id _ _ _, by omega⟩ fun r hr he => ?_
  obtain ⟨n, hn, hlt⟩ := h.values r hr
  rw [get_newRow_id, hn, JsVal.num.injEq, JsNum.ofNat_inj] at he
  omega

/-- A write that keeps ids keeps the ids issued. -/
theorem issued_apply {s : Store} {t : Table} (h : Issued s.cache t) {w : Write}
    (hw : w.table = t → w.KeepsIds) (now : String) : Issued (w.apply now s).cache t := by
  by_cases ht : w.table = t
  · have hk := hw ht
    subst ht
    cases w with
    | insert u row => exact h.insert row now
    | update u id updates => exact h.of_rows rfl (fun h => h.of_keys (ids_update hk now s)) (Store.next_update ..)
    | updateWhere u p updates =>
      refine h.of_rows ((Store.rows_updateWhere ..).trans (if_pos rfl)) (fun h => h.of_keys ?_)
        (Store.next_updateWhere ..)
      rw [List.map_map]
      refine List.map_congr_left fun r _ => ?_
      simp only [Function.comp]
      split
      · rw [get_merged_id]
        simp [show updates.has "id" = false from hk]
      · rfl
    | remove u id =>
      exact h.of_rows ((Store.rows_remove ..).trans (if_pos rfl))
        (fun h => h.sublist List.eraseP_sublist) (Store.next_remove ..)
    | removeWhere u p =>
      exact h.of_rows ((Store.rows_removeWhere ..).trans (if_pos rfl))
        (fun h => h.sublist List.filter_sublist) (Store.next_removeWhere ..)
  · exact h.perm (.of_eq (Write.rows_apply_of_ne ht now s)) (Write.next_apply_of_ne ht now s)

theorem issued_putRows {s : Store} {t u : Table} {rows : List Row} (h : Issued s.cache t)
    (hp : rows.Perm (s.cache.rows u)) : Issued (s.putRows u rows).cache t := by
  refine h.perm ?_ rfl
  rw [Store.cache_putRows, StoreData.rows_setRows]
  split
  · rename_i hu
    rw [hu]
    exact hp
  · exact .refl _

theorem issued_flushNow {s : Store} {t : Table} (h : Issued s.cache t) (now : String) :
    Issued (s.flushNow now).cache t :=
  h.perm (.of_eq (Store.rows_flushNow now s t)) (Store.next_flushNow now s t)

/-- JSON text keeps issued ids. -/
theorem Issued.viaJson {d : StoreData} {t : Table} (h : Issued d t) : Issued d.viaJson t := by
  refine KeyColumn.viaJson h fun v hv => ?_
  obtain ⟨n, rfl, _⟩ := hv
  rfl

theorem issued_initDefaultData {s : Store} {t : Table} (h : Issued s.cache t)
    (clock : ℕ → String) : Issued (s.initDefaultData clock).cache t :=
  Store.initDefaultData_invariant (fun s => Issued s.cache t)
    (fun _ row _ now hi => issued_apply (w := .insert .categories row) hi (fun _ => trivial) now)
    (fun _ now hi =>
      issued_apply (w := .insert .admins Store.defaultAdmin) hi (fun _ => trivial) now)
    (fun _ now hi => issued_flushNow hi now) clock h

theorem SavedAs.next {env : Env} {s : Store} {d : StoreData} (h : SavedAs env s d) (t : Table) :
    d.next t = s.cache.next t := by
  unfold StoreData.next
  rw [h.nextIds]

theorem issued_restart {env : Env} {s : Store} {t : Table} (hs : Saved env s)
    (h : Issued s.cache t) (loadedAt : String) (clock : ℕ → String) :
    Issued (Server.restart loadedAt clock s).cache t := by
  obtain ⟨d, hd⟩ := savedAs_flushNow hs (clock 0)
  unfold Server.restart Server.start
  refine issued_initDefaultData ?_ _
  rw [loadData_of_savedAs hd]
  have hf : Issued (s.flushNow (clock 0)).cache t := issued_flushNow h _
  exact (hf.perm (hd.rows t).perm.symm (hd.next t)).viaJson

theorem issued_start (loadedAt : String) (clock : ℕ → String) (t : Table) :
    Issued (Server.start loadedAt clock .empty).cache t :=
  issued_initDefaultData (s := Store.loadData loadedAt (clock 0) .empty) KeyColumn.nil _

namespace Server

/-- The event changes no id of the table `t`. -/
def Event.KeepsIdsOf (t : Table) : Event → Prop
  | .request r _ => t ∈ r.tables → r.KeepsIds
  | .operation w _ => w.table = t → w.KeepsIds
  | _ => True

theorem issued_serve {env : Env} {s : Store} {t : Table} (h : Issued s.cache t) {r : Request}
    (hk : t ∈ r.tables → r.KeepsIds) (at_ : Moment) : Issued (serve env r at_ s).cache t := by
  by_cases ht : t ∈ r.tables
  · refine serve_invariant (fun s => Issued s.cache t)
      (fun s' w now hw hi => issued_apply hi (fun _ => hw.ids (hk ht)) now)
      (fun s' u rows _ hrows hi => issued_putRows hi (arraySort_perm hrows))
      (fun s' now hi => issued_flushNow hi now) at_ h
  · have hf := serve_sameRows env ht at_ s
    exact h.perm hf.perm hf.next

theorem issued_step {env : Env} {s s' : Store} {e : Event} {t : Table} (hsv : Saved env s)
    (h : Issued s.cache t) (hk : e.KeepsIdsOf t) (hs : step env s e = some s') :
    Issued s'.cache t := by
  cases e with
  | request r at_ =>
    cases hs
    exact issued_serve h hk at_
  | operation w now =>
    cases hs
    exact issued_apply h hk now
  | timer now =>
    simp only [step] at hs
    split at hs
    · cases hs
      exact issued_flushNow h now
    · cases hs
  | flush now =>
    cases hs
    exact issued_flushNow h now
  | restart loadedAt clock =>
    cases hs
    exact issued_restart hsv h loadedAt clock

end Server

/-- The table and the id a PUT on `/:id` is addressed to. -/
def Request.put : Request → Option (Table × JsNum)
  | .admin true (.updateProduct id _) => some (.products, parseInt id)
  | .admin true (.updateProperty id _) => some (.properties, stringToNumber id)
  | .admin true (.updateCategory id _) => some (.categories, stringToNumber id)
  | .admin true (.updateWelfareCode id _) => some (.welfareCodes, parseInt id)
  | _ => none

/-- The rows of the table keep their ids, and only the row with the id changes. -/
structure PutKeeps (s s' : Store) (t : Table) (id : JsVal) : Prop where
  ids : ((s'.cache.rows t).map fun r => r.get "id") = (s.cache.rows t).map fun r => r.get "id"
  others : ((s'.cache.rows t).filter fun r => !Store.hasId id r) =
    (s.cache.rows t).filter fun r => !Store.hasId id r
  tables : ∀ u, u ≠ t → s'.cache.rows u = s.cache.rows u

theorem PutKeeps.refl (s : Store) (t : Table) (id : JsVal) : PutKeeps s s t id :=
  ⟨rfl, rfl, fun _ _ => rfl⟩

theorem putKeeps_update {t : Table} {id : JsVal} {updates : Row}
    (h : (Write.update t id updates).KeepsIds) (now : String) (s : Store) :
    PutKeeps s (s.update t id updates now).2 t id where
  ids := ids_update h now s
  others := by
    rw [Store.rows_update, if_pos rfl]
    refine filter_modifyFirst fun r hr => ?_
    have hid : Store.hasId id r = true := List.find?_some hr
    have hm : Store.hasId id (Store.merged updates now r) = true := by
      unfold Store.hasId at hid ⊢
      rw [get_merged_id_of_keepsIds h hid now]
      exact hid
    exact ⟨by rw [hid]; rfl, by rw [hm]; rfl⟩
  tables u hu := by rw [Store.rows_update, if_neg hu]

/-- What the data of a PUT amount to once the handler has read its body. -/
def Request.putData : Request → Except JsError Row
  | .admin true (.updateProduct _ body) => .ok body
  | .admin true (.updateProperty _ body) => PropertyRoutes.withShopFields body
  | .admin true (.updateCategory _ body) => .ok (Categories.cleanData (CatalogueRoutes.categoryUpdates body))
  | .admin true (.updateWelfareCode _ body) => .ok body
  | _ => .ok .empty

theorem Request.KeepsIds.put {r : Request} {t : Table} {id : JsNum} {data : Row}
    (hk : r.KeepsIds) (hr : r.put = some (t, id)) (hd : r.putData = .ok data) :
    (Write.update t (.num id) data).KeepsIds := by
  unfold Request.put at hr
  split at hr
  · cases hr
    cases hd
    exact hk
  · cases hr
    exact hk data hd
  · cases hr
    cases hd
    exact Or.inl (has_cleanData _)
  · cases hr
    cases hd
    exact hk
  · cases hr

/-- The body of the PUT handlers: look the row up, make the data, update. -/
theorem run_put (t : Table) (id : JsVal) (missing done : Response) (data : Except JsError Row)
    (now : String) (s : Store) :
    let m : Act Response := do
      match ← Act.findById t id with
      | none => return missing
      | some _ => do
        let data ← Action.lift data
        let _ ← Act.update t id data now
        return done
    ((m.run s).2 = s ∧ (s.findById t id = none ∨ ∃ e, data = .error e)) ∨
      ∃ row, data = .ok row ∧ (m.run s).2 = (s.update t id row now).2 := by
  intro m
  have hm : m.run s = Action.run (match s.findById t id with
      | none => pure missing
      | some _ => Action.lift data >>= fun row => Act.update t id row now >>= fun _ => pure done) s :=
    rfl
  rw [hm]
  cases s.findById t id with
  | none => exact Or.inl ⟨rfl, Or.inl rfl⟩
  | some _ =>
    cases data with
    | error e => exact Or.inl ⟨rfl, Or.inr ⟨e, rfl⟩⟩
    | ok row => exact Or.inr ⟨row, rfl, rfl⟩

/-- What a PUT does: nothing, or the one update it is there for. -/
theorem serve_put (env : Env) {r : Request} {t : Table} {id : JsNum} (hr : r.put = some (t, id))
    (at_ : Moment) (s : Store) :
    (Server.serve env r at_ s = s ∧ (s.findById t (.num id) = none ∨ ∃ e, r.putData = .error e)) ∨
      ∃ data, r.putData = .ok data ∧
        Server.serve env r at_ s = (s.update t (.num id) data (at_.clock 0)).2 := by
  unfold Request.put at hr
  split at hr
  · cases hr
    unfold Server.serve Request.handle Request.handleAdmin CatalogueRoutes.updateProduct adminGuarded
    rw [Action.snd_run_attempt]
    exact run_put .products (.num _) _ _ (.ok _) _ s
  · cases hr
    unfold Server.serve Request.handle Request.handleAdmin PropertyRoutes.update adminGuarded
    rw [Action.snd_run_attempt]
    exact run_put .properties (.num _) _ _ _ _ s
  · cases hr
    unfold Server.serve Request.handle Request.handleAdmin CatalogueRoutes.updateCategory adminGuarded
    rw [Action.snd_run_attempt]
    exact run_put .categories (.num _) _ _ (.ok _) _ s
  · cases hr
    unfold Server.serve Request.handle Request.handleAdmin WelfareRoutes.update adminGuarded
    rw [Action.snd_run_attempt]
    exact run_put .welfareCodes (.num _) _ _ (.ok _) _ s
  · cases hr

namespace Store

theorem update_of_missing {s : Store} {t : Table} {id : JsVal} (h : s.findById t id = none)
    (updates : Row) (now : String) : s.update t id updates now = (false, s) := by
  unfold update
  rw [if_neg]
  rw [any_hasId_iff]
  rintro ⟨r, hr⟩
  exact absurd (h.symm.trans hr) (by simp)

end Store

/-- The write is an update that finds no row. -/
def Write.Misses (s : Store) : Write → Prop
  | .update t id _ => s.findById t id = none
  | _ => False

namespace Server

/-- An update that finds its row is not given another id for it. -/
def Event.KeepsIds (s : Store) : Event → Prop
  | .request r _ => r.KeepsIds ∨ ∃ t id, r.put = some (t, id) ∧ s.findById t (.num id) = none
  | .operation w _ => w.KeepsIds ∨ w.Misses s
  | _ => True

theorem serve_put_of_missing (env : Env) {r : Request} {t : Table} {id : JsNum} {s : Store}
    (hr : r.put = some (t, id)) (hm : s.findById t (.num id) = none) (at_ : Moment) :
    serve env r at_ s = s := by
  obtain ⟨h, _⟩ | ⟨data, _, h⟩ := serve_put env hr at_ s
  · exact h
  · rw [h, Store.update_of_missing hm]

theorem issued_keepsIds {env : Env} {s s' : Store} {e : Event} (hsv : Saved env s)
    (h : ∀ t, Issued s.cache t) (hk : e.KeepsIds s) (hs : step env s e = some s') (t : Table) :
    Issued s'.cache t := by
  cases e with
  | request r at_ =>
    rcases hk with hk | ⟨u, id, hr, hm⟩
    · exact issued_step (e := .request r at_) hsv (h t) (fun _ => hk) hs
    · cases hs
      rw [serve_put_of_missing env hr hm]
      exact h t
  | operation w now =>
    rcases hk with hk | hk
    · exact issued_step (e := .operation w now) hsv (h t) (fun _ => hk) hs
    · cases hs
      cases w with
      | update u id updates =>
        change Issued (s.update u id updates now).2.cache t
        rw [Store.update_of_missing hk]
        exact h t
      | _ => exact hk.elim
  | timer now => exact issued_step (e := .timer now) hsv (h t) trivial hs
  | flush now => exact issued_step (e := .flush now) hsv (h t) trivial hs
  | restart loadedAt clock => exact issued_step (e := .restart loadedAt clock) hsv (h t) trivial hs

theorem issued_run {env : Env} {loadedAt : String} {clock : ℕ → String} {es : List Event}
    {s : Store} (hok : Along (step env) Event.KeepsIds (start loadedAt clock .empty) es)
    (hr : run (step env) (start loadedAt clock .empty) es = some s) (t : Table) :
    Issued s.cache t :=
  (run_invariant (step env) (fun s => Saved env s ∧ ∀ t, Issued s.cache t)
    (fun _ _ _ hi ho hs => ⟨saved_step hi.1 hs, issued_keepsIds hi.1 hi.2 ho hs⟩)
    ⟨saved_start loadedAt clock, issued_start loadedAt clock⟩ hok hr).2 t

end Server

/-- What is done under the id of the row `r` is done to `r` alone. -/
structure OneRow (s : Store) (t : Table) (r : Row) : Prop where
  found : s.findById t (r.get "id") = some r
  only : ∀ r' ∈ s.cache.rows t, Store.hasId (r.get "id") r' = true ↔ r' = r
  updated : ∀ updates now, (s.update t (r.get "id") updates now).2.cache.rows t =
    (s.cache.rows t).map fun r' => if r' = r then Store.merged updates now r' else r'
  removed : (s.remove t (r.get "id")).2.cache.rows t =
    (s.cache.rows t).filter fun r' => decide (r' ≠ r)

theorem Issued.oneRow {s : Store} {t : Table} (h : Issued s.cache t) {r : Row}
    (hr : r ∈ s.cache.rows t) : OneRow s t r where
  found := h.find hr
  only r' hr' := h.hasId_iff hr hr'
  updated updates now := by
    rw [Store.rows_update, if_pos rfl, (h.unique _).modifyFirst_eq]
    refine List.map_congr_left fun r' hr' => ?_
    simp only [h.hasId_iff hr hr']
  removed := by
    rw [Store.rows_remove, if_pos rfl, (h.unique _).eraseP_eq]
    refine List.filter_congr fun r' hr' => ?_
    rw [Bool.eq_iff_iff, Bool.not_eq_true', decide_eq_true_iff, ← Bool.not_eq_true,
      h.hasId_iff hr hr']

namespace Server

/-- As long as no update that finds its row carries another id, ids stay distinct and
below the counters, whatever is done under an id is done to the one row that was issued it, and a
PUT changes no id and no other row. -/
theorem rows_keep_their_ids {env : Env} {loadedAt : String} {clock : ℕ → String} {es : List Event}
    {s : Store} (hok : Along (step env) Event.KeepsIds (start loadedAt clock .empty) es)
    (hr : run (step env) (start loadedAt clock .empty) es = some s) :
    (∀ t, Issued s.cache t ∧ ∀ r ∈ s.cache.rows t, OneRow s t r) ∧
      ∀ r at_ t id, r.put = some (t, id) → Event.KeepsIds s (.request r at_) →
        PutKeeps s (serve env r at_ s) t (.num id) := by
  refine ⟨fun t => ⟨issued_run hok hr t, fun r hm => (issued_run hok hr t).oneRow hm⟩, ?_⟩
  intro r at_ t id hp hk
  obtain ⟨h, _⟩ | ⟨data, hd, h⟩ := serve_put env hp at_ s
  · rw [h]
    exact .refl s t _
  · rw [h]
    rcases hk with hk | ⟨u, id', hr', hm⟩
    · exact putKeeps_update (hk.put hp hd) _ s
    · rw [hp] at hr'
      cases hr'
      rw [Store.update_of_missing hm]
      exact .refl s t _

/-- The moment of the requests below. -/
def moment (now : String) : Moment := ⟨fun _ => now, ⟨2025, 0, 1, 0, 0, 0⟩, 0⟩

/-- A product is created and renamed. -/
theorem rows_keep_their_ids_renamed :
    let es : List Event := [
      .request (.admin true (.createProduct (.ofList [("title", .str "a")]))) (moment "t2"),
      .request (.admin true (.updateProduct "1" (.ofList [("title", .str "b")]))) (moment "t3")]
    ∃ s, run (step .plain) (start "t0" (fun _ => "t1") .empty) es = some s ∧
      ∀ t, Issued s.cache t := by
  intro es
  have hok : Along (step .plain) Event.KeepsIds (start "t0" (fun _ => "t1") .empty) es :=
    ⟨Or.inl trivial, fun s1 _ => ⟨Or.inl (Or.inl rfl), fun s2 _ => trivial⟩⟩
  exact ⟨_, rfl, fun t => ((rows_keep_their_ids hok rfl).1 t).1⟩

/-- Two products are created; a PUT on the first whose body carries the id of the second
leaves both under one id. -/
theorem put_takes_foreign_id :
    let es : List Event := [
      .request (.admin true (.createProduct (.ofList [("title", .str "a")]))) (moment "t2"),
      .request (.admin true (.createProduct (.ofList [("title", .str "b")]))) (moment "t3"),
      .request (.admin true (.updateProduct "1" (.ofList [("id", .num (.fin 2))]))) (moment "t4")]
    ∃ s, run (step .plain) (start "t0" (fun _ => "t1") .empty) es = some s ∧
      ((s.cache.rows .products).map fun r => r.get "id") = [.num (.fin 2), .num (.fin 2)] ∧
      ¬Issued s.cache .products := by
  intro es
  have hids : ∃ s, run (step .plain) (start "t0" (fun _ => "t1") .empty) es = some s ∧
      ((s.cache.rows .products).map fun r => r.get "id") = [.num (.fin 2), .num (.fin 2)] :=
    ⟨_, rfl, by decide⟩
  obtain ⟨s, hs, hi⟩ := hids
  refine ⟨s, hs, hi, fun h => ?_⟩
  have hd := h.distinct
  rw [hi] at hd
  simp at hd

end Server

end JtfpMall
