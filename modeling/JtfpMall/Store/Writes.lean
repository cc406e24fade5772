import JtfpMall.Store.FileStore

/-!
# What one write does

The five writing functions of the store as one type, and what each of them can
do: it leaves the files alone; either it changes nothing at all, or it leaves the
store dirty with the flush timer pending; and it changes no row outside the ids
it touches.
-/

namespace JtfpMall

open JtfpMall.Js
open JtfpMall.Lib

inductive Write where
  | insert (t : Table) (row : Row)
  | update (t : Table) (id : JsVal) (updates : Row)
  | updateWhere (t : Table) (p : Row → Bool) (updates : Row)
  | remove (t : Table) (id : JsVal)
  | removeWhere (t : Table) (p : Row → Bool)

/-- The rows with a given id. -/
def rowsAt (d : StoreData) (t : Table) (id : JsVal) : List Row :=
  (d.rows t).filter fun r => decide (r.get "id" = id)

namespace Write

def apply (now : String) (s : Store) : Write → Store
  | .insert t row => (s.insert t row now).2
  | .update t id updates => (s.update t id updates now).2
  | .updateWhere t p updates => (s.updateWhere t p updates now).2
  | .remove t id => (s.remove t id).2
  | .removeWhere t p => (s.removeWhere t p).2

/-- The ids whose rows the write creates, changes or deletes. -/
def touched (now : String) (d : StoreData) : Write → List (Table × JsVal)
  | .insert t _ => [(t, .num (.ofNat (d.next t)))]
  | .update t id updates =>
    match (d.rows t).find? (Store.hasId id) with
    | some r => [(t, r.get "id"), (t, (Store.merged updates now r).get "id")]
    | none => []
  | .updateWhere t p updates => ((d.rows t).filter p).flatMap fun r =>
      [(t, r.get "id"), (t, (Store.merged updates now r).get "id")]
  | .remove t id =>
    match (d.rows t).find? (Store.hasId id) with
    | some r => [(t, r.get "id")]
    | none => []
  | .removeWhere t p => ((d.rows t).filter p).map fun r => (t, r.get "id")

/-- The values the write puts into rows are ones JSON text represents. -/
def IsPlain : Write → Prop
  | .insert _ row => Dict.IsPlain row
  | .update _ _ updates => Dict.IsPlain updates
  | .updateWhere _ _ updates => Dict.IsPlain updates
  | .remove _ _ => True
  | .removeWhere _ _ => True

end Write

namespace Store

@[simp] theorem files_markDirty (s : Store) : s.markDirty.files = s.files := rfl
@[simp] theorem cache_markDirty (s : Store) : s.markDirty.cache = s.cache := rfl
@[simp] theorem dirty_markDirty (s : Store) : s.markDirty.dirty = true := rfl
@[simp] theorem flushTimer_markDirty (s : Store) : s.markDirty.flushTimer = true := rfl
@[simp] theorem files_putRows (t : Table) (rows : List Row) (s : Store) :
    (s.putRows t rows).files = s.files := rfl
@[simp] theorem dirty_putRows (t : Table) (rows : List Row) (s : Store) :
    (s.putRows t rows).dirty = s.dirty := rfl
@[simp] theorem cache_putRows (t : Table) (rows : List Row) (s : Store) :
    (s.putRows t rows).cache = s.cache.setRows t rows := rfl

theorem putRows_self (t : Table) (s : Store) : s.putRows t (s.getTable t) = s := by
  unfold putRows getTable StoreData.setRows
  rw [Function.update_eq_self]

theorem any_hasId_iff (t : Table) (id : JsVal) (s : Store) :
    (s.getTable t).any (hasId id) = true ↔ ∃ r, (s.cache.rows t).find? (hasId id) = some r := by
  unfold getTable
  rw [← Option.isSome_iff_exists, List.find?_isSome, List.any_eq_true]

/-- Inserting appends the new row under the next id. -/
theorem cache_insert (t : Table) (row : Row) (now : String) (s : Store) :
    (s.insert t row now).2.cache =
      (s.cache.setNext t (s.cache.next t + 1)).setRows t
        (s.cache.rows t ++ [newRow row (s.cache.next t) now]) := rfl

theorem rows_insert (t u : Table) (row : Row) (now : String) (s : Store) :
    (s.insert t row now).2.cache.rows u =
      if u = t then s.cache.rows t ++ [newRow row (s.cache.next t) now] else s.cache.rows u := by
  rw [cache_insert, StoreData.rows_setRows, StoreData.rows_setNext]

theorem next_insert (t u : Table) (row : Row) (now : String) (s : Store) :
    (s.insert t row now).2.cache.next u = if u = t then s.cache.next t + 1 else s.cache.next u := by
  rw [cache_insert, StoreData.next_setRows, StoreData.next_setNext]

theorem rows_update (t u : Table) (id : JsVal) (updates : Row) (now : String) (s : Store) :
    (s.update t id updates now).2.cache.rows u =
      if u = t then modifyFirst (hasId id) (merged updates now) (s.cache.rows t)
      else s.cache.rows u := by
  unfold update
  split
  · exact StoreData.rows_setRows ..
  · rename_i h
    have hn : (s.cache.rows t).find? (hasId id) = none := by
      rw [Option.eq_none_iff_forall_not_mem]
      exact fun r hr => h ((any_hasId_iff t id s).mpr ⟨r, hr⟩)
    rw [modifyFirst_of_find?_none _ hn]
    split
    · rename_i hu
      rw [hu]
    · rfl

theorem next_update (t u : Table) (id : JsVal) (updates : Row) (now : String) (s : Store) :
    (s.update t id updates now).2.cache.next u = s.cache.next u := by
  unfold update
  split <;> rfl

theorem rows_remove (t u : Table) (id : JsVal) (s : Store) :
    (s.remove t id).2.cache.rows u =
      if u = t then (s.cache.rows t).eraseP (hasId id) else s.cache.rows u := by
  unfold remove
  split
  · exact StoreData.rows_setRows ..
  · rename_i h
    have hn : (s.cache.rows t).eraseP (hasId id) = s.cache.rows t := by
      rw [List.eraseP_eq_self_iff]
      intro r hr hp
      exact h (List.any_eq_true.mpr ⟨r, hr, hp⟩)
    rw [hn]
    split
    · rename_i hu
      rw [hu]
    · rfl

theorem next_remove (t u : Table) (id : JsVal) (s : Store) :
    (s.remove t id).2.cache.next u = s.cache.next u := by
  unfold remove
  split <;> rfl

theorem rows_updateWhere (t u : Table) (p : Row → Bool) (updates : Row) (now : String) (s : Store) :
    (s.updateWhere t p updates now).2.cache.rows u =
      if u = t then (s.cache.rows t).map fun r => if p r then merged updates now r else r
      else s.cache.rows u := by
  unfold updateWhere
  dsimp only
  split <;> exact StoreData.rows_setRows ..

theorem rows_removeWhere (t u : Table) (p : Row → Bool) (s : Store) :
    (s.removeWhere t p).2.cache.rows u =
      if u = t then (s.cache.rows t).filter fun r => !p r else s.cache.rows u := by
  unfold removeWhere
  dsimp only
  split <;> exact StoreData.rows_setRows ..

theorem next_removeWhere (t u : Table) (p : Row → Bool) (s : Store) :
    (s.removeWhere t p).2.cache.next u = s.cache.next u := by
  unfold removeWhere
  dsimp only
  split <;> rfl

theorem next_updateWhere (t u : Table) (p : Row → Bool) (updates : Row) (now : String) (s : Store) :
    (s.updateWhere t p updates now).2.cache.next u = s.cache.next u := by
  unfold updateWhere
  dsimp only
  split <;> rfl

theorem timerFired_eq (now : String) (s : Store) : s.timerFired now = s.flushNow now := rfl

theorem rows_flushNow (now : String) (s : Store) (t : Table) :
    (s.flushNow now).cache.rows t = s.cache.rows t := by
  unfold flushNow
  dsimp only
  split <;> rfl

theorem nextIds_flushNow (now : String) (s : Store) :
    (s.flushNow now).cache.info.nextIds = s.cache.info.nextIds := by
  unfold flushNow
  dsimp only
  split <;> rfl

theorem next_flushNow (now : String) (s : Store) (t : Table) :
    (s.flushNow now).cache.next t = s.cache.next t := by
  unfold StoreData.next
  rw [nextIds_flushNow]

theorem countP_eq_zero_map {p : Row → Bool} {rows : List Row} (f : Row → Row)
    (h : ¬0 < rows.countP p) : (rows.map fun r => if p r then f r else r) = rows := by
  have hz : rows.countP p = 0 := by omega
  rw [List.countP_eq_zero] at hz
  conv_rhs => rw [← List.map_id rows]
  exact List.map_congr_left fun r hr => by simp [hz r hr]

theorem filter_not_eq_self {p : Row → Bool} {rows : List Row}
    (h : ¬0 < rows.length - (rows.filter fun r => !p r).length) :
    (rows.filter fun r => !p r) = rows := by
  have hl := List.length_filter_le (fun r => !p r) rows
  exact List.filter_sublist.eq_of_length (by omega)

end Store

namespace Write

/-- A write that changes anything leaves the store dirty and the timer pending. -/
theorem apply_cases (now : String) (s : Store) (w : Write) :
    w.apply now s = s ∨
      ((w.apply now s).files = s.files ∧ (w.apply now s).dirty = true ∧
        (w.apply now s).flushTimer = true) := by
  cases w with
  | insert t row => exact Or.inr ⟨rfl, rfl, rfl⟩
  | update t id updates =>
    simp only [apply]
    unfold Store.update
    split
    · exact Or.inr ⟨rfl, rfl, rfl⟩
    · exact Or.inl rfl
  | updateWhere t p updates =>
    simp only [apply]
    unfold Store.updateWhere
    dsimp only
    split
    · exact Or.inr ⟨rfl, rfl, rfl⟩
    · rename_i h
      rw [Store.countP_eq_zero_map _ h]
      exact Or.inl (Store.putRows_self t s)
  | remove t id =>
    simp only [apply]
    unfold Store.remove
    split
    · exact Or.inr ⟨rfl, rfl, rfl⟩
    · exact Or.inl rfl
  | removeWhere t p =>
    simp only [apply]
    unfold Store.removeWhere
    dsimp only
    split
    · exact Or.inr ⟨rfl, rfl, rfl⟩
    · rename_i h
      rw [Store.filter_not_eq_self h]
      exact Or.inl (Store.putRows_self t s)

theorem files_apply (now : String) (s : Store) (w : Write) :
    (w.apply now s).files = s.files := by
  rcases apply_cases now s w with h | h
  · rw [h]
  · exact h.1

/-- What an update lays over a row of the table. -/
def updates? (t : Table) : Write → Option Row
  | .update u _ updates => if u = t then some updates else none
  | .updateWhere u _ updates => if u = t then some updates else none
  | _ => none

/-- Where the rows after a write come from. -/
theorem mem_rows_apply {now : String} {s : Store} {w : Write} {t : Table} {r : Row}
    (h : r ∈ (w.apply now s).cache.rows t) :
    r ∈ s.cache.rows t ∨ (∃ row id, w = .insert t row ∧ r = Store.newRow row id now) ∨
      ∃ old ∈ s.cache.rows t, ∃ updates, w.updates? t = some updates ∧
        r = Store.merged updates now old := by
  cases w with
  | insert u row =>
    rw [apply, Store.rows_insert] at h
    split at h
    · rename_i ht
      subst ht
      rcases List.mem_append.mp h with h | h
      · exact Or.inl h
      · exact Or.inr (Or.inl ⟨row, _, rfl, List.mem_singleton.mp h⟩)
    · exact Or.inl h
  | update u id updates =>
    rw [apply, Store.rows_update] at h
    split at h
    · rename_i ht
      subst ht
      rcases mem_modifyFirst h with h | ⟨old, hold, he⟩
      · exact Or.inl h
      · exact Or.inr (Or.inr ⟨old, List.mem_of_find?_eq_some hold, updates, if_pos rfl, he⟩)
    · exact Or.inl h
  | updateWhere u p updates =>
    rw [apply, Store.rows_updateWhere] at h
    split at h
    · rename_i ht
      subst ht
      obtain ⟨old, hold, he⟩ := List.mem_map.mp h
      split at he
      · exact Or.inr (Or.inr ⟨old, hold, updates, if_pos rfl, he.symm⟩)
      · exact Or.inl (he ▸ hold)
    · exact Or.inl h
  | remove u id =>
    rw [apply, Store.rows_remove] at h
    split at h
    · rename_i ht
      exact Or.inl (ht ▸ List.mem_of_mem_eraseP h)
    · exact Or.inl h
  | removeWhere u p =>
    rw [apply, Store.rows_removeWhere] at h
    split at h
    · rename_i ht
      exact Or.inl (ht ▸ List.mem_of_mem_filter h)
    · exact Or.inl h

/-- Rows under ids the write does not touch are the same before and after. -/
theorem rowsAt_apply (now : String) (s : Store) (w : Write) {t : Table} {v : JsVal}
    (h : (t, v) ∉ w.touched now s.cache) :
    rowsAt (w.apply now s).cache t v = rowsAt s.cache t v := by
  unfold rowsAt
  cases w with
  | insert u row =>
    rw [apply, Store.rows_insert]
    split
    · rename_i ht
      subst ht
      have hv : v ≠ .num (.ofNat (s.cache.next t)) := by
        intro he
        exact h (by simp [touched, he])
      have hid : (Store.newRow row (s.cache.next t) now).get "id" = .num (.ofNat (s.cache.next t)) := by
        simp [Store.newRow, Dict.get_set]
      simp [hid, hv.symm]
    · rfl
  | update u id updates =>
    rw [apply, Store.rows_update]
    split
    · rename_i ht
      subst ht
      refine filter_modifyFirst fun r hr => ?_
      simp only [touched, hr, List.mem_cons, Prod.mk.injEq, true_and, List.not_mem_nil, or_false,
        not_or] at h
      exact ⟨by simpa using fun he => h.1 he.symm, by simpa using fun he => h.2 he.symm⟩
    · rfl
  | updateWhere u p updates =>
    rw [apply, Store.rows_updateWhere]
    split
    · rename_i ht
      subst ht
      refine filter_map_ite fun r hr hp => ?_
      constructor <;> rw [decide_eq_false_iff_not] <;> rintro rfl <;>
        exact h (List.mem_flatMap.mpr ⟨r, List.mem_filter.mpr ⟨hr, hp⟩, by simp⟩)
    · rfl
  | remove u id =>
    rw [apply, Store.rows_remove]
    split
    · rename_i ht
      subst ht
      refine filter_eraseP fun r hr => ?_
      simp only [touched, hr, List.mem_cons, Prod.mk.injEq, true_and, List.not_mem_nil,
        or_false] at h
      simpa using fun he => h he.symm
    · rfl
  | removeWhere u p =>
    rw [apply, Store.rows_removeWhere]
    split
    · rename_i ht
      subst ht
      rw [List.filter_filter]
      refine List.filter_congr fun r hr => ?_
      by_cases hv : r.get "id" = v
      · have hp : p r = false := by
          by_contra hp
          rw [Bool.not_eq_false] at hp
          exact h (List.mem_map.mpr ⟨r, List.mem_filter.mpr ⟨hr, hp⟩, by rw [hv]⟩)
        simp [hv, hp]
      · simp [hv]
    · rfl

end Write

theorem isPlain_newRow {row : Row} (h : row.IsPlain) (id : ℕ) (now : String) :
    (Store.newRow row id now).IsPlain := by
  have hor : ∀ k, (row.get k).or (.str now) = .undefined ∨
      ((row.get k).or (.str now)).isPlain = true := by
    intro k
    unfold JsVal.or
    split
    · exact h k
    · exact Or.inr rfl
  exact ((h.set "id" (Or.inr rfl)).set "created_at" (hor _)).set "updated_at" (hor _)

theorem isPlain_merged {row updates : Row} (h : row.IsPlain) (hu : updates.IsPlain) (now : String) :
    (Store.merged updates now row).IsPlain :=
  (h.spread hu).set "updated_at" (Or.inr rfl)

/-- Plain writes keep the data plain. -/
theorem isPlain_apply (now : String) {s : Store} {w : Write} (hs : s.cache.IsPlain)
    (hw : w.IsPlain) : (w.apply now s).cache.IsPlain := by
  intro u r hr
  cases w with
  | insert t row =>
    rw [Write.apply, Store.rows_insert] at hr
    split at hr
    · rcases List.mem_append.mp hr with hr | hr
      · exact hs t r hr
      · rw [List.mem_singleton] at hr
        exact hr ▸ isPlain_newRow hw _ _
    · exact hs u r hr
  | update t id updates =>
    rw [Write.apply, Store.rows_update] at hr
    split at hr
    · rcases mem_modifyFirst hr with hr | ⟨a, ha, rfl⟩
      · exact hs t r hr
      · exact isPlain_merged (hs t a (List.mem_of_find?_eq_some ha)) hw now
    · exact hs u r hr
  | updateWhere t p updates =>
    rw [Write.apply, Store.rows_updateWhere] at hr
    split at hr
    · obtain ⟨a, ha, rfl⟩ := List.mem_map.mp hr
      split
      · exact isPlain_merged (hs t a ha) hw now
      · exact hs t a ha
    · exact hs u r hr
  | remove t id =>
    rw [Write.apply, Store.rows_remove] at hr
    split at hr
    · exact hs t r (List.mem_of_mem_eraseP hr)
    · exact hs u r hr
  | removeWhere t p =>
    rw [Write.apply, Store.rows_removeWhere] at hr
    split at hr
    · exact hs t r (List.mem_of_mem_filter hr)
    · exact hs u r hr

end JtfpMall
