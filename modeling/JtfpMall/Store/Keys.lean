import JtfpMall.Store.FileStore

/-!
# Key columns

A column whose values tell the rows of a table apart: a search for one of its values
finds the one row that has it, in whatever order the rows stand.
-/

namespace JtfpMall

open JtfpMall.Js
open JtfpMall.Lib

theorem mem_of_findOne {s : Store} {t : Table} {p : Row → Bool} {r : Row}
    (hf : s.findOne t p = some r) : r ∈ s.cache.rows t ∧ p r = true :=
  ⟨List.mem_of_find?_eq_some hf, List.find?_some hf⟩

/-- Every row has a value of the allowed kind in the column, and no two rows share one. -/
structure KeyColumn (column : String) (allowed : JsVal → Prop) (rows : List Row) : Prop where
  values : ∀ r ∈ rows, allowed (r.get column)
  distinct : (rows.map fun r => r.get column).Nodup

namespace KeyColumn

variable {column : String} {allowed allowed' : JsVal → Prop} {rows rows' : List Row}

theorem nil : KeyColumn column allowed [] := ⟨fun _ hr => absurd hr List.not_mem_nil, List.nodup_nil⟩

theorem mono (h : KeyColumn column allowed rows) (ha : ∀ v, allowed v → allowed' v) :
    KeyColumn column allowed' rows := ⟨fun r hr => ha _ (h.values r hr), h.distinct⟩

theorem perm (h : KeyColumn column allowed rows) (hp : rows'.Perm rows) :
    KeyColumn column allowed rows' :=
  ⟨fun r hr => h.values r (hp.mem_iff.mp hr), (hp.map _).nodup_iff.mpr h.distinct⟩

theorem sublist (h : KeyColumn column allowed rows) (hs : rows'.Sublist rows) :
    KeyColumn column allowed rows' :=
  ⟨fun r hr => h.values r (hs.subset hr), h.distinct.sublist (hs.map _)⟩

/-- Rows that change and keep their keys. -/
theorem of_keys (h : KeyColumn column allowed rows)
    (hk : (rows'.map fun r => r.get column) = rows.map fun r => r.get column) :
    KeyColumn column allowed rows' := by
  refine ⟨fun r hr => ?_, hk ▸ h.distinct⟩
  have hm : r.get column ∈ rows.map fun r => r.get column := hk ▸ List.mem_map_of_mem hr
  obtain ⟨r', hr', he⟩ := List.mem_map.mp hm
  rw [← he]
  exact h.values r' hr'

/-- One more row, under a key of its own. -/
theorem concat (h : KeyColumn column allowed rows) {r : Row} (hr : allowed (r.get column))
    (hn : ∀ r' ∈ rows, r'.get column ≠ r.get column) : KeyColumn column allowed (rows ++ [r]) := by
  refine ⟨fun r' hr' => ?_, ?_⟩
  · rcases List.mem_append.mp hr' with hm | hm
    · exact h.values r' hm
    · rw [List.mem_singleton.mp hm]
      exact hr
  · rw [List.map_append, List.nodup_append]
    refine ⟨h.distinct, List.nodup_singleton _, fun a ha b hb => ?_⟩
    obtain ⟨r', hr', rfl⟩ := List.mem_map.mp ha
    rw [List.map_singleton, List.mem_singleton] at hb
    rw [hb]
    exact hn r' hr'

/-- JSON text keeps keys that it represents. -/
theorem viaJson (h : KeyColumn column allowed rows) (ha : ∀ v, allowed v → v.viaJson = v) :
    KeyColumn column allowed (rows.map Dict.viaJson) := by
  refine h.of_keys ?_
  rw [List.map_map]
  refine List.map_congr_left fun r hr => ?_
  have hv := ha _ (h.values r hr)
  simp only [Function.comp]
  rw [Dict.get_viaJson, hv]

theorem unique (h : KeyColumn column allowed rows) (v : JsVal) :
    Unique (fun r => (r.get column).strictEq v) rows :=
  .of_nodup h.distinct fun _ _ _ _ ha hb =>
    (JsVal.eq_of_strictEq ha).trans (JsVal.eq_of_strictEq hb).symm

/-- Only one row has a key. -/
theorem eq_of_get (h : KeyColumn column allowed rows) {r r' : Row} (hr : r ∈ rows)
    (hr' : r' ∈ rows) (he : r'.get column = r.get column) : r' = r :=
  List.inj_on_of_nodup_map h.distinct hr' hr he

/-- A search for a key finds the one row that has it. -/
theorem find? (h : KeyColumn column allowed rows) (ha : ∀ v, allowed v → v.strictEq v = true)
    {r : Row} (hr : r ∈ rows) :
    rows.find? (fun r' => (r'.get column).strictEq (r.get column)) = some r := by
  have hself : (r.get column).strictEq (r.get column) = true := ha _ (h.values r hr)
  cases hf : rows.find? fun r' => (r'.get column).strictEq (r.get column) with
  | none => exact absurd hself (by simpa using List.find?_eq_none.mp hf r hr)
  | some r' =>
    have hp : (r'.get column).strictEq (r.get column) = true :=
      List.find?_some (p := fun r' : Row => (r'.get column).strictEq (r.get column)) hf
    rw [h.eq_of_get hr (List.mem_of_find?_eq_some hf) (JsVal.eq_of_strictEq hp)]

end KeyColumn

end JtfpMall
