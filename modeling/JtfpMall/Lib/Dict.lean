import Mathlib.Data.List.Lookmap
import Mathlib.Data.List.Nodup

/-!
# Insertion-ordered dictionaries

A dictionary with text keys that remembers the order in which its keys first
came in: writing a key that is there keeps its place, writing a new one appends
it, and laying one dictionary over another is what an object spread does. The
keys are pairwise distinct by construction.
-/

namespace JtfpMall.Lib

structure Dict (V : Type) where
  entries : List (String × V)
  nodup : (entries.map Prod.fst).Nodup

namespace Dict

variable {V W : Type}

instance [DecidableEq V] : DecidableEq (Dict V) := fun a b =>
  decidable_of_iff (a.entries = b.entries) ⟨fun h => by cases a; cases b; congr, fun h => h ▸ rfl⟩

@[ext] theorem ext {a b : Dict V} (h : a.entries = b.entries) : a = b := by
  cases a; cases b; congr

def empty : Dict V := ⟨[], List.nodup_nil⟩

def get? (d : Dict V) (k : String) : Option V := d.entries.lookup k

/-- Write in place when the key is there, else at the end. -/
def setEntries (k : String) (v : V) : List (String × V) → List (String × V)
  | [] => [(k, v)]
  | e :: es => if e.1 = k then (k, v) :: es else e :: setEntries k v es

theorem mem_keys_setEntries (k : String) (v : V) (es : List (String × V)) (x : String) :
    x ∈ (setEntries k v es).map Prod.fst ↔ x = k ∨ x ∈ es.map Prod.fst := by
  induction es with
  | nil => simp [setEntries]
  | cons e es ih =>
    by_cases he : e.1 = k
    · simp only [setEntries, he, if_true, List.map_cons, List.mem_cons]
      tauto
    · simp only [setEntries, he, if_false, List.map_cons, List.mem_cons, ih]
      tauto

theorem nodup_setEntries (k : String) (v : V) {es : List (String × V)}
    (h : (es.map Prod.fst).Nodup) : ((setEntries k v es).map Prod.fst).Nodup := by
  induction es with
  | nil => simp [setEntries]
  | cons e es ih =>
    rw [List.map_cons, List.nodup_cons] at h
    by_cases he : e.1 = k
    · simp only [setEntries, he, if_true, List.map_cons, List.nodup_cons]
      exact ⟨he ▸ h.1, h.2⟩
    · simp only [setEntries, he, if_false, List.map_cons, List.nodup_cons]
      refine ⟨fun hm => ?_, ih h.2⟩
      rcases (mem_keys_setEntries k v es e.1).mp hm with hk | hk
      · exact he hk
      · exact h.1 hk

def set (d : Dict V) (k : String) (v : V) : Dict V :=
  ⟨setEntries k v d.entries, nodup_setEntries k v d.nodup⟩

/-- `{...d, ...e}`. -/
def spread (d e : Dict V) : Dict V := e.entries.foldl (fun a p => a.set p.1 p.2) d

def ofList (es : List (String × V)) : Dict V := es.foldl (fun a p => a.set p.1 p.2) empty

theorem lookup_setEntries (k : String) (v : V) (es : List (String × V)) (x : String) :
    (setEntries k v es).lookup x = if x = k then some v else es.lookup x := by
  induction es with
  | nil =>
    by_cases hx : x = k
    · simp [setEntries, hx]
    · have hb : (x == k) = false := beq_false_of_ne hx
      simp [setEntries, hx, List.lookup_cons, hb]
  | cons e es ih =>
    obtain ⟨k', v'⟩ := e
    by_cases he : k' = k
    · subst he
      by_cases hx : x = k'
      · simp [setEntries, hx]
      · have hb : (x == k') = false := beq_false_of_ne hx
        simp [setEntries, hx, List.lookup_cons, hb]
    · simp only [setEntries, he, if_false]
      by_cases hx' : x = k'
      · subst hx'
        simp [he]
      · have hb : (x == k') = false := beq_false_of_ne hx'
        simpa [List.lookup_cons, hb] using ih

@[simp] theorem get?_empty (x : String) : (empty : Dict V).get? x = none := rfl

theorem get?_set (d : Dict V) (k : String) (v : V) (x : String) :
    (d.set k v).get? x = if x = k then some v else d.get? x :=
  lookup_setEntries k v d.entries x

@[simp] theorem get?_set_self (d : Dict V) (k : String) (v : V) : (d.set k v).get? k = some v := by
  simp [get?_set]

theorem get?_set_of_ne (d : Dict V) {k x : String} (v : V) (h : x ≠ k) :
    (d.set k v).get? x = d.get? x := by
  simp [get?_set, h]

theorem lookup_of_not_mem {es : List (String × V)} {x : String} (h : x ∉ es.map Prod.fst) :
    es.lookup x = none := by
  induction es with
  | nil => rfl
  | cons e es ih =>
    rw [List.map_cons, List.mem_cons, not_or] at h
    have hb : (x == e.1) = false := beq_false_of_ne h.1
    rw [List.lookup_cons, hb]
    exact ih h.2

theorem lookup_of_mem {es : List (String × V)} (hn : (es.map Prod.fst).Nodup) {k : String} {v : V}
    (h : (k, v) ∈ es) : es.lookup k = some v := by
  induction es with
  | nil => cases h
  | cons e es ih =>
    rw [List.map_cons, List.nodup_cons] at hn
    rcases List.mem_cons.mp h with rfl | h
    · simp
    · have hne : k ≠ e.1 := fun he => hn.1 (he ▸ List.mem_map_of_mem (f := Prod.fst) h)
      rw [List.lookup_cons, beq_false_of_ne hne]
      exact ih hn.2 h

theorem get?_of_mem {d : Dict V} {k : String} {v : V} (h : (k, v) ∈ d.entries) :
    d.get? k = some v := lookup_of_mem d.nodup h

theorem get?_foldl_set (es : List (String × V)) (hn : (es.map Prod.fst).Nodup) (d : Dict V)
    (x : String) :
    (es.foldl (fun a p => a.set p.1 p.2) d).get? x = (es.lookup x).or (d.get? x) := by
  induction es generalizing d with
  | nil => simp
  | cons e es ih =>
    obtain ⟨k, v⟩ := e
    rw [List.map_cons, List.nodup_cons] at hn
    rw [List.foldl_cons, ih hn.2, get?_set]
    by_cases hx : x = k
    · subst hx
      simp [lookup_of_not_mem hn.1]
    · have hb : (x == k) = false := beq_false_of_ne hx
      simp [hx, List.lookup_cons, hb]

theorem setEntries_of_not_mem {k : String} {es : List (String × V)} (h : k ∉ es.map Prod.fst)
    (v : V) : setEntries k v es = es ++ [(k, v)] := by
  induction es with
  | nil => rfl
  | cons e es ih =>
    rw [List.map_cons, List.mem_cons, not_or] at h
    rw [setEntries, if_neg (Ne.symm h.1), ih h.2]
    rfl

theorem entries_foldl_set {es : List (String × V)} (d : Dict V)
    (h : ((d.entries ++ es).map Prod.fst).Nodup) :
    (es.foldl (fun a p => a.set p.1 p.2) d).entries = d.entries ++ es := by
  induction es generalizing d with
  | nil => rw [List.append_nil, List.foldl_nil]
  | cons e es ih =>
    have hnew : e.1 ∉ d.entries.map Prod.fst := by
      rw [List.map_append, List.map_cons] at h
      exact fun hmem => (List.nodup_append.mp h).2.2 _ hmem _ List.mem_cons_self rfl
    have hset : (d.set e.1 e.2).entries = d.entries ++ [e] := setEntries_of_not_mem hnew e.2
    rw [List.foldl_cons, ih, hset, List.append_assoc, List.singleton_append]
    rwa [hset, List.append_assoc, List.singleton_append]

/-- Entries without a key twice are kept as they are. -/
theorem entries_ofList {es : List (String × V)} (h : (es.map Prod.fst).Nodup) :
    (ofList es).entries = es := entries_foldl_set empty h

/-- A spread reads the upper dictionary first. -/
theorem get?_spread (d e : Dict V) (x : String) : (d.spread e).get? x = (e.get? x).or (d.get? x) :=
  get?_foldl_set e.entries e.nodup d x

/-- Keep the entries on which `f` is defined, with their images. -/
def filterMap (f : V → Option W) (d : Dict V) : Dict W where
  entries := d.entries.filterMap fun p => (f p.2).map fun w => (p.1, w)
  nodup := by
    have hs : ((d.entries.filterMap fun p => (f p.2).map fun w => (p.1, w)).map Prod.fst).Sublist
        (d.entries.map Prod.fst) := by
      induction d.entries with
      | nil => simp
      | cons e es ih =>
        cases he : f e.2 with
        | none => simpa [he] using ih.cons _
        | some w => simpa [he] using ih
    exact d.nodup.sublist hs

theorem lookup_filterMap (f : V → Option W) (es : List (String × V))
    (hn : (es.map Prod.fst).Nodup) (x : String) :
    (es.filterMap fun p => (f p.2).map fun w => (p.1, w)).lookup x = (es.lookup x).bind f := by
  induction es with
  | nil => rfl
  | cons e es ih =>
    obtain ⟨k, v⟩ := e
    rw [List.map_cons, List.nodup_cons] at hn
    by_cases hx : x = k
    · subst hx
      cases hv : f v with
      | some w => simp [hv]
      | none => simp [hv, ih hn.2, lookup_of_not_mem hn.1]
    · have hb : (x == k) = false := beq_false_of_ne hx
      cases hv : f v with
      | some w => simp [hv, List.lookup_cons, hb, ih hn.2]
      | none => simp [hv, List.lookup_cons, hb, ih hn.2]

theorem get?_filterMap (f : V → Option W) (d : Dict V) (x : String) :
    (d.filterMap f).get? x = (d.get? x).bind f :=
  lookup_filterMap f d.entries d.nodup x

theorem filterMap_congr {f g : V → Option W} (d : Dict V)
    (h : ∀ k v, (k, v) ∈ d.entries → f v = g v) : d.filterMap f = d.filterMap g := by
  apply ext
  exact List.filterMap_congr fun p hp => by rw [h p.1 p.2 hp]

theorem filterMap_filterMap {X : Type} (f : V → Option W) (g : W → Option X) (d : Dict V) :
    (d.filterMap f).filterMap g = d.filterMap fun v => (f v).bind g := by
  apply ext
  simp only [filterMap, List.filterMap_filterMap]
  congr 1
  funext p
  cases f p.2 <;> rfl

end Dict

end JtfpMall.Lib
