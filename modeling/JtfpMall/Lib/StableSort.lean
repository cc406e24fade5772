import Mathlib.Data.List.Sort

/-!
# Stable sorting

A stable sort is insertion from the right: an element goes before the first one
it is not after, so ties keep their order. For a total preorder the sort commutes
with selection, hence a list and its sorted copy give the same sorted selections:
sorting a table in place shows in no sorted listing of it.
-/

namespace JtfpMall.Lib

variable {α : Type} (r : α → α → Prop) [DecidableRel r]

theorem filter_orderedInsert (htr : ∀ a b c, r a b → r b c → r a c) (p : α → Bool) (a : α)
    {l : List α} (hs : l.Pairwise r) :
    (l.orderedInsert r a).filter p =
      if p a then (l.filter p).orderedInsert r a else l.filter p := by
  induction l with
  | nil => by_cases h : p a <;> simp [h]
  | cons b l ih =>
    rw [List.pairwise_cons] at hs
    by_cases hab : r a b
    · rw [List.orderedInsert_cons_of_le r l hab]
      by_cases ha : p a
      · rw [List.filter_cons_of_pos ha, if_pos ha]
        -- everything behind `b` is behind `a` too, so `a` stays in front
        cases hf : (b :: l).filter p with
        | nil => rfl
        | cons c m =>
          have hc : c ∈ (b :: l).filter p := by simp [hf]
          rw [List.mem_filter, List.mem_cons] at hc
          rw [List.orderedInsert_cons_of_le]
          rcases hc.1 with rfl | hc
          · exact hab
          · exact htr a b c hab (hs.1 c hc)
      · rw [List.filter_cons_of_neg ha, if_neg ha]
    · rw [List.orderedInsert_of_not_le r l hab]
      by_cases hb : p b
      · rw [List.filter_cons_of_pos hb, List.filter_cons_of_pos hb, ih hs.2]
        by_cases ha : p a
        · rw [if_pos ha, if_pos ha, List.orderedInsert_of_not_le r _ hab]
        · rw [if_neg ha, if_neg ha]
      · rw [List.filter_cons_of_neg hb, List.filter_cons_of_neg hb, ih hs.2]

/-- Selecting from the sorted list is sorting the selection. -/
theorem filter_insertionSort (htot : ∀ a b, r a b ∨ r b a)
    (htr : ∀ a b c, r a b → r b c → r a c) (p : α → Bool) (l : List α) :
    (l.insertionSort r).filter p = (l.filter p).insertionSort r := by
  have : Std.Total r := ⟨htot⟩
  have : IsTrans α r := ⟨htr⟩
  induction l with
  | nil => rfl
  | cons a l ih =>
    rw [List.insertionSort_cons, filter_orderedInsert r htr p a (List.pairwise_insertionSort r l),
      ih]
    by_cases ha : p a
    · rw [if_pos ha, List.filter_cons_of_pos ha, List.insertionSort_cons]
    · rw [if_neg ha, List.filter_cons_of_neg ha]

theorem insertionSort_insertionSort (htot : ∀ a b, r a b ∨ r b a)
    (htr : ∀ a b c, r a b → r b c → r a c) (l : List α) :
    (l.insertionSort r).insertionSort r = l.insertionSort r := by
  have : Std.Total r := ⟨htot⟩
  have : IsTrans α r := ⟨htr⟩
  exact (List.pairwise_insertionSort r l).insertionSort_eq

/-- Relations that agree on the elements sort them alike. -/
theorem insertionSort_congr {s : α → α → Prop} [DecidableRel s] {l : List α}
    (h : ∀ a ∈ l, ∀ b ∈ l, r a b ↔ s a b) : l.insertionSort r = l.insertionSort s := by
  have hm := List.map_insertionSort r s id l h
  rwa [List.map_id, List.map_id] at hm

/-- An element inserted in front of those it ties with. -/
theorem pairwise_orderedInsert_stable (htot : ∀ a b, r a b ∨ r b a)
    (htr : ∀ a b c, r a b → r b c → r a c) {q : α → α → Prop} {a : α} {l : List α}
    (hl : l.Pairwise fun a b => r a b ∧ (r b a → q a b)) (ha : ∀ b ∈ l, q a b) :
    (l.orderedInsert r a).Pairwise fun a b => r a b ∧ (r b a → q a b) := by
  induction l with
  | nil => exact List.pairwise_singleton _ _
  | cons b l ih =>
    have hb := List.pairwise_cons.mp hl
    by_cases hab : r a b
    · rw [List.orderedInsert_cons_of_le r l hab]
      refine List.pairwise_cons.mpr ⟨fun c hc => ⟨?_, fun _ => ha c hc⟩, hl⟩
      obtain rfl | hc := List.mem_cons.mp hc
      · exact hab
      · exact htr a b c hab (hb.1 c hc).1
    · rw [List.orderedInsert_of_not_le r l hab]
      refine List.pairwise_cons.mpr ⟨fun c hc => ?_, ih hb.2 fun c hc =>
        ha c (List.mem_cons_of_mem b hc)⟩
      obtain rfl | hc := (List.mem_orderedInsert r).mp hc
      · exact ⟨(htot c b).resolve_left hab, fun hcb => absurd hcb hab⟩
      · exact hb.1 c hc

/-- Elements that tie keep the order they had. -/
theorem pairwise_insertionSort_stable (htot : ∀ a b, r a b ∨ r b a)
    (htr : ∀ a b c, r a b → r b c → r a c) {q : α → α → Prop} {l : List α} (hl : l.Pairwise q) :
    (l.insertionSort r).Pairwise fun a b => r a b ∧ (r b a → q a b) := by
  induction l with
  | nil => exact .nil
  | cons a l ih =>
    have ha := List.pairwise_cons.mp hl
    rw [List.insertionSort_cons]
    exact pairwise_orderedInsert_stable r htot htr (ih ha.2) fun b hb =>
      ha.1 b ((List.mem_insertionSort r).mp hb)

/-- `r` is a total preorder on the elements of `l`. -/
structure OrdersOn (l : List α) : Prop where
  total : ∀ a ∈ l, ∀ b ∈ l, r a b ∨ r b a
  trans : ∀ a ∈ l, ∀ b ∈ l, ∀ c ∈ l, r a b → r b c → r a c

namespace OrdersOn

variable {r} {l : List α}

omit [DecidableRel r] in
theorem subset {m : List α} (h : OrdersOn r l) (hm : ∀ a ∈ m, a ∈ l) : OrdersOn r m where
  total a ha b hb := h.total a (hm a ha) b (hm b hb)
  trans a ha b hb c hc := h.trans a (hm a ha) b (hm b hb) c (hm c hc)

omit [DecidableRel r] in
/-- The order extends to every element: those outside `l` come last. -/
theorem exists_order (h : OrdersOn r l) : ∃ s : α → α → Prop, (∀ a b, s a b ∨ s b a) ∧
    (∀ a b c, s a b → s b c → s a c) ∧ ∀ a ∈ l, ∀ b ∈ l, r a b ↔ s a b := by
  refine ⟨fun a b => (a ∈ l ∧ b ∈ l ∧ r a b) ∨ b ∉ l, fun a b => ?_, fun a b c hab hbc => ?_,
    fun a ha b hb => ?_⟩
  · by_cases ha : a ∈ l
    · by_cases hb : b ∈ l
      · exact (h.total a ha b hb).imp (fun hr => Or.inl ⟨ha, hb, hr⟩) fun hr => Or.inl ⟨hb, ha, hr⟩
      · exact Or.inl (Or.inr hb)
    · exact Or.inr (Or.inr ha)
  · rcases hbc with ⟨hb, hc, hbc⟩ | hc
    · rcases hab with ⟨ha, _, hab⟩ | hb'
      · exact Or.inl ⟨ha, hc, h.trans a ha b hb c hc hab hbc⟩
      · exact absurd hb hb'
    · exact Or.inr hc
  · exact ⟨fun hr => Or.inl ⟨ha, hb, hr⟩, fun hs => hs.elim (fun hs => hs.2.2) fun hn => absurd hb hn⟩

theorem filter_insertionSort (h : OrdersOn r l) (p : α → Bool) :
    (l.insertionSort r).filter p = (l.filter p).insertionSort r := by
  classical
  obtain ⟨s, htot, htr, hs⟩ := h.exists_order
  rw [insertionSort_congr r hs, Lib.filter_insertionSort s htot htr]
  refine (insertionSort_congr r fun a ha b hb => ?_).symm
  exact hs a (List.mem_of_mem_filter ha) b (List.mem_of_mem_filter hb)

theorem insertionSort_insertionSort (h : OrdersOn r l) :
    (l.insertionSort r).insertionSort r = l.insertionSort r := by
  classical
  obtain ⟨s, htot, htr, hs⟩ := h.exists_order
  have hm : ∀ a ∈ l.insertionSort r, ∀ b ∈ l.insertionSort r, r a b ↔ s a b :=
    fun a ha b hb => hs a ((List.mem_insertionSort r).mp ha) b ((List.mem_insertionSort r).mp hb)
  rw [insertionSort_congr r hm, insertionSort_congr r hs, Lib.insertionSort_insertionSort s htot htr]

/-- The sorted list is in order. -/
theorem pairwise_insertionSort (h : OrdersOn r l) : (l.insertionSort r).Pairwise r := by
  classical
  obtain ⟨s, htot, htr, hs⟩ := h.exists_order
  have : Std.Total s := ⟨htot⟩
  have : IsTrans α s := ⟨htr⟩
  have hsorted := List.pairwise_insertionSort s l
  rw [← insertionSort_congr r hs] at hsorted
  refine hsorted.imp_of_mem fun {a b} ha hb hab => ?_
  exact (hs a ((List.mem_insertionSort r).mp ha) b ((List.mem_insertionSort r).mp hb)).mpr hab

end OrdersOn

/-- Orders that agree on an element and those behind it sort alike. -/
theorem insertionSort_eq_of_pairwise {s : α → α → Prop} [DecidableRel s] {l : List α}
    (h : l.Pairwise fun a b => r a b ↔ s a b) : l.insertionSort r = l.insertionSort s := by
  have hinsert : ∀ (a : α) (m : List α), (∀ b ∈ m, r a b ↔ s a b) →
      m.orderedInsert r a = m.orderedInsert s a := by
    intro a m hm
    induction m with
    | nil => rfl
    | cons b m ih =>
      rw [List.orderedInsert, List.orderedInsert, ih fun c hc => hm c (List.mem_cons_of_mem b hc)]
      simp only [hm b List.mem_cons_self]
  induction l with
  | nil => rfl
  | cons a l ih =>
    rw [List.pairwise_cons] at h
    rw [List.insertionSort_cons, List.insertionSort_cons, ih h.2]
    exact hinsert a _ fun b hb => h.1 b ((List.mem_insertionSort s).mp hb)

/-- Two orders sort a list without repetitions alike exactly when they agree on every element and
those behind it. -/
theorem insertionSort_eq_iff {s : α → α → Prop} [DecidableRel s] {l : List α} (hr : OrdersOn r l)
    (hs : OrdersOn s l) (hl : l.Nodup) :
    l.insertionSort r = l.insertionSort s ↔ l.Pairwise fun a b => r a b ↔ s a b := by
  classical
  refine ⟨fun h => List.pairwise_iff_forall_sublist.mpr fun {a b} hab => ?_,
    insertionSort_eq_of_pairwise r⟩
  have hne : a ≠ b := by
    rintro rfl
    exact List.nodup_iff_sublist.mp hl a hab
  -- of the sorted lists only the two elements are kept
  have hkept : l.filter (fun c => decide (c ∈ [a, b])) = [a, b] := by
    have hsub : [a, b].Sublist (l.filter fun c => decide (c ∈ [a, b])) := by
      have hfilter := hab.filter fun c => decide (c ∈ [a, b])
      rwa [List.filter_eq_self.mpr fun c hc => decide_eq_true hc] at hfilter
    have hperm : (l.filter fun c => decide (c ∈ [a, b])).Subperm [a, b] :=
      List.subperm_of_subset (hl.filter _) fun c hc =>
        decide_eq_true_iff.mp (List.mem_filter.mp hc).2
    exact (hsub.eq_of_length_le hperm.length_le).symm
  have hboth := congrArg (List.filter fun c => decide (c ∈ [a, b])) h
  rw [hr.filter_insertionSort, hs.filter_insertionSort, hkept] at hboth
  simp only [List.insertionSort_cons, List.insertionSort_nil, List.orderedInsert] at hboth
  split_ifs at hboth with hrab hsab hsab
  · exact iff_of_true hrab hsab
  · exact absurd (List.cons.inj hboth).1 hne
  · exact absurd (List.cons.inj hboth).1.symm hne
  · exact iff_of_false hrab hsab

end JtfpMall.Lib
