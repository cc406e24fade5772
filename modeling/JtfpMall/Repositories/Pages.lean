import JtfpMall.Js.Stamps
import JtfpMall.Repositories.Orderings

/-!
# Reading a list page by page

A list without filters sorts the live table, and the next request starts from the table in that
order. Over a table the list can sort this changes nothing: every request takes its page from the
same rows in the same order, the table in the order of its list with the rows left out that the
filters drop.
-/

namespace JtfpMall

open JtfpMall.Js
open JtfpMall.Lib

/-- The filters throw on none of the rows, and keep those the predicate does. -/
def Selects (filters : List (Row → Except JsError Bool)) (keeps : Row → Bool) (rows : List Row) :
    Prop :=
  ∀ l, l ⊆ rows → filterAll filters l = .ok (l.filter keeps)

section
variable {filters filters' : List (Row → Except JsError Bool)} {keeps keeps' : Row → Bool}
  {rows : List Row}

theorem filterAll_append (filters filters' : List (Row → Except JsError Bool)) (l : List Row) :
    filterAll (filters ++ filters') l = (filterAll filters l >>= filterAll filters') := by
  induction filters generalizing l with
  | nil => rfl
  | cons p filters ih =>
    rw [List.cons_append, filterAll, filterAll]
    cases filterM p l with
    | error e => rfl
    | ok kept => exact ih kept

theorem Selects.append (h : Selects filters keeps rows) (h' : Selects filters' keeps' rows) :
    Selects (filters ++ filters') (fun r => keeps r && keeps' r) rows := by
  intro l hl
  rw [filterAll_append, h l hl]
  change filterAll filters' (l.filter keeps) = _
  rw [h' _ fun r hr => hl (List.mem_of_mem_filter hr), List.filter_filter]
  refine congrArg Except.ok (List.filter_congr fun r _ => ?_)
  exact Bool.and_comm _ _

/-- A filter that is asked for throws on no row; one that is not keeps them all. -/
theorem selects_onlyIf {asked : Bool} {p : Row → Except JsError Bool}
    (h : asked = true → ∀ r ∈ rows, p r = .ok (keeps r))
    (hn : asked = false → ∀ r ∈ rows, keeps r = true) : Selects (onlyIf asked p) keeps rows := by
  intro l hl
  cases asked with
  | true =>
    change (filterM p l >>= fun kept => filterAll [] kept) = _
    rw [filterM_eq_filter fun r hr => h rfl r (hl hr)]
    rfl
  | false =>
    change Except.ok l = _
    rw [List.filter_eq_self.mpr fun r hr => hn rfl r (hl hr)]

end

/-- The rows in the order of the list of a table. -/
def inOrder (env : Env) (t : Table) (rows : List Row) : List Row :=
  rows.insertionSort fun a b => mayPrecede (listOrder env t) a b = true

/-- The tables while the pages of one are read: its list may have sorted it. -/
structure Reordered (env : Env) (t : Table) (s s' : Store) : Prop where
  own : s'.getTable t = s.getTable t ∨ s'.getTable t = inOrder env t (s.getTable t)
  others : ∀ u, u ≠ t → s'.getTable u = s.getTable u

section
variable {env : Env} {t : Table} {s s' : Store} {filters : List (Row → Except JsError Bool)}
  {keeps : Row → Bool}

theorem Reordered.refl (env : Env) (t : Table) (s : Store) : Reordered env t s s where
  own := Or.inl rfl
  others _ _ := rfl

theorem inOrder_perm (env : Env) (t : Table) (rows : List Row) : (inOrder env t rows).Perm rows :=
  List.perm_insertionSort _ _

theorem Reordered.perm (h : Reordered env t s s') : (s'.getTable t).Perm (s.getTable t) := by
  rcases h.own with heq | heq
  · rw [heq]
  · rw [heq]
    exact inOrder_perm env t _

theorem Reordered.inOrder_eq (h : Reordered env t s s')
    (hc : Consistent (listOrder env t) (s.getTable t)) :
    inOrder env t (s'.getTable t) = inOrder env t (s.getTable t) := by
  rcases h.own with heq | heq
  · rw [heq]
  · rw [heq]
    exact hc.orders.insertionSort_insertionSort

/-- A list takes its rows from the table in its order, whatever lists went before it. -/
theorem run_listed_inOrder (hc : Consistent (listOrder env t) (s.getTable t))
    (hq : Selects filters keeps (s.getTable t)) (h : Reordered env t s s') :
    ∃ s'', (listed env t filters).run s' =
      (.ok ((inOrder env t (s.getTable t)).filter keeps), s'') ∧ Reordered env t s s'' := by
  have hc' : Consistent (listOrder env t) (s'.getTable t) :=
    hc.subset fun r hr => h.perm.subset hr
  have hkept : filterAll filters (s'.getTable t) = .ok ((s'.getTable t).filter keeps) :=
    hq _ h.perm.subset
  have hsorted : arraySort (listOrder env t) ((s'.getTable t).filter keeps) =
      .ok ((inOrder env t (s.getTable t)).filter keeps) := by
    rw [(hc'.subset fun r hr => List.mem_of_mem_filter hr).arraySort_eq, ← h.inOrder_eq hc]
    exact congrArg Except.ok (hc'.orders.filter_insertionSort keeps).symm
  cases filters with
  | nil =>
    rw [filterAll, Except.ok.injEq] at hkept
    rw [← hkept] at hsorted
    refine ⟨_, run_listed_nil hsorted, ?_, fun u hu => ?_⟩
    · -- with no filter the whole table is kept, and stays sorted
      refine Or.inr ((StoreData.rows_setRows_self _ _ _).trans ?_)
      have hall : (s'.getTable t).filter keeps = s'.getTable t := hkept.symm
      rw [List.filter_eq_self] at hall ⊢
      exact fun r hr => hall r (h.perm.mem_iff.mpr ((inOrder_perm env t _).mem_iff.mp hr))
    · exact (StoreData.rows_setRows_of_ne _ _ hu).trans (h.others u hu)
  | cons p filters => exact ⟨s', run_listed (List.cons_ne_nil _ _) hkept hsorted, h⟩

/-- A list that goes on with its rows and writes nothing more. -/
theorem run_listed_bind {β : Type} {k : List Row → Act β} {b : β}
    (hc : Consistent (listOrder env t) (s.getTable t)) (hq : Selects filters keeps (s.getTable t))
    (h : Reordered env t s s') (hk : ∀ s'', Reordered env t s s'' →
      (k ((inOrder env t (s.getTable t)).filter keeps)).run s'' = (.ok b, s'')) :
    ∃ s'', (listed env t filters >>= k).run s' = (.ok b, s'') ∧ Reordered env t s s'' := by
  obtain ⟨s'', hrun, hs⟩ := run_listed_inOrder hc hq h
  refine ⟨s'', ?_, hs⟩
  rw [Action.run_bind, hrun]
  exact hk s'' hs

end

section
variable {β : Type} {env : Env} {t : Table} {s : Store} {rows : List Row} {n : ℕ}
  {answer : ℕ → β}

theorem paginate_natCast (hn : 1 ≤ n) (hn' : n ≤ 100) {i : ℕ} (hi : i * n + n ≤ 2 ^ 53)
    (rows : List Row) :
    paginate (some (.fin (i + 1 : ℕ))) (some (.fin n)) rows = pageOf n i rows := by
  refine paginate_eq (orDefault_natCast (by omega) _) hn ?_ hi rows
  rw [orDefault_natCast hn, min_of_le_hundred hn']

/-- The pages the total asks for, read one after another, and the first of them. -/
theorem run_pagesOf (request : ℕ → Act β) (answer : ℕ → β) (hn : 1 ≤ n) (hn' : n ≤ 100) (hlen : rows.length < 2 ^ 32)
    (h : ∀ i s', i * n + n ≤ 2 ^ 53 → Reordered env t s s' →
      ∃ s'', (request (i + 1)).run s' = (.ok (answer (i + 1)), s'') ∧ Reordered env t s s'') :
    (∃ s', (request 1).run s = (.ok (answer 1), s')) ∧
      ∃ s', (readPages request 1 (pageCount rows.length n)).run s =
        (.ok ((List.range' 1 (pageCount rows.length n)).map answer), s') := by
  obtain ⟨s₁, hfirst, _⟩ := h 0 s (by omega) (.refl env t s)
  obtain ⟨s₂, hall, _⟩ := run_readPages request answer (Reordered env t s) 1
    (pageCount rows.length n) (by
      intro i s' hi hlt hs'
      obtain ⟨j, rfl⟩ : ∃ j, i = j + 1 := ⟨i - 1, by omega⟩
      refine h j s' ?_ hs'
      have hcount := pageCount_mul_le rows.length n
      have hle : (j + 1) * n ≤ pageCount rows.length n * n := Nat.mul_le_mul_right n (by omega)
      rw [Nat.add_mul, Nat.one_mul] at hle
      omega) (.refl env t s)
  exact ⟨⟨s₁, hfirst⟩, ⟨s₂, hall⟩⟩

/-- The rows of all pages are the rows of the list. -/
theorem flatMap_answers {γ : Type} {f : Row → γ} {shown : β → List γ} (hn : 1 ≤ n)
    (h : ∀ i, shown (answer (i + 1)) = (pageOf n i rows).map f) :
    ((List.range' 1 (pageCount rows.length n)).map answer).flatMap shown = rows.map f := by
  rw [List.flatMap_map, List.range'_eq_map_range, List.flatMap_map]
  simp only [Nat.add_comm 1, h]
  rw [← List.map_flatMap, flatMap_pages hn]

end

end JtfpMall
