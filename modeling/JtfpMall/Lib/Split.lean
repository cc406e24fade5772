import Mathlib.Data.List.Basic

/-!
# Lists cut at a separator

The pieces of a list between the elements that equal a separator.
-/

namespace JtfpMall.Lib

variable {α : Type} [DecidableEq α]

/-- The pieces between the separators. -/
def pieces (sep : α) (xs : List α) : List (List α) := xs.splitOnP fun x => decide (x = sep)

theorem ne_of_not_mem {sep : α} {xs : List α} (h : sep ∉ xs) :
    ∀ x ∈ xs, decide (x = sep) = false := by
  intro x hx
  exact decide_eq_false fun he => h (he ▸ hx)

theorem pieces_of_not_mem {sep : α} {xs : List α} (h : sep ∉ xs) : pieces sep xs = [xs] :=
  List.splitOnP_eq_singleton (ne_of_not_mem h)

theorem pieces_append {sep : α} {xs : List α} (h : sep ∉ xs) (ys : List α) :
    pieces sep (xs ++ sep :: ys) = xs :: pieces sep ys :=
  List.splitOnP_append_cons_of_forall_mem (ne_of_not_mem h) sep (decide_eq_true rfl) ys

/-- Either there is no separator, or the list goes on behind the first of them. -/
theorem pieces_cases (sep : α) (xs : List α) : sep ∉ xs ∧ pieces sep xs = [xs] ∨
    ∃ front back, xs = front ++ sep :: back ∧ sep ∉ front ∧
      pieces sep xs = front :: pieces sep back := by
  by_cases h : sep ∈ xs
  · obtain ⟨front, back, rfl, hfront⟩ := List.eq_append_cons_of_mem h
    exact Or.inr ⟨front, back, rfl, hfront, pieces_append hfront back⟩
  · exact Or.inl ⟨h, pieces_of_not_mem h⟩

theorem pieces_ne_nil (sep : α) (xs : List α) : pieces sep xs ≠ [] := by
  obtain ⟨_, h⟩ | ⟨front, back, _, _, h⟩ := pieces_cases sep xs
  · rw [h]
    exact List.cons_ne_nil _ _
  · rw [h]
    exact List.cons_ne_nil _ _

/-- The first piece is the whole list, or the list goes on behind it with the other pieces. -/
theorem of_pieces_cons {sep : α} {xs piece : List α} {more : List (List α)}
    (h : pieces sep xs = piece :: more) : sep ∉ piece ∧ (more = [] ∧ xs = piece ∨
      ∃ back, xs = piece ++ sep :: back ∧ pieces sep back = more) := by
  obtain ⟨hnone, hone⟩ | ⟨front, back, hxs, hfront, hmore⟩ := pieces_cases sep xs
  · rw [hone] at h
    obtain ⟨rfl, rfl⟩ := List.cons.inj h
    exact ⟨hnone, Or.inl ⟨rfl, rfl⟩⟩
  · rw [hmore] at h
    obtain ⟨rfl, rfl⟩ := List.cons.inj h
    exact ⟨hfront, Or.inr ⟨back, hxs, rfl⟩⟩

/-- No piece has the separator. -/
theorem not_mem_of_mem_pieces {sep : α} {xs piece : List α} (h : piece ∈ pieces sep xs) :
    sep ∉ piece := by
  induction hn : xs.length using Nat.strongRecOn generalizing xs with
  | ind n ih =>
    obtain ⟨hnone, hone⟩ | ⟨front, back, rfl, hfront, hmore⟩ := pieces_cases sep xs
    · rw [hone, List.mem_singleton] at h
      rwa [h]
    · rw [hmore, List.mem_cons] at h
      rcases h with rfl | h
      · exact hfront
      · rw [List.length_append, List.length_cons] at hn
        exact ih back.length (by omega) h rfl

end JtfpMall.Lib
