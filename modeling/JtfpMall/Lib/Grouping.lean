import Mathlib.Data.List.Perm.Basic
import Mathlib.Data.List.Flatten
import Mathlib.Data.List.Count

/-!
# Grouping the entries of one list by those of another

For each group in turn the entries that belong to it. An entry comes as often as there are groups it
belongs to; where that is once, the groups in a row are a rearrangement of the
entries, and no two of them share an owner.
-/

namespace JtfpMall.Lib

variable {α β : Type} (owns : β → α → Bool)

/-- The entries of one group after those of another. -/
def grouped (groups : List β) (entries : List α) : List α :=
  groups.flatMap fun g => entries.filter (owns g)

theorem grouped_cons_perm (groups : List β) (a : α) (entries : List α) :
    (grouped owns groups (a :: entries)).Perm
      (List.replicate (groups.countP fun g => owns g a) a ++ grouped owns groups entries) := by
  induction groups with
  | nil => exact .refl []
  | cons g groups ih =>
    unfold grouped at ih ⊢
    rw [List.flatMap_cons, List.flatMap_cons]
    have hrest := (ih.append_left (entries.filter (owns g))).trans
      (List.perm_append_comm_assoc _ _ _)
    by_cases hg : owns g a
    · rw [List.filter_cons_of_pos hg, List.countP_cons_of_pos (by exact hg), List.replicate_succ]
      exact hrest.cons a
    · rw [List.filter_cons_of_neg hg, List.countP_cons_of_neg (by exact hg)]
      exact hrest

/-- An entry comes as often as it has owners. -/
theorem grouped_perm (groups : List β) (entries : List α) : (grouped owns groups entries).Perm
    (entries.flatMap fun a => List.replicate (groups.countP fun g => owns g a) a) := by
  induction entries with
  | nil => simp [grouped]
  | cons a entries ih =>
    rw [List.flatMap_cons]
    exact (grouped_cons_perm owns groups a entries).trans (ih.append_left _)

/-- Where every entry has one owner, nothing is lost and nothing comes twice. -/
theorem grouped_perm_self {groups : List β} {entries : List α}
    (h : ∀ a ∈ entries, (groups.countP fun g => owns g a) = 1) :
    (grouped owns groups entries).Perm entries := by
  refine (grouped_perm owns groups entries).trans ?_
  rw [List.flatMap_congr (g := fun a => [a]) fun a ha => by rw [h a ha]; rfl]
  rw [List.flatMap_singleton']

/-- Entries of which the owners tell no difference come as often as they are, times the number
of the owners. -/
theorem countP_grouped {groups : List β} {entries : List α} (p : α → Bool) (n : ℕ)
    (h : ∀ a ∈ entries, p a → (groups.countP fun g => owns g a) = n) :
    (grouped owns groups entries).countP p = n * entries.countP p := by
  rw [(grouped_perm owns groups entries).countP_eq]
  induction entries with
  | nil => simp
  | cons a entries ih =>
    rw [List.flatMap_cons, List.countP_append, ih fun b hb => h b (List.mem_cons_of_mem a hb),
      List.countP_replicate]
    by_cases ha : p a
    · rw [if_pos ha, List.countP_cons_of_pos ha, h a List.mem_cons_self ha, Nat.mul_succ, Nat.add_comm]
    · rw [if_neg ha, List.countP_cons_of_neg ha, Nat.zero_add]

/-- Where no entry has two owners, an entry of a group is in no later one. -/
theorem pairwise_owns {groups : List β} {entries : List α}
    (h : ∀ a ∈ entries, (groups.countP fun g => owns g a) ≤ 1) :
    groups.Pairwise fun g g' => ∀ a ∈ entries, owns g a → ¬ owns g' a := by
  induction groups with
  | nil => exact .nil
  | cons g groups ih =>
    refine List.pairwise_cons.mpr ⟨fun g' hg' a ha hg hown => ?_, ih fun a ha => ?_⟩
    · have hcount := h a ha
      rw [List.countP_cons_of_pos (by exact hg)] at hcount
      have hpos : 0 < groups.countP fun g => owns g a := List.countP_pos_iff.mpr ⟨g', hg', hown⟩
      omega
    · have hcount := h a ha
      rw [List.countP_cons] at hcount
      omega

end JtfpMall.Lib
