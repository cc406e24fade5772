import Mathlib.Data.List.Range
import Mathlib.Data.List.Flatten
import JtfpMall.Lib.Action

/-!
# Pages

A list cut into pages of one size. The pages in a row are the list again, and the pages that are
not empty are as many as the size goes into the length, rounded up.
-/

namespace JtfpMall.Lib

variable {α : Type}

/-- The page behind `i` pages of the size. -/
def pageOf (size i : ℕ) (l : List α) : List α := (l.drop (i * size)).take size

/-- The length over the size, rounded up. -/
def pageCount (length size : ℕ) : ℕ := (length + size - 1) / size

theorem length_pageOf_le (size i : ℕ) (l : List α) : (pageOf size i l).length ≤ size :=
  List.length_take_le size _

/-- A page behind the pages before it. -/
theorem take_append_pageOf (size i : ℕ) (l : List α) :
    l.take (i * size) ++ pageOf size i l = l.take ((i + 1) * size) := by
  rw [Nat.succ_mul, List.take_add]
  rfl

/-- The first pages are the front of the list. -/
theorem flatMap_pageOf (size n : ℕ) (l : List α) :
    ((List.range n).flatMap fun i => pageOf size i l) = l.take (n * size) := by
  induction n with
  | zero => simp
  | succ n ih =>
    rw [List.range_succ, List.flatMap_append, ih, List.flatMap_singleton, take_append_pageOf]

theorem length_le_pageCount {size : ℕ} (hs : 0 < size) (length : ℕ) :
    length ≤ pageCount length size * size := by
  have h := Nat.lt_div_mul_add hs (a := length + size - 1)
  unfold pageCount
  omega

theorem pageCount_mul_le (length size : ℕ) : pageCount length size * size ≤ length + size :=
  (Nat.div_mul_le_self _ _).trans (Nat.sub_le _ _)

/-- A page before the last begins inside the list. -/
theorem mul_lt_of_lt_pageCount {size length i : ℕ} (hi : i < pageCount length size) :
    i * size < length := by
  unfold pageCount at hi
  have hs : 0 < size := by
    rcases Nat.eq_zero_or_pos size with rfl | hs
    · simp at hi
    · exact hs
  have h := (Nat.le_div_iff_mul_le hs).mp (Nat.succ_le_of_lt hi)
  rw [Nat.succ_mul] at h
  omega

/-- All pages in a row are the list. -/
theorem flatMap_pages {size : ℕ} (hs : 0 < size) (l : List α) :
    ((List.range (pageCount l.length size)).flatMap fun i => pageOf size i l) = l := by
  rw [flatMap_pageOf]
  exact List.take_of_length_le (length_le_pageCount hs l.length)

section
variable {σ ε β : Type}

/-- Pages from one number on, one request after another. -/
def readPages (request : ℕ → Action σ ε β) : ℕ → ℕ → Action σ ε (List β)
  | _, 0 => return []
  | first, n + 1 => do
    let page ← request first
    let rest ← readPages request (first + 1) n
    return page :: rest

/-- Requests that keep an invariant, under which each has its answer, have these answers in a row. -/
theorem run_readPages (request : ℕ → Action σ ε β) (answer : ℕ → β) (Inv : σ → Prop) (first n : ℕ)
    (h : ∀ i s, first ≤ i → i < first + n → Inv s →
      ∃ s', (request i).run s = (.ok (answer i), s') ∧ Inv s') {s : σ} (hs : Inv s) :
    ∃ s', (readPages request first n).run s = (.ok ((List.range' first n).map answer), s') ∧
      Inv s' := by
  induction n generalizing first s with
  | zero => exact ⟨s, rfl, hs⟩
  | succ n ih =>
    obtain ⟨s₁, hfirst, h₁⟩ := h first s (le_refl _) (by omega) hs
    have hlater : ∀ i s, first + 1 ≤ i → i < first + 1 + n → Inv s →
        ∃ s', (request i).run s = (.ok (answer i), s') ∧ Inv s' :=
      fun i s hi hn => h i s (by omega) (by omega)
    obtain ⟨s₂, hrest, h₂⟩ := ih (first + 1) hlater h₁
    refine ⟨s₂, ?_, h₂⟩
    rw [readPages, Action.run_bind, hfirst]
    dsimp only
    rw [Action.run_bind, hrest]
    rfl

end

end JtfpMall.Lib
