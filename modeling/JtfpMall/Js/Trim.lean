import JtfpMall.Js.NumText
import Mathlib.Data.List.TakeWhile

/-!
# Trimmed text

What is left of a text without the white space at its ends, and when nothing is.
-/

namespace JtfpMall.Js

theorem trimChars_eq_nil_iff {cs : List Char} : trimChars cs = [] ↔ ∀ c ∈ cs, isSpace c = true := by
  unfold trimChars
  rw [List.reverse_eq_nil_iff, List.dropWhile_eq_nil_iff]
  constructor
  · intro h
    have hnil : cs.dropWhile isSpace = [] := by
      cases hd : cs.dropWhile isSpace with
      | nil => rfl
      | cons c rest =>
        have hfirst := List.head_dropWhile_not isSpace (l := cs) (by rw [hd]; exact List.cons_ne_nil _ _)
        simp only [hd, List.head_cons] at hfirst
        rw [h c (by simp [hd])] at hfirst
        cases hfirst
    exact List.dropWhile_eq_nil_iff.mp hnil
  · intro h c hc
    rw [List.mem_reverse] at hc
    exact h c ((List.dropWhile_suffix _).subset hc)

theorem trim_eq_empty_iff {s : String} : trim s = "" ↔ ∀ c ∈ s.toList, isSpace c = true := by
  unfold trim
  rw [String.ofList_eq_empty_iff, trimChars_eq_nil_iff]

/-- Neither the first nor the last character is white space. -/
structure Trimmed (cs : List Char) : Prop where
  first : ∀ c ∈ cs.head?, isSpace c = false
  last : ∀ c ∈ cs.getLast?, isSpace c = false

theorem dropWhile_eq_self {p : Char → Bool} {cs : List Char} (h : ∀ c ∈ cs.head?, p c = false) :
    cs.dropWhile p = cs := by
  cases cs with
  | nil => rfl
  | cons c cs => exact List.dropWhile_cons_of_neg (by rw [h c rfl]; exact Bool.false_ne_true)

theorem head?_dropWhile_not (p : Char → Bool) (cs : List Char) :
    ∀ c ∈ (cs.dropWhile p).head?, p c = false := by
  intro c hc
  have h := List.head?_dropWhile_not p cs
  rw [hc] at h
  simpa using h

theorem Trimmed.trimChars_eq {cs : List Char} (h : Trimmed cs) : trimChars cs = cs := by
  unfold trimChars
  have hlast : ∀ c ∈ cs.reverse.head?, isSpace c = false := by
    rw [List.head?_reverse]
    exact h.last
  rw [dropWhile_eq_self h.first, dropWhile_eq_self hlast, List.reverse_reverse]

theorem trimmed_trimChars (cs : List Char) : Trimmed (trimChars cs) := by
  have hlast : ∀ c ∈ (trimChars cs).getLast?, isSpace c = false := by
    unfold trimChars
    rw [List.getLast?_reverse]
    exact head?_dropWhile_not isSpace _
  refine ⟨?_, hlast⟩
  -- what is dropped at the end leaves the first character, unless nothing is left
  intro c hc
  refine head?_dropWhile_not isSpace cs c ?_
  have hprefix : trimChars cs <+: cs.dropWhile isSpace := by
    unfold trimChars
    rw [← List.reverse_suffix, List.reverse_reverse]
    exact List.dropWhile_suffix _
  obtain ⟨rest, hrest⟩ := hprefix
  rw [← hrest, List.head?_append, hc]
  rfl

/-- A text put in front of a trimmed one. -/
theorem Trimmed.append {cs ds : List Char} (hds : Trimmed ds) (hne : ds ≠ [])
    (hcs : ∀ c ∈ cs.head?, isSpace c = false) : Trimmed (cs ++ ds) := by
  constructor
  · cases cs with
    | nil => exact hds.first
    | cons c cs => exact hcs
  · rw [List.getLast?_append_of_ne_nil _ hne]
    exact hds.last

theorem exists_digit (n : ℕ) : ∃ c ∈ Nat.toDigits 10 n, isSpace c = false :=
  ⟨_, List.head_mem Nat.toDigits_ne_nil, (digit_of_mem_toDigits (List.head_mem _)).2.1⟩

theorem exists_layOut {ds : List Char} (h : ∃ c ∈ ds, isSpace c = false) (n : ℤ) :
    ∃ c ∈ layOut ds n, isSpace c = false := by
  obtain ⟨c, hc, hspace⟩ := h
  unfold layOut
  dsimp only
  split
  · exact ⟨c, List.mem_append_left _ hc, hspace⟩
  · split
    · exact ⟨'.', by simp, by decide⟩
    · split
      · exact ⟨'.', by simp, by decide⟩
      · exact ⟨'e', by simp, by decide⟩

theorem exists_positiveText (x : ℚ) : ∃ c ∈ positiveText x, isSpace c = false := by
  unfold positiveText
  split
  · exact exists_digit _
  · dsimp only
    split
    · exact exists_layOut ⟨'1', List.mem_singleton_self _, by decide⟩ _
    · exact exists_layOut (exists_digit _) _

/-- A number has a text. -/
theorem trim_toText_ne_empty (n : JsNum) : trim n.toText ≠ "" := by
  intro h
  rw [trim_eq_empty_iff] at h
  obtain ⟨c, hc, hspace⟩ : ∃ c ∈ n.toText.toList, isSpace c = false := by
    cases n with
    | nan => exact ⟨'N', by decide, by decide⟩
    | inf neg => exact ⟨'I', by cases neg <;> decide, by decide⟩
    | fin q =>
      dsimp only [JsNum.toText]
      split
      · exact ⟨'0', by decide, by decide⟩
      · split
        · obtain ⟨c, hc, hspace⟩ := exists_positiveText (-q)
          exact ⟨c, by simp [hc], hspace⟩
        · obtain ⟨c, hc, hspace⟩ := exists_positiveText q
          exact ⟨c, by simp [hc], hspace⟩
  rw [h c hc] at hspace
  cases hspace

end JtfpMall.Js
