import Mathlib.Data.List.Lookmap
import Mathlib.Data.List.Nodup
import Mathlib.Data.List.Perm.Basic

/-!
# Lists searched from the front

A table is a list; finding, changing and deleting a row all act on the first row
that satisfies a test. This module gives the change (`modifyFirst`) and what
these operations leave alone, and says when the order of the list does not
matter: when at most one element satisfies the test.
-/

namespace JtfpMall.Lib

variable {α β : Type}

/-- Replace the first element that satisfies `p` by its image. -/
def modifyFirst (p : α → Bool) (f : α → α) (l : List α) : List α :=
  l.lookmap fun a => if p a then some (f a) else none

theorem modifyFirst_nil (p : α → Bool) (f : α → α) : modifyFirst p f [] = [] := rfl

theorem modifyFirst_cons (p : α → Bool) (f : α → α) (a : α) (l : List α) :
    modifyFirst p f (a :: l) = if p a then f a :: l else a :: modifyFirst p f l := by
  unfold modifyFirst
  by_cases h : p a
  · rw [List.lookmap_cons_some (b := f a) _ _ (by simp [h])]
    simp [h]
  · rw [List.lookmap_cons_none _ _ (by simp [h])]
    simp [h]

theorem modifyFirst_of_find?_none {p : α → Bool} {l : List α} (f : α → α)
    (h : l.find? p = none) : modifyFirst p f l = l := by
  apply List.lookmap_of_forall_not
  intro a ha
  simp [List.find?_eq_none.mp h a ha]

/-- Where the first match lies, the search finds it, the change replaces it and
the deletion drops it. -/
theorem find?_split {p : α → Bool} {l : List α} {a : α} (h : l.find? p = some a) (f : α → α) :
    ∃ l₁ l₂, l = l₁ ++ a :: l₂ ∧ (∀ b ∈ l₁, p b = false) ∧
      modifyFirst p f l = l₁ ++ f a :: l₂ ∧ l.eraseP p = l₁ ++ l₂ := by
  induction l with
  | nil => simp at h
  | cons b l ih =>
    rw [List.find?_cons] at h
    by_cases hb : p b
    · simp only [hb, Option.some.injEq] at h
      subst h
      exact ⟨[], l, rfl, by simp, by simp [modifyFirst_cons, hb], by simp [hb]⟩
    · rw [Bool.not_eq_true] at hb
      simp only [hb] at h
      obtain ⟨l₁, l₂, rfl, hn, hm, he⟩ := ih h
      refine ⟨b :: l₁, l₂, rfl, ?_, by simp [modifyFirst_cons, hb, hm], by simp [hb, he]⟩
      intro c hc
      rcases List.mem_cons.mp hc with rfl | hc
      · exact hb
      · exact hn c hc

theorem mem_modifyFirst {p : α → Bool} {f : α → α} {l : List α} {x : α}
    (h : x ∈ modifyFirst p f l) : x ∈ l ∨ ∃ a, l.find? p = some a ∧ x = f a := by
  cases hf : l.find? p with
  | none => exact Or.inl (modifyFirst_of_find?_none f hf ▸ h)
  | some a =>
    obtain ⟨l₁, l₂, rfl, _, hm, _⟩ := find?_split hf f
    rw [hm, List.mem_append, List.mem_cons] at h
    rcases h with h | rfl | h
    · exact Or.inl (List.mem_append_left _ h)
    · exact Or.inr ⟨a, rfl, rfl⟩
    · exact Or.inl (List.mem_append_right _ (List.mem_cons_of_mem _ h))

/-- What holds of every element goes on holding when it holds of the one that comes in. -/
theorem forall_mem_modifyFirst_iff {P : α → Prop} {p : α → Bool} {f : α → α} {l : List α}
    (h : ∀ a ∈ l, P a) :
    (∀ x ∈ modifyFirst p f l, P x) ↔ ∀ a, l.find? p = some a → P (f a) := by
  constructor
  · intro hall a ha
    obtain ⟨l₁, l₂, rfl, _, hm, _⟩ := find?_split ha f
    exact hall _ (hm ▸ List.mem_append_right _ List.mem_cons_self)
  · intro hone x hx
    rcases mem_modifyFirst hx with hx | ⟨a, ha, rfl⟩
    · exact h x hx
    · exact hone a ha

/-- What the predicate does not hold of stays. -/
theorem mem_modifyFirst_of_not {p : α → Bool} {f : α → α} {l : List α} {x : α} (h : x ∈ l)
    (hp : p x = false) : x ∈ modifyFirst p f l := by
  induction l with
  | nil => exact h
  | cons a l ih =>
    rw [modifyFirst_cons]
    rcases List.mem_cons.mp h with rfl | h
    · rw [if_neg (by simp [hp])]
      exact List.mem_cons_self
    · split
      · exact List.mem_cons_of_mem _ h
      · exact List.mem_cons_of_mem _ (ih h)

/-- A reading the change respects is the same before and after. -/
theorem map_modifyFirst {p : α → Bool} {f : α → α} {g : α → β} {l : List α}
    (h : ∀ a, l.find? p = some a → g (f a) = g a) : (modifyFirst p f l).map g = l.map g := by
  cases hf : l.find? p with
  | none => rw [modifyFirst_of_find?_none f hf]
  | some a =>
    obtain ⟨l₁, l₂, rfl, _, hm, _⟩ := find?_split hf f
    rw [hm]
    simp [h a hf]

/-- The change relates the lists element by element when it relates the element it changes. -/
theorem forall₂_modifyFirst_iff {R : α → α → Prop} {p : α → Bool} {f : α → α} (hR : ∀ a, R a a)
    (l : List α) :
    List.Forall₂ R l (modifyFirst p f l) ↔ ∀ a, l.find? p = some a → R a (f a) := by
  induction l with
  | nil => simp [modifyFirst_nil]
  | cons a l ih =>
    rw [modifyFirst_cons, List.find?_cons]
    cases hp : p a with
    | true =>
      simp only [if_true, List.forall₂_cons, Option.some.injEq, forall_eq']
      exact and_iff_left (List.forall₂_same.mpr fun b _ => hR b)
    | false =>
      simp only [Bool.false_eq_true, if_false, List.forall₂_cons]
      rw [and_iff_right (hR a), ih]

/-- A relation that the change respects holds before and after. -/
theorem forall₂_modifyFirst {R : α → β → Prop} {p : β → Bool} {f : β → β} {l : List α} {m : List β}
    (hf : ∀ a b, R a b → R a (f b)) (h : List.Forall₂ R l m) :
    List.Forall₂ R l (modifyFirst p f m) := by
  induction h with
  | nil => exact .nil
  | cons hab hl ih =>
    rw [modifyFirst_cons]
    split
    · exact .cons (hf _ _ hab) hl
    · exact .cons hab ih

/-- Elements a test does not concern are the same before and after. -/
theorem filter_modifyFirst {p q : α → Bool} {f : α → α} {l : List α}
    (h : ∀ a, l.find? p = some a → q a = false ∧ q (f a) = false) :
    (modifyFirst p f l).filter q = l.filter q := by
  cases hf : l.find? p with
  | none => rw [modifyFirst_of_find?_none f hf]
  | some a =>
    obtain ⟨l₁, l₂, rfl, _, hm, _⟩ := find?_split hf f
    rw [hm]
    simp [h a hf]

theorem filter_eraseP {p q : α → Bool} {l : List α}
    (h : ∀ a, l.find? p = some a → q a = false) : (l.eraseP p).filter q = l.filter q := by
  cases hf : l.find? p with
  | none =>
    rw [List.eraseP_of_forall_not]
    exact fun a ha => List.find?_eq_none.mp hf a ha
  | some a =>
    obtain ⟨l₁, l₂, rfl, _, _, he⟩ := find?_split hf id
    rw [he]
    simp [h a hf]

theorem filter_map_ite {p q : α → Bool} {f : α → α} {l : List α}
    (h : ∀ a ∈ l, p a = true → q a = false ∧ q (f a) = false) :
    (l.map fun a => if p a then f a else a).filter q = l.filter q := by
  induction l with
  | nil => rfl
  | cons a l ih =>
    have ih := ih fun b hb => h b (List.mem_cons_of_mem _ hb)
    rw [List.map_cons]
    by_cases ha : p a
    · obtain ⟨h1, h2⟩ := h a List.mem_cons_self ha
      simp [ha, h1, h2, ih]
    · by_cases hq : q a <;> simp [ha, hq, ih]

/-- At most one element of `l` satisfies `p`. -/
def Unique (p : α → Bool) (l : List α) : Prop := (l.filter p).length ≤ 1

theorem Unique.tail {p : α → Bool} {a : α} {l : List α} (h : Unique p (a :: l)) : Unique p l := by
  unfold Unique at *
  have hs : (l.filter p).Sublist ((a :: l).filter p) := (List.sublist_cons_self a l).filter p
  exact Nat.le_trans hs.length_le h

theorem Unique.not_mem {p : α → Bool} {a : α} {l : List α} (h : Unique p (a :: l))
    (ha : p a = true) : ∀ b ∈ l, p b = false := by
  unfold Unique at h
  rw [List.filter_cons_of_pos ha, List.length_cons] at h
  have hl : l.filter p = [] := List.length_eq_zero_iff.mp (by omega)
  exact fun b hb => by simpa using List.filter_eq_nil_iff.mp hl b hb

/-- Changing the first match changes every match when there is one at most. -/
theorem Unique.modifyFirst_eq {p : α → Bool} {l : List α} (h : Unique p l) (f : α → α) :
    modifyFirst p f l = l.map fun a => if p a then f a else a := by
  induction l with
  | nil => rfl
  | cons a l ih =>
    rw [modifyFirst_cons, List.map_cons]
    by_cases ha : p a
    · rw [if_pos ha, if_pos ha]
      congr 1
      conv_lhs => rw [← List.map_id l]
      exact List.map_congr_left fun b hb => by simp [h.not_mem ha b hb]
    · rw [if_neg ha, if_neg ha, ih h.tail]

theorem Unique.eraseP_eq {p : α → Bool} {l : List α} (h : Unique p l) :
    l.eraseP p = l.filter fun a => !p a := by
  induction l with
  | nil => rfl
  | cons a l ih =>
    by_cases ha : p a
    · rw [List.eraseP_cons_of_pos ha, List.filter_cons_of_neg (by simp [ha])]
      exact (List.filter_eq_self.mpr fun b hb => by simp [h.not_mem ha b hb]).symm
    · rw [List.eraseP_cons_of_neg ha, List.filter_cons_of_pos (by simp [ha]), ih h.tail]

theorem Unique.of_nodup {p : α → Bool} {g : α → β} {l : List α} (hn : (l.map g).Nodup)
    (hg : ∀ a ∈ l, ∀ b ∈ l, p a = true → p b = true → g a = g b) : Unique p l := by
  unfold Unique
  match hl : l.filter p with
  | [] => simp
  | [a] => simp
  | a :: b :: r =>
    have hs : ((l.filter p).map g).Nodup := hn.sublist (List.filter_sublist.map g)
    have ha : a ∈ l.filter p := by simp [hl]
    have hb : b ∈ l.filter p := by simp [hl]
    rw [List.mem_filter] at ha hb
    rw [hl, List.map_cons, List.map_cons, List.nodup_cons, List.mem_cons, not_or] at hs
    exact absurd (hg a ha.1 b hb.1 ha.2 hb.2) hs.1.1

end JtfpMall.Lib
