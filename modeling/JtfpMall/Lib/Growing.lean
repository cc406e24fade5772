import JtfpMall.Lib.Keyed
import JtfpMall.Lib.Relational

/-!
# Growing lists

A list grows when its elements change along a relation, in place, and new ones come in
behind them. What a search from the front has found it goes on finding.
-/

namespace JtfpMall.Lib

variable {α : Type} {R : α → α → Prop} {l l' new : List α}

/-- `l'` is `l` with its elements changed along `R`, and then `new`. -/
def Grows (R : α → α → Prop) (l new l' : List α) : Prop :=
  ∃ old, l' = old ++ new ∧ List.Forall₂ R l old

theorem exists_of_forall₂ {β : Type} {Q : α → β → Prop} {l : List α} {m : List β}
    (h : List.Forall₂ Q l m) {a : α} (ha : a ∈ l) : ∃ b ∈ m, Q a b := by
  induction h with
  | nil => exact absurd ha List.not_mem_nil
  | cons hab _ ih =>
    rcases List.mem_cons.mp ha with rfl | ha
    · exact ⟨_, List.mem_cons_self, hab⟩
    · obtain ⟨b, hb, h⟩ := ih ha
      exact ⟨b, List.mem_cons_of_mem _ hb, h⟩

namespace Grows

theorem refl (hR : ∀ a, R a a) (l : List α) : Grows R l [] l :=
  ⟨l, (List.append_nil l).symm, List.forall₂_same.mpr fun a _ => hR a⟩

theorem concat (hR : ∀ a, R a a) (l : List α) (a : α) : Grows R l [a] (l ++ [a]) :=
  ⟨l, rfl, List.forall₂_same.mpr fun a _ => hR a⟩

theorem map {f : α → α} (h : ∀ a ∈ l, R a (f a)) : Grows R l [] (l.map f) :=
  ⟨l.map f, (List.append_nil _).symm, List.forall₂_map_right_iff.mpr (List.forall₂_same.mpr h)⟩

theorem modifyFirst {p : α → Bool} {f : α → α} (hR : ∀ a, R a a) (hf : ∀ a, R a (f a)) :
    Grows R l [] (modifyFirst p f l) := by
  refine ⟨_, (List.append_nil _).symm, ?_⟩
  induction l with
  | nil => exact .nil
  | cons a l ih =>
    rw [modifyFirst_cons]
    split
    · exact .cons (hf a) (List.forall₂_same.mpr fun a _ => hR a)
    · exact .cons (hR a) ih

/-- A search goes on finding what it has found. -/
theorem find? (h : Grows R l new l') {p : α → Bool} (hp : ∀ a b, R a b → p a = p b) {a : α}
    (ha : l.find? p = some a) : ∃ b, l'.find? p = some b ∧ R a b := by
  obtain ⟨old, rfl, hold⟩ := h
  have hrel := find?_forall₂ hold hp
  rw [ha] at hrel
  generalize hb : old.find? p = found at hrel
  cases hrel with
  | some hab => exact ⟨_, by rw [List.find?_append, hb]; rfl, hab⟩

/-- What was not there is found among the new elements. -/
theorem find?_of_none (h : Grows R l new l') {p : α → Bool} (hp : ∀ a b, R a b → p a = p b)
    (hn : l.find? p = none) : l'.find? p = new.find? p := by
  obtain ⟨old, rfl, hold⟩ := h
  have hrel := find?_forall₂ hold hp
  rw [hn] at hrel
  generalize hb : old.find? p = found at hrel
  cases hrel
  rw [List.find?_append, hb]
  rfl

theorem of_mem (h : Grows R l new l') {b : α} (hb : b ∈ l') : (∃ a ∈ l, R a b) ∨ b ∈ new := by
  obtain ⟨old, rfl, hold⟩ := h
  rcases List.mem_append.mp hb with hb | hb
  · exact Or.inl (exists_of_forall₂ hold.flip hb)
  · exact Or.inr hb

theorem mem (h : Grows R l new l') {a : α} (ha : a ∈ l) : ∃ b ∈ l', R a b := by
  obtain ⟨old, rfl, hold⟩ := h
  obtain ⟨b, hb, hab⟩ := exists_of_forall₂ hold ha
  exact ⟨b, List.mem_append_left _ hb, hab⟩

end Grows

end JtfpMall.Lib
