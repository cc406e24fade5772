import JtfpMall.Lib.Growing

/-!
# References between lists

The elements of one list refer to elements of another. What keeps every reference
covered: a change of either side that keeps what the reference reads, more elements, and a
deletion that takes the referring elements along.
-/

namespace JtfpMall.Lib

variable {α β : Type} {refers : β → α → Prop} {children children' : List β}
  {parents parents' : List α}

/-- Every child refers to some parent. -/
def Covered (refers : β → α → Prop) (children : List β) (parents : List α) : Prop :=
  ∀ c ∈ children, ∃ p ∈ parents, refers c p

namespace Covered

theorem nil : Covered refers [] parents := fun _ hc => absurd hc List.not_mem_nil

theorem subset (h : Covered refers children parents) (hs : children' ⊆ children) :
    Covered refers children' parents := fun c hc => h c (hs hc)

theorem superset (h : Covered refers children parents) (hs : parents ⊆ parents') :
    Covered refers children parents' := by
  intro c hc
  obtain ⟨p, hp, hr⟩ := h c hc
  exact ⟨p, hs hp, hr⟩

/-- One more child, that refers to a parent. -/
theorem concat (h : Covered refers children parents) {c : β} (hc : ∃ p ∈ parents, refers c p) :
    Covered refers (children ++ [c]) parents := by
  intro c' hc'
  rcases List.mem_append.mp hc' with hm | hm
  · exact h c' hm
  · rw [List.mem_singleton.mp hm]
    exact hc

/-- Children that change and refer to what they referred to. -/
theorem changeChildren (h : Covered refers children parents) {R : β → β → Prop}
    (hR : ∀ c c' p, R c c' → refers c p → refers c' p)
    (hc : List.Forall₂ R children children') : Covered refers children' parents := by
  intro c' hc'
  obtain ⟨c, hm, hcc⟩ := exists_of_forall₂ hc.flip hc'
  obtain ⟨p, hp, hr⟩ := h c hm
  exact ⟨p, hp, hR c c' p hcc hr⟩

/-- Parents that change and are referred to by what referred to them. -/
theorem changeParents (h : Covered refers children parents) {R : α → α → Prop}
    (hR : ∀ c p p', R p p' → refers c p → refers c p')
    (hp : List.Forall₂ R parents parents') : Covered refers children parents' := by
  intro c hc
  obtain ⟨p, hm, hr⟩ := h c hc
  obtain ⟨p', hm', hpp⟩ := exists_of_forall₂ hp hm
  exact ⟨p', hm', hR c p p' hpp hr⟩

/-- The parents that go take along the children that refer to them. -/
theorem cascade (h : Covered refers children parents) {gone : α → Bool} {goes : β → Bool}
    (hg : ∀ c p, refers c p → gone p = true → goes c = true) :
    Covered refers (children.filter fun c => !goes c) (parents.filter fun p => !gone p) := by
  intro c hc
  obtain ⟨hm, hstays⟩ := List.mem_filter.mp hc
  obtain ⟨p, hp, hr⟩ := h c hm
  refine ⟨p, List.mem_filter.mpr ⟨hp, ?_⟩, hr⟩
  rw [Bool.not_eq_true', Bool.eq_false_iff] at hstays ⊢
  exact fun hgone => hstays (hg c p hr hgone)

/-- A child that would go with parents that are not there is not there either. -/
theorem filter_eq_self (h : Covered refers children parents) {goes : β → Bool}
    (hg : ∀ c p, refers c p → p ∈ parents → goes c = false) :
    (children.filter fun c => !goes c) = children := by
  refine List.filter_eq_self.mpr fun c hc => ?_
  obtain ⟨p, hp, hr⟩ := h c hc
  rw [hg c p hr hp]
  rfl

end Covered

end JtfpMall.Lib
