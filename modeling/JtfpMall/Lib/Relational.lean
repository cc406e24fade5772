import JtfpMall.Lib.Action
import Mathlib.Data.List.Forall2
import Mathlib.Data.Option.Defs

/-!
# Two programs side by side

A relational triple: from related states two programs throw the same error or return
related values, and they leave related states. The rules follow the construction of the
programs, so that a relation between two states becomes one between the answers to
a whole request.
-/

namespace JtfpMall.Lib

variable {ε α β γ δ : Type}

/-- The same error, or related values. -/
inductive ExceptRel (R : α → β → Prop) : Except ε α → Except ε β → Prop where
  | ok {a : α} {b : β} (h : R a b) : ExceptRel R (.ok a) (.ok b)
  | error (e : ε) : ExceptRel R (.error e) (.error e)

namespace ExceptRel

variable {R : α → β → Prop}

theorem refl {R : α → α → Prop} (x : Except ε α) (h : ∀ a, R a a) : ExceptRel R x x := by
  cases x with
  | ok a => exact .ok (h a)
  | error e => exact .error e

theorem eq {x y : Except ε α} (h : ExceptRel Eq x y) : x = y := by
  cases h with
  | ok h => rw [h]
  | error e => rfl

theorem mono {R' : α → β → Prop} (hR : ∀ a b, R a b → R' a b) {x : Except ε α} {y : Except ε β}
    (h : ExceptRel R x y) : ExceptRel R' x y := by
  cases h with
  | ok h => exact .ok (hR _ _ h)
  | error e => exact .error e

theorem bind {Q : γ → δ → Prop} {x : Except ε α} {y : Except ε β} {f : α → Except ε γ}
    {g : β → Except ε δ} (h : ExceptRel R x y) (hf : ∀ a b, R a b → ExceptRel Q (f a) (g b)) :
    ExceptRel Q (x >>= f) (y >>= g) := by
  cases h with
  | ok h => exact hf _ _ h
  | error e => exact .error e

/-- The same computation first. -/
theorem bind_same {Q : γ → δ → Prop} {x : Except ε α} {f : α → Except ε γ} {g : α → Except ε δ}
    (hf : ∀ a, x = .ok a → ExceptRel Q (f a) (g a)) : ExceptRel Q (x >>= f) (x >>= g) := by
  cases x with
  | ok a => exact hf a rfl
  | error e => exact .error e

theorem ite {p : Prop} [Decidable p] {x x' : Except ε α} {y y' : Except ε β}
    (h : p → ExceptRel R x y) (h' : ¬p → ExceptRel R x' y') :
    ExceptRel R (if p then x else x') (if p then y else y') := by
  split
  · exact h ‹p›
  · exact h' ‹¬p›

theorem mapM {Q : γ → δ → Prop} {f : α → Except ε γ} {g : β → Except ε δ}
    (hf : ∀ a b, R a b → ExceptRel Q (f a) (g b)) {l : List α} {l' : List β}
    (h : List.Forall₂ R l l') : ExceptRel (List.Forall₂ Q) (l.mapM f) (l'.mapM g) := by
  induction h with
  | nil => exact .ok .nil
  | cons hab _ ih =>
    rw [List.mapM_cons, List.mapM_cons]
    exact (hf _ _ hab).bind fun c d hcd => ih.bind fun cs ds hcs => .ok (.cons hcd hcs)

end ExceptRel

section
variable {R : α → β → Prop} {p : α → Bool} {q : β → Bool} {l : List α} {l' : List β}

/-- Searches with tests that agree find related elements, or none. -/
theorem find?_forall₂ (h : List.Forall₂ R l l') (hp : ∀ a b, R a b → p a = q b) :
    Option.Rel R (l.find? p) (l'.find? q) := by
  induction h with
  | nil => exact .none
  | cons hab _ ih =>
    rename_i a b l l' _
    rw [List.find?_cons, List.find?_cons, hp a b hab]
    cases q b with
    | true => exact .some hab
    | false => exact ih

theorem filter_forall₂ (h : List.Forall₂ R l l') (hp : ∀ a b, R a b → p a = q b) :
    List.Forall₂ R (l.filter p) (l'.filter q) := by
  induction h with
  | nil => exact .nil
  | cons hab _ ih =>
    rename_i a b l l' _
    rw [List.filter_cons, List.filter_cons, hp a b hab]
    cases q b with
    | true => exact .cons hab ih
    | false => exact ih

end

theorem eq_of_forall₂_eq {l l' : List α} (h : List.Forall₂ Eq l l') : l = l' :=
  List.forall₂_eq_eq_eq ▸ h

namespace Action

variable {σ τ : Type}

/-- From states related by `S` the programs throw the same error or return values
related by `R`, and leave states related by `T`. -/
def Relates (S T : σ → τ → Prop) (R : α → β → Prop) (m : Action σ ε α) (m' : Action τ ε β) : Prop :=
  ∀ s s', S s s' → ExceptRel R (m.run s).1 (m'.run s').1 ∧ T (m.run s).2 (m'.run s').2

variable {S T U : σ → τ → Prop} {R : α → β → Prop} {Q : γ → δ → Prop}

theorem relates_pure {a : α} {b : β} (h : R a b) :
    Relates S S R (pure a : Action σ ε α) (pure b) := fun _ _ hs => ⟨.ok h, hs⟩

theorem relates_reads {f : σ → α} {g : τ → β} (h : ∀ s s', S s s' → R (f s) (g s')) :
    Relates S S R (reads f : Action σ ε α) (reads g) := fun s s' hs => ⟨.ok (h s s' hs), hs⟩

theorem relates_lift {x : Except ε α} {y : Except ε β} (h : ExceptRel R x y) :
    Relates S S R (lift x : Action σ ε α) (lift y) := fun _ _ hs => ⟨h, hs⟩

/-- States that stay related when the first program throws are asked for as `ht`. -/
theorem relates_bind {m : Action σ ε α} {m' : Action τ ε β} {f : α → Action σ ε γ}
    {f' : β → Action τ ε δ} (hm : Relates S T R m m') (ht : ∀ s s', T s s' → U s s')
    (hf : ∀ a b, R a b → Relates T U Q (f a) (f' b)) : Relates S U Q (m >>= f) (m' >>= f') := by
  intro s s' hs
  obtain ⟨h1, h2⟩ := hm s s' hs
  rw [run_bind, run_bind]
  generalize m.run s = x at h1 h2
  generalize m'.run s' = y at h1 h2
  obtain ⟨x, t⟩ := x
  obtain ⟨y, t'⟩ := y
  cases h1 with
  | ok h => exact hf _ _ h t t' h2
  | error e => exact ⟨.error e, ht t t' h2⟩

/-- The same computation first, which reads nothing of the states. -/
theorem relates_lift_bind {x : Except ε α} {f : α → Action σ ε γ} {f' : α → Action τ ε δ}
    (ht : ∀ s s', S s s' → U s s') (hf : ∀ a, x = .ok a → Relates S U Q (f a) (f' a)) :
    Relates S U Q (lift x >>= f) (lift x >>= f') := by
  cases x with
  | ok a => exact hf a rfl
  | error e => exact fun s s' hs => ⟨.error e, ht s s' hs⟩

theorem relates_attempt {m : Action σ ε α} {m' : Action τ ε β} {h : ε → α} {h' : ε → β}
    (hm : Relates S T R m m') (he : ∀ e, R (h e) (h' e)) :
    Relates S T R (m.attempt h) (m'.attempt h') := by
  intro s s' hs
  obtain ⟨h1, h2⟩ := hm s s' hs
  rw [run_attempt, run_attempt]
  generalize m.run s = x at h1 h2
  generalize m'.run s' = y at h1 h2
  obtain ⟨x, t⟩ := x
  obtain ⟨y, t'⟩ := y
  cases h1 with
  | ok h => exact ⟨.ok h, h2⟩
  | error e => exact ⟨.ok (he e), h2⟩

theorem relates_post {m : Action σ ε α} {m' : Action τ ε β} (hm : Relates S T R m m')
    (ht : ∀ s s', T s s' → U s s') : Relates S U R m m' :=
  fun s s' hs => ⟨(hm s s' hs).1, ht _ _ (hm s s' hs).2⟩

end Action

end JtfpMall.Lib
