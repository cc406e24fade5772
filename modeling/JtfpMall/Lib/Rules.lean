import Mathlib.Data.List.Basic

/-!
# Rules that watch a record

A rule watches some fields of a record and gives values to others. Rules that run one after another,
none of which writes what one of them watches or what another one writes, leave each field with the
value its rule gives it in the record they started from.
-/

namespace JtfpMall.Lib

/-- The value of a field depends on the watched fields only, and only targets are given one. -/
structure Rule (κ ν : Type) where
  watched : List κ
  targets : List κ
  value : (κ → ν) → κ → Option ν
  value_congr : ∀ f g : κ → ν, (∀ k ∈ watched, f k = g k) → value f = value g
  value_eq_none : ∀ (f : κ → ν) (k : κ), k ∉ targets → value f k = none

namespace Rule

variable {κ ν : Type}

def apply (r : Rule κ ν) (f : κ → ν) : κ → ν := fun k => (r.value f k).getD (f k)

def applyAll (rules : List (Rule κ ν)) (f : κ → ν) : κ → ν := rules.foldl (fun f r => r.apply f) f

/-- The value one of the rules gives the field. -/
def valueOf (rules : List (Rule κ ν)) (f : κ → ν) (k : κ) : Option ν :=
  rules.findSome? fun r => r.value f k

theorem apply_of_not_mem {r : Rule κ ν} {k : κ} (h : k ∉ r.targets) (f : κ → ν) :
    r.apply f k = f k := by
  unfold apply
  rw [r.value_eq_none f k h]
  rfl

/-- No rule writes what one of them watches, and no field has two rules. -/
structure Separate (rules : List (Rule κ ν)) : Prop where
  watched : ∀ r ∈ rules, ∀ r' ∈ rules, ∀ k ∈ r.targets, k ∉ r'.watched
  targets : rules.Pairwise fun r r' => ∀ k ∈ r.targets, k ∉ r'.targets

theorem Separate.tail {r : Rule κ ν} {rules : List (Rule κ ν)} (h : Separate (r :: rules)) :
    Separate rules where
  watched r' hr' r'' hr'' :=
    h.watched r' (List.mem_cons_of_mem r hr') r'' (List.mem_cons_of_mem r hr'')
  targets := (List.pairwise_cons.mp h.targets).2

/-- A rule that writes nothing watched leaves what the others give. -/
theorem valueOf_apply {r : Rule κ ν} {rules : List (Rule κ ν)}
    (h : ∀ r' ∈ rules, ∀ k ∈ r.targets, k ∉ r'.watched) (f : κ → ν) (k : κ) :
    valueOf rules (r.apply f) k = valueOf rules f k := by
  induction rules with
  | nil => rfl
  | cons r' rules ih =>
    have hvalue : r'.value (r.apply f) = r'.value f := by
      refine r'.value_congr _ _ fun k hk => apply_of_not_mem (fun hmem => ?_) f
      exact h r' List.mem_cons_self k hmem hk
    have hrest := ih fun r'' hr'' => h r'' (List.mem_cons_of_mem r' hr'')
    unfold valueOf at hrest ⊢
    rw [List.findSome?_cons, List.findSome?_cons, hvalue, hrest]

theorem valueOf_eq_none {rules : List (Rule κ ν)} {k : κ} (h : ∀ r ∈ rules, k ∉ r.targets)
    (f : κ → ν) : valueOf rules f k = none :=
  List.findSome?_eq_none_iff.mpr fun r hr => r.value_eq_none f k (h r hr)

/-- Separate rules read the record as it was. -/
theorem applyAll_eq {rules : List (Rule κ ν)} (h : Separate rules) (f : κ → ν) (k : κ) :
    applyAll rules f k = (valueOf rules f k).getD (f k) := by
  induction rules generalizing f with
  | nil => rfl
  | cons r rules ih =>
    have hwatched : ∀ r' ∈ rules, ∀ k ∈ r.targets, k ∉ r'.watched := fun r' hr' =>
      h.watched r List.mem_cons_self r' (List.mem_cons_of_mem r hr')
    have hrest : applyAll (r :: rules) f k = (valueOf rules f k).getD (r.apply f k) := by
      rw [← valueOf_apply hwatched]
      exact ih h.tail (r.apply f)
    rw [hrest]
    unfold valueOf apply
    rw [List.findSome?_cons]
    cases hvalue : r.value f k with
    | none => rfl
    | some v =>
      -- the field has this rule, so it has no other one
      have hmem : k ∈ r.targets := by
        by_contra hnot
        rw [r.value_eq_none f k hnot] at hvalue
        cases hvalue
      have hnone := valueOf_eq_none
        (fun r' hr' => (List.pairwise_cons.mp h.targets).1 r' hr' k hmem) f
      unfold valueOf at hnone
      rw [hnone]
      rfl

end Rule

end JtfpMall.Lib
