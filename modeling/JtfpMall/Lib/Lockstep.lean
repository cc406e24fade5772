import Mathlib.Logic.Basic

/-!
# Two runs on the same inputs

A machine answers every input and moves on. Two of its states that a relation holds together, input
by input, answer alike as far as their answers are looked at.
-/

namespace JtfpMall.Lib

variable {σ ι ω ο : Type} (serve : σ → ι → ω × σ)

/-- What is seen of the answers, one after the other. -/
def observed (sees : ι → ω → ο) : σ → List ι → List ο
  | _, [] => []
  | s, i :: is => sees i (serve s i).1 :: observed sees (serve s i).2 is

/-- `ok` holds of the two states at every input. -/
def AlongBoth (ok : σ → σ → ι → Prop) : σ → σ → List ι → Prop
  | _, _, [] => True
  | s, s', i :: is => ok s s' i ∧ AlongBoth ok (serve s i).2 (serve s' i).2 is

/-- What one input keeps of the relation and shows alike, a run shows alike. -/
theorem observed_eq_of_lockstep {ok : σ → σ → ι → Prop} {sees : ι → ω → ο} (R : σ → σ → Prop)
    (hstep : ∀ s s' i, R s s' → ok s s' i →
      R (serve s i).2 (serve s' i).2 ∧ sees i (serve s i).1 = sees i (serve s' i).1)
    {s s' : σ} {is : List ι} (h : R s s') (hok : AlongBoth serve ok s s' is) :
    observed serve sees s is = observed serve sees s' is := by
  induction is generalizing s s' with
  | nil => rfl
  | cons i is ih =>
    obtain ⟨hrel, hsame⟩ := hstep s s' i h hok.1
    rw [observed, observed, hsame, ih hrel hok.2]

end JtfpMall.Lib
