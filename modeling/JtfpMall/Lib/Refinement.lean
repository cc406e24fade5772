import JtfpMall.Lib.Run
import Mathlib.Data.Nat.Notation

/-!
# A run seen from above

One system refines another when each of its steps is, in what the other sees of the state, the step of
the event that the other sees, and no step where it sees none. A run of the one is then a run of the
other. The invariant counts the steps taken, up to a bound.
-/

namespace JtfpMall.Lib

variable {σ ε τ δ : Type}

structure Refines (step : σ → ε → Option σ) (step' : τ → δ → Option τ) (ok : σ → ε → Prop)
    (view : σ → τ) (event : ε → Option δ) (Inv : ℕ → σ → Prop) (bound : ℕ) : Prop where
  keeps : ∀ {n s e s'}, n < bound → Inv n s → ok s e → step s e = some s' → Inv (n + 1) s'
  seen : ∀ {n s e s' d}, n < bound → Inv n s → ok s e → step s e = some s' → event e = some d →
    step' (view s) d = some (view s')
  unseen : ∀ {n s e s'}, n < bound → Inv n s → ok s e → step s e = some s' → event e = none →
    view s' = view s

variable {step : σ → ε → Option σ} {step' : τ → δ → Option τ} {ok : σ → ε → Prop} {view : σ → τ}
  {event : ε → Option δ} {Inv : ℕ → σ → Prop} {bound : ℕ}

/-- What is seen of a run is a run. -/
theorem Refines.run (h : Refines step step' ok view event Inv bound) {n : ℕ} {s t : σ} {es : List ε}
    (hlength : n + es.length ≤ bound) (hinv : Inv n s) (hok : Along step ok s es)
    (hrun : Lib.run step s es = some t) :
    Lib.run step' (view s) (es.filterMap event) = some (view t) := by
  induction es generalizing n s with
  | nil =>
    rw [run_nil, Option.some.injEq] at hrun
    rw [List.filterMap_nil, run_nil, hrun]
  | cons e es ih =>
    rw [List.length_cons] at hlength
    have hn : n < bound := by omega
    rw [run_cons, Option.bind_eq_some_iff] at hrun
    obtain ⟨s', hs', hrun⟩ := hrun
    have hrest := ih (n := n + 1) (by omega) (h.keeps hn hinv hok.1 hs') (hok.2 s' hs') hrun
    cases he : event e with
    | none =>
      rw [List.filterMap_cons_none he, ← h.unseen hn hinv hok.1 hs' he]
      exact hrest
    | some d =>
      rw [List.filterMap_cons_some he, run_cons, h.seen hn hinv hok.1 hs' he, Option.bind_some]
      exact hrest

end JtfpMall.Lib
