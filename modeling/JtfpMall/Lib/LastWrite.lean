import JtfpMall.Lib.Run
import Mathlib.Order.Basic
import Mathlib.Data.List.Pairwise
import Mathlib.Data.List.Chain

/-!
# A slot that holds what came last

Every value a run receives replaces the one in the slot. The slot never goes back in the order of
the values just when they come in that order, and then it holds the greatest of them.
-/

namespace JtfpMall.Lib

variable {σ ε α : Type} (step : σ → ε → Option σ) (slot : σ → Option α)
  (received : σ → ε → Option α)

/-- The values the run receives, in the order they come. -/
def receipts : σ → List ε → List α
  | _, [] => []
  | s, e :: es => (received s e).toList ++
    match step s e with
    | some s' => receipts s' es
    | none => []

/-- No step puts a value in the place of a later one. -/
def NeverBack [LE α] (s : σ) (es : List ε) : Prop :=
  Along step (fun s e => ∀ s', step s e = some s' → ∀ a b, slot s = some a → slot s' = some b →
    a ≤ b) s es

section
variable {step slot received}

theorem receipts_cons {s s' : σ} {e : ε} (h : step s e = some s') (es : List ε) :
    receipts step received s (e :: es) =
      (received s e).toList ++ receipts step received s' es := by
  rw [receipts, h]

variable (hwrite : ∀ s e s', step s e = some s' → slot s' = (received s e).or (slot s))
include hwrite

theorem toList_slot {s s' : σ} {e : ε} (h : step s e = some s') (xs : List α) :
    ((slot s).toList ++ ((received s e).toList ++ xs)).getLast? =
      ((slot s').toList ++ xs).getLast? := by
  rw [hwrite s e s' h]
  cases received s e with
  | none => rw [Option.toList_none, List.nil_append, Option.none_or]
  | some a =>
    rw [Option.some_or, Option.toList_some, List.getLast?_append_of_ne_nil]
    simp

/-- The slot holds the last value that came. -/
theorem slot_run {s t : σ} {es : List ε} (h : run step s es = some t) :
    slot t = ((slot s).toList ++ receipts step received s es).getLast? := by
  induction es generalizing s with
  | nil =>
    rw [run_nil, Option.some.injEq] at h
    rw [h, receipts, List.append_nil]
    cases slot t <;> rfl
  | cons e es ih =>
    rw [run_cons, Option.bind_eq_some_iff] at h
    obtain ⟨s', hs', h⟩ := h
    rw [ih h, receipts_cons hs', toList_slot hwrite hs']

theorem neverBack_iff [Preorder α] {s t : σ} {es : List ε} (h : run step s es = some t) :
    NeverBack step slot s es ↔
      ((slot s).toList ++ receipts step received s es).Pairwise (· ≤ ·) := by
  induction es generalizing s with
  | nil =>
    rw [receipts, List.append_nil]
    refine iff_of_true trivial ?_
    cases slot s <;> simp
  | cons e es ih =>
    rw [run_cons, Option.bind_eq_some_iff] at h
    obtain ⟨s', hs', h⟩ := h
    have hrest : NeverBack step slot s (e :: es) ↔
        (∀ a b, slot s = some a → slot s' = some b → a ≤ b) ∧ NeverBack step slot s' es := by
      constructor
      · exact fun hall => ⟨hall.1 s' hs', hall.2 s' hs'⟩
      · rintro ⟨hone, hmore⟩
        refine ⟨fun s'' hs'' => ?_, fun s'' hs'' => ?_⟩
        · rw [hs', Option.some.injEq] at hs''
          exact hs'' ▸ hone
        · rw [hs', Option.some.injEq] at hs''
          exact hs'' ▸ hmore
    rw [hrest, ih h, receipts_cons hs']
    have hslot := hwrite s e s' hs'
    cases hr : received s e with
    | none =>
      rw [hr, Option.none_or] at hslot
      rw [hslot, Option.toList_none, List.nil_append]
      refine and_iff_right fun a b ha hb => ?_
      rw [ha, Option.some.injEq] at hb
      exact hb ▸ le_refl a
    | some b =>
      rw [hr, Option.some_or] at hslot
      rw [hslot, Option.toList_some, List.singleton_append]
      cases hs : slot s with
      | none =>
        rw [Option.toList_none, List.nil_append]
        exact and_iff_right fun a c ha => by cases ha
      | some a =>
        rw [Option.toList_some, List.singleton_append, List.pairwise_cons (a := a)]
        constructor
        · rintro ⟨hle, hsorted⟩
          refine ⟨fun c hc => ?_, hsorted⟩
          have hab := hle a b rfl rfl
          rcases List.mem_cons.mp hc with rfl | hc
          · exact hab
          · exact hab.trans (List.rel_of_pairwise_cons hsorted hc)
        · rintro ⟨hall, hsorted⟩
          refine ⟨fun a' b' ha' hb' => ?_, hsorted⟩
          rw [← Option.some.inj ha', ← Option.some.inj hb']
          exact hall b List.mem_cons_self

/-- Where the slot never went back it holds a greatest value of those that came. -/
theorem le_slot [Preorder α] {s t : σ} {es : List ε} (h : run step s es = some t) (hs : slot s = none)
    (hback : NeverBack step slot s es) :
    ∀ a ∈ receipts step received s es, ∃ b, slot t = some b ∧
      b ∈ receipts step received s es ∧ a ≤ b := by
  intro a ha
  have hlast := slot_run hwrite h
  have hsorted := (neverBack_iff hwrite h).mp hback
  rw [hs, Option.toList_none, List.nil_append] at hlast hsorted
  have hne : receipts step received s es ≠ [] := List.ne_nil_of_mem ha
  rw [List.getLast?_eq_some_getLast hne] at hlast
  exact ⟨_, hlast, List.getLast_mem hne, hsorted.rel_getLast ha⟩

end

end JtfpMall.Lib
