import Mathlib.Logic.Basic
import Mathlib.Data.Option.Basic

/-!
# Runs of a partial transition function

`step s e` is `none` where the event `e` cannot happen in the state `s`. A run
is the fold of the steps over a list of events. Conditions on a run are stated
on the state before each step (`Along`), and invariants go from one step to the
whole run (`run_invariant`).
-/

namespace JtfpMall.Lib

variable {σ ε : Type} (step : σ → ε → Option σ)

def run : σ → List ε → Option σ
  | s, [] => some s
  | s, e :: es => (step s e).bind fun s' => run s' es

/-- `ok` holds of every step of the run, in the state the step is taken from. -/
def Along (ok : σ → ε → Prop) : σ → List ε → Prop
  | _, [] => True
  | s, e :: es => ok s e ∧ ∀ s', step s e = some s' → Along ok s' es

instance Along.decidable {ok : σ → ε → Prop} [∀ s e, Decidable (ok s e)] :
    ∀ s es, Decidable (Along step ok s es)
  | _, [] => isTrue trivial
  | s, e :: es =>
    match h : step s e with
    | none => decidable_of_iff (ok s e)
        ⟨fun hok => ⟨hok, fun _ hs' => nomatch h.symm.trans hs'⟩, fun hok => hok.1⟩
    | some t =>
      have : Decidable (Along step ok t es) := Along.decidable t es
      decidable_of_iff (ok s e ∧ Along step ok t es)
        ⟨fun hok => ⟨hok.1, fun _ hs' => Option.some.inj (h.symm.trans hs') ▸ hok.2⟩,
          fun hok => ⟨hok.1, hok.2 t h⟩⟩

@[simp] theorem run_nil (s : σ) : run step s [] = some s := rfl

theorem run_cons (s : σ) (e : ε) (es : List ε) :
    run step s (e :: es) = (step s e).bind fun s' => run step s' es := rfl

theorem run_append (s : σ) (es fs : List ε) :
    run step s (es ++ fs) = (run step s es).bind fun s' => run step s' fs := by
  induction es generalizing s with
  | nil => rfl
  | cons e es ih =>
    rw [List.cons_append, run_cons, run_cons]
    cases step s e with
    | none => rfl
    | some s' => exact ih s'

/-- The last step of a run. -/
theorem run_snoc {s t : σ} {es : List ε} {e : ε} (h : run step s (es ++ [e]) = some t) :
    ∃ m, run step s es = some m ∧ step m e = some t := by
  rw [run_append, Option.bind_eq_some_iff] at h
  obtain ⟨m, hm, ht⟩ := h
  refine ⟨m, hm, ?_⟩
  rw [run_cons, Option.bind_eq_some_iff] at ht
  obtain ⟨m', hm', ht⟩ := ht
  rw [run_nil, Option.some.injEq] at ht
  exact ht ▸ hm'

theorem along_append {ok : σ → ε → Prop} {s m : σ} {es fs : List ε}
    (hm : run step s es = some m) (h : Along step ok s (es ++ fs)) :
    Along step ok s es ∧ Along step ok m fs := by
  induction es generalizing s with
  | nil =>
    rw [run_nil, Option.some.injEq] at hm
    exact ⟨trivial, hm ▸ h⟩
  | cons e es ih =>
    rw [run_cons, Option.bind_eq_some_iff] at hm
    obtain ⟨s', hs', hm⟩ := hm
    rw [List.cons_append] at h
    obtain ⟨h1, h2⟩ := ih hm (h.2 s' hs')
    refine ⟨⟨h.1, fun s'' hs'' => ?_⟩, h2⟩
    rw [hs', Option.some.injEq] at hs''
    exact hs'' ▸ h1

theorem Along.of_forall {ok : σ → ε → Prop} (h : ∀ s e, ok s e) (s : σ) (es : List ε) :
    Along step ok s es := by
  induction es generalizing s with
  | nil => trivial
  | cons e es ih => exact ⟨h s e, fun s' _ => ih s'⟩

theorem Along.mono {ok ok' : σ → ε → Prop} (hk : ∀ s e, ok s e → ok' s e) {s : σ} {es : List ε}
    (h : Along step ok s es) : Along step ok' s es := by
  induction es generalizing s with
  | nil => trivial
  | cons e es ih => exact ⟨hk s e h.1, fun s' hs' => ih (h.2 s' hs')⟩

/-- A condition on the events alone holds along the run when it holds of each of them. -/
theorem Along.and {ok : σ → ε → Prop} {q : ε → Prop} {s : σ} {es : List ε}
    (h : Along step ok s es) (hq : ∀ e ∈ es, q e) : Along step (fun s e => ok s e ∧ q e) s es := by
  induction es generalizing s with
  | nil => trivial
  | cons e es ih =>
    refine ⟨⟨h.1, hq e List.mem_cons_self⟩, fun s' hs' => ?_⟩
    exact ih (h.2 s' hs') fun e' he' => hq e' (List.mem_cons_of_mem e he')

/-- A condition on the events alone. -/
theorem Along.of_events {q : ε → Prop} {es : List ε} (hq : ∀ e ∈ es, q e) (s : σ) :
    Along step (fun _ e => q e) s es := by
  induction es generalizing s with
  | nil => trivial
  | cons e es ih =>
    exact ⟨hq e List.mem_cons_self, fun s' _ => ih (fun e' he' => hq e' (List.mem_cons_of_mem e he')) s'⟩

/-- What the condition says of the events alone holds of each event of a run. -/
theorem Along.events {ok : σ → ε → Prop} {q : ε → Prop} (hq : ∀ s e, ok s e → q e) {s t : σ}
    {es : List ε} (h : Along step ok s es) (hr : run step s es = some t) : ∀ e ∈ es, q e := by
  induction es generalizing s with
  | nil => exact fun e he => absurd he List.not_mem_nil
  | cons e es ih =>
    rw [run_cons, Option.bind_eq_some_iff] at hr
    obtain ⟨s', hs', hr⟩ := hr
    intro e' he'
    rcases List.mem_cons.mp he' with rfl | he'
    · exact hq s e' h.1
    · exact ih (h.2 s' hs') hr e' he'

/-- What one step preserves under its condition, a run preserves. -/
theorem run_invariant {ok : σ → ε → Prop} (Inv : σ → Prop)
    (hstep : ∀ s e s', Inv s → ok s e → step s e = some s' → Inv s')
    {s t : σ} {es : List ε} (h0 : Inv s) (hok : Along step ok s es)
    (hr : run step s es = some t) : Inv t := by
  induction es generalizing s with
  | nil =>
    rw [run_nil, Option.some.injEq] at hr
    exact hr ▸ h0
  | cons e es ih =>
    rw [run_cons, Option.bind_eq_some_iff] at hr
    obtain ⟨s', hs', hr⟩ := hr
    exact ih (hstep s e s' h0 hok.1 hs') (hok.2 s' hs') hr

/-- Where the condition on a step says what the step leaves, the condition along a run says what the
run leaves, at any point of it. -/
theorem along_iff_forall {ok : σ → ε → Prop} {Inv P : σ → Prop} (hP : ∀ s, Inv s → P s)
    (hok : ∀ s e, Inv s → (ok s e ↔ ∀ s', step s e = some s' → P s'))
    (hstep : ∀ s e s', Inv s → ok s e → step s e = some s' → Inv s') {s : σ} (h0 : Inv s)
    (es : List ε) :
    Along step ok s es ↔ ∀ fs gs t, es = fs ++ gs → run step s fs = some t → P t := by
  induction es generalizing s with
  | nil =>
    refine iff_of_true trivial fun fs gs t hsplit hrun => ?_
    rw [(List.append_eq_nil_iff.mp hsplit.symm).1, run_nil, Option.some.injEq] at hrun
    exact hrun ▸ hP s h0
  | cons e es ih =>
    constructor
    · rintro ⟨hone, hrest⟩ fs gs t hsplit hrun
      cases fs with
      | nil =>
        rw [run_nil, Option.some.injEq] at hrun
        exact hrun ▸ hP s h0
      | cons f fs =>
        obtain ⟨rfl, rfl⟩ := List.cons.inj hsplit
        rw [run_cons, Option.bind_eq_some_iff] at hrun
        obtain ⟨s', hs', hrun⟩ := hrun
        exact (ih (hstep s e s' h0 hone hs')).mp (hrest s' hs') fs gs t rfl hrun
    · intro hall
      have hone : ok s e := (hok s e h0).mpr fun s' hs' =>
        hall [e] es s' rfl (by rw [run_cons, hs', Option.bind_some, run_nil])
      refine ⟨hone, fun s' hs' => (ih (hstep s e s' h0 hone hs')).mpr ?_⟩
      rintro fs gs t rfl hrun
      exact hall (e :: fs) gs t rfl (by rw [run_cons, hs', Option.bind_some, hrun])

section
variable {ω : Type} (note : σ → ω → ε → ω)

/-- The system beside one who notes what happens and changes nothing. -/
def watched (p : σ × ω) (e : ε) : Option (σ × ω) := (step p.1 e).map fun s => (s, note p.1 p.2 e)

theorem watched_eq_some {p q : σ × ω} {e : ε} (h : watched step note p e = some q) :
    step p.1 e = some q.1 ∧ q.2 = note p.1 p.2 e := by
  obtain ⟨s, hs, rfl⟩ := Option.map_eq_some_iff.mp h
  exact ⟨hs, rfl⟩

/-- Notes or none, the runs are the same. -/
theorem exists_run_watched {s t : σ} {es : List ε} (h : run step s es = some t) (w : ω) :
    ∃ w', run (watched step note) (s, w) es = some (t, w') := by
  induction es generalizing s w with
  | nil =>
    rw [run_nil, Option.some.injEq] at h
    exact ⟨w, by rw [run_nil, h]⟩
  | cons e es ih =>
    rw [run_cons, Option.bind_eq_some_iff] at h
    obtain ⟨m, hm, h⟩ := h
    obtain ⟨w', hw'⟩ := ih h (note s w e)
    refine ⟨w', ?_⟩
    rw [run_cons, watched, hm]
    exact hw'

end

end JtfpMall.Lib
