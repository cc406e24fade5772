import Mathlib.Logic.Relation
import Mathlib.Data.List.Forall2

/-!
# Programs that change a state and may throw

A program that throws keeps what it had done to the state. `Leads` says that a
program changes the state by steps of one relation only; it is built up along the
program, so that a property of the single steps becomes one of the whole program.
-/

namespace JtfpMall.Lib

/-- The first of two computations one after the other succeeds if both do. -/
theorem bind_ok {ε α β : Type} {x : Except ε α} {f : α → Except ε β} {b : β}
    (h : (x >>= f) = .ok b) : ∃ a, x = .ok a ∧ f a = .ok b := by
  cases x with
  | ok a => exact ⟨a, rfl, h⟩
  | error e => cases h

theorem map_ok {ε α β : Type} {x : Except ε α} {f : α → β} {b : β}
    (h : x.map f = .ok b) : ∃ a, x = .ok a ∧ b = f a := by
  cases x with
  | ok a =>
    cases h
    exact ⟨a, rfl, rfl⟩
  | error e => cases h

/-- Where the function throws on no element, the map returns. -/
theorem exists_mapM {ε α β : Type} {f : α → Except ε β} {l : List α}
    (h : ∀ a ∈ l, ∃ b, f a = .ok b) : ∃ bs, l.mapM f = .ok bs := by
  induction l with
  | nil => exact ⟨[], rfl⟩
  | cons a l ih =>
    obtain ⟨b, hb⟩ := h a List.mem_cons_self
    obtain ⟨bs, hbs⟩ := ih fun a ha => h a (List.mem_cons_of_mem _ ha)
    refine ⟨b :: bs, ?_⟩
    rw [List.mapM_cons, hb, hbs]
    rfl

theorem mapM_eq_map {ε α β : Type} {f : α → Except ε β} {g : α → β} {l : List α}
    (h : ∀ a ∈ l, f a = .ok (g a)) : l.mapM f = .ok (l.map g) := by
  induction l with
  | nil => rfl
  | cons a l ih =>
    rw [List.mapM_cons, h a List.mem_cons_self, ih fun b hb => h b (List.mem_cons_of_mem _ hb)]
    rfl

/-- Where a map returns, it returns on every element. -/
theorem mapM_ok_iff {ε α β : Type} {f : α → Except ε β} {l : List α} {m : List β} :
    l.mapM f = .ok m ↔ List.Forall₂ (fun a b => f a = .ok b) l m := by
  induction l generalizing m with
  | nil =>
    constructor
    · intro h
      cases h
      exact .nil
    · intro h
      cases h
      rfl
  | cons a l ih =>
    rw [List.mapM_cons]
    constructor
    · intro h
      obtain ⟨b, hb, h⟩ := bind_ok h
      obtain ⟨bs, hbs, h⟩ := bind_ok h
      cases h
      exact .cons hb (ih.mp hbs)
    · intro h
      cases h with
      | cons hb hbs =>
        rw [hb, ih.mpr hbs]
        rfl

/-- What throws does not undo: the state comes back in either case. -/
def Action (σ ε α : Type) := σ → Except ε α × σ

namespace Action

variable {σ ε α β : Type}

def run (m : Action σ ε α) (s : σ) : Except ε α × σ := m s

protected def pure (a : α) : Action σ ε α := fun s => (.ok a, s)

protected def bind (m : Action σ ε α) (f : α → Action σ ε β) : Action σ ε β := fun s =>
  match m s with
  | (.ok a, s') => f a s'
  | (.error e, s') => (.error e, s')

instance : Monad (Action σ ε) where
  pure := Action.pure
  bind := Action.bind

/-- A value read off the state. -/
def reads (f : σ → α) : Action σ ε α := fun s => (.ok (f s), s)

/-- An operation on the state that does not throw. -/
def does (f : σ → α × σ) : Action σ ε α := fun s => (.ok (f s).1, (f s).2)

/-- A computation that does not look at the state. -/
def lift (x : Except ε α) : Action σ ε α := fun s => (x, s)

instance : MonadLift (Except ε) (Action σ ε) := ⟨lift⟩

/-- `try { m } catch (e) { h e }`, the handler being free of effects. -/
def attempt (m : Action σ ε α) (h : ε → α) : Action σ ε α := fun s =>
  match m s with
  | (.ok a, s') => (.ok a, s')
  | (.error e, s') => (.ok (h e), s')

@[simp] theorem run_pure (a : α) (s : σ) : (pure a : Action σ ε α).run s = (.ok a, s) := rfl

@[simp] theorem run_reads (f : σ → α) (s : σ) : (reads f : Action σ ε α).run s = (.ok (f s), s) := rfl

@[simp] theorem run_does (f : σ → α × σ) (s : σ) :
    (does f : Action σ ε α).run s = (.ok (f s).1, (f s).2) := rfl

@[simp] theorem run_lift (x : Except ε α) (s : σ) : (lift x : Action σ ε α).run s = (x, s) := rfl

@[simp] theorem run_monadLift (x : Except ε α) (s : σ) :
    (liftM x : Action σ ε α).run s = (x, s) := rfl

theorem run_bind (m : Action σ ε α) (f : α → Action σ ε β) (s : σ) :
    (m >>= f).run s = match m.run s with
      | (.ok a, s') => (f a).run s'
      | (.error e, s') => (.error e, s') := rfl

@[simp] theorem run_pure_bind (a : α) (f : α → Action σ ε β) (s : σ) :
    ((pure a : Action σ ε α) >>= f).run s = (f a).run s := rfl

@[simp] theorem run_reads_bind (g : σ → α) (f : α → Action σ ε β) (s : σ) :
    ((reads g : Action σ ε α) >>= f).run s = (f (g s)).run s := rfl

theorem lift_ok_bind (a : α) (f : α → Action σ ε β) :
    ((lift (.ok a) : Action σ ε α) >>= f) = f a := rfl

@[simp] theorem run_does_bind (g : σ → α × σ) (f : α → Action σ ε β) (s : σ) :
    ((does g : Action σ ε α) >>= f).run s = (f (g s).1).run (g s).2 := rfl

/-- Of two programs one after the other that return, both return. -/
theorem run_bind_ok {m : Action σ ε α} {f : α → Action σ ε β} {s s'' : σ} {b : β}
    (h : (m >>= f).run s = (.ok b, s'')) :
    ∃ a s', m.run s = (.ok a, s') ∧ (f a).run s' = (.ok b, s'') := by
  rw [run_bind] at h
  match hm : m.run s with
  | (.ok a, s') =>
    rw [hm] at h
    exact ⟨a, s', rfl, h⟩
  | (.error e, s') =>
    rw [hm] at h
    cases h

theorem run_lift_ok {x : Except ε α} {s s' : σ} {a : α}
    (h : (lift x : Action σ ε α).run s = (.ok a, s')) : x = .ok a ∧ s' = s := by
  cases h
  exact ⟨rfl, rfl⟩

theorem run_lift_bind_ok {x : Except ε α} {f : α → Action σ ε β} {s s' : σ} {b : β}
    (h : (lift x >>= f : Action σ ε β).run s = (.ok b, s')) :
    ∃ a, x = .ok a ∧ (f a).run s = (.ok b, s') := by
  cases x with
  | ok a => exact ⟨a, rfl, h⟩
  | error e => cases h

theorem bind_assoc {γ : Type} (m : Action σ ε α) (f : α → Action σ ε β) (g : β → Action σ ε γ) :
    (m >>= f) >>= g = m >>= fun a => f a >>= g := by
  funext s
  change (Action.bind (Action.bind m f) g) s = (Action.bind m fun a => Action.bind (f a) g) s
  simp only [Action.bind]
  match m s with
  | (.ok _, _) => rfl
  | (.error _, _) => rfl

/-- What is made of the result does not concern the state. -/
theorem snd_run_bind_pure (m : Action σ ε α) (f : α → β) (s : σ) :
    ((m >>= fun a => pure (f a) : Action σ ε β).run s).2 = (m.run s).2 := by
  rw [run_bind]
  match m.run s with
  | (.ok _, _) => rfl
  | (.error _, _) => rfl

theorem run_attempt (m : Action σ ε α) (h : ε → α) (s : σ) :
    (m.attempt h).run s = match m.run s with
      | (.ok a, s') => (.ok a, s')
      | (.error e, s') => (.ok (h e), s') := rfl

@[simp] theorem snd_run_attempt (m : Action σ ε α) (h : ε → α) (s : σ) :
    ((m.attempt h).run s).2 = (m.run s).2 := by
  rw [run_attempt]
  match m.run s with
  | (.ok _, _) => rfl
  | (.error _, _) => rfl

/-- From `s`, the program changes the state by steps of `R` only. -/
def Leads (R : σ → σ → Prop) (s : σ) (m : Action σ ε α) : Prop :=
  Relation.ReflTransGen R s (m.run s).2

variable {R : σ → σ → Prop} {s : σ}

theorem leads_pure (a : α) : Leads R s (pure a : Action σ ε α) := .refl

theorem leads_reads (f : σ → α) : Leads R s (reads f : Action σ ε α) := .refl

theorem leads_lift (x : Except ε α) : Leads R s (lift x : Action σ ε α) := .refl

theorem leads_does {f : σ → α × σ} (h : R s (f s).2) : Leads R s (does f : Action σ ε α) :=
  .single h

theorem leads_bind {m : Action σ ε α} {f : α → Action σ ε β} (hm : Leads R s m)
    (hf : ∀ a s', m.run s = (.ok a, s') → Leads R s' (f a)) : Leads R s (m >>= f) := by
  unfold Leads at hm ⊢
  rw [run_bind]
  cases hr : m.run s with
  | mk x s' =>
    rw [hr] at hm
    cases x with
    | ok a => exact hm.trans (hf a s' hr)
    | error e => exact hm

theorem leads_reads_bind {g : σ → α} {f : α → Action σ ε β} (h : Leads R s (f (g s))) :
    Leads R s (reads g >>= f) := h

theorem leads_lift_bind {x : Except ε α} {f : α → Action σ ε β}
    (h : ∀ a, x = .ok a → Leads R s (f a)) : Leads R s ((lift x : Action σ ε α) >>= f) := by
  cases x with
  | ok a => exact h a rfl
  | error e => exact .refl

theorem leads_attempt {m : Action σ ε α} {h : ε → α} (hm : Leads R s m) :
    Leads R s (m.attempt h) := by
  unfold Leads
  rw [snd_run_attempt]
  exact hm

/-- From `s`, the program returns, with a result and a state of which `Q` holds. -/
def Returns (Q : α → σ → Prop) (s : σ) (m : Action σ ε α) : Prop :=
  ∃ a s', m.run s = (.ok a, s') ∧ Q a s'

theorem returns_pure {Q : α → σ → Prop} {a : α} (h : Q a s) :
    Returns Q s (pure a : Action σ ε α) := ⟨a, s, rfl, h⟩

theorem returns_lift {Q : α → σ → Prop} {x : Except ε α} {a : α} (hx : x = .ok a) (h : Q a s) :
    Returns Q s (lift x) := ⟨a, s, by rw [hx]; rfl, h⟩

theorem returns_reads_bind {Q : β → σ → Prop} {g : σ → α} {f : α → Action σ ε β}
    (h : Returns Q s (f (g s))) : Returns Q s (reads g >>= f) := h

theorem returns_lift_bind {Q : β → σ → Prop} {x : Except ε α} {a : α} {f : α → Action σ ε β}
    (hx : x = .ok a) (h : Returns Q s (f a)) : Returns Q s ((lift x : Action σ ε α) >>= f) := by
  rw [hx]
  exact h

theorem returns_bind {P : α → σ → Prop} {Q : β → σ → Prop} {m : Action σ ε α}
    {f : α → Action σ ε β} (hm : Returns P s m) (hf : ∀ a s', P a s' → Returns Q s' (f a)) :
    Returns Q s (m >>= f) := by
  obtain ⟨a, s', hr, ha⟩ := hm
  obtain ⟨b, s'', hr', hb⟩ := hf a s' ha
  refine ⟨b, s'', ?_, hb⟩
  rw [run_bind, hr]
  exact hr'

theorem returns_attempt {Q : α → σ → Prop} {m : Action σ ε α} {h : ε → α} (hm : Returns Q s m) :
    Returns Q s (m.attempt h) := by
  obtain ⟨a, s', hr, ha⟩ := hm
  refine ⟨a, s', ?_, ha⟩
  rw [run_attempt, hr]

end Action

end JtfpMall.Lib
