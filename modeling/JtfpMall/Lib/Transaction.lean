import JtfpMall.Lib.Action

/-!
# Statements and transactions

A program on a connection to a database issues statements one after the other. Each may fail, which
is up to an arbitrary predicate on its number; one that fails has no effect and ends the program. A
rollback, or the end of the connection, goes back to where the open transaction began.
-/

namespace JtfpMall.Lib

variable {δ α β : Type}

/-- A connection: the database as it sees it, as it was when the open transaction began, and the
number of statements so far. -/
structure Session (δ : Type) where
  db : δ
  saved : Option δ
  issued : ℕ

namespace Session

/-- The database when the connection ends. -/
def close (s : Session δ) : δ := s.saved.getD s.db

/-- A change of the session that counts as a statement. -/
def attempt (fails : ℕ → Bool) (f : Session δ → α × Session δ) : Action (Session δ) Unit α := fun s =>
  if fails s.issued then (.error (), { s with issued := s.issued + 1 })
  else (.ok (f s).1, { (f s).2 with issued := s.issued + 1 })

/-- A statement on the database; it may look at its own number. -/
def statement (fails : ℕ → Bool) (f : ℕ → δ → α × δ) : Action (Session δ) Unit α :=
  attempt fails fun s => ((f s.issued s.db).1, { s with db := (f s.issued s.db).2 })

def query (fails : ℕ → Bool) (f : δ → α) : Action (Session δ) Unit α :=
  statement fails fun _ db => (f db, db)

def beginTransaction (fails : ℕ → Bool) : Action (Session δ) Unit Unit :=
  attempt fails fun s => ((), { s with saved := some s.db })

def commit (fails : ℕ → Bool) : Action (Session δ) Unit Unit :=
  attempt fails fun s => ((), { s with saved := none })

def rollback (fails : ℕ → Bool) : Action (Session δ) Unit Unit :=
  attempt fails fun s => ((), { s with db := s.close, saved := none })

/-- A program that rolls back when it fails, and the end of its connection. Says whether the
program came to its end, and what is in the database then. -/
def connected (fails : ℕ → Bool) (m : Action (Session δ) Unit Unit) (db : δ) : Bool × δ :=
  match m.run ⟨db, none, 0⟩ with
  | (.ok _, s) => (true, s.close)
  | (.error _, s) => (false, ((rollback fails).run s).2.close)

theorem run_attempt_cases (fails : ℕ → Bool) (f : Session δ → α × Session δ) (s : Session δ) :
    (attempt fails f).run s = (.error (), { s with issued := s.issued + 1 }) ∨
    (attempt fails f).run s = (.ok (f s).1, { (f s).2 with issued := s.issued + 1 }) := by
  unfold attempt Action.run
  dsimp only
  split
  · exact Or.inl rfl
  · exact Or.inr rfl

theorem close_rollback (fails : ℕ → Bool) (s : Session δ) :
    ((rollback fails).run s).2.close = s.close := by
  rcases run_attempt_cases fails (fun s : Session δ => ((), { s with db := s.close, saved := none })) s
    with h | h
  · exact congrArg (fun r => r.2.close) h
  · exact congrArg (fun r => r.2.close) h

/-- A statement fails and changes nothing, or returns and does what it does. -/
theorem run_statement_cases (fails : ℕ → Bool) (f : ℕ → δ → α × δ) (s : Session δ) :
    (statement fails f).run s = (.error (), { s with issued := s.issued + 1 }) ∨
    (statement fails f).run s = (.ok (f s.issued s.db).1,
      { s with db := (f s.issued s.db).2, issued := s.issued + 1 }) :=
  run_attempt_cases fails _ s

/-- The program neither begins nor ends a transaction. -/
def Inside (m : Action (Session δ) Unit α) : Prop := ∀ s, (m.run s).2.saved = s.saved

theorem inside_statement (fails : ℕ → Bool) (f : ℕ → δ → α × δ) : Inside (statement fails f) := by
  intro s
  rcases run_statement_cases fails f s with h | h <;> rw [h]

theorem inside_pure (a : α) : Inside (pure a : Action (Session δ) Unit α) := fun _ => rfl

theorem inside_bind {m : Action (Session δ) Unit α} {f : α → Action (Session δ) Unit β}
    (hm : Inside m) (hf : ∀ a, Inside (f a)) : Inside (m >>= f) := by
  intro s
  have h := hm s
  rw [Action.run_bind]
  cases hr : m.run s with
  | mk x s' =>
    rw [hr] at h
    cases x with
    | ok a => exact (hf a s').trans h
    | error e => exact h

def transaction (fails : ℕ → Bool) (m : Action (Session δ) Unit Unit) :
    Action (Session δ) Unit Unit := do
  beginTransaction fails
  m
  commit fails

/-- A transaction does what its program does, or fails and leaves nothing. -/
theorem run_transaction_cases (fails : ℕ → Bool) {m : Action (Session δ) Unit Unit}
    (hm : Inside m) {s : Session δ} (hs : s.saved = none) :
    (∃ s₁ s₂ s', s₁.db = s.db ∧ m.run s₁ = (.ok (), s₂) ∧
      (transaction fails m).run s = (.ok (), s') ∧ s'.close = s₂.db) ∨
    (∃ s', (transaction fails m).run s = (.error (), s') ∧ s'.close = s.db) := by
  unfold transaction
  rw [Action.run_bind]
  rcases run_attempt_cases fails (fun s : Session δ => ((), { s with saved := some s.db })) s
    with hbegin | hbegin
  · refine Or.inr ⟨{ s with issued := s.issued + 1 }, ?_, ?_⟩
    · unfold beginTransaction
      rw [hbegin]
    · unfold close
      rw [hs]
      rfl
  · have hkeeps := hm { s with saved := some s.db, issued := s.issued + 1 }
    unfold beginTransaction
    rw [hbegin]
    dsimp only
    rw [Action.run_bind]
    cases hrun : m.run { s with saved := some s.db, issued := s.issued + 1 } with
    | mk x s₂ =>
      rw [hrun] at hkeeps
      have hclose : s₂.close = s.db := by
        unfold close
        rw [hkeeps]
        rfl
      cases x with
      | error e => exact Or.inr ⟨s₂, rfl, hclose⟩
      | ok u =>
        dsimp only
        rcases run_attempt_cases fails (fun s : Session δ => ((), { s with saved := none })) s₂
          with hcommit | hcommit
        · exact Or.inr ⟨{ s₂ with issued := s₂.issued + 1 }, hcommit, hclose⟩
        · exact Or.inl ⟨{ s with saved := some s.db, issued := s.issued + 1 }, s₂, _, rfl, hrun,
            hcommit, rfl⟩

end Session

end JtfpMall.Lib
