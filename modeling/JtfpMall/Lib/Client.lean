import Mathlib.Data.List.Induction
import Mathlib.Data.List.ReduceOption

/-!
# A client with a credential

A client holds a credential in memory and keeps it in storage. It shows the credential in the
requests it sends, of which any number may be in flight, and a restart leaves it with what the
storage has. What it holds is what the last sign-in or sign-out made of it, and what it shows was
given to it in a sign-in.
-/

namespace JtfpMall.Lib

variable {C : Type}

structure Client (C : Type) where
  held : Option C
  kept : Option C
  /-- The requests without an answer, with the credential that each shows. -/
  inFlight : List (Option C)

/-- What happens to a client, as far as the credential goes. -/
inductive Move (C : Type) where
  | signIn (c : C)
  | signOut
  /-- A request, that shows the credential if there is one or shows none. -/
  | send (shows : Bool)
  | settle (i : ℕ)
  | restart

namespace Client

def empty : Client C := ⟨none, none, []⟩

def move (client : Client C) : Move C → Client C
  | .signIn c => { client with held := some c, kept := some c }
  | .signOut => { client with held := none, kept := none }
  | .send shows =>
    { client with inFlight := client.inFlight ++ [if shows then client.held else none] }
  | .settle i => { client with inFlight := client.inFlight.eraseIdx i }
  | .restart => ⟨client.kept, client.kept, []⟩

def moves (client : Client C) (ms : List (Move C)) : Client C := ms.foldl move client

end Client

namespace Move

/-- What the move makes of the credential. -/
def outcome : Move C → Option (Option C)
  | signIn c => some (some c)
  | signOut => some none
  | _ => none

/-- The credential after the moves: what the last sign-in or sign-out made of it. -/
def credentialAfter (ms : List (Move C)) : Option C := ((ms.filterMap outcome).getLast?).getD none

/-- The credentials of the sign-ins. -/
def given (ms : List (Move C)) : List C := (ms.filterMap outcome).reduceOption

end Move

namespace Client

open Move

theorem credentialAfter_concat (ms : List (Move C)) (m : Move C) :
    credentialAfter (ms ++ [m]) = m.outcome.getD (credentialAfter ms) := by
  unfold credentialAfter
  cases m <;> simp [outcome]

theorem mem_given {ms : List (Move C)} {c : C} : c ∈ given ms ↔ .signIn c ∈ ms := by
  unfold given
  rw [List.reduceOption_mem_iff, List.mem_filterMap]
  constructor
  · rintro ⟨m, hm, hc⟩
    cases m with
    | signIn d =>
      rw [outcome, Option.some.injEq, Option.some.injEq] at hc
      exact hc ▸ hm
    | _ => cases hc
  · exact fun h => ⟨_, h, rfl⟩

/-- What a client that starts with nothing has after the moves. -/
structure Follows (client : Client C) (ms : List (Move C)) : Prop where
  held : client.held = credentialAfter ms
  kept : client.kept = client.held
  shown : ∀ c, some c ∈ client.inFlight → c ∈ given ms
  signedIn : ∀ c, client.held = some c → c ∈ given ms

theorem follows_empty : Follows (empty : Client C) [] :=
  ⟨rfl, rfl, fun c hc => absurd hc List.not_mem_nil, fun c hc => by cases hc⟩

theorem Follows.move {client : Client C} {ms : List (Move C)} (h : Follows client ms)
    (m : Move C) : Follows (client.move m) (ms ++ [m]) := by
  have hgiven : ∀ {c}, c ∈ given ms → c ∈ given (ms ++ [m]) := by
    intro c hc
    rw [mem_given] at hc ⊢
    exact List.mem_append_left _ hc
  have hshown := fun c hc => hgiven (h.shown c hc)
  have hsigned := fun c hc => hgiven (h.signedIn c hc)
  cases m with
  | signIn c =>
    refine ⟨by rw [credentialAfter_concat]; rfl, rfl, hshown, fun d hd => ?_⟩
    rw [mem_given, ← Option.some.inj hd]
    exact List.mem_append_right _ List.mem_cons_self
  | signOut =>
    exact ⟨by rw [credentialAfter_concat]; rfl, rfl, hshown, fun d hd => by cases hd⟩
  | send shows =>
    refine ⟨by rw [credentialAfter_concat]; exact h.held, h.kept, fun c hc => ?_, hsigned⟩
    rcases List.mem_append.mp hc with hc | hc
    · exact hshown c hc
    · rw [List.mem_singleton] at hc
      cases shows with
      | true => exact hsigned c hc.symm
      | false => cases hc
  | settle i =>
    refine ⟨by rw [credentialAfter_concat]; exact h.held, h.kept, fun c hc => ?_, hsigned⟩
    exact hshown c (List.mem_of_mem_eraseIdx hc)
  | restart =>
    refine ⟨by rw [credentialAfter_concat]; exact h.kept.trans h.held, rfl,
      fun c hc => absurd hc List.not_mem_nil, fun c hc => hsigned c (h.kept ▸ hc)⟩

/-- What one move does to the client, a run of moves does. -/
theorem follows_moves (ms : List (Move C)) : Follows ((empty : Client C).moves ms) ms := by
  induction ms using List.reverseRecOn with
  | nil => exact follows_empty
  | append_singleton ms m ih =>
    rw [moves, List.foldl_append]
    exact ih.move m

end Client

end JtfpMall.Lib
