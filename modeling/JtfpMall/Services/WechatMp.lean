import JtfpMall.Js.Num
import JtfpMall.Lib.LastWrite
import Mathlib.Data.List.Infix

/-!
# The tokens of WeChat

The service keeps an access token and a ticket until they expire. A call that finds none asks
WeChat, which numbers what it issues; the answers come in any order, and each takes the place of
what is kept. The kept token is the newest one received as long as the answers come in the order
of issue, and no longer.
-/

namespace JtfpMall.WechatMp

open JtfpMall.Js
open JtfpMall.Lib

/-- `{ token, exp }`, the token by its number. -/
structure Cached where
  serial : ℕ
  exp : JsNum

/-- An answer with a token: its number and `expires_in`. -/
structure Issued where
  serial : ℕ
  expiresIn : Option JsNum
deriving DecidableEq

/-- Where a call is between two awaits. A call for a ticket may wait for a token first. -/
inductive Phase where
  | idle
  | tokenAsked (forTicket : Bool)
  /-- WeChat has answered, with an error or with a token that is on its way. -/
  | tokenAnswered (forTicket : Bool) (answer : Option Issued)
  | ticketAsked
  | ticketAnswered (answer : Option Issued)
deriving DecidableEq

structure State where
  cachedAccessToken : Option Cached
  cachedJsapiTicket : Option Cached
  /-- The calls, by a number each. -/
  calls : ℕ → Phase
  /-- What WeChat has issued so far, to anyone. -/
  tokensIssued : ℕ
  ticketsIssued : ℕ

namespace State

def put (s : State) (i : ℕ) (p : Phase) : State := { s with calls := Function.update s.calls i p }

/-- No call is under way. -/
def Quiet (s : State) : Prop := ∀ i, s.calls i = .idle

end State

/-- `Date.now() + (Number(data.expires_in || 7200) - 120) * 1000`. -/
def expiry (expiresIn : Option JsNum) (now : JsNum) : JsNum :=
  let given := match expiresIn with
    | some n => if n.truthy then n else .ofNat 7200
    | none => .ofNat 7200
  now.add ((given.sub (.ofNat 120)).mul (.ofNat 1000))

/-- `cached && cached.exp > Date.now()`. -/
def fresh (cached : Option Cached) (now : JsNum) : Bool :=
  match cached with
  | some c => (now.lt? c.exp).getD false
  | none => false

/-- `getAccessToken()`, for its own sake or for a ticket. Without an app id it throws. -/
def getAccessToken (configured : Bool) (s : State) (i : ℕ) (forTicket : Bool) (now : JsNum) :
    State :=
  if fresh s.cachedAccessToken now then
    if forTicket then s.put i .ticketAsked else s
  else if configured then s.put i (.tokenAsked forTicket) else s

inductive Event where
  | getAccessToken (i : ℕ) (now : JsNum)
  /-- The clock is read for the ticket, then for the token. -/
  | getJsapiTicket (i : ℕ) (now later : JsNum)
  /-- WeChat issues what the call asks for. -/
  | issue (i : ℕ) (expiresIn : Option JsNum)
  /-- An error, or no answer in time. -/
  | fail (i : ℕ)
  /-- The answer reaches the call. -/
  | arrive (i : ℕ) (now : JsNum)

def step (configured : Bool) (s : State) : Event → Option State
  | .getAccessToken i now => match s.calls i with
    | .idle => some (getAccessToken configured s i false now)
    | _ => none
  | .getJsapiTicket i now later => match s.calls i with
    | .idle =>
      if fresh s.cachedJsapiTicket now then some s
      else some (getAccessToken configured s i true later)
    | _ => none
  | .issue i expiresIn => match s.calls i with
    | .tokenAsked forTicket =>
      some { s.put i (.tokenAnswered forTicket (some ⟨s.tokensIssued, expiresIn⟩)) with
        tokensIssued := s.tokensIssued + 1 }
    | .ticketAsked =>
      some { s.put i (.ticketAnswered (some ⟨s.ticketsIssued, expiresIn⟩)) with
        ticketsIssued := s.ticketsIssued + 1 }
    | _ => none
  | .fail i => match s.calls i with
    | .tokenAsked forTicket => some (s.put i (.tokenAnswered forTicket none))
    | .tokenAnswered forTicket _ => some (s.put i (.tokenAnswered forTicket none))
    | .ticketAsked => some (s.put i (.ticketAnswered none))
    | .ticketAnswered _ => some (s.put i (.ticketAnswered none))
    | .idle => none
  | .arrive i now => match s.calls i with
    | .tokenAnswered forTicket (some a) =>
      some { s.put i (if forTicket then .ticketAsked else .idle) with
        cachedAccessToken := some ⟨a.serial, expiry a.expiresIn now⟩ }
    | .ticketAnswered (some a) =>
      some { s.put i .idle with cachedJsapiTicket := some ⟨a.serial, expiry a.expiresIn now⟩ }
    | .tokenAnswered _ none => some (s.put i .idle)
    | .ticketAnswered none => some (s.put i .idle)
    | _ => none

/-- The service after its start, whatever WeChat has issued before. -/
def start (tokens tickets : ℕ) : State := ⟨none, none, fun _ => .idle, tokens, tickets⟩

inductive Kind where
  | accessToken
  | jsapiTicket
deriving DecidableEq

/-- The number of the kept token or ticket. -/
def State.kept (k : Kind) (s : State) : Option ℕ :=
  match k with
  | .accessToken => s.cachedAccessToken.map Cached.serial
  | .jsapiTicket => s.cachedJsapiTicket.map Cached.serial

/-- The number that comes with an answer. -/
def received (k : Kind) (s : State) : Event → Option ℕ
  | .arrive i _ => match k, s.calls i with
    | .accessToken, .tokenAnswered _ (some a) => some a.serial
    | .jsapiTicket, .ticketAnswered (some a) => some a.serial
    | _, _ => none
  | _ => none

@[simp] theorem kept_put (k : Kind) (s : State) (i : ℕ) (p : Phase) :
    (s.put i p).kept k = s.kept k := by cases k <;> rfl

theorem kept_getAccessToken (k : Kind) (configured : Bool) (s : State) (i : ℕ) (forTicket : Bool)
    (now : JsNum) : (getAccessToken configured s i forTicket now).kept k = s.kept k := by
  unfold getAccessToken
  split_ifs <;> simp

/-- A step puts what it receives in the place of what is kept, and leaves it otherwise. -/
theorem kept_step (configured : Bool) (k : Kind) (s : State) (e : Event) (s' : State)
    (h : step configured s e = some s') : s'.kept k = (received k s e).or (s.kept k) := by
  cases e with
  | getAccessToken i now =>
    simp only [step] at h
    split at h
    · rw [← Option.some.inj h, kept_getAccessToken]
      rfl
    · cases h
  | getJsapiTicket i now later =>
    simp only [step] at h
    split at h
    · split at h
      · rw [← Option.some.inj h]
        rfl
      · rw [← Option.some.inj h, kept_getAccessToken]
        rfl
    · cases h
  | issue i expiresIn =>
    simp only [step] at h
    split at h
    · rw [← Option.some.inj h]
      cases k <;> rfl
    · rw [← Option.some.inj h]
      cases k <;> rfl
    · cases h
  | fail i =>
    simp only [step] at h
    have hput : ∀ p, some (s.put i p) = some s' →
        s'.kept k = (received k s (.fail i)).or (s.kept k) := by
      intro p hp
      rw [← Option.some.inj hp, kept_put]
      rfl
    split at h
    · exact hput _ h
    · exact hput _ h
    · exact hput _ h
    · exact hput _ h
    · cases h
  | arrive i now =>
    simp only [step] at h
    cases hp : s.calls i with
    | idle =>
      rw [hp] at h
      cases h
    | tokenAsked _ =>
      rw [hp] at h
      cases h
    | ticketAsked =>
      rw [hp] at h
      cases h
    | tokenAnswered forTicket answer =>
      rw [hp] at h
      cases answer with
      | none =>
        rw [← Option.some.inj h, kept_put]
        cases k <;> simp [received, hp]
      | some a =>
        rw [← Option.some.inj h]
        cases k <;> simp [received, hp, State.kept, State.put]
    | ticketAnswered answer =>
      rw [hp] at h
      cases answer with
      | none =>
        rw [← Option.some.inj h, kept_put]
        cases k <;> simp [received, hp]
      | some a =>
        rw [← Option.some.inj h]
        cases k <;> simp [received, hp, State.kept, State.put]

section
variable (configured : Bool) (s : State) (es : List Event)

/-- The numbers the calls receive, in the order their answers arrive. -/
def receivedAlong (k : Kind) : List ℕ := receipts (step configured) (received k) s es

/-- Nothing kept gives way to something issued before it, and when no call is under way the newest
of what was received is kept. -/
def StaysCurrent : Prop :=
  ∀ k, NeverBack (step configured) (State.kept k) s es ∧
    ∀ front t, front <+: es → run (step configured) s front = some t → t.Quiet →
      ∀ n ∈ receivedAlong configured s front k, ∃ m, t.kept k = some m ∧
        m ∈ receivedAlong configured s front k ∧ n ≤ m

end

/-- **Both caches.** They stay current just when the tokens arrive in the order they were issued in,
and the tickets too. -/
theorem staysCurrent_iff (configured : Bool) (tokens tickets : ℕ) (es : List Event) (t : State)
    (h : run (step configured) (start tokens tickets) es = some t) :
    StaysCurrent configured (start tokens tickets) es ↔
      ∀ k, (receivedAlong configured (start tokens tickets) es k).Pairwise (· ≤ ·) := by
  have hnone : ∀ k, (start tokens tickets).kept k = none := fun k => by cases k <;> rfl
  have hback : ∀ k, NeverBack (step configured) (State.kept k) (start tokens tickets) es ↔
      (receivedAlong configured (start tokens tickets) es k).Pairwise (· ≤ ·) := by
    intro k
    rw [neverBack_iff (kept_step configured k) h, hnone k, Option.toList_none, List.nil_append]
    rfl
  constructor
  · exact fun hcurrent k => (hback k).mp (hcurrent k).1
  · intro hsorted k
    refine ⟨(hback k).mpr (hsorted k), ?_⟩
    rintro front u ⟨rest, rfl⟩ hu _ n hn
    have hfront := (along_append (step configured) hu ((hback k).mpr (hsorted k))).1
    exact le_slot (kept_step configured k) hu (hnone k) hfront n hn

/-- Two calls find no token; the answer to the second arrives first. -/
def crossing : List Event :=
  [.getAccessToken 0 (.ofNat 0), .getAccessToken 1 (.ofNat 0), .issue 0 none, .issue 1 none,
    .arrive 1 (.ofNat 1), .arrive 0 (.ofNat 2)]

/-- In the end the older token is kept. -/
theorem crossing_not_current : ∃ t, run (step true) (start 0 0) crossing = some t ∧ t.Quiet ∧
    ¬ StaysCurrent true (start 0 0) crossing := by
  refine ⟨_, rfl, ?_, fun hcurrent => ?_⟩
  · intro i
    by_cases h0 : i = 0
    · subst h0
      rfl
    · by_cases h1 : i = 1
      · subst h1
        rfl
      · simp [State.put, getAccessToken, fresh, start, h0, h1]
  · have hsorted := (neverBack_iff (kept_step true .accessToken) rfl).mp (hcurrent .accessToken).1
    have hreceived : receipts (step true) (received .accessToken) (start 0 0) crossing = [1, 0] := by
      decide +kernel
    rw [hreceived] at hsorted
    exact absurd hsorted (by decide)

theorem straight_current :
    StaysCurrent true (start 0 0) [.getAccessToken 0 (.ofNat 0), .issue 0 none,
      .arrive 0 (.ofNat 1)] ↔
    ∀ k, (receivedAlong true (start 0 0) [.getAccessToken 0 (.ofNat 0), .issue 0 none,
      .arrive 0 (.ofNat 1)] k).Pairwise (· ≤ ·) :=
  staysCurrent_iff true 0 0 _ _ rfl

end JtfpMall.WechatMp
