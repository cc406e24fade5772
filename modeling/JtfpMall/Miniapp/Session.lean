import JtfpMall.Lib.Client
import JtfpMall.Lib.Run
import Mathlib.Data.List.InsertIdx

/-!
# The session of the mini-program

`app.js` holds the token and the user in `globalData` and keeps both in storage; `request.js` sends
the token along and logs out on any 401. Any number of logins and requests may be in flight and
be answered in any order. The app follows a client with a credential.
-/

namespace JtfpMall.Miniapp.Session

open JtfpMall.Lib

/-- A token or a user is none where it is `null`, `undefined` or an empty text. -/
structure GlobalData (Token User : Type) where
  token : Option Token
  userInfo : Option User
  isLoggedIn : Bool

/-- The two keys of `wx` storage. -/
structure Storage (Token User : Type) where
  token : Option Token
  userInfo : Option User

/-- A request in flight. -/
structure Sent (Token : Type) where
  /-- The page has awaited `ensureLogin` before it. -/
  awaited : Bool
  /-- The token of the `Authorization` header. -/
  auth : Option Token

/-- How a request ends: with a status from 200 to 299, with 401, or in another way. -/
inductive Answer (α : Type) where
  | ok (data : α)
  | unauthorized
  | rejected

structure App (Token User : Type) where
  globalData : GlobalData Token User
  storage : Storage Token User
  /-- The logins in flight; the page that waits for one sends a request after it, or none. -/
  logins : List Bool
  requests : List (Sent Token)

inductive Event (Token User : Type) where
  /-- The app is closed and opened again. -/
  | launch
  /-- A page awaits `ensureLogin`, and then sends an authorised request, or none. -/
  | enter (sends : Bool)
  /-- A request that no page has awaited a login for. -/
  | call (needAuth : Bool)
  | loginAnswered (i : ℕ) (answer : Answer (Option Token × Option User))
  | answered (i : ℕ) (answer : Answer Unit)
  | logout

variable {Token User : Type}

namespace App

/-- The app before its first launch. -/
def installed : App Token User := ⟨⟨none, none, false⟩, ⟨none, none⟩, [], []⟩

/-- `onLaunch()`. -/
def onLaunch (a : App Token User) : App Token User :=
  if a.storage.token.isSome && a.storage.userInfo.isSome then
    { a with globalData := ⟨a.storage.token, a.storage.userInfo, true⟩ }
  else a

/-- What is left when the app is closed. -/
def closed (a : App Token User) : App Token User := ⟨⟨none, none, false⟩, a.storage, [], []⟩

/-- The header of a request. -/
def header (a : App Token User) (needAuth : Bool) : Option Token :=
  if needAuth && a.globalData.token.isSome then a.globalData.token else none

def request (a : App Token User) (awaited needAuth : Bool) : App Token User :=
  { a with requests := a.requests ++ [⟨awaited, a.header needAuth⟩] }

/-- The end of `silentLogin()`. -/
def loggedIn (a : App Token User) (res : Option Token × Option User) : App Token User :=
  { a with globalData := ⟨res.1, res.2, true⟩, storage := ⟨res.1, res.2⟩ }

def logout (a : App Token User) : App Token User :=
  { a with globalData := ⟨none, none, false⟩, storage := ⟨none, none⟩ }

/-- `ensureLogin()`, and the request of the page when there is a session. -/
def enter (a : App Token User) (sends : Bool) : App Token User :=
  if a.globalData.isLoggedIn && a.globalData.token.isSome then
    if sends then a.request true true else a
  else { a with logins := a.logins ++ [sends] }

/-- A login comes back to the page that waits for it. -/
def loginAnswered (a : App Token User) (sends : Bool) :
    Answer (Option Token × Option User) → App Token User
  | .ok res => if sends then (a.loggedIn res).request true true else a.loggedIn res
  | .unauthorized => a.logout
  | .rejected => a

def step (a : App Token User) : Event Token User → Option (App Token User)
  | .launch => some a.closed.onLaunch
  | .enter sends => some (a.enter sends)
  | .call needAuth => some (a.request false needAuth)
  | .loginAnswered i answer => a.logins[i]?.map fun sends =>
      ({ a with logins := a.logins.eraseIdx i }).loginAnswered sends answer
  | .answered i answer => a.requests[i]?.map fun _ =>
      let a := { a with requests := a.requests.eraseIdx i }
      match answer with
      | .unauthorized => a.logout
      | _ => a
  | .logout => some a.logout

end App

/-- A successful login brings a token and a user, as the route of the server answers it. -/
def Event.Complete : Event Token User → Prop
  | .loginAnswered _ (.ok res) => res.1.isSome = true ∧ res.2.isSome = true
  | _ => True

/-- The moves of the credential in an event. -/
def Event.moves (a : App Token User) : Event Token User → List (Move (Token × User))
  | .launch => [.restart]
  | .enter sends => if a.globalData.isLoggedIn && a.globalData.token.isSome then
      (if sends then [.send true] else []) else []
  | .call needAuth => [.send needAuth]
  | .loginAnswered i (.ok (some token, some user)) =>
    .signIn (token, user) :: (if a.logins[i]?.getD false then [.send true] else [])
  | .loginAnswered _ .unauthorized => [.signOut]
  | .loginAnswered _ _ => []
  | .answered i .unauthorized => [.settle i, .signOut]
  | .answered i _ => [.settle i]
  | .logout => [.signOut]

/-- The moves of a run. -/
def moves : App Token User → List (Event Token User) → List (Move (Token × User))
  | _, [] => []
  | a, e :: es => e.moves a ++ ((a.step e).elim [] fun a => moves a es)

def globals (session : Option (Token × User)) : GlobalData Token User :=
  ⟨session.map Prod.fst, session.map Prod.snd, session.isSome⟩

def stored (session : Option (Token × User)) : Storage Token User :=
  ⟨session.map Prod.fst, session.map Prod.snd⟩

/-- The app holds, keeps and shows what the client does, and a request that a page has awaited a
login for shows something. -/
structure Follows (a : App Token User) (client : Client (Token × User)) : Prop where
  held : a.globalData = globals client.held
  kept : a.storage = stored client.kept
  shown : a.requests.map Sent.auth = client.inFlight.map (Option.map Prod.fst)
  awaited : ∀ r ∈ a.requests, r.awaited = true → r.auth.isSome = true

section
variable {a a' : App Token User} {client : Client (Token × User)}

theorem header_eq (h : Follows a client) (needAuth : Bool) :
    a.header needAuth = (if needAuth then client.held else none).map Prod.fst := by
  unfold App.header
  rw [h.held]
  cases needAuth <;> cases client.held <;> rfl

theorem Follows.request (h : Follows a client) {awaited needAuth : Bool}
    (hawaited : awaited = true → needAuth = true ∧ client.held.isSome = true) :
    Follows (a.request awaited needAuth) (client.move (.send needAuth)) := by
  refine ⟨h.held, h.kept, ?_, fun r hr hwait => ?_⟩
  · change (a.requests ++ [Sent.mk awaited (a.header needAuth)]).map Sent.auth =
      (client.inFlight ++ [if needAuth then client.held else none]).map (Option.map Prod.fst)
    rw [List.map_append, List.map_append, h.shown, List.map_singleton, List.map_singleton,
      header_eq h]
  · rcases List.mem_append.mp hr with hr | hr
    · exact h.awaited r hr hwait
    · rw [List.mem_singleton] at hr
      subst hr
      obtain ⟨hneed, hheld⟩ := hawaited hwait
      change (a.header needAuth).isSome = true
      rw [header_eq h, hneed, if_pos rfl, Option.isSome_map]
      exact hheld

theorem Follows.logout (h : Follows a client) : Follows a.logout (client.move .signOut) :=
  ⟨rfl, rfl, h.shown, h.awaited⟩

theorem Follows.settle (h : Follows a client) (i : ℕ) :
    Follows { a with requests := a.requests.eraseIdx i } (client.move (.settle i)) := by
  refine ⟨h.held, h.kept, ?_, fun r hr => h.awaited r (List.mem_of_mem_eraseIdx hr)⟩
  change (a.requests.eraseIdx i).map Sent.auth = (client.inFlight.eraseIdx i).map _
  rw [← List.eraseIdx_map, h.shown, List.eraseIdx_map]

theorem Follows.logins (h : Follows a client) (logins : List Bool) :
    Follows { a with logins := logins } client := ⟨h.held, h.kept, h.shown, h.awaited⟩

/-- The condition of `ensureLogin`. -/
theorem loggedIn_eq (h : Follows a client) :
    (a.globalData.isLoggedIn && a.globalData.token.isSome) = client.held.isSome := by
  rw [h.held]
  cases client.held <;> rfl

theorem Follows.launch (h : Follows a client) :
    Follows a.closed.onLaunch (client.move .restart) := by
  unfold App.onLaunch App.closed
  rw [h.kept]
  unfold Client.move
  cases client.kept with
  | none => exact ⟨rfl, rfl, rfl, fun r hr => absurd hr List.not_mem_nil⟩
  | some c => exact ⟨rfl, rfl, rfl, fun r hr => absurd hr List.not_mem_nil⟩

theorem follows_step (h : Follows a client) {e : Event Token User} (he : e.Complete)
    (hs : a.step e = some a') : Follows a' (client.moves (e.moves a)) := by
  cases e with
  | launch =>
    cases hs
    exact h.launch
  | enter sends =>
    cases hs
    unfold App.enter Event.moves
    dsimp only
    rw [loggedIn_eq h]
    by_cases hin : client.held.isSome = true
    · rw [if_pos hin, if_pos hin]
      cases sends with
      | true => exact h.request fun _ => ⟨rfl, hin⟩
      | false => exact h
    · rw [if_neg hin, if_neg hin]
      exact h.logins _
  | call needAuth =>
    cases hs
    exact h.request fun hwait => by cases hwait
  | loginAnswered i answer =>
    obtain ⟨sends, hi, rfl⟩ := Option.map_eq_some_iff.mp hs
    have hl := h.logins (a.logins.eraseIdx i)
    cases answer with
    | ok res =>
      obtain ⟨token, user⟩ := res
      obtain ⟨htoken, huser⟩ := he
      obtain ⟨t, rfl⟩ := Option.isSome_iff_exists.mp htoken
      obtain ⟨u, rfl⟩ := Option.isSome_iff_exists.mp huser
      have hin : Follows (({ a with logins := a.logins.eraseIdx i }).loggedIn (some t, some u))
          (client.move (.signIn (t, u))) := ⟨rfl, rfl, hl.shown, hl.awaited⟩
      unfold Event.moves App.loginAnswered
      dsimp only
      rw [hi, Option.getD_some]
      cases sends with
      | true => exact hin.request fun _ => ⟨rfl, rfl⟩
      | false => exact hin
    | unauthorized => exact hl.logout
    | rejected => exact hl
  | answered i answer =>
    obtain ⟨_, _, rfl⟩ := Option.map_eq_some_iff.mp hs
    have hsettled := h.settle i
    cases answer with
    | unauthorized => exact hsettled.logout
    | ok data => exact hsettled
    | rejected => exact hsettled
  | logout =>
    cases hs
    exact h.logout

theorem follows_run {es : List (Event Token User)} (h : Follows a client)
    (hes : ∀ e ∈ es, e.Complete) (hr : run App.step a es = some a') :
    Follows a' (client.moves (moves a es)) := by
  induction es generalizing a client with
  | nil =>
    rw [run_nil, Option.some.injEq] at hr
    exact hr ▸ h
  | cons e es ih =>
    rw [run_cons, Option.bind_eq_some_iff] at hr
    obtain ⟨b, hb, hr⟩ := hr
    have hnext := follows_step h (hes e List.mem_cons_self) hb
    have hend := ih hnext (fun e' he' => hes e' (List.mem_cons_of_mem e he')) hr
    rw [moves, hb, Option.elim_some, Client.moves, List.foldl_append]
    exact hend

theorem follows_installed : Follows (App.installed : App Token User) Client.empty :=
  ⟨rfl, rfl, rfl, fun _ hr => absurd hr List.not_mem_nil⟩

end

/-- The credentials of a run were brought by its logins. -/
theorem mem_given_moves {es : List (Event Token User)} {a : App Token User} {c : Token × User}
    (h : c ∈ Move.given (moves a es)) :
    ∃ i, .loginAnswered i (.ok (some c.1, some c.2)) ∈ es := by
  rw [Client.mem_given] at h
  induction es generalizing a with
  | nil => cases h
  | cons e es ih =>
    rw [moves, List.mem_append] at h
    rcases h with h | h
    · unfold Event.moves at h
      split at h
      case h_4 i token user =>
        rcases List.mem_cons.mp h with hc | h
        · rw [Move.signIn.injEq] at hc
          exact ⟨i, hc ▸ List.mem_cons_self⟩
        · split at h <;> simp at h
      case h_2 sends =>
        split at h
        · split at h <;> simp at h
        · cases h
      all_goals simp at h
    · cases hs : a.step e with
      | none =>
        rw [hs] at h
        cases h
      | some b =>
        rw [hs] at h
        obtain ⟨i, hi⟩ := ih h
        exact ⟨i, List.mem_cons_of_mem e hi⟩

/-- A request that shows a token shows one that came with a login. -/
theorem Follows.came {a : App Token User} {client : Client (Token × User)}
    {ms : List (Move (Token × User))} (h : Follows a client) (hclient : client.Follows ms)
    {r : Sent Token} (hr : r ∈ a.requests) {t : Token} (ht : r.auth = some t) :
    ∃ u, (t, u) ∈ Move.given ms := by
  have hmem : r.auth ∈ a.requests.map Sent.auth := List.mem_map_of_mem hr
  rw [h.shown, ht] at hmem
  obtain ⟨c, hc, hct⟩ := List.mem_map.mp hmem
  obtain ⟨⟨t', u⟩, rfl, rfl⟩ := Option.map_eq_some_iff.mp hct
  exact ⟨u, hclient.shown _ hc⟩

/-- What an app is that has this session. -/
structure HasSession (a : App Token User) (session : Option (Token × User)) : Prop where
  globalData : a.globalData = globals session
  storage : a.storage = stored session

/-- After every run from the installation the app has, in memory and in storage, the session that
the last login, logout or refused token left; a request shows only what a login brought, and one
that a page has awaited a login for shows something. -/
theorem session_run {es : List (Event Token User)} {a : App Token User}
    (hes : ∀ e ∈ es, e.Complete) (hr : run App.step .installed es = some a) :
    HasSession a (Move.credentialAfter (moves .installed es)) ∧
      (∀ r ∈ a.requests, ∀ t, r.auth = some t → ∃ u, (t, u) ∈ Move.given (moves .installed es)) ∧
      ∀ r ∈ a.requests, r.awaited = true → r.auth.isSome = true := by
  have hfollows := follows_run follows_installed hes hr
  have hclient := Client.follows_moves (moves App.installed es)
  refine ⟨⟨hclient.held ▸ hfollows.held, ?_⟩, fun r hr t ht => hfollows.came hclient hr ht,
    hfollows.awaited⟩
  rw [← hclient.held, ← hclient.kept]
  exact hfollows.kept

/-- Two pages await a login each, the answer to the first request comes after the second login and
refuses the token, and the app is closed: nothing is left of either session. -/
theorem session_run_refused :
    let es : List (Event String String) := [.enter true, .enter false,
      .loginAnswered 0 (.ok (some "t1", some "u1")), .loginAnswered 0 (.ok (some "t2", some "u2")),
      .call true, .answered 0 .unauthorized, .launch]
    ∃ a, run App.step .installed (es.take 5) = some a ∧
      HasSession a (some ("t2", "u2")) ∧ a.requests.map Sent.auth = [some "t1", some "t2"] ∧
      ∃ b, run App.step .installed es = some b ∧ HasSession b none := by
  intro es
  have hes : ∀ e ∈ es, e.Complete := by
    intro e he
    simp only [es, List.mem_cons, List.not_mem_nil, or_false] at he
    rcases he with rfl | rfl | rfl | rfl | rfl | rfl | rfl
    all_goals trivial
  obtain ⟨a, ha⟩ : ∃ a, run App.step .installed (es.take 5) = some a := ⟨_, rfl⟩
  obtain ⟨b, hb⟩ : ∃ b, run App.step .installed es = some b := ⟨_, rfl⟩
  obtain ⟨hin, _⟩ := session_run (fun e he => hes e (List.mem_of_mem_take he)) ha
  obtain ⟨hout, _⟩ := session_run hes hb
  have hshown : a.requests.map Sent.auth = [some "t1", some "t2"] := by
    cases ha
    rfl
  exact ⟨a, ha, hin, hshown, b, hb, hout⟩

end JtfpMall.Miniapp.Session
