import JtfpMall.Miniapp.Session
import JtfpMall.Server.LoginRuns

/-!
# The session of the mini-program with the server

With logins answered by the server, whatever run it is in, the requests of the app are let in as
the user that its profile shows.
-/

namespace JtfpMall.Miniapp.Session

open JtfpMall.Js
open JtfpMall.Jwt
open JtfpMall.Lib

section
variable (hmac : String → String → Digest) (jwtSecret : String)

/-- `res.token` and `res.user` of an answer; the token is signed from its payload. -/
def readLogin (issued : Time) (r : Response) : Option String × Option Row :=
  (match r.body.lookup "token" with
    | some (.row payload) =>
      some (signJwt hmac jwtSecret payload (.ofNat LoginPath.mini.lifetime) issued)
    | _ => none,
  match r.body.lookup "user" with
    | some (.row user) => some user
    | _ => none)

/-- What a login brings is what the server answered it in one of its runs. -/
inductive Served (res : Option String × Option Row) : Prop where
  | intro {env : Env} {loadedAt : String} {clock : ℕ → String} {es : List Server.Event} {s : Store}
    {at_ : Moment} {openid key : String} {unionid : Option String} {issued : Time} {r : Response}
    (hes : ∀ e ∈ es, e.LeavesAccounts)
    (hs : run (Server.step env) (Server.start loadedAt clock .empty) es = some s)
    (hr : Server.answer env (.anyone (.miniLogin (.session openid key unionid))) at_ s = .ok r)
    (hres : res = readLogin hmac jwtSecret issued r)
    (hid : ∀ user id, res.2 = some user → user.get "id" = .num (.ofNat id) → id ≤ 2 ^ 53) :
    Served res

/-- The token admits the user. -/
def Vouched (token : String) (user : Row) : Prop :=
  ∃ l id issued, token = Login.token hmac jwtSecret l id issued ∧
    user.get "id" = .num (.ofNat id) ∧ ∀ checked, Admits hmac jwtSecret l id issued checked

def Event.ServerAnswered : Event String Row → Prop
  | .loginAnswered _ (.ok res) => Served hmac jwtSecret res
  | _ => True

end

section
variable {hmac : String → String → Digest} {jwtSecret : String}

/-- The answer to a login of the mini-program. -/
theorem answer_mini (env : Env) {at_ : Moment} {s s' : Store} {openid key : String}
    {unionid : Option String} {user : Row} {id : ℕ}
    (h : (Login.user ⟨.mini, openid, unionid, key⟩ at_).run s = (.ok user, s'))
    (hid : user.get "id" = .num (.ofNat id)) :
    Server.answer env (.anyone (.miniLogin (.session openid key unionid))) at_ s =
      .ok (.ok [("token", .row (Login.payload ⟨.mini, openid, unionid, key⟩ id)),
        ("user", .row (.ofList [("id", user.get "id"), ("nickname", user.get "nickname"),
          ("avatar_url", user.get "avatar_url"), ("phone", user.get "phone")]))]) := by
  have hsub : AuthRoutes.subject user = .ok (.str (JsNum.ofNat id).toText) := by
    rw [AuthRoutes.subject, hid]
    rfl
  have hrun : (Users.findOrCreateUserByIdentity "wechat_mini"
      ⟨openid, unionid, some key, none, none⟩ at_.clock).run s = (.ok user, s') := h
  unfold Server.answer Request.handle Request.handlePublic AuthRoutes.miniLogin guarded
  dsimp only
  rw [Action.run_attempt, Action.run_bind, hrun]
  dsimp only
  rw [Action.run_bind, Action.run_lift, hsub]
  rfl

theorem vouched_of_served {res : Option String × Option Row} (h : Served hmac jwtSecret res) :
    ∃ token user, res = (some token, some user) ∧ Vouched hmac jwtSecret token user := by
  obtain ⟨hes, hs, hr, hres, hid⟩ := h
  rename_i env loadedAt clock es s at_ openid key unionid issued r
  obtain ⟨_, hacc⟩ := accounted_run hes hs
  obtain ⟨id, us, is, hpos, hlogged, hc, hg, _⟩ :=
    login_accounted env hacc ⟨.mini, openid, unionid, key⟩ at_
  obtain ⟨⟨user, huser, hnumber⟩, _⟩ := hlogged
  have hanswer := answer_mini env (Prod.ext huser rfl) hnumber
  rw [hr, Except.ok.injEq] at hanswer
  rw [hanswer] at hres
  have hshown : (Dict.ofList [("id", user.get "id"), ("nickname", user.get "nickname"),
      ("avatar_url", user.get "avatar_url"), ("phone", user.get "phone")]).get "id" =
        .num (.ofNat id) := by
    rw [Dict.get_ofList_of_mem (by simp) List.mem_cons_self, hnumber]
  refine ⟨_, _, hres, ⟨.mini, openid, unionid, key⟩, id, issued, rfl, hshown, fun checked => ?_⟩
  exact admits _ hpos (hid _ id (congrArg Prod.snd hres) hshown) issued checked

theorem Event.ServerAnswered.complete {e : Event String Row}
    (h : e.ServerAnswered hmac jwtSecret) : e.Complete := by
  cases e with
  | loginAnswered i answer =>
    cases answer with
    | ok res =>
      obtain ⟨token, user, rfl, _⟩ := vouched_of_served h
      exact ⟨rfl, rfl⟩
    | unauthorized => trivial
    | rejected => trivial
  | launch => trivial
  | enter sends => trivial
  | call needAuth => trivial
  | answered i answer => trivial
  | logout => trivial

/-- After every run whose logins the server has answered, the app is signed out or has a token that
admits the user it shows, and so has every request that a page has awaited a login for. -/
theorem requests_let_in {es : List (Event String Row)} {a : App String Row}
    (hes : ∀ e ∈ es, e.ServerAnswered hmac jwtSecret)
    (hr : run App.step .installed es = some a) :
    (a.globalData = ⟨none, none, false⟩ ∨ ∃ token user,
      a.globalData = ⟨some token, some user, true⟩ ∧ Vouched hmac jwtSecret token user) ∧
    ∀ r ∈ a.requests, r.awaited = true →
      ∃ token user, r.auth = some token ∧ Vouched hmac jwtSecret token user := by
  have hfollows := follows_run follows_installed (fun e he => (hes e he).complete) hr
  have hclient := Client.follows_moves (moves App.installed es)
  have hvouched : ∀ {c}, c ∈ Move.given (moves App.installed es) →
      Vouched hmac jwtSecret c.1 c.2 := by
    intro c hc
    obtain ⟨i, hi⟩ := mem_given_moves hc
    obtain ⟨token, user, heq, hv⟩ := vouched_of_served (hes _ hi)
    rw [Prod.mk.injEq, Option.some.injEq, Option.some.injEq] at heq
    rw [heq.1, heq.2]
    exact hv
  constructor
  · have hheld := hfollows.held
    cases hc : (Client.empty.moves (moves App.installed es)).held with
    | none =>
      rw [hc] at hheld
      exact Or.inl hheld
    | some c =>
      rw [hc] at hheld
      exact Or.inr ⟨c.1, c.2, hheld, hvouched (hclient.signedIn c hc)⟩
  · intro r hmem hwait
    obtain ⟨token, htoken⟩ := Option.isSome_iff_exists.mp (hfollows.awaited r hmem hwait)
    obtain ⟨user, hgiven⟩ := hfollows.came hclient hmem htoken
    exact ⟨token, user, htoken, hvouched hgiven⟩

end

/-- A page awaits the first login of all, and its request shows the token. -/
theorem requests_let_in_first :
    ∃ res a token user, Served constantHmac "secret" res ∧
      run App.step .installed [.enter true, .loginAnswered 0 (.ok res)] = some a ∧
      a.requests.map Sent.auth = [some token] ∧ Vouched constantHmac "secret" token user := by
  let s := Server.start "t0" (fun _ => "t1") .empty
  let l : Login := ⟨.mini, "m1", none, "k1"⟩
  let issued : Time := ⟨1700000000000, by decide⟩
  obtain ⟨res, hserved⟩ : ∃ res, Served constantHmac "secret" res := by
    obtain ⟨first, hrun, hone⟩ : ∃ user, ((l.user (Server.moment "t2")).run s).1 = .ok user ∧
        user.get "id" = .num (.ofNat 1) := ⟨_, rfl, rfl⟩
    have hanswer := answer_mini .plain (Prod.ext hrun rfl) hone
    have hs : run (Server.step .plain) s [] = some s := rfl
    refine ⟨readLogin constantHmac "secret" issued _, fun e he => absurd he List.not_mem_nil, hs,
      hanswer, rfl, ?_⟩
    intro user id huser hid
    cases huser
    rw [Dict.get_ofList_of_mem (by simp) List.mem_cons_self, hone, JsVal.num.injEq,
      JsNum.ofNat_inj] at hid
    omega
  have hes : ∀ e ∈ [Event.enter true, .loginAnswered 0 (.ok res)],
      e.ServerAnswered constantHmac "secret" := by
    intro e he
    rcases List.mem_cons.mp he with rfl | he
    · trivial
    · rw [List.mem_singleton.mp he]
      exact hserved
  obtain ⟨_, hlet⟩ := requests_let_in hes rfl
  obtain ⟨token, user, htoken, hv⟩ := hlet _ List.mem_cons_self rfl
  exact ⟨res, _, token, user, hserved, rfl, congrArg (fun t => [t]) htoken, hv⟩

end JtfpMall.Miniapp.Session
