import JtfpMall.Lib.Growing
import JtfpMall.Server.Identity

/-!
# Logins over two paths

A login over the H5 callback goes by the openid column of the users; a login of the
mini-program goes by the identities, and by the unionid they record when the openid is
new. Two logins with one unionid meet in one user when both came over the
mini-program and the identity of the first had recorded the unionid.
-/

namespace JtfpMall

open JtfpMall.Js
open JtfpMall.Lib
open JtfpMall.Users (hasOpenid hasIdentity newUser newIdentity orNull)

inductive LoginPath where
  | h5
  | mini
deriving DecidableEq

/-- A login the WeChat service has answered. -/
structure Login where
  path : LoginPath
  openid : String
  unionid : Option String
  sessionKey : String

namespace Login

def params (l : Login) : Users.Params :=
  match l.path with
  | .h5 => ⟨l.openid, l.unionid, none, none, none⟩
  | .mini => ⟨l.openid, l.unionid, some l.sessionKey, none, none⟩

def request (l : Login) : Request :=
  match l.path with
  | .h5 => .anyone (.oauthCallback (.identified l.openid l.unionid))
  | .mini => .anyone (.miniLogin (.session l.openid l.sessionKey l.unionid))

/-- The function that finds or creates the user. -/
def user (l : Login) (at_ : Moment) : Act Row :=
  match l.path with
  | .h5 => Users.findOrCreateUser l.params at_.clock
  | .mini => Users.findOrCreateUserByIdentity "wechat_mini" l.params at_.clock

end Login

/-- The subject of the token a login answers. -/
def Response.subject (r : Response) : Option JsVal :=
  match r.body.lookup "sub", r.body.lookup "token" with
  | some (.val v), _ => some v
  | _, some (.row token) => some (token.get "sub")
  | _, _ => none

/-- The login returns the user with this id, and answers a token for it. -/
def LoggedInAs (env : Env) (at_ : Moment) (s : Store) (l : Login) (id : ℕ) : Prop :=
  (∃ user, ((l.user at_).run s).1 = .ok user ∧ user.get "id" = .num (.ofNat id)) ∧
    ∃ r, Server.answer env l.request at_ s = .ok r ∧
      r.subject = some (.str (JsNum.ofNat id).toText)

theorem loggedInAs_iff {env : Env} {at_ : Moment} {s : Store} {l : Login} {id : ℕ} :
    LoggedInAs env at_ s l id ↔
      ((l.user at_).run s).1.toOption.map (fun user => user.get "id") = some (.num (.ofNat id)) ∧
        (Server.answer env l.request at_ s).toOption.bind Response.subject =
          some (.str (JsNum.ofNat id).toText) := by
  unfold LoggedInAs
  cases ((l.user at_).run s).1 <;> cases Server.answer env l.request at_ s <;>
    simp [Except.toOption]

instance (env : Env) (at_ : Moment) (s : Store) (l : Login) (id : ℕ) :
    Decidable (LoggedInAs env at_ s l id) := decidable_of_iff _ loggedInAs_iff.symm

/-- The route hands on what the function returns. -/
theorem loggedInAs_of_run (env : Env) {at_ : Moment} {s s' : Store} {l : Login} {user : Row} {id : ℕ}
    (h : (l.user at_).run s = (.ok user, s')) (hid : user.get "id" = .num (.ofNat id)) :
    LoggedInAs env at_ s l id ∧ Server.serve env l.request at_ s = s' := by
  have hsub : AuthRoutes.subject user = .ok (.str (JsNum.ofNat id).toText) := by
    rw [AuthRoutes.subject, hid]
    rfl
  obtain ⟨path, openid, unionid, key⟩ := l
  cases path with
  | h5 =>
    have hrun : (Users.findOrCreateUser ⟨openid, unionid, none, none, none⟩ at_.clock).run s =
        (.ok user, s') := h
    refine ⟨⟨⟨user, by rw [h], hid⟩, ?_⟩, ?_⟩
    · unfold Server.answer Login.request Request.handle Request.handlePublic
        AuthRoutes.oauthCallback
      dsimp only
      rw [Action.run_attempt, Action.run_bind, hrun]
      dsimp only
      rw [Action.run_bind, Action.run_lift, hsub]
      exact ⟨_, rfl, rfl⟩
    · unfold Server.serve Login.request Request.handle Request.handlePublic AuthRoutes.oauthCallback
      dsimp only
      rw [Action.snd_run_attempt, Action.run_bind, hrun]
      dsimp only
      rw [Action.run_bind, Action.run_lift, hsub]
      rfl
  | mini =>
    have hrun : (Users.findOrCreateUserByIdentity "wechat_mini"
        ⟨openid, unionid, some key, none, none⟩ at_.clock).run s = (.ok user, s') := h
    refine ⟨⟨⟨user, by rw [h], hid⟩, ?_⟩, ?_⟩
    · unfold Server.answer Login.request Request.handle Request.handlePublic AuthRoutes.miniLogin
        guarded
      dsimp only
      rw [Action.run_attempt, Action.run_bind, hrun]
      dsimp only
      rw [Action.run_bind, Action.run_lift, hsub]
      exact ⟨_, rfl, rfl⟩
    · unfold Server.serve Login.request Request.handle Request.handlePublic AuthRoutes.miniLogin
        guarded
      dsimp only
      rw [Action.snd_run_attempt, Action.run_bind, hrun]
      dsimp only
      rw [Action.run_bind, Action.run_lift, hsub]
      rfl

/-- The rows agree in these columns. -/
def SameColumns (columns : List String) (r r' : Row) : Prop := ∀ k ∈ columns, r'.get k = r.get k

theorem SameColumns.refl (columns : List String) (r : Row) : SameColumns columns r r :=
  fun _ _ => rfl

/-- The columns of a user, and of an identity, that no login changes. -/
def userColumns : List String := ["id", "openid"]

def identityColumns : List String := ["provider", "openid", "unionid", "user_id"]

/-- The tables of accounts before and after, with the rows that came in. -/
structure AccountsGrow (s s' : Store) (users identities : List Row) : Prop where
  users : Grows (SameColumns userColumns) (s.cache.rows .users) users (s'.cache.rows .users)
  identities : Grows (SameColumns identityColumns) (s.cache.rows .userIdentities) identities
    (s'.cache.rows .userIdentities)

/-- A user made by a login. -/
structure NewUser (l : Login) (id : ℕ) (u : Row) : Prop where
  number : u.get "id" = .num (.ofNat id)
  positive : 0 < id
  openid : u.get "openid" = .str l.openid

/-- An identity bound by a login. -/
structure NewIdentity (l : Login) (id : ℕ) (i : Row) : Prop where
  provider : i.get "provider" = .str "wechat_mini"
  openid : i.get "openid" = .str l.openid
  unionid : i.get "unionid" = orNull l.unionid
  user : i.get "user_id" = .num (.ofNat id)

/-- The identity carries the unionid of the login's answer. -/
def hasUnionid (l : Login) (i : Row) : Bool := (i.get "unionid").strictEq (absent l.unionid)

/-- How a login comes to its user, with the rows it makes. -/
inductive LoginCase (s : Store) (l : Login) (id : ℕ) : List Row → List Row → Prop where
  | h5Known {u : Row} (hp : l.path = .h5) (hf : s.findOne .users (hasOpenid l.openid) = some u)
      (hid : u.get "id" = .num (.ofNat id)) : LoginCase s l id [] []
  | h5New {u : Row} (hp : l.path = .h5) (hf : s.findOne .users (hasOpenid l.openid) = none)
      (hu : NewUser l id u) : LoginCase s l id [u] []
  | known {i : Row} (hp : l.path = .mini)
      (hf : s.findOne .userIdentities (hasIdentity "wechat_mini" l.openid) = some i)
      (hid : i.get "user_id" = .num (.ofNat id)) : LoginCase s l id [] []
  | linked {i j : Row} (hp : l.path = .mini)
      (hf : s.findOne .userIdentities (hasIdentity "wechat_mini" l.openid) = none)
      (hw : (absent l.unionid).truthy = true)
      (hj : s.findOne .userIdentities (hasUnionid l) = some j)
      (hid : j.get "user_id" = .num (.ofNat id)) (hi : NewIdentity l id i) : LoginCase s l id [] [i]
  | new {u i : Row} (hp : l.path = .mini)
      (hf : s.findOne .userIdentities (hasIdentity "wechat_mini" l.openid) = none)
      (hw : (absent l.unionid).truthy = true → s.findOne .userIdentities (hasUnionid l) = none)
      (hu : NewUser l id u) (hi : NewIdentity l id i) : LoginCase s l id [u] [i]

def IsUser (u : Row) : Prop :=
  ∃ id openid, 0 < id ∧ u.get "id" = .num (.ofNat id) ∧ u.get "openid" = .str openid

/-- An identity of the mini-program: it has recorded no unionid or the one attached to its
openid, and it names a user. -/
def IsIdentity (attached : LoginPath → String → String) (users : List Row) (i : Row) : Prop :=
  ∃ openid, i.get "provider" = .str "wechat_mini" ∧ i.get "openid" = .str openid ∧
    (i.get "unionid" = .null ∨ i.get "unionid" = .str (attached .mini openid)) ∧
    ∃ u ∈ users, i.get "user_id" = u.get "id"

/-- What the two tables of accounts are in every state: identities that record one unionid have
one user. -/
structure Accounts (attached : LoginPath → String → String) (s : Store) : Prop where
  users : ∀ u ∈ s.cache.rows .users, IsUser u
  identities : ∀ i ∈ s.cache.rows .userIdentities, IsIdentity attached (s.cache.rows .users) i
  linked : ∀ i ∈ s.cache.rows .userIdentities, ∀ j ∈ s.cache.rows .userIdentities, ∀ w,
    i.get "unionid" = .str w → j.get "unionid" = .str w → i.get "user_id" = j.get "user_id"

theorem StoreData.next_pos (d : StoreData) (t : Table) : 0 < d.next t := by
  unfold next
  split <;> omega

section
variable {s : Store} (at_ : Moment) {l : Login}

theorem newUser_insert (l : Login) (clock : ℕ → String) (i : ℕ) :
    NewUser l (s.cache.next .users) (s.insert .users (newUser l.params) (clock i)).1 where
  number := get_newRow_id _ _ _
  positive := s.cache.next_pos .users
  openid := by
    change (Store.newRow _ _ _).get "openid" = _
    obtain ⟨path, openid, unionid, key⟩ := l
    cases path <;> simp [Store.newRow, newUser, Dict.ofList, Dict.get_set, Login.params]

theorem newIdentity_insert (l : Login) (hp : l.path = .mini) {userId : JsVal} {id : ℕ}
    (hu : userId = .num (.ofNat id)) (now : String) (s : Store) :
    NewIdentity l id (s.insert .userIdentities (newIdentity "wechat_mini" l.params userId) now).1 := by
  obtain ⟨path, openid, unionid, key⟩ := l
  cases hp
  constructor
  all_goals
    change (Store.newRow _ _ _).get _ = _
    simp [Store.newRow, newIdentity, Dict.ofList, Dict.get_set, Login.params, hu]

theorem grow_update (columns : List String) {updates : Row} (hu : ∀ k ∈ columns, updates.has k = false)
    (ht : "updated_at" ∉ columns) (id : JsVal) (now : String) (rows : List Row) :
    Grows (SameColumns columns) rows [] (modifyFirst (Store.hasId id) (Store.merged updates now) rows) := by
  refine .modifyFirst (SameColumns.refl columns) fun r k hk => ?_
  have hne : k ≠ "updated_at" := fun he => ht (he ▸ hk)
  rw [Store.merged, Dict.get_set_of_ne _ _ hne, Dict.get_spread, hu k hk]
  rfl

/-- An openid that has a user keeps it. -/
theorem h5_known {u : Row} {id : ℕ} (hp : l.path = .h5)
    (hf : s.findOne .users (hasOpenid l.openid) = some u) (hid : u.get "id" = .num (.ofNat id)) :
    ∃ user s', (l.user at_).run s = (.ok user, s') ∧ user.get "id" = .num (.ofNat id) ∧
      AccountsGrow s s' [] [] := by
  obtain ⟨path, openid, unionid, key⟩ := l
  cases hp
  have hhas : ∀ k ∈ userColumns,
      (Users.loginUpdates ⟨openid, unionid, none, none, none⟩ u).has k = false := by
    intro k hk
    refine loginUpdates_has _ u fun hc => ?_
    simp only [userColumns, List.mem_cons, List.not_mem_nil, or_false] at hk hc
    rcases hk with rfl | rfl <;> simp at hc
  unfold Login.user Login.params
  dsimp only
  unfold Users.findOrCreateUser Act.findOne
  rw [Action.run_reads_bind, hf]
  dsimp only
  split
  · exact ⟨_, _, rfl, hid, .refl (SameColumns.refl _) _, .refl (SameColumns.refl _) _⟩
  · refine ⟨_, _, rfl, ?_, ?_, ?_⟩
    · rw [Dict.get_spread, hhas "id" (by simp [userColumns])]
      exact hid
    · rw [Store.rows_update, if_pos rfl]
      exact grow_update userColumns hhas (by decide) _ _ _
    · rw [Store.rows_update, if_neg (by decide)]
      exact .refl (SameColumns.refl _) _

theorem h5_new (hp : l.path = .h5) (hf : s.findOne .users (hasOpenid l.openid) = none) :
    ∃ id user s', (l.user at_).run s = (.ok user, s') ∧ NewUser l id user ∧
      AccountsGrow s s' [user] [] := by
  obtain ⟨path, openid, unionid, key⟩ := l
  cases hp
  unfold Login.user Login.params
  dsimp only
  unfold Users.findOrCreateUser Act.findOne
  rw [Action.run_reads_bind, hf]
  refine ⟨_, _, _, rfl, newUser_insert ⟨.h5, openid, unionid, key⟩ at_.clock 0, ?_, ?_⟩
  · rw [Store.rows_insert, if_pos rfl]
    exact .concat (SameColumns.refl _) _ _
  · rw [Store.rows_insert, if_neg (by decide)]
    exact .refl (SameColumns.refl _) _

theorem findById_of_mem {t : Table} {r : Row} {id : ℕ} (hr : r ∈ s.cache.rows t)
    (hid : r.get "id" = .num (.ofNat id)) :
    ∃ r', s.findById t (.num (.ofNat id)) = some r' ∧ r'.get "id" = .num (.ofNat id) := by
  cases hf : s.findById t (.num (.ofNat id)) with
  | none =>
    have hnone : Store.hasId (.num (.ofNat id)) r = false := by
      simpa using List.find?_eq_none.mp hf r hr
    rw [Store.hasId, hid] at hnone
    simp [JsVal.strictEq] at hnone
  | some r' => exact ⟨r', rfl, JsVal.eq_of_strictEq (mem_of_findOne hf).2⟩

/-- An identity that is known keeps its user. -/
theorem mini_known {i : Row} {id : ℕ} (hp : l.path = .mini)
    (hf : s.findOne .userIdentities (hasIdentity "wechat_mini" l.openid) = some i)
    (hid : i.get "user_id" = .num (.ofNat id)) (hu : ∃ u ∈ s.cache.rows .users,
      i.get "user_id" = u.get "id") :
    ∃ user s', (l.user at_).run s = (.ok user, s') ∧ user.get "id" = .num (.ofNat id) ∧
      AccountsGrow s s' [] [] := by
  obtain ⟨path, openid, unionid, key⟩ := l
  cases hp
  -- the update of the session key, if there is one, leaves the columns alone
  have hsave : ∃ saved s', (Users.saveSessionKey ⟨openid, unionid, some key, none, none⟩ i
      (at_.clock 0)).run s = (.ok saved, s') ∧ s'.cache.rows .users = s.cache.rows .users ∧
      Grows (SameColumns identityColumns) (s.cache.rows .userIdentities) []
        (s'.cache.rows .userIdentities) := by
    unfold Users.saveSessionKey
    split
    · refine ⟨_, _, rfl, (Store.rows_update ..).trans (if_neg (by decide)), ?_⟩
      rw [Store.rows_update, if_pos rfl]
      refine grow_update identityColumns (fun k hk => ?_) (by decide) _ _ _
      rw [Dict.has_ofList]
      simp only [identityColumns, List.mem_cons, List.not_mem_nil, or_false] at hk
      rcases hk with rfl | rfl | rfl | rfl <;> simp
    · exact ⟨_, _, rfl, rfl, .refl (SameColumns.refl _) _⟩
  obtain ⟨saved, s', hrun, hrows, hgrow⟩ := hsave
  obtain ⟨u, hu, hue⟩ := hu
  obtain ⟨u', hu', hid'⟩ := findById_of_mem (s := s') (hrows ▸ hu) (hue.symm.trans hid)
  refine ⟨u', s', ?_, hid', ?_, hgrow⟩
  · unfold Login.user Login.params
    dsimp only
    unfold Users.findOrCreateUserByIdentity Act.findOne
    rw [Action.run_reads_bind, hf]
    dsimp only
    rw [Action.run_bind, hrun]
    unfold Act.findById
    dsimp only
    rw [Action.run_reads_bind, hid, hu']
    rfl
  · rw [hrows]
    exact .refl (SameColumns.refl _) _

theorem run_findByUnionid (params : Users.Params) :
    (Users.findByUnionid params).run s =
      (.ok (if (absent params.unionid).truthy then s.findOne .userIdentities
        (fun r => (r.get "unionid").strictEq (absent params.unionid)) else none), s) := by
  unfold Users.findByUnionid
  split <;> rfl

theorem run_saveIdentity {provider : String} {params : Users.Params}
    (hf : s.findOne .userIdentities (hasIdentity provider params.openid) = none) (userId : JsVal)
    (now : String) : (Users.saveIdentity provider params userId now).run s =
      (.ok (), (s.insert .userIdentities (newIdentity provider params userId) now).2) := by
  unfold Users.saveIdentity Act.findOne
  rw [Action.run_reads_bind, hf]
  rfl

/-- The binding of an identity once its user is settled. -/
theorem run_bindIdentity {provider : String} {params : Users.Params} {clock : ℕ → String}
    {found : Option Row} {userId : JsVal} {user : Row} {t : Store}
    (hfound : (if (absent params.unionid).truthy then s.findOne .userIdentities
      (fun r => (r.get "unionid").strictEq (absent params.unionid)) else none) = found)
    (hfor : (Users.userFor found params (clock 1)).run s = (.ok userId, t))
    (hf : t.findOne .userIdentities (hasIdentity provider params.openid) = none)
    (hu : t.findById .users userId = some user) :
    (Users.bindIdentity provider params clock).run s = (.ok user,
      (t.insert .userIdentities (newIdentity provider params userId) (clock 2)).2.flushNow
        (clock 3)) := by
  have hkept : ((t.insert .userIdentities (newIdentity provider params userId) (clock 2)).2.flushNow
      (clock 3)).findById .users userId = some user := by
    unfold Store.findById Store.findOne Store.getTable at hu ⊢
    rwa [Store.rows_flushNow, Store.rows_insert, if_neg (by decide)]
  unfold Users.bindIdentity
  rw [Action.run_bind, run_findByUnionid, hfound]
  dsimp only
  rw [Action.run_bind, hfor]
  dsimp only
  rw [Action.run_bind, run_saveIdentity hf]
  unfold Act.flushNow Act.findById
  dsimp only
  rw [Action.run_does_bind, Action.run_reads_bind, hkept]
  rfl

/-- The rows an identity's insertion and the flush after it leave. -/
theorem rows_bound (t : Store) (row : Row) (now now' : String) (table : Table) :
    ((t.insert .userIdentities row now).2.flushNow now').cache.rows table =
      if table = .userIdentities then t.cache.rows .userIdentities ++ [(t.insert .userIdentities row now).1]
      else t.cache.rows table := by
  rw [Store.rows_flushNow, Store.rows_insert]
  rfl

theorem run_user_of_unknown (hp : l.path = .mini)
    (hf : s.findOne .userIdentities (hasIdentity "wechat_mini" l.openid) = none) :
    (l.user at_).run s = (Users.bindIdentity "wechat_mini" l.params at_.clock).run s := by
  obtain ⟨path, openid, unionid, key⟩ := l
  cases hp
  unfold Login.user Login.params
  dsimp only
  unfold Users.findOrCreateUserByIdentity Act.findOne
  rw [Action.run_reads_bind, hf]

theorem params_unionid (l : Login) : l.params.unionid = l.unionid := by
  obtain ⟨path, openid, unionid, key⟩ := l
  cases path <;> rfl

theorem params_openid (l : Login) : l.params.openid = l.openid := by
  obtain ⟨path, openid, unionid, key⟩ := l
  cases path <;> rfl

/-- A new identity whose unionid an earlier one has recorded gets the user of that one. -/
theorem mini_linked {j : Row} {id : ℕ} (hp : l.path = .mini)
    (hf : s.findOne .userIdentities (hasIdentity "wechat_mini" l.openid) = none)
    (hw : (absent l.unionid).truthy = true) (hj : s.findOne .userIdentities (hasUnionid l) = some j)
    (hid : j.get "user_id" = .num (.ofNat id)) (hpos : 0 < id)
    (hu : ∃ u ∈ s.cache.rows .users, j.get "user_id" = u.get "id") :
    ∃ user i s', (l.user at_).run s = (.ok user, s') ∧ user.get "id" = .num (.ofNat id) ∧
      NewIdentity l id i ∧ AccountsGrow s s' [] [i] := by
  have htrue : (j.get "user_id").truthy = true := by
    rw [hid]
    simp [JsVal.truthy, JsNum.truthy, JsNum.ofNat]
    omega
  have hfor : (Users.userFor (some j) l.params (at_.clock 1)).run s = (.ok (j.get "user_id"), s) := by
    unfold Users.userFor
    simp only [Option.elim_some, htrue, if_true]
    rfl
  have hfound : (if (absent l.params.unionid).truthy then s.findOne .userIdentities
      (fun r => (r.get "unionid").strictEq (absent l.params.unionid)) else none) = some j := by
    rw [params_unionid, if_pos hw]
    exact hj
  obtain ⟨u, hm, hue⟩ := hu
  obtain ⟨user, huser, hid'⟩ := findById_of_mem hm (hue.symm.trans hid)
  rw [← hid] at huser
  rw [run_user_of_unknown at_ hp hf]
  refine ⟨user, _, _, run_bindIdentity hfound hfor ?_ huser, hid',
    newIdentity_insert l hp hid (at_.clock 2) s, ?_, ?_⟩
  · rwa [params_openid]
  · rw [rows_bound, if_neg (by decide)]
    exact .refl (SameColumns.refl _) _
  · rw [rows_bound, if_pos rfl]
    exact .concat (SameColumns.refl _) _ _

/-- A new identity whose unionid no earlier one has recorded gets a new user. -/
theorem mini_new (hp : l.path = .mini)
    (hf : s.findOne .userIdentities (hasIdentity "wechat_mini" l.openid) = none)
    (hw : (absent l.unionid).truthy = true → s.findOne .userIdentities (hasUnionid l) = none) :
    ∃ id user u i s', (l.user at_).run s = (.ok user, s') ∧ user.get "id" = .num (.ofNat id) ∧
      NewUser l id u ∧ NewIdentity l id i ∧ AccountsGrow s s' [u] [i] := by
  have hu := newUser_insert (s := s) l at_.clock 1
  obtain ⟨inserted, t, hins⟩ : ∃ inserted t,
      s.insert .users (newUser l.params) (at_.clock 1) = (inserted, t) := ⟨_, _, rfl⟩
  have hrows : ∀ table, t.cache.rows table =
      if table = .users then s.cache.rows .users ++ [inserted] else s.cache.rows table := by
    intro table
    have hr := Store.rows_insert .users table (newUser l.params) (at_.clock 1) s
    rw [show Store.newRow (newUser l.params) (s.cache.next .users) (at_.clock 1) = inserted from
      congrArg Prod.fst hins] at hr
    rwa [hins] at hr
  rw [hins] at hu
  have hfor : (Users.userFor none l.params (at_.clock 1)).run s = (.ok (inserted.get "id"), t) := by
    change (Except.ok ((s.insert .users (newUser l.params) (at_.clock 1)).1.get "id"),
      (s.insert .users (newUser l.params) (at_.clock 1)).2) = _
    rw [hins]
  have hfound : (if (absent l.params.unionid).truthy then s.findOne .userIdentities
      (fun r => (r.get "unionid").strictEq (absent l.params.unionid)) else none) = none := by
    rw [params_unionid]
    split
    · rename_i htrue
      exact hw htrue
    · rfl
  have hf' : t.findOne .userIdentities (hasIdentity "wechat_mini" l.params.openid) = none := by
    unfold Store.findOne Store.getTable at hf ⊢
    rwa [hrows, if_neg (by decide), params_openid]
  have hm : inserted ∈ t.cache.rows .users := by
    rw [hrows, if_pos rfl]
    exact List.mem_append_right _ (List.mem_singleton_self _)
  obtain ⟨user, huser, hid⟩ := findById_of_mem hm hu.number
  rw [← hu.number] at huser
  rw [run_user_of_unknown at_ hp hf]
  refine ⟨_, user, inserted, _, _, run_bindIdentity hfound hfor hf' huser, hid, hu,
    newIdentity_insert l hp hu.number (at_.clock 2) t, ?_, ?_⟩
  · rw [rows_bound, if_neg (by decide), hrows, if_pos rfl]
    exact .concat (SameColumns.refl _) _ _
  · rw [rows_bound, if_pos rfl, hrows, if_neg (by decide)]
    exact .concat (SameColumns.refl _) _ _

/-- A login returns a user, in one of five ways, where users have numbers and identities name
users. -/
theorem login_cases_of (hus : ∀ u ∈ s.cache.rows .users, IsUser u)
    (hids : ∀ i ∈ s.cache.rows .userIdentities, ∃ u ∈ s.cache.rows .users,
      i.get "user_id" = u.get "id") :
    ∃ id user s' users identities, (l.user at_).run s = (.ok user, s') ∧
      user.get "id" = .num (.ofNat id) ∧ LoginCase s l id users identities ∧
      AccountsGrow s s' users identities := by
  cases hp : l.path with
  | h5 =>
    cases hf : s.findOne .users (hasOpenid l.openid) with
    | some u =>
      obtain ⟨id, _, _, hid, _⟩ := hus u (mem_of_findOne hf).1
      obtain ⟨user, s', hrun, huser, hg⟩ := h5_known at_ hp hf hid
      exact ⟨id, user, s', [], [], hrun, huser, .h5Known hp hf hid, hg⟩
    | none =>
      obtain ⟨id, user, s', hrun, hu, hg⟩ := h5_new at_ hp hf
      exact ⟨id, user, s', [user], [], hrun, hu.number, .h5New hp hf hu, hg⟩
  | mini =>
    cases hf : s.findOne .userIdentities (hasIdentity "wechat_mini" l.openid) with
    | some i =>
      obtain ⟨u, hm, hu⟩ := hids i (mem_of_findOne hf).1
      obtain ⟨id, _, _, hid, _⟩ := hus u hm
      obtain ⟨user, s', hrun, huser, hg⟩ :=
        mini_known at_ hp hf (hu.trans hid) ⟨u, hm, hu⟩
      exact ⟨id, user, s', [], [], hrun, huser, .known hp hf (hu.trans hid), hg⟩
    | none =>
      by_cases hlink : (absent l.unionid).truthy = true ∧
          ∃ j, s.findOne .userIdentities (hasUnionid l) = some j
      · obtain ⟨hw, j, hj⟩ := hlink
        obtain ⟨u, hm, hu⟩ := hids j (mem_of_findOne hj).1
        obtain ⟨id, _, hpos, hid, _⟩ := hus u hm
        obtain ⟨user, i, s', hrun, huser, hi, hg⟩ :=
          mini_linked at_ hp hf hw hj (hu.trans hid) hpos ⟨u, hm, hu⟩
        exact ⟨id, user, s', [], [i], hrun, huser, .linked hp hf hw hj (hu.trans hid) hi, hg⟩
      · have hw : (absent l.unionid).truthy = true →
            s.findOne .userIdentities (hasUnionid l) = none := by
          intro hw
          rw [Option.eq_none_iff_forall_ne_some]
          exact fun j hj => hlink ⟨hw, j, hj⟩
        obtain ⟨id, user, u, i, s', hrun, huser, hu, hi, hg⟩ := mini_new at_ hp hf hw
        exact ⟨id, user, s', [u], [i], hrun, huser, .new hp hf hw hu hi, hg⟩

theorem login_cases {attached : LoginPath → String → String} (ha : Accounts attached s) :
    ∃ id user s' users identities, (l.user at_).run s = (.ok user, s') ∧
      user.get "id" = .num (.ofNat id) ∧ LoginCase s l id users identities ∧
      AccountsGrow s s' users identities := by
  refine login_cases_of at_ ha.users fun i hi => ?_
  obtain ⟨_, _, _, _, u, hm, hu⟩ := ha.identities i hi
  exact ⟨u, hm, hu⟩

end

end JtfpMall
