import JtfpMall.Server.LoginLinks
import JtfpMall.Auth.UserAuth
import JtfpMall.Auth.Cookies

/-!
# Logins in runs of the server

Whatever requests, flushes and restarts come in between, an openid stays with the user it was first
bound to, and the token of a login lets its bearer in as that user for as long as it is valid.
-/

namespace JtfpMall

open JtfpMall.Js
open JtfpMall.Lib
open JtfpMall.Users (hasOpenid hasIdentity orNull)

/-- The event writes the accounts through logins only. -/
def Server.Event.LeavesAccounts : Server.Event → Prop
  | .operation w _ => w.table ≠ .users ∧ w.table ≠ .userIdentities
  | _ => True

/-- An identity of the mini-program that names one of the users. -/
structure NamesUser (users : List Row) (i : Row) : Prop where
  provider : i.get "provider" = .str "wechat_mini"
  openid : ∃ openid, i.get "openid" = .str openid
  unionid : i.get "unionid" = .null ∨ ∃ w, i.get "unionid" = .str w
  user : ∃ u ∈ users, i.get "user_id" = u.get "id"

/-- Users have positive numbers, and identities name users. -/
structure Accounted (s : Store) : Prop where
  users : ∀ u ∈ s.cache.rows .users, IsUser u
  identities : ∀ i ∈ s.cache.rows .userIdentities, NamesUser (s.cache.rows .users) i

section
variable {env : Env} {s s' : Store} {l : Login}

theorem accounted_start (loadedAt : String) (clock : ℕ → String) :
    Accounted (Server.start loadedAt clock .empty) := by
  have hempty : ∀ t, t ≠ .categories → t ≠ .admins →
      (Server.start loadedAt clock .empty).cache.rows t = [] := fun t hc ha =>
    rows_initDefaultData_of_ne (s := Store.loadData loadedAt (clock 0) .empty) hc ha _
  constructor
  · rw [hempty .users (by decide) (by decide)]
    exact fun u hu => absurd hu List.not_mem_nil
  · rw [hempty .userIdentities (by decide) (by decide)]
    exact fun i hi => absurd hi List.not_mem_nil

theorem IsUser.of_same {u v : Row} (h : IsUser u) (hsame : SameColumns userColumns u v) :
    IsUser v := by
  obtain ⟨id, openid, hpos, hid, ho⟩ := h
  exact ⟨id, openid, hpos, (hsame.get (by decide)).trans hid, (hsame.get (by decide)).trans ho⟩

theorem NamesUser.of_same {users users' : List Row} {i j : Row} (h : NamesUser users i)
    (hsame : SameColumns identityColumns i j)
    (husers : ∀ u ∈ users, ∃ u' ∈ users', SameColumns userColumns u u') : NamesUser users' j := by
  have hprovider : j.get "provider" = i.get "provider" := hsame.get (by decide)
  have hopenid : j.get "openid" = i.get "openid" := hsame.get (by decide)
  have hunionid : j.get "unionid" = i.get "unionid" := hsame.get (by decide)
  have huser : j.get "user_id" = i.get "user_id" := hsame.get (by decide)
  refine ⟨hprovider.trans h.provider, hopenid ▸ h.openid, hunionid ▸ h.unionid, ?_⟩
  obtain ⟨u, hu, hid⟩ := h.user
  obtain ⟨u', hu', hsame'⟩ := husers u hu
  exact ⟨u', hu', (huser.trans hid).trans (hsame'.get (by decide)).symm⟩

/-- Accounts that have grown are sound where the new rows are. -/
theorem Accounted.grow {us is : List Row} (h : Accounted s) (hg : AccountsGrow s s' us is)
    (hus : ∀ u ∈ us, IsUser u) (his : ∀ i ∈ is, NamesUser (s'.cache.rows .users) i) :
    Accounted s' := by
  constructor
  · intro u hu
    rcases hg.users.of_mem hu with ⟨v, hv, hsame⟩ | hnew
    · exact (h.users v hv).of_same hsame
    · exact hus u hnew
  · intro i hi
    rcases hg.identities.of_mem hi with ⟨j, hj, hsame⟩ | hnew
    · exact (h.identities j hj).of_same hsame fun u hu => hg.users.mem hu
    · exact his i hnew

/-- A login returns the user its openid is bound to from then on. -/
theorem login_accounted (env : Env) (h : Accounted s) (l : Login) (at_ : Moment) :
    ∃ id us is, 0 < id ∧ LoggedInAs env at_ s l id ∧ LoginCase s l id us is ∧
      AccountsGrow s (Server.serve env l.request at_ s) us is ∧
      Accounted (Server.serve env l.request at_ s) := by
  obtain ⟨id, user, s', us, is, hrun, hid, hc, hg⟩ :=
    login_cases_of (l := l) at_ h.users fun i hi => (h.identities i hi).user
  obtain ⟨hlogged, hserve⟩ := loggedInAs_of_run env hrun hid
  rw [hserve]
  have hus : ∀ u ∈ us, IsUser u := fun u hu => isUser_login hc hu
  have his : ∀ i ∈ is, NamesUser (s'.cache.rows .users) i := by
    intro i hi
    obtain ⟨_, _, hnew, hcase⟩ := new_identity hc hi
    refine ⟨hnew.provider, ⟨_, hnew.openid⟩, ?_, ?_⟩
    · rw [hnew.unionid]
      by_cases hw : (absent l.unionid).truthy = true
      · obtain ⟨w, hl, hne⟩ := truthy_absent.mp hw
        exact Or.inr ⟨w, by rw [hl, orNull_of_truthy hne]⟩
      · exact Or.inl (orNull_of_not_truthy hw)
    · obtain ⟨j, w, hj, _, _, hjid⟩ | ⟨u, rfl, hu, _⟩ := hcase
      · obtain ⟨u, hu, hju⟩ := (h.identities j (mem_of_findOne hj).1).user
        obtain ⟨u', hu', hsame⟩ := hg.users.mem hu
        have hid' : u'.get "id" = u.get "id" := hsame.get (by decide)
        exact ⟨u', hu', by rw [hnew.user, hid', ← hju, hjid]⟩
      · obtain ⟨old, hrows, _⟩ := hg.users
        refine ⟨u, ?_, hnew.user.trans hu.number.symm⟩
        rw [hrows]
        exact List.mem_append_right _ (List.mem_singleton_self u)
  have hend := h.grow hg hus his
  refine ⟨id, us, is, ?_, hlogged, hc, hg, hend⟩
  -- the id is that of a user, whichever way the login came to it
  have hof : ∀ u : Row, u ∈ s.cache.rows .users → u.get "id" = .num (.ofNat id) → 0 < id := by
    intro u hu hn
    obtain ⟨n, _, hpos, hn', _⟩ := h.users u hu
    rw [hn, JsVal.num.injEq, JsNum.ofNat_inj] at hn'
    exact hn' ▸ hpos
  cases hc with
  | h5Known _ hf hid => exact hof _ (mem_of_findOne hf).1 hid
  | h5New _ _ hu => exact hu.positive
  | known _ hf hid =>
    obtain ⟨u, hu, hiu⟩ := (h.identities _ (mem_of_findOne hf).1).user
    exact hof u hu (hiu.symm.trans hid)
  | linked _ _ _ hj hid _ =>
    obtain ⟨u, hu, hju⟩ := (h.identities _ (mem_of_findOne hj).1).user
    exact hof u hu (hju.symm.trans hid)
  | new _ _ _ hu _ => exact hu.positive

theorem AccountsGrow.refl (s : Store) : AccountsGrow s s [] [] :=
  ⟨.refl (SameColumns.refl _) _, .refl (SameColumns.refl _) _⟩

theorem AccountsGrow.of_rows (husers : s'.cache.rows .users = s.cache.rows .users)
    (hids : s'.cache.rows .userIdentities = s.cache.rows .userIdentities) :
    AccountsGrow s s' [] [] := by
  constructor
  · rw [husers]
    exact .refl (SameColumns.refl _) _
  · rw [hids]
    exact .refl (SameColumns.refl _) _

/-- The columns that count are numbers and texts, which JSON text keeps. -/
theorem sameColumns_viaJson {columns : List String} {r : Row}
    (h : ∀ k ∈ columns, (r.get k).Storable) : SameColumns columns r r.viaJson := by
  intro k hk
  rw [Dict.get_viaJson, (h k hk).viaJson_eq]

theorem storable_user {u : Row} (h : IsUser u) : ∀ k ∈ userColumns, (u.get k).Storable := by
  obtain ⟨id, openid, _, hid, ho⟩ := h
  intro k hk
  simp only [userColumns, List.mem_cons, List.not_mem_nil, or_false] at hk
  rcases hk with rfl | rfl
  · rw [hid]
    exact JsVal.storable_fin _
  · rw [ho]
    exact JsVal.storable_str _

theorem storable_identity {users : List Row} {i : Row} (h : NamesUser users i)
    (hu : ∀ u ∈ users, IsUser u) : ∀ k ∈ identityColumns, (i.get k).Storable := by
  intro k hk
  simp only [identityColumns, List.mem_cons, List.not_mem_nil, or_false] at hk
  rcases hk with rfl | rfl | rfl | rfl
  · rw [h.provider]
    exact JsVal.storable_str _
  · obtain ⟨openid, ho⟩ := h.openid
    rw [ho]
    exact JsVal.storable_str _
  · rcases h.unionid with hw | ⟨w, hw⟩
    · rw [hw]
      exact JsVal.storable_null
    · rw [hw]
      exact JsVal.storable_str _
  · obtain ⟨u, hmem, hid⟩ := h.user
    rw [hid]
    exact storable_user (hu u hmem) "id" (by decide)

theorem grow_restart (hsv : Saved env s) (h : Accounted s) (loadedAt : String)
    (clock : ℕ → String) : AccountsGrow s (Server.restart loadedAt clock s) [] [] := by
  obtain ⟨users, _, husers, hu⟩ := rows_restart hsv (t := .users) (by decide) (by decide) loadedAt clock
  obtain ⟨ids, _, hids, hi⟩ :=
    rows_restart hsv (t := .userIdentities) (by decide) (by decide) loadedAt clock
  rw [husers rfl] at hu
  rw [hids rfl] at hi
  constructor
  · rw [hu]
    exact .map fun u hmem => sameColumns_viaJson (storable_user (h.users u hmem))
  · rw [hi]
    exact .map fun i hmem => sameColumns_viaJson (storable_identity (h.identities i hmem) h.users)

/-- A request that writes the accounts is a login, or does nothing. -/
theorem login_of_tables {r : Request} (h : Table.users ∈ r.tables ∨ Table.userIdentities ∈ r.tables)
    (env : Env) (at_ : Moment) (s : Store) :
    Server.serve env r at_ s = s ∨ ∃ l : Login, r = l.request := by
  unfold Request.tables at h
  split at h
  all_goals first
    | (rename_i answer
       cases answer with
       | missingCode => exact Or.inl rfl
       | failed => exact Or.inl rfl
       | noOpenid => exact Or.inl rfl
       | identified openid unionid => exact Or.inr ⟨⟨.h5, openid, unionid, ""⟩, rfl⟩)
    | (rename_i answer
       cases answer with
       | badRequest issue => exact Or.inl rfl
       | notConfigured => exact Or.inl rfl
       | refused message => exact Or.inl rfl
       | failed => exact Or.inl rfl
       | session openid key unionid => exact Or.inr ⟨⟨.mini, openid, unionid, key⟩, rfl⟩)
    | (simp at h)

/-- Every event leaves the accounts that are there bound as they are. -/
theorem accounts_step (hsv : Saved env s) (h : Accounted s) {e : Server.Event}
    (he : e.LeavesAccounts) (hs : Server.step env s e = some s') :
    Accounted s' ∧ ∃ us is, AccountsGrow s s' us is := by
  have hsame : (∃ us is, AccountsGrow s s' us is ∧ us = [] ∧ is = []) →
      Accounted s' ∧ ∃ us is, AccountsGrow s s' us is := by
    rintro ⟨_, _, hg, rfl, rfl⟩
    exact ⟨h.grow hg (fun u hu => absurd hu List.not_mem_nil)
      (fun i hi => absurd hi List.not_mem_nil), [], [], hg⟩
  cases e with
  | request r at_ =>
    cases hs
    by_cases ht : Table.users ∈ r.tables ∨ Table.userIdentities ∈ r.tables
    · rcases login_of_tables ht env at_ s with hnone | ⟨l, rfl⟩
      · rw [hnone]
        exact ⟨h, [], [], AccountsGrow.refl s⟩
      · obtain ⟨_, us, is, _, _, _, hg, hend⟩ := login_accounted env h l at_
        exact ⟨hend, us, is, hg⟩
    · rw [not_or] at ht
      exact hsame ⟨[], [], .of_rows ((serve_sameRows env ht.1 at_ s).rows rfl)
        ((serve_sameRows env ht.2 at_ s).rows rfl), rfl, rfl⟩
  | operation w now =>
    cases hs
    exact hsame ⟨[], [], .of_rows (Write.rows_apply_of_ne he.1 now s)
      (Write.rows_apply_of_ne he.2 now s), rfl, rfl⟩
  | timer now =>
    simp only [Server.step] at hs
    split at hs
    · cases hs
      rw [Store.timerFired_eq]
      exact hsame ⟨[], [], .of_rows (Store.rows_flushNow ..) (Store.rows_flushNow ..), rfl, rfl⟩
    · cases hs
  | flush now =>
    cases hs
    exact hsame ⟨[], [], .of_rows (Store.rows_flushNow ..) (Store.rows_flushNow ..), rfl, rfl⟩
  | restart loadedAt clock =>
    cases hs
    exact hsame ⟨[], [], grow_restart hsv h loadedAt clock, rfl, rfl⟩

theorem accounted_run {loadedAt : String} {clock : ℕ → String} {es : List Server.Event}
    (hes : ∀ e ∈ es, e.LeavesAccounts)
    (hr : run (Server.step env) (Server.start loadedAt clock .empty) es = some s) :
    Saved env s ∧ Accounted s := by
  have halong := Along.of_events (Server.step env) hes (Server.start loadedAt clock .empty)
  exact run_invariant (Server.step env) (fun s => Saved env s ∧ Accounted s)
    (fun _ _ _ hi ho hs => ⟨saved_step hi.1 hs, (accounts_step hi.1 hi.2 ho hs).1⟩)
    ⟨saved_start loadedAt clock, accounted_start loadedAt clock⟩ halong hr

theorem accountOf_run (hsv : Saved env s) (h : Accounted s) {es : List Server.Event}
    (hes : ∀ e ∈ es, e.LeavesAccounts) (hr : run (Server.step env) s es = some s') {v : JsVal}
    (hv : accountOf s l = some v) :
    Saved env s' ∧ Accounted s' ∧ accountOf s' l = some v := by
  induction es generalizing s with
  | nil =>
    rw [run_nil, Option.some.injEq] at hr
    exact hr ▸ ⟨hsv, h, hv⟩
  | cons e es ih =>
    rw [run_cons, Option.bind_eq_some_iff] at hr
    obtain ⟨t, ht, hr⟩ := hr
    obtain ⟨hend, us, is, hg⟩ := accounts_step hsv h (hes e List.mem_cons_self) ht
    exact ih (saved_step hsv ht) hend (fun e' he' => hes e' (List.mem_cons_of_mem e he')) hr
      (accountOf_persists hg hv)

theorem accountOf_congr {a b : Login} (hp : a.path = b.path) (ho : a.openid = b.openid) (s : Store) :
    accountOf s a = accountOf s b := by
  unfold accountOf
  rw [hp, ho]

/-- Two logins over one path with one openid, and what comes in between. -/
theorem login_again (hsv : Saved env s) (hacc : Accounted s) {a b : Login} {at_ : Moment}
    {fs : List Server.Event} {t : Store} (hfs : ∀ e ∈ fs, e.LeavesAccounts)
    (ht : run (Server.step env) (Server.serve env a.request at_ s) fs = some t)
    (hp : a.path = b.path) (ho : a.openid = b.openid) (at' : Moment) :
    ∃ id, 0 < id ∧ LoggedInAs env at_ s a id ∧ LoggedInAs env at' t b id := by
  obtain ⟨id, us, is, hpos, hlogged, hc, hg, hafter⟩ := login_accounted env hacc a at_
  have hserve : Server.step env s (.request a.request at_) =
      some (Server.serve env a.request at_ s) := rfl
  obtain ⟨_, hend, hkept⟩ :=
    accountOf_run (saved_step hsv hserve) hafter hfs ht (accountOf_login hc hg)
  obtain ⟨id', us', is', _, hlogged', hc', hg', _⟩ := login_accounted env hend b at'
  have hsame := accountOf_persists hg' (accountOf_congr hp ho t ▸ hkept)
  rw [accountOf_login hc' hg', Option.some.injEq, JsVal.num.injEq, JsNum.ofNat_inj] at hsame
  exact ⟨id, hpos, hlogged, hsame ▸ hlogged'⟩

end

open JtfpMall.Jwt

/-- What `signJwt` is given; `sub` is the number of the user. -/
def Login.payload (l : Login) (id : ℕ) : Dict JsVal :=
  match l.path with
  | .h5 => .ofList [("sub", .str (JsNum.ofNat id).toText), ("openid", .str l.openid)]
  | .mini => .ofList [("sub", .str (JsNum.ofNat id).toText), ("openid", .str l.openid),
      ("provider", .str "wechat_mini")]

/-- The callback signs for the default hour, the login of the mini-program for seven days. -/
def LoginPath.lifetime : LoginPath → ℕ
  | .h5 => 3600
  | .mini => 7 * 24 * 3600

/-- The middleware lets the request in as the user, or refuses it. -/
def LetsIn (result : Except JsError (Response ⊕ AuthedUser)) (l : Login) (id : ℕ) : Prop :=
  ∃ user, result = .ok (.inr user) ∧ user.userId.val = id ∧ user.openid = .str l.openid

section
variable (hmac : String → String → Digest) (jwtSecret : String)

def Login.token (l : Login) (id : ℕ) (issued : Time) : String :=
  signJwt hmac jwtSecret (l.payload id) (.ofNat l.path.lifetime) issued

/-- The token lets in who shows it, in the header or as the cookie that the callback sets, up to its
last second and not a second longer. -/
structure Admits (l : Login) (id : ℕ) (issued checked : Time) : Prop where
  header : ∀ cookie,
    let result := requireUserAuth hmac jwtSecret Base64.decode
      (some ("Bearer " ++ l.token hmac jwtSecret id issued)) cookie checked
    (checked.seconds ≤ issued.seconds + l.path.lifetime → LetsIn result l id) ∧
      (¬checked.seconds ≤ issued.seconds + l.path.lifetime → result = .ok (.inl .needLogin))
  cookie : ∀ env maxAge before after,
    (∀ c ∈ before ++ after, AuthRoutes.Cookie.name c ≠ some "jwt") →
    let result := requireUserAuth hmac jwtSecret Base64.decode none
      (some (AuthRoutes.cookieHeader (before ++ AuthRoutes.kept
        (AuthRoutes.setCookie env "jwt" (l.token hmac jwtSecret id issued) maxAge) :: after))) checked
    (checked.seconds ≤ issued.seconds + l.path.lifetime → LetsIn result l id) ∧
      (¬checked.seconds ≤ issued.seconds + l.path.lifetime → result = .ok (.inl .needLogin))

variable {hmac jwtSecret} {auth cookie : Option String} {l : Login} {id : ℕ} {issued checked : Time}

theorem entries_payload (l : Login) (id : ℕ) : ∃ more,
    (l.payload id).entries =
      ("sub", .str (JsNum.ofNat id).toText) :: ("openid", .str l.openid) :: more ∧
    (more = [] ∨ more = [("provider", .str "wechat_mini")]) := by
  unfold Login.payload
  cases l.path with
  | h5 => exact ⟨[], Dict.entries_ofList (by simp), Or.inl rfl⟩
  | mini => exact ⟨_, Dict.entries_ofList (by simp), Or.inr rfl⟩

theorem verifyJwt_token (l : Login) (id : ℕ) (issued checked : Time) :
    verifyJwt hmac jwtSecret Base64.decode (l.token hmac jwtSecret id issued) checked =
      if checked.seconds ≤ issued.seconds + l.path.lifetime then
        some (.obj (("iat", .num (.ofNat issued.seconds)) ::
          ("exp", .num ((JsNum.ofNat issued.seconds).add (.ofNat l.path.lifetime))) ::
          (l.payload id).entries))
      else none := by
  obtain ⟨more, hentries, hmore⟩ := entries_payload l id
  have hnone : ∀ k, k ≠ "sub" → k ≠ "openid" → k ≠ "provider" → (l.payload id).has k = false := by
    intro k hsub hopenid hprovider
    unfold Login.payload
    cases l.path <;> simp [Dict.has_ofList, hsub, hopenid, hprovider]
  refine verifyJwt_signJwt hmac jwtSecret (l.payload id) ⟨(l.payload id).nodup, ?_⟩
    (hnone "iat" (by decide) (by decide) (by decide))
    (hnone "exp" (by decide) (by decide) (by decide)) l.path.lifetime ?_ ?_ issued checked
  · rw [hentries]
    rcases hmore with rfl | rfl
    · exact ⟨trivial, trivial, trivial⟩
    · exact ⟨trivial, trivial, trivial, trivial⟩
  · cases l.path <;> decide
  · refine isDouble_ofNat ?_
    cases l.path <;> decide

/-- A request that shows the token. -/
theorem requireUserAuth_token
    (htoken : tokenOf auth cookie = .ok (some (l.token hmac jwtSecret id issued))) (hpos : 0 < id)
    (hid : id ≤ 2 ^ 53) :
    (checked.seconds ≤ issued.seconds + l.path.lifetime →
      LetsIn (requireUserAuth hmac jwtSecret Base64.decode auth cookie checked) l id) ∧
    (¬checked.seconds ≤ issued.seconds + l.path.lifetime →
      requireUserAuth hmac jwtSecret Base64.decode auth cookie checked = .ok (.inl .needLogin)) := by
  have hextract : extractJwtFromReq hmac jwtSecret Base64.decode auth cookie checked =
      .ok ((verifyJwt hmac jwtSecret Base64.decode (l.token hmac jwtSecret id issued)
        checked).getD .undefined) := extractJwtFromReq_token htoken
  rw [verifyJwt_token] at hextract
  constructor
  · intro hvalid
    rw [if_pos hvalid, Option.getD_some] at hextract
    obtain ⟨more, hentries, hmore⟩ := entries_payload l id
    have hpos' : (0 : ℚ) < (id : ℚ) := by exact_mod_cast hpos
    have hnumber : (JsVal.str (JsNum.ofNat id).toText).toNumber = .ok (.fin (id : ℚ)) :=
      congrArg Except.ok (stringToNumber_toText hpos hid)
    rw [hentries] at hextract
    obtain ⟨fs, hfs⟩ : ∃ fs, ("iat", JsVal.num (.ofNat issued.seconds)) ::
        ("exp", .num ((JsNum.ofNat issued.seconds).add (.ofNat l.path.lifetime))) ::
        ("sub", .str (JsNum.ofNat id).toText) :: ("openid", .str l.openid) :: more = fs := ⟨_, rfl⟩
    have hnodup : (fs.map Prod.fst).Nodup := by
      rw [← hfs]
      rcases hmore with rfl | rfl <;> simp
    have hread : ∀ k v, (k, v) ∈ fs → (JsVal.obj fs).optionalProp k = .ok v := fun k v hm =>
      congrArg Except.ok (Dict.get_ofList_of_mem hnodup hm)
    have hsub := hread "sub" (.str (JsNum.ofNat id).toText) (by rw [← hfs]; simp)
    have hopenid := hread "openid" (.str l.openid) (by rw [← hfs]; simp)
    rw [hfs] at hextract
    unfold requireUserAuth
    rw [hextract]
    refine ⟨⟨⟨id, hpos'⟩, .str l.openid, .obj fs⟩, ?_, rfl, rfl⟩
    dsimp only [bind, Except.bind]
    rw [hsub]
    dsimp only
    rw [hnumber]
    dsimp only
    have htruthy : (JsVal.obj fs).truthy = true := rfl
    rw [dif_pos hpos', if_pos htruthy, hopenid]
    rfl
  · intro hlate
    rw [if_neg hlate] at hextract
    exact requireUserAuth_undefined hextract

theorem token_ne_empty (l : Login) (id : ℕ) (issued : Time) :
    l.token hmac jwtSecret id issued ≠ "" := by
  intro he
  have hvalid : verifyJwt hmac jwtSecret Base64.decode (l.token hmac jwtSecret id issued) issued =
      _ := verifyJwt_token l id issued issued
  rw [he, verifyJwt_empty, if_pos (Nat.le_add_right _ _)] at hvalid
  cases hvalid

theorem admits (l : Login) (hpos : 0 < id) (hid : id ≤ 2 ^ 53) (issued checked : Time) :
    Admits hmac jwtSecret l id issued checked where
  header := fun cookie =>
    requireUserAuth_token (tokenOf_header rfl (token_ne_empty l id issued)) hpos hid
  cookie := fun env maxAge before after hothers => by
    refine requireUserAuth_token ?_ hpos hid
    rw [tokenOf_cookie (fun other ho => by cases ho)]
    exact (AuthRoutes.loginCookies_come_back env _ (token_ne_empty l id issued) maxAge before
      after).2 hothers

end

end JtfpMall
