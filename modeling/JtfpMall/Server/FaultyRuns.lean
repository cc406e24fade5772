import JtfpMall.Server.FailedRequests

/-!
# Runs in which calls throw

Every identity names a user, whatever has thrown before. So a login always finds the user it
looks for, and the only errors behind its writes are those that come from outside.
-/

namespace JtfpMall

open JtfpMall.Js
open JtfpMall.Lib

/-- User ids are issued, and every identity names one of them. -/
structure Bound (s : Store) : Prop where
  issued : Issued s.cache .users
  named : ∀ i ∈ s.cache.rows .userIdentities,
    i.get "user_id" ∈ (s.cache.rows .users).map fun u => u.get "id"

namespace Bound

variable {s s' : Store}

theorem of_sameTables (h : Bound s) (hs : SameTables s s') : Bound s' := by
  refine ⟨h.issued.of_rows (hs.rows _) id (hs.next _), ?_⟩
  rw [hs.rows, hs.rows]
  exact h.named

theorem insertUser (h : Bound s) (row : Row) (now : String) : Bound (s.insert .users row now).2 := by
  refine ⟨h.issued.insert row now, fun i hi => ?_⟩
  rw [Store.rows_insert, if_neg (by decide)] at hi
  rw [Store.rows_insert, if_pos rfl, List.map_append]
  exact List.mem_append_left _ (h.named i hi)

theorem insertIdentity (h : Bound s) (row : Row) (hu : row.get "user_id" ∈
    (s.cache.rows .users).map fun u => u.get "id") (now : String) :
    Bound (s.insert .userIdentities row now).2 := by
  refine ⟨issued_apply (w := .insert .userIdentities row) h.issued (fun _ => trivial) now,
    fun i hi => ?_⟩
  rw [Store.rows_insert, if_pos rfl] at hi
  rw [Store.rows_insert, if_neg (by decide)]
  rcases List.mem_append.mp hi with hi | hi
  · exact h.named i hi
  · rw [List.mem_singleton.mp hi]
    have hid : (Store.newRow row (s.cache.next .userIdentities) now).get "user_id" =
        row.get "user_id" := by
      simp [Store.newRow, Dict.get_set]
    rw [hid]
    exact hu

theorem updateUser (h : Bound s) {updates : Row} (hu : updates.has "id" = false) (id : JsVal)
    (now : String) : Bound (s.update .users id updates now).2 := by
  have hk : (Write.update .users id updates).KeepsIds := Or.inl hu
  refine ⟨issued_apply h.issued (fun _ => hk) now, fun i hi => ?_⟩
  rw [Store.rows_update, if_neg (by decide)] at hi
  rw [ids_update hk]
  exact h.named i hi

theorem updateIdentity (h : Bound s) {updates : Row} (hu : updates.has "user_id" = false)
    (id : JsVal) (now : String) : Bound (s.update .userIdentities id updates now).2 := by
  refine ⟨h.issued.of_rows ((Store.rows_update ..).trans (if_neg (by decide))) (fun hi => hi)
    (Store.next_update ..), fun i hi => ?_⟩
  rw [Store.rows_update, if_pos rfl] at hi
  rw [Store.rows_update, if_neg (by decide)]
  rcases mem_modifyFirst hi with hi | ⟨old, hold, rfl⟩
  · exact h.named i hi
  · rw [get_merged_of_ne (by decide), hu]
    exact h.named old (List.mem_of_find?_eq_some hold)

/-- A user that is named is found, under a number. -/
theorem findById (h : Bound s) {v : JsVal} (hv : v ∈ (s.cache.rows .users).map fun u => u.get "id") :
    ∃ user, s.findById .users v = some user ∧ ∃ n : ℕ, user.get "id" = .num (.ofNat n) := by
  obtain ⟨u, hu, rfl⟩ := List.mem_map.mp hv
  obtain ⟨n, hn, _⟩ := h.issued.values u hu
  exact ⟨u, h.issued.find hu, n, hn⟩

end Bound

/-- A flush of a store with unsaved rows throws when a call does. -/
theorem run_flushOr (env : Env) (fault : Option Fault) (now : String) {s : Store}
    (hd : s.dirty = true) :
    ∃ x s', (Act.flushOr fault now).run s = (x, s') ∧ SameTables s s' ∧ Saved env s' ∧
      (fault.isSome = true ↔ ∃ e, x = .error e) := by
  cases fault with
  | none =>
    refine ⟨_, _, rfl, .flushNow s now, saved_flushNow (fun hf => ?_) now, ?_⟩
    · rw [hd] at hf
      cases hf
    · constructor
      · exact fun h => (nomatch h)
      · rintro ⟨e, he⟩
        cases he
  | some fault =>
    have hrun : (Act.flushOr (some fault) now).run s = (.error fault.error,
        Store.saveFailing fault.call now { s with flushTimer := false }) := by
      change (Act.flushFailing fault now) s = _
      unfold Act.flushFailing
      dsimp only
      rw [if_pos hd]
    refine ⟨_, _, hrun, ⟨fun _ => rfl, fun _ => rfl⟩, fun hf => ?_, fun _ => ⟨_, rfl⟩, fun _ => rfl⟩
    have hdirty : (Store.saveFailing fault.call now { s with flushTimer := false }).dirty = true := hd
    rw [hdirty] at hf
    cases hf

/-- The rows of an import are appended before the flush. -/
theorem run_createAll (rows : List Row) (clock : ℕ → String) (s : Store) :
    ∃ t, (Properties.createAll rows clock).run s = (.ok (), t) ∧ (rows ≠ [] → t.dirty = true) ∧
      (∃ new : List Row, new.length = rows.length ∧
        t.cache.rows .properties = s.cache.rows .properties ++ new) ∧
      ∀ u, u ≠ .properties → t.cache.rows u = s.cache.rows u ∧ t.cache.next u = s.cache.next u := by
  induction rows generalizing clock s with
  | nil => exact ⟨s, rfl, fun h => absurd rfl h, ⟨[], rfl, by simp⟩, fun _ _ => ⟨rfl, rfl⟩⟩
  | cons row rows ih =>
    let s1 := (s.insert .properties (Properties.newProperty row) (clock 0)).2
    obtain ⟨t, hrun, hdirty, ⟨new, hlen, hnew⟩, hothers⟩ := ih (fun i => clock (i + 1)) s1
    refine ⟨t, ?_, fun _ => ?_, ?_, fun u hu => ?_⟩
    · exact hrun
    · cases rows with
      | nil =>
        cases hrun
        rfl
      | cons row' rows => exact hdirty (List.cons_ne_nil _ _)
    · refine ⟨(s.insert .properties (Properties.newProperty row) (clock 0)).1 :: new,
        congrArg (· + 1) hlen, ?_⟩
      rw [hnew, Store.rows_insert, if_pos rfl, List.append_assoc]
      rfl
    · obtain ⟨hr, hn⟩ := hothers u hu
      rw [hr, hn, Store.rows_insert, Store.next_insert, if_neg hu, if_neg hu]
      exact ⟨rfl, rfl⟩

/-- How an import of rows ends. -/
theorem run_import (env : Env) (fault : Option Fault) {headers : List PropertyRoutes.Cell}
    {rows : List (List PropertyRoutes.Cell)} (hne : PropertyRoutes.importRows headers rows ≠ [])
    (at_ : Moment) (s : Store) :
    ∃ res t, (PropertyRoutes.importSheetOr fault (.sheet headers rows) at_).run s = (.ok res, t) ∧
      (fault.isSome = true ↔ 400 ≤ res.status) ∧ Saved env t ∧
      t.cache.rows .properties ≠ s.cache.rows .properties ∧
      ∀ u, u ≠ .properties → t.cache.rows u = s.cache.rows u ∧ t.cache.next u = s.cache.next u := by
  obtain ⟨s1, hrun, hdirty, ⟨new, hlen, hnew⟩, hothers⟩ :=
    run_createAll (PropertyRoutes.importRows headers rows) at_.clock s
  obtain ⟨x, t, hflush, hsame, hsaved, hx⟩ := run_flushOr env fault
    (at_.clock (PropertyRoutes.importRows headers rows).length) (hdirty hne)
  have hgrown : t.cache.rows .properties ≠ s.cache.rows .properties := by
    rw [hsame.rows, hnew]
    intro he
    rw [List.append_right_eq_self.mp he] at hlen
    exact hne (List.eq_nil_of_length_eq_zero hlen.symm)
  have hrest : ∀ u, u ≠ .properties →
      t.cache.rows u = s.cache.rows u ∧ t.cache.next u = s.cache.next u := by
    intro u hu
    obtain ⟨hr, hn⟩ := hothers u hu
    exact ⟨(hsame.rows u).trans hr, (hsame.next u).trans hn⟩
  unfold PropertyRoutes.importSheetOr adminGuarded
  rw [Action.run_attempt]
  dsimp only
  rw [if_neg hne]
  unfold Properties.bulkInsertOr
  rw [Action.run_bind, Action.run_bind, hrun]
  dsimp only
  rw [Action.run_bind, hflush]
  cases x with
  | ok u =>
    refine ⟨_, t, rfl, ?_, hsaved, hgrown, hrest⟩
    constructor
    · intro hf
      obtain ⟨e, he⟩ := hx.mp hf
      cases he
    · exact fun h => absurd h (Nat.not_le.mpr (status_ok _))
  | error e =>
    exact ⟨_, t, rfl, ⟨fun _ => (by decide : 400 ≤ 500), fun _ => hx.mpr ⟨e, rfl⟩⟩, hsaved, hgrown, hrest⟩

section
variable {env : Env} {s : Store}

theorem run_userFor (h : Bound s) {found : Option Row}
    (hf : ∀ j, found = some j → j ∈ s.cache.rows .userIdentities) (params : Users.Params)
    (now : String) :
    ∃ userId t, (Users.userFor found params now).run s = (.ok userId, t) ∧ Bound t ∧
      userId ∈ (t.cache.rows .users).map (fun u => u.get "id") ∧
      t.cache.rows .userIdentities = s.cache.rows .userIdentities := by
  unfold Users.userFor
  dsimp only
  split
  · rename_i htrue
    cases found with
    | none => exact absurd htrue (by decide)
    | some j => exact ⟨j.get "user_id", s, rfl, h, h.named j (hf j rfl), rfl⟩
  · refine ⟨_, _, rfl, h.insertUser (Users.newUser params) now, ?_, ?_⟩
    · rw [Store.rows_insert, if_pos rfl, List.map_append]
      exact List.mem_append_right _ (List.mem_singleton_self _)
    · rw [Store.rows_insert, if_neg (by decide)]

/-- The binding of a new identity: rows, then the flush. -/
theorem run_bindIdentityOr (env : Env) (h : Bound s) (fault : Option Fault) {provider : String}
    (params : Users.Params)
    (hf : s.findOne .userIdentities (Users.hasIdentity provider params.openid) = none) (clock : ℕ → String) :
    ∃ x t, (Users.bindIdentityOr fault provider params clock).run s = (x, t) ∧
      (fault.isSome = true ↔ ∃ e, x = .error e) ∧
      (∀ user, x = .ok user → ∃ n : ℕ, user.get "id" = .num (.ofNat n)) ∧ Bound t ∧ Saved env t ∧
      t.cache.rows .userIdentities ≠ s.cache.rows .userIdentities := by
  obtain ⟨found, hfound, hmem⟩ : ∃ found, (Users.findByUnionid params).run s = (.ok found, s) ∧
      ∀ j, found = some j → j ∈ s.cache.rows .userIdentities := by
    unfold Users.findByUnionid
    split
    · exact ⟨_, rfl, fun j hj => List.mem_of_find?_eq_some hj⟩
    · exact ⟨none, rfl, fun j hj => (nomatch hj)⟩
  obtain ⟨userId, s1, hfor, hs1, hid, hsame⟩ := run_userFor h hmem params (clock 1)
  let s2 := (s1.insert .userIdentities (Users.newIdentity provider params userId) (clock 2)).2
  have hsave : (Users.saveIdentity provider params userId (clock 2)).run s1 = (.ok (), s2) := by
    have hnone : s1.findOne .userIdentities (Users.hasIdentity provider params.openid) = none := by
      unfold Store.findOne Store.getTable at hf ⊢
      rwa [hsame]
    unfold Users.saveIdentity Act.findOne
    rw [Action.run_reads_bind, hnone]
    rfl
  have hs2 : Bound s2 := hs1.insertIdentity (Users.newIdentity provider params userId) hid _
  obtain ⟨x, t, hflush, hst, hsaved, hx⟩ := run_flushOr env fault (clock 3) (s := s2) rfl
  have ht : Bound t := hs2.of_sameTables hst
  have hid' : userId ∈ (t.cache.rows .users).map fun u => u.get "id" := by
    rw [hst.rows, Store.rows_insert, if_neg (by decide)]
    exact hid
  have hgrown : t.cache.rows .userIdentities ≠ s.cache.rows .userIdentities := by
    rw [hst.rows, Store.rows_insert, if_pos rfl, hsame]
    intro he
    exact List.cons_ne_nil _ _ (List.append_right_eq_self.mp he)
  obtain ⟨user, huser, hnum⟩ := ht.findById hid'
  unfold Users.bindIdentityOr
  rw [Action.run_bind, hfound]
  dsimp only
  rw [Action.run_bind, hfor]
  dsimp only
  rw [Action.run_bind, hsave]
  dsimp only
  rw [Action.run_bind, hflush]
  cases x with
  | error e =>
    refine ⟨_, t, rfl, hx.trans ⟨fun _ => ⟨e, rfl⟩, fun _ => ⟨e, rfl⟩⟩, fun user hu => ?_, ht, hsaved, hgrown⟩
    cases hu
  | ok u =>
    dsimp only
    unfold Act.findById
    rw [Action.run_reads_bind, huser]
    refine ⟨_, t, rfl, hx.trans ⟨fun he => ?_, fun he => ?_⟩, fun user' hu => ?_, ht, hsaved, hgrown⟩
    · obtain ⟨e, he⟩ := he
      cases he
    · obtain ⟨e, he⟩ := he
      cases he
    · cases hu
      exact hnum

/-- A known identity finds its user. -/
theorem run_known (env : Env) (h : Bound s) (fault : Option Fault) {provider : String}
    (params : Users.Params) {i : Row} (hf : s.findOne .userIdentities (Users.hasIdentity provider params.openid) = some i)
    (clock : ℕ → String) :
    ∃ user t, (Users.findOrCreateUserByIdentityOr fault provider params clock).run s = (.ok user, t) ∧
      (∃ n : ℕ, user.get "id" = .num (.ofNat n)) ∧ Bound t ∧ (Saved env s → Saved env t) := by
  obtain ⟨saved, t, hsave, ht, hsaved, hnamed⟩ : ∃ saved t,
      (Users.saveSessionKey params i (clock 0)).run s = (.ok saved, t) ∧ Bound t ∧
      (Saved env s → Saved env t) ∧
      i.get "user_id" ∈ (t.cache.rows .users).map fun u => u.get "id" := by
    have hnamed := h.named i (mem_of_findOne hf).1
    unfold Users.saveSessionKey
    split
    · refine ⟨_, _, rfl, h.updateIdentity rfl _ _, fun hs => saved_apply hs
        (.update .userIdentities (i.get "id") (.ofList [("session_key", absent params.sessionKey)])) _, ?_⟩
      rwa [Store.rows_update, if_neg (by decide)]
    · exact ⟨_, s, rfl, h, fun hs => hs, hnamed⟩
  obtain ⟨user, huser, hnum⟩ := ht.findById hnamed
  refine ⟨user, t, ?_, hnum, ht, hsaved⟩
  unfold Users.findOrCreateUserByIdentityOr Act.findOne Act.findById
  rw [Action.run_reads_bind, hf]
  dsimp only
  rw [Action.run_bind, hsave]
  dsimp only
  rw [Action.run_reads_bind, huser]
  rfl

/-- How a login of the mini-program ends. -/
theorem run_miniLogin (env : Env) (h : Bound s) (fault : Option Fault) (openid sessionKey : String)
    (unionid : Option String) (at_ : Moment) :
    ∃ res t, (AuthRoutes.miniLoginOr fault (.session openid sessionKey unionid) at_).run s =
        (.ok res, t) ∧ Bound t ∧ (Saved env s → Saved env t) ∧
      (400 ≤ res.status ↔ fault.isSome = true ∧
        s.findOne .userIdentities (Users.hasIdentity "wechat_mini" openid) = none) ∧
      (s.findOne .userIdentities (Users.hasIdentity "wechat_mini" openid) = none →
        t.cache.rows .userIdentities ≠ s.cache.rows .userIdentities) := by
  have hsubject : ∀ user : Row, (∃ n : ℕ, user.get "id" = .num (.ofNat n)) →
      ∃ sub, AuthRoutes.subject user = .ok sub := by
    rintro user ⟨n, hn⟩
    unfold AuthRoutes.subject
    rw [hn]
    exact ⟨_, rfl⟩
  unfold AuthRoutes.miniLoginOr guarded
  rw [Action.run_attempt]
  dsimp only
  rw [Action.run_bind]
  cases hf : s.findOne .userIdentities (Users.hasIdentity "wechat_mini" openid) with
  | some i =>
    obtain ⟨user, t, hrun, hnum, ht, hsaved⟩ := run_known env h fault
      ⟨openid, unionid, some sessionKey, none, none⟩ hf at_.clock
    obtain ⟨sub, hsub⟩ := hsubject user hnum
    rw [hrun]
    dsimp only
    rw [Action.run_bind, Action.run_lift, hsub]
    refine ⟨_, t, rfl, ht, hsaved, ⟨fun hs => absurd hs (Nat.not_le.mpr (status_ok _)), fun hn => (nomatch hn.2)⟩,
      fun hn => (nomatch hn)⟩
  | none =>
    have hnew : (Users.findOrCreateUserByIdentityOr fault "wechat_mini"
        ⟨openid, unionid, some sessionKey, none, none⟩ at_.clock).run s =
        (Users.bindIdentityOr fault "wechat_mini"
          ⟨openid, unionid, some sessionKey, none, none⟩ at_.clock).run s := by
      unfold Users.findOrCreateUserByIdentityOr Act.findOne
      rw [Action.run_reads_bind, hf]
    obtain ⟨x, t, hrun, hx, hnum, ht, hsaved, hgrown⟩ := run_bindIdentityOr env h fault
      ⟨openid, unionid, some sessionKey, none, none⟩ hf at_.clock
    rw [hnew, hrun]
    cases x with
    | error e =>
      refine ⟨_, t, rfl, ht, fun _ => hsaved, ?_, fun _ => hgrown⟩
      exact ⟨fun _ => ⟨hx.mpr ⟨e, rfl⟩, rfl⟩, fun _ => (by decide : 400 ≤ 500)⟩
    | ok user =>
      obtain ⟨sub, hsub⟩ := hsubject user (hnum user rfl)
      dsimp only
      rw [Action.run_bind, Action.run_lift, hsub]
      refine ⟨_, t, rfl, ht, fun _ => hsaved, ⟨fun hs => absurd hs (Nat.not_le.mpr (status_ok _)), fun hn => ?_⟩, fun _ => hgrown⟩
      obtain ⟨e, he⟩ := hx.mp hn.1
      cases he

theorem loginUpdates_callback (openid : String) (unionid : Option String) (user : Row) :
    Users.loginUpdates ⟨openid, unionid, none, none, none⟩ user =
      .ofList (Users.changed user "unionid" unionid) := by
  have hnone : ∀ k, Users.changed user k none = [] := fun _ => rfl
  unfold Users.loginUpdates
  dsimp only
  rw [hnone, hnone, List.append_nil, List.append_nil]

/-- An update that is made changes the row. -/
theorem merged_callback_ne {unionid : Option String} {user : Row}
    (hne : (Dict.ofList (Users.changed user "unionid" unionid)).entries ≠ []) (now : String) :
    Store.merged (.ofList (Users.changed user "unionid" unionid)) now user ≠ user := by
  unfold Users.changed at hne ⊢
  split at hne
  · rename_i hc
    rw [if_pos hc]
    rw [Bool.and_eq_true, Bool.not_eq_true'] at hc
    cases unionid with
    | none => exact absurd hc.1 (by decide)
    | some w =>
      intro he
      have hget : (Store.merged (.ofList [("unionid", absent (some w))]) now user).get "unionid" =
          .str w := by
        rw [get_merged_of_ne (by decide)]
        rfl
      have hstrict : (absent (some w)).strictEq (user.get "unionid") = true := by
        rw [← congrArg (Dict.get · "unionid") he, hget]
        simp [absent, JsVal.strictEq]
      rw [hc.2] at hstrict
      cases hstrict
  · exact absurd rfl hne

theorem run_findOrCreateUser (env : Env) (h : Bound s) (openid : String) (unionid : Option String)
    (clock : ℕ → String) :
    ∃ user t, (Users.findOrCreateUser ⟨openid, unionid, none, none, none⟩ clock).run s =
        (.ok user, t) ∧ (∃ n : ℕ, user.get "id" = .num (.ofNat n)) ∧ Bound t ∧
      (Saved env s → Saved env t) ∧
      (SameTables s t ↔ ∃ u, s.findOne .users (Users.hasOpenid openid) = some u ∧
        (Users.loginUpdates ⟨openid, unionid, none, none, none⟩ u).entries = []) := by
  unfold Users.findOrCreateUser Act.findOne
  rw [Action.run_reads_bind]
  cases hf : s.findOne .users (Users.hasOpenid openid) with
  | none =>
    refine ⟨_, _, rfl, ⟨_, get_newRow_id _ _ _⟩, h.insertUser _ _, fun hs => saved_apply hs
      (.insert .users _) _, fun hsame => ?_, fun ⟨u, hu, _⟩ => (nomatch hu)⟩
    have hrows := hsame.rows .users
    rw [Store.rows_insert, if_pos rfl] at hrows
    exact absurd (List.append_right_eq_self.mp hrows) (List.cons_ne_nil _ _)
  | some u =>
    obtain ⟨hmem, _⟩ := mem_of_findOne hf
    obtain ⟨n, hn, _⟩ := h.issued.values u hmem
    dsimp only
    split
    · rename_i hnil
      exact ⟨u, s, rfl, ⟨n, hn⟩, h, fun hs => hs, fun _ => ⟨u, rfl, hnil⟩, fun _ => .refl s⟩
    · rename_i hne
      have hid : (Users.loginUpdates ⟨openid, unionid, none, none, none⟩ u).has "id" = false :=
        loginUpdates_has _ u (by decide)
      refine ⟨_, _, rfl, ⟨n, ?_⟩, h.updateUser hid _ _, fun hs => saved_apply hs
        (.update .users (u.get "id") _) _, fun hsame => ?_, fun ⟨u', hu', hnil⟩ => ?_⟩
      · rw [Dict.get_spread, hid]
        exact hn
      · have hrows := hsame.rows .users
        rw [Store.rows_update, if_pos rfl] at hrows
        have hall := List.forall₂_same.mpr fun (a : Row) (_ : a ∈ s.cache.rows .users) =>
          (rfl : a = a)
        nth_rewrite 2 [← hrows] at hall
        have heq := (forall₂_modifyFirst_iff (R := Eq) (fun _ => rfl) (s.cache.rows .users)).mp
          hall u (h.issued.find hmem)
        rw [loginUpdates_callback] at hne heq
        exact absurd heq.symm (merged_callback_ne hne _)
      · cases hu'
        exact absurd hnil hne

/-- How the callback ends. -/
theorem run_callback (env : Env) (h : Bound s) (cookies openid : String) (unionid : Option String)
    (at_ : Moment) :
    ∃ res t, (AuthRoutes.oauthCallbackOr cookies (.identified openid unionid) at_).run s =
        (.ok res, t) ∧ Bound t ∧ (Saved env s → Saved env t) ∧
      (400 ≤ res.status ↔ ∃ e, AuthRoutes.getCookie cookies "oauth_redirect" = .error e) ∧
      (SameTables s t ↔ ∃ u, s.findOne .users (Users.hasOpenid openid) = some u ∧
        (Users.loginUpdates ⟨openid, unionid, none, none, none⟩ u).entries = []) := by
  obtain ⟨user, t, hrun, ⟨n, hn⟩, ht, hsaved, hsame⟩ := run_findOrCreateUser env h openid unionid at_.clock
  have hsub : AuthRoutes.subject user = .ok (.str (JsNum.ofNat n).toText) := by
    unfold AuthRoutes.subject
    rw [hn]
    rfl
  unfold AuthRoutes.oauthCallbackOr
  rw [Action.run_attempt]
  dsimp only
  rw [Action.run_bind, hrun]
  dsimp only
  rw [Action.run_bind, Action.run_lift, hsub]
  dsimp only
  rw [Action.run_bind, Action.run_lift]
  cases hc : AuthRoutes.getCookie cookies "oauth_redirect" with
  | ok redirect =>
    refine ⟨_, t, rfl, ht, hsaved, ⟨fun hs => ?_, fun ⟨e, he⟩ => (nomatch he)⟩, hsame⟩
    exact absurd hs (by decide : ¬400 ≤ 302)
  | error e =>
    exact ⟨_, t, rfl, ht, hsaved, ⟨fun _ => ⟨e, rfl⟩, fun _ => (by decide : 400 ≤ 500)⟩, hsame⟩

end

/-- The requests that flush or decode a cookie behind their writes. -/
inductive Request.MayThrow : Request → Prop where
  | importProperties (upload : PropertyRoutes.Upload) : MayThrow (.admin true (.importProperties upload))
  | miniLogin (answer : AuthRoutes.MiniAnswer) : MayThrow (.anyone (.miniLogin answer))
  | oauthCallback (answer : AuthRoutes.OauthAnswer) : MayThrow (.anyone (.oauthCallback answer))

namespace Request

variable {r : Request}

theorem handleOr_of_not (h : ¬r.MayThrow) (o : Outside) (env : Env) (at_ : Moment) :
    r.handleOr o env at_ = r.handle env at_ := by
  unfold handleOr
  split
  · exact absurd (.importProperties _) h
  · exact absurd (.miniLogin _) h
  · exact absurd (.oauthCallback _) h
  · rfl

theorem not_leavesRows (h : ¬r.MayThrow) (o : Outside) (s : Store) : ¬r.LeavesRows o s := by
  unfold LeavesRows
  split
  · exact absurd (.importProperties _) h
  · exact absurd (.miniLogin _) h
  · exact absurd (.oauthCallback _) h
  · exact not_false

/-- No other request writes users or identities. -/
theorem not_mem_tables (h : ¬r.MayThrow) : .users ∉ r.tables ∧ .userIdentities ∉ r.tables := by
  unfold tables
  split
  case h_21 answer => exact absurd (.oauthCallback answer) h
  case h_22 answer => exact absurd (.miniLogin answer) h
  all_goals exact ⟨by decide, by decide⟩

end Request

namespace Server

/-- How a request ends, whatever throws. -/
structure Ends (o : Outside) (env : Env) (r : Request) (at_ : Moment) (s : Store) : Prop where
  bound : Bound (serveOr o env r at_ s)
  saved : Saved env (serveOr o env r at_ s)
  clean : r.tables ≠ [] → (FailsCleanly o env r at_ s ↔ ¬r.LeavesRows o s)

section
variable {o : Outside} {env : Env} {r : Request} {at_ : Moment} {s : Store}

theorem ends_of_run {res : Response} {t : Store} (hrun : (r.handleOr o env at_).run s = (.ok res, t))
    (ht : Bound t) (hsaved : Saved env t)
    (hc : (400 ≤ res.status → SameTables s t) ↔ ¬r.LeavesRows o s) : Ends o env r at_ s := by
  have hserve : serveOr o env r at_ s = t := congrArg Prod.snd hrun
  have hanswer : answerOr o env r at_ s = .ok res := congrArg Prod.fst hrun
  refine ⟨hserve ▸ ht, hserve ▸ hsaved, fun _ => ?_⟩
  unfold FailsCleanly
  rw [hserve, hanswer]
  exact hc

/-- Nothing is written. -/
theorem ends_of_refused (hb : Bound s) (hs : Saved env s) {res : Response}
    (hrun : (r.handleOr o env at_).run s = (.ok res, s)) (hl : ¬r.LeavesRows o s) :
    Ends o env r at_ s :=
  ends_of_run hrun hb hs ⟨fun _ => hl, fun _ _ => .refl s⟩

theorem ends_import (hb : Bound s) (hs : Saved env s) (upload : PropertyRoutes.Upload) :
    Ends o env (.admin true (.importProperties upload)) at_ s := by
  cases upload with
  | missing => exact ends_of_refused hb hs rfl not_false
  | unreadable message => exact ends_of_refused hb hs rfl not_false
  | noSheet => exact ends_of_refused hb hs rfl not_false
  | sheet headers rows =>
    by_cases hne : PropertyRoutes.importRows headers rows = []
    · have hl : ¬(Request.admin true (.importProperties (.sheet headers rows))).LeavesRows o s :=
        fun hl => hl.2 hne
      have hrun : (PropertyRoutes.importSheetOr o.fault (.sheet headers rows) at_).run s =
          (.ok (.error 400 "未找到有效数据（小区名称不能为空）"), s) := by
        unfold PropertyRoutes.importSheetOr adminGuarded
        rw [Action.run_attempt]
        dsimp only
        rw [if_pos hne]
        rfl
      exact ends_of_refused hb hs hrun hl
    · obtain ⟨res, t, hrun, hres, hsaved, hgrown, hothers⟩ := run_import env o.fault hne at_ s
      obtain ⟨hu, hun⟩ := hothers .users (by decide)
      have ht : Bound t := by
        refine ⟨hb.issued.of_rows hu id hun, ?_⟩
        rw [hu, (hothers .userIdentities (by decide)).1]
        exact hb.named
      refine ends_of_run hrun ht hsaved ⟨fun hc hl => ?_, fun hl hf => ?_⟩
      · exact hgrown ((hc (hres.mp hl.1)).rows .properties)
      · exact absurd ⟨hres.mpr hf, hne⟩ hl

theorem ends_miniLogin (hb : Bound s) (hs : Saved env s) (answer : AuthRoutes.MiniAnswer) :
    Ends o env (.anyone (.miniLogin answer)) at_ s := by
  cases answer with
  | badRequest issue => exact ends_of_refused hb hs rfl not_false
  | notConfigured => exact ends_of_refused hb hs rfl not_false
  | refused message => exact ends_of_refused hb hs rfl not_false
  | failed => exact ends_of_refused hb hs rfl not_false
  | session openid sessionKey unionid =>
    obtain ⟨res, t, hrun, ht, hsaved, hres, hgrown⟩ :=
      run_miniLogin env hb o.fault openid sessionKey unionid at_
    refine ends_of_run hrun ht (hsaved hs) ⟨fun hc hl => ?_, fun hl hf => ?_⟩
    · exact hgrown hl.2 ((hc (hres.mpr hl)).rows .userIdentities)
    · exact absurd (hres.mp hf) hl

theorem ends_oauthCallback (hb : Bound s) (hs : Saved env s) (answer : AuthRoutes.OauthAnswer) :
    Ends o env (.anyone (.oauthCallback answer)) at_ s := by
  cases answer with
  | missingCode => exact ends_of_refused hb hs rfl not_false
  | failed => exact ends_of_refused hb hs rfl not_false
  | noOpenid => exact ends_of_refused hb hs rfl not_false
  | identified openid unionid =>
    obtain ⟨res, t, hrun, ht, hsaved, hres, hsame⟩ :=
      run_callback env hb o.cookies openid unionid at_
    refine ends_of_run hrun ht (hsaved hs) ⟨fun hc hl => ?_, fun hl hf => ?_⟩
    · obtain ⟨u, hu, hnil⟩ := hsame.mp (hc (hres.mpr hl.1))
      exact hl.2 u hu hnil
    · refine hsame.mpr ?_
      by_contra hno
      exact hl ⟨hres.mp hf, fun u hu hnil => hno ⟨u, hu, hnil⟩⟩

theorem ends (hb : Bound s) (hs : Saved env s) (o : Outside) (r : Request) (at_ : Moment) :
    Ends o env r at_ s := by
  by_cases hr : r.MayThrow
  · cases hr with
    | importProperties upload => exact ends_import hb hs upload
    | miniLogin answer => exact ends_miniLogin hb hs answer
    | oauthCallback answer => exact ends_oauthCallback hb hs answer
  · have hserve : serveOr o env r at_ s = serve env r at_ s := by
      unfold serveOr serve
      rw [Request.handleOr_of_not hr]
    have hanswer : answerOr o env r at_ s = answer env r at_ s := by
      unfold answerOr answer
      rw [Request.handleOr_of_not hr]
    obtain ⟨hu, hi⟩ := Request.not_mem_tables hr
    have hku := serve_sameRows env hu at_ s
    have hki := serve_sameRows env hi at_ s
    refine ⟨?_, hserve ▸ saved_serve hs r at_, fun hw => ?_⟩
    · rw [hserve]
      refine ⟨hb.issued.perm hku.perm hku.next, ?_⟩
      rw [hku.rows rfl, hki.rows rfl]
      exact hb.named
    · refine ⟨fun _ => Request.not_leavesRows hr o s, fun _ hf => ?_⟩
      rw [hanswer] at hf
      rw [hserve]
      refine (clean_handle hw ?_ ?_ ?_).sameTables hf
      · rintro upload rfl
        exact hr (.importProperties upload)
      · rintro answer rfl
        exact hr (.oauthCallback answer)
      · rintro answer rfl
        exact hr (.miniLogin answer)

end

theorem bound_restart {env : Env} {s : Store} (hb : Bound s) (hs : Saved env s) (loadedAt : String)
    (clock : ℕ → String) : Bound (restart loadedAt clock s) := by
  obtain ⟨users, _, hu, hru⟩ := rows_restart hs (t := .users) (by decide) (by decide) loadedAt clock
  obtain ⟨ids, _, hi, hri⟩ :=
    rows_restart hs (t := .userIdentities) (by decide) (by decide) loadedAt clock
  refine ⟨issued_restart hs hb.issued loadedAt clock, fun i hmem => ?_⟩
  rw [hri, hi rfl] at hmem
  obtain ⟨old, hold, rfl⟩ := List.mem_map.mp hmem
  obtain ⟨u, humem, hid⟩ := List.mem_map.mp (hb.named old hold)
  rw [hru, hu rfl]
  refine List.mem_map.mpr ⟨u.viaJson, List.mem_map_of_mem humem, ?_⟩
  rw [Dict.get_viaJson, Dict.get_viaJson, hid]

theorem bound_start (loadedAt : String) (clock : ℕ → String) :
    Bound (start loadedAt clock .empty) := by
  refine ⟨issued_start loadedAt clock .users, fun i hi => ?_⟩
  unfold start at hi
  rw [rows_initDefaultData_of_ne (by decide) (by decide)] at hi
  cases hi

theorem bound_saved_step {env : Env} {s s' : Store} {e : FaultyEvent} (h : Bound s ∧ Saved env s)
    (hs : stepOr env s e = some s') : Bound s' ∧ Saved env s' := by
  cases e with
  | request o r at_ =>
    cases hs
    have he := ends h.1 h.2 o r at_
    exact ⟨he.bound, he.saved⟩
  | timer now =>
    refine ⟨?_, saved_step (e := .timer now) h.2 hs⟩
    simp only [stepOr, step] at hs
    split at hs
    · cases hs
      exact h.1.of_sameTables (.flushNow s now)
    · cases hs
  | flush now =>
    refine ⟨?_, saved_step (e := .flush now) h.2 hs⟩
    cases hs
    exact h.1.of_sameTables (.flushNow s now)
  | restart loadedAt clock =>
    refine ⟨?_, saved_step (e := .restart loadedAt clock) h.2 hs⟩
    cases hs
    exact bound_restart h.1 h.2 loadedAt clock

theorem bound_saved_run {env : Env} {loadedAt : String} {clock : ℕ → String}
    {es : List FaultyEvent} {s : Store}
    (hr : run (stepOr env) (start loadedAt clock .empty) es = some s) : Bound s ∧ Saved env s := by
  have hok : Along (stepOr env) (fun _ _ => True) (start loadedAt clock .empty) es :=
    .of_forall (stepOr env) (fun _ _ => trivial) _ es
  exact run_invariant (stepOr env) (fun s => Bound s ∧ Saved env s)
    (fun _ _ _ hi _ hs => bound_saved_step hi hs) ⟨bound_start loadedAt clock, saved_start _ _⟩ hok hr

/-- After every run a write request that is answered with an error has left every table and every
counter as it was, exactly when nothing threw behind its writes. -/
theorem failed_request_unchanged_iff {env : Env} {loadedAt : String} {clock : ℕ → String}
    {es : List FaultyEvent} {s : Store}
    (hr : run (stepOr env) (start loadedAt clock .empty) es = some s) (o : Outside) {r : Request}
    (hw : r.tables ≠ []) (at_ : Moment) :
    FailsCleanly o env r at_ s ↔ ¬r.LeavesRows o s := by
  obtain ⟨hb, hs⟩ := bound_saved_run hr
  exact (ends hb hs o r at_).clean hw

/-- The file system while the disk is full: the tmp file is not written. -/
def diskFull : Outside := ⟨some ⟨.writeFileSync none, ⟨"Error", "ENOSPC"⟩⟩, ""⟩

/-- A sheet with one property. -/
def oneProperty : PropertyRoutes.Upload :=
  .sheet [⟨1, .plain (.text "小区名称"), ""⟩] [[⟨1, .plain (.text "静安府"), ""⟩]]

/-- A mini login meets the full disk and leaves its rows unsaved; the requests after it that do not
flush do not meet it. -/
theorem failed_request_unchanged_full :
    let es : List FaultyEvent :=
      [.request diskFull (.anyone (.miniLogin (.session "o" "k" none))) (moment "t2")]
    let r : Request := .admin true (.createCategory (.ofList [("name", .str "a")]))
    ∃ s, run (stepOr .plain) (start "t0" (fun _ => "t1") .empty) es = some s ∧
      FailsCleanly diskFull .plain r (moment "t3") s := by
  intro es r
  obtain ⟨s, hs⟩ : ∃ s, run (stepOr .plain) (start "t0" (fun _ => "t1") .empty) es = some s :=
    ⟨_, rfl⟩
  have hw : r.tables ≠ [] := by decide
  exact ⟨s, hs, (failed_request_unchanged_iff hs diskFull hw (moment "t3")).mpr not_false⟩

/-- An import is answered with 500 while the disk is full, yet its row is in the table; tried
again, it is there twice. -/
theorem failed_import_leaves_row :
    let s := start "t0" (fun _ => "t1") .empty
    let r : Request := .admin true (.importProperties oneProperty)
    let s' := serveOr diskFull .plain r (moment "t2") s
    (∃ body, answerOr diskFull .plain r (moment "t2") s = .ok ⟨500, body⟩) ∧
    (s.cache.rows .properties).length = 0 ∧ (s'.cache.rows .properties).length = 1 ∧
    ((serveOr ⟨none, ""⟩ .plain r (moment "t3") s').cache.rows .properties).length = 2 ∧
    ¬FailsCleanly diskFull .plain r (moment "t2") s := by
  intro s r s'
  have hanswer : ∃ body, answerOr diskFull .plain r (moment "t2") s = .ok ⟨500, body⟩ := ⟨_, rfl⟩
  have hbefore : (s.cache.rows .properties).length = 0 := rfl
  have hafter : (s'.cache.rows .properties).length = 1 := by decide
  refine ⟨hanswer, hbefore, hafter, by decide, fun hclean => ?_⟩
  obtain ⟨body, hbody⟩ := hanswer
  have hfailed : Failed (answerOr diskFull .plain r (moment "t2") s) := by
    rw [hbody]
    exact (by decide : 400 ≤ 500)
  have hrows := (hclean hfailed).rows .properties
  rw [show (s'.cache.rows .properties) = s.cache.rows .properties from hrows, hbefore] at hafter
  cases hafter

end Server

end JtfpMall
