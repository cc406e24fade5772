import JtfpMall.Server.Permitted

/-!
# What a request does to the store

Handler by handler, the writing requests have only the effects they are permitted,
and the two handlers that flush do so after their last write.
-/

namespace JtfpMall

open JtfpMall.Js
open JtfpMall.Js.JsVal (storable_str storable_null storable_fin)
open JtfpMall.Lib

/-- From `s` the program has effects of the given kind, and at most a flush after them. -/
def Serves (env : Env) (W : Write → Prop) (L : Table → Prop) {α : Type} (s : Store) (m : Act α) : Prop :=
  ∃ s', Effects env W L s s' ∧ ((m.run s).2 = s' ∨ ∃ now, (m.run s).2 = s'.flushNow now)

section
variable {env : Env} {W : Write → Prop} {L : Table → Prop} {α β : Type} {s : Store}

theorem serves_of_leads {m : Act α} (h : Action.Leads (Effect env W L) s m) : Serves env W L s m :=
  ⟨(m.run s).2, h, Or.inl rfl⟩

theorem serves_attempt {m : Act α} {f : JsError → α} (h : Serves env W L s m) :
    Serves env W L s (m.attempt f) := by
  obtain ⟨s', hs, hm⟩ := h
  refine ⟨s', hs, ?_⟩
  rw [Action.snd_run_attempt]
  exact hm

theorem serves_bind {m : Act α} {f : α → Act β} (hm : Action.Leads (Effect env W L) s m)
    (hf : ∀ a s', m.run s = (.ok a, s') → Serves env W L s' (f a)) : Serves env W L s (m >>= f) := by
  unfold Serves
  rw [Action.run_bind]
  cases hr : m.run s with
  | mk x s' =>
    have hm : Effects env W L s s' := by
      have h := hm
      unfold Action.Leads at h
      rwa [hr] at h
    cases x with
    | ok a =>
      obtain ⟨s'', hs, he⟩ := hf a s' hr
      exact ⟨s'', hm.trans hs, he⟩
    | error e => exact ⟨s', hm, Or.inl rfl⟩

/-- What follows and only reads changes nothing. -/
theorem serves_then {m : Act α} {f : α → Act β} (hm : Serves env W L s m)
    (hf : ∀ a s', ((f a).run s').2 = s') : Serves env W L s (m >>= f) := by
  obtain ⟨s', hs, he⟩ := hm
  refine ⟨s', hs, ?_⟩
  have hrun : ((m >>= f).run s).2 = (m.run s).2 := by
    rw [Action.run_bind]
    cases m.run s with
    | mk x s'' =>
      cases x with
      | ok a => exact hf a s''
      | error e => rfl
  rw [hrun]
  exact he

/-- A flush may be followed by reading only. -/
theorem serves_flush {f : Unit → Act β} (now : String)
    (hf : ((f ()).run (s.flushNow now)).2 = s.flushNow now) :
    Serves env W L s (Act.flushNow now >>= f) := ⟨s, .refl, Or.inr ⟨now, hf⟩⟩

end

section
variable {env : Env} {W : Write → Prop} {L : Table → Prop}

theorem calm_createOrder (userId : UserId) (body : JsVal) (at_ : Moment)
    (h : ∀ b, env.createOrderReq body = .ok b →
      W (.insert .orders (Orders.newOrder (OrderRoutes.orderData userId b)
        (Orders.generateOrderNo at_.time at_.draw)))) :
    Calm env W L (OrderRoutes.create env userId body at_) := by
  unfold OrderRoutes.create
  refine calm_guarded ?_
  cases hb : env.createOrderReq body with
  | error issue => exact calm_pure _
  | ok b => exact calm_bind (calm_insert (h b hb)) fun _ => calm_pure _

theorem calm_updateOrder (orderNo : String) (data : Row) (now : String)
    (h : ∀ id, W (.update .orders id data)) : Calm env W L (Orders.update orderNo data now) := by
  refine calm_bind (calm_findByOrderNo orderNo) fun found => ?_
  cases found with
  | none => exact calm_pure _
  | some order => exact calm_update (h _)

theorem calm_updateStatus (orderNo : String) (status : JsVal) (now : String)
    (h : ∀ id, W (.update .orders id (.ofList [("status", status)]))) :
    Calm env W L (Orders.updateStatus orderNo status now) := by
  refine calm_bind (calm_findByOrderNo orderNo) fun found => ?_
  cases found with
  | none => exact calm_pure _
  | some order => exact calm_update (h _)

theorem leads_cancel (userId : UserId) (orderNo : String) (at_ : Moment) (s : Store)
    (hu : ∀ id, W (.update .orders id (.ofList [("status", .str "CANCELLED")])))
    (hl : ∀ order, s.findOne .orders (Orders.hasNo orderNo) = some order →
      W (.insert .orderChangeLogs
        (Orders.changeLog orderNo "status" (order.get "status") (.str "CANCELLED") "user"))) :
    Action.Leads (Effect env W L) s (OrderRoutes.cancel userId orderNo at_) := by
  unfold OrderRoutes.cancel
  refine Action.leads_attempt (Action.leads_reads_bind ?_)
  cases h : s.findOne .orders (Orders.hasNo orderNo) with
  | none => exact Action.leads_pure _
  | some order =>
    refine calm_ite (fun _ => calm_pure _) (fun _ => ?_) s
    refine calm_ite (fun _ => calm_pure _) (fun _ => ?_)
    refine calm_bind (calm_updateStatus _ _ _ hu) fun _ => ?_
    exact calm_bind (calm_insert (hl order h)) fun _ => calm_pure _

theorem calm_cancelMine (userId : UserId) (orderNo : String) (at_ : Moment)
    (hu : ∀ id, W (.update .orders id (.ofList [("status", .str "CANCELLED")]))) :
    Calm env W L (OrderRoutes.cancelMine userId orderNo at_) := by
  refine calm_guarded (calm_bind (calm_findByOrderNo orderNo) fun found => ?_)
  cases found with
  | none => exact calm_pure _
  | some order =>
    refine calm_ite (fun _ => calm_pure _) fun _ => calm_ite (fun _ => calm_pure _) fun _ => ?_
    exact calm_bind (calm_updateStatus _ _ _ hu) fun _ => calm_pure _

theorem leads_adminStatus (orderNo : String) (body : Row) (at_ : Moment) (s : Store)
    (hu : ∀ id, W (.update .orders id (.ofList [("status", body.get "status")])))
    (hl : ∀ order, s.findOne .orders (Orders.hasNo orderNo) = some order →
      W (.insert .orderChangeLogs
        (Orders.changeLog orderNo "status" (order.get "status") (body.get "status") "admin"))) :
    Action.Leads (Effect env W L) s (AdminOrderRoutes.updateStatus orderNo body at_) := by
  unfold AdminOrderRoutes.updateStatus
  refine Action.leads_attempt (Action.leads_reads_bind ?_)
  cases h : s.findOne .orders (Orders.hasNo orderNo) with
  | none => exact Action.leads_pure _
  | some order =>
    refine calm_bind (calm_updateStatus _ _ _ hu) (fun _ => ?_) s
    exact calm_bind (calm_insert (hl order h)) fun _ => calm_pure _

theorem leads_adminRemark (orderNo : String) (body : Row) (at_ : Moment) (s : Store)
    (hu : ∀ id, W (.update .orders id (.ofList [("remark", body.get "remark")])))
    (hl : ∀ order, s.findOne .orders (Orders.hasNo orderNo) = some order →
      W (.insert .orderChangeLogs (Orders.changeLog orderNo "remark"
        ((order.get "remark").or (.str "")) ((body.get "remark").or (.str "")) "admin"))) :
    Action.Leads (Effect env W L) s (AdminOrderRoutes.updateRemark orderNo body at_) := by
  unfold AdminOrderRoutes.updateRemark
  refine Action.leads_attempt (Action.leads_reads_bind ?_)
  cases h : s.findOne .orders (Orders.hasNo orderNo) with
  | none => exact Action.leads_pure _
  | some order =>
    refine calm_bind (calm_updateOrder _ _ _ hu) (fun _ => ?_) s
    exact calm_bind (calm_insert (hl order h)) fun _ => calm_pure _

theorem calm_deleteOrder (orderNo : String)
    (hi : W (.removeWhere .orderItems (Orders.hasNo orderNo)))
    (ho : ∀ id, W (.remove .orders id)) : Calm env W L (AdminOrderRoutes.delete orderNo) := by
  refine calm_adminGuarded (calm_bind (calm_findByOrderNo orderNo) fun found => ?_)
  cases found with
  | none => exact calm_pure _
  | some _ =>
    refine calm_bind (calm_bind (calm_findByOrderNo orderNo) fun found => ?_) fun _ => calm_pure _
    cases found with
    | none => exact calm_pure _
    | some order => exact calm_bind (calm_removeWhere hi) fun _ => calm_remove (ho _)

theorem calm_updateProduct (id : String) (body : Row) (at_ : Moment)
    (h : W (.update .products (.num (parseInt id)) body)) :
    Calm env W L (CatalogueRoutes.updateProduct id body at_) := by
  refine calm_adminGuarded (calm_bind (calm_findById _ _) fun found => ?_)
  cases found with
  | none => exact calm_pure _
  | some _ => exact calm_bind (calm_update h) fun _ => calm_pure _

theorem calm_deleteProduct (id : String)
    (hs : W (.removeWhere .productSkus (Products.ofProduct (.num (parseInt id)))))
    (hp : W (.remove .products (.num (parseInt id)))) :
    Calm env W L (CatalogueRoutes.deleteProduct id) := by
  refine calm_adminGuarded (calm_bind ?_ fun _ => calm_pure _)
  exact calm_bind (calm_removeWhere hs) fun _ => calm_remove hp

theorem calm_createCategory (body : Row) (at_ : Moment)
    (h : W (.insert .categories (Categories.newCategory (body.get "name")
      ((body.get "icon").or .undefined) ((body.get "sort_order").or (.num (.fin 0)))
      ((body.get "status").orNullish (.num (.fin 1)))))) :
    Calm env W L (CatalogueRoutes.createCategory body at_) := by
  refine calm_adminGuarded (calm_ite (fun _ => calm_pure _) fun _ => ?_)
  exact calm_bind (calm_insert h) fun _ => calm_pure _

theorem calm_updateCategory (id : String) (body : Row) (at_ : Moment)
    (h : W (.update .categories (.num (stringToNumber id))
      (Categories.cleanData (CatalogueRoutes.categoryUpdates body)))) :
    Calm env W L (CatalogueRoutes.updateCategory id body at_) := by
  refine calm_adminGuarded (calm_bind (calm_findById _ _) fun found => ?_)
  cases found with
  | none => exact calm_pure _
  | some _ => exact calm_bind (calm_update h) fun _ => calm_pure _

theorem calm_deleteCategory (id : String) (h : W (.remove .categories (.num (stringToNumber id)))) :
    Calm env W L (CatalogueRoutes.deleteCategory id) := by
  refine calm_adminGuarded (calm_bind (calm_bind (calm_findOne _ _) fun _ => calm_pure _) fun _ => ?_)
  refine calm_ite (fun _ => calm_pure _) fun _ => ?_
  exact calm_bind (calm_remove h) fun _ => calm_pure _

theorem calm_createProperty (body : Row) (at_ : Moment)
    (h : ∀ data, PropertyRoutes.withShopFields body = .ok data →
      W (.insert .properties (Properties.newProperty data))) :
    Calm env W L (PropertyRoutes.create body at_) := by
  refine calm_adminGuarded (calm_ite (fun _ => calm_pure _) fun _ => fun s => ?_)
  refine Action.leads_lift_bind fun data hd => ?_
  exact calm_bind (calm_insert (h data hd)) (fun _ => calm_pure _) s

theorem calm_updateProperty (id : String) (body : Row) (at_ : Moment)
    (h : ∀ data, PropertyRoutes.withShopFields body = .ok data →
      W (.update .properties (.num (stringToNumber id)) data)) :
    Calm env W L (PropertyRoutes.update id body at_) := by
  refine calm_adminGuarded (calm_bind (calm_findById _ _) fun found => ?_)
  cases found with
  | none => exact calm_pure _
  | some _ =>
    intro s
    refine Action.leads_lift_bind fun data hd => ?_
    exact calm_bind (calm_update (h data hd)) (fun _ => calm_pure _) s

theorem calm_deleteProperty (id : String) (h : W (.remove .properties (.num (stringToNumber id)))) :
    Calm env W L (PropertyRoutes.delete id) := by
  refine calm_adminGuarded (calm_bind (calm_findById _ _) fun found => ?_)
  cases found with
  | none => exact calm_pure _
  | some _ => exact calm_bind (calm_remove h) fun _ => calm_pure _

theorem calm_createAll (rows : List Row) (clock : ℕ → String)
    (h : ∀ row ∈ rows, W (.insert .properties (Properties.newProperty row))) :
    Calm env W L (Properties.createAll rows clock) := by
  induction rows generalizing clock with
  | nil => exact calm_pure _
  | cons row rows ih =>
    refine calm_bind (calm_insert (h row List.mem_cons_self)) fun _ => ?_
    exact ih _ fun r hr => h r (List.mem_cons_of_mem row hr)

/-- The import flushes once, after the last row. -/
theorem serves_import (upload : PropertyRoutes.Upload) (at_ : Moment) (s : Store)
    (h : ∀ headers cells, W (.insert .properties (Properties.newProperty
      (PropertyRoutes.importRow headers cells)))) :
    Serves env W L s (PropertyRoutes.importSheet upload at_) := by
  refine serves_attempt ?_
  cases upload with
  | missing => exact serves_of_leads (Action.leads_pure _)
  | unreadable message => exact serves_of_leads (Action.leads_pure _)
  | noSheet => exact serves_of_leads (Action.leads_pure _)
  | sheet headers rows =>
    dsimp only
    split
    · exact serves_of_leads (Action.leads_pure _)
    · have hrows : ∀ row ∈ PropertyRoutes.importRows headers rows,
          W (.insert .properties (Properties.newProperty row)) := by
        intro row hrow
        obtain ⟨cells, _, rfl⟩ := List.mem_map.mp (List.mem_of_mem_filter hrow)
        exact h _ cells
      refine serves_then ?_ fun _ _ => rfl
      exact serves_bind (calm_createAll _ _ hrows s) fun _ s' _ => serves_flush _ rfl

theorem snd_run_validateCode (code : JsVal) (now : String) (s : Store) :
    ((WelfareCodes.validateCode code now).run s).2 = s := by
  unfold WelfareCodes.validateCode WelfareCodes.findByCode Act.findOne
  rw [Action.run_reads_bind]
  cases s.findOne .welfareCodes (WelfareCodes.hasCode code) with
  | none => rfl
  | some wc => rfl

theorem leads_useCode (code : JsVal) (now : String) (s : Store)
    (h : ∀ wc, s.findOne .welfareCodes (WelfareCodes.hasCode code) = some wc →
      ∀ v, (wc.get "used_count").add (.num (.fin 1)) = .ok v →
      W (.update .welfareCodes (wc.get "id") (.ofList [("used_count", v)]))) :
    Action.Leads (Effect env W L) s (WelfareCodes.useCode code now) := by
  unfold WelfareCodes.useCode
  refine Action.leads_reads_bind ?_
  cases hw : s.findOne .welfareCodes (WelfareCodes.hasCode code) with
  | none => exact Action.leads_pure _
  | some wc =>
    refine Action.leads_lift_bind fun used _ => ?_
    refine calm_ite (fun _ => calm_pure _) (fun _ => ?_) s
    intro s
    refine Action.leads_lift_bind fun v hv => ?_
    exact calm_update (h wc hw v hv) s

theorem leads_use (body : JsVal) (at_ : Moment) (s : Store)
    (h : ∀ code, env.validateReq body = .ok code →
      ∀ wc, s.findOne .welfareCodes (WelfareCodes.hasCode (.str code)) = some wc →
      ∀ v, (wc.get "used_count").add (.num (.fin 1)) = .ok v →
      W (.update .welfareCodes (wc.get "id") (.ofList [("used_count", v)]))) :
    Action.Leads (Effect env W L) s (WelfareRoutes.use env body at_) := by
  unfold WelfareRoutes.use
  refine Action.leads_attempt ?_
  cases hb : env.validateReq body with
  | error issue => exact Action.leads_pure _
  | ok code =>
    refine Action.leads_bind (calm_validateCode _ _ s) fun result s' hr => ?_
    have hs : s' = s := by
      have h2 := snd_run_validateCode (.str code) (at_.clock 0) s
      rwa [hr] at h2
    subst hs
    cases result with
    | refused message => exact Action.leads_pure _
    | valid wc =>
      refine Action.leads_bind (leads_useCode _ _ _ (h code hb)) fun _ _ _ => ?_
      exact Action.leads_pure _

theorem calm_updateWelfareCode (id : String) (body : Row) (at_ : Moment)
    (h : W (.update .welfareCodes (.num (parseInt id)) body)) :
    Calm env W L (WelfareRoutes.update id body at_) := by
  refine calm_adminGuarded (calm_bind (calm_findById _ _) fun found => ?_)
  cases found with
  | none => exact calm_pure _
  | some _ => exact calm_bind (calm_update h) fun _ => calm_pure _

theorem calm_deleteWelfareCode (id : String)
    (hi : W (.removeWhere .welfareCodeItems (WelfareCodes.ofCode (.num (parseInt id)))))
    (hw : W (.remove .welfareCodes (.num (parseInt id)))) :
    Calm env W L (WelfareRoutes.delete id) := by
  refine calm_adminGuarded (calm_bind ?_ fun _ => calm_pure _)
  exact calm_bind (calm_removeWhere hi) fun _ => calm_remove hw

theorem leads_findOrCreateUser (params : Users.Params) (clock : ℕ → String) (s : Store)
    (hu : ∀ id user, W (.update .users id (Users.loginUpdates params user)))
    (hi : W (.insert .users (Users.newUser params))) :
    Action.Leads (Effect env W L) s (Users.findOrCreateUser params clock) := by
  unfold Users.findOrCreateUser
  refine Action.leads_reads_bind ?_
  cases s.findOne .users (Users.hasOpenid params.openid) with
  | none => exact calm_insert hi s
  | some user =>
    refine calm_ite (fun _ => calm_pure _) (fun _ => ?_) s
    exact calm_bind (calm_update (hu _ user)) fun _ => calm_pure _

theorem calm_userFor (unionIdentity : Option Row) (params : Users.Params) (now : String)
    (hi : W (.insert .users (Users.newUser params))) :
    Calm env W L (Users.userFor unionIdentity params now) :=
  calm_ite (fun _ => calm_pure _) fun _ => calm_bind (calm_insert hi) fun _ => calm_pure _

theorem calm_findByUnionid (params : Users.Params) : Calm env W L (Users.findByUnionid params) :=
  calm_ite (fun _ => calm_findOne _ _) fun _ => calm_pure _

/-- The binding of an identity flushes once, after its writes. -/
theorem serves_bindIdentity (provider : String) (params : Users.Params) (clock : ℕ → String)
    (s : Store) (hi : W (.insert .users (Users.newUser params)))
    (hn : ∀ userId : JsVal, (s.cache.IsPlain → userId.Storable) →
      W (.insert .userIdentities (Users.newIdentity provider params userId)))
    (hu : ∀ id (identity : Row), (s.cache.IsPlain → identity.IsPlain) →
      W (.update .userIdentities id (Users.identityUpdates params identity))) :
    Serves env W L s (Users.bindIdentity provider params clock) := by
  unfold Users.bindIdentity
  refine serves_bind (calm_findByUnionid params s) fun unionIdentity s1 h1 => ?_
  have hs1 : s1 = s ∧ ∀ r, unionIdentity = some r → s.cache.IsPlain → r.IsPlain := by
    unfold Users.findByUnionid at h1
    split at h1
    · cases h1
      exact ⟨rfl, fun r hr hp k => storable_of_find? hp hr k⟩
    · cases h1
      exact ⟨rfl, fun r hr => by cases hr⟩
  obtain ⟨rfl, hr1⟩ := hs1
  refine serves_bind (calm_userFor _ _ _ hi s1) fun userId s2 h2 => ?_
  have hs2 : (s1.cache.IsPlain → s2.cache.IsPlain) ∧ (s1.cache.IsPlain → userId.Storable) := by
    unfold Users.userFor at h2
    dsimp only at h2
    split at h2
    · cases h2
      refine ⟨fun hp => hp, fun hp => ?_⟩
      cases hx : unionIdentity with
      | none => exact storable_null
      | some r => exact hr1 r hx hp _
    · cases h2
      refine ⟨fun hp => ?_, fun _ => ?_⟩
      · exact isPlain_apply (clock 1) (w := .insert .users (Users.newUser params)) hp
          (isPlain_newUser params)
      · have hid : ((s1.insert .users (Users.newUser params) (clock 1)).1.get "id") =
            .num (.ofNat (s1.cache.next .users)) := by
          change Dict.get (Store.newRow _ _ _) "id" = _
          simp [Store.newRow, Dict.get_set]
        rw [hid]
        exact storable_fin _
  refine serves_bind ?_ fun _ s3 _ => ?_
  · unfold Users.saveIdentity
    refine Action.leads_reads_bind ?_
    cases hx : s2.findOne .userIdentities (Users.hasIdentity provider params.openid) with
    | none =>
      refine calm_bind (calm_insert (hn userId hs2.2)) (fun _ => calm_pure _) s2
    | some identity =>
      refine calm_bind (calm_update (hu _ identity fun hp k => ?_)) (fun _ => calm_pure _) s2
      exact storable_of_find? (hs2.1 hp) hx k
  · refine serves_flush _ ?_
    unfold Act.findById
    rw [Action.run_reads_bind]
    cases (s3.flushNow (clock 3)).findById .users userId with
    | none => rfl
    | some user => rfl

theorem isPlain_sessionKey (key : Option String) :
    Dict.IsPlain (.ofList [("session_key", absent key)]) := isPlain_single (storable_absent key)

theorem serves_findOrCreateUserByIdentity (provider : String) (params : Users.Params)
    (clock : ℕ → String) (s : Store) (hi : W (.insert .users (Users.newUser params)))
    (hk : ∀ id, W (.update .userIdentities id (.ofList [("session_key", absent params.sessionKey)])))
    (hn : ∀ userId : JsVal, (s.cache.IsPlain → userId.Storable) →
      W (.insert .userIdentities (Users.newIdentity provider params userId)))
    (hu : ∀ id (identity : Row), (s.cache.IsPlain → identity.IsPlain) →
      W (.update .userIdentities id (Users.identityUpdates params identity))) :
    Serves env W L s (Users.findOrCreateUserByIdentity provider params clock) := by
  unfold Users.findOrCreateUserByIdentity
  refine serves_bind (calm_findOne _ _ s) fun found s1 h1 => ?_
  cases h1
  cases s.findOne .userIdentities (Users.hasIdentity provider params.openid) with
  | none => exact serves_bindIdentity provider params clock s hi hn hu
  | some identity =>
    have hsave : Calm env W L (Users.saveSessionKey params identity (clock 0)) :=
      calm_ite (fun _ => calm_update (hk _)) fun _ => calm_pure _
    refine serves_bind (hsave s) fun _ s2 h2 => ?_
    have hs2 : s.cache.IsPlain → s2.cache.IsPlain := by
      intro hp
      unfold Users.saveSessionKey at h2
      split at h2
      · cases h2
        exact isPlain_apply (clock 0)
          (w := .update .userIdentities (identity.get "id")
            (.ofList [("session_key", absent params.sessionKey)])) hp (isPlain_sessionKey _)
      · cases h2
        exact hp
    refine serves_bind (calm_findById _ _ s2) fun user s3 h3 => ?_
    cases h3
    cases s2.findById .users (identity.get "user_id") with
    | some user => exact serves_of_leads (Action.leads_pure _)
    | none =>
      exact serves_bindIdentity provider params clock s2 hi
        (fun userId h => hn userId fun hp => h (hs2 hp))
        (fun id r h => hu id r fun hp => h (hs2 hp))

end

section
variable {env : Env} {r : Request} {s : Store} {t : Table}

theorem Permitted.insert {row : Row} (ht : t ∈ r.tables)
    (hp : r.Finite env s → s.cache.IsPlain → row.IsPlain) : Permitted env r s (.insert t row) :=
  ⟨ht, fun _ => trivial, hp⟩

theorem Permitted.update {id : JsVal} {updates : Row} (ht : t ∈ r.tables)
    (hi : updates.has "id" = false) (hp : r.Finite env s → s.cache.IsPlain → updates.IsPlain) :
    Permitted env r s (.update t id updates) := ⟨ht, fun _ => Or.inl hi, hp⟩

theorem Permitted.remove {id : JsVal} (ht : t ∈ r.tables) : Permitted env r s (.remove t id) :=
  ⟨ht, fun _ => trivial, fun _ _ => trivial⟩

theorem Permitted.removeWhere {p : Row → Bool} (ht : t ∈ r.tables) :
    Permitted env r s (.removeWhere t p) := ⟨ht, fun _ => trivial, fun _ _ => trivial⟩

end

theorem serves_user (env : Env) (at_ : Moment) (userId : UserId) (r : UserRequest) (s : Store) :
    Serves env (Permitted env (.user (some userId) r) s) ((Request.user (some userId) r).Sorts env) s
      (Request.handleUser env at_ userId r) := by
  cases r with
  | createOrder body =>
    refine serves_of_leads (calm_createOrder userId body at_ (fun b hb => ?_) s)
    refine .insert (List.mem_singleton_self _) fun hf _ => ?_
    exact isPlain_newOrder (isPlain_orderData (hf b hb)) _
  | orderStatus orderNo => exact serves_of_leads (calm_status orderNo s)
  | order orderNo => exact serves_of_leads (calm_detail userId orderNo s)
  | cancelOrder orderNo =>
    refine serves_of_leads (leads_cancel userId orderNo at_ s (fun id => ?_) fun order ho => ?_)
    · exact .update List.mem_cons_self rfl fun _ _ => isPlain_single (storable_str _)
    · refine .insert (List.mem_cons_of_mem _ List.mem_cons_self) fun _ hp => ?_
      exact isPlain_changeLog (storable_of_find? hp ho _) (storable_str _)
  | myOrders query => exact serves_of_leads (calm_mine userId query s)
  | myOrder orderNo => exact serves_of_leads (calm_myDetail userId orderNo s)
  | cancelMyOrder orderNo =>
    refine serves_of_leads (calm_cancelMine userId orderNo at_ (fun id => ?_) s)
    exact .update List.mem_cons_self rfl fun _ _ => isPlain_single (storable_str _)

theorem storable_newCategory {body : Row}
    (h : ∀ k ∈ ["name", "icon", "sort_order", "status"], (body.get k).Storable) :
    (Categories.newCategory (body.get "name") ((body.get "icon").or .undefined)
      ((body.get "sort_order").or (.num (.fin 0)))
      ((body.get "status").orNullish (.num (.fin 1)))).IsPlain := by
  refine Dict.isPlain_ofList fun p hp => ?_
  simp only [List.mem_cons, List.not_mem_nil, or_false] at hp
  rcases hp with rfl | rfl | rfl | rfl
  · exact h _ (by simp)
  · exact ((h _ (by simp)).or (Or.inl rfl)).or storable_null
  · exact ((h _ (by simp)).or (storable_fin _)).or (storable_fin _)
  · exact ((h _ (by simp)).orNullish (storable_fin _)).orNullish (storable_fin _)

theorem isPlain_cleanData {data : Row} (h : data.IsPlain) : (Categories.cleanData data).IsPlain := by
  unfold Categories.cleanData
  split
  · exact h.set "icon" (Or.inl rfl)
  · exact h

theorem isPlain_categoryUpdates {body : Row}
    (h : ∀ k ∈ ["name", "icon", "sort_order", "status"], (body.get k).Storable) :
    (CatalogueRoutes.categoryUpdates body).IsPlain := by
  refine Dict.isPlain_ofList fun p hp => ?_
  simp only [List.mem_cons, List.not_mem_nil, or_false] at hp
  rcases hp with rfl | rfl | rfl | rfl
  · exact h _ (by simp)
  · exact (h _ (by simp)).or storable_null
  · exact (h _ (by simp)).or (storable_fin _)
  · exact (h _ (by simp)).orNullish (storable_fin _)

theorem has_cleanData (body : Row) :
    (Categories.cleanData (CatalogueRoutes.categoryUpdates body)).has "id" = false := by
  unfold Categories.cleanData
  split
  · unfold Dict.has
    rw [Dict.get?_set_of_ne _ _ (by decide)]
    rfl
  · rfl

theorem serves_admin (env : Env) (at_ : Moment) (r : AdminRequest) (s : Store) :
    Serves env (Permitted env (.admin true r) s) ((Request.admin true r).Sorts env) s
      (Request.handleAdmin env at_ r) := by
  cases r with
  | orders query => exact serves_of_leads (calm_adminOrders query s)
  | order orderNo => exact serves_of_leads (calm_adminOrder orderNo s)
  | updateOrderStatus orderNo body =>
    refine serves_of_leads (leads_adminStatus orderNo body at_ s (fun id => ?_) fun order ho => ?_)
    · exact .update List.mem_cons_self rfl fun hf _ => isPlain_single hf
    · refine .insert (List.mem_cons_of_mem _ List.mem_cons_self) fun hf hp => ?_
      exact isPlain_changeLog (storable_of_find? hp ho _) hf
  | updateOrderRemark orderNo body =>
    refine serves_of_leads (leads_adminRemark orderNo body at_ s (fun id => ?_) fun order ho => ?_)
    · exact .update List.mem_cons_self rfl fun hf _ => isPlain_single hf
    · refine .insert (List.mem_cons_of_mem _ List.mem_cons_self) fun hf hp => ?_
      exact isPlain_changeLog ((storable_of_find? hp ho _).or (storable_str _))
        (JsVal.Storable.or hf (storable_str _))
  | deleteOrder orderNo =>
    refine serves_of_leads (calm_deleteOrder orderNo ?_ (fun id => ?_) s)
    · exact .removeWhere (List.mem_cons_of_mem _ List.mem_cons_self)
    · exact .remove List.mem_cons_self
  | orderStats => exact serves_of_leads (calm_orderStats s)
  | exportOrders body => exact serves_of_leads (calm_exportOrders body s)
  | products query => exact serves_of_leads (calm_adminProducts query s)
  | product id => exact serves_of_leads (calm_adminProduct id s)
  | createProduct body =>
    refine serves_of_leads (calm_adminGuarded (calm_bind (calm_insert ?_) fun _ => calm_pure _) s)
    exact .insert List.mem_cons_self fun hf _ => isPlain_newProduct hf
  | updateProduct id body =>
    refine serves_of_leads (calm_updateProduct id body at_ ?_ s)
    exact ⟨List.mem_cons_self, fun hk => hk, fun hf _ => hf⟩
  | deleteProduct id =>
    refine serves_of_leads (calm_deleteProduct id ?_ ?_ s)
    · exact .removeWhere (List.mem_cons_of_mem _ List.mem_cons_self)
    · exact .remove List.mem_cons_self
  | skuLibrary query => exact serves_of_leads (calm_skuLibrary query s)
  | skuByCode code => exact serves_of_leads (calm_skuByCode code s)
  | properties query => exact serves_of_leads (calm_adminProperties query s)
  | communities => exact serves_of_leads (calm_communities s)
  | property id => exact serves_of_leads (calm_adminProperty id s)
  | createProperty body =>
    refine serves_of_leads (calm_createProperty body at_ (fun data hd => ?_) s)
    exact .insert List.mem_cons_self fun hf _ => isPlain_newProperty (isPlain_withShopFields hf hd)
  | updateProperty id body =>
    refine serves_of_leads (calm_updateProperty id body at_ (fun data hd => ?_) s)
    exact ⟨List.mem_cons_self, fun hk => hk data hd, fun hf _ => isPlain_withShopFields hf hd⟩
  | deleteProperty id =>
    exact serves_of_leads (calm_deleteProperty id (.remove List.mem_cons_self) s)
  | importProperties upload =>
    refine serves_import upload at_ s fun headers cells => ?_
    exact .insert List.mem_cons_self fun _ _ => isPlain_newProperty (isPlain_importRow headers cells)
  | exportProperties => exact serves_of_leads (calm_exportProperties s)
  | categories => exact serves_of_leads (calm_adminCategories s)
  | createCategory body =>
    refine serves_of_leads (calm_createCategory body at_ ?_ s)
    exact .insert List.mem_cons_self fun hf _ => storable_newCategory hf
  | updateCategory id body =>
    refine serves_of_leads (calm_updateCategory id body at_ ?_ s)
    refine .update List.mem_cons_self (has_cleanData body) fun hf _ => ?_
    exact isPlain_cleanData (isPlain_categoryUpdates hf)
  | deleteCategory id =>
    exact serves_of_leads (calm_deleteCategory id (.remove List.mem_cons_self) s)
  | welfareCodes query => exact serves_of_leads (calm_adminWelfareCodes query s)
  | welfareCode id => exact serves_of_leads (calm_adminWelfareCode id s)
  | createWelfareCode body =>
    refine serves_of_leads (calm_adminGuarded (calm_bind (calm_insert ?_) fun _ => calm_pure _) s)
    exact .insert List.mem_cons_self fun hf _ => isPlain_newCode hf
  | updateWelfareCode id body =>
    refine serves_of_leads (calm_updateWelfareCode id body at_ ?_ s)
    exact ⟨List.mem_cons_self, fun hk => hk, fun hf _ => hf⟩
  | deleteWelfareCode id =>
    refine serves_of_leads (calm_deleteWelfareCode id ?_ ?_ s)
    · exact .removeWhere (List.mem_cons_of_mem _ List.mem_cons_self)
    · exact .remove List.mem_cons_self
  | validateWelfareCode body => exact serves_of_leads (calm_adminValidate body at_ s)

theorem serves_public (env : Env) (at_ : Moment) (r : PublicRequest) (s : Store) :
    Serves env (Permitted env (.anyone r) s) ((Request.anyone r).Sorts env) s
      (Request.handlePublic env at_ r) := by
  cases r with
  | products query => exact serves_of_leads (calm_products query s)
  | product id => exact serves_of_leads (calm_product id s)
  | mallProperties query => exact serves_of_leads (calm_mallProperties query s)
  | mallCategories => exact serves_of_leads (calm_mallCategories s)
  | mallProperty id => exact serves_of_leads (calm_mallProperty id s)
  | reviews query => exact serves_of_leads (calm_reviews query s)
  | reviewStats productId => exact serves_of_leads (calm_reviewStats productId s)
  | validateCode body => exact serves_of_leads (calm_validate body at_ s)
  | useCode body =>
    refine serves_of_leads (leads_use body at_ s fun code hc wc hw v hv => ?_)
    exact .update List.mem_cons_self rfl fun hf _ => isPlain_single (hf code hc wc hw v hv)
  | oauthCallback answer =>
    refine serves_attempt (serves_of_leads ?_)
    cases answer with
    | missingCode => exact Action.leads_pure _
    | failed => exact Action.leads_pure _
    | noOpenid => exact Action.leads_pure _
    | identified openid unionid =>
      refine Action.leads_bind (leads_findOrCreateUser _ _ s (fun id user => ?_) ?_)
        fun user s' _ => calm_bind (calm_lift _) (fun _ => calm_pure _) s'
      · refine .update List.mem_cons_self (loginUpdates_has _ user (by decide)) fun _ _ => ?_
        exact Dict.isPlain_ofList fun p hp => (loginUpdates_keys hp).2
      · exact .insert List.mem_cons_self fun _ _ => isPlain_newUser _
  | miniLogin answer =>
    refine serves_attempt ?_
    cases answer with
    | badRequest issue => exact serves_of_leads (Action.leads_pure _)
    | notConfigured => exact serves_of_leads (Action.leads_pure _)
    | refused message => exact serves_of_leads (Action.leads_pure _)
    | failed => exact serves_of_leads (Action.leads_pure _)
    | session openid sessionKey unionid =>
      refine serves_then ?_ fun user s' => ?_
      · refine serves_findOrCreateUserByIdentity _ _ _ s ?_ (fun id => ?_) (fun userId hu => ?_)
          fun id identity hi => ?_
        · exact .insert List.mem_cons_self fun _ _ => isPlain_newUser _
        · exact .update (List.mem_cons_of_mem _ List.mem_cons_self) rfl
            fun _ _ => isPlain_sessionKey _
        · exact .insert (List.mem_cons_of_mem _ List.mem_cons_self)
            fun _ hp => isPlain_newIdentity _ _ (hu hp)
        · exact .update (List.mem_cons_of_mem _ List.mem_cons_self) rfl
            fun _ hp => isPlain_identityUpdates (hi hp)
      · rw [Action.run_bind, Action.run_lift]
        cases AuthRoutes.subject user with
        | ok sub => rfl
        | error e => rfl

/-- A request makes permitted writes and the in-place sorts of its list, and may flush after them. -/
theorem handle_serves (env : Env) (at_ : Moment) (r : Request) (s : Store) :
    Serves env (Permitted env r s) (r.Sorts env) s (r.handle env at_) := by
  cases r with
  | user userId r =>
    cases userId with
    | none => exact serves_of_leads (Action.leads_pure _)
    | some userId => exact serves_user env at_ userId r s
  | admin authorized r =>
    cases authorized with
    | false => exact serves_of_leads (Action.leads_pure _)
    | true => exact serves_admin env at_ r s
  | anyone r => exact serves_public env at_ r s

end JtfpMall
