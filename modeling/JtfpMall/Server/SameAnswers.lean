import JtfpMall.Server.Alike

/-!
# Requests that read

Handler by handler: from alike stores, a request that writes nothing gives the same answer.
-/

namespace JtfpMall

open JtfpMall.Js
open JtfpMall.Lib
open JtfpMall.Lib.Action

theorem SameField.row (name : String) {r r' : Row} (h : SameFields r r') :
    SameField (name, .row r) (name, .row r') := ⟨rfl, .row h⟩

theorem SameField.rows (name : String) {rs rs' : List Row} (h : List.Forall₂ SameFields rs rs') :
    SameField (name, .rows rs) (name, .rows rs') := ⟨rfl, .rows h⟩

theorem Response.Same.listPage {total : ℕ} (page pageSize : JsNum)
    {fields fields' : List (String × Reply)} (h : List.Forall₂ SameField fields fields') :
    Response.Same (listPage total page pageSize fields) (listPage total page pageSize fields') :=
  .ok (List.rel_append (SameField.forall₂_refl _) h)

/-- A page of a list, as the routers answer it. -/
theorem mirrors_answerPage {m m' : Act (ℕ × List Row)} (h : Mirrors SamePage m m')
    (page pageSize : JsNum) (name : String) :
    Mirrors Response.Same (m >>= fun x => pure (listPage x.1 page pageSize [(name, .rows x.2)]))
      (m' >>= fun x => pure (listPage x.1 page pageSize [(name, .rows x.2)])) := by
  refine mirrors_bind h ?_
  rintro ⟨total, rows⟩ ⟨_, rows'⟩ ⟨rfl, hrows⟩
  exact mirrors_pure (.listPage _ _ (.cons (.rows name hrows) .nil))

theorem summary_same {r r' : Row} (h : SameFields r r') :
    Response.Same (OrderRoutes.summary r) (OrderRoutes.summary r') := by
  unfold OrderRoutes.summary
  rw [h.get]
  exact .refl _

theorem byFields_ownedBy (userId : UserId) : ByFields (OrderRoutes.ownedBy userId) := by
  intro r r' h
  unfold OrderRoutes.ownedBy
  rw [h.get]

theorem mirrors_ite {α β : Type} {R : α → β → Prop} {p : Prop} [Decidable p] {m n : Act α}
    {m' n' : Act β} (h : Mirrors R m m') (h' : Mirrors R n n') :
    Mirrors R (if p then m else n) (if p then m' else n') := by
  split
  · exact h
  · exact h'

section
variable (env : Env)

theorem mirrors_status (orderNo : String) :
    Mirrors Response.Same (OrderRoutes.status orderNo) (OrderRoutes.status orderNo) := by
  refine mirrors_guarded (mirrors_bind (mirrors_findByOrderNo orderNo) fun found found' hf => ?_)
  cases hf with
  | none => exact mirrors_pure (.refl _)
  | some h => exact mirrors_pure (summary_same h)

theorem mirrors_withItems (orderNo : String) {r r' : Row} (h : SameFields r r') :
    Mirrors Response.Same (OrderRoutes.withItems orderNo r) (OrderRoutes.withItems orderNo r') :=
  mirrors_bind (mirrors_findAll .orderItems (byFields_hasNo orderNo)) fun _ _ hi =>
    mirrors_pure (.ok (.cons (.row _ h) (.cons (.rows _ hi) .nil)))

theorem mirrors_detail (userId : UserId) (orderNo : String) :
    Mirrors Response.Same (OrderRoutes.detail userId orderNo) (OrderRoutes.detail userId orderNo) := by
  refine mirrors_guarded (mirrors_bind (mirrors_findByOrderNo orderNo) fun found found' hf => ?_)
  cases hf with
  | none => exact mirrors_pure (.refl _)
  | some h =>
    dsimp only
    rw [byFields_ownedBy userId _ _ h]
    exact mirrors_ite (mirrors_withItems orderNo h) (mirrors_pure (.refl _))

theorem mirrors_myDetail (userId : UserId) (orderNo : String) :
    Mirrors Response.Same (OrderRoutes.myDetail userId orderNo)
      (OrderRoutes.myDetail userId orderNo) := by
  refine mirrors_guarded (mirrors_bind (mirrors_findByOrderNo orderNo) fun found found' hf => ?_)
  cases hf with
  | none => exact mirrors_pure (.refl _)
  | some h =>
    dsimp only
    rw [byFields_ownedBy userId _ _ h]
    exact mirrors_ite (mirrors_withItems orderNo h) (mirrors_pure (.refl _))

theorem mirrors_mine (userId : UserId) (query : Row) :
    Mirrors Response.Same (OrderRoutes.mine env userId query) (OrderRoutes.mine env userId query) := by
  refine mirrors_guarded (mirrors_lift_bind fun page _ => mirrors_lift_bind fun pageSize _ => ?_)
  exact mirrors_answerPage (mirrors_ordersList env _) page pageSize "orders"

theorem forList_same {r r' : Row} (h : SameFields r r') :
    ExceptRel SameFields (AdminOrderRoutes.forList r) (AdminOrderRoutes.forList r') := by
  unfold AdminOrderRoutes.forList
  rw [h.get]
  refine .bind_same fun cn _ => .bind_same fun name _ => .bind_same fun phone _ => ?_
  refine .bind_same fun detail _ => .bind_same fun address _ => .ok ?_
  exact (((h.set _ _).set _ _).set _ _).set _ _

theorem mirrors_adminOrders (query : Row) :
    Mirrors Response.Same (AdminOrderRoutes.list env query) (AdminOrderRoutes.list env query) := by
  refine mirrors_adminGuarded (mirrors_lift_bind fun page _ => mirrors_lift_bind fun pageSize _ => ?_)
  refine mirrors_lift_bind fun startAt _ => mirrors_lift_bind fun endAt _ => ?_
  refine mirrors_bind (mirrors_ordersList env _) ?_
  rintro ⟨total, rows⟩ ⟨_, rows'⟩ ⟨rfl, hrows⟩
  refine mirrors_bind (relates_lift (ExceptRel.mapM (fun _ _ h => forList_same h) hrows))
    fun orders orders' ho => ?_
  exact mirrors_pure (.listPage _ _ (.cons (.rows _ ho) .nil))

theorem forDetail_same {r r' : Row} (h : SameFields r r') :
    ExceptRel SameFields (AdminOrderRoutes.forDetail r) (AdminOrderRoutes.forDetail r') := by
  unfold AdminOrderRoutes.forDetail
  rw [h.get]
  refine .bind_same fun cn _ => .bind_same fun name _ => .bind_same fun phone _ => ?_
  refine .bind_same fun detail _ => .bind_same fun address _ => .ok ?_
  exact (((h.set _ _).set _ _).set _ _).set _ _

theorem mirrors_adminOrder (orderNo : String) :
    Mirrors Response.Same (AdminOrderRoutes.detail env orderNo)
      (AdminOrderRoutes.detail env orderNo) := by
  refine mirrors_adminGuarded (mirrors_bind (mirrors_findByOrderNo orderNo) fun found found' hf => ?_)
  cases hf with
  | none => exact mirrors_pure (.refl _)
  | some h =>
    have hno := byFields_hasNo orderNo
    refine mirrors_bind (mirrors_findAll .orderItems hno) fun items items' hi => ?_
    refine mirrors_bind (R := List.Forall₂ SameFields) ?_ fun logs logs' hl => ?_
    · refine mirrors_bind (mirrors_findAll .orderChangeLogs hno) fun logs logs' hl => ?_
      exact relates_lift (arraySort_forall₂ (listOrder_byFields env .orderChangeLogs) hl)
    · refine mirrors_bind (relates_lift (forDetail_same h)) fun order order' ho => ?_
      exact mirrors_pure (.ok (.cons (.row _ ho) (.cons (.rows _ hi) (.cons (.rows _ hl) .nil))))

theorem mirrors_countByStatus (status : Option String) :
    Mirrors Eq (Orders.countByStatus status) (Orders.countByStatus status) := by
  cases status with
  | none => exact mirrors_count .orders fun _ _ _ => rfl
  | some status => exact mirrors_count .orders fun _ _ h => by rw [h.get]

theorem mirrors_orderStats :
    Mirrors Response.Same AdminOrderRoutes.stats AdminOrderRoutes.stats := by
  refine mirrors_adminGuarded (mirrors_bind (mirrors_countByStatus _) ?_)
  rintro total _ rfl
  refine mirrors_bind (mirrors_countByStatus _) ?_
  rintro payment _ rfl
  refine mirrors_bind (mirrors_countByStatus _) ?_
  rintro freight _ rfl
  refine mirrors_bind (mirrors_countByStatus _) ?_
  rintro ship _ rfl
  refine mirrors_bind (mirrors_countByStatus _) ?_
  rintro shipped _ rfl
  refine mirrors_bind (mirrors_countByStatus _) ?_
  rintro completed _ rfl
  exact mirrors_pure (.refl _)

theorem byFields_orderRow : ByFields AdminOrderRoutes.exportRow := by
  intro r r' h
  unfold AdminOrderRoutes.exportRow
  rw [h.get]

theorem mirrors_exportOrders (body : Row) :
    Mirrors Response.Same (AdminOrderRoutes.exportOrders env body)
      (AdminOrderRoutes.exportOrders env body) := by
  refine mirrors_adminGuarded (mirrors_bind (mirrors_ordersList env _) ?_)
  rintro ⟨total, rows⟩ ⟨_, rows'⟩ ⟨rfl, hrows⟩
  dsimp only
  rw [mapM_eq_of_byFields byFields_orderRow hrows]
  exact mirrors_lift_bind fun rows _ => mirrors_pure (.refl _)

theorem byFields_ofProduct (id : JsVal) : ByFields (Products.ofProduct id) := by
  intro r r' h
  unfold Products.ofProduct
  rw [h.get]

theorem skuOrder_byFields (a a' b b' : Row) (ha : SameFields a a') (hb : SameFields b b') :
    Products.skuOrder a b = Products.skuOrder a' b' := by
  unfold Products.skuOrder
  rw [ha.get, hb.get]

theorem mirrors_getSkus (id : JsVal) :
    Mirrors (List.Forall₂ SameFields) (Products.getSkus id) (Products.getSkus id) :=
  mirrors_bind (mirrors_findAll .productSkus (byFields_ofProduct id)) fun _ _ hs =>
    relates_lift (arraySort_forall₂ skuOrder_byFields hs)

theorem mirrors_products (query : Row) :
    Mirrors Response.Same (CatalogueRoutes.products env query)
      (CatalogueRoutes.products env query) := by
  refine mirrors_guarded (mirrors_lift_bind fun page _ => mirrors_lift_bind fun pageSize _ => ?_)
  refine mirrors_lift_bind fun categoryId _ => ?_
  exact mirrors_answerPage (mirrors_productsList env _) page pageSize "list"

theorem mirrors_product (id : String) :
    Mirrors Response.Same (CatalogueRoutes.product id) (CatalogueRoutes.product id) := by
  refine mirrors_guarded (mirrors_bind (mirrors_findById .products _) fun found found' hf => ?_)
  cases hf with
  | none => exact mirrors_pure (.refl _)
  | some h =>
    dsimp only
    rw [h "status"]
    refine mirrors_ite (mirrors_bind (mirrors_getSkus _) fun skus skus' hs => ?_)
      (mirrors_pure (.refl _))
    exact mirrors_pure (.ok (.cons (.row _ h) (.cons (.rows _ hs) .nil)))

theorem mirrors_adminProducts (query : Row) :
    Mirrors Response.Same (CatalogueRoutes.adminProducts env query)
      (CatalogueRoutes.adminProducts env query) := by
  refine mirrors_adminGuarded (mirrors_lift_bind fun page _ => mirrors_lift_bind fun pageSize _ => ?_)
  exact mirrors_answerPage (mirrors_productsList env _) page pageSize "products"

theorem mirrors_adminProduct (id : String) :
    Mirrors Response.Same (CatalogueRoutes.adminProduct id) (CatalogueRoutes.adminProduct id) := by
  refine mirrors_adminGuarded (mirrors_bind (mirrors_findById .products _) fun found found' hf => ?_)
  cases hf with
  | none => exact mirrors_pure (.refl _)
  | some h =>
    refine mirrors_bind (mirrors_getSkus _) fun skus skus' hs => ?_
    exact mirrors_pure (.ok (.cons (.row _ h) (.cons (.rows _ hs) .nil)))

theorem mirrors_skusOf {products products' : List Row}
    (h : List.Forall₂ SameFields products products') :
    Mirrors (List.Forall₂ SameFields) (CatalogueRoutes.skusOf products)
      (CatalogueRoutes.skusOf products') := by
  induction h with
  | nil => exact mirrors_pure .nil
  | cons hp _ ih =>
    rename_i product product' _ _ _
    unfold CatalogueRoutes.skusOf
    rw [hp.get]
    refine mirrors_bind (mirrors_getSkus _) fun skus skus' hs => ?_
    refine mirrors_bind ih fun rest rest' hr => mirrors_pure (List.rel_append ?_ hr)
    exact List.rel_map (fun _ _ hsku => hsku.set _ _) hs

theorem mirrors_skuLibrary (query : Row) :
    Mirrors Response.Same (CatalogueRoutes.skuLibrary env query)
      (CatalogueRoutes.skuLibrary env query) := by
  refine mirrors_adminGuarded (mirrors_lift_bind fun page _ => mirrors_lift_bind fun pageSize _ => ?_)
  refine mirrors_bind (mirrors_productsList env _) ?_
  rintro ⟨total, rows⟩ ⟨_, rows'⟩ ⟨rfl, hrows⟩
  refine mirrors_bind (mirrors_skusOf hrows) fun skus skus' hs => ?_
  rw [hs.length_eq]
  exact mirrors_pure (.listPage _ _ (.cons (.rows _ (slice_forall₂ hs _ _)) .nil))

theorem mirrors_skuByCode (code : String) :
    Mirrors Response.Same (CatalogueRoutes.skuByCode code) (CatalogueRoutes.skuByCode code) := by
  refine mirrors_adminGuarded (mirrors_bind (R := Option.Rel SameFields)
    (mirrors_findOne .productSkus fun _ _ h => by rw [h.get]) fun found found' hf => ?_)
  cases hf with
  | none => exact mirrors_pure (.refl _)
  | some h =>
    dsimp only
    rw [h.get]
    refine mirrors_bind (mirrors_findById .products _) fun product product' hp => ?_
    refine mirrors_pure (.ok (.cons (.row _ h) (.cons ⟨rfl, ?_⟩ .nil)))
    cases hp with
    | none => exact .refl _
    | some hp => exact .row hp

theorem byFields_brief : ByFields Categories.brief := by
  intro r r' h
  unfold Categories.brief
  rw [h.get]

theorem mirrors_mallCategories :
    Mirrors Response.Same (CatalogueRoutes.mallCategories env)
      (CatalogueRoutes.mallCategories env) := by
  refine mirrors_guarded (mirrors_bind (R := Eq) ?_ fun rows rows' hrows => ?_)
  · refine mirrors_bind (mirrors_listed env .categories
      (byFields_filters env (c := .enabledCategories) rfl)) fun rows rows' hrows => ?_
    exact mirrors_pure (map_eq_of_byFields byFields_brief hrows)
  · rw [hrows]
    exact mirrors_pure (.refl _)

theorem mirrors_adminCategories :
    Mirrors Response.Same (CatalogueRoutes.adminCategories env)
      (CatalogueRoutes.adminCategories env) := by
  refine mirrors_adminGuarded (mirrors_bind (mirrors_listed env .categories
    (byFields_filters env (c := .categories) rfl)) fun rows rows' hrows => ?_)
  exact mirrors_pure (.ok (.cons (.rows _ hrows) .nil))

theorem mirrors_reviews (query : Row) :
    Mirrors Response.Same (CatalogueRoutes.reviews env query) (CatalogueRoutes.reviews env query) := by
  refine mirrors_guarded (mirrors_lift_bind fun productId _ => ?_)
  refine mirrors_lift_bind fun page _ => mirrors_lift_bind fun pageSize _ => ?_
  exact mirrors_answerPage (mirrors_reviewsList env _) page pageSize "reviews"

theorem byFields_shownFor (productId : JsNum) : ByFields (Reviews.shownFor productId) := by
  intro r r' h
  unfold Reviews.shownFor
  rw [h.get]

/-- The average goes by the ratings. -/
theorem averageOf_same {l l' : List Row} (h : List.Forall₂ SameFields l l') :
    Reviews.averageOf l = Reviews.averageOf l' := by
  have hsum : ∀ acc : JsVal, l.foldlM (fun acc r => acc.add (r.get "rating")) acc =
      l'.foldlM (fun acc r => acc.add (r.get "rating")) acc := by
    induction h with
    | nil => exact fun _ => rfl
    | cons hr _ ih =>
      intro acc
      rw [List.foldlM_cons, List.foldlM_cons, hr.get]
      exact congrArg (acc.add _ >>= ·) (funext ih)
  unfold Reviews.averageOf
  rw [hsum, h.length_eq]
  cases h with
  | nil => rfl
  | cons _ _ => rfl

theorem mirrors_reviewStats (productId : String) :
    Mirrors Response.Same (CatalogueRoutes.reviewStats productId)
      (CatalogueRoutes.reviewStats productId) := by
  have hshown := byFields_shownFor (parseInt productId)
  refine mirrors_guarded (mirrors_bind (R := Eq) ?_ ?_)
  · refine mirrors_bind (mirrors_findAll .reviews hshown) fun rows rows' hrows => ?_
    rw [averageOf_same hrows]
    exact relates_lift (.refl _ fun _ => rfl)
  · rintro average _ rfl
    refine mirrors_bind (mirrors_count .reviews hshown) ?_
    rintro count _ rfl
    exact mirrors_pure (.refl _)

theorem mirrors_adminProperties (query : Row) :
    Mirrors Response.Same (PropertyRoutes.adminList env query) (PropertyRoutes.adminList env query) := by
  refine mirrors_adminGuarded (mirrors_lift_bind fun page _ => mirrors_lift_bind fun pageSize _ => ?_)
  exact mirrors_answerPage (mirrors_propertiesList env _) page pageSize "properties"

theorem mirrors_communities :
    Mirrors Response.Same PropertyRoutes.communities PropertyRoutes.communities := by
  refine mirrors_adminGuarded (mirrors_bind (R := Eq) ?_ fun names names' hn => ?_)
  · refine mirrors_bind (mirrors_getTable .properties) fun rows rows' hrows => ?_
    unfold Properties.namesOf
    rw [map_eq_of_byFields (byFields_get "community_name") hrows]
    exact relates_lift (.refl _ fun _ => rfl)
  · rw [hn]
    exact mirrors_pure (.refl _)

theorem mirrors_adminProperty (id : String) :
    Mirrors Response.Same (PropertyRoutes.adminDetail id) (PropertyRoutes.adminDetail id) := by
  refine mirrors_adminGuarded (mirrors_bind (mirrors_findById .properties _) fun found found' hf => ?_)
  cases hf with
  | none => exact mirrors_pure (.refl _)
  | some h => exact mirrors_pure (.ok (.cons (.row _ h) .nil))

theorem byFields_propertyRow : ByFields PropertyRoutes.exportRow := by
  intro r r' h
  unfold PropertyRoutes.exportRow Properties.columns
  rw [h.get]

theorem mirrors_exportProperties :
    Mirrors Response.Same (PropertyRoutes.exportAll env) (PropertyRoutes.exportAll env) := by
  refine mirrors_adminGuarded (mirrors_bind (mirrors_propertiesList env _) ?_)
  rintro ⟨total, rows⟩ ⟨_, rows'⟩ ⟨rfl, hrows⟩
  dsimp only
  rw [map_eq_of_byFields byFields_propertyRow hrows]
  exact mirrors_pure (.refl _)

theorem byFields_mallItem : ByFields Properties.mallItem := by
  intro r r' h
  unfold Properties.mallItem Properties.title Properties.numberOr Properties.columns
  rw [h.get]

theorem mirrors_mallProperties (query : Row) :
    Mirrors Response.Same (PropertyRoutes.mallList env query) (PropertyRoutes.mallList env query) := by
  refine mirrors_guarded (mirrors_lift_bind fun page _ => mirrors_lift_bind fun pageSize _ => ?_)
  refine mirrors_lift_bind fun keyword _ => mirrors_lift_bind fun categoryId _ => ?_
  refine mirrors_bind (R := Eq) (mirrors_bind (mirrors_propertiesList env _) ?_) ?_
  · rintro ⟨total, rows⟩ ⟨_, rows'⟩ ⟨rfl, hrows⟩
    dsimp only
    rw [mapM_eq_of_byFields byFields_mallItem hrows]
    exact mirrors_lift_bind fun items _ => mirrors_pure rfl
  · rintro x _ rfl
    exact mirrors_pure (.refl _)

theorem byFields_shown (id : JsNum) : ByFields (Properties.shown id) := by
  intro r r' h
  unfold Properties.shown
  rw [h.get]

theorem byFields_mallDetail : ByFields Properties.mallDetail := by
  intro r r' h
  unfold Properties.mallDetail Properties.title Properties.numberOr Properties.columns
    Properties.imagesOf Properties.moduleConfigOf
  rw [h.get]

theorem mirrors_mallProperty (id : String) :
    Mirrors Response.Same (PropertyRoutes.mallDetail id) (PropertyRoutes.mallDetail id) := by
  refine mirrors_guarded (mirrors_bind (R := Eq) ?_ ?_)
  · refine mirrors_bind (mirrors_findOne .properties (byFields_shown _)) fun found found' hf => ?_
    cases hf with
    | none => exact mirrors_pure rfl
    | some h =>
      dsimp only
      rw [byFields_mallDetail _ _ h]
      exact relates_lift (.refl _ fun _ => rfl)
  · rintro found _ rfl
    cases found with
    | none => exact mirrors_pure (.refl _)
    | some property => exact mirrors_pure (.refl _)

/-- The same refusal, or codes that read the same. -/
def SameVerdict (x y : WelfareCodes.Validation) : Prop :=
  List.Forall₂ SameField (WelfareRoutes.validationBody x) (WelfareRoutes.validationBody y)

theorem validity_same {wc wc' : Row} (h : SameFields wc wc') (now : String) :
    ExceptRel SameVerdict (WelfareCodes.validity wc now) (WelfareCodes.validity wc' now) := by
  have hrefused : ∀ message, ExceptRel (ε := JsError) SameVerdict
      (.ok (.refused message)) (.ok (.refused message)) := fun _ => .ok (SameField.forall₂_refl _)
  unfold WelfareCodes.validity WelfareCodes.usedUp
  rw [h.get]
  refine .ite (fun _ => hrefused _) fun _ => .bind_same fun used _ => ?_
  refine .ite (fun _ => hrefused _) fun _ => .bind_same fun early _ => ?_
  refine .ite (fun _ => hrefused _) fun _ => .bind_same fun late _ => ?_
  refine .ite (fun _ => hrefused _) fun _ => .ok ?_
  exact .cons ⟨rfl, .refl _⟩ (.cons (.row _ h) .nil)

theorem mirrors_validateCode (code : JsVal) (now : String) :
    Mirrors SameVerdict (WelfareCodes.validateCode code now) (WelfareCodes.validateCode code now) := by
  refine mirrors_bind (R := Option.Rel SameFields) (mirrors_findOne .welfareCodes fun r r' h => ?_)
    fun found found' hf => ?_
  · unfold WelfareCodes.hasCode
    rw [h.get]
  · cases hf with
    | none => exact mirrors_pure (SameField.forall₂_refl _)
    | some h => exact relates_lift (validity_same h now)

theorem mirrors_validate (body : JsVal) (at_ : Moment) :
    Mirrors Response.Same (WelfareRoutes.validate env body at_)
      (WelfareRoutes.validate env body at_) := by
  unfold WelfareRoutes.validate
  refine mirrors_guarded ?_
  cases env.validateReq body with
  | error issue => exact mirrors_pure (.refl _)
  | ok code => exact mirrors_bind (mirrors_validateCode _ _) fun _ _ h => mirrors_pure (.ok h)

theorem mirrors_adminValidate (body : Row) (at_ : Moment) :
    Mirrors Response.Same (WelfareRoutes.adminValidate body at_)
      (WelfareRoutes.adminValidate body at_) :=
  mirrors_adminGuarded (mirrors_bind (mirrors_validateCode _ _) fun _ _ h => mirrors_pure (.ok h))

theorem mirrors_adminWelfareCodes (query : Row) :
    Mirrors Response.Same (WelfareRoutes.adminList env query) (WelfareRoutes.adminList env query) := by
  refine mirrors_adminGuarded (mirrors_lift_bind fun page _ => mirrors_lift_bind fun pageSize _ => ?_)
  exact mirrors_answerPage (mirrors_welfareCodesList env _) page pageSize "codes"

theorem mirrors_adminWelfareCode (id : String) :
    Mirrors Response.Same (WelfareRoutes.adminDetail id) (WelfareRoutes.adminDetail id) := by
  refine mirrors_adminGuarded (mirrors_bind (mirrors_findById .welfareCodes _) fun found found' hf => ?_)
  cases hf with
  | none => exact mirrors_pure (.refl _)
  | some h =>
    refine mirrors_bind (mirrors_findAll .welfareCodeItems (byFields_ofCode _)) fun items items' hi => ?_
    exact mirrors_pure (.ok (.cons (.row _ h) (.cons (.rows _ hi) .nil)))

end

/-- A request that writes nothing has the same answer in stores that read alike. -/
theorem answer_same (env : Env) {s s' : Store} (h : Alike s s') {r : Request} (hr : r.tables = [])
    (at_ : Moment) :
    ExceptRel Response.Same (Server.answer env r at_ s) (Server.answer env r at_ s') := by
  have hm : Mirrors Response.Same (r.handle env at_) (r.handle env at_) := by
    cases r with
    | user userId r =>
      cases userId with
      | none => exact mirrors_pure (.refl _)
      | some userId =>
        cases r with
        | orderStatus orderNo => exact mirrors_status orderNo
        | order orderNo => exact mirrors_detail userId orderNo
        | myOrders query => exact mirrors_mine env userId query
        | myOrder orderNo => exact mirrors_myDetail userId orderNo
        | createOrder body => cases hr
        | cancelOrder orderNo => cases hr
        | cancelMyOrder orderNo => cases hr
    | admin authorized r =>
      cases authorized with
      | false => exact mirrors_pure (.refl _)
      | true =>
        cases r with
        | orders query => exact mirrors_adminOrders env query
        | order orderNo => exact mirrors_adminOrder env orderNo
        | orderStats => exact mirrors_orderStats
        | exportOrders body => exact mirrors_exportOrders env body
        | products query => exact mirrors_adminProducts env query
        | product id => exact mirrors_adminProduct id
        | skuLibrary query => exact mirrors_skuLibrary env query
        | skuByCode code => exact mirrors_skuByCode code
        | properties query => exact mirrors_adminProperties env query
        | communities => exact mirrors_communities
        | property id => exact mirrors_adminProperty id
        | exportProperties => exact mirrors_exportProperties env
        | categories => exact mirrors_adminCategories env
        | welfareCodes query => exact mirrors_adminWelfareCodes env query
        | welfareCode id => exact mirrors_adminWelfareCode id
        | validateWelfareCode body => exact mirrors_adminValidate body at_
        | _ => cases hr
    | anyone r =>
      cases r with
      | products query => exact mirrors_products env query
      | product id => exact mirrors_product id
      | mallProperties query => exact mirrors_mallProperties env query
      | mallCategories => exact mirrors_mallCategories env
      | mallProperty id => exact mirrors_mallProperty id
      | reviews query => exact mirrors_reviews env query
      | reviewStats productId => exact mirrors_reviewStats productId
      | validateCode body => exact mirrors_validate env body at_
      | _ => cases hr
  exact (hm s s' h).1

end JtfpMall
