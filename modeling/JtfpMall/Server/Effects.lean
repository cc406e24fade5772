import JtfpMall.Server.Requests

/-!
# What a program may do to the store

Writes of a given kind, and the in-place sorts of the list functions. A program
is calm when it does nothing else: in particular it does not flush. Two handlers
flush, each after its last write.
-/

namespace JtfpMall

open JtfpMall.Js
open JtfpMall.Lib

/-- The list functions of the repositories, with their queries. -/
inductive ListCall where
  | orders (query : Orders.ListQuery)
  | products (query : Products.ListQuery)
  | properties (query : Properties.ListQuery)
  | reviews (query : Reviews.ListQuery)
  | welfareCodes (query : WelfareCodes.ListQuery)
  | categories
  | enabledCategories

namespace ListCall

def table : ListCall → Table
  | .orders _ => .orders
  | .products _ => .products
  | .properties _ => .properties
  | .reviews _ => .reviews
  | .welfareCodes _ => .welfareCodes
  | .categories => .categories
  | .enabledCategories => .categories

/-- The filters the query asks for; a query whose keyword is no text asks for none and throws. -/
def filters (env : Env) : ListCall → Except JsError (List (Row → Except JsError Bool))
  | .orders query => .ok query.filters
  | .products query => query.filters env
  | .properties query => query.filters env
  | .reviews query => .ok query.filters
  | .welfareCodes query => query.filters env
  | .categories => .ok []
  | .enabledCategories => .ok [columnIs "status" (.num (.fin 1))]

end ListCall

/-- The list function a request calls, with its query. -/
inductive Request.Lists : Request → ListCall → Prop where
  | myOrders {userId : UserId} {query : Row} {page pageSize : JsNum}
      (hp : pageFrom1 query = .ok page) (hz : pageSizeTo100 query = .ok pageSize) :
      Lists (.user (some userId) (.myOrders query)) (.orders
        { page := some page, pageSize := some pageSize, status := query.get "status",
          orderNo := .undefined, phone := .undefined, startAt := .undefined, endAt := .undefined,
          userId := some (.fin userId) })
  | orders {query : Row} {page pageSize : JsNum} {startAt endAt : JsVal}
      (hp : parseIntOr query "page" "1" = .ok page) (hz : pageSizeTo100 query = .ok pageSize)
      (hs : AdminOrderRoutes.rangeEnd query "startAt" "startDate" "00:00:00" = .ok startAt)
      (he : AdminOrderRoutes.rangeEnd query "endAt" "endDate" "23:59:59" = .ok endAt) :
      Lists (.admin true (.orders query)) (.orders
        { page := some page, pageSize := some pageSize, status := query.get "status",
          orderNo := query.get "orderNo", phone := query.get "phone", startAt := startAt,
          endAt := endAt, userId := none })
  | exportOrders {body : Row} :
      Lists (.admin true (.exportOrders body)) (.orders
        { page := none, pageSize := some (.fin 10000), status := body.get "status",
          orderNo := .undefined, phone := .undefined, startAt := body.get "startAt",
          endAt := body.get "endAt", userId := none })
  | products {query : Row} {page pageSize : JsNum} {categoryId : Option JsNum}
      (hp : pageFrom1 query = .ok page) (hz : pageSizeTo100 query = .ok pageSize)
      (hc : CatalogueRoutes.categoryOf query = .ok categoryId) :
      Lists (.anyone (.products query)) (.products
        { page := some page, pageSize := some pageSize, keyword := keywordOf query,
          categoryId := categoryId, status := .num (.fin 1) })
  | adminProducts {query : Row} {page pageSize : JsNum}
      (hp : parseIntOr query "page" "1" = .ok page) (hz : pageSizeTo100 query = .ok pageSize) :
      Lists (.admin true (.products query)) (.products
        { page := some page, pageSize := some pageSize, keyword := keywordOf query,
          categoryId := none, status := .undefined })
  | skuLibrary {query : Row} {page pageSize : JsNum}
      (hp : parseIntOr query "page" "1" = .ok page) (hz : pageSizeTo100 query = .ok pageSize) :
      Lists (.admin true (.skuLibrary query)) (.products
        { page := none, pageSize := some (.fin 10000), keyword := .undefined, categoryId := none,
          status := .undefined })
  | mallCategories : Lists (.anyone .mallCategories) .enabledCategories
  | categories : Lists (.admin true .categories) .categories
  | reviews {query : Row} {productId page pageSize : JsNum}
      (hi : parseIntOr query "productId" "0" = .ok productId) (hp : pageFrom1 query = .ok page)
      (hz : pageSizeTo100 query = .ok pageSize) :
      Lists (.anyone (.reviews query)) (.reviews
        { page := some page, pageSize := some pageSize,
          productId := if (JsNum.fin 0).lt? productId = some true then some productId else none,
          userId := none, status := .num (.fin 1) })
  | properties {query : Row} {page pageSize : JsNum}
      (hp : parseIntOr query "page" "1" = .ok page) (hz : pageSizeTo100 query = .ok pageSize) :
      Lists (.admin true (.properties query)) (.properties
        { page := some page, pageSize := some pageSize, communityName := query.get "communityName",
          customerPhone := query.get "customerPhone", authCode := query.get "authCode",
          startAt := query.get "startAt", endAt := query.get "endAt", keyword := .undefined,
          categoryId := none, status := .undefined })
  | exportProperties : Lists (.admin true .exportProperties) (.properties
        { page := none, pageSize := some (.fin 10000), communityName := .undefined,
          customerPhone := .undefined, authCode := .undefined, startAt := .undefined,
          endAt := .undefined, keyword := .undefined, categoryId := none, status := .undefined })
  | mallProperties {query : Row} {page pageSize categoryId : JsNum} {keyword : JsVal}
      (hp : PropertyRoutes.toInt (query.get "page") 1 = .ok page)
      (hz : PropertyRoutes.toInt (query.get "pageSize") 20 = .ok pageSize)
      (hk : PropertyRoutes.mallKeyword query = .ok keyword)
      (hc : PropertyRoutes.toInt (query.get "categoryId") 0 = .ok categoryId) :
      Lists (.anyone (.mallProperties query)) (.properties
        { page := some (page.max (.fin 1)), pageSize := some ((pageSize.max (.fin 1)).min (.fin 100)),
          communityName := .undefined, customerPhone := .undefined, authCode := .undefined,
          startAt := .undefined, endAt := .undefined, keyword := keyword,
          categoryId := if (JsNum.fin 0).lt? categoryId = some true then some categoryId else none,
          status := .num (.fin 1) })
  | welfareCodes {query : Row} {page pageSize : JsNum}
      (hp : parseIntOr query "page" "1" = .ok page) (hz : pageSizeTo100 query = .ok pageSize) :
      Lists (.admin true (.welfareCodes query)) (.welfareCodes
        { page := some page, pageSize := some pageSize, keyword := keywordOf query,
          status := .undefined, type := .undefined })

/-- The tables a request sorts in place: it lists them without a filter. -/
def Request.Sorts (env : Env) (r : Request) (t : Table) : Prop :=
  ∃ c, r.Lists c ∧ c.filters env = .ok [] ∧ c.table = t

/-- The tables whose live array a list function may sort. -/
def Table.live : Table → Bool
  | .orders => true
  | .products => true
  | .properties => true
  | .welfareCodes => true
  | .categories => true
  | _ => false

/-- Writes of the kind `W`, and in-place sorts of the tables `L`. -/
inductive Effect (env : Env) (W : Write → Prop) (L : Table → Prop) : Store → Store → Prop where
  | write {s : Store} (w : Write) (now : String) (h : W w) : Effect env W L s (w.apply now s)
  | sort {s : Store} {t : Table} {rows : List Row} (ht : t.live = true) (hl : L t)
      (h : arraySort (listOrder env t) (s.getTable t) = .ok rows) :
      Effect env W L s (s.putRows t rows)

abbrev Effects (env : Env) (W : Write → Prop) (L : Table → Prop) : Store → Store → Prop :=
  Relation.ReflTransGen (Effect env W L)

/-- From every store, the program has only effects of the given kind. -/
def Calm (env : Env) (W : Write → Prop) (L : Table → Prop) {α : Type} (m : Act α) : Prop :=
  ∀ s, Action.Leads (Effect env W L) s m

section
variable {env : Env} {W : Write → Prop} {L : Table → Prop} {α β : Type}

theorem calm_pure (a : α) : Calm env W L (pure a : Act α) := fun _ => Action.leads_pure a

theorem calm_lift (x : Except JsError α) : Calm env W L (Action.lift x) :=
  fun _ => Action.leads_lift x

theorem calm_reads (f : Store → α) : Calm env W L (Action.reads f) := fun _ => Action.leads_reads f

theorem calm_bind {m : Act α} {f : α → Act β} (hm : Calm env W L m) (hf : ∀ a, Calm env W L (f a)) :
    Calm env W L (m >>= f) := fun s => Action.leads_bind (hm s) fun a s' _ => hf a s'

theorem calm_lift_bind {x : Except JsError α} {f : α → Act β}
    (hf : ∀ a, x = .ok a → Calm env W L (f a)) : Calm env W L (Action.lift x >>= f) :=
  fun s => Action.leads_lift_bind fun a ha => hf a ha s

theorem calm_attempt {m : Act α} {h : JsError → α} (hm : Calm env W L m) :
    Calm env W L (m.attempt h) := fun s => Action.leads_attempt (hm s)

theorem calm_guarded {m : Act Response} (hm : Calm env W L m) : Calm env W L (guarded m) :=
  calm_attempt hm

theorem calm_adminGuarded {m : Act Response} (hm : Calm env W L m) : Calm env W L (adminGuarded m) :=
  calm_attempt hm

theorem calm_ite {p : Prop} [Decidable p] {m n : Act α} (hm : p → Calm env W L m)
    (hn : ¬p → Calm env W L n) : Calm env W L (if p then m else n) := by
  split
  · rename_i h
    exact hm h
  · rename_i h
    exact hn h

theorem calm_insert {t : Table} {row : Row} {now : String} (h : W (.insert t row)) :
    Calm env W L (Act.insert t row now) := fun _ => Action.leads_does (.write (.insert t row) now h)

theorem calm_update {t : Table} {id : JsVal} {updates : Row} {now : String}
    (h : W (.update t id updates)) : Calm env W L (Act.update t id updates now) :=
  fun _ => Action.leads_does (.write (.update t id updates) now h)

theorem calm_remove {t : Table} {id : JsVal} (h : W (.remove t id)) :
    Calm env W L (Act.remove t id) := fun _ => Action.leads_does (.write (.remove t id) "" h)

theorem calm_removeWhere {t : Table} {p : Row → Bool} (h : W (.removeWhere t p)) :
    Calm env W L (Act.removeWhere t p) :=
  fun _ => Action.leads_does (.write (.removeWhere t p) "" h)

theorem calm_getTable (t : Table) : Calm env W L (Act.getTable t) := calm_reads _
theorem calm_findOne (t : Table) (p : Row → Bool) : Calm env W L (Act.findOne t p) := calm_reads _
theorem calm_findById (t : Table) (id : JsVal) : Calm env W L (Act.findById t id) := calm_reads _
theorem calm_findAll (t : Table) (p : Row → Bool) : Calm env W L (Act.findAll t p) := calm_reads _
theorem calm_count (t : Table) (p : Row → Bool) : Calm env W L (Act.count t p) := calm_reads _

theorem calm_sortTable {t : Table} (ht : t.live = true) (hl : L t) :
    Calm env W L (sortTable env t) := by
  intro s
  unfold Action.Leads Action.run sortTable
  cases h : arraySort (listOrder env t) (s.getTable t) with
  | ok rows => exact .single (.sort ht hl h)
  | error e => exact .refl

/-- With a filter, a list has no effect at all. -/
theorem calm_listed {t : Table} {filters : List (Row → Except JsError Bool)}
    (h : filters = [] → t.live = true ∧ L t) : Calm env W L (listed env t filters) := by
  unfold listed
  cases filters with
  | nil => exact calm_sortTable (h rfl).1 (h rfl).2
  | cons p ps =>
    exact calm_bind (calm_getTable t) fun _ => calm_bind (calm_lift _) fun _ => calm_lift _

end

section
variable {env : Env} {W : Write → Prop} {L : Table → Prop}

theorem calm_ordersList (query : Orders.ListQuery)
    (h : (ListCall.orders query).filters env = .ok [] → L .orders) :
    Calm env W L (Orders.list env query) := by
  unfold Orders.list
  refine calm_bind (calm_listed fun hf => ⟨rfl, h (congrArg Except.ok hf)⟩) fun rows => ?_
  refine calm_bind (calm_getTable _) fun users => ?_
  exact calm_bind (calm_lift _) fun _ => calm_pure _

theorem calm_findByOrderNo (orderNo : String) : Calm env W L (Orders.findByOrderNo orderNo) :=
  calm_findOne _ _

theorem calm_withItems (orderNo : String) (order : Row) :
    Calm env W L (OrderRoutes.withItems orderNo order) :=
  calm_bind (calm_findAll _ _) fun _ => calm_pure _

theorem calm_status (orderNo : String) : Calm env W L (OrderRoutes.status orderNo) := by
  refine calm_guarded (calm_bind (calm_findByOrderNo orderNo) fun found => ?_)
  cases found with
  | none => exact calm_pure _
  | some order => exact calm_pure _

theorem calm_detail (userId : UserId) (orderNo : String) :
    Calm env W L (OrderRoutes.detail userId orderNo) := by
  refine calm_guarded (calm_bind (calm_findByOrderNo orderNo) fun found => ?_)
  cases found with
  | none => exact calm_pure _
  | some order => exact calm_ite (fun _ => calm_withItems _ _) fun _ => calm_pure _

theorem calm_myDetail (userId : UserId) (orderNo : String) :
    Calm env W L (OrderRoutes.myDetail userId orderNo) := by
  refine calm_guarded (calm_bind (calm_findByOrderNo orderNo) fun found => ?_)
  cases found with
  | none => exact calm_pure _
  | some order => exact calm_ite (fun _ => calm_withItems _ _) fun _ => calm_pure _

theorem calm_mine (userId : UserId) (query : Row) :
    Calm env W ((Request.user (some userId) (.myOrders query)).Sorts env)
      (OrderRoutes.mine env userId query) := by
  refine calm_guarded (calm_lift_bind fun page hp => calm_lift_bind fun pageSize hz => ?_)
  exact calm_bind (calm_ordersList _ fun hf => ⟨_, .myOrders hp hz, hf, rfl⟩) fun _ => calm_pure _

theorem calm_adminOrders (query : Row) :
    Calm env W ((Request.admin true (.orders query)).Sorts env) (AdminOrderRoutes.list env query) := by
  refine calm_adminGuarded (calm_lift_bind fun page hp => calm_lift_bind fun pageSize hz => ?_)
  refine calm_lift_bind fun startAt hs => calm_lift_bind fun endAt he => ?_
  refine calm_bind (calm_ordersList _ fun hf => ⟨_, .orders hp hz hs he, hf, rfl⟩) fun _ => ?_
  exact calm_bind (calm_lift _) fun _ => calm_pure _

theorem calm_adminOrder (orderNo : String) : Calm env W L (AdminOrderRoutes.detail env orderNo) := by
  refine calm_adminGuarded (calm_bind (calm_findByOrderNo orderNo) fun found => ?_)
  cases found with
  | none => exact calm_pure _
  | some order =>
    refine calm_bind (calm_findAll _ _) fun items => ?_
    refine calm_bind (calm_bind (calm_findAll _ _) fun _ => calm_lift _) fun logs => ?_
    exact calm_bind (calm_lift _) fun _ => calm_pure _

theorem calm_countByStatus (status : Option String) : Calm env W L (Orders.countByStatus status) := by
  cases status <;> exact calm_count _ _

theorem calm_orderStats : Calm env W L AdminOrderRoutes.stats := by
  refine calm_adminGuarded (calm_bind (calm_countByStatus _) fun _ => ?_)
  refine calm_bind (calm_countByStatus _) fun _ => ?_
  refine calm_bind (calm_countByStatus _) fun _ => ?_
  refine calm_bind (calm_countByStatus _) fun _ => ?_
  refine calm_bind (calm_countByStatus _) fun _ => ?_
  exact calm_bind (calm_countByStatus _) fun _ => calm_pure _

theorem calm_exportOrders (body : Row) :
    Calm env W ((Request.admin true (.exportOrders body)).Sorts env)
      (AdminOrderRoutes.exportOrders env body) := by
  refine calm_adminGuarded (calm_bind (calm_ordersList _ fun hf => ?_) fun _ => ?_)
  · exact ⟨_, .exportOrders, hf, rfl⟩
  · exact calm_bind (calm_lift _) fun _ => calm_pure _

theorem calm_productsList (query : Products.ListQuery)
    (h : (ListCall.products query).filters env = .ok [] → L .products) :
    Calm env W L (Products.list env query) := by
  refine calm_lift_bind fun filters hq => ?_
  exact calm_bind (calm_listed fun hf => ⟨rfl, h (hf ▸ hq)⟩) fun _ => calm_pure _

theorem calm_getSkus (id : JsVal) : Calm env W L (Products.getSkus id) :=
  calm_bind (calm_findAll _ _) fun _ => calm_lift _

theorem calm_products (query : Row) :
    Calm env W ((Request.anyone (.products query)).Sorts env) (CatalogueRoutes.products env query) := by
  refine calm_guarded (calm_lift_bind fun page hp => calm_lift_bind fun pageSize hz => ?_)
  refine calm_lift_bind fun categoryId hc => ?_
  exact calm_bind (calm_productsList _ fun hf => ⟨_, .products hp hz hc, hf, rfl⟩) fun _ => calm_pure _

theorem calm_product (id : String) : Calm env W L (CatalogueRoutes.product id) := by
  refine calm_guarded (calm_bind (calm_findById _ _) fun found => ?_)
  cases found with
  | none => exact calm_pure _
  | some product =>
    exact calm_ite (fun _ => calm_bind (calm_getSkus _) fun _ => calm_pure _) fun _ => calm_pure _

theorem calm_adminProducts (query : Row) :
    Calm env W ((Request.admin true (.products query)).Sorts env)
      (CatalogueRoutes.adminProducts env query) := by
  refine calm_adminGuarded (calm_lift_bind fun page hp => calm_lift_bind fun pageSize hz => ?_)
  exact calm_bind (calm_productsList _ fun hf => ⟨_, .adminProducts hp hz, hf, rfl⟩)
    fun _ => calm_pure _

theorem calm_adminProduct (id : String) : Calm env W L (CatalogueRoutes.adminProduct id) := by
  refine calm_adminGuarded (calm_bind (calm_findById _ _) fun found => ?_)
  cases found with
  | none => exact calm_pure _
  | some product => exact calm_bind (calm_getSkus _) fun _ => calm_pure _

theorem calm_skusOf (products : List Row) : Calm env W L (CatalogueRoutes.skusOf products) := by
  induction products with
  | nil => exact calm_pure _
  | cons product products ih =>
    exact calm_bind (calm_getSkus _) fun _ => calm_bind ih fun _ => calm_pure _

theorem calm_skuLibrary (query : Row) :
    Calm env W ((Request.admin true (.skuLibrary query)).Sorts env)
      (CatalogueRoutes.skuLibrary env query) := by
  refine calm_adminGuarded (calm_lift_bind fun page hp => calm_lift_bind fun pageSize hz => ?_)
  refine calm_bind (calm_productsList _ fun hf => ⟨_, .skuLibrary hp hz, hf, rfl⟩) fun found => ?_
  exact calm_bind (calm_skusOf _) fun _ => calm_pure _

theorem calm_skuByCode (code : String) : Calm env W L (CatalogueRoutes.skuByCode code) := by
  refine calm_adminGuarded (calm_bind (calm_findOne _ _) fun found => ?_)
  cases found with
  | none => exact calm_pure _
  | some sku => exact calm_bind (calm_findById _ _) fun _ => calm_pure _

theorem calm_mallCategories : Calm env W L (CatalogueRoutes.mallCategories env) := by
  refine calm_guarded (calm_bind ?_ fun _ => calm_pure _)
  exact calm_bind (calm_listed fun hf => absurd hf (List.cons_ne_nil _ _)) fun _ => calm_pure _

theorem calm_adminCategories :
    Calm env W ((Request.admin true .categories).Sorts env) (CatalogueRoutes.adminCategories env) :=
  calm_adminGuarded (calm_bind (calm_listed fun _ => ⟨rfl, _, .categories, rfl, rfl⟩)
    fun _ => calm_pure _)

/-- The public list of reviews always filters by status, so it sorts a copy. -/
theorem calm_reviews (query : Row) : Calm env W L (CatalogueRoutes.reviews env query) := by
  refine calm_guarded (calm_bind (calm_lift _) fun productId => ?_)
  refine calm_bind (calm_lift _) fun page => ?_
  refine calm_bind (calm_lift _) fun pageSize => ?_
  refine calm_bind (calm_bind (calm_listed fun hf => ?_) fun _ => calm_pure _) fun _ => calm_pure _
  simp [Reviews.ListQuery.filters, onlyIf] at hf

theorem calm_reviewStats (productId : String) : Calm env W L (CatalogueRoutes.reviewStats productId) := by
  refine calm_guarded (calm_bind (calm_bind (calm_findAll _ _) fun _ => calm_lift _) fun _ => ?_)
  exact calm_bind (calm_count _ _) fun _ => calm_pure _

theorem calm_propertiesList (query : Properties.ListQuery)
    (h : (ListCall.properties query).filters env = .ok [] → L .properties) :
    Calm env W L (Properties.list env query) := by
  refine calm_lift_bind fun filters hq => ?_
  exact calm_bind (calm_listed fun hf => ⟨rfl, h (hf ▸ hq)⟩) fun _ => calm_pure _

theorem calm_adminProperties (query : Row) :
    Calm env W ((Request.admin true (.properties query)).Sorts env)
      (PropertyRoutes.adminList env query) := by
  refine calm_adminGuarded (calm_lift_bind fun page hp => calm_lift_bind fun pageSize hz => ?_)
  exact calm_bind (calm_propertiesList _ fun hf => ⟨_, .properties hp hz, hf, rfl⟩)
    fun _ => calm_pure _

theorem calm_communities : Calm env W L PropertyRoutes.communities := by
  refine calm_adminGuarded (calm_bind ?_ fun _ => calm_pure _)
  exact calm_bind (calm_getTable _) fun _ => calm_lift _

theorem calm_adminProperty (id : String) : Calm env W L (PropertyRoutes.adminDetail id) := by
  refine calm_adminGuarded (calm_bind (calm_findById _ _) fun found => ?_)
  cases found with
  | none => exact calm_pure _
  | some property => exact calm_pure _

theorem calm_exportProperties :
    Calm env W ((Request.admin true .exportProperties).Sorts env) (PropertyRoutes.exportAll env) :=
  calm_adminGuarded (calm_bind (calm_propertiesList _ fun hf => ⟨_, .exportProperties, hf, rfl⟩)
    fun _ => calm_pure _)

theorem calm_mallProperties (query : Row) :
    Calm env W ((Request.anyone (.mallProperties query)).Sorts env)
      (PropertyRoutes.mallList env query) := by
  refine calm_guarded (calm_lift_bind fun page hp => calm_lift_bind fun pageSize hz => ?_)
  refine calm_lift_bind fun keyword hk => calm_lift_bind fun categoryId hc => ?_
  refine calm_bind (calm_bind (calm_propertiesList _ fun hf => ?_) fun _ => ?_) fun _ => calm_pure _
  · exact ⟨_, .mallProperties hp hz hk hc, hf, rfl⟩
  · exact calm_bind (calm_lift _) fun _ => calm_pure _

theorem calm_mallProperty (id : String) : Calm env W L (PropertyRoutes.mallDetail id) := by
  refine calm_guarded (calm_bind (calm_bind (calm_findOne _ _) fun found => ?_) fun shown => ?_)
  · cases found with
    | none => exact calm_pure _
    | some row => exact calm_lift _
  · cases shown with
    | none => exact calm_pure _
    | some property => exact calm_pure _

theorem calm_validateCode (code : JsVal) (now : String) :
    Calm env W L (WelfareCodes.validateCode code now) := by
  refine calm_bind (calm_findOne _ _) fun found => ?_
  cases found with
  | none => exact calm_pure _
  | some wc => exact calm_lift _

theorem calm_validate (body : JsVal) (at_ : Moment) :
    Calm env W L (WelfareRoutes.validate env body at_) := by
  unfold WelfareRoutes.validate
  refine calm_guarded ?_
  cases env.validateReq body with
  | error issue => exact calm_pure _
  | ok code => exact calm_bind (calm_validateCode _ _) fun _ => calm_pure _

theorem calm_adminValidate (body : Row) (at_ : Moment) :
    Calm env W L (WelfareRoutes.adminValidate body at_) :=
  calm_adminGuarded (calm_bind (calm_validateCode _ _) fun _ => calm_pure _)

theorem calm_welfareCodesList (query : WelfareCodes.ListQuery)
    (h : (ListCall.welfareCodes query).filters env = .ok [] → L .welfareCodes) :
    Calm env W L (WelfareCodes.list env query) := by
  refine calm_lift_bind fun filters hq => ?_
  refine calm_bind (calm_listed fun hf => ⟨rfl, h (hf ▸ hq)⟩) fun rows => ?_
  refine calm_bind (calm_getTable _) fun items => ?_
  exact calm_bind (calm_lift _) fun _ => calm_pure _

theorem calm_adminWelfareCodes (query : Row) :
    Calm env W ((Request.admin true (.welfareCodes query)).Sorts env)
      (WelfareRoutes.adminList env query) := by
  refine calm_adminGuarded (calm_lift_bind fun page hp => calm_lift_bind fun pageSize hz => ?_)
  exact calm_bind (calm_welfareCodesList _ fun hf => ⟨_, .welfareCodes hp hz, hf, rfl⟩)
    fun _ => calm_pure _

theorem calm_adminWelfareCode (id : String) : Calm env W L (WelfareRoutes.adminDetail id) := by
  refine calm_adminGuarded (calm_bind (calm_findById _ _) fun found => ?_)
  cases found with
  | none => exact calm_pure _
  | some code => exact calm_bind (calm_findAll _ _) fun _ => calm_pure _

end

end JtfpMall
