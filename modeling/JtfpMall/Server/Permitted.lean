import JtfpMall.Server.Effects

/-!
# What each request may write

For every request: the tables it writes, that it keeps the id of the rows it
updates, and that it stores only values JSON text represents, unless its body brings in
something else. The main result is that a request has only effects of that kind,
with a flush at most at its end.
-/

namespace JtfpMall

open JtfpMall.Js
open JtfpMall.Js.JsVal (storable_str storable_null storable_fin)
open JtfpMall.Lib

namespace Write

def table : Write → Table
  | .insert t _ => t
  | .update t _ _ => t
  | .updateWhere t _ _ => t
  | .remove t _ => t
  | .removeWhere t _ => t

/-- An update leaves the id of the row alone, or sets it to what it is. -/
def KeepsIds : Write → Prop
  | .update _ id updates => updates.has "id" = false ∨ updates.get "id" = id
  | .updateWhere _ _ updates => updates.has "id" = false
  | _ => True

end Write

/-- The body of an update of the row `id` has no other id. -/
def KeepsId (body : Row) (id : JsNum) : Prop := body.has "id" = false ∨ body.get "id" = .num id

/-- What a property form stores is finite: its own values, its price in cents and
its sort order. -/
structure FiniteForm (body : Row) : Prop where
  plain : body.IsPlain
  price : ∀ n, (body.get "priceYuan").toNumber = .ok n → ∀ neg, (n.mul (.fin 100)).round ≠ .inf neg
  order : ∀ n, (body.get "sortOrder").toNumber = .ok n → ∀ neg, n ≠ .inf neg

namespace Request

/-- The tables a request may write. -/
def tables : Request → List Table
  | .user (some _) (.createOrder _) => [.orders]
  | .user (some _) (.cancelOrder _) => [.orders, .orderChangeLogs]
  | .user (some _) (.cancelMyOrder _) => [.orders]
  | .admin true (.updateOrderStatus _ _) => [.orders, .orderChangeLogs]
  | .admin true (.updateOrderRemark _ _) => [.orders, .orderChangeLogs]
  | .admin true (.deleteOrder _) => [.orders, .orderItems]
  | .admin true (.createProduct _) => [.products]
  | .admin true (.updateProduct _ _) => [.products]
  | .admin true (.deleteProduct _) => [.products, .productSkus]
  | .admin true (.createProperty _) => [.properties]
  | .admin true (.updateProperty _ _) => [.properties]
  | .admin true (.deleteProperty _) => [.properties]
  | .admin true (.importProperties _) => [.properties]
  | .admin true (.createCategory _) => [.categories]
  | .admin true (.updateCategory _ _) => [.categories]
  | .admin true (.deleteCategory _) => [.categories]
  | .admin true (.createWelfareCode _) => [.welfareCodes]
  | .admin true (.updateWelfareCode _ _) => [.welfareCodes]
  | .admin true (.deleteWelfareCode _) => [.welfareCodes, .welfareCodeItems]
  | .anyone (.useCode _) => [.welfareCodes]
  | .anyone (.oauthCallback _) => [.users]
  | .anyone (.miniLogin _) => [.users, .userIdentities]
  | _ => []

/-- A PUT whose body reaches the store as it is names no other id. -/
def KeepsIds : Request → Prop
  | .admin true (.updateProduct id body) => KeepsId body (parseInt id)
  | .admin true (.updateProperty id body) =>
    ∀ data, PropertyRoutes.withShopFields body = .ok data → KeepsId data (stringToNumber id)
  | .admin true (.updateWelfareCode id body) => KeepsId body (parseInt id)
  | _ => True

/-- The request stores no number that is not finite. -/
def Finite (env : Env) (s : Store) : Request → Prop
  | .user (some _) (.createOrder body) =>
    ∀ b, env.createOrderReq body = .ok b → ∀ n, b.propertyId = some n → n.isFinite = true
  | .admin true (.updateOrderStatus _ body) => (body.get "status").Storable
  | .admin true (.updateOrderRemark _ body) => (body.get "remark").Storable
  | .admin true (.createProduct body) => body.IsPlain
  | .admin true (.updateProduct _ body) => body.IsPlain
  | .admin true (.createProperty body) => FiniteForm body
  | .admin true (.updateProperty _ body) => FiniteForm body
  | .admin true (.createCategory body) => ∀ k ∈ ["name", "icon", "sort_order", "status"],
      (body.get k).Storable
  | .admin true (.updateCategory _ body) => ∀ k ∈ ["name", "icon", "sort_order", "status"],
      (body.get k).Storable
  | .admin true (.createWelfareCode body) => body.IsPlain
  | .admin true (.updateWelfareCode _ body) => body.IsPlain
  | .anyone (.useCode body) => ∀ code, env.validateReq body = .ok code →
      ∀ wc, s.findOne .welfareCodes (WelfareCodes.hasCode (.str code)) = some wc →
      ∀ v, (wc.get "used_count").add (.num (.fin 1)) = .ok v → v.Storable
  | _ => True

end Request

/-- A write that the request may make on the store it finds. -/
structure Permitted (env : Env) (r : Request) (s : Store) (w : Write) : Prop where
  table : w.table ∈ r.tables
  ids : r.KeepsIds → w.KeepsIds
  plain : r.Finite env s → s.cache.IsPlain → w.IsPlain

theorem storable_absent (s : Option String) : (absent s).Storable := by
  cases s with
  | none => exact Or.inl rfl
  | some s => exact storable_str s

theorem storable_stringify (v : JsVal) : (Json.stringify v).Storable := by
  unfold Json.stringify
  split
  · exact Or.inl rfl
  · exact storable_str _

theorem storable_of_find? {s : Store} (h : s.cache.IsPlain) {t : Table} {p : Row → Bool} {r : Row}
    (hr : s.findOne t p = some r) (k : String) : (r.get k).Storable :=
  h t r (List.mem_of_find?_eq_some hr) k

theorem isPlain_newOrder {data : Row} (h : data.IsPlain) (orderNo : String) :
    (Orders.newOrder data orderNo).IsPlain := by
  unfold Orders.newOrder
  refine Dict.IsPlain.set (Dict.IsPlain.set (Dict.IsPlain.set (h.set _ ?_) _ ?_) _ ?_) _ ?_
  · exact (h "order_no").or (storable_str _)
  · exact (h "status").or (storable_str _)
  · exact (h "total_amount").or (storable_fin _)
  · exact storable_fin _

theorem isPlain_orderData {userId : UserId} {body : CreateOrderReq}
    (h : ∀ n, body.propertyId = some n → n.isFinite = true) :
    (OrderRoutes.orderData userId body).IsPlain := by
  refine Dict.isPlain_ofList fun p hp => ?_
  simp only [List.mem_cons, List.not_mem_nil, or_false] at hp
  rcases hp with rfl | rfl | rfl | rfl | rfl | rfl | rfl
  · exact storable_fin _
  · cases hb : body.propertyId with
    | none => exact Or.inl rfl
    | some n => exact Or.inr (h n hb)
  · exact storable_str _
  · exact storable_fin _
  · dsimp only
    split
    · exact storable_stringify _
    · exact Or.inl rfl
  · exact storable_absent _
  · exact storable_absent _

theorem isPlain_changeLog {orderNo fieldName operator : String} {oldValue newValue : JsVal}
    (ho : oldValue.Storable) (hn : newValue.Storable) :
    (Orders.changeLog orderNo fieldName oldValue newValue operator).IsPlain := by
  refine Dict.isPlain_ofList fun p hp => ?_
  simp only [List.mem_cons, List.not_mem_nil, or_false] at hp
  rcases hp with rfl | rfl | rfl | rfl | rfl
  · exact storable_str _
  · exact storable_str _
  · exact ho
  · exact hn
  · exact storable_str _

theorem isPlain_single {k : String} {v : JsVal} (h : v.Storable) :
    Dict.IsPlain (.ofList [(k, v)]) := by
  refine Dict.isPlain_ofList fun p hp => ?_
  rw [List.mem_singleton] at hp
  exact hp ▸ h

theorem isPlain_newProduct {data : Row} (h : data.IsPlain) : (Products.newProduct data).IsPlain := by
  unfold Products.newProduct
  refine Dict.IsPlain.set (Dict.IsPlain.set (Dict.IsPlain.set (Dict.IsPlain.set (Dict.IsPlain.set
    (h.set _ ?_) _ ?_) _ ?_) _ ?_) _ ?_) _ ?_
  all_goals exact (h _).orNullish (storable_fin _)

theorem isPlain_newProperty {data : Row} (h : data.IsPlain) :
    (Properties.newProperty data).IsPlain := by
  unfold Properties.newProperty
  refine Dict.IsPlain.set (Dict.IsPlain.set (Dict.IsPlain.set (Dict.IsPlain.set
    (h.set _ ?_) _ ?_) _ ?_) _ ?_) _ ?_
  all_goals exact (h _).orNullish (storable_fin _)

theorem isPlain_newCode {data : Row} (h : data.IsPlain) : (WelfareCodes.newCode data).IsPlain := by
  unfold WelfareCodes.newCode
  refine Dict.IsPlain.set (Dict.IsPlain.set (h.set _ ?_) _ ?_) _ ?_
  all_goals exact (h _).orNullish (storable_fin _)

theorem storable_orZero {n : JsNum} (h : ∀ neg, n ≠ .inf neg) :
    (PropertyRoutes.orZero n).Storable := by
  unfold PropertyRoutes.orZero
  cases n with
  | nan => exact storable_fin 0
  | inf neg => exact absurd rfl (h neg)
  | fin q =>
    split
    · exact storable_fin q
    · exact storable_fin 0

theorem storable_asText (v : JsVal) : (PropertyRoutes.asText v).Storable := by
  cases v with
  | str s => exact storable_str s
  | _ => exact storable_stringify _

theorem isPlain_setWhenGiven {data row row' : Row} {name column : String}
    {value : JsVal → Except JsError JsVal} (hr : row.IsPlain)
    (hv : ∀ v, value (data.get name) = .ok v → v.Storable)
    (h : PropertyRoutes.setWhenGiven data name column value row = .ok row') : row'.IsPlain := by
  unfold PropertyRoutes.setWhenGiven at h
  split at h
  · cases h
    exact hr
  · cases hx : value (data.get name) with
    | error e =>
      rw [hx] at h
      cases h
    | ok v =>
      rw [hx] at h
      cases h
      exact hr.set column (hv v hx)

/-- The steps of `withShopFields`, each with its column and its value. -/
theorem withShopFields_steps {data out : Row} (h : PropertyRoutes.withShopFields data = .ok out) :
    ∃ r1 r2 r3 r4 r5,
      PropertyRoutes.setWhenGiven data "priceYuan" "price_cent"
        (fun v => v.toNumber.map fun n => PropertyRoutes.orZero (n.mul (.fin 100)).round) data = .ok r1 ∧
      PropertyRoutes.setWhenGiven data "coverUrl" "cover_url" (fun v => .ok v) r1 = .ok r2 ∧
      PropertyRoutes.setWhenGiven data "images" "images"
        (fun v => .ok (PropertyRoutes.asText v)) r2 = .ok r3 ∧
      PropertyRoutes.setWhenGiven data "isFeatured" "is_featured"
        (fun v => .ok (.num (.fin (if v.truthy then 1 else 0)))) r3 = .ok r4 ∧
      PropertyRoutes.setWhenGiven data "sortOrder" "sort_order"
        (fun v => v.toNumber.map PropertyRoutes.orZero) r4 = .ok r5 ∧
      PropertyRoutes.setWhenGiven data "module_config" "module_config"
        (fun v => .ok (PropertyRoutes.asText v)) r5 = .ok out := by
  unfold PropertyRoutes.withShopFields at h
  obtain ⟨r1, h1, h⟩ := bind_ok h
  obtain ⟨r2, h2, h⟩ := bind_ok h
  obtain ⟨r3, h3, h⟩ := bind_ok h
  obtain ⟨r4, h4, h⟩ := bind_ok h
  obtain ⟨r5, h5, h⟩ := bind_ok h
  exact ⟨r1, r2, r3, r4, r5, h1, h2, h3, h4, h5, h⟩

theorem isPlain_withShopFields {data out : Row} (h : FiniteForm data)
    (ho : PropertyRoutes.withShopFields data = .ok out) : out.IsPlain := by
  obtain ⟨r1, r2, r3, r4, r5, h1, h2, h3, h4, h5, h6⟩ := withShopFields_steps ho
  have p1 : r1.IsPlain := isPlain_setWhenGiven h.plain (fun v hv => by
    obtain ⟨n, hn, rfl⟩ := map_ok hv
    exact storable_orZero (h.price n hn)) h1
  have p2 : r2.IsPlain := isPlain_setWhenGiven p1 (fun v hv => by
    cases hv
    exact h.plain _) h2
  have p3 : r3.IsPlain := isPlain_setWhenGiven p2 (fun v hv => by
    cases hv
    exact storable_asText _) h3
  have p4 : r4.IsPlain := isPlain_setWhenGiven p3 (fun v hv => by
    cases hv
    exact storable_fin _) h4
  have p5 : r5.IsPlain := isPlain_setWhenGiven p4 (fun v hv => by
    obtain ⟨n, hn, rfl⟩ := map_ok hv
    exact storable_orZero (h.order n hn)) h5
  exact isPlain_setWhenGiven p5 (fun v hv => by
    cases hv
    exact storable_asText _) h6

theorem storable_cellText (content : PropertyRoutes.CellContent) :
    (PropertyRoutes.cellText content).Storable :=
  (storable_absent _).or storable_null

theorem storable_trimmedOr (v : PropertyRoutes.CellValue) :
    (PropertyRoutes.trimmedOr v).Storable := by
  cases v <;> first | exact storable_str _ | exact storable_null | exact Or.inl rfl

theorem storable_auctionTime (cell : PropertyRoutes.Cell) :
    (PropertyRoutes.auctionTime cell).Storable := by
  unfold PropertyRoutes.auctionTime
  split
  all_goals first
    | exact storable_str _
    | exact storable_null
    | exact storable_trimmedOr _
    | (split
       · exact storable_str _
       · exact storable_null)

theorem isPlain_setCell {headers : ℕ → Option String} {row : Row} (h : row.IsPlain)
    (cell : PropertyRoutes.Cell) : (PropertyRoutes.setCell headers row cell).IsPlain := by
  unfold PropertyRoutes.setCell
  split
  · exact h
  · refine h.set _ ?_
    split
    · exact storable_auctionTime cell
    · exact storable_cellText _

theorem isPlain_importRow (headers : ℕ → Option String) (cells : List PropertyRoutes.Cell) :
    (PropertyRoutes.importRow headers cells).IsPlain := by
  have step : ∀ (cells : List PropertyRoutes.Cell) (row : Row), row.IsPlain →
      Dict.IsPlain (cells.foldl (PropertyRoutes.setCell headers) row) := by
    intro cells
    induction cells with
    | nil => exact fun row hrow => hrow
    | cons cell cells ih => exact fun row hrow => ih _ (isPlain_setCell hrow cell)
  exact step cells .empty Dict.isPlain_empty

theorem storable_orNull (s : Option String) : (Users.orNull s).Storable :=
  (storable_absent s).or storable_null

theorem isPlain_newUser (params : Users.Params) : (Users.newUser params).IsPlain := by
  refine Dict.isPlain_ofList fun p hp => ?_
  simp only [List.mem_cons, List.not_mem_nil, or_false] at hp
  rcases hp with rfl | rfl | rfl | rfl | rfl
  · exact storable_str _
  · exact storable_orNull _
  · exact storable_orNull _
  · exact storable_orNull _
  · exact storable_null

theorem isPlain_newIdentity (provider : String) (params : Users.Params) {userId : JsVal}
    (h : userId.Storable) : (Users.newIdentity provider params userId).IsPlain := by
  refine Dict.isPlain_ofList fun p hp => ?_
  simp only [List.mem_cons, List.not_mem_nil, or_false] at hp
  rcases hp with rfl | rfl | rfl | rfl | rfl
  · exact h
  · exact storable_str _
  · exact storable_str _
  · exact storable_orNull _
  · exact storable_orNull _

theorem isPlain_identityUpdates {params : Users.Params} {identity : Row} (h : identity.IsPlain) :
    (Users.identityUpdates params identity).IsPlain := by
  refine Dict.isPlain_ofList fun p hp => ?_
  simp only [List.mem_cons, List.not_mem_nil, or_false] at hp
  rcases hp with rfl | rfl
  · exact (storable_absent _).or (h _)
  · exact (storable_absent _).or (h _)

theorem changed_keys {user : Row} {column : String} {v : Option String} {p : String × JsVal}
    (h : p ∈ Users.changed user column v) : p.1 = column ∧ p.2.Storable := by
  unfold Users.changed at h
  split at h
  · rw [List.mem_singleton] at h
    exact h ▸ ⟨rfl, storable_absent v⟩
  · exact absurd h List.not_mem_nil

theorem loginUpdates_keys {params : Users.Params} {user : Row} {p : String × JsVal}
    (h : p ∈ Users.changed user "unionid" params.unionid ++
      Users.changed user "nickname" params.nickname ++
      Users.changed user "avatar_url" params.avatarUrl) :
    p.1 ∈ ["unionid", "nickname", "avatar_url"] ∧ p.2.Storable := by
  rcases List.mem_append.mp h with h | h
  · rcases List.mem_append.mp h with h | h
    · exact ⟨by simp [(changed_keys h).1], (changed_keys h).2⟩
    · exact ⟨by simp [(changed_keys h).1], (changed_keys h).2⟩
  · exact ⟨by simp [(changed_keys h).1], (changed_keys h).2⟩

/-- The update of a login names no other column. -/
theorem loginUpdates_has (params : Users.Params) (user : Row) {k : String}
    (hk : k ∉ ["unionid", "nickname", "avatar_url"]) :
    (Users.loginUpdates params user).has k = false := by
  unfold Users.loginUpdates
  rw [Dict.has_ofList]
  simp only [decide_eq_false_iff_not, List.mem_map, not_exists, not_and]
  rintro p hp rfl
  exact hk (loginUpdates_keys hp).1

end JtfpMall
