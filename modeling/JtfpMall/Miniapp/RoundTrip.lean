import JtfpMall.Miniapp.Checkout
import JtfpMall.Server.OrderNumbers

/-!
# Orders of the mini-program

The payload names its parts `items` and `address`, the schema of the server knows neither, and
the answer names the number `order_no` where the mini-program looks for `orderNo`. So an order
is made without address and items, and the checkout stops with an error.
-/

namespace JtfpMall

open JtfpMall.Js
open JtfpMall.Lib

/-- `z.array(z.object({ skuId: z.number(), quantity: z.number().min(1) })).optional()`. -/
def SkuItems (v : JsVal) : Prop :=
  v = .undefined ∨ ∃ xs, v = .arr xs ∧ ∀ x ∈ xs, (∃ fields, x = .obj fields) ∧
    ∃ skuId quantity : ℚ, 1 ≤ quantity ∧ x.prop "skuId" = .ok (.num (.fin skuId)) ∧
      x.prop "quantity" = .ok (.num (.fin quantity))

/-- The schema of an order accepts the body and gives the request: the keys it names pass their
checks, and the others are dropped. -/
structure CreateOrderReq.Parsed (body : JsVal) (req : CreateOrderReq) : Prop where
  object : ∃ fields, body = .obj fields
  propertyId : body.prop "propertyId" = .ok (req.propertyId.elim .undefined .num)
  finite : ∀ n, req.propertyId = some n → n.isFinite = true
  skuItems : ∃ v, body.prop "skuItems" = .ok v ∧ SkuItems v
  addressSnapshot : body.prop "addressSnapshot" = .ok req.addressSnapshot
  buyerNote : body.prop "buyerNote" = .ok (absent req.buyerNote)
  inviteCode : body.prop "inviteCode" = .ok (absent req.inviteCode)

/-- The host checks the bodies of orders as the schema says. -/
def Env.ParsesOrders (env : Env) : Prop :=
  ∀ body req, CreateOrderReq.Parsed body req → env.createOrderReq body = .ok req

theorem Env.optionalText_absent {body : JsVal} {name : String} {text : Option String}
    (h : body.prop name = .ok (absent text)) : Env.optionalText body name = .ok text := by
  unfold optionalText
  rw [h]
  cases text <;> rfl

theorem Env.plain_parsesOrders : Env.plain.ParsesOrders := by
  rintro body ⟨propertyId, addressSnapshot, buyerNote, inviteCode⟩ h
  have hnote := Env.optionalText_absent h.buyerNote
  have hcode := Env.optionalText_absent h.inviteCode
  have hproperty := h.propertyId
  have haddress := h.addressSnapshot
  have hfinite := h.finite
  dsimp only at hnote hcode hproperty haddress hfinite
  unfold Env.plain
  dsimp only
  rw [hnote, hcode, hproperty, haddress]
  cases propertyId with
  | none => rfl
  | some n =>
    cases n with
    | fin q => rfl
    | nan => exact absurd (hfinite _ rfl) (by decide)
    | inf pos => exact absurd (hfinite _ rfl) (by simp [JsNum.isFinite])

namespace Miniapp

/-- The order shows the receiver of the address. -/
structure Receiver (name phone detail : JsVal) (a : SavedAddress) : Prop where
  name : name = .str a.name
  phone : phone = .str a.phone
  detail : detail = .str a.detail

/-- The item is the one of the cart line. -/
def CartLine.Shown (it : CartLine) (item : JsVal) : Prop :=
  (match it.sku with
    | some sku => item.prop "sku_id" = .ok (.num sku)
    | none => item.prop "product_id" = .ok (.num it.productId)) ∧
  item.prop "quantity" = .ok (.num it.quantity)

/-- The list of orders and the detail page show the address and the lines under the number. -/
structure Decodes (env : Env) (u : UserId) (page : Page) (a : SavedAddress) (orderNo : String)
    (at_ : Moment) (s : Store) : Prop where
  listed : ∃ order row, s.findOne .orders (Orders.hasNo orderNo) = some order ∧
    Orders.withUser (s.getTable .users) order = .ok row ∧
    Receiver (row.get "address_name") (row.get "address_phone") (row.get "address_detail") a
  shown : ∃ res data detail name phone address,
    Server.answer env (.user (some u) (.myOrder orderNo)) at_ s = .ok res ∧
    resolved res = some data ∧ loadDetail data = .ok detail ∧
    detail.address.prop "name" = .ok name ∧ detail.address.prop "phone" = .ok phone ∧
    detail.address.prop "detail" = .ok address ∧ Receiver name phone address a ∧
    List.Forall₂ CartLine.Shown page.items detail.items

/-- A create request that is answered with success is recognised, and its order decodes to
the page it was made from. -/
def RoundTrip (env : Env) (user : Option UserId) (page : Page) (body : JsVal) (at_ : Moment)
    (s : Store) : Prop :=
  ∀ res data, Server.answer env (.user user (.createOrder body)) at_ s = .ok res →
    resolved res = some data → ∃ u a orderNo, user = some u ∧ page.address = some a ∧
      createdOrderNo data = .ok orderNo ∧
      Decodes env u page a orderNo at_ (Server.serve env (.user user (.createOrder body)) at_ s)

/-- What the server makes of the payload. -/
def request (page : Page) : CreateOrderReq :=
  ⟨none, .undefined, none,
    if page.isWelfareOrder && decide (page.inviteCode ≠ "") then some page.inviteCode else none⟩

theorem submitOrder_eq {page : Page} {body : JsVal} (h : page.submitOrder = some body) :
    ∃ a, page.address = some a ∧ page.items ≠ [] ∧ body = (page.payload a).viaJson := by
  unfold Page.submitOrder at h
  split at h
  · cases h
  · split at h
    · cases h
    · rename_i hitems
      cases ha : page.address with
      | none =>
        rw [ha] at h
        cases h
      | some a =>
        rw [ha] at h
        dsimp only at h
        split at h
        · cases h
        · refine ⟨a, rfl, fun hnil => hitems ?_, (Option.some.inj h).symm⟩
          rw [hnil]
          rfl

/-- The fields of the body. -/
theorem viaJson_payload (page : Page) (a : SavedAddress) :
    (page.payload a).viaJson =
      .obj ([("items", (JsVal.arr (page.items.map CartLine.toPayload)).viaJson),
        ("address", a.toPayload.viaJson)] ++
        if page.isWelfareOrder && decide (page.inviteCode ≠ "") then
          [("inviteCode", .str page.inviteCode)] else []) := by
  unfold Page.payload SavedAddress.toPayload
  split
  · simp [JsVal.viaJson, JsVal.viaJsonFields]
  · simp [JsVal.viaJson, JsVal.viaJsonFields]

/-- The schema drops the items and the address. -/
theorem parsed_payload (page : Page) (a : SavedAddress) :
    CreateOrderReq.Parsed (page.payload a).viaJson (request page) := by
  rw [viaJson_payload]
  unfold request
  split
  · exact ⟨⟨_, rfl⟩, rfl, fun n hn => (nomatch hn), ⟨.undefined, rfl, Or.inl rfl⟩, rfl, rfl, rfl⟩
  · exact ⟨⟨_, rfl⟩, rfl, fun n hn => (nomatch hn), ⟨.undefined, rfl, Or.inl rfl⟩, rfl, rfl, rfl⟩

/-- The answer to a creation has no `orderNo`. -/
theorem createdOrderNo_summary {orderNo status : String} {total : ℚ} {data : JsVal}
    (h : resolved (.ok [("order_no", .val (.str orderNo)), ("status", .val (.str status)),
      ("total_amount", .val (.num (.fin total)))]) = some data) :
    createdOrderNo data = .error ⟨"Error", "创建订单失败：缺少订单号"⟩ := by
  unfold resolved at h
  rw [if_pos ⟨le_refl 200, (by decide : 200 < 300)⟩, Option.some.injEq] at h
  have hdata : data = .obj [("order_no", .str orderNo), ("status", .str status),
      ("total_amount", .num (.fin total))] := by
    rw [← h]
    simp [dataOf, fieldOf, Response.ok, JsVal.viaJson, JsVal.viaJsonFields, JsNum.isFinite]
  rw [hdata]
  rfl

section
variable {env : Env} {page : Page} {body : JsVal}

/-- The order is made, without an address and without items. -/
theorem serve_submitOrder (henv : env.ParsesOrders) (hbody : page.submitOrder = some body)
    (u : UserId) (at_ : Moment) (s : Store) :
    let s' := Server.serve env (.user (some u) (.createOrder body)) at_ s
    s'.cache.rows .orderItems = s.cache.rows .orderItems ∧
      ∃ order ∈ s'.cache.rows .orders,
        order.get "order_no" = .str (Orders.generateOrderNo at_.time at_.draw) ∧
        order.get "address_snapshot" = .undefined ∧ Orders.addressData order = .obj [] := by
  obtain ⟨a, _, _, rfl⟩ := submitOrder_eq hbody
  have hreq := henv _ _ (parsed_payload page a)
  dsimp only
  rw [Server.serve_create hreq]
  refine ⟨?_, ?_⟩
  · unfold Store.addOrder
    rw [Store.rows_insert, if_neg (by decide)]
  · obtain ⟨b, hb, order, hmem, horder⟩ := Server.created (Server.answer_create (s := s) (u := u) hreq)
    rw [hreq, Except.ok.injEq] at hb
    subst hb
    rw [Server.serve_create hreq] at hmem
    have haddress : order.get "address_snapshot" = .undefined := by
      rw [horder.address]
      rfl
    refine ⟨order, hmem, horder.number, haddress, ?_⟩
    unfold Orders.addressData
    rw [haddress]
    rfl

/-- The answer to a logged-in user is not recognised. -/
theorem not_roundTrip (henv : env.ParsesOrders) (hbody : page.submitOrder = some body) (u : UserId)
    (at_ : Moment) (s : Store) : ¬RoundTrip env (some u) page body at_ s := by
  intro h
  obtain ⟨a, _, _, rfl⟩ := submitOrder_eq hbody
  have hreq := henv _ _ (parsed_payload page a)
  obtain ⟨_, _, orderNo, _, _, hno, _⟩ := h _ _ (Server.answer_create hreq) rfl
  rw [createdOrderNo_summary rfl] at hno
  cases hno

/-- The checkout round trip holds of a request exactly when nobody is logged in for it. -/
theorem roundTrip_iff (henv : env.ParsesOrders) (hbody : page.submitOrder = some body)
    (user : Option UserId) (at_ : Moment) (s : Store) :
    RoundTrip env user page body at_ s ↔ user = none := by
  constructor
  · intro h
    cases user with
    | none => rfl
    | some u => exact absurd h (not_roundTrip henv hbody u at_ s)
  · rintro rfl res data hanswer hdata
    cases hanswer
    cases hdata

end

/-- Two pieces of one product, to an address in Shanghai. -/
def onePage : Page where
  items := [⟨.fin 7, none, .fin 2⟩]
  address := some
    { name := "王小明", phone := "13800000000", province := "上海市", city := "上海市",
      district := "静安区", detail := "南京西路 1 号", name_ne := by decide, phone_long := by decide,
      area_ne := by decide, detail_ne := by decide }
  submitting := false
  isWelfareOrder := false
  welfareInviteCode := ""

theorem onePage_submitOrder : ∃ body, onePage.submitOrder = some body := ⟨_, rfl⟩

/-- Without a login the request of the page is refused. -/
theorem roundTrip_iff_refused : ∃ body, onePage.submitOrder = some body ∧
    RoundTrip .plain none onePage body (Server.moment "t2")
      (Server.start "t0" (fun _ => "t1") .empty) := by
  obtain ⟨body, hbody⟩ := onePage_submitOrder
  exact ⟨body, hbody, (roundTrip_iff Env.plain_parsesOrders hbody none _ _).mpr rfl⟩

/-- The page is submitted by a user and answered with success: the mini-program finds no order
number in the answer, and the order has neither address nor items. -/
theorem checkout_loses_order :
    let s := Server.start "t0" (fun _ => "t1") .empty
    let u : UserId := ⟨1, by decide⟩
    ∃ body res data, onePage.submitOrder = some body ∧
      Server.answer .plain (.user (some u) (.createOrder body)) (Server.moment "t2") s = .ok res ∧
      resolved res = some data ∧
      createdOrderNo data = .error ⟨"Error", "创建订单失败：缺少订单号"⟩ ∧
      (let s' := Server.serve .plain (.user (some u) (.createOrder body)) (Server.moment "t2") s
      s'.cache.rows .orderItems = [] ∧
        ∃ order ∈ s'.cache.rows .orders, order.get "address_snapshot" = .undefined) ∧
      ¬RoundTrip .plain (some u) onePage body (Server.moment "t2") s := by
  intro s u
  obtain ⟨body, hbody⟩ := onePage_submitOrder
  have hnot := not_roundTrip Env.plain_parsesOrders hbody u (Server.moment "t2") s
  obtain ⟨hitems, order, hmem, _, haddress, _⟩ :=
    serve_submitOrder Env.plain_parsesOrders hbody u (Server.moment "t2") s
  obtain ⟨a, _, _, rfl⟩ := submitOrder_eq hbody
  have hreq := Env.plain_parsesOrders _ _ (parsed_payload onePage a)
  exact ⟨_, _, _, hbody, Server.answer_create hreq, rfl, createdOrderNo_summary rfl,
    ⟨hitems, order, hmem, haddress⟩, hnot⟩

end Miniapp

end JtfpMall
