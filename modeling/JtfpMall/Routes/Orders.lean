import JtfpMall.Routes.Http

/-!
# User-facing order routers

`/orders`, `/api/v1/orders` and `/api/v1/me/orders`. The two creation handlers
are the same text.
-/

namespace JtfpMall.OrderRoutes

open JtfpMall.Js
open JtfpMall.Lib

/-- The order a request asks for. -/
def orderData (userId : UserId) (body : CreateOrderReq) : Row :=
  .ofList [("user_id", .num (.fin userId)), ("property_id", body.propertyId.elim .undefined .num),
    ("status", .str "PENDING_PAYMENT"), ("total_amount", .num (.fin 0)),
    ("address_snapshot",
      if body.addressSnapshot.truthy then Json.stringify body.addressSnapshot else .undefined),
    ("buyer_note", absent body.buyerNote), ("invite_code", absent body.inviteCode)]

/-- `{ order_no, status, total_amount }`. -/
def summary (order : Row) : Response :=
  .ok [("order_no", .val (order.get "order_no")), ("status", .val (order.get "status")),
    ("total_amount", .val (order.get "total_amount"))]

/-- POST /orders and POST /api/v1/orders. -/
def create (env : Env) (userId : UserId) (body : JsVal) (at_ : Moment) : Act Response :=
  guarded do
    match env.createOrderReq body with
    | .error issue => return .badRequest issue
    | .ok body => do
      let order ← Orders.create (orderData userId body) at_.time at_.draw (at_.clock 0)
      return summary order

/-- GET /orders/:orderNo/status. -/
def status (orderNo : String) : Act Response :=
  guarded do
    match ← Orders.findByOrderNo orderNo with
    | none => return .appError 404 "ORDER_NOT_FOUND" "订单不存在"
    | some order => return summary order

/-- `order.user_id === userId`. -/
def ownedBy (userId : UserId) (order : Row) : Bool :=
  (order.get "user_id").strictEq (.num (.fin userId))

/-- The order with its items. -/
def withItems (orderNo : String) (order : Row) : Act Response := do
  let items ← Orders.getOrderItems orderNo
  return .ok [("order", .row order), ("items", .rows items)]

/-- GET /api/v1/orders/:orderNo. -/
def detail (userId : UserId) (orderNo : String) : Act Response :=
  guarded do
    match ← Orders.findByOrderNo orderNo with
    | none => return .appError 404 "ORDER_NOT_FOUND" "订单不存在"
    | some order =>
      if ownedBy userId order then withItems orderNo order
      else return .appError 403 "FORBIDDEN" "无权访问此订单"

/-- `order.status === 'PENDING_PAYMENT'`. -/
def pending (order : Row) : Bool := (order.get "status").strictEq (.str "PENDING_PAYMENT")

/-- POST /api/v1/orders/:orderNo/cancel. -/
def cancel (userId : UserId) (orderNo : String) (at_ : Moment) : Act Response :=
  guarded do
    match ← Orders.findByOrderNo orderNo with
    | none => return .appError 404 "ORDER_NOT_FOUND" "订单不存在"
    | some order =>
      if !ownedBy userId order then return .appError 403 "FORBIDDEN" "无权操作此订单"
      else if !pending order then return .appError 400 "CANNOT_CANCEL" "当前状态不可取消"
      else do
        let _ ← Orders.updateStatus orderNo (.str "CANCELLED") (at_.clock 0)
        let _ ← Orders.logChange orderNo "status" (order.get "status") (.str "CANCELLED") "user"
          (at_.clock 1)
        return .success "订单已取消"

/-- GET /api/v1/me/orders. -/
def mine (env : Env) (userId : UserId) (query : Row) : Act Response :=
  guarded do
    let page ← Action.lift (pageFrom1 query)
    let pageSize ← Action.lift (pageSizeTo100 query)
    let (total, orders) ← Orders.list env
      { page := some page, pageSize := some pageSize, status := query.get "status",
        orderNo := .undefined, phone := .undefined, startAt := .undefined, endAt := .undefined,
        userId := some (.fin userId) }
    return listPage total page pageSize [("orders", .rows orders)]

/-- GET /api/v1/me/orders/:orderNo. -/
def myDetail (userId : UserId) (orderNo : String) : Act Response :=
  guarded do
    match ← Orders.findByOrderNo orderNo with
    | none => return .coded 404 "NOT_FOUND" "订单不存在"
    | some order =>
      if ownedBy userId order then withItems orderNo order
      else return .coded 403 "FORBIDDEN" "无权访问"

/-- POST /api/v1/me/orders/:orderNo/cancel. -/
def cancelMine (userId : UserId) (orderNo : String) (at_ : Moment) : Act Response :=
  guarded do
    match ← Orders.findByOrderNo orderNo with
    | none => return .coded 404 "NOT_FOUND" "订单不存在"
    | some order =>
      if !ownedBy userId order then return .coded 403 "FORBIDDEN" "无权操作"
      else if !pending order then return .coded 400 "CANNOT_CANCEL" "当前状态不可取消"
      else do
        -- unlike the other cancel handler, this one records no change
        let _ ← Orders.updateStatus orderNo (.str "CANCELLED") (at_.clock 0)
        return .ok [("success", .val (.bool true))]

end JtfpMall.OrderRoutes
