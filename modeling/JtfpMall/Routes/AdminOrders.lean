import JtfpMall.Routes.Orders

/-!
# Admin order router
-/

namespace JtfpMall.AdminOrderRoutes

open JtfpMall.Js
open JtfpMall.Lib

def statusMapCn : List (String × String) :=
  [("PENDING_FREIGHT", "待处理"), ("WAIT_SHIP", "待处理"), ("SHIPPED", "已发货"),
    ("DELIVERED", "已送达"), ("COMPLETED", "已完成"), ("CLOSED_UNPAID", "已关闭"),
    ("CANCELLED", "已取消")]

/-- The functions every object inherits; JSON text leaves a function out. -/
def inherited : List String :=
  ["constructor", "hasOwnProperty", "isPrototypeOf", "propertyIsEnumerable", "toLocaleString",
    "toString", "valueOf", "__defineGetter__", "__defineSetter__", "__lookupGetter__",
    "__lookupSetter__"]

/-- `statusMapCn[o.status] || o.status`. -/
def statusCn (status : JsVal) : Except JsError JsVal := do
  let key ← status.toText
  match statusMapCn.lookup key with
  | some text => return .str text
  | none =>
    if key ∈ inherited then return .undefined
    else if key = "__proto__" then return .obj []
    else return status

/-- `safeJsonParse(v) || {}`. -/
def safeJsonParse (v : JsVal) : JsVal :=
  let parsed : JsVal := match v with
    | .arr xs => .arr xs
    | .obj fs => .obj fs
    | .str s => match Json.parse s with
      | .ok w => w
      | .error _ => .null
    | _ => .null
  parsed.or (.obj [])

/-- An order of the list as the admin page shows it. -/
def forList (o : Row) : Except JsError Row := do
  let addr := safeJsonParse (o.get "address_snapshot")
  let cn ← statusCn (o.get "status")
  let name ← addr.prop "name"
  let phone ← addr.prop "phone"
  let detail ← addr.prop "detail"
  let address ← addr.prop "address"
  return (((o.set "status_cn" cn).set
    "receiver_name" ((name.or (o.get "address_name")).or (.str ""))).set
    "receiver_phone" ((phone.or (o.get "address_phone")).or (.str ""))).set
    "receiver_address" (((detail.or address).or (o.get "address_detail")).or (.str ""))

/-- `query.at ?? (query.date ? `${query.date} time` : undefined)`. -/
def rangeEnd (query : Row) (at_ date time : String) : Except JsError JsVal :=
  if !(query.get at_).isNullish then .ok (query.get at_)
  else if (query.get date).truthy then
    (query.get date).toText.map fun day => .str (day ++ " " ++ time)
  else .ok .undefined

/-- GET /api/v1/admin/orders. -/
def list (env : Env) (query : Row) : Act Response :=
  adminGuarded do
    let page ← Action.lift (parseIntOr query "page" "1")
    let pageSize ← Action.lift (pageSizeTo100 query)
    let startAt ← Action.lift (rangeEnd query "startAt" "startDate" "00:00:00")
    let endAt ← Action.lift (rangeEnd query "endAt" "endDate" "23:59:59")
    let (total, rows) ← Orders.list env
      { page := some page, pageSize := some pageSize, status := query.get "status",
        orderNo := query.get "orderNo", phone := query.get "phone", startAt := startAt,
        endAt := endAt, userId := none }
    let orders ← Action.lift (rows.mapM forList)
    return listPage total page pageSize [("orders", .rows orders)]

/-- The order of a detail page. -/
def forDetail (order : Row) : Except JsError Row := do
  let addr := safeJsonParse (order.get "address_snapshot")
  let cn ← statusCn (order.get "status")
  let name ← addr.prop "name"
  let phone ← addr.prop "phone"
  let detail ← addr.prop "detail"
  let address ← addr.prop "address"
  return (((order.set "status_cn" cn).set "receiver_name" (name.or (.str ""))).set
    "receiver_phone" (phone.or (.str ""))).set
    "receiver_address" ((detail.or address).or (.str ""))

/-- GET /api/v1/admin/orders/:orderNo. -/
def detail (env : Env) (orderNo : String) : Act Response :=
  adminGuarded do
    match ← Orders.findByOrderNo orderNo with
    | none => return .error 404 "订单不存在"
    | some order => do
      let items ← Orders.getOrderItems orderNo
      let logs ← Orders.getChangeLogs env orderNo
      let order ← Action.lift (forDetail order)
      return .ok [("order", .row order), ("items", .rows items), ("logs", .rows logs)]

/-- PUT /api/v1/admin/orders/:orderNo/status. -/
def updateStatus (orderNo : String) (body : Row) (at_ : Moment) : Act Response :=
  adminGuarded do
    match ← Orders.findByOrderNo orderNo with
    | none => return .error 404 "订单不存在"
    | some order => do
      let _ ← Orders.updateStatus orderNo (body.get "status") (at_.clock 0)
      let _ ← Orders.logChange orderNo "status" (order.get "status") (body.get "status") "admin"
        (at_.clock 1)
      return .success "订单状态更新成功"

/-- PUT /api/v1/admin/orders/:orderNo/remark. -/
def updateRemark (orderNo : String) (body : Row) (at_ : Moment) : Act Response :=
  adminGuarded do
    match ← Orders.findByOrderNo orderNo with
    | none => return .error 404 "订单不存在"
    | some order => do
      let _ ← Orders.update orderNo (.ofList [("remark", body.get "remark")]) (at_.clock 0)
      let _ ← Orders.logChange orderNo "remark" ((order.get "remark").or (.str ""))
        ((body.get "remark").or (.str "")) "admin" (at_.clock 1)
      return .success "备注更新成功"

/-- DELETE /api/v1/admin/orders/:orderNo. -/
def delete (orderNo : String) : Act Response :=
  adminGuarded do
    match ← Orders.findByOrderNo orderNo with
    | none => return .error 404 "订单不存在"
    | some _ => do
      let _ ← Orders.remove orderNo
      return .success "订单删除成功"

/-- GET /api/v1/admin/orders/stats/summary. -/
def stats : Act Response :=
  adminGuarded do
    let total ← Orders.countByStatus none
    let payment ← Orders.countByStatus (some "PENDING_PAYMENT")
    let freight ← Orders.countByStatus (some "PENDING_FREIGHT")
    let ship ← Orders.countByStatus (some "WAIT_SHIP")
    let shipped ← Orders.countByStatus (some "SHIPPED")
    let completed ← Orders.countByStatus (some "COMPLETED")
    return .ok [("total", .number total), ("pending", .number (payment + freight + ship)),
      ("shipped", .number shipped), ("completed", .number completed)]

/-- A row of the exported sheet; the price is in yuan. -/
def exportRow (order : Row) : Except JsError Row := do
  let amount ← (order.get "total_amount").toNumber
  return .ofList [("order_no", order.get "order_no"), ("status", order.get "status"),
    ("total_amount", .num (amount.div (.fin 100))),
    ("receiver_name", (order.get "address_name").or (.str "")),
    ("receiver_phone", (order.get "address_phone").or (.str "")),
    ("receiver_address", (order.get "address_detail").or (.str "")),
    ("created_at", order.get "created_at")]

/-- POST /api/v1/admin/export/orders, with the rows of the sheet as its body. -/
def exportOrders (env : Env) (body : Row) : Act Response :=
  adminGuarded do
    let (_, orders) ← Orders.list env
      { page := none, pageSize := some (.fin 10000), status := body.get "status",
        orderNo := .undefined, phone := .undefined, startAt := body.get "startAt",
        endAt := body.get "endAt", userId := none }
    let rows ← Action.lift (orders.mapM exportRow)
    return .ok [("rows", .rows rows)]

end JtfpMall.AdminOrderRoutes
