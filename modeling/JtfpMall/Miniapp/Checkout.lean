import JtfpMall.Routes.Http

/-!
# The checkout of the mini-program

What the mini-program sends when an order is submitted, and how it reads the answers: the
order number out of the creation, the address and the items out of the detail.
-/

namespace JtfpMall.Miniapp

open JtfpMall.Js
open JtfpMall.Lib

/-- A line of the local cart: `addToCart` and `updateQty` leave numbers in it. -/
structure CartLine where
  productId : JsNum
  /-- `skuId || null`. -/
  skuId : Option JsNum
  qty : JsNum

/-- The address `save` of the address page stores. -/
structure SavedAddress where
  name : String
  phone : String
  province : String
  city : String
  district : String
  detail : String
  name_ne : name ≠ ""
  phone_long : 6 ≤ (utf16 phone).length
  area_ne : province ≠ "" ∧ city ≠ "" ∧ district ≠ ""
  detail_ne : detail ≠ ""

/-- The data of the page. -/
structure Page where
  items : List CartLine
  address : Option SavedAddress
  submitting : Bool
  isWelfareOrder : Bool
  welfareInviteCode : String

namespace SavedAddress

def region (a : SavedAddress) : String := trim (a.province ++ " " ++ a.city ++ " " ++ a.district)

/-- The address of the payload. -/
def toPayload (a : SavedAddress) : JsVal :=
  .obj [("name", .str a.name), ("phone", .str a.phone), ("region", .str a.region),
    ("province", .str a.province), ("city", .str a.city), ("district", .str a.district),
    ("detail", .str a.detail)]

end SavedAddress

namespace CartLine

/-- `it.skuId ? Number(it.skuId) : undefined`. -/
def sku (it : CartLine) : Option JsNum := it.skuId.filter JsNum.truthy

/-- `Number(it.qty || 1)`. -/
def quantity (it : CartLine) : JsNum := if it.qty.truthy then it.qty else .fin 1

/-- A line of the payload. -/
def toPayload (it : CartLine) : JsVal :=
  .obj [("productId", .num it.productId), ("skuId", it.sku.elim .undefined .num),
    ("qty", .num it.quantity)]

end CartLine

/-- `/^\d{6}$/.test(code)`. -/
def sixDigits (code : String) : Bool := decide (code.toList.length = 6) && code.toList.all isDigit

namespace Page

def inviteCode (page : Page) : String := trim page.welfareInviteCode

def payload (page : Page) (address : SavedAddress) : JsVal :=
  .obj ([("items", .arr (page.items.map CartLine.toPayload)), ("address", address.toPayload)] ++
    if page.isWelfareOrder && decide (page.inviteCode ≠ "") then
      [("inviteCode", .str page.inviteCode)] else [])

/-- The body of the request `submitOrder` makes, unless it returns before. -/
def submitOrder (page : Page) : Option JsVal :=
  if page.submitting then none
  else if page.items.isEmpty then none
  else match page.address with
    | none => none
    | some address =>
      if page.isWelfareOrder && !sixDigits page.inviteCode then none
      else some (page.payload address).viaJson

end Page

/-- A field of an answer, as JSON has it. -/
def fieldOf : Reply → JsVal
  | .val v => v
  | .row r => .obj r.entries
  | .rows rs => .arr (rs.map fun r => .obj r.entries)

/-- `res.data`. -/
def dataOf (res : Response) : JsVal :=
  (JsVal.obj (res.body.map fun field => (field.1, fieldOf field.2))).viaJson

/-- What `request` resolves with; it rejects an answer that is not a success. -/
def resolved (res : Response) : Option JsVal :=
  if 200 ≤ res.status ∧ res.status < 300 then some (dataOf res) else none

/-- `orderRes.orderNo || (orderRes.data && orderRes.data.orderNo)`. -/
def orderNoOf (orderRes : JsVal) : Except JsError JsVal := do
  let orderNo ← orderRes.prop "orderNo"
  if orderNo.truthy then return orderNo
  else do
    let data ← orderRes.prop "data"
    if data.truthy then data.prop "orderNo" else return data

/-- The number `submitOrder` goes on with. -/
def createdOrderNo (orderRes : JsVal) : Except JsError String := do
  let orderNo ← orderNoOf orderRes
  if orderNo.truthy then orderNo.toText else .error ⟨"Error", "创建订单失败：缺少订单号"⟩

/-- What the detail page shows. -/
structure Detail where
  order : JsVal
  items : List JsVal
  address : JsVal

/-- The address of an order: one that does not parse is none. -/
def addressOf (order : JsVal) : JsVal :=
  let address : Except JsError JsVal := do
    let raw ← if order.truthy then order.prop "address_snapshot" else pure order
    match raw with
    | .str text => if text = "" then return .null else Json.parse text
    | .obj fs => return .obj fs
    | .arr xs => return .arr xs
    | _ => return .null
  match address with
  | .ok v => v
  | .error _ => .null

/-- `loadDetail`, of what the request resolved with. -/
def loadDetail (res : JsVal) : Except JsError Detail := do
  let order ← res.prop "order"
  let data ← res.prop "data"
  let order := (order.or data).or .null
  let items ← res.prop "items"
  let items := match items with
    | .arr xs => xs
    | _ => []
  return ⟨order, items, addressOf order⟩

end JtfpMall.Miniapp
