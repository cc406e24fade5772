import JtfpMall.Repositories.Listing

/-!
# Orders repository
-/

namespace JtfpMall.Orders

open JtfpMall.Js
open JtfpMall.Lib

/-- The local clock fields `generateOrderNo` reads. -/
structure LocalTime where
  year : ℕ
  month : Fin 12
  date : Fin 32
  hours : Fin 24
  minutes : Fin 60
  seconds : Fin 60
deriving DecidableEq

/-- `String(n).padStart(width, '0')`. -/
def padStart (width n : ℕ) : List Char :=
  let digits := Nat.toDigits 10 n
  List.replicate (width - digits.length) '0' ++ digits

/-- The second on the clock, then `Math.floor(Math.random() * 10000)` in four digits. -/
def generateOrderNo (now : LocalTime) (draw : Fin 10000) : String :=
  .ofList (Nat.toDigits 10 now.year ++ padStart 2 (now.month + 1) ++ padStart 2 now.date ++
    padStart 2 now.hours ++ padStart 2 now.minutes ++ padStart 2 now.seconds ++ padStart 4 draw)

structure ListQuery where
  page : Option JsNum
  pageSize : Option JsNum
  status : JsVal
  orderNo : JsVal
  phone : JsVal
  startAt : JsVal
  endAt : JsVal
  userId : Option JsNum

/-- `JSON.parse(r.address_snapshot)`. -/
def parseAddress (r : Row) : Except JsError JsVal := do
  let text ← (r.get "address_snapshot").toText
  Json.parse text

/-- The address snapshot has a phone that includes `kw`; what does not parse has none. -/
def phoneIncludes (kw : JsVal) (r : Row) : Except JsError Bool :=
  if (r.get "address_snapshot").truthy then
    let test : Except JsError Bool := do
      let addr ← parseAddress r
      let phone ← addr.prop "phone"
      if phone.isNullish then return false else phone.includes "addr.phone?.includes" kw
    .ok (match test with | .ok b => b | .error _ => false)
  else .ok false

def ListQuery.filters (query : ListQuery) : List (Row → Except JsError Bool) :=
  onlyIf query.status.truthy (columnIs "status" query.status) ++
  onlyIf query.orderNo.truthy
    (fun r => (r.get "order_no").includes "r.order_no.includes" query.orderNo) ++
  onlyIf (query.userId.any JsNum.truthy) (columnIs "user_id" (query.userId.elim .undefined .num)) ++
  onlyIf query.phone.truthy (phoneIncludes query.phone) ++
  onlyIf query.startAt.truthy (createdFrom query.startAt) ++
  onlyIf query.endAt.truthy (createdTo query.endAt)

/-- `userMap.get(order.user_id)`: of two users with one id, the later. -/
def userOf (users : List Row) (order : Row) : Option Row :=
  if (order.get "user_id").truthy then
    users.reverse.find? fun u => decide (u.get "id" = order.get "user_id")
  else none

/-- `addressData`: what does not parse is an empty object. -/
def addressData (order : Row) : JsVal :=
  if (order.get "address_snapshot").truthy then
    match parseAddress order with
    | .ok v => v
    | .error _ => .obj []
  else .obj []

/-- `user?.column`. -/
def userColumn (user : Option Row) (column : String) : JsVal :=
  user.elim .undefined fun u => u.get column

def withUser (users : List Row) (order : Row) : Except JsError Row := do
  let user := userOf users order
  let address := addressData order
  let phone ← if (userColumn user "phone").truthy then pure (userColumn user "phone")
    else address.prop "phone"
  let name ← address.prop "name"
  let addressPhone ← address.prop "phone"
  let detail ← address.prop "detail"
  return ((((order.set "user_nickname" ((userColumn user "nickname").or .null)).set
    "user_phone" (phone.or .null)).set "address_name" (name.or .null)).set
    "address_phone" (addressPhone.or .null)).set "address_detail" (detail.or .null)

def list (env : Env) (query : ListQuery) : Act (ℕ × List Row) := do
  let rows ← listed env .orders query.filters
  let users ← Act.getTable .users
  let orders ← Action.lift ((paginate query.page query.pageSize rows).mapM (withUser users))
  return (rows.length, orders)

/-- `r.order_no === orderNo`. -/
def hasNo (orderNo : String) (r : Row) : Bool := (r.get "order_no").strictEq (.str orderNo)

def findByOrderNo (orderNo : String) : Act (Option Row) := Act.findOne .orders (hasNo orderNo)

/-- The row `create` inserts. -/
def newOrder (data : Row) (orderNo : String) : Row :=
  (((data.set "order_no" ((data.get "order_no").or (.str orderNo))).set
    "status" ((data.get "status").or (.str "pending"))).set
    "total_amount" ((data.get "total_amount").or (.num (.fin 0)))).set "version" (.num (.fin 0))

def create (data : Row) (time : LocalTime) (draw : Fin 10000) (now : String) : Act Row :=
  Act.insert .orders (newOrder data (generateOrderNo time draw)) now

def update (orderNo : String) (data : Row) (now : String) : Act Bool := do
  match ← findByOrderNo orderNo with
  | none => return false
  | some order => Act.update .orders (order.get "id") data now

def updateStatus (orderNo : String) (status : JsVal) (now : String) : Act Bool := do
  match ← findByOrderNo orderNo with
  | none => return false
  | some order => Act.update .orders (order.get "id") (.ofList [("status", status)]) now

/-- `r.order_no === orderNo`, for whatever a payload holds. -/
def hasNoOf (orderNo : JsVal) (r : Row) : Bool := (r.get "order_no").strictEq orderNo

/-- `findByOrderNo(orderNo)`. -/
def findByNo (orderNo : JsVal) : Act (Option Row) := Act.findOne .orders (hasNoOf orderNo)

/-- `updateStatus(orderNo, status, extraData)`. -/
def updateStatusWith (orderNo status : JsVal) (extraData : Row) (now : String) : Act Bool := do
  match ← findByNo orderNo with
  | none => return false
  | some order =>
    Act.update .orders (order.get "id") ((Dict.ofList [("status", status)]).spread extraData) now

/-- The order goes with its items. -/
def remove (orderNo : String) : Act Bool := do
  match ← findByOrderNo orderNo with
  | none => return false
  | some order => do
    let _ ← Act.removeWhere .orderItems (hasNo orderNo)
    Act.remove .orders (order.get "id")

def getOrderItems (orderNo : String) : Act (List Row) := Act.findAll .orderItems (hasNo orderNo)

def addOrderItem (item : Row) (now : String) : Act Row := Act.insert .orderItems item now

/-- The row `logChange` inserts. -/
def changeLog (orderNo fieldName : String) (oldValue newValue : JsVal) (operator : String) : Row :=
  .ofList [("order_no", .str orderNo), ("field_name", .str fieldName), ("old_value", oldValue),
    ("new_value", newValue), ("operator", .str operator)]

/-- The row `logChange(orderNo, ..)` inserts. -/
def changeLogOf (orderNo : JsVal) (fieldName : String) (oldValue newValue : JsVal)
    (operator : String) : Row :=
  .ofList [("order_no", orderNo), ("field_name", .str fieldName), ("old_value", oldValue),
    ("new_value", newValue), ("operator", .str operator)]

def logChange (orderNo fieldName : String) (oldValue newValue : JsVal) (operator now : String) :
    Act Row :=
  Act.insert .orderChangeLogs (changeLog orderNo fieldName oldValue newValue operator) now

/-- Latest first; the filter has made a copy, so no table is sorted. -/
def getChangeLogs (env : Env) (orderNo : String) : Act (List Row) := do
  let logs ← Act.findAll .orderChangeLogs (hasNo orderNo)
  Action.lift (arraySort (byCreatedAt env) logs)

def countByStatus (status : Option String) : Act ℕ :=
  match status with
  | some status => Act.count .orders fun r => (r.get "status").strictEq (.str status)
  | none => Act.count .orders fun _ => true

end JtfpMall.Orders
