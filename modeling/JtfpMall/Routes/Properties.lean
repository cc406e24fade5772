import JtfpMall.Repositories.Properties
import JtfpMall.Routes.Http

/-!
# Property routers

The mall pages and the admin pages of the properties, with the import of a sheet.
The sheet comes as the workbook library read it. Its headers are looked up among
the keys the header map has itself.
-/

namespace JtfpMall.PropertyRoutes

open JtfpMall.Js
open JtfpMall.Lib

def headerMap : List (String × String) :=
  [("开拍时间", "auction_time"), ("竞价阶段", "bidding_phase"), ("小区名称", "community_name"),
    ("详细地址", "detail_address"), ("建筑面积/㎡", "building_area"), ("房屋户型", "house_type"),
    ("楼层", "floor_info"), ("建筑年份", "building_year"), ("装修情况", "decoration_status"),
    ("物业现状", "property_status"), ("持有年数", "holding_years"), ("物业类型", "property_type"),
    ("起拍价", "starting_price"), ("起拍单价", "starting_unit_price"),
    ("竞拍平台", "auction_platform"), ("竞拍保证金", "auction_deposit"),
    ("加价幅度", "price_increment"), ("评估总价", "evaluation_total_price"),
    ("评估单价", "evaluation_unit_price"), ("7成可贷金额", "loan_70_percent"),
    ("8成可贷金额", "loan_80_percent"), ("9成可贷金额", "loan_90_percent"),
    ("市场参考总价", "market_total_price"), ("市场参考单价", "market_unit_price"),
    ("学区", "school_district"), ("商圈", "business_circle"), ("捡漏空间", "profit_space"),
    ("授权码", "auth_code"), ("契税率", "deed_tax_rate"), ("契税金额", "deed_tax_amount"),
    ("增值税率", "vat_rate"), ("增值税金额", "vat_amount"), ("个税率", "income_tax_rate"),
    ("个税金额", "income_tax_amount"), ("客户姓名", "customer_name"),
    ("客户联系号码", "customer_phone"), ("客户尽调简介", "customer_survey_brief"),
    ("归属业务员", "assigned_salesman"), ("unionID", "unionID"), ("OpenID", "openID")]

/-- The UTC fields of a date cell, and what its `toString` gives. -/
structure CellDate where
  year : ℕ
  month : ℕ
  day : ℕ
  hours : ℕ
  minutes : ℕ
  seconds : ℕ
  text : String

/-- What a cell holds, or what a formula gave. -/
inductive CellValue where
  | undefined
  | null
  | text (s : String)
  | number (n : JsNum)
  | bool (b : Bool)
  | date (d : CellDate)
  /-- Any other object, with what its `toString` gives. -/
  | object (shown : String)

/-- The value of a cell. -/
inductive CellContent where
  | plain (v : CellValue)
  | richText (parts : List String)
  | formula (result : CellValue)

structure Cell where
  column : ℕ
  content : CellContent
  numFmt : String

/-- `value?.toString()`. -/
def CellValue.toText : CellValue → Option String
  | .undefined => none
  | .null => none
  | .text s => some s
  | .number n => some n.toText
  | .bool b => some (if b then "true" else "false")
  | .date d => some d.text
  | .object shown => some shown

def CellContent.toText : CellContent → Option String
  | .plain v => v.toText
  | .richText _ => some "[object Object]"
  | .formula _ => some "[object Object]"

/-- The text of a date cell, as exact as the format of the cell. -/
def dateText (d : CellDate) (fmt : String) : String :=
  let pad (n : ℕ) := String.ofList (Orders.padStart 2 n)
  let day := toString d.year ++ "/" ++ toString d.month ++ "/" ++ toString d.day
  if "h:mm:ss".toList <:+: fmt.toList then
    day ++ " " ++ toString d.hours ++ ":" ++ pad d.minutes ++ ":" ++ pad d.seconds
  else if "h:mm".toList <:+: fmt.toList then
    day ++ " " ++ toString d.hours ++ ":" ++ pad d.minutes ++ ":00"
  else day

/-- `v?.toString ? v.toString().trim() : v`. -/
def trimmedOr (v : CellValue) : JsVal :=
  match v with
  | .undefined => .undefined
  | .null => .null
  | v => (v.toText.map trim).elim .null .str

/-- The auction time keeps the look it has in the sheet. -/
def auctionTime (cell : Cell) : JsVal :=
  match cell.content with
  | .plain (.date d) => .str (trim (dateText d cell.numFmt))
  | .plain (.text s) => .str (trim s)
  | .plain .undefined => .null
  | .plain .null => .null
  | .plain (.number n) => if n.truthy then .str (trim n.toText) else .null
  | .plain (.bool b) => if b then .str "true" else .null
  | .plain (.object shown) => .str (trim shown)
  | .richText parts => .str (trim ("".intercalate parts))
  | .formula result => trimmedOr result

/-- `value?.toString().trim() || null`. -/
def cellText (content : CellContent) : JsVal :=
  let text := match content with
    | .formula result => result.toText
    | c => c.toText
  (absent (text.map trim)).or .null

/-- What a cell adds to the row: nothing under an unknown header. -/
def setCell (headers : ℕ → Option String) (row : Row) (cell : Cell) : Row :=
  match (headers cell.column).bind fun header => headerMap.lookup header with
  | none => row
  | some field =>
    row.set field (if field = "auction_time" then auctionTime cell else cellText cell.content)

def importRow (headers : ℕ → Option String) (cells : List Cell) : Row :=
  cells.foldl (setCell headers) .empty

/-- The upload of an import, as the workbook library read it. -/
inductive Upload where
  | missing
  | unreadable (message : String)
  | noSheet
  /-- The first row, and the others that are not empty. -/
  | sheet (headers : List Cell) (rows : List (List Cell))

/-- `headers[column]`: the trimmed text of the header cell. -/
def headerAt (headers : List Cell) (column : ℕ) : Option String :=
  (headers.find? fun c => decide (c.column = column)).bind fun c => c.content.toText.map trim

def importRows (headers : List Cell) (rows : List (List Cell)) : List Row :=
  (rows.map (importRow (headerAt headers))).filter fun r => (r.get "community_name").truthy

/-- POST /api/v1/admin/properties/import. -/
def importSheet (upload : Upload) (at_ : Moment) : Act Response :=
  adminGuarded do
    match upload with
    | .missing => return .error 400 "请上传文件"
    | .unreadable message => return .error 500 message
    | .noSheet => return .error 400 "Excel文件内容为空"
    | .sheet headers rows =>
      if importRows headers rows = [] then
        return .error 400 "未找到有效数据（小区名称不能为空）"
      else do
        let count ← Properties.bulkInsert (importRows headers rows) at_.clock
        return .ok [("success", .val (.bool true)),
          ("message", .text ("成功导入 " ++ toString count ++ " 条房源数据")),
          ("count", .number count)]

/-- GET /api/v1/admin/properties. -/
def adminList (env : Env) (query : Row) : Act Response :=
  adminGuarded do
    let page ← Action.lift (parseIntOr query "page" "1")
    let pageSize ← Action.lift (pageSizeTo100 query)
    let (total, rows) ← Properties.list env
      { page := some page, pageSize := some pageSize, communityName := query.get "communityName",
        customerPhone := query.get "customerPhone", authCode := query.get "authCode",
        startAt := query.get "startAt", endAt := query.get "endAt", keyword := .undefined,
        categoryId := none, status := .undefined }
    return listPage total page pageSize [("properties", .rows rows)]

/-- GET /api/v1/admin/properties/communities. -/
def communities : Act Response :=
  adminGuarded do
    let names ← Properties.getCommunityNames
    return .ok [("communities", .val (.arr names))]

/-- GET /api/v1/admin/properties/:id. -/
def adminDetail (id : String) : Act Response :=
  adminGuarded do
    match ← Properties.findById (stringToNumber id) with
    | none => return .error 404 "房源不存在"
    | some property => return .ok [("property", .row property)]

/-- `n || 0`. -/
def orZero (n : JsNum) : JsVal := .num (if n.truthy then n else .fin 0)

/-- A text as it is, anything else as JSON text. -/
def asText (v : JsVal) : JsVal :=
  match v with
  | .str s => .str s
  | v => Json.stringify v

/-- `if (data.name !== undefined) row.column = value`. -/
def setWhenGiven (data : Row) (name column : String) (value : JsVal → Except JsError JsVal)
    (row : Row) : Except JsError Row :=
  if data.get name = .undefined then .ok row
  else (value (data.get name)).map fun v => row.set column v

/-- The body with the fields of the shop page, as both writing handlers prepare it. -/
def withShopFields (data : Row) : Except JsError Row := do
  let row ← setWhenGiven data "priceYuan" "price_cent"
    (fun v => v.toNumber.map fun n => orZero (n.mul (.fin 100)).round) data
  let row ← setWhenGiven data "coverUrl" "cover_url" (fun v => .ok v) row
  let row ← setWhenGiven data "images" "images" (fun v => .ok (asText v)) row
  let row ← setWhenGiven data "isFeatured" "is_featured"
    (fun v => .ok (.num (.fin (if v.truthy then 1 else 0)))) row
  let row ← setWhenGiven data "sortOrder" "sort_order" (fun v => v.toNumber.map orZero) row
  setWhenGiven data "module_config" "module_config" (fun v => .ok (asText v)) row

/-- POST /api/v1/admin/properties. -/
def create (data : Row) (at_ : Moment) : Act Response :=
  adminGuarded do
    if !(data.get "community_name").truthy then return .error 400 "小区名称为必填项"
    else do
      let propertyData ← Action.lift (withShopFields data)
      let property ← Properties.create propertyData (at_.clock 0)
      return .ok [("success", .val (.bool true)), ("message", .text "房源创建成功"),
        ("id", .val (property.get "id"))]

/-- PUT /api/v1/admin/properties/:id. -/
def update (id : String) (data : Row) (at_ : Moment) : Act Response :=
  adminGuarded do
    match ← Properties.findById (stringToNumber id) with
    | none => return .error 404 "房源不存在"
    | some _ => do
      let updateData ← Action.lift (withShopFields data)
      let _ ← Properties.update (stringToNumber id) updateData (at_.clock 0)
      return .success "房源更新成功"

/-- DELETE /api/v1/admin/properties/:id. -/
def delete (id : String) : Act Response :=
  adminGuarded do
    match ← Properties.findById (stringToNumber id) with
    | none => return .error 404 "房源不存在"
    | some _ => do
      let _ ← Properties.remove (stringToNumber id)
      return .success "房源删除成功"

/-- A row of the exported sheet. -/
def exportRow (p : Row) : Row :=
  .ofList (Properties.columns p ["id", "community_name", "detail_address", "house_type",
      "building_area", "starting_price"] ++
    [("status", .str (if (p.get "status").strictEq (.num (.fin 1)) then "上架" else "下架")),
      ("created_at", p.get "created_at")])

/-- POST /api/v1/admin/export/properties, with the rows of the sheet as its body. -/
def exportAll (env : Env) : Act Response :=
  adminGuarded do
    let (_, rows) ← Properties.list env
      { page := none, pageSize := some (.fin 10000), communityName := .undefined,
        customerPhone := .undefined, authCode := .undefined, startAt := .undefined,
        endAt := .undefined, keyword := .undefined, categoryId := none, status := .undefined }
    return .ok [("rows", .rows (rows.map exportRow))]

/-- `toInt(v, fallback)`. -/
def toInt (v : JsVal) (fallback : ℕ) : Except JsError JsNum := do
  let text ← (v.orNullish (.str "")).toText
  let n := parseInt text
  return if n.isFinite then n else .ofNat fallback

/-- `String(query.keyword || '').trim() || undefined`. -/
def mallKeyword (query : Row) : Except JsError JsVal :=
  ((query.get "keyword").or (.str "")).toText.map fun t => (JsVal.str (trim t)).or .undefined

/-- GET /api/v1/properties/mall. -/
def mallList (env : Env) (query : Row) : Act Response :=
  guarded do
    let page ← Action.lift (toInt (query.get "page") 1)
    let pageSize ← Action.lift (toInt (query.get "pageSize") 20)
    let keyword ← Action.lift (mallKeyword query)
    let categoryId ← Action.lift (toInt (query.get "categoryId") 0)
    let page := page.max (.fin 1)
    let pageSize := (pageSize.max (.fin 1)).min (.fin 100)
    let (total, list) ← Properties.listMall env
      { page := some page, pageSize := some pageSize, communityName := .undefined,
        customerPhone := .undefined, authCode := .undefined, startAt := .undefined,
        endAt := .undefined, keyword := keyword,
        categoryId := if (JsNum.fin 0).lt? categoryId = some true then some categoryId else none,
        status := .undefined }
    return listPage total page pageSize
      [("list", .rows list), ("data", .rows list), ("properties", .rows list)]

/-- GET /api/v1/properties/mall/:id. -/
def mallDetail (id : String) : Act Response :=
  guarded do
    match ← Properties.findMallById (stringToNumber id) with
    | none => return .coded 404 "NOT_FOUND" "房源不存在或已下架"
    | some property =>
      return .ok [("data", .row property), ("property", .row property), ("skus", .rows [])]

end JtfpMall.PropertyRoutes
