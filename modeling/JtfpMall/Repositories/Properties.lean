import JtfpMall.Repositories.Listing

/-!
# Properties repository
-/

namespace JtfpMall.Properties

open JtfpMall.Js
open JtfpMall.Lib

structure ListQuery where
  page : Option JsNum
  pageSize : Option JsNum
  communityName : JsVal
  customerPhone : JsVal
  authCode : JsVal
  startAt : JsVal
  endAt : JsVal
  keyword : JsVal
  categoryId : Option JsNum
  status : JsVal

def ListQuery.filters (env : Env) (query : ListQuery) :
    Except JsError (List (Row → Except JsError Bool)) := do
  let name ← lowered env "communityName" query.communityName
  let kw ← lowered env "keyword" query.keyword
  return onlyIf query.communityName.truthy (columnMatches env "community_name" name) ++
    onlyIf query.customerPhone.truthy (columnIncludes "customer_phone" query.customerPhone) ++
    onlyIf query.authCode.truthy (columnIncludes "auth_code" query.authCode) ++
    onlyIf query.startAt.truthy (createdFrom query.startAt) ++
    onlyIf query.endAt.truthy (createdTo query.endAt) ++
    onlyIf query.keyword.truthy
      (either (columnMatches env "community_name" kw) (columnMatches env "detail_address" kw)) ++
    onlyIf (query.categoryId.any fun n => n.truthy && (JsNum.fin 0).lt? n == some true)
      (columnIs "category_id" (query.categoryId.elim .undefined .num)) ++
    onlyIf (query.status != .undefined) (columnIs "status" query.status)

def list (env : Env) (query : ListQuery) : Act (ℕ × List Row) := do
  let filters ← Action.lift (query.filters env)
  let rows ← listed env .properties filters
  return (rows.length, paginate query.page query.pageSize rows)

/-- `${row.community_name || ''} ${row.house_type || ''}`.trim() || '房源'. -/
def title (row : Row) : Except JsError JsVal := do
  let name ← ((row.get "community_name").or (.str "")).toText
  let house ← ((row.get "house_type").or (.str "")).toText
  return (JsVal.str (trim (name ++ " " ++ house))).or (.str "房源")

/-- `Number(row.column || d)`. -/
def numberOr (row : Row) (column : String) (d : JsNum) : Except JsError JsVal :=
  ((row.get column).or (.num d)).toNumber.map .num

/-- `column: row.column`, for each of the columns. -/
def columns (row : Row) (cs : List String) : List (String × JsVal) := cs.map fun c => (c, row.get c)

/-- A property as the mall lists it. -/
def mallItem (row : Row) : Except JsError Row := do
  let title ← title row
  let price ← numberOr row "price_cent" (.fin 0)
  let stock ← numberOr row "stock" (.fin 1)
  let featured ← numberOr row "is_featured" (.fin 0)
  return .ofList ([("id", row.get "id"), ("title", title),
    ("community_name", row.get "community_name"),
    ("subtitle", (row.get "detail_address").or (.str "")), ("price_cent", price)] ++
    columns row ["cover_url", "building_area", "floor_info", "house_type", "starting_price",
      "evaluation_total_price", "school_district", "business_circle", "auction_time",
      "bidding_phase", "profit_space"] ++
    [("stock", stock), ("is_featured", featured), ("created_at", row.get "created_at")])

def listMall (env : Env) (query : ListQuery) : Act (ℕ × List Row) := do
  let (total, rows) ← list env { query with status := .num (.fin 1) }
  let items ← Action.lift (rows.mapM mallItem)
  return (total, items)

def findById (id : JsNum) : Act (Option Row) := Act.findById .properties (.num id)

/-- The texts between commas. -/
def splitCommas (s : String) : List String :=
  (s.toList.splitOnP fun c => decide (c = ',')).map String.ofList

/-- The `images` column: a JSON text, or a list of texts between commas. -/
def imagesOf (row : Row) : JsVal :=
  match row.get "images" with
  | .str s =>
    if s = "" then .arr []
    else match Json.parse s with
      | .ok v => v
      | .error _ => .arr ((((splitCommas s).map trim).filter fun t => decide (t ≠ "")).map .str)
  | _ => .arr []

/-- One tab of the page of a property. -/
def tab (key name : String) (order : ℕ) : JsVal :=
  .obj [("key", .str key), ("name", .str name), ("visible", .bool true),
    ("order", .num (.ofNat order))]

def defaultModuleConfig : JsVal :=
  .obj [("tabs", .arr [tab "property" "房源" 1, tab "auction" "拍卖" 2, tab "loan" "金融" 3,
    tab "tax" "税费" 4])]

/-- The `module_config` column, or the default when it is missing or does not parse. -/
def moduleConfigOf (row : Row) : JsVal :=
  if (row.get "module_config").truthy then
    match row.get "module_config" with
    | .str s => match Json.parse s with
      | .ok v => v
      | .error _ => defaultModuleConfig
    | v => v
  else defaultModuleConfig

/-- A property as the mall shows it. -/
def mallDetail (row : Row) : Except JsError Row := do
  let title ← title row
  let price ← numberOr row "price_cent" (.fin 0)
  let stock ← numberOr row "stock" (.fin 1)
  return .ofList ([("id", row.get "id"), ("title", title), ("price_cent", price),
    ("cover_url", row.get "cover_url"), ("images", imagesOf row),
    ("description", row.get "description"), ("stock", stock)] ++
    columns row ["community_name", "house_type", "building_area", "floor_info", "building_year",
      "decoration_status", "property_status", "property_type", "detail_address",
      "school_district", "business_circle", "starting_price", "starting_unit_price",
      "evaluation_total_price", "evaluation_unit_price", "market_total_price",
      "market_unit_price", "loan_70_percent", "loan_80_percent", "loan_90_percent",
      "profit_space", "auction_time", "bidding_phase", "auction_platform", "auction_deposit",
      "deed_tax_rate", "deed_tax_amount", "vat_rate", "vat_amount", "income_tax_rate",
      "income_tax_amount"] ++
    [("module_config", moduleConfigOf row), ("created_at", row.get "created_at"),
      ("updated_at", row.get "updated_at")])

/-- `r.id === id && r.status === 1`. -/
def shown (id : JsNum) (r : Row) : Bool :=
  (r.get "id").strictEq (.num id) && (r.get "status").strictEq (.num (.fin 1))

def findMallById (id : JsNum) : Act (Option Row) := do
  match ← Act.findOne .properties (shown id) with
  | none => return none
  | some row => Action.lift ((mallDetail row).map some)

/-- The row `create` inserts. -/
def newProperty (data : Row) : Row :=
  ((((data.set "status" ((data.get "status").orNullish (.num (.fin 0)))).set
    "is_featured" ((data.get "is_featured").orNullish (.num (.fin 0)))).set
    "sort_order" ((data.get "sort_order").orNullish (.num (.fin 0)))).set
    "stock" ((data.get "stock").orNullish (.num (.fin 1)))).set
    "price_cent" ((data.get "price_cent").orNullish (.num (.fin 0)))

def create (data : Row) (now : String) : Act Row := Act.insert .properties (newProperty data) now

def update (id : JsNum) (data : Row) (now : String) : Act Bool :=
  Act.update .properties (.num id) data now

def remove (id : JsNum) : Act Bool := Act.remove .properties (.num id)

/-- One `create` after another. -/
def createAll : List Row → (ℕ → String) → Act Unit
  | [], _ => pure ()
  | row :: rows, clock => do
    let _ ← create row (clock 0)
    createAll rows fun i => clock (i + 1)

def bulkInsert (rows : List Row) (clock : ℕ → String) : Act ℕ := do
  createAll rows clock
  Act.flushNow (clock rows.length)
  return rows.length

/-- The elements of the `Set` made of a list: the first of equal ones. -/
def distinct : List JsVal → List JsVal
  | [] => []
  | v :: vs => v :: (distinct vs).filter fun w => !w.strictEq v

/-- The community names without repeats, in the order of texts. -/
def namesOf (rows : List Row) : Except JsError (List JsVal) :=
  let names := distinct ((rows.map fun r => r.get "community_name").filter JsVal.truthy)
  arraySort (fun a b => do
    let s ← a.toText
    let t ← b.toText
    return if textLt s t then .fin (-1) else if textLt t s then .fin 1 else .fin 0) names

def getCommunityNames : Act (List JsVal) := do
  let rows ← Act.getTable .properties
  Action.lift (namesOf rows)

def existsByCategoryId (categoryId : JsNum) : Act Bool := do
  let found ← Act.findOne .properties fun r => (r.get "category_id").strictEq (.num categoryId)
  return found.isSome

end JtfpMall.Properties
