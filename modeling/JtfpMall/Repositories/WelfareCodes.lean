import JtfpMall.Repositories.Listing

/-!
# Welfare codes repository
-/

namespace JtfpMall.WelfareCodes

open JtfpMall.Js
open JtfpMall.Lib

structure ListQuery where
  page : Option JsNum
  pageSize : Option JsNum
  keyword : JsVal
  status : JsVal
  type : JsVal

def ListQuery.filters (env : Env) (query : ListQuery) :
    Except JsError (List (Row → Except JsError Bool)) := do
  let kw ← lowered env "keyword" query.keyword
  return onlyIf query.keyword.truthy
      (either (columnMatches env "code" kw) (columnMatches env "name" kw)) ++
    onlyIf (query.status != .undefined) (columnIs "status" query.status) ++
    onlyIf query.type.truthy (columnIs "type" query.type)

/-- `xs.filter(Boolean).join(', ')`. -/
def joined (xs : List JsVal) : Except JsError JsVal := do
  let texts ← JsVal.elementTexts (xs.filter JsVal.truthy)
  return .str (", ".intercalate texts)

/-- `i.welfare_code_id === id`. -/
def ofCode (id : JsVal) (i : Row) : Bool := (i.get "welfare_code_id").strictEq id

def withItems (items : List Row) (wc : Row) : Except JsError Row := do
  let codeItems := items.filter (ofCode (wc.get "id"))
  let codes ← joined (codeItems.map fun i => i.get "sku_code")
  let titles ← joined (codeItems.map fun i => i.get "sku_title")
  return (wc.set "sku_codes" codes).set "sku_titles" titles

def list (env : Env) (query : ListQuery) : Act (ℕ × List Row) := do
  let filters ← Action.lift (query.filters env)
  let rows ← listed env .welfareCodes filters
  let items ← Act.getTable .welfareCodeItems
  let codes ← Action.lift ((paginate query.page query.pageSize rows).mapM (withItems items))
  return (rows.length, codes)

def findById (id : JsNum) : Act (Option Row) := Act.findById .welfareCodes (.num id)

/-- `r.code === code`. -/
def hasCode (code : JsVal) (r : Row) : Bool := (r.get "code").strictEq code

def findByCode (code : JsVal) : Act (Option Row) := Act.findOne .welfareCodes (hasCode code)

/-- The row `create` inserts. -/
def newCode (data : Row) : Row :=
  ((data.set "total_count" ((data.get "total_count").orNullish (.num (.fin 0)))).set
    "used_count" ((data.get "used_count").orNullish (.num (.fin 0)))).set
    "status" ((data.get "status").orNullish (.num (.fin 1)))

def create (data : Row) (now : String) : Act Row := Act.insert .welfareCodes (newCode data) now

def update (id : JsNum) (data : Row) (now : String) : Act Bool :=
  Act.update .welfareCodes (.num id) data now

/-- The code goes with its items. -/
def remove (id : JsNum) : Act Bool := do
  let _ ← Act.removeWhere .welfareCodeItems (ofCode (.num id))
  Act.remove .welfareCodes (.num id)

/-- `wc.used_count >= wc.total_count`. -/
def usedUp (wc : Row) : Except JsError Bool := (wc.get "used_count").ge (wc.get "total_count")

def useCode (code : JsVal) (now : String) : Act Bool := do
  match ← findByCode code with
  | none => return false
  | some wc => do
    if ← Action.lift (usedUp wc) then return false
    else do
      let used ← Action.lift ((wc.get "used_count").add (.num (.fin 1)))
      Act.update .welfareCodes (wc.get "id") (.ofList [("used_count", used)]) now

def getItems (id : JsNum) : Act (List Row) := Act.findAll .welfareCodeItems (ofCode (.num id))

def addItem (data : Row) (now : String) : Act Row := Act.insert .welfareCodeItems data now

def removeItem (id : JsNum) : Act Bool := Act.remove .welfareCodeItems (.num id)

/-- The result of a validation: a message, or the code. -/
inductive Validation where
  | refused (message : String)
  | valid (welfareCode : Row)

/-- Whether the code of a row can be used at the time `now`. -/
def validity (wc : Row) (now : String) : Except JsError Validation := do
  if !(wc.get "status").strictEq (.num (.fin 1)) then return .refused "福利码已禁用"
  else if ← usedUp wc then return .refused "福利码已用完"
  else if (wc.get "valid_from").truthy && (← (JsVal.str now).lt (wc.get "valid_from")) then
    return .refused "福利码尚未生效"
  else if (wc.get "valid_to").truthy && (← (JsVal.str now).gt (wc.get "valid_to")) then
    return .refused "福利码已过期"
  else return .valid wc

def validateCode (code : JsVal) (now : String) : Act Validation := do
  match ← findByCode code with
  | none => return .refused "福利码不存在"
  | some wc => Action.lift (validity wc now)

end JtfpMall.WelfareCodes
