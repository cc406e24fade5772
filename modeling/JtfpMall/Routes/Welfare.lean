import JtfpMall.Repositories.WelfareCodes
import JtfpMall.Routes.Http

/-!
# Welfare code routers
-/

namespace JtfpMall.WelfareRoutes

open JtfpMall.Js
open JtfpMall.Lib

/-- The body of an answer to a validation. -/
def validationBody : WelfareCodes.Validation → List (String × Reply)
  | .refused message => [("valid", .val (.bool false)), ("message", .text message)]
  | .valid wc => [("valid", .val (.bool true)), ("welfareCode", .row wc)]

/-- POST /welfare/validate. -/
def validate (env : Env) (body : JsVal) (at_ : Moment) : Act Response :=
  guarded do
    match env.validateReq body with
    | .error issue => return .badRequest issue
    | .ok code => do
      let result ← WelfareCodes.validateCode (.str code) (at_.clock 0)
      return .ok (validationBody result)

/-- `{ success, message }`. -/
def useResult (success : Bool) : Response :=
  .ok [("success", .val (.bool success)),
    ("message", .text (if success then "福利码使用成功" else "福利码使用失败"))]

/-- POST /welfare/use. -/
def use (env : Env) (body : JsVal) (at_ : Moment) : Act Response :=
  guarded do
    match env.validateReq body with
    | .error issue => return .badRequest issue
    | .ok code => do
      match ← WelfareCodes.validateCode (.str code) (at_.clock 0) with
      | .refused message => return ⟨400, validationBody (.refused message)⟩
      | .valid _ => do
        let success ← WelfareCodes.useCode (.str code) (at_.clock 1)
        return useResult success

/-- GET /api/v1/admin/welfare-codes. -/
def adminList (env : Env) (query : Row) : Act Response :=
  adminGuarded do
    let page ← Action.lift (parseIntOr query "page" "1")
    let pageSize ← Action.lift (pageSizeTo100 query)
    let (total, codes) ← WelfareCodes.list env
      { page := some page, pageSize := some pageSize, keyword := keywordOf query,
        status := .undefined, type := .undefined }
    return listPage total page pageSize [("codes", .rows codes)]

/-- GET /api/v1/admin/welfare-codes/:id. -/
def adminDetail (id : String) : Act Response :=
  adminGuarded do
    match ← WelfareCodes.findById (parseInt id) with
    | none => return .error 404 "福利码不存在"
    | some code => do
      let items ← WelfareCodes.getItems (parseInt id)
      return .ok [("code", .row code), ("items", .rows items)]

/-- POST /api/v1/admin/welfare-codes. -/
def create (body : Row) (at_ : Moment) : Act Response :=
  adminGuarded do
    let code ← WelfareCodes.create body (at_.clock 0)
    return .ok [("success", .val (.bool true)), ("id", .val (code.get "id"))]

/-- PUT /api/v1/admin/welfare-codes/:id. -/
def update (id : String) (body : Row) (at_ : Moment) : Act Response :=
  adminGuarded do
    match ← WelfareCodes.findById (parseInt id) with
    | none => return .error 404 "福利码不存在"
    | some _ => do
      let _ ← WelfareCodes.update (parseInt id) body (at_.clock 0)
      return .ok [("success", .val (.bool true))]

/-- DELETE /api/v1/admin/welfare-codes/:id. -/
def delete (id : String) : Act Response :=
  adminGuarded do
    let _ ← WelfareCodes.remove (parseInt id)
    return .ok [("success", .val (.bool true))]

/-- POST /api/v1/admin/welfare-codes/validate. -/
def adminValidate (body : Row) (at_ : Moment) : Act Response :=
  adminGuarded do
    let result ← WelfareCodes.validateCode (body.get "code") (at_.clock 0)
    return .ok (validationBody result)

end JtfpMall.WelfareRoutes
