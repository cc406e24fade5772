import JtfpMall.Repositories.Orders

/-!
# Requests and responses

What the routers share: the response, the error handlers, and the readings of the
clock and of the random generator that come with a request. Thrown application
errors and failed schema checks are answered by `errorMiddleware`; handlers here
return that answer directly.
-/

namespace JtfpMall

open JtfpMall.Js
open JtfpMall.Lib

/-- A field of a response body: a value, a row or a list of rows. -/
inductive Reply where
  | val (v : JsVal)
  | row (r : Row)
  | rows (rs : List Row)

namespace Reply

def text (s : String) : Reply := .val (.str s)

def number (n : ℕ) : Reply := .val (.num (.ofNat n))

end Reply

structure Response where
  status : ℕ
  body : List (String × Reply)

/-- What a handler reads besides the request and the store. -/
structure Moment where
  /-- The texts `new Date().toISOString()` gives, one call after another. -/
  clock : ℕ → String
  time : Orders.LocalTime
  draw : Fin 10000

/-- `req.user.userId`: `requireUserAuth` lets only finite positive numbers pass. -/
abbrev UserId := { q : ℚ // 0 < q }

theorem userId_one : (0 : ℚ) < 1 := by decide

namespace Response

def ok (body : List (String × Reply)) : Response := ⟨200, body⟩

/-- `res.json({ success: true, message })`. -/
def success (message : String) : Response :=
  ok [("success", .val (.bool true)), ("message", .text message)]

/-- `res.status(status).json({ error })`. -/
def error (status : ℕ) (message : String) : Response := ⟨status, [("error", .text message)]⟩

/-- `res.status(status).json({ code, message })`. -/
def coded (status : ℕ) (code message : String) : Response :=
  ⟨status, [("code", .text code), ("message", .text message)]⟩

/-- The answer of `errorMiddleware` to `new AppError(status, code, message)`. -/
def appError (status : ℕ) (code message : String) : Response :=
  ⟨status, [("code", .text code), ("message", .text message), ("requestId", .text "")]⟩

/-- The answer of `errorMiddleware` to a `ZodError`. -/
def badRequest (issue : ZodIssue) : Response :=
  let path := ".".intercalate issue.path
  let message :=
    if issue.message = "" then "参数错误"
    else if path = "" then issue.message else path ++ ": " ++ issue.message
  appError 400 "BAD_REQUEST" message

def unauthorized : Response := error 401 "Unauthorized"

def needLogin : Response := coded 401 "NEED_WECHAT_OAUTH" "请先在微信内完成登录授权"

end Response

/-- `try { .. } catch (e) { next(e) }`: anything else that is thrown answers 500. -/
def guarded (m : Act Response) : Act Response :=
  m.attempt fun _ => .appError 500 "INTERNAL_ERROR" "Internal server error"

/-- `try { .. } catch (err) { res.status(500).json({ error: err.message }) }`. -/
def adminGuarded (m : Act Response) : Act Response := m.attempt fun e => .error 500 e.message

/-- `parseInt(req.query.name || d, 10)`. -/
def parseIntOr (query : Row) (name d : String) : Except JsError JsNum :=
  ((query.get name).or (.str d)).toText.map parseInt

/-- `Math.max(n, 1)` of the page the query names. -/
def pageFrom1 (query : Row) : Except JsError JsNum :=
  (parseIntOr query "page" "1").map fun n => n.max (.fin 1)

/-- `Math.min(n, 100)` of the page size the query names. -/
def pageSizeTo100 (query : Row) : Except JsError JsNum :=
  (parseIntOr query "pageSize" "20").map fun n => n.min (.fin 100)

/-- A keyword of the query; an empty one is none. -/
def keywordOf (query : Row) : JsVal := (query.get "keyword").or .undefined

/-- The page of a list with its size and the total. -/
def listPage (total : ℕ) (page pageSize : JsNum) (fields : List (String × Reply)) : Response :=
  .ok ([("total", .number total), ("page", .val (.num page)), ("pageSize", .val (.num pageSize))] ++
    fields)

end JtfpMall
