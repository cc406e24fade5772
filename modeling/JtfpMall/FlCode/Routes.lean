import JtfpMall.FlCode.Database
import JtfpMall.Routes.Properties

/-!
# The routers of FLcode

The code routes of the admin page with the upload of a sheet, and the claim. The bodies go
through the schemas of the router, a sheet through the patterns written out in the handler.
-/

namespace JtfpMall.FlCode

open JtfpMall.Js
open JtfpMall.Lib
open JtfpMall.PropertyRoutes (CellContent)

/-- `/^1[3-9]\d{9}$/`. -/
def isPhone (s : String) : Bool :=
  match s.toList with
  | '1' :: c :: ds => decide ('3' ≤ c) && decide (c ≤ '9') && decide (ds.length = 9) && ds.all isDigit
  | _ => false

/-- `/^\d{6}$/`. -/
def isCode (s : String) : Bool := decide (s.toList.length = 6) && s.toList.all isDigit

structure UpdateBody where
  id : ℕ
  item : Item

/-- The checks of the schemas, with the message of the first issue. -/
structure Schemas where
  code : JsVal → Except String Item
  /-- The id of the path, and the body. -/
  update : String → JsVal → Except String UpdateBody
  phone : JsVal → Except String String

/-- `CodeSchema` accepts the body and reads the item from it. -/
structure Item.Accepted (body : JsVal) (item : Item) : Prop where
  object : ∃ fields, body = .obj fields
  phone : body.prop "phone" = .ok (.str item.phone)
  isPhone : isPhone item.phone = true
  code : body.prop "code" = .ok (.str item.code)
  isCode : isCode item.code = true
  note : body.prop "note" = .ok (item.note.elim .undefined .str)

/-- What the schema library does with the three schemas. An update takes its id from the path. -/
structure Schemas.Checks (schemas : Schemas) : Prop where
  code : ∀ body item, schemas.code body = .ok item ↔ Item.Accepted body item
  update : ∀ id body b, schemas.update id body = .ok b ↔
    stringToNumber id = .ofNat b.id ∧ 0 < b.id ∧ Item.Accepted body b.item
  phone : ∀ body phone, schemas.phone body = .ok phone ↔
    (∃ fields, body = .obj fields) ∧ body.prop "phone" = .ok (.str phone) ∧ isPhone phone = true

/-- `res.status(status).json({ ok: false, message })`. -/
def refused (status : ℕ) (message : String) : Response :=
  ⟨status, [("ok", .val (.bool false)), ("message", .text message)]⟩

/-- The answer to a statement. -/
def answerOf (result : Result) : Response :=
  if result.success then
    .ok ([("ok", .val (.bool true)), ("message", .text result.message)] ++
      result.id.elim [] fun id => [("id", .number id)])
  else refused 400 result.message

def answered (p : Result × Db) : Response × Db := (answerOf p.1, p.2)

/-- `String(cell.value || '').trim()`. -/
def cellText (content : CellContent) : String :=
  let text := match content with
    | .plain (.number n) => if n.truthy then n.toText else ""
    | .plain (.bool b) => if b then "true" else ""
    | content => content.toText.getD ""
  trim text

/-- A row of the sheet that is not empty. -/
structure SheetRow where
  number : ℕ
  phone : CellContent
  code : CellContent
  note : CellContent

inductive Upload where
  | missing
  /-- The upload library refuses the file. -/
  | rejected (message : String)
  | unreadable (message : String)
  | noSheet
  | sheet (rows : List SheetRow)

/-- The item of a row, or what is wrong with it. -/
def parseRow (row : SheetRow) : Except String Item :=
  let phone := cellText row.phone
  let code := cellText row.code
  let note := cellText row.note
  if !isPhone phone then
    .error ("第 " ++ toString row.number ++ " 行：手机号格式无效 (" ++ phone ++ ")")
  else if !isCode code then
    .error ("第 " ++ toString row.number ++ " 行：码格式无效，需要6位数字 (" ++ code ++ ")")
  else .ok ⟨phone, code, if note = "" then none else some note⟩

/-- The rows behind the header row. -/
def parsed (rows : List SheetRow) : List (Except String Item) :=
  (rows.filter fun row => decide (row.number ≠ 1)).map parseRow

def itemsOf (rows : List SheetRow) : List Item :=
  (parsed rows).filterMap fun
    | .ok item => some item
    | .error _ => none

def parseErrors (rows : List SheetRow) : List String :=
  (parsed rows).filterMap fun
    | .ok _ => none
    | .error message => some message

def texts (ss : List String) : Reply := .val (.arr (ss.map .str))

/-- POST /api/admin/upload. -/
def upload (file : Upload) (now : String) (db : Db) : Response × Db :=
  match file with
  | .missing => (refused 400 "请选择文件", db)
  | .rejected message => (refused 500 message, db)
  | .unreadable message => (refused 500 message, db)
  | .noSheet => (refused 400 "Excel 文件为空", db)
  | .sheet rows =>
    if itemsOf rows = [] then
      (⟨400, [("ok", .val (.bool false)), ("message", .text "未找到有效数据"),
        ("errors", texts (parseErrors rows))]⟩, db)
    else
      let (result, db) := db.addCodesBatch (itemsOf rows) now
      (.ok [("ok", .val (.bool true)),
        ("message", .text ("导入完成：成功 " ++ toString result.success ++ " 条，失败 " ++
          toString result.failed ++ " 条")),
        ("success", .number result.success), ("failed", .number result.failed),
        ("errors", texts ((parseErrors rows ++ result.errors).take 50))], db)

/-- What `authMiddleware` finds of the token. -/
inductive Session where
  | missing
  | expired
  | valid

inductive AdminRequest where
  | addCode (body : JsVal)
  | updateCode (id : String) (body : JsVal)
  | deleteCode (id : String)
  | clearCodes
  | upload (file : Upload)

inductive Request where
  | admin (session : Session) (r : AdminRequest)
  | claim (body : JsVal)

/-- POST /api/admin/codes. -/
def addCode (schemas : Schemas) (body : JsVal) (now : String) (db : Db) : Response × Db :=
  match schemas.code body with
  | .error message => (refused 400 message, db)
  | .ok item => answered (db.addCode item now)

/-- PUT /api/admin/codes/:id. -/
def updateCode (schemas : Schemas) (id : String) (body : JsVal) (now : String) (db : Db) :
    Response × Db :=
  match schemas.update id body with
  | .error message => (refused 400 message, db)
  | .ok b => answered (db.updateCode b.id b.item now)

/-- DELETE /api/admin/codes/:id. -/
def deleteCode (id : String) (db : Db) : Response × Db :=
  let n := parseIntAny id
  if n = .nan ∨ n = .fin 0 ∨ n.lt? (.fin 0) = some true then (refused 400 "无效的 ID", db)
  else answered (db.deleteCode n)

/-- DELETE /api/admin/codes. -/
def clearCodes (db : Db) : Response × Db := answered db.clearAllCodes

/-- `getConfig(key) || d`. -/
def configOr (db : Db) (key d : String) : Reply :=
  .text (((db.getConfig key).filter fun s => decide (s ≠ "")).getD d)

/-- POST /api/claim. -/
def claim (schemas : Schemas) (body : JsVal) (db : Db) : Response :=
  match schemas.phone body with
  | .error message => refused 400 (if message = "" then "参数错误" else message)
  | .ok phone =>
    match db.getCodeByPhone phone with
    | some record =>
      .ok [("ok", .val (.bool true)), ("found", .val (.bool true)), ("code", .text record.code),
        ("note", .val (record.note.elim .null .str)),
        ("message", configOr db "success_msg" "恭喜您，领取成功！"),
        ("usage_tip", configOr db "usage_tip" "请在有效期内使用此码。")]
    | none =>
      .ok [("ok", .val (.bool true)), ("found", .val (.bool false)),
        ("message", configOr db "fail_msg" "抱歉，未找到您的福利码，请确认手机号是否正确。")]

def AdminRequest.handle (schemas : Schemas) (now : String) : AdminRequest → Db → Response × Db
  | .addCode body => FlCode.addCode schemas body now
  | .updateCode id body => FlCode.updateCode schemas id body now
  | .deleteCode id => FlCode.deleteCode id
  | .clearCodes => FlCode.clearCodes
  | .upload file => FlCode.upload file now

def Request.handle (schemas : Schemas) (now : String) (db : Db) : Request → Response × Db
  | .admin .missing _ => (refused 401 "请先登录", db)
  | .admin .expired _ => (refused 401 "登录已过期，请重新登录", db)
  | .admin .valid r => r.handle schemas now db
  | .claim body => (FlCode.claim schemas body db, db)

/-- What happens to the server. -/
inductive Event where
  | request (r : Request) (now : String)
  /-- The pairs that `POST /api/admin/config` passes on. -/
  | configure (configs : List (String × String))
  | restart

def step (schemas : Schemas) (db : Db) : Event → Db
  | .request r now => (r.handle schemas now db).2
  | .configure configs => db.setConfigs configs
  | .restart => initDB db

/-- The database of the first start. -/
def start : Db := initDB ⟨.empty, .empty⟩

end JtfpMall.FlCode
