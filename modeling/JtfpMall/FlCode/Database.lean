import JtfpMall.Js.Value
import JtfpMall.Lib.UniqueTable

/-!
# The database of FLcode

The tables `fl_codes` and `fl_config` with the statements of `db.ts`. The phone of a code is
unique: a statement that would give two rows one phone fails with
`SQLITE_CONSTRAINT_UNIQUE` and is undone.
-/

namespace JtfpMall.FlCode

open JtfpMall.Js
open JtfpMall.Lib

/-- A row of `fl_codes` without its id. -/
structure CodeRow where
  phone : String
  code : String
  note : Option String
  createdAt : String
  updatedAt : String
deriving DecidableEq

structure Db where
  codes : UniqueTable CodeRow
  config : Dict String

def defaultConfigs : Dict String := .ofList [
  ("success_msg", "恭喜您，领取成功！"),
  ("fail_msg", "抱歉，未找到您的福利码，请确认手机号是否正确。"),
  ("usage_tip", "请在有效期内使用此码，复制码到指定页面兑换即可。"),
  ("admin_password", "admin123"),
  ("page_title", "福利码领取")]

/-- `initDB()`: a key that is there keeps its value. -/
def initDB (db : Db) : Db := { db with config := defaultConfigs.spread db.config }

/-- `note || null`. -/
def noteOrNull (note : Option String) : Option String := note.filter fun s => decide (s ≠ "")

structure Result where
  success : Bool
  message : String
  id : Option ℕ

structure Item where
  phone : String
  code : String
  note : Option String

/-- The row after the UPDATE of `updateCode`. -/
def CodeRow.updated (item : Item) (now : String) (row : CodeRow) : CodeRow :=
  { row with phone := item.phone, code := item.code, note := noteOrNull item.note, updatedAt := now }

structure BatchResult where
  success : ℕ
  failed : ℕ
  errors : List String

namespace Db

def getCodeByPhone (phone : String) (db : Db) : Option CodeRow := db.codes.find CodeRow.phone phone

def getConfig (key : String) (db : Db) : Option String := db.config.get? key

/-- The INSERT of `addCode` and `addCodesBatch`. -/
def insertCode (item : Item) (now : String) (db : Db) : Option Db :=
  (db.codes.insert CodeRow.phone ⟨item.phone, item.code, noteOrNull item.note, now, now⟩).map
    fun codes => { db with codes := codes }

def addCode (item : Item) (now : String) (db : Db) : Result × Db :=
  match db.insertCode item now with
  | some db => (⟨true, "添加成功", some db.codes.lastId⟩, db)
  | none => (⟨false, "该手机号已存在", none⟩, db)

/-- The loop of `addCodesBatch`; its transaction commits what did not fail. -/
def insertItems : List Item → String → BatchResult → Db → BatchResult × Db
  | [], _, result, db => (result, db)
  | item :: items, now, result, db =>
    match db.insertCode item now with
    | some db => insertItems items now { result with success := result.success + 1 } db
    | none => insertItems items now
        { result with failed := result.failed + 1,
                      errors := result.errors ++ ["手机号 " ++ item.phone ++ " 已存在"] } db

def addCodesBatch (items : List Item) (now : String) (db : Db) : BatchResult × Db :=
  db.insertItems items now ⟨0, 0, []⟩

def updateCode (id : ℕ) (item : Item) (now : String) (db : Db) : Result × Db :=
  match db.codes.update CodeRow.phone id (CodeRow.updated item now) with
  | none => (⟨false, "该手机号已存在", none⟩, db)
  | some (changes, codes) =>
    if changes = 0 then (⟨false, "记录不存在", none⟩, { db with codes := codes })
    else (⟨true, "更新成功", none⟩, { db with codes := codes })

/-- The id comes from `parseInt`: a number beyond every row is compared like any other. -/
def deleteCode (id : JsNum) (db : Db) : Result × Db :=
  let (changes, codes) := db.codes.delete fun i => (JsNum.ofNat i).strictEq id
  if changes = 0 then (⟨false, "记录不存在", none⟩, { db with codes := codes })
  else (⟨true, "删除成功", none⟩, { db with codes := codes })

def clearAllCodes (db : Db) : Result × Db :=
  (⟨true, "已清空所有数据", none⟩, { db with codes := db.codes.clear })

def setConfigs (configs : List (String × String)) (db : Db) : Db :=
  { db with config := configs.foldl (fun config p => config.set p.1 p.2) db.config }

end Db

end JtfpMall.FlCode
