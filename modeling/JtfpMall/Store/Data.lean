import JtfpMall.Js.Value

/-!
# The data of the store

The thirteen tables, the id counters and what JSON text keeps of them. Counters
are natural numbers: they start at 1, only the store writes them, and they stay
far below the 2^53 from which the language's numbers stop counting by one.
-/

namespace JtfpMall

open JtfpMall.Js
open JtfpMall.Lib (Dict)

/-- A record of a table: `Record<string, any>`. -/
abbrev Row := Dict JsVal

inductive Table where
  | properties
  | categories
  | users
  | userIdentities
  | orders
  | orderItems
  | orderChangeLogs
  | products
  | productSkus
  | reviews
  | welfareCodes
  | welfareCodeItems
  | admins
deriving DecidableEq

/-- `_meta`. -/
structure Meta where
  nextIds : Table → Option ℕ
  createdAt : String
  updatedAt : String

structure StoreData where
  info : Meta
  rows : Table → List Row

namespace StoreData

/-- `DEFAULT_DATA`, as the module builds it when it is loaded. -/
def default (loadedAt : String) : StoreData where
  info := ⟨fun _ => none, loadedAt, loadedAt⟩
  rows := fun _ => []

def setRows (d : StoreData) (t : Table) (rows : List Row) : StoreData :=
  { d with rows := Function.update d.rows t rows }

/-- `_meta.nextIds[table] || 1`. -/
def next (d : StoreData) (t : Table) : ℕ :=
  match d.info.nextIds t with
  | some (n + 1) => n + 1
  | _ => 1

def setNext (d : StoreData) (t : Table) (n : ℕ) : StoreData :=
  { d with info := { d.info with nextIds := Function.update d.info.nextIds t (some n) } }

def setUpdatedAt (d : StoreData) (now : String) : StoreData :=
  { d with info := { d.info with updatedAt := now } }

@[simp] theorem rows_setRows_self (d : StoreData) (t : Table) (rows : List Row) :
    (d.setRows t rows).rows t = rows := Function.update_self ..

theorem rows_setRows (d : StoreData) (t u : Table) (rows : List Row) :
    (d.setRows t rows).rows u = if u = t then rows else d.rows u := by
  simp only [setRows, Function.update_apply]

theorem rows_setRows_of_ne (d : StoreData) {t u : Table} (rows : List Row) (h : u ≠ t) :
    (d.setRows t rows).rows u = d.rows u := by
  simp [rows_setRows, h]

@[simp] theorem info_setRows (d : StoreData) (t : Table) (rows : List Row) :
    (d.setRows t rows).info = d.info := rfl

@[simp] theorem next_setRows (d : StoreData) (t u : Table) (rows : List Row) :
    (d.setRows t rows).next u = d.next u := rfl

@[simp] theorem rows_setNext (d : StoreData) (t : Table) (n : ℕ) :
    (d.setNext t n).rows = d.rows := rfl

theorem next_setNext (d : StoreData) (t u : Table) (n : ℕ) :
    (d.setNext t (n + 1)).next u = if u = t then n + 1 else d.next u := by
  unfold next setNext
  by_cases h : u = t
  · simp [h]
  · simp [h, Function.update_of_ne]

@[simp] theorem rows_setUpdatedAt (d : StoreData) (now : String) :
    (d.setUpdatedAt now).rows = d.rows := rfl

@[simp] theorem next_setUpdatedAt (d : StoreData) (now : String) (t : Table) :
    (d.setUpdatedAt now).next t = d.next t := rfl

/-- The data that JSON text keeps. -/
def viaJson (d : StoreData) : StoreData :=
  { d with rows := fun t => (d.rows t).map Dict.viaJson }

/-- The data without the keys that hold `undefined`. -/
def defined (d : StoreData) : StoreData :=
  { d with rows := fun t => (d.rows t).map Dict.defined }

/-- Every value of every row is one JSON text represents faithfully. -/
def IsPlain (d : StoreData) : Prop := ∀ t, ∀ r ∈ d.rows t, Dict.IsPlain r

@[simp] theorem rows_viaJson (d : StoreData) (t : Table) :
    d.viaJson.rows t = (d.rows t).map Dict.viaJson := rfl

@[simp] theorem info_viaJson (d : StoreData) : d.viaJson.info = d.info := rfl

@[simp] theorem next_viaJson (d : StoreData) (t : Table) : d.viaJson.next t = d.next t := rfl

theorem viaJson_viaJson (d : StoreData) : d.viaJson.viaJson = d.viaJson := by
  unfold viaJson
  simp only [List.map_map]
  congr 1
  funext t
  exact List.map_congr_left fun r _ => r.viaJson_viaJson

theorem viaJson_of_isPlain {d : StoreData} (h : d.IsPlain) : d.viaJson = d.defined := by
  unfold viaJson defined
  congr 1
  funext t
  exact List.map_congr_left fun r hr => Dict.viaJson_of_isPlain (h t r hr)

end StoreData

/-- The document in a data file; a file written by hand may lack tables. -/
structure Document where
  info : Option Meta
  rows : Table → Option (List Row)

namespace Document

/-- `JSON.stringify(_cache)`, read back as the document it denotes. -/
def ofData (d : StoreData) : Document where
  info := some d.info
  rows := fun t => some ((d.rows t).map Dict.viaJson)

/-- `JSON.parse(content)`, with the missing tables taken from the default data. -/
def toData (dflt : StoreData) (doc : Document) : StoreData where
  info := doc.info.getD dflt.info
  rows := fun t => (doc.rows t).getD (dflt.rows t)

/-- Every key of the default data is there. -/
def Complete (doc : Document) : Prop := doc.info.isSome ∧ ∀ t, (doc.rows t).isSome

@[simp] theorem toData_ofData (dflt d : StoreData) : (ofData d).toData dflt = d.viaJson := rfl

/-- Data that JSON text has kept are written as before. -/
theorem ofData_viaJson (d : StoreData) : ofData d.viaJson = ofData d := by
  unfold ofData
  have hrows : ∀ t, (d.viaJson.rows t).map Dict.viaJson = (d.rows t).map Dict.viaJson := fun t =>
    congrArg (fun c : StoreData => c.rows t) d.viaJson_viaJson
  simp only [hrows, StoreData.info_viaJson]

theorem complete_ofData (d : StoreData) : (ofData d).Complete := ⟨rfl, fun _ => rfl⟩

end Document

/-- The text in a file: a whole document, or one cut off before its closing
brace, which does not parse. -/
inductive Content where
  | whole (doc : Document)
  | torn

structure Disk where
  dataFile : Option Content
  tmpFile : Option Content

/-- The two files now, and every state they passed through before, latest first. -/
structure Files where
  disk : Disk
  past : List Disk

namespace Files

/-- No data file yet. -/
def empty : Files := ⟨⟨none, none⟩, []⟩

def put (f : Files) (d : Disk) : Files := ⟨d, f.disk :: f.past⟩

/-- `fs.writeFileSync(tmpFile, text)`: on the way, the file holds a part of the text. -/
def writeTmp (f : Files) (doc : Document) : Files :=
  (f.put { f.disk with tmpFile := some .torn }).put { f.disk with tmpFile := some (.whole doc) }

/-- `fs.renameSync(tmpFile, DATA_FILE)`, atomic. -/
def rename (f : Files) : Files := f.put ⟨f.disk.tmpFile, none⟩

/-- What a crash may leave: the files as they are, or as they ever were. -/
def seen (f : Files) : List Disk := f.disk :: f.past

end Files

end JtfpMall
