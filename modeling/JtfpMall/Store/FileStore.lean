import JtfpMall.Store.Data
import JtfpMall.Lib.Keyed

/-!
# The file store

The module-level variables of the store with the files it keeps, and its
functions. `_cache` is null only before the first call of any function; every
function starts with `loadData`, so the state here is what that call left. The
text of each clock reading is an argument.
-/

namespace JtfpMall

open JtfpMall.Js
open JtfpMall.Lib

structure Store where
  cache : StoreData
  dirty : Bool
  /-- The timer `_flushTimer` names is pending. -/
  flushTimer : Bool
  files : Files

namespace Store

/-- The timestamp goes into the cache first; then tmp file and rename. -/
def saveDataSync (now : String) (s : Store) : Store :=
  let cache := s.cache.setUpdatedAt now
  { s with
    cache := cache
    dirty := false
    files := (s.files.writeTmp (.ofData cache)).rename }

/-- The first `loadData` of a process that finds the files `f`. -/
def loadData (loadedAt now : String) (f : Files) : Store :=
  match f.disk.dataFile with
  | some (.whole doc) => ⟨doc.toData (.default loadedAt), false, false, f⟩
  | some .torn => ⟨.default loadedAt, false, false, f⟩
  | none => saveDataSync now ⟨.default loadedAt, false, false, f⟩

def markDirty (s : Store) : Store := { s with dirty := true, flushTimer := true }

/-- What the callback of the flush timer does. -/
def timerFired (now : String) (s : Store) : Store :=
  let s := { s with flushTimer := false }
  if s.dirty then s.saveDataSync now else s

def flushNow (now : String) (s : Store) : Store :=
  let s := { s with flushTimer := false }
  if s.dirty then s.saveDataSync now else s

def nextId (t : Table) (s : Store) : ℕ × Store :=
  let current := s.cache.next t
  (current, markDirty { s with cache := s.cache.setNext t (current + 1) })

def getTable (t : Table) (s : Store) : List Row := s.cache.rows t

/-- The rows of a live table array after an in-place operation on it: neither
`_dirty` nor the timer learns of it. -/
def putRows (t : Table) (rows : List Row) (s : Store) : Store :=
  { s with cache := s.cache.setRows t rows }

/-- The row `insert` appends. -/
def newRow (row : Row) (id : ℕ) (now : String) : Row :=
  ((row.set "id" (.num (.ofNat id))).set "created_at" ((row.get "created_at").or (.str now))).set
    "updated_at" ((row.get "updated_at").or (.str now))

def insert (t : Table) (row : Row) (now : String) (s : Store) : Row × Store :=
  let (id, s) := s.nextId t
  let r := newRow row id now
  (r, markDirty (s.putRows t (s.getTable t ++ [r])))

/-- `r.id === id`. -/
def hasId (id : JsVal) (r : Row) : Bool := (r.get "id").strictEq id

def findOne (t : Table) (p : Row → Bool) (s : Store) : Option Row := (s.getTable t).find? p

def findById (t : Table) (id : JsVal) (s : Store) : Option Row := s.findOne t (hasId id)

def findAll (t : Table) (p : Row → Bool) (s : Store) : List Row := (s.getTable t).filter p

/-- The row that replaces `r` on an update. -/
def merged (updates : Row) (now : String) (r : Row) : Row :=
  (r.spread updates).set "updated_at" (.str now)

def update (t : Table) (id : JsVal) (updates : Row) (now : String) (s : Store) : Bool × Store :=
  if (s.getTable t).any (hasId id) then
    (true, markDirty (s.putRows t (modifyFirst (hasId id) (merged updates now) (s.getTable t))))
  else (false, s)

def updateWhere (t : Table) (p : Row → Bool) (updates : Row) (now : String) (s : Store) :
    ℕ × Store :=
  let count := (s.getTable t).countP p
  let s' := s.putRows t ((s.getTable t).map fun r => if p r then merged updates now r else r)
  (count, if 0 < count then markDirty s' else s')

def remove (t : Table) (id : JsVal) (s : Store) : Bool × Store :=
  if (s.getTable t).any (hasId id) then
    (true, markDirty (s.putRows t ((s.getTable t).eraseP (hasId id))))
  else (false, s)

def removeWhere (t : Table) (p : Row → Bool) (s : Store) : ℕ × Store :=
  let rows := (s.getTable t).filter fun r => !p r
  let removed := (s.getTable t).length - rows.length
  let s' := s.putRows t rows
  (removed, if 0 < removed then markDirty s' else s')

def count (t : Table) (p : Row → Bool) (s : Store) : ℕ := ((s.getTable t).filter p).length

/-- The categories a fresh store starts with. -/
def defaultCategories : List Row :=
  [("住宅", 100), ("公寓", 90), ("别墅", 80), ("商铺", 70), ("写字楼", 60)].map fun (name, order) =>
    Dict.ofList [("name", .str name), ("sort_order", .num (.ofNat order)), ("status", .num (.ofNat 1))]

def defaultAdmin : Row :=
  Dict.ofList [("username", .str "admin"), ("password", .str "admin123"),
    ("token", .str "jintai_admin_2026")]

/-- Insert rows one after another, reading the clock for each. -/
def insertAll (t : Table) : List Row → (ℕ → String) → Store → Store
  | [], _, s => s
  | r :: rs, now, s => insertAll t rs (fun i => now (i + 1)) (s.insert t r (now 0)).2

def initDefaultData (now : ℕ → String) (s : Store) : Store :=
  let s' := if s.getTable .categories = [] then s.insertAll .categories defaultCategories now else s
  let s'' := if s.getTable .admins = [] then (s'.insert .admins defaultAdmin (now 5)).2 else s'
  s''.flushNow (now 6)

end Store

end JtfpMall
