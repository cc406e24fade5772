import JtfpMall.Repositories.Listing

/-!
# Categories repository
-/

namespace JtfpMall.Categories

open JtfpMall.Js
open JtfpMall.Lib

/-- There is no filter: every call sorts the live table. -/
def list (env : Env) : Act (List Row) := listed env .categories []

/-- `{ id: r.id, name: r.name, icon: r.icon }`. -/
def brief (r : Row) : Row :=
  .ofList [("id", r.get "id"), ("name", r.get "name"), ("icon", r.get "icon")]

def listEnabled (env : Env) : Act (List Row) := do
  let rows ← listed env .categories [columnIs "status" (.num (.fin 1))]
  return rows.map brief

def findById (id : JsNum) : Act (Option Row) := Act.findById .categories (.num id)

/-- The row `create` inserts. -/
def newCategory (name icon sortOrder status : JsVal) : Row :=
  .ofList [("name", name), ("icon", icon.or .null), ("sort_order", sortOrder.or (.num (.fin 0))),
    ("status", status.orNullish (.num (.fin 1)))]

def create (name icon sortOrder status : JsVal) (now : String) : Act Row :=
  Act.insert .categories (newCategory name icon sortOrder status) now

/-- The data of an update, with an `icon` of null turned into `undefined`. -/
def cleanData (data : Row) : Row :=
  if data.get "icon" = .null then data.set "icon" .undefined else data

def update (id : JsNum) (data : Row) (now : String) : Act Bool :=
  Act.update .categories (.num id) (cleanData data) now

def remove (id : JsNum) : Act Bool := Act.remove .categories (.num id)

end JtfpMall.Categories
