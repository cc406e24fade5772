import JtfpMall.Repositories.Listing

/-!
# Products repository
-/

namespace JtfpMall.Products

open JtfpMall.Js
open JtfpMall.Lib

structure ListQuery where
  page : Option JsNum
  pageSize : Option JsNum
  keyword : JsVal
  categoryId : Option JsNum
  status : JsVal

/-- `categoryId && categoryId > 0`. -/
def asksCategory (categoryId : Option JsNum) : Bool :=
  categoryId.any fun n => n.truthy && (JsNum.fin 0).lt? n == some true

def ListQuery.filters (env : Env) (query : ListQuery) :
    Except JsError (List (Row → Except JsError Bool)) := do
  let kw ← lowered env "keyword" query.keyword
  return onlyIf query.keyword.truthy (columnMatches env "title" kw) ++
    onlyIf (asksCategory query.categoryId)
      (columnIs "category_id" (query.categoryId.elim .undefined .num)) ++
    onlyIf (query.status != .undefined) (columnIs "status" query.status)

def list (env : Env) (query : ListQuery) : Act (ℕ × List Row) := do
  let filters ← Action.lift (query.filters env)
  let rows ← listed env .products filters
  return (rows.length, paginate query.page query.pageSize rows)

def listEnabled (env : Env) (query : ListQuery) : Act (ℕ × List Row) :=
  list env { query with status := .num (.fin 1) }

def findById (id : JsVal) : Act (Option Row) := Act.findById .products id

/-- The row `create` inserts. -/
def newProduct (data : Row) : Row :=
  (((((data.set "status" ((data.get "status").orNullish (.num (.fin 0)))).set
    "is_featured" ((data.get "is_featured").orNullish (.num (.fin 0)))).set
    "sort_order" ((data.get "sort_order").orNullish (.num (.fin 0)))).set
    "stock" ((data.get "stock").orNullish (.num (.fin 0)))).set
    "sales" ((data.get "sales").orNullish (.num (.fin 0)))).set
    "price_cent" ((data.get "price_cent").orNullish (.num (.fin 0)))

def create (data : Row) (now : String) : Act Row := Act.insert .products (newProduct data) now

def update (id : JsNum) (data : Row) (now : String) : Act Bool :=
  Act.update .products (.num id) data now

/-- `r.product_id === id`. -/
def ofProduct (id : JsVal) (r : Row) : Bool := (r.get "product_id").strictEq id

/-- The product goes with its SKUs. -/
def remove (id : JsNum) : Act Bool := do
  let _ ← Act.removeWhere .productSkus (ofProduct (.num id))
  Act.remove .products (.num id)

/-- `b.sort_order - a.sort_order`. -/
def skuOrder (a b : Row) : Except JsError JsNum :=
  JsVal.sub (b.get "sort_order") (a.get "sort_order")

def getSkus (productId : JsVal) : Act (List Row) := do
  let skus ← Act.findAll .productSkus (ofProduct productId)
  Action.lift (arraySort skuOrder skus)

def findSkuByCode (skuCode : String) : Act (Option Row) :=
  Act.findOne .productSkus fun r => (r.get "sku_code").strictEq (.str skuCode)

def findSkuById (skuId : JsNum) : Act (Option Row) := Act.findById .productSkus (.num skuId)

/-- The row `addSku` inserts. -/
def newSku (data : Row) : Row :=
  (((data.set "status" ((data.get "status").orNullish (.num (.fin 1)))).set
    "sort_order" ((data.get "sort_order").orNullish (.num (.fin 0)))).set
    "stock" ((data.get "stock").orNullish (.num (.fin 0)))).set
    "price_cent" ((data.get "price_cent").orNullish (.num (.fin 0)))

def addSku (data : Row) (now : String) : Act Row := Act.insert .productSkus (newSku data) now

def updateSku (skuId : JsNum) (data : Row) (now : String) : Act Bool :=
  Act.update .productSkus (.num skuId) data now

def removeSku (skuId : JsNum) : Act Bool := Act.remove .productSkus (.num skuId)

def decreaseStock (skuId quantity : JsNum) (now : String) : Act Bool := do
  match ← findSkuById skuId with
  | none => return false
  | some sku =>
    if ← Action.lift ((sku.get "stock").lt (.num quantity)) then return false
    else do
      let stock ← Action.lift ((sku.get "stock").sub (.num quantity))
      updateSku skuId (.ofList [("stock", .num stock)]) now

def increaseStock (skuId quantity : JsNum) (now : String) : Act Bool := do
  match ← findSkuById skuId with
  | none => return false
  | some sku => do
    let stock ← Action.lift ((sku.get "stock").add (.num quantity))
    updateSku skuId (.ofList [("stock", stock)]) now

end JtfpMall.Products
