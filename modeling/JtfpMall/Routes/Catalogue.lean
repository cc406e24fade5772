import JtfpMall.Repositories.Categories
import JtfpMall.Repositories.Products
import JtfpMall.Repositories.Properties
import JtfpMall.Repositories.Reviews
import JtfpMall.Routes.Http

/-!
# Catalogue routers

Products with their SKUs, categories and reviews: the public pages and the admin
pages. The public product router is mounted twice from two identical files.
-/

namespace JtfpMall.CatalogueRoutes

open JtfpMall.Js
open JtfpMall.Lib

/-- `parseInt(req.query.categoryId || '0', 10)`, when positive. -/
def categoryOf (query : Row) : Except JsError (Option JsNum) :=
  (parseIntOr query "categoryId" "0").map fun n =>
    if (JsNum.fin 0).lt? n = some true then some n else none

/-- GET /products and GET /api/v1/products. -/
def products (env : Env) (query : Row) : Act Response :=
  guarded do
    let page ← Action.lift (pageFrom1 query)
    let pageSize ← Action.lift (pageSizeTo100 query)
    let categoryId ← Action.lift (categoryOf query)
    let (total, rows) ← Products.listEnabled env
      { page := some page, pageSize := some pageSize, keyword := keywordOf query,
        categoryId := categoryId, status := .undefined }
    return listPage total page pageSize [("list", .rows rows)]

/-- GET /products/:id and GET /api/v1/products/:id. -/
def product (id : String) : Act Response :=
  guarded do
    match ← Products.findById (.num (parseInt id)) with
    | none => return .coded 404 "NOT_FOUND" "商品不存在"
    | some product =>
      if (product.get "status").strictEq (.num (.fin 1)) then do
        let skus ← Products.getSkus (.num (parseInt id))
        return .ok [("product", .row product), ("skus", .rows skus)]
      else return .coded 404 "NOT_FOUND" "商品不存在"

/-- GET /api/v1/admin/products. -/
def adminProducts (env : Env) (query : Row) : Act Response :=
  adminGuarded do
    let page ← Action.lift (parseIntOr query "page" "1")
    let pageSize ← Action.lift (pageSizeTo100 query)
    let (total, rows) ← Products.list env
      { page := some page, pageSize := some pageSize, keyword := keywordOf query,
        categoryId := none, status := .undefined }
    return listPage total page pageSize [("products", .rows rows)]

/-- GET /api/v1/admin/products/:id. -/
def adminProduct (id : String) : Act Response :=
  adminGuarded do
    match ← Products.findById (.num (parseInt id)) with
    | none => return .error 404 "商品不存在"
    | some product => do
      let skus ← Products.getSkus (.num (parseInt id))
      return .ok [("product", .row product), ("skus", .rows skus)]

/-- `{ success: true, id }`. -/
def created (row : Row) : Response :=
  .ok [("success", .val (.bool true)), ("id", .val (row.get "id"))]

/-- POST /api/v1/admin/products. -/
def createProduct (body : Row) (at_ : Moment) : Act Response :=
  adminGuarded do
    let product ← Products.create body (at_.clock 0)
    return created product

/-- PUT /api/v1/admin/products/:id. -/
def updateProduct (id : String) (body : Row) (at_ : Moment) : Act Response :=
  adminGuarded do
    match ← Products.findById (.num (parseInt id)) with
    | none => return .error 404 "商品不存在"
    | some _ => do
      let _ ← Products.update (parseInt id) body (at_.clock 0)
      return .ok [("success", .val (.bool true))]

/-- DELETE /api/v1/admin/products/:id. -/
def deleteProduct (id : String) : Act Response :=
  adminGuarded do
    let _ ← Products.remove (parseInt id)
    return .ok [("success", .val (.bool true))]

/-- The SKUs of the products, one product after another. -/
def skusOf : List Row → Act (List Row)
  | [] => return []
  | product :: products => do
    let skus ← Products.getSkus (product.get "id")
    let rest ← skusOf products
    return skus.map (fun sku => sku.set "product_title" (product.get "title")) ++ rest

/-- GET /api/v1/admin/sku-library. -/
def skuLibrary (env : Env) (query : Row) : Act Response :=
  adminGuarded do
    let page ← Action.lift (parseIntOr query "page" "1")
    let pageSize ← Action.lift (pageSizeTo100 query)
    let (_, products) ← Products.list env
      { page := none, pageSize := some (.fin 10000), keyword := .undefined, categoryId := none,
        status := .undefined }
    let allSkus ← skusOf products
    let offset := (page.sub (.fin 1)).mul pageSize
    return listPage allSkus.length page pageSize
      [("skus", .rows (slice allSkus offset (offset.add pageSize)))]

/-- GET /api/v1/admin/sku-library/by-code/:code. -/
def skuByCode (code : String) : Act Response :=
  adminGuarded do
    match ← Products.findSkuByCode code with
    | none => return .error 404 "SKU 不存在"
    | some sku => do
      let product ← Products.findById (sku.get "product_id")
      return .ok [("sku", .row sku), ("product", product.elim (.val .null) .row)]

/-- GET /api/v1/properties/mall/categories. -/
def mallCategories (env : Env) : Act Response :=
  guarded do
    let categories ← Categories.listEnabled env
    return .ok [("categories", .rows categories)]

/-- GET /api/v1/admin/categories. -/
def adminCategories (env : Env) : Act Response :=
  adminGuarded do
    let categories ← Categories.list env
    return .ok [("categories", .rows categories)]

/-- POST /api/v1/admin/categories. -/
def createCategory (body : Row) (at_ : Moment) : Act Response :=
  adminGuarded do
    if !(body.get "name").truthy then return .error 400 "分类名称不能为空"
    else do
      let category ← Categories.create (body.get "name") ((body.get "icon").or .undefined)
        ((body.get "sort_order").or (.num (.fin 0))) ((body.get "status").orNullish (.num (.fin 1)))
        (at_.clock 0)
      return .ok [("success", .val (.bool true)), ("id", .val (category.get "id")),
        ("message", .text "分类创建成功")]

/-- The data of an update: four fields of the body, and no other. -/
def categoryUpdates (body : Row) : Row :=
  .ofList [("name", body.get "name"), ("icon", (body.get "icon").or .null),
    ("sort_order", (body.get "sort_order").or (.num (.fin 0))),
    ("status", (body.get "status").orNullish (.num (.fin 1)))]

/-- PUT /api/v1/admin/categories/:id. -/
def updateCategory (id : String) (body : Row) (at_ : Moment) : Act Response :=
  adminGuarded do
    match ← Categories.findById (stringToNumber id) with
    | none => return .error 404 "分类不存在"
    | some _ => do
      let _ ← Categories.update (stringToNumber id) (categoryUpdates body) (at_.clock 0)
      return .success "分类更新成功"

/-- DELETE /api/v1/admin/categories/:id. -/
def deleteCategory (id : String) : Act Response :=
  adminGuarded do
    if ← Properties.existsByCategoryId (stringToNumber id) then
      return .error 400 "该分类下已有房源，无法删除"
    else do
      let _ ← Categories.remove (stringToNumber id)
      return .success "分类删除成功"

/-- GET /reviews. -/
def reviews (env : Env) (query : Row) : Act Response :=
  guarded do
    let productId ← Action.lift (parseIntOr query "productId" "0")
    let page ← Action.lift (pageFrom1 query)
    let pageSize ← Action.lift (pageSizeTo100 query)
    let (total, rows) ← Reviews.list env
      { page := some page, pageSize := some pageSize,
        productId := if (JsNum.fin 0).lt? productId = some true then some productId else none,
        userId := none, status := .num (.fin 1) }
    return listPage total page pageSize [("reviews", .rows rows)]

/-- GET /reviews/stats/:productId. -/
def reviewStats (productId : String) : Act Response :=
  guarded do
    let avgRating ← Reviews.getAverageRating (parseInt productId)
    let count ← Reviews.getReviewCount (parseInt productId)
    return .ok [("average_rating", .val (.num avgRating)), ("review_count", .number count)]

end JtfpMall.CatalogueRoutes
