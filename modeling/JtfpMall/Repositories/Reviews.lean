import JtfpMall.Repositories.Listing

/-!
# Reviews repository
-/

namespace JtfpMall.Reviews

open JtfpMall.Js
open JtfpMall.Lib

structure ListQuery where
  page : Option JsNum
  pageSize : Option JsNum
  productId : Option JsNum
  userId : Option JsNum
  status : JsVal

def ListQuery.filters (query : ListQuery) : List (Row → Except JsError Bool) :=
  onlyIf (query.productId.any JsNum.truthy)
    (columnIs "product_id" (query.productId.elim .undefined .num)) ++
  onlyIf (query.userId.any JsNum.truthy) (columnIs "user_id" (query.userId.elim .undefined .num)) ++
  onlyIf (query.status != .undefined) (columnIs "status" query.status)

def list (env : Env) (query : ListQuery) : Act (ℕ × List Row) := do
  let rows ← listed env .reviews query.filters
  return (rows.length, paginate query.page query.pageSize rows)

/-- `r.product_id === productId && r.status === 1`. -/
def shownFor (productId : JsNum) (r : Row) : Bool :=
  (r.get "product_id").strictEq (.num productId) && (r.get "status").strictEq (.num (.fin 1))

/-- The sum of the ratings over their number, to one decimal. -/
def averageOf (reviews : List Row) : Except JsError JsNum :=
  if reviews = [] then .ok (.fin 0)
  else do
    let sum ← reviews.foldlM (fun (acc : JsVal) r => acc.add (r.get "rating")) (.num (.fin 0))
    let sum ← sum.toNumber
    return (((sum.div (.ofNat reviews.length)).mul (.fin 10)).round).div (.fin 10)

def getAverageRating (productId : JsNum) : Act JsNum := do
  let reviews ← Act.findAll .reviews (shownFor productId)
  Action.lift (averageOf reviews)

def getReviewCount (productId : JsNum) : Act ℕ := Act.count .reviews (shownFor productId)

end JtfpMall.Reviews
