import JtfpMall.Miniapp.Cart

/-!
# The product page of the mini-program

The data a product is bought with: the product, its SKUs, the one selected and the quantity, and
the line they make in the cart.
-/

namespace JtfpMall.Miniapp

open JtfpMall.Js
open Cart

structure Product where
  id : JsVal
  title : JsVal
  cover_url : JsVal
  price_cent : JsVal
  is_welfare : JsVal

structure Sku where
  id : JsVal
  sku_title : JsVal
  cover_url : JsVal
  price_cent : JsVal

structure ProductPage where
  product : Option Product
  skus : List Sku
  selectedSkuId : Option JsNum
  qty : JsNum

def Product.isWelfare (product : Product) : Except JsError Bool := do
  return (← (product.is_welfare.or (.num (.fin 0))).toNumber).strictEq (.fin 1)

namespace ProductPage

def opened : ProductPage := ⟨none, [], none, .fin 1⟩

/-- The SKU a page starts with. -/
def firstSku (product : Product) (skus : List Sku) : Except JsError (Option JsNum) := do
  if ← product.isWelfare then return none
  else skus.head?.mapM fun s => s.id.toNumber

/-- `loadDetail`, of what the request resolved with. What throws leaves the data. -/
def loadDetail (product : Product) (skus : List Sku) (page : ProductPage) : ProductPage :=
  match firstSku product skus with
  | .ok selectedSkuId => ⟨some product, skus, selectedSkuId, .fin 1⟩
  | .error _ => page

def selectSku (id : JsNum) (page : ProductPage) : ProductPage :=
  if !id.truthy || !id.isFinite then page else { page with selectedSkuId := some id }

/-- What `decQty` and `incQty` share. -/
def changeQty (f : JsNum → JsNum) (page : ProductPage) : ProductPage :=
  match page.product with
  | none => page
  | some product => match product.isWelfare with
    | .ok false => { page with qty := JsNum.max (.fin 1) (f (numberOr page.qty (.fin 1))) }
    | _ => page

def decQty : ProductPage → ProductPage := changeQty fun qty => qty.sub (.fin 1)

def incQty : ProductPage → ProductPage := changeQty fun qty => qty.add (.fin 1)

/-- `selectedSkuId ? skus.find((s) => Number(s.id) === Number(selectedSkuId)) : null`. -/
def sku (page : ProductPage) : Except JsError (Option Sku) :=
  match page.selectedSkuId with
  | none => .ok none
  | some id =>
    if id.truthy then page.skus.findM? fun s => do return (← s.id.toNumber).strictEq id
    else .ok none

/-- What `addToCart` hands to the cart: nothing before the product is there, nor for a welfare
product. -/
def payload (page : ProductPage) : Except JsError (Option Payload) :=
  match page.product with
  | none => .ok none
  | some product => do
    if ← product.isWelfare then return none
    else do
      let sku ← page.sku
      let productId ← product.id.toNumber
      let skuId ← sku.mapM fun s => s.id.toNumber
      let price ← ((sku.elim product.price_cent Sku.price_cent).or (.num (.fin 0))).toNumber
      return some
        { productId := productId
          skuId := skuId
          qty := JsNum.max (.fin 1) (numberOr page.qty (.fin 1))
          title := product.title
          skuTitle := sku.elim (.str "") Sku.sku_title
          cover_url := (sku.elim .null Sku.cover_url).or product.cover_url
          price_cent := .num price
          is_welfare := .num (.fin 0) }

/-- `addToCart` of the page, and what `buyNow` does to the cart. -/
def addToCart (page : ProductPage) (storage : Storage) : Storage :=
  match page.payload with
  | .ok (some payload) => match Cart.addToCart payload storage with
    | .ok storage => storage
    | .error _ => storage
  | _ => storage

end ProductPage

end JtfpMall.Miniapp
