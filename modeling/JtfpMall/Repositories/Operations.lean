import JtfpMall.Repositories.Orders
import JtfpMall.Repositories.Products
import JtfpMall.Repositories.WelfareCodes
import JtfpMall.Store.Writes

/-!
# Operations of the repositories

The writing functions of the product, order and welfare-code repositories as one type, with
their list functions, which sort the live tables. What the other repositories write is
kept as a bare write.
-/

namespace JtfpMall

open JtfpMall.Js
open JtfpMall.Lib

inductive Operation where
  | createProduct (data : Row)
  | updateProduct (id : JsNum) (data : Row)
  | removeProduct (id : JsNum)
  | addSku (data : Row)
  | updateSku (skuId : JsNum) (data : Row)
  | removeSku (skuId : JsNum)
  | decreaseStock (skuId quantity : JsNum)
  | increaseStock (skuId quantity : JsNum)
  | createOrder (data : Row) (time : Orders.LocalTime) (draw : Fin 10000)
  | updateOrder (orderNo : String) (data : Row)
  | updateOrderStatus (orderNo : String) (status : JsVal) (extraData : Row)
  | removeOrder (orderNo : String)
  | addOrderItem (item : Row)
  | logChange (orderNo fieldName : String) (oldValue newValue : JsVal) (operator : String)
  | createCode (data : Row)
  | updateCode (id : JsNum) (data : Row)
  | removeCode (id : JsNum)
  | useCode (code : JsVal)
  | addCodeItem (data : Row)
  | removeCodeItem (id : JsNum)
  | listProducts (query : Products.ListQuery)
  | listOrders (query : Orders.ListQuery)
  | listCodes (query : WelfareCodes.ListQuery)
  /-- A write of another repository. -/
  | elsewhere (w : Write)

namespace Operation

/-- The function, with its result left out. -/
def program (env : Env) (now : String) : Operation → Act Unit
  | .createProduct data => do let _ ← Products.create data now
  | .updateProduct id data => do let _ ← Products.update id data now
  | .removeProduct id => do let _ ← Products.remove id
  | .addSku data => do let _ ← Products.addSku data now
  | .updateSku skuId data => do let _ ← Products.updateSku skuId data now
  | .removeSku skuId => do let _ ← Products.removeSku skuId
  | .decreaseStock skuId quantity => do let _ ← Products.decreaseStock skuId quantity now
  | .increaseStock skuId quantity => do let _ ← Products.increaseStock skuId quantity now
  | .createOrder data time draw => do let _ ← Orders.create data time draw now
  | .updateOrder orderNo data => do let _ ← Orders.update orderNo data now
  | .updateOrderStatus orderNo status extraData => do
    let _ ← Orders.updateStatusWith (.str orderNo) status extraData now
  | .removeOrder orderNo => do let _ ← Orders.remove orderNo
  | .addOrderItem item => do let _ ← Orders.addOrderItem item now
  | .logChange orderNo fieldName oldValue newValue operator => do
    let _ ← Orders.logChange orderNo fieldName oldValue newValue operator now
  | .createCode data => do let _ ← WelfareCodes.create data now
  | .updateCode id data => do let _ ← WelfareCodes.update id data now
  | .removeCode id => do let _ ← WelfareCodes.remove id
  | .useCode code => do let _ ← WelfareCodes.useCode code now
  | .addCodeItem data => do let _ ← WelfareCodes.addItem data now
  | .removeCodeItem id => do let _ ← WelfareCodes.removeItem id
  | .listProducts query => do let _ ← Products.list env query
  | .listOrders query => do let _ ← Orders.list env query
  | .listCodes query => do let _ ← WelfareCodes.list env query
  | .elsewhere w => .does fun s => ((), w.apply now s)

/-- The store after the operation, whether it returns or throws. -/
def apply (env : Env) (now : String) (s : Store) (op : Operation) : Store :=
  ((op.program env now).run s).2

end Operation

end JtfpMall
