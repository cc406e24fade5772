import JtfpMall.Routes.AdminOrders
import JtfpMall.Routes.Auth
import JtfpMall.Routes.Catalogue
import JtfpMall.Routes.Properties
import JtfpMall.Routes.Welfare
import JtfpMall.Store.Writes

/-!
# The server

Every mounted route that touches the store, behind its authorization, and the
server as a transition system: requests are served one after another, the flush
timer fires between them, and the process may be stopped after a flush and
started again.
-/

namespace JtfpMall

open JtfpMall.Js
open JtfpMall.Lib

/-- Requests of a logged-in user to the order routers. -/
inductive UserRequest where
  | createOrder (body : JsVal)
  | orderStatus (orderNo : String)
  | order (orderNo : String)
  | cancelOrder (orderNo : String)
  | myOrders (query : Row)
  | myOrder (orderNo : String)
  | cancelMyOrder (orderNo : String)

/-- Requests to the routers behind `requireAdminToken`. -/
inductive AdminRequest where
  | orders (query : Row)
  | order (orderNo : String)
  | updateOrderStatus (orderNo : String) (body : Row)
  | updateOrderRemark (orderNo : String) (body : Row)
  | deleteOrder (orderNo : String)
  | orderStats
  | exportOrders (body : Row)
  | products (query : Row)
  | product (id : String)
  | createProduct (body : Row)
  | updateProduct (id : String) (body : Row)
  | deleteProduct (id : String)
  | skuLibrary (query : Row)
  | skuByCode (code : String)
  | properties (query : Row)
  | communities
  | property (id : String)
  | createProperty (body : Row)
  | updateProperty (id : String) (body : Row)
  | deleteProperty (id : String)
  | importProperties (upload : PropertyRoutes.Upload)
  | exportProperties
  | categories
  | createCategory (body : Row)
  | updateCategory (id : String) (body : Row)
  | deleteCategory (id : String)
  | welfareCodes (query : Row)
  | welfareCode (id : String)
  | createWelfareCode (body : Row)
  | updateWelfareCode (id : String) (body : Row)
  | deleteWelfareCode (id : String)
  | validateWelfareCode (body : Row)

/-- Requests anyone can make. -/
inductive PublicRequest where
  | products (query : Row)
  | product (id : String)
  | mallProperties (query : Row)
  | mallCategories
  | mallProperty (id : String)
  | reviews (query : Row)
  | reviewStats (productId : String)
  | validateCode (body : JsVal)
  | useCode (body : JsVal)
  | oauthCallback (answer : AuthRoutes.OauthAnswer)
  | miniLogin (answer : AuthRoutes.MiniAnswer)

inductive Request where
  /-- The user `requireUserAuth` finds in the token, if any. -/
  | user (userId : Option UserId) (r : UserRequest)
  /-- Whether the bearer token is the admin token. -/
  | admin (authorized : Bool) (r : AdminRequest)
  | anyone (r : PublicRequest)

namespace Request

def handleUser (env : Env) (at_ : Moment) (userId : UserId) : UserRequest → Act Response
  | .createOrder body => OrderRoutes.create env userId body at_
  | .orderStatus orderNo => OrderRoutes.status orderNo
  | .order orderNo => OrderRoutes.detail userId orderNo
  | .cancelOrder orderNo => OrderRoutes.cancel userId orderNo at_
  | .myOrders query => OrderRoutes.mine env userId query
  | .myOrder orderNo => OrderRoutes.myDetail userId orderNo
  | .cancelMyOrder orderNo => OrderRoutes.cancelMine userId orderNo at_

def handleAdmin (env : Env) (at_ : Moment) : AdminRequest → Act Response
  | .orders query => AdminOrderRoutes.list env query
  | .order orderNo => AdminOrderRoutes.detail env orderNo
  | .updateOrderStatus orderNo body => AdminOrderRoutes.updateStatus orderNo body at_
  | .updateOrderRemark orderNo body => AdminOrderRoutes.updateRemark orderNo body at_
  | .deleteOrder orderNo => AdminOrderRoutes.delete orderNo
  | .orderStats => AdminOrderRoutes.stats
  | .exportOrders body => AdminOrderRoutes.exportOrders env body
  | .products query => CatalogueRoutes.adminProducts env query
  | .product id => CatalogueRoutes.adminProduct id
  | .createProduct body => CatalogueRoutes.createProduct body at_
  | .updateProduct id body => CatalogueRoutes.updateProduct id body at_
  | .deleteProduct id => CatalogueRoutes.deleteProduct id
  | .skuLibrary query => CatalogueRoutes.skuLibrary env query
  | .skuByCode code => CatalogueRoutes.skuByCode code
  | .properties query => PropertyRoutes.adminList env query
  | .communities => PropertyRoutes.communities
  | .property id => PropertyRoutes.adminDetail id
  | .createProperty body => PropertyRoutes.create body at_
  | .updateProperty id body => PropertyRoutes.update id body at_
  | .deleteProperty id => PropertyRoutes.delete id
  | .importProperties upload => PropertyRoutes.importSheet upload at_
  | .exportProperties => PropertyRoutes.exportAll env
  | .categories => CatalogueRoutes.adminCategories env
  | .createCategory body => CatalogueRoutes.createCategory body at_
  | .updateCategory id body => CatalogueRoutes.updateCategory id body at_
  | .deleteCategory id => CatalogueRoutes.deleteCategory id
  | .welfareCodes query => WelfareRoutes.adminList env query
  | .welfareCode id => WelfareRoutes.adminDetail id
  | .createWelfareCode body => WelfareRoutes.create body at_
  | .updateWelfareCode id body => WelfareRoutes.update id body at_
  | .deleteWelfareCode id => WelfareRoutes.delete id
  | .validateWelfareCode body => WelfareRoutes.adminValidate body at_

def handlePublic (env : Env) (at_ : Moment) : PublicRequest → Act Response
  | .products query => CatalogueRoutes.products env query
  | .product id => CatalogueRoutes.product id
  | .mallProperties query => PropertyRoutes.mallList env query
  | .mallCategories => CatalogueRoutes.mallCategories env
  | .mallProperty id => PropertyRoutes.mallDetail id
  | .reviews query => CatalogueRoutes.reviews env query
  | .reviewStats productId => CatalogueRoutes.reviewStats productId
  | .validateCode body => WelfareRoutes.validate env body at_
  | .useCode body => WelfareRoutes.use env body at_
  | .oauthCallback answer => AuthRoutes.oauthCallback answer at_
  | .miniLogin answer => AuthRoutes.miniLogin answer at_

def handle (env : Env) (at_ : Moment) : Request → Act Response
  | .user (some userId) r => handleUser env at_ userId r
  | .user none _ => return .needLogin
  | .admin true r => handleAdmin env at_ r
  | .admin false _ => return .unauthorized
  | .anyone r => handlePublic env at_ r

end Request

namespace Env

/-- `z.string().optional()` on the field of a body. -/
def optionalText (body : JsVal) (name : String) : Except ZodIssue (Option String) :=
  match body.prop name with
  | .ok (.str s) => .ok (some s)
  | .ok .undefined => .ok none
  | _ => .error ⟨[name], "Invalid input"⟩

/-- A host that compares texts character by character and knows the ASCII letters, with
the schemas for bodies without `skuItems`. -/
def plain : Env where
  localeCompare s t := compare s t
  lower s := s.map Char.toLower
  createOrderReq body := do
    let propertyId ← match body.prop "propertyId" with
      | .ok (.num (.fin q)) => .ok (some (.fin q))
      | .ok .undefined => .ok none
      | _ => .error ⟨["propertyId"], "Invalid input"⟩
    let buyerNote ← optionalText body "buyerNote"
    let inviteCode ← optionalText body "inviteCode"
    match body.prop "addressSnapshot" with
    | .ok address => return ⟨propertyId, address, buyerNote, inviteCode⟩
    | .error _ => .error ⟨[], "Required"⟩
  validateReq body :=
    match body.prop "code" with
    | .ok (.str s) => if s = "" then .error ⟨["code"], "Too small"⟩ else .ok s
    | _ => .error ⟨["code"], "Required"⟩

instance : Std.TransCmp plain.localeCompare :=
  inferInstanceAs (Std.TransCmp (compare : String → String → Ordering))

end Env

namespace Server

/-- The process starts: `loadData`, then the default data. -/
def start (loadedAt : String) (clock : ℕ → String) (f : Files) : Store :=
  (Store.loadData loadedAt (clock 0) f).initDefaultData fun i => clock (i + 1)

inductive Event where
  | request (r : Request) (at_ : Moment)
  /-- A writing function of a repository, called outside every request. -/
  | operation (w : Write) (now : String)
  | timer (now : String)
  | flush (now : String)
  /-- A flush, then a new process on the same files. -/
  | restart (loadedAt : String) (clock : ℕ → String)

/-- The store after a request. -/
def serve (env : Env) (r : Request) (at_ : Moment) (s : Store) : Store :=
  ((r.handle env at_).run s).2

/-- The answer to a request; the error handlers leave none without one. -/
def answer (env : Env) (r : Request) (at_ : Moment) (s : Store) : Except JsError Response :=
  ((r.handle env at_).run s).1

def restart (loadedAt : String) (clock : ℕ → String) (s : Store) : Store :=
  start loadedAt (fun i => clock (i + 1)) (s.flushNow (clock 0)).files

def step (env : Env) (s : Store) : Event → Option Store
  | .request r at_ => some (serve env r at_ s)
  | .operation w now => some (w.apply now s)
  | .timer now => if s.flushTimer then some (s.timerFired now) else none
  | .flush now => some (s.flushNow now)
  | .restart loadedAt clock => some (restart loadedAt clock s)

end Server

end JtfpMall
