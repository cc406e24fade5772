import JtfpMall.Js.Uri
import JtfpMall.Server.Requests

/-!
# Calls that throw while a request is handled

Two handlers flush, and a flush goes to the file system: the directory may not be made,
the tmp file not be written, the rename not go through. The login callback decodes a
cookie after it has found its user. Both are taken here as they may go wrong; with nothing going
wrong the handlers are the ones of the server.
-/

namespace JtfpMall

open JtfpMall.Js
open JtfpMall.Lib

/-- The calls of `saveDataSync` that may throw. -/
inductive FsCall where
  | mkdirSync
  /-- With what the tmp file holds afterwards. -/
  | writeFileSync (left : Option Content)
  | renameSync

structure Fault where
  call : FsCall
  error : JsError

namespace Store

/-- `saveDataSync` up to the call that throws: the timestamp is set, `_dirty` is not cleared. -/
def saveFailing (call : FsCall) (now : String) (s : Store) : Store :=
  let cache := s.cache.setUpdatedAt now
  let files := match call with
    | .mkdirSync => s.files
    | .writeFileSync left => s.files.put { s.files.disk with tmpFile := left }
    | .renameSync => s.files.writeTmp (.ofData cache)
  { s with cache := cache, files := files }

end Store

namespace Act

/-- `flushNow()`, whose save throws. -/
def flushFailing (fault : Fault) (now : String) : Act Unit := fun s =>
  let s := { s with flushTimer := false }
  if s.dirty then (.error fault.error, s.saveFailing fault.call now) else (.ok (), s)

/-- `flushNow()`, with the call that throws, if one does. -/
def flushOr (fault : Option Fault) (now : String) : Act Unit :=
  match fault with
  | none => flushNow now
  | some fault => flushFailing fault now

end Act

namespace Properties

def bulkInsertOr (fault : Option Fault) (rows : List Row) (clock : ℕ → String) : Act ℕ := do
  createAll rows clock
  Act.flushOr fault (clock rows.length)
  return rows.length

theorem bulkInsertOr_none (rows : List Row) (clock : ℕ → String) :
    bulkInsertOr none rows clock = bulkInsert rows clock := rfl

end Properties

namespace PropertyRoutes

/-- POST /api/v1/admin/properties/import. -/
def importSheetOr (fault : Option Fault) (upload : Upload) (at_ : Moment) : Act Response :=
  adminGuarded do
    match upload with
    | .missing => return .error 400 "请上传文件"
    | .unreadable message => return .error 500 message
    | .noSheet => return .error 400 "Excel文件内容为空"
    | .sheet headers rows =>
      if importRows headers rows = [] then
        return .error 400 "未找到有效数据（小区名称不能为空）"
      else do
        let count ← Properties.bulkInsertOr fault (importRows headers rows) at_.clock
        return .ok [("success", .val (.bool true)),
          ("message", .text ("成功导入 " ++ toString count ++ " 条房源数据")),
          ("count", .number count)]

theorem importSheetOr_none (upload : Upload) (at_ : Moment) :
    importSheetOr none upload at_ = importSheet upload at_ := rfl

end PropertyRoutes

namespace Users

/-- Steps 2 to 4, for an identity without a user. -/
def bindIdentityOr (fault : Option Fault) (provider : String) (params : Params)
    (clock : ℕ → String) : Act Row := do
  let unionIdentity ← findByUnionid params
  let userId ← userFor unionIdentity params (clock 1)
  saveIdentity provider params userId (clock 2)
  Act.flushOr fault (clock 3)
  match ← Act.findById .users userId with
  | some user => return user
  | none => Action.lift (.error ⟨"Error", "Failed to create user"⟩)

def findOrCreateUserByIdentityOr (fault : Option Fault) (provider : String) (params : Params)
    (clock : ℕ → String) : Act Row := do
  match ← Act.findOne .userIdentities (hasIdentity provider params.openid) with
  | some identity => do
    let _ ← saveSessionKey params identity (clock 0)
    match ← Act.findById .users (identity.get "user_id") with
    | some user => return user
    | none => bindIdentityOr fault provider params clock
  | none => bindIdentityOr fault provider params clock

theorem findOrCreateUserByIdentityOr_none (provider : String) (params : Params)
    (clock : ℕ → String) : findOrCreateUserByIdentityOr none provider params clock =
      findOrCreateUserByIdentity provider params clock := rfl

end Users

namespace AuthRoutes

/-- POST /api/v1/auth/mini/login. -/
def miniLoginOr (fault : Option Fault) (answer : MiniAnswer) (at_ : Moment) : Act Response :=
  guarded
    (match answer with
      | .badRequest issue => return .badRequest issue
      | .notConfigured => return .coded 500 "MINI_NOT_CONFIGURED" "小程序未配置"
      | .refused message => return .coded 400 "WECHAT_LOGIN_FAILED" message
      | .failed => return .appError 500 "INTERNAL_ERROR" "Internal server error"
      | .session openid sessionKey unionid => do
        let user ← Users.findOrCreateUserByIdentityOr fault "wechat_mini"
          ⟨openid, unionid, some sessionKey, none, none⟩ at_.clock
        let sub ← Action.lift (subject user)
        return .ok [("token", .row (.ofList [("sub", sub), ("openid", .str openid),
            ("provider", .str "wechat_mini")])),
          ("user", .row (.ofList [("id", user.get "id"), ("nickname", user.get "nickname"),
            ("avatar_url", user.get "avatar_url"), ("phone", user.get "phone")]))])

theorem miniLoginOr_none (answer : MiniAnswer) (at_ : Moment) :
    miniLoginOr none answer at_ = miniLogin answer at_ := rfl

/-- The value of `name=([^;]+)` at the front of the text. -/
def cookieValue (name : String) (cs : List Char) : Option (List Char) :=
  let key := name.toList ++ ['=']
  if key.isPrefixOf cs then
    match (cs.drop key.length).takeWhile fun c => decide (c ≠ ';') with
    | [] => none
    | value => some value
  else none

/-- The value behind the first `; ` it stands behind. -/
def laterCookie (name : String) : List Char → Option (List Char)
  | [] => none
  | c :: cs =>
    let here := match c :: cs with
      | ';' :: ' ' :: rest => cookieValue name rest
      | _ => none
    here.or (laterCookie name cs)

/-- `getCookie(req, name)`, of the `Cookie` header. -/
def getCookie (header name : String) : Except JsError (Option String) :=
  match (cookieValue name header.toList).or (laterCookie name header.toList) with
  | some value => (decodeURIComponent (.ofList value)).map some
  | none => .ok none

/-- GET /api/v1/auth/wechat/oauth-callback, with the `Cookie` header of the request. -/
def oauthCallbackOr (header : String) (answer : OauthAnswer) (at_ : Moment) : Act Response :=
  Action.attempt
    (match answer with
      | .missingCode => return ⟨400, [("text", .text "missing code")]⟩
      | .failed => return ⟨500, [("text", .text "oauth error")]⟩
      | .noOpenid => return ⟨400, [("text", .text "oauth failed")]⟩
      | .identified openid unionid => do
        let user ← Users.findOrCreateUser ⟨openid, unionid, none, none, none⟩ at_.clock
        let sub ← Action.lift (subject user)
        -- the page to go on to comes from a cookie
        let _ ← Action.lift (getCookie header "oauth_redirect")
        return ⟨302, [("sub", .val sub), ("openid", .text openid)]⟩)
    fun _ => ⟨500, [("text", .text "oauth error")]⟩

theorem oauthCallbackOr_ok {header : String} {redirect : Option String}
    (h : getCookie header "oauth_redirect" = .ok redirect) (answer : OauthAnswer) (at_ : Moment) :
    oauthCallbackOr header answer at_ = oauthCallback answer at_ := by
  unfold oauthCallbackOr
  rw [h]
  rfl

end AuthRoutes

/-- What a request meets outside the process: a call that throws, and its cookies. -/
structure Outside where
  fault : Option Fault
  cookies : String

namespace Request

def handleOr (o : Outside) (env : Env) (at_ : Moment) : Request → Act Response
  | .admin true (.importProperties upload) => PropertyRoutes.importSheetOr o.fault upload at_
  | .anyone (.miniLogin answer) => AuthRoutes.miniLoginOr o.fault answer at_
  | .anyone (.oauthCallback answer) => AuthRoutes.oauthCallbackOr o.cookies answer at_
  | r => r.handle env at_

/-- With nothing going wrong the handlers are those of the server. -/
theorem handleOr_none (env : Env) (at_ : Moment) {cookies : String} {redirect : Option String}
    (h : AuthRoutes.getCookie cookies "oauth_redirect" = .ok redirect) (r : Request) :
    r.handleOr ⟨none, cookies⟩ env at_ = r.handle env at_ := by
  unfold handleOr
  split
  · exact PropertyRoutes.importSheetOr_none _ _
  · exact AuthRoutes.miniLoginOr_none _ _
  · exact AuthRoutes.oauthCallbackOr_ok h _ _
  · rfl

end Request

namespace Server

def serveOr (o : Outside) (env : Env) (r : Request) (at_ : Moment) (s : Store) : Store :=
  ((r.handleOr o env at_).run s).2

def answerOr (o : Outside) (env : Env) (r : Request) (at_ : Moment) (s : Store) :
    Except JsError Response :=
  ((r.handleOr o env at_).run s).1

end Server

end JtfpMall
