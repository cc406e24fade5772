import JtfpMall.Repositories.Users
import JtfpMall.Routes.Http

/-!
# Login routers

What the WeChat service answers comes with the request. A signed token is
represented by its payload.
-/

namespace JtfpMall.AuthRoutes

open JtfpMall.Js
open JtfpMall.Lib

/-- What came of the code of an OAuth callback. -/
inductive OauthAnswer where
  | missingCode
  | failed
  | noOpenid
  | identified (openid : String) (unionid : Option String)

/-- `String(user.id)`. -/
def subject (user : Row) : Except JsError JsVal := (user.get "id").toText.map .str

/-- GET /api/v1/auth/wechat/oauth-callback: the answer redirects with a token. -/
def oauthCallback (answer : OauthAnswer) (at_ : Moment) : Act Response :=
  Action.attempt
    (match answer with
      | .missingCode => return ⟨400, [("text", .text "missing code")]⟩
      | .failed => return ⟨500, [("text", .text "oauth error")]⟩
      | .noOpenid => return ⟨400, [("text", .text "oauth failed")]⟩
      | .identified openid unionid => do
        let user ← Users.findOrCreateUser ⟨openid, unionid, none, none, none⟩ at_.clock
        let sub ← Action.lift (subject user)
        return ⟨302, [("sub", .val sub), ("openid", .text openid)]⟩)
    fun _ => ⟨500, [("text", .text "oauth error")]⟩

/-- What came of the code of a mini-program login. -/
inductive MiniAnswer where
  | badRequest (issue : ZodIssue)
  | notConfigured
  | refused (message : String)
  | failed
  | session (openid : String) (sessionKey : String) (unionid : Option String)

/-- POST /api/v1/auth/mini/login. -/
def miniLogin (answer : MiniAnswer) (at_ : Moment) : Act Response :=
  guarded
    (match answer with
      | .badRequest issue => return .badRequest issue
      | .notConfigured => return .coded 500 "MINI_NOT_CONFIGURED" "小程序未配置"
      | .refused message => return .coded 400 "WECHAT_LOGIN_FAILED" message
      | .failed => return .appError 500 "INTERNAL_ERROR" "Internal server error"
      | .session openid sessionKey unionid => do
        let user ← Users.findOrCreateUserByIdentity "wechat_mini"
          ⟨openid, unionid, some sessionKey, none, none⟩ at_.clock
        let sub ← Action.lift (subject user)
        return .ok [("token", .row (.ofList [("sub", sub), ("openid", .str openid),
            ("provider", .str "wechat_mini")])),
          ("user", .row (.ofList [("id", user.get "id"), ("nickname", user.get "nickname"),
            ("avatar_url", user.get "avatar_url"), ("phone", user.get "phone")]))])

end JtfpMall.AuthRoutes
