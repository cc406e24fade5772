import JtfpMall.Routes.Http

/-!
# Payment notifications

The notification handler exists twice with one text, in the old payment router and in
the new one; neither router is mounted. Signature check and decryption come with
the notification. The handler finds the order by one field of the transaction record
and writes by another.
-/

namespace JtfpMall

open JtfpMall.Js
open JtfpMall.Lib

/-- What a notification turns out to be. -/
inductive Notification where
  | badSignature
  /-- The body does not parse, or the resource does not decrypt. -/
  | unreadable (message : String)
  | otherEvent
  | missingResource
  /-- A TRANSACTION.SUCCESS event with the record its resource decrypts to. -/
  | success (pay : Row)

/-- `{ code: 'SUCCESS', message }`. -/
def Response.acknowledged (message : String) : Response := .coded 200 "SUCCESS" message

/-- POST /wechat/notify: an answer for the service, and the order marked as paid. -/
def wechatNotify (notification : Notification) (at_ : Moment) : Act Response :=
  match notification with
  | .badSignature => return .coded 401 "SIGN_VERIFY_FAIL" "invalid signature"
  | .unreadable message => return .coded 500 "INTERNAL_ERROR" message
  | .otherEvent => return .acknowledged "ignored"
  | .missingResource => return .coded 400 "BAD_REQUEST" "missing resource"
  | .success pay => do
    if !(pay.get "trade_state").strictEq (.str "SUCCESS") then
      return .acknowledged "not success state"
    else do
      match ← Orders.findByNo (pay.get "out_trade_no") with
      | none => return .acknowledged "ok"
      | some order => do
        -- found by `out_trade_no`, written and logged by `order_no`
        let updated ← Orders.updateStatusWith (pay.get "order_no") (.str "PENDING_FREIGHT")
          (.ofList [("paid_at", .str (at_.clock 0)), ("payment_method", .str "WECHAT")])
          (at_.clock 1)
        let _ ← Act.insert .orderChangeLogs (Orders.changeLogOf (pay.get "order_no") "status"
          (order.get "status") (.str "PENDING_FREIGHT") "wechat_notify")
          (at_.clock (if updated then 2 else 1))
        return .acknowledged "ok"

/-- routes/api_v1/pay.ts. -/
def PayRoutes.notify : Notification → Moment → Act Response := wechatNotify

/-- routes/payment.ts. -/
def PaymentRoutes.notify : Notification → Moment → Act Response := wechatNotify

/-- The two copies of the handler. -/
inductive NotifyRoute where
  | pay
  | payment

def NotifyRoute.notify : NotifyRoute → Notification → Moment → Act Response
  | .pay => PayRoutes.notify
  | .payment => PaymentRoutes.notify

end JtfpMall
