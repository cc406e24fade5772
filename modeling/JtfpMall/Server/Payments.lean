import JtfpMall.Routes.Payments
import JtfpMall.Server.OrderNumbers

/-!
# Deliveries of a payment notification

A payment is settled when its order is marked as paid once, with one entry in its log, and
every later delivery leaves things alone. The transaction record has no `order_no`, so a
delivery logs under no number and writes no order that has one: no sequence of
deliveries settles a payment.
-/

namespace JtfpMall

open JtfpMall.Js
open JtfpMall.Lib
open JtfpMall.Orders (hasNo hasNoOf)

/-- A delivered notification, with the copy of the handler it goes to. -/
structure Delivery where
  route : NotifyRoute
  pay : Row
  at_ : Moment

/-- The record of a successful transaction for the order `orderNo`, with the fields the
service documents: the number of the order is in `out_trade_no`. -/
structure IsTransaction (orderNo : String) (pay : Row) : Prop where
  outTradeNo : pay.get "out_trade_no" = .str orderNo
  state : pay.get "trade_state" = .str "SUCCESS"
  noOrderNo : pay.get "order_no" = .undefined

namespace Delivery

/-- The store after the handler has run. -/
def run (d : Delivery) (s : Store) : Store :=
  ((d.route.notify (.success d.pay) d.at_).run s).2

def runAll (ds : List Delivery) (s : Store) : Store := ds.foldl (fun s d => d.run s) s

end Delivery

/-- The status entries of the log under a number, in the order they were made. -/
def statusEntries (orderNo : String) (s : Store) : List Row :=
  (s.cache.rows .orderChangeLogs).filter fun r =>
    hasNo orderNo r && (r.get "field_name").strictEq (.str "status")

/-- The order `orderNo` is paid: marked once, with one new entry in its log. -/
structure MarkedPaid (orderNo : String) (s s' : Store) : Prop where
  order : ∃ o, s'.findOne .orders (hasNo orderNo) = some o ∧
    o.get "status" = .str "PENDING_FREIGHT" ∧ (∃ time, o.get "paid_at" = .str time) ∧
    o.get "payment_method" = .str "WECHAT"
  logged : ∃ entry, statusEntries orderNo s' = statusEntries orderNo s ++ [entry] ∧
    entry.get "old_value" = .str "PENDING_PAYMENT" ∧
    entry.get "new_value" = .str "PENDING_FREIGHT"

/-- Orders and log entries under other numbers are as they were. -/
structure OthersKept (orderNo : String) (s s' : Store) : Prop where
  orders : (s'.cache.rows .orders).filter (fun r => !hasNo orderNo r) =
    (s.cache.rows .orders).filter fun r => !hasNo orderNo r
  logs : (s'.cache.rows .orderChangeLogs).filter (fun r => !hasNo orderNo r) =
    (s.cache.rows .orderChangeLogs).filter fun r => !hasNo orderNo r

/-- What the deliveries for one payment are to do: the first one marks its order as paid,
the others change nothing, and none touches another order. -/
structure Settles (orderNo : String) (s : Store) (ds : List Delivery) : Prop where
  first : ∀ d rest, ds = d :: rest → MarkedPaid orderNo s (d.run s)
  again : ∀ d rest, ds = d :: rest → (Delivery.runAll ds s).cache.rows = (d.run s).cache.rows
  others : OthersKept orderNo s (Delivery.runAll ds s)

namespace Delivery

section
variable {orderNo : String} {d : Delivery} {s : Store} {o : Row}

theorem notify_route (r : NotifyRoute) : r.notify = wechatNotify := by
  cases r <;> rfl

/-- A delivery for an order that is there: what it writes, it writes under no number. -/
theorem run_eq (hd : IsTransaction orderNo d.pay)
    (hf : s.findOne .orders (hasNo orderNo) = some o) :
    ∃ updated t, (Orders.updateStatusWith .undefined (.str "PENDING_FREIGHT")
        (.ofList [("paid_at", .str (d.at_.clock 0)), ("payment_method", .str "WECHAT")])
        (d.at_.clock 1)).run s = (.ok updated, t) ∧
      d.run s = (t.insert .orderChangeLogs (Orders.changeLogOf .undefined "status" (o.get "status")
        (.str "PENDING_FREIGHT") "wechat_notify") (d.at_.clock (if updated then 2 else 1))).2 := by
  have hupd : ∃ updated t, (Orders.updateStatusWith .undefined (.str "PENDING_FREIGHT")
      (.ofList [("paid_at", .str (d.at_.clock 0)), ("payment_method", .str "WECHAT")])
      (d.at_.clock 1)).run s = (.ok updated, t) := by
    unfold Orders.updateStatusWith Orders.findByNo Act.findOne
    rw [Action.run_reads_bind]
    cases s.findOne .orders (hasNoOf .undefined) <;> exact ⟨_, _, rfl⟩
  obtain ⟨updated, t, hu⟩ := hupd
  refine ⟨updated, t, hu, ?_⟩
  unfold run
  rw [notify_route]
  unfold wechatNotify
  dsimp only
  rw [hd.state, hd.outTradeNo, hd.noOrderNo, show (JsVal.str "SUCCESS").strictEq (.str "SUCCESS") = true
    from rfl, Bool.not_true, if_neg (by decide)]
  unfold Orders.findByNo Act.findOne
  have hf' : s.findOne .orders (hasNoOf (.str orderNo)) = some o := hf
  rw [Action.run_reads_bind, hf']
  dsimp only
  rw [Action.run_bind, hu]
  rfl

/-- The logs after a delivery: one entry more, under no number. -/
theorem logs_run (hd : IsTransaction orderNo d.pay)
    (hf : s.findOne .orders (hasNo orderNo) = some o) :
    ∃ entry, entry.get "order_no" = .undefined ∧
      (d.run s).cache.rows .orderChangeLogs = s.cache.rows .orderChangeLogs ++ [entry] := by
  obtain ⟨updated, t, hu, hrun⟩ := run_eq hd hf
  have ht : t.cache.rows .orderChangeLogs = s.cache.rows .orderChangeLogs := by
    unfold Orders.updateStatusWith Orders.findByNo Act.findOne at hu
    rw [Action.run_reads_bind] at hu
    cases hf : s.findOne .orders (hasNoOf .undefined) with
    | none =>
      rw [hf] at hu
      cases hu
      rfl
    | some hit =>
      rw [hf] at hu
      cases hu
      exact (Store.rows_update ..).trans (if_neg (by decide))
  rw [hrun, Store.rows_insert, if_pos rfl, ht]
  refine ⟨_, ?_, rfl⟩
  rw [Store.newRow, Dict.get_set_of_ne _ _ (by decide), Dict.get_set_of_ne _ _ (by decide),
    Dict.get_set_of_ne _ _ (by decide)]
  rfl

/-- No delivery adds a status entry under the number of its order. -/
theorem statusEntries_run (hd : IsTransaction orderNo d.pay)
    (hf : s.findOne .orders (hasNo orderNo) = some o) :
    statusEntries orderNo (d.run s) = statusEntries orderNo s := by
  obtain ⟨entry, he, hl⟩ := logs_run hd hf
  unfold statusEntries
  rw [hl, List.filter_append]
  have hno : hasNo orderNo entry = false := by
    rw [hasNo, he]
    rfl
  simp [hno]

theorem not_markedPaid (hd : IsTransaction orderNo d.pay)
    (hf : s.findOne .orders (hasNo orderNo) = some o) : ¬MarkedPaid orderNo s (d.run s) := by
  intro h
  obtain ⟨entry, he, _⟩ := h.logged
  rw [statusEntries_run hd hf] at he
  exact absurd he (by simp)

/-- While every order has a number, a delivery leaves the orders alone: the money is paid and
the order goes on waiting for it. -/
theorem orders_run (hd : IsTransaction orderNo d.pay)
    (hf : s.findOne .orders (hasNo orderNo) = some o)
    (hn : ∀ r ∈ s.cache.rows .orders, r.get "order_no" ≠ .undefined) :
    (d.run s).cache.rows .orders = s.cache.rows .orders := by
  obtain ⟨updated, t, hu, hrun⟩ := run_eq hd hf
  have hnone : s.findOne .orders (hasNoOf .undefined) = none := by
    refine List.find?_eq_none.mpr fun r hr hh => ?_
    exact hn r hr (JsVal.eq_of_strictEq hh)
  unfold Orders.updateStatusWith Orders.findByNo Act.findOne at hu
  rw [Action.run_reads_bind, hnone] at hu
  cases hu
  rw [hrun]
  exact (Store.rows_insert ..).trans (if_neg (by decide))

end

end Delivery

/-- Over all its deliveries the order of a payment stays as it was made, and the log fills
with entries of no order. -/
theorem Delivery.orders_runAll {orderNo : String} {o : Row} (ds : List Delivery) {s : Store}
    (hds : ∀ d ∈ ds, IsTransaction orderNo d.pay)
    (hf : s.findOne .orders (hasNo orderNo) = some o)
    (hn : ∀ r ∈ s.cache.rows .orders, r.get "order_no" ≠ .undefined) :
    (Delivery.runAll ds s).cache.rows .orders = s.cache.rows .orders ∧
      statusEntries orderNo (Delivery.runAll ds s) = statusEntries orderNo s := by
  induction ds generalizing s with
  | nil => exact ⟨rfl, rfl⟩
  | cons d ds ih =>
    have hd := hds d List.mem_cons_self
    have horders := Delivery.orders_run hd hf hn
    have hf' : (d.run s).findOne .orders (hasNo orderNo) = some o := by
      unfold Store.findOne Store.getTable at hf ⊢
      rwa [horders]
    obtain ⟨h1, h2⟩ := ih (fun d' hd' => hds d' (List.mem_cons_of_mem _ hd')) hf' (horders ▸ hn)
    exact ⟨h1.trans horders, h2.trans (Delivery.statusEntries_run hd hf)⟩

/-- The deliveries for an order settle its payment exactly when there are none. -/
theorem payment_settled_iff {orderNo : String} {s : Store} {o : Row}
    (hf : s.findOne .orders (hasNo orderNo) = some o) {ds : List Delivery}
    (hds : ∀ d ∈ ds, IsTransaction orderNo d.pay) : Settles orderNo s ds ↔ ds = [] := by
  constructor
  · intro h
    cases ds with
    | nil => rfl
    | cons d rest =>
      exact absurd (h.first d rest rfl) (Delivery.not_markedPaid (hds d List.mem_cons_self) hf)
  · rintro rfl
    exact ⟨fun d rest he => (nomatch he), fun d rest he => (nomatch he), rfl, rfl⟩

namespace Server

/-- The transaction record for the order of `oneOrder`, as it is delivered. -/
def firstDelivery : Delivery where
  route := .pay
  pay := .ofList [("out_trade_no", .str "202501010000000000"), ("trade_state", .str "SUCCESS")]
  at_ := moment "t3"

theorem firstDelivery_isTransaction : IsTransaction "202501010000000000" firstDelivery.pay :=
  ⟨rfl, rfl, rfl⟩

/-- Two deliveries for an order that waits for its payment. -/
theorem payment_settled_iff_twice :
    Settles "202501010000000000" oneOrder [firstDelivery, firstDelivery] ↔
      [firstDelivery, firstDelivery] = [] := by
  have hno : (oneOrder.findOne .orders (hasNo "202501010000000000")).isSome = true := by
    decide
  obtain ⟨o, ho⟩ := Option.isSome_iff_exists.mp hno
  refine payment_settled_iff ho fun d hd => ?_
  simp only [List.mem_cons, List.not_mem_nil, or_false, or_self] at hd
  exact hd ▸ firstDelivery_isTransaction

/-- A user's order waits for its payment, the payment is made and the service says so: the order
goes on waiting, and the entry in the log names no order. -/
theorem payment_leaves_order_pending :
    ((oneOrder.cache.rows .orders).map fun r => r.get "order_no").Nodup ∧
      ((firstDelivery.run oneOrder).cache.rows .orders).map
          (fun r => (r.get "order_no", r.get "status", r.get "paid_at")) =
        [(.str "202501010000000000", .str "PENDING_PAYMENT", .undefined)] ∧
      ((firstDelivery.run oneOrder).cache.rows .orderChangeLogs).map (fun r => r.get "order_no") =
        [.undefined] ∧
      ¬Settles "202501010000000000" oneOrder [firstDelivery] := by
  refine ⟨by decide, by decide +kernel, by decide +kernel, fun h => ?_⟩
  have hno : (oneOrder.findOne .orders (hasNo "202501010000000000")).isSome = true := by
    decide
  obtain ⟨o, ho⟩ := Option.isSome_iff_exists.mp hno
  exact Delivery.not_markedPaid firstDelivery_isTransaction ho (h.first _ _ rfl)

end Server

end JtfpMall
