import JtfpMall.Server.Identity

/-!
# What requests do to orders

The six requests that write orders, each with the writes it makes once its checks have let it
through, and what they leave of the rows: an order gets its number when it is
created and keeps everything but its status and its remark.
-/

namespace JtfpMall

open JtfpMall.Js
open JtfpMall.Lib
open JtfpMall.Orders (hasNo newOrder changeLog generateOrderNo)
open JtfpMall.OrderRoutes (orderData ownedBy pending)

namespace Store

/-- One column of an order is written. -/
def setOrder (order : Row) (column : String) (v : JsVal) (now : String) (s : Store) : Store :=
  (s.update .orders (order.get "id") (.ofList [(column, v)]) now).2

/-- An order is created under the number of the moment. -/
def addOrder (userId : UserId) (body : CreateOrderReq) (at_ : Moment) (s : Store) : Store :=
  (s.insert .orders (newOrder (orderData userId body) (generateOrderNo at_.time at_.draw))
    (at_.clock 0)).2

def addLog (orderNo column : String) (old new : JsVal) (operator now : String) (s : Store) : Store :=
  (s.insert .orderChangeLogs (changeLog orderNo column old new operator) now).2

def dropOrder (orderNo : String) (order : Row) (s : Store) : Store :=
  ((s.removeWhere .orderItems (hasNo orderNo)).2.remove .orders (order.get "id")).2

end Store

/-- The writes of a request that its checks let through to an order. -/
inductive OrderEffect (env : Env) (at_ : Moment) (s : Store) : Request → Store → Prop where
  | create {u : UserId} {body : JsVal} {b : CreateOrderReq} (hb : env.createOrderReq body = .ok b) :
    OrderEffect env at_ s (.user (some u) (.createOrder body)) (s.addOrder u b at_)
  | cancel {u : UserId} {n : String} {order : Row} (hf : s.findOne .orders (hasNo n) = some order)
      (ho : ownedBy u order = true) (hp : pending order = true) :
    OrderEffect env at_ s (.user (some u) (.cancelOrder n))
      ((s.setOrder order "status" (.str "CANCELLED") (at_.clock 0)).addLog n "status"
        (order.get "status") (.str "CANCELLED") "user" (at_.clock 1))
  | cancelMine {u : UserId} {n : String} {order : Row}
      (hf : s.findOne .orders (hasNo n) = some order) (ho : ownedBy u order = true)
      (hp : pending order = true) :
    OrderEffect env at_ s (.user (some u) (.cancelMyOrder n))
      (s.setOrder order "status" (.str "CANCELLED") (at_.clock 0))
  | status {n : String} {body : Row} {order : Row} (hf : s.findOne .orders (hasNo n) = some order) :
    OrderEffect env at_ s (.admin true (.updateOrderStatus n body))
      ((s.setOrder order "status" (body.get "status") (at_.clock 0)).addLog n "status"
        (order.get "status") (body.get "status") "admin" (at_.clock 1))
  | remark {n : String} {body : Row} {order : Row} (hf : s.findOne .orders (hasNo n) = some order) :
    OrderEffect env at_ s (.admin true (.updateOrderRemark n body))
      ((s.setOrder order "remark" (body.get "remark") (at_.clock 0)).addLog n "remark"
        ((order.get "remark").or (.str "")) ((body.get "remark").or (.str "")) "admin" (at_.clock 1))
  | delete {n : String} {order : Row} (hf : s.findOne .orders (hasNo n) = some order) :
    OrderEffect env at_ s (.admin true (.deleteOrder n)) (s.dropOrder n order)

section
variable {s : Store} {n : String} {order : Row}

theorem run_updateStatus (hf : s.findOne .orders (hasNo n) = some order) (status : JsVal)
    (now : String) : ∃ hit, (Orders.updateStatus n status now).run s =
      (.ok hit, s.setOrder order "status" status now) := by
  unfold Orders.updateStatus Orders.findByOrderNo Act.findOne
  rw [Action.run_reads_bind, hf]
  exact ⟨_, rfl⟩

theorem run_updateRemark (hf : s.findOne .orders (hasNo n) = some order) (remark : JsVal)
    (now : String) : ∃ hit, (Orders.update n (.ofList [("remark", remark)]) now).run s =
      (.ok hit, s.setOrder order "remark" remark now) := by
  unfold Orders.update Orders.findByOrderNo Act.findOne
  rw [Action.run_reads_bind, hf]
  exact ⟨_, rfl⟩

theorem run_removeOrder (hf : s.findOne .orders (hasNo n) = some order) :
    ∃ hit, (Orders.remove n).run s = (.ok hit, s.dropOrder n order) := by
  unfold Orders.remove Orders.findByOrderNo Act.findOne
  rw [Action.run_reads_bind, hf]
  exact ⟨_, rfl⟩

end

section
variable {env : Env} {at_ : Moment} {s : Store} {u : UserId} {n : String} {order : Row}

theorem serve_cancel (hf : s.findOne .orders (hasNo n) = some order) :
    Server.serve env (.user (some u) (.cancelOrder n)) at_ s =
      if ownedBy u order = true ∧ pending order = true then
        (s.setOrder order "status" (.str "CANCELLED") (at_.clock 0)).addLog n "status"
          (order.get "status") (.str "CANCELLED") "user" (at_.clock 1)
      else s := by
  unfold Server.serve Request.handle Request.handleUser OrderRoutes.cancel guarded
    Orders.findByOrderNo Act.findOne
  rw [Action.snd_run_attempt, Action.run_reads_bind, hf]
  by_cases ho : ownedBy u order = true
  · by_cases hp : pending order = true
    · obtain ⟨hit, hu⟩ := run_updateStatus hf (.str "CANCELLED") (at_.clock 0)
      simp only [ho, hp, Bool.not_true, Bool.false_eq_true, if_false, and_self, if_true]
      rw [Action.run_bind, hu]
      rfl
    · simp [ho, hp]
  · simp [ho]

theorem serve_cancelMine (hf : s.findOne .orders (hasNo n) = some order) :
    Server.serve env (.user (some u) (.cancelMyOrder n)) at_ s =
      if ownedBy u order = true ∧ pending order = true then
        s.setOrder order "status" (.str "CANCELLED") (at_.clock 0)
      else s := by
  unfold Server.serve Request.handle Request.handleUser OrderRoutes.cancelMine guarded
    Orders.findByOrderNo Act.findOne
  rw [Action.snd_run_attempt, Action.run_reads_bind, hf]
  by_cases ho : ownedBy u order = true
  · by_cases hp : pending order = true
    · obtain ⟨hit, hu⟩ := run_updateStatus hf (.str "CANCELLED") (at_.clock 0)
      simp only [ho, hp, Bool.not_true, Bool.false_eq_true, if_false, and_self, if_true]
      rw [Action.run_bind, hu]
      rfl
    · simp [ho, hp]
  · simp [ho]

end

/-- A request that may write orders does nothing, or makes the writes it is there for. -/
theorem serve_orders (env : Env) {r : Request} (h : Table.orders ∈ r.tables) (at_ : Moment)
    (s : Store) :
    Server.serve env r at_ s = s ∨ OrderEffect env at_ s r (Server.serve env r at_ s) := by
  unfold Request.tables at h
  split at h
  · rename_i u body
    unfold Server.serve Request.handle Request.handleUser OrderRoutes.create guarded
    rw [Action.snd_run_attempt]
    cases hb : env.createOrderReq body with
    | error issue => exact Or.inl rfl
    | ok b => exact Or.inr (.create hb)
  · rename_i u n
    cases hf : s.findOne .orders (hasNo n) with
    | none =>
      unfold Server.serve Request.handle Request.handleUser OrderRoutes.cancel guarded
        Orders.findByOrderNo Act.findOne
      rw [Action.snd_run_attempt, Action.run_reads_bind, hf]
      exact Or.inl rfl
    | some order =>
      rw [serve_cancel hf]
      split
      · rename_i hc
        exact Or.inr (.cancel hf hc.1 hc.2)
      · exact Or.inl rfl
  · rename_i u n
    cases hf : s.findOne .orders (hasNo n) with
    | none =>
      unfold Server.serve Request.handle Request.handleUser OrderRoutes.cancelMine guarded
        Orders.findByOrderNo Act.findOne
      rw [Action.snd_run_attempt, Action.run_reads_bind, hf]
      exact Or.inl rfl
    | some order =>
      rw [serve_cancelMine hf]
      split
      · rename_i hc
        exact Or.inr (.cancelMine hf hc.1 hc.2)
      · exact Or.inl rfl
  · rename_i n body
    unfold Server.serve Request.handle Request.handleAdmin AdminOrderRoutes.updateStatus adminGuarded
      Orders.findByOrderNo Act.findOne
    rw [Action.snd_run_attempt, Action.run_reads_bind]
    cases hf : s.findOne .orders (hasNo n) with
    | none => exact Or.inl rfl
    | some order =>
      obtain ⟨hit, hu⟩ := run_updateStatus hf (body.get "status") (at_.clock 0)
      dsimp only
      rw [Action.run_bind, hu]
      exact Or.inr (.status hf)
  · rename_i n body
    unfold Server.serve Request.handle Request.handleAdmin AdminOrderRoutes.updateRemark adminGuarded
      Orders.findByOrderNo Act.findOne
    rw [Action.snd_run_attempt, Action.run_reads_bind]
    cases hf : s.findOne .orders (hasNo n) with
    | none => exact Or.inl rfl
    | some order =>
      obtain ⟨hit, hu⟩ := run_updateRemark hf (body.get "remark") (at_.clock 0)
      dsimp only
      rw [Action.run_bind, hu]
      exact Or.inr (.remark hf)
  · rename_i n
    unfold Server.serve Request.handle Request.handleAdmin AdminOrderRoutes.delete adminGuarded
      Orders.findByOrderNo Act.findOne
    rw [Action.snd_run_attempt, Action.run_reads_bind]
    cases hf : s.findOne .orders (hasNo n) with
    | none => exact Or.inl rfl
    | some order =>
      obtain ⟨hit, hu⟩ := run_removeOrder hf
      dsimp only
      rw [Action.run_bind, hu]
      exact Or.inr (.delete hf)
  all_goals simp at h

theorem get_merged_single (column : String) (v : JsVal) (now : String) (r : Row) (k : String) :
    (Store.merged (.ofList [(column, v)]) now r).get k =
      if k = "updated_at" then .str now else if k = column then v else r.get k := by
  unfold Store.merged
  rw [Dict.get_set]
  split
  · rfl
  · rw [Dict.get_spread, Dict.has_ofList]
    by_cases hk : k = column
    · simp [hk, Dict.ofList]
    · simp [hk]

section
variable {s : Store}

theorem rows_addOrder (u : UserId) (b : CreateOrderReq) (at_ : Moment) :
    (s.addOrder u b at_).cache.rows .orders = s.cache.rows .orders ++
      [Store.newRow (newOrder (orderData u b) (generateOrderNo at_.time at_.draw))
        (s.cache.next .orders) (at_.clock 0)] :=
  (Store.rows_insert ..).trans (if_pos rfl)

theorem rows_setOrder (hi : Issued s.cache .orders) {order : Row}
    (ho : order ∈ s.cache.rows .orders) (column : String) (v : JsVal) (now : String) :
    (s.setOrder order column v now).cache.rows .orders = (s.cache.rows .orders).map fun r =>
      if r = order then Store.merged (.ofList [(column, v)]) now r else r :=
  (hi.oneRow ho).updated _ now

theorem rows_addLog (n column : String) (old new : JsVal) (operator now : String) {t : Table}
    (ht : t ≠ .orderChangeLogs) :
    (s.addLog n column old new operator now).cache.rows t = s.cache.rows t :=
  (Store.rows_insert ..).trans (if_neg ht)

theorem rows_dropOrder (hi : Issued s.cache .orders) {order : Row}
    (ho : order ∈ s.cache.rows .orders) (n : String) :
    (s.dropOrder n order).cache.rows .orders =
      (s.cache.rows .orders).filter fun r => decide (r ≠ order) := by
  have hrows : (s.removeWhere .orderItems (hasNo n)).2.cache.rows .orders = s.cache.rows .orders :=
    (Store.rows_removeWhere ..).trans (if_neg (by decide))
  have hnext : (s.removeWhere .orderItems (hasNo n)).2.cache.next .orders = s.cache.next .orders :=
    Store.next_removeWhere ..
  have hi' : Issued (s.removeWhere .orderItems (hasNo n)).2.cache .orders :=
    hi.perm (.of_eq hrows) hnext
  have ho' : order ∈ (s.removeWhere .orderItems (hasNo n)).2.cache.rows .orders := hrows ▸ ho
  rw [Store.dropOrder, (hi'.oneRow ho').removed, hrows]

end

/-- What an effect makes of the orders: one more, one changed in its status or its
remark, or one less. -/
theorem OrderEffect.rows_cases {env : Env} {at_ : Moment} {s s' : Store} {r : Request}
    (h : OrderEffect env at_ s r s') (hi : Issued s.cache .orders) :
    (∃ u body b, r = .user (some u) (.createOrder body) ∧ env.createOrderReq body = .ok b ∧
      s'.cache.rows .orders = s.cache.rows .orders ++
        [Store.newRow (newOrder (orderData u b) (generateOrderNo at_.time at_.draw))
          (s.cache.next .orders) (at_.clock 0)]) ∨
    (∃ order ∈ s.cache.rows .orders, ∃ column v now, (column = "status" ∨ column = "remark") ∧
      s'.cache.rows .orders = (s.cache.rows .orders).map fun r =>
        if r = order then Store.merged (.ofList [(column, v)]) now r else r) ∨
    (∃ n order, r = .admin true (.deleteOrder n) ∧ s.findOne .orders (hasNo n) = some order ∧
      s'.cache.rows .orders = (s.cache.rows .orders).filter fun r => decide (r ≠ order)) := by
  cases h with
  | create hb => exact Or.inl ⟨_, _, _, rfl, hb, rows_addOrder ..⟩
  | cancel hf _ _ =>
    have ho := (mem_of_findOne hf).1
    exact Or.inr (Or.inl ⟨_, ho, "status", _, _, Or.inl rfl,
      (rows_addLog _ _ _ _ _ _ (by decide)).trans (rows_setOrder hi ho ..)⟩)
  | cancelMine hf _ _ =>
    have ho := (mem_of_findOne hf).1
    exact Or.inr (Or.inl ⟨_, ho, "status", _, _, Or.inl rfl, rows_setOrder hi ho ..⟩)
  | status hf =>
    have ho := (mem_of_findOne hf).1
    exact Or.inr (Or.inl ⟨_, ho, "status", _, _, Or.inl rfl,
      (rows_addLog _ _ _ _ _ _ (by decide)).trans (rows_setOrder hi ho ..)⟩)
  | remark hf =>
    have ho := (mem_of_findOne hf).1
    exact Or.inr (Or.inl ⟨_, ho, "remark", _, _, Or.inr rfl,
      (rows_addLog _ _ _ _ _ _ (by decide)).trans (rows_setOrder hi ho ..)⟩)
  | delete hf =>
    exact Or.inr (Or.inr ⟨_, _, rfl, hf, rows_dropOrder hi (mem_of_findOne hf).1 _⟩)

/-- No request on orders changes an id of theirs. -/
theorem keepsIds_of_orders {r : Request} (h : Table.orders ∈ r.tables) : r.KeepsIds := by
  unfold Request.tables at h
  split at h <;> trivial

end JtfpMall
