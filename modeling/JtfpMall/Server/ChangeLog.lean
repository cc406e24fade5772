import JtfpMall.Server.OrderNumbers

/-!
# The change log

The status entries of an order form a path from the status of its creation to its
present one, as long as whoever writes a status also writes its entry. The cancellation under
`/me/orders` does not.
-/

namespace JtfpMall

open JtfpMall.Js
open JtfpMall.Lib
open JtfpMall.Orders (hasNo newOrder changeLog generateOrderNo)
open JtfpMall.OrderRoutes (orderData ownedBy pending)

/-- The entries lead from one value to another, each starting where the one before ended. -/
def Replays : JsVal → List Row → JsVal → Prop
  | v, [], w => w = v
  | v, l :: ls, w => l.get "old_value" = v ∧ Replays (l.get "new_value") ls w

theorem Replays.concat {v w : JsVal} {ls : List Row} {l : Row} (h : Replays v ls w)
    (hl : l.get "old_value" = w) : Replays v (ls ++ [l]) (l.get "new_value") := by
  induction ls generalizing v with
  | nil => exact ⟨hl.trans h, rfl⟩
  | cons e ls ih => exact ⟨h.1, ih h.2⟩

theorem Replays.viaJson {v w : JsVal} {ls : List Row} (h : Replays v ls w) :
    Replays v.viaJson (ls.map Dict.viaJson) w.viaJson := by
  induction ls generalizing v with
  | nil =>
    cases h
    rfl
  | cons e ls ih =>
    refine ⟨?_, ?_⟩
    · rw [Dict.get_viaJson, h.1]
    · rw [Dict.get_viaJson]
      exact ih h.2

/-- The entry is about the status of the order with the number `n`. -/
def isStatusOf (n : String) (l : Row) : Bool :=
  hasNo n l && (l.get "field_name").strictEq (.str "status")

/-- The status entries of an order, in the order they were recorded. -/
def statusLog (d : StoreData) (n : String) : List Row :=
  (d.rows .orderChangeLogs).filter (isStatusOf n)

/-- Every order's entries lead from the status of its creation to its present one. -/
def Logged (d : StoreData) : Prop :=
  ∀ order ∈ d.rows .orders, ∀ n, order.get "order_no" = .str n →
    Replays (.str "PENDING_PAYMENT") (statusLog d n) (order.get "status")

/-- A creation draws a number that was never used: no live order and no entry has it; and only
requests write orders and entries. -/
def NumbersUnused (env : Env) (s : Store) : Server.Event → Prop
  | .request (.user (some _) (.createOrder body)) at_ => ∀ b, env.createOrderReq body = .ok b →
      s.findOne .orders (hasNo (generateOrderNo at_.time at_.draw)) = none ∧
        s.findOne .orderChangeLogs (hasNo (generateOrderNo at_.time at_.draw)) = none
  | .operation w _ => w.table ≠ .orders ∧ w.table ≠ .orderChangeLogs
  | _ => True

/-- No cancellation under `/me/orders` goes through. -/
def CancelsLogged (s : Store) : Server.Event → Prop
  | .request (.user (some u) (.cancelMyOrder n)) _ =>
    ∀ order, s.findOne .orders (hasNo n) = some order → ownedBy u order = true →
      pending order = false
  | _ => True

theorem NumbersUnused.fresh {env : Env} {s : Store} {e : Server.Event} (h : NumbersUnused env s e) :
    FreshNumber env s e := by
  unfold FreshNumber
  split
  · exact fun b hb => (h b hb).1
  · exact h.1
  · trivial

section
variable {s : Store}

theorem logs_setOrder (order : Row) (column : String) (v : JsVal) (now : String) :
    (s.setOrder order column v now).cache.rows .orderChangeLogs = s.cache.rows .orderChangeLogs :=
  (Store.rows_update ..).trans (if_neg (by decide))

theorem logs_addLog (n column : String) (old new : JsVal) (operator now : String) :
    (s.addLog n column old new operator now).cache.rows .orderChangeLogs =
      s.cache.rows .orderChangeLogs ++
        [Store.newRow (changeLog n column old new operator) (s.cache.next .orderChangeLogs) now] :=
  (Store.rows_insert ..).trans (if_pos rfl)

theorem get_changeLog (n column : String) (old new : JsVal) (operator : String) (id : ℕ)
    (now : String) :
    let l := Store.newRow (changeLog n column old new operator) id now
    l.get "order_no" = .str n ∧ l.get "field_name" = .str column ∧ l.get "old_value" = old ∧
      l.get "new_value" = new := by
  simp [Store.newRow, changeLog, Dict.ofList, Dict.get_set]

theorem isStatusOf_changeLog (m n column : String) (old new : JsVal) (operator : String) (id : ℕ)
    (now : String) : isStatusOf m (Store.newRow (changeLog n column old new operator) id now) =
      decide (n = m ∧ column = "status") := by
  obtain ⟨h1, h2, _, _⟩ := get_changeLog n column old new operator id now
  rw [isStatusOf, hasNo, h1, h2]
  simp [JsVal.strictEq]

/-- An entry is appended to the entries of its order. -/
theorem statusLog_addLog (n column : String) (old new : JsVal) (operator now m : String) :
    statusLog (s.addLog n column old new operator now).cache m =
      if n = m ∧ column = "status" then statusLog s.cache m ++
        [Store.newRow (changeLog n column old new operator) (s.cache.next .orderChangeLogs) now]
      else statusLog s.cache m := by
  unfold statusLog
  rw [logs_addLog, List.filter_append, List.filter_singleton, isStatusOf_changeLog]
  by_cases h : n = m ∧ column = "status"
  · simp [h]
  · simp [h]

theorem statusLog_setOrder (order : Row) (column : String) (v : JsVal) (now m : String) :
    statusLog (s.setOrder order column v now).cache m = statusLog s.cache m := by
  unfold statusLog
  rw [logs_setOrder]

end

section
variable {s : Store} {n : String} {order : Row}

theorem logged_of_eq {d d' : StoreData} (h : Logged d)
    (ho : ∀ r ∈ d'.rows .orders, r ∈ d.rows .orders)
    (hl : d'.rows .orderChangeLogs = d.rows .orderChangeLogs) : Logged d' := by
  intro r hr m hm
  rw [statusLog, hl]
  exact h r (ho r hr) m hm

/-- A status written with its entry. -/
theorem logged_status (hi : Issued s.cache .orders) (hn : Numbered s.cache) (h : Logged s.cache)
    (hf : s.findOne .orders (hasNo n) = some order) (v : JsVal) (operator now now' : String) :
    Logged ((s.setOrder order "status" v now).addLog n "status" (order.get "status") v operator
      now').cache := by
  obtain ⟨hmem, hno⟩ := mem_of_findOne hf
  have hno : order.get "order_no" = .str n := JsVal.eq_of_strictEq hno
  intro r hr m hm
  rw [rows_addLog _ _ _ _ _ _ (by decide), rows_setOrder hi hmem] at hr
  obtain ⟨r₀, hr₀, rfl⟩ := List.mem_map.mp hr
  rw [statusLog_addLog, statusLog_setOrder]
  by_cases he : r₀ = order
  · subst he
    rw [if_pos rfl, get_merged_single, if_neg (by decide), if_neg (by decide), hno] at hm
    cases hm
    rw [if_pos ⟨rfl, rfl⟩, if_pos rfl, get_merged_single, if_neg (by decide), if_pos rfl]
    obtain ⟨_, _, hold, hnew⟩ := get_changeLog n "status" (r₀.get "status") v operator
      ((s.setOrder r₀ "status" v now).cache.next .orderChangeLogs) now'
    have hpath := (h r₀ hmem n hno).concat hold
    rwa [hnew] at hpath
  · rw [if_neg he] at hm ⊢
    have hne : ¬(n = m ∧ "status" = "status") := by
      rintro ⟨rfl, _⟩
      exact he (hn.eq_of_get hmem hr₀ (hm.trans hno.symm))
    rw [if_neg hne]
    exact h r₀ hr₀ m hm

theorem logged_remark (hi : Issued s.cache .orders) (h : Logged s.cache)
    (hf : s.findOne .orders (hasNo n) = some order) (v old new : JsVal)
    (operator now now' : String) :
    Logged ((s.setOrder order "remark" v now).addLog n "remark" old new operator now').cache := by
  obtain ⟨hmem, _⟩ := mem_of_findOne hf
  intro r hr m hm
  rw [rows_addLog _ _ _ _ _ _ (by decide), rows_setOrder hi hmem] at hr
  obtain ⟨r₀, hr₀, rfl⟩ := List.mem_map.mp hr
  have hne : ¬(n = m ∧ "remark" = "status") := fun hc => absurd hc.2 (by decide)
  rw [statusLog_addLog, statusLog_setOrder, if_neg hne]
  split at hm
  · rw [get_merged_single, if_neg (by decide), if_neg (by decide)] at hm
    rw [if_pos ‹_›, get_merged_single, if_neg (by decide), if_neg (by decide)]
    exact h r₀ hr₀ m hm
  · rw [if_neg ‹_›]
    exact h r₀ hr₀ m hm

/-- A new order under an unused number has its first status and no entry. -/
theorem logged_create (h : Logged s.cache) {u : UserId} {b : CreateOrderReq} {at_ : Moment}
    (hl : s.findOne .orderChangeLogs (hasNo (generateOrderNo at_.time at_.draw)) = none) :
    Logged (s.addOrder u b at_).cache := by
  have hlogs : (s.addOrder u b at_).cache.rows .orderChangeLogs = s.cache.rows .orderChangeLogs :=
    (Store.rows_insert ..).trans (if_neg (by decide))
  intro r hr m hm
  rw [statusLog, hlogs]
  rw [rows_addOrder, List.mem_append, List.mem_singleton] at hr
  rcases hr with hr | rfl
  · exact h r hr m hm
  · rw [get_newOrder_no] at hm
    cases hm
    have hnone : (s.cache.rows .orderChangeLogs).filter
        (isStatusOf (generateOrderNo at_.time at_.draw)) = [] := by
      rw [List.filter_eq_nil_iff]
      intro l hm hc
      rw [isStatusOf, Bool.and_eq_true] at hc
      exact List.find?_eq_none.mp hl l hm hc.1
    rw [hnone, get_newOrder_status]
    rfl

/-- JSON text keeps the path, whatever becomes of the values on it. -/
theorem Logged.viaJson {d : StoreData} (h : Logged d) (hn : Numbered d) : Logged d.viaJson := by
  intro r hr m hm
  obtain ⟨r₀, hr₀, rfl⟩ := List.mem_map.mp hr
  obtain ⟨k, hk⟩ := hn.values r₀ hr₀
  rw [Dict.get_viaJson, hk] at hm
  cases hm
  have hst : (isStatusOf m ∘ Dict.viaJson) = isStatusOf m := by
    funext l
    simp only [Function.comp, isStatusOf, hasNo, Dict.get_viaJson, JsVal.strictEq_viaJson_str]
  rw [statusLog, StoreData.rows_viaJson, List.filter_map, hst, Dict.get_viaJson]
  exact (h r₀ hr₀ m hk).viaJson

end

/-- A request that writes entries writes orders. -/
theorem orders_of_logs {r : Request} (h : Table.orderChangeLogs ∈ r.tables) :
    Table.orders ∈ r.tables := by
  revert h
  unfold Request.tables
  split <;> simp

namespace Server

variable {env : Env} {s s' : Store} {e : Event}

theorem logged_restart (hsv : Saved env s) (hn : Numbered s.cache) (h : Logged s.cache)
    (loadedAt : String) (clock : ℕ → String) : Logged (restart loadedAt clock s).cache := by
  obtain ⟨rows, hp, _, hr⟩ :=
    rows_restart hsv (t := .orders) (by decide) (by decide) loadedAt clock
  obtain ⟨logs, _, hl, hr'⟩ :=
    rows_restart hsv (t := .orderChangeLogs) (by decide) (by decide) loadedAt clock
  rw [hl rfl] at hr'
  refine logged_of_eq (h.viaJson hn) (fun r hm => ?_) hr'
  rw [hr] at hm
  obtain ⟨r₀, hr₀, rfl⟩ := List.mem_map.mp hm
  exact List.mem_map_of_mem (hp.mem_iff.mp hr₀)

/-- The log goes on leading to the present status, if no status is written without its entry. -/
theorem logged_step (ht : OrderTable env s) (h : Logged s.cache) (hu : NumbersUnused env s e)
    (hc : CancelsLogged s e) (hs : step env s e = some s') : Logged s'.cache := by
  cases e with
  | request r at_ =>
    cases hs
    by_cases hr : Table.orders ∈ r.tables
    · obtain he | he := serve_orders env hr at_ s
      · rw [he]
        exact h
      · generalize serve env r at_ s = s' at he
        cases he with
        | create hb => exact logged_create h (hu _ hb).2
        | cancel hf _ _ => exact logged_status ht.issued ht.numbered h hf _ _ _ _
        | cancelMine hf ho hp => exact absurd hp (by simp [hc _ hf ho])
        | status hf => exact logged_status ht.issued ht.numbered h hf _ _ _ _
        | remark hf => exact logged_remark ht.issued h hf _ _ _ _ _ _
        | delete hf =>
          refine logged_of_eq h (fun r hm => ?_) ?_
          · rw [rows_dropOrder ht.issued (mem_of_findOne hf).1] at hm
            exact List.mem_of_mem_filter hm
          · rw [Store.dropOrder, Store.rows_remove, if_neg (by decide), Store.rows_removeWhere,
              if_neg (by decide)]
    · have hl : Table.orderChangeLogs ∉ r.tables := fun hl => hr (orders_of_logs hl)
      exact logged_of_eq h (fun r hm => (serve_sameRows env hr at_ s).perm.mem_iff.mp hm)
        ((serve_sameRows env hl at_ s).rows rfl)
  | operation w now =>
    cases hs
    exact logged_of_eq h (fun r hm => Write.rows_apply_of_ne hu.1 now s ▸ hm)
      (Write.rows_apply_of_ne hu.2 now s)
  | timer now =>
    simp only [step] at hs
    split at hs
    · cases hs
      exact logged_of_eq h (fun r hm => Store.rows_flushNow now s .orders ▸ hm)
        (Store.rows_flushNow now s _)
    · cases hs
  | flush now =>
    cases hs
    exact logged_of_eq h (fun r hm => Store.rows_flushNow now s .orders ▸ hm)
      (Store.rows_flushNow now s _)
  | restart loadedAt clock =>
    cases hs
    exact logged_restart ht.saved ht.numbered h loadedAt clock

theorem logged_start (loadedAt : String) (clock : ℕ → String) :
    Logged (start loadedAt clock .empty).cache := by
  intro r hr
  unfold start at hr
  rw [rows_initDefaultData_of_ne (by decide) (by decide)] at hr
  exact absurd hr List.not_mem_nil

/-- As long as no number is used twice and no cancellation under `/me/orders` goes
through: the status entries of every order lead, in the order they were recorded, from the status of its
creation to its present one. -/
theorem log_replays {loadedAt : String} {clock : ℕ → String} {es : List Event}
    (hok : Along (step env) (fun s e => NumbersUnused env s e ∧ CancelsLogged s e)
      (start loadedAt clock .empty) es)
    (hr : run (step env) (start loadedAt clock .empty) es = some s) :
    ∀ order ∈ s.cache.rows .orders, ∃ n, order.get "order_no" = .str n ∧
      Replays (.str "PENDING_PAYMENT") (statusLog s.cache n) (order.get "status") := by
  obtain ⟨ht, hl⟩ := run_invariant (step env) (fun s => OrderTable env s ∧ Logged s.cache)
    (fun _ _ _ hi ho hs => ⟨orderTable_step hi.1 ho.1.fresh hs,
      logged_step hi.1 hi.2 ho.1 ho.2 hs⟩)
    ⟨orderTable_start loadedAt clock, logged_start loadedAt clock⟩ hok hr
  intro order hm
  obtain ⟨n, hn⟩ := ht.numbered.values order hm
  exact ⟨n, hn, hl order hm n hn⟩

/-- The creation of an order. -/
def creation : Event :=
  .request (.user (some ⟨1, userId_one⟩) (.createOrder (.obj []))) (moment "t2")

/-- The order is shipped by the admin and then asked to be cancelled by its user. -/
theorem log_replays_shipped :
    let es : List Event := [creation,
      .request (.admin true (.updateOrderStatus "202501010000000000"
        (.ofList [("status", .str "SHIPPED")]))) (moment "t3"),
      .request (.user (some ⟨1, by decide⟩) (.cancelMyOrder "202501010000000000")) (moment "t4")]
    ∃ s, run (step .plain) (start "t0" (fun _ => "t1") .empty) es = some s ∧
      ∀ order ∈ s.cache.rows .orders, ∃ n, order.get "order_no" = .str n ∧
        Replays (.str "PENDING_PAYMENT") (statusLog s.cache n) (order.get "status") := by
  intro es
  have hp : ((serve .plain (.admin true (.updateOrderStatus "202501010000000000"
      (.ofList [("status", .str "SHIPPED")]))) (moment "t3") oneOrder).findOne .orders
        (hasNo "202501010000000000")).map pending = some false := by decide
  have hok : Along (step .plain) (fun s e => NumbersUnused .plain s e ∧ CancelsLogged s e)
      (start "t0" (fun _ => "t1") .empty) es := by
    refine along_request ⟨fun b hb => ⟨rfl, rfl⟩, trivial⟩ ?_
    refine along_request ⟨trivial, trivial⟩ (along_request ⟨trivial, fun order hf ho => ?_⟩ trivial)
    change ((serve .plain _ _ oneOrder).findOne .orders _) = some order at hf
    rw [hf] at hp
    exact Option.some.inj hp
  exact ⟨_, rfl, log_replays hok rfl⟩

/-- The order is cancelled by its user under `/me/orders`: its status is CANCELLED and
it has no entry. -/
theorem cancel_not_logged :
    let es : List Event := [creation,
      .request (.user (some ⟨1, by decide⟩) (.cancelMyOrder "202501010000000000")) (moment "t3")]
    Along (step .plain) (NumbersUnused .plain) (start "t0" (fun _ => "t1") .empty) es ∧
      ∃ s, run (step .plain) (start "t0" (fun _ => "t1") .empty) es = some s ∧
        ∃ order ∈ s.cache.rows .orders, order.get "order_no" = .str "202501010000000000" ∧
          ¬Replays (.str "PENDING_PAYMENT") (statusLog s.cache "202501010000000000")
            (order.get "status") := by
  intro es
  let s := serve .plain (.user (some ⟨1, by decide⟩) (.cancelMyOrder "202501010000000000"))
    (moment "t3") oneOrder
  have hrow : (.str "202501010000000000", .str "CANCELLED") ∈
      (s.cache.rows .orders).map fun r => (r.get "order_no", r.get "status") := by decide
  have hlog : statusLog s.cache "202501010000000000" = [] := by decide
  obtain ⟨order, hm, hcols⟩ := List.mem_map.mp hrow
  rw [Prod.mk.injEq] at hcols
  refine ⟨along_request (fun b hb => ⟨rfl, rfl⟩) (along_request trivial trivial), s, rfl, order, hm,
    hcols.1, fun h => ?_⟩
  rw [hlog, hcols.2] at h
  exact absurd (JsVal.str.inj h) (by decide)

end Server

end JtfpMall
