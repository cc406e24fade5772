import JtfpMall.Server.OrderEffects

/-!
# Order numbers

An order number is the local second of the creation and a draw of four digits. Every lookup
takes the first order with the number, so an owner reaches an order as long as
no other live order has its number.
-/

namespace JtfpMall

open JtfpMall.Js
open JtfpMall.Lib
open JtfpMall.Orders (hasNo newOrder generateOrderNo)
open JtfpMall.OrderRoutes (orderData ownedBy pending)

/-- Every order has a number, and no two orders share one. -/
def Numbered (d : StoreData) : Prop :=
  KeyColumn "order_no" (fun v => ∃ n, v = .str n) (d.rows .orders)

/-- The row is the order that `u` asked for with the request `b` and that got the number `n`. -/
structure IsOrder (u : UserId) (b : CreateOrderReq) (n : String) (r : Row) : Prop where
  number : r.get "order_no" = .str n
  owner : r.get "user_id" = .num (.fin u)
  note : r.get "buyer_note" = absent b.buyerNote
  address : r.get "address_snapshot" =
    if b.addressSnapshot.truthy then Json.stringify b.addressSnapshot else .undefined
  invite : r.get "invite_code" = absent b.inviteCode

/-- A creation draws a number that no live order has, and only requests write orders. -/
def FreshNumber (env : Env) (s : Store) : Server.Event → Prop
  | .request (.user (some _) (.createOrder body)) at_ => ∀ b, env.createOrderReq body = .ok b →
      s.findOne .orders (hasNo (generateOrderNo at_.time at_.draw)) = none
  | .operation w _ => w.table ≠ .orders
  | _ => True

/-- Such an event changes no id of an order. -/
theorem FreshNumber.keepsIdsOf {env : Env} {s : Store} {e : Server.Event} (h : FreshNumber env s e) :
    e.KeepsIdsOf .orders := by
  cases e with
  | request r at_ => exact keepsIds_of_orders
  | operation w now => exact fun ht => absurd ht h
  | _ => trivial

theorem get_newOrder (data : Row) (n : String) (id : ℕ) (now k : String)
    (hk : k ∉ ["id", "created_at", "updated_at", "order_no", "status", "total_amount", "version"]) :
    (Store.newRow (newOrder data n) id now).get k = data.get k := by
  simp only [List.mem_cons, List.not_mem_nil, or_false, not_or] at hk
  obtain ⟨h1, h2, h3, h4, h5, h6, h7⟩ := hk
  simp only [Store.newRow, newOrder, Dict.get_set, h1, h2, h3, h4, h5, h6, h7, if_false]

theorem get_newOrder_status (u : UserId) (b : CreateOrderReq) (n : String) (id : ℕ) (now : String) :
    (Store.newRow (newOrder (orderData u b) n) id now).get "status" = .str "PENDING_PAYMENT" := by
  have hd : (orderData u b).get "status" = .str "PENDING_PAYMENT" := by
    simp [orderData, Dict.ofList, Dict.get_set]
  simp [Store.newRow, newOrder, Dict.get_set, hd, JsVal.or, JsVal.truthy]

theorem get_newOrder_total (u : UserId) (b : CreateOrderReq) (n : String) (id : ℕ) (now : String) :
    (Store.newRow (newOrder (orderData u b) n) id now).get "total_amount" = .num (.fin 0) := by
  have hd : (orderData u b).get "total_amount" = .num (.fin 0) := by
    simp [orderData, Dict.ofList, Dict.get_set]
  simp [Store.newRow, newOrder, Dict.get_set, hd, JsVal.or, JsVal.truthy]

theorem get_newOrder_no (u : UserId) (b : CreateOrderReq) (n : String) (id : ℕ) (now : String) :
    (Store.newRow (newOrder (orderData u b) n) id now).get "order_no" = .str n := by
  have hd : (orderData u b).get "order_no" = .undefined := by
    simp [orderData, Dict.ofList, Dict.get_set]
  simp [Store.newRow, newOrder, Dict.get_set, hd, JsVal.or, JsVal.truthy]

/-- A creation makes the order it is asked for. -/
theorem isOrder_newOrder (u : UserId) (b : CreateOrderReq) (n : String) (id : ℕ) (now : String) :
    IsOrder u b n (Store.newRow (newOrder (orderData u b) n) id now) where
  number := get_newOrder_no u b n id now
  owner := by
    rw [get_newOrder _ _ _ _ _ (by decide)]
    simp [orderData, Dict.ofList, Dict.get_set]
  note := by
    rw [get_newOrder _ _ _ _ _ (by decide)]
    simp [orderData, Dict.ofList, Dict.get_set]
  address := by
    rw [get_newOrder _ _ _ _ _ (by decide)]
    simp [orderData, Dict.ofList, Dict.get_set]
  invite := by
    rw [get_newOrder _ _ _ _ _ (by decide)]
    simp [orderData, Dict.ofList]

theorem IsOrder.congr {u : UserId} {b : CreateOrderReq} {n : String} {r r' : Row}
    (h : IsOrder u b n r) (hk : ∀ k ∈ ["order_no", "user_id", "buyer_note", "address_snapshot",
      "invite_code"], r'.get k = r.get k) : IsOrder u b n r' where
  number := (hk _ (by simp)).trans h.number
  owner := (hk _ (by simp)).trans h.owner
  note := (hk _ (by simp)).trans h.note
  address := (hk _ (by simp)).trans h.address
  invite := (hk _ (by simp)).trans h.invite

theorem IsOrder.merged {u : UserId} {b : CreateOrderReq} {n : String} {r : Row}
    (h : IsOrder u b n r) {column : String} (hc : column = "status" ∨ column = "remark")
    (v : JsVal) (now : String) : IsOrder u b n (Store.merged (.ofList [(column, v)]) now r) := by
  refine h.congr fun k hk => ?_
  have hne : k ≠ "updated_at" ∧ k ≠ column := by
    simp only [List.mem_cons, List.not_mem_nil, or_false] at hk
    rcases hc with rfl | rfl <;> rcases hk with rfl | rfl | rfl | rfl | rfl <;> decide
  rw [get_merged_single, if_neg hne.1, if_neg hne.2]

theorem IsOrder.viaJson {u : UserId} {b : CreateOrderReq} {n : String} {r : Row}
    (h : IsOrder u b n r) : IsOrder u b n r.viaJson := by
  refine h.congr fun k hk => ?_
  rw [Dict.get_viaJson]
  refine JsVal.Storable.viaJson_eq ?_
  simp only [List.mem_cons, List.not_mem_nil, or_false] at hk
  rcases hk with rfl | rfl | rfl | rfl | rfl
  · exact h.number ▸ JsVal.storable_str n
  · exact h.owner ▸ JsVal.storable_fin _
  · exact h.note ▸ storable_absent _
  · rw [h.address]
    split
    · exact storable_stringify _
    · exact Or.inl rfl
  · exact h.invite ▸ storable_absent _

namespace Server

variable {env : Env} {s s' : Store} {e : Event}

theorem numbered_step (hsv : Saved env s) (hi : Issued s.cache .orders) (h : Numbered s.cache)
    (hf : FreshNumber env s e) (hs : step env s e = some s') : Numbered s'.cache := by
  refine rows_step (KeyColumn "order_no" fun v => ∃ n, v = .str n) (by decide) (by decide)
    (fun l l' hp hk => hk.perm hp) (fun l hk => hk.viaJson ?_) hsv h hs ?_ ?_
  · rintro v ⟨n, rfl⟩
    rfl
  · rintro r at_ rfl ht rfl
    obtain he | he := serve_orders env ht at_ s
    · rw [he]
      exact h
    · obtain ⟨u, body, b, rfl, hb, hr⟩ | ⟨order, _, column, v, now, hc, hr⟩ | ⟨n, order, _, _, hr⟩ :=
        he.rows_cases hi
      · rw [hr]
        refine h.concat ⟨_, get_newOrder_no ..⟩ fun r' hr' he' => ?_
        rw [get_newOrder_no] at he'
        have hnone := List.find?_eq_none.mp (hf b hb) r' hr'
        simp [hasNo, he', JsVal.strictEq] at hnone
      · rw [hr]
        refine h.of_keys ?_
        rw [List.map_map]
        refine List.map_congr_left fun r' _ => ?_
        simp only [Function.comp]
        split
        · have hne : "order_no" ≠ column := by rcases hc with rfl | rfl <;> decide
          rw [get_merged_single, if_neg (by decide), if_neg hne]
        · rfl
      · rw [hr]
        exact h.sublist List.filter_sublist
  · rintro w now rfl ht
    exact absurd ht hf

/-- The event deletes the order with the number `n`. -/
def Event.Deletes (n : String) : Event → Prop
  | .request (.admin true (.deleteOrder m)) _ => m = n
  | _ => False

/-- An order stays the order it is until it is deleted. -/
theorem isOrder_step {u : UserId} {b : CreateOrderReq} {n : String} (hsv : Saved env s)
    (hi : Issued s.cache .orders) (h : ∃ r ∈ s.cache.rows .orders, IsOrder u b n r)
    (hf : FreshNumber env s e) (hd : ¬e.Deletes n) (hs : step env s e = some s') :
    ∃ r ∈ s'.cache.rows .orders, IsOrder u b n r := by
  refine rows_step (fun rows => ∃ r ∈ rows, IsOrder u b n r) (by decide) (by decide) ?_ ?_ hsv h hs
    ?_ ?_
  · rintro l l' hp ⟨r, hr, ho⟩
    exact ⟨r, hp.mem_iff.mpr hr, ho⟩
  · rintro l ⟨r, hr, ho⟩
    exact ⟨r.viaJson, List.mem_map_of_mem hr, ho.viaJson⟩
  · rintro r at_ rfl ht rfl
    obtain ⟨row, hrow, ho⟩ := h
    obtain he | he := serve_orders env ht at_ s
    · rw [he]
      exact ⟨row, hrow, ho⟩
    · obtain ⟨u, body, b, rfl, hb, hr⟩ | ⟨order, _, column, v, now, hc, hr⟩ | ⟨m, order, rfl, hm, hr⟩ :=
        he.rows_cases hi
      · rw [hr]
        exact ⟨row, List.mem_append_left _ hrow, ho⟩
      · rw [hr]
        refine ⟨_, List.mem_map_of_mem hrow, ?_⟩
        split
        · exact ho.merged hc v now
        · exact ho
      · rw [hr]
        refine ⟨row, List.mem_filter.mpr ⟨hrow, decide_eq_true ?_⟩, ho⟩
        rintro rfl
        have hno : hasNo m row = true := (mem_of_findOne hm).2
        rw [hasNo, ho.number] at hno
        have hnm : n = m := by simpa [JsVal.strictEq] using hno
        exact hd hnm.symm
  · rintro w now rfl ht
    exact absurd ht hf

end Server

/-- What a cancellation by its owner makes of an order. -/
def afterCancel (now : String) (order : Row) : Row :=
  if pending order then Store.merged (.ofList [("status", .str "CANCELLED")]) now order else order

/-- The user `u` reaches the order under the number `n`: no other live order has it, both
detail requests show the order, and both cancellations act on it and on no other. -/
structure Reaches (env : Env) (s : Store) (u : UserId) (n : String) (order : Row) : Prop where
  only : ∀ r ∈ s.cache.rows .orders, hasNo n r = true ↔ r = order
  shown : ∀ at_, Server.answer env (.user (some u) (.order n)) at_ s =
    .ok (.ok [("order", .row order), ("items", .rows (s.findAll .orderItems (hasNo n)))])
  shownMine : ∀ at_, Server.answer env (.user (some u) (.myOrder n)) at_ s =
    .ok (.ok [("order", .row order), ("items", .rows (s.findAll .orderItems (hasNo n)))])
  cancelled : ∀ at_, (Server.serve env (.user (some u) (.cancelOrder n)) at_ s).cache.rows .orders =
    (s.cache.rows .orders).map fun r => if r = order then afterCancel (at_.clock 0) r else r
  cancelledMine : ∀ at_,
    (Server.serve env (.user (some u) (.cancelMyOrder n)) at_ s).cache.rows .orders =
      (s.cache.rows .orders).map fun r => if r = order then afterCancel (at_.clock 0) r else r

section
variable {env : Env} {s : Store} {u : UserId} {n : String} {order : Row}

theorem answer_order (hf : s.findOne .orders (hasNo n) = some order) (ho : ownedBy u order = true)
    (at_ : Moment) : Server.answer env (.user (some u) (.order n)) at_ s =
      .ok (.ok [("order", .row order), ("items", .rows (s.findAll .orderItems (hasNo n)))]) := by
  unfold Server.answer Request.handle Request.handleUser OrderRoutes.detail guarded
    Orders.findByOrderNo Act.findOne
  rw [Action.run_attempt, Action.run_reads_bind, hf]
  simp only [ho, if_true]
  rfl

theorem answer_myOrder (hf : s.findOne .orders (hasNo n) = some order)
    (ho : ownedBy u order = true) (at_ : Moment) :
    Server.answer env (.user (some u) (.myOrder n)) at_ s =
      .ok (.ok [("order", .row order), ("items", .rows (s.findAll .orderItems (hasNo n)))]) := by
  unfold Server.answer Request.handle Request.handleUser OrderRoutes.myDetail guarded
    Orders.findByOrderNo Act.findOne
  rw [Action.run_attempt, Action.run_reads_bind, hf]
  simp only [ho, if_true]
  rfl

theorem map_afterCancel_of_not_pending (hp : ¬pending order = true) (now : String) (rows : List Row) :
    (rows.map fun r => if r = order then afterCancel now r else r) = rows := by
  conv_rhs => rw [← List.map_id rows]
  refine List.map_congr_left fun r _ => ?_
  split
  · rename_i hr
    subst hr
    simp [afterCancel, hp]
  · rfl

theorem map_afterCancel_of_pending (hp : pending order = true) (now : String) (rows : List Row) :
    (rows.map fun r => if r = order then afterCancel now r else r) = rows.map fun r =>
      if r = order then Store.merged (.ofList [("status", .str "CANCELLED")]) now r else r := by
  refine List.map_congr_left fun r _ => ?_
  split
  · rename_i hr
    subst hr
    simp [afterCancel, hp]
  · rfl

/-- With distinct ids and numbers an owner reaches the order. -/
theorem reaches (hi : Issued s.cache .orders) (hn : Numbered s.cache)
    (hm : order ∈ s.cache.rows .orders) (hno : order.get "order_no" = .str n)
    (hu : order.get "user_id" = .num (.fin u)) : Reaches env s u n order := by
  have hf : s.findOne .orders (hasNo n) = some order := by
    have hfind := KeyColumn.find? hn (fun v hv => ?_) hm
    · rwa [hno] at hfind
    · obtain ⟨m, rfl⟩ := hv
      simp [JsVal.strictEq]
  have ho : ownedBy u order = true := by
    rw [ownedBy, hu]
    simp [JsVal.strictEq, JsNum.strictEq]
  refine ⟨fun r hr => ⟨fun h => ?_, ?_⟩, answer_order hf ho, answer_myOrder hf ho, fun at_ => ?_,
    fun at_ => ?_⟩
  · exact hn.eq_of_get hm hr ((JsVal.eq_of_strictEq h).trans hno.symm)
  · rintro rfl
    exact (mem_of_findOne hf).2
  · rw [serve_cancel hf]
    by_cases hp : pending order = true
    · rw [if_pos ⟨ho, hp⟩, rows_addLog _ _ _ _ _ _ (by decide), rows_setOrder hi hm,
        map_afterCancel_of_pending hp]
    · rw [if_neg fun h => hp h.2, map_afterCancel_of_not_pending hp]
  · rw [serve_cancelMine hf]
    by_cases hp : pending order = true
    · rw [if_pos ⟨ho, hp⟩, rows_setOrder hi hm, map_afterCancel_of_pending hp]
    · rw [if_neg fun h => hp h.2, map_afterCancel_of_not_pending hp]

end

namespace Server

section
variable {env : Env} {s : Store} {u : UserId} {body : JsVal} {at_ : Moment}

theorem serve_create {b : CreateOrderReq} (hb : env.createOrderReq body = .ok b) :
    serve env (.user (some u) (.createOrder body)) at_ s = s.addOrder u b at_ := by
  unfold serve Request.handle Request.handleUser OrderRoutes.create guarded
  rw [Action.snd_run_attempt, hb]
  rfl

theorem answer_create {b : CreateOrderReq} (hb : env.createOrderReq body = .ok b) :
    answer env (.user (some u) (.createOrder body)) at_ s =
      .ok (.ok [("order_no", .val (.str (generateOrderNo at_.time at_.draw))),
        ("status", .val (.str "PENDING_PAYMENT")), ("total_amount", .val (.num (.fin 0)))]) := by
  have hrow : answer env (.user (some u) (.createOrder body)) at_ s =
      .ok (OrderRoutes.summary (Store.newRow (newOrder (orderData u b)
        (generateOrderNo at_.time at_.draw)) (s.cache.next .orders) (at_.clock 0))) := by
    unfold answer Request.handle Request.handleUser OrderRoutes.create guarded
    rw [Action.run_attempt, hb]
    rfl
  rw [hrow, OrderRoutes.summary, get_newOrder_no, get_newOrder_status, get_newOrder_total]

theorem answer_create_refused {issue : ZodIssue} (hb : env.createOrderReq body = .error issue) :
    answer env (.user (some u) (.createOrder body)) at_ s = .ok (.badRequest issue) := by
  unfold answer Request.handle Request.handleUser OrderRoutes.create guarded
  rw [Action.run_attempt, hb]
  rfl

/-- A creation that answers a number has made the order under it. -/
theorem created {n : String} {status total : JsVal}
    (h : answer env (.user (some u) (.createOrder body)) at_ s = .ok (.ok [("order_no", .val (.str n)),
      ("status", .val status), ("total_amount", .val total)])) :
    ∃ b, env.createOrderReq body = .ok b ∧
      ∃ r ∈ (serve env (.user (some u) (.createOrder body)) at_ s).cache.rows .orders,
        IsOrder u b n r := by
  cases hb : env.createOrderReq body with
  | error issue =>
    rw [answer_create_refused hb, Except.ok.injEq] at h
    have hstatus : (400 : ℕ) = 200 := congrArg Response.status h
    omega
  | ok b =>
    rw [answer_create hb, Except.ok.injEq] at h
    have hbody := congrArg Response.body h
    simp only [Response.ok, List.cons.injEq, Prod.mk.injEq, Reply.val.injEq, true_and,
      JsVal.str.injEq] at hbody
    obtain ⟨rfl, _⟩ := hbody
    rw [serve_create hb, rows_addOrder]
    exact ⟨b, rfl, _, List.mem_append_right _ (List.mem_singleton_self _), isOrder_newOrder ..⟩

end

section
variable {env : Env} {loadedAt : String} {clock : ℕ → String}

/-- What every state of a run with fresh numbers has. -/
structure OrderTable (env : Env) (s : Store) : Prop where
  saved : Saved env s
  issued : Issued s.cache .orders
  numbered : Numbered s.cache

theorem orderTable_step {s s' : Store} {e : Event} (h : OrderTable env s) (hf : FreshNumber env s e)
    (hs : step env s e = some s') : OrderTable env s' :=
  ⟨saved_step h.saved hs, issued_step h.saved h.issued hf.keepsIdsOf hs,
    numbered_step h.saved h.issued h.numbered hf hs⟩

theorem numbered_start (loadedAt : String) (clock : ℕ → String) :
    Numbered (start loadedAt clock .empty).cache := by
  unfold Numbered start
  rw [rows_initDefaultData_of_ne (by decide) (by decide)]
  exact KeyColumn.nil

theorem orderTable_start (loadedAt : String) (clock : ℕ → String) :
    OrderTable env (start loadedAt clock .empty) :=
  ⟨saved_start loadedAt clock, issued_start loadedAt clock .orders, numbered_start loadedAt clock⟩

theorem orderTable_run {es : List Event} {s s' : Store} (h : OrderTable env s)
    (hok : Along (step env) (FreshNumber env) s es) (hr : run (step env) s es = some s') :
    OrderTable env s' :=
  run_invariant (step env) _ (fun _ _ _ hi ho hs => orderTable_step hi ho hs) h hok hr

/-- As long as every creation draws a number that no live order has: live orders have
distinct numbers, and a user who was answered a number reaches the order made then
under it until it is deleted. -/
theorem order_stays_reachable {es es' : List Event} {u : UserId} {body : JsVal} {at_ : Moment}
    {n : String} {status total : JsVal} {s s' : Store}
    (hok : Along (step env) (FreshNumber env) (start loadedAt clock .empty)
      (es ++ .request (.user (some u) (.createOrder body)) at_ :: es'))
    (hr : run (step env) (start loadedAt clock .empty) es = some s)
    (ha : answer env (.user (some u) (.createOrder body)) at_ s = .ok (.ok [("order_no", .val (.str n)),
      ("status", .val status), ("total_amount", .val total)]))
    (hr' : run (step env) (serve env (.user (some u) (.createOrder body)) at_ s) es' = some s')
    (hd : ∀ e ∈ es', ¬e.Deletes n) :
    ((s'.cache.rows .orders).map fun r => r.get "order_no").Nodup ∧
      ∃ b, env.createOrderReq body = .ok b ∧
        ∃ order ∈ s'.cache.rows .orders, IsOrder u b n order ∧ Reaches env s' u n order := by
  obtain ⟨hok1, hok2, hok3⟩ := along_append (step env) hr hok
  have h1 : OrderTable env s := orderTable_run (orderTable_start loadedAt clock) hok1 hr
  have h2 : OrderTable env (serve env (.user (some u) (.createOrder body)) at_ s) :=
    orderTable_step h1 hok2 rfl
  obtain ⟨b, hb, hc⟩ := created ha
  have h3 := run_invariant (step env)
    (fun s => OrderTable env s ∧ ∃ r ∈ s.cache.rows .orders, IsOrder u b n r)
    (fun s e s' hi ho hs => ⟨orderTable_step hi.1 ho.1 hs,
      isOrder_step hi.1.saved hi.1.issued hi.2 ho.1 ho.2 hs⟩)
    ⟨h2, hc⟩ ((hok3 _ rfl).and (step env) hd) hr'
  obtain ⟨ht, order, hm, ho⟩ := h3
  exact ⟨ht.numbered.distinct, b, hb, order, hm, ho,
    reaches ht.issued ht.numbered hm ho.number ho.owner⟩

end

/-- Two orders of one user, a second apart. -/
theorem order_stays_reachable_later :
    let u : UserId := ⟨1, by decide⟩
    let first : Request := .user (some u) (.createOrder (.obj [("buyerNote", .str "first")]))
    let later : List Event := [.request (.user (some u) (.createOrder (.obj [])))
      ⟨fun _ => "t3", ⟨2025, 0, 1, 0, 0, 1⟩, 7⟩]
    ∃ s' order, run (step .plain)
        (serve .plain first (moment "t2") (start "t0" (fun _ => "t1") .empty)) later = some s' ∧
      Reaches .plain s' u "202501010000000000" order := by
  intro u first later
  have hn : generateOrderNo (moment "t2").time (moment "t2").draw = "202501010000000000" := by
    decide
  have ha : answer .plain first (moment "t2") (start "t0" (fun _ => "t1") .empty) =
      .ok (.ok [("order_no", .val (.str "202501010000000000")),
        ("status", .val (.str "PENDING_PAYMENT")), ("total_amount", .val (.num (.fin 0)))]) :=
    hn ▸ answer_create rfl
  have hok : Along (step .plain) (FreshNumber .plain) (start "t0" (fun _ => "t1") .empty)
      ([] ++ .request first (moment "t2") :: later) := by
    refine ⟨fun b hb => by decide, fun s1 h1 => ⟨fun b hb => ?_, fun _ _ => trivial⟩⟩
    cases h1
    decide
  obtain ⟨_, b, _, order, _, _, h⟩ := order_stays_reachable hok rfl ha rfl
    (by simp [later, Event.Deletes])
  exact ⟨_, order, rfl, h⟩

/-- The store after one creation by the user 1. -/
def oneOrder : Store :=
  serve .plain (.user (some ⟨1, by decide⟩) (.createOrder (.obj []))) (moment "t2")
    (start "t0" (fun _ => "t1") .empty)

/-- Two users order in the same second and the draws agree: both are answered one number,
and the second user is refused the order under it. -/
theorem order_numbers_collide :
    let u : UserId := ⟨1, by decide⟩
    let v : UserId := ⟨2, by decide⟩
    let create (w : UserId) : Request := .user (some w) (.createOrder (.obj []))
    let s := serve .plain (create u) (moment "t2") (start "t0" (fun _ => "t1") .empty)
    let s' := serve .plain (create v) (moment "t3") s
    answer .plain (create v) (moment "t3") s =
        .ok (.ok [("order_no", .val (.str "202501010000000000")),
          ("status", .val (.str "PENDING_PAYMENT")), ("total_amount", .val (.num (.fin 0)))]) ∧
      (answer .plain (.user (some v) (.order "202501010000000000")) (moment "t4") s').toOption.map
        Response.status = some 403 ∧
      ¬((s'.cache.rows .orders).map fun r => r.get "order_no").Nodup := by
  intro u v create s s'
  have hn : generateOrderNo (moment "t3").time (moment "t3").draw = "202501010000000000" := by
    decide
  exact ⟨hn ▸ answer_create rfl, by decide, by decide +kernel⟩

end Server

end JtfpMall
