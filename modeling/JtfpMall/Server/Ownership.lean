import JtfpMall.Lib.Relational
import JtfpMall.Server.OrderNumbers

/-!
# Who sees an order

Two stores agree for a user when they differ only in what other users' orders and
the items of those say. A request of the user is private when it is answered alike in all
stores that agree with the present one, and changes no order of anybody else. Every handler of
the three order routers is private but the one for the status of an order.
-/

namespace JtfpMall

open JtfpMall.Js
open JtfpMall.Lib
open JtfpMall.Lib.Action
open JtfpMall.Orders (hasNo newOrder generateOrderNo)
open JtfpMall.OrderRoutes (orderData ownedBy pending)

/-- The same order of `u`, or two orders of others under one number and one id. -/
inductive SameFor (u : UserId) : Row → Row → Prop where
  | own {r : Row} (h : ownedBy u r = true) : SameFor u r r
  | foreign {r r' : Row} (h : ownedBy u r = false) (h' : ownedBy u r' = false)
      (hn : r'.get "order_no" = r.get "order_no") (hi : r'.get "id" = r.get "id") : SameFor u r r'

/-- The item belongs to an order of somebody else. -/
def foreignItem (u : UserId) (s : Store) (i : Row) : Bool :=
  (s.cache.rows .orders).any fun r => !ownedBy u r && decide (r.get "order_no" = i.get "order_no")

/-- The stores differ in other users' orders and their items only. -/
structure AgreeFor (u : UserId) (s s' : Store) : Prop where
  orders : List.Forall₂ (SameFor u) (s.cache.rows .orders) (s'.cache.rows .orders)
  items : ((s'.cache.rows .orderItems).filter fun i => !foreignItem u s i) =
    (s.cache.rows .orderItems).filter fun i => !foreignItem u s i
  users : s'.cache.rows .users = s.cache.rows .users

/-- The request of `u` tells nothing of other users' orders and changes none of them. -/
structure Private (env : Env) (s : Store) (u : UserId) (r : UserRequest) : Prop where
  answer : ∀ s' at_, AgreeFor u s s' →
    Server.answer env (.user (some u) r) at_ s = Server.answer env (.user (some u) r) at_ s'
  orders : ∀ at_, ((Server.serve env (.user (some u) r) at_ s).cache.rows .orders).filter
    (fun r => !ownedBy u r) = (s.cache.rows .orders).filter fun r => !ownedBy u r
  items : ∀ at_, (Server.serve env (.user (some u) r) at_ s).cache.rows .orderItems =
    s.cache.rows .orderItems

/-- A cancellation that goes through changes the row that the id of the order leads to. -/
def CancelsOwn (s : Store) (u : UserId) (n : String) : Prop :=
  ∀ order hit, s.findOne .orders (hasNo n) = some order → ownedBy u order = true →
    pending order = true → s.findById .orders (order.get "id") = some hit → ownedBy u hit = true

/-- The status asked for is that of an order of `u`, and so is the order cancelled. -/
def OwnOnly (s : Store) (u : UserId) : UserRequest → Prop
  | .orderStatus n => ∀ order, s.findOne .orders (hasNo n) = some order → ownedBy u order = true
  | .cancelOrder n => CancelsOwn s u n
  | .cancelMyOrder n => CancelsOwn s u n
  | _ => True

section
variable {u : UserId} {r r' : Row}

theorem SameFor.hasNo (h : SameFor u r r') (n : String) : hasNo n r = hasNo n r' := by
  cases h with
  | own _ => rfl
  | foreign _ _ hn _ => rw [Orders.hasNo, Orders.hasNo, hn]

/-- Own orders are the same on both sides. -/
theorem filter_own (p : Row → Bool) {l l' : List Row} (h : List.Forall₂ (SameFor u) l l') :
    l.filter (fun r => ownedBy u r && p r) = l'.filter fun r => ownedBy u r && p r := by
  induction h with
  | nil => rfl
  | cons hr _ ih =>
    cases hr with
    | own _ => rw [List.filter_cons, List.filter_cons, ih]
    | foreign h h' _ _ =>
      rw [List.filter_cons_of_neg (by simp [h]), List.filter_cons_of_neg (by simp [h']), ih]

/-- The filters of a user's list keep own orders, whether or not a status is asked for. -/
theorem filterAll_own (asked : Bool) (status : JsVal) (l : List Row) :
    filterAll (onlyIf asked (columnIs "status" status) ++
      [columnIs "user_id" (.num (.fin u))]) l =
      .ok (l.filter fun r => ownedBy u r && (!asked || (r.get "status").strictEq status)) := by
  have hown : ∀ l : List Row, filterM (columnIs "user_id" (.num (.fin u))) l =
      .ok (l.filter (ownedBy u)) := fun l => filterM_eq_filter fun _ _ => rfl
  have hst : ∀ l : List Row, filterM (columnIs "status" status) l =
      .ok (l.filter fun r => (r.get "status").strictEq status) :=
    fun l => filterM_eq_filter fun _ _ => rfl
  cases asked with
  | false =>
    simp only [onlyIf, Bool.false_eq_true, if_false, List.nil_append, filterAll, hown]
    simp
    rfl
  | true =>
    simp only [onlyIf, if_true, List.cons_append, List.nil_append, filterAll, hst]
    change (filterM _ _ >>= fun kept => Except.ok kept) = _
    rw [hown, List.filter_filter]
    simp
    rfl

end

section
variable {env : Env} {u : UserId} {s s' : Store}

/-- The two states of a comparison, as long as nothing is written. -/
abbrev At (s s' : Store) : Store → Store → Prop := fun t t' => t = s ∧ t' = s'

/-- What a search for a number finds in the two stores. -/
abbrev FoundFor (u : UserId) (s : Store) (n : String) (r r' : Row) : Prop :=
  SameFor u r r' ∧ s.findOne .orders (hasNo n) = some r

theorem relates_findByOrderNo (h : AgreeFor u s s') (n : String) :
    Relates (At s s') (At s s') (Option.Rel (FoundFor u s n)) (Orders.findByOrderNo n)
      (Orders.findByOrderNo n) := by
  refine relates_reads fun t t' ht => ?_
  rw [ht.1, ht.2]
  have hrel := find?_forall₂ h.orders fun a b hab => hab.hasNo n
  unfold FoundFor Store.findOne Store.getTable
  generalize (s.cache.rows .orders).find? (hasNo n) = found at hrel ⊢
  generalize (s'.cache.rows .orders).find? (hasNo n) = found' at hrel ⊢
  cases hrel with
  | none => exact .none
  | some hr => exact .some ⟨hr, rfl⟩

/-- The items of an order of `u` are the same in both stores. -/
theorem findAll_items (h : AgreeFor u s s')
    (hd : ((s.cache.rows .orders).map fun r => r.get "order_no").Nodup) {n : String} {order : Row}
    (hf : s.findOne .orders (hasNo n) = some order) (ho : ownedBy u order = true) :
    s.findAll .orderItems (hasNo n) = s'.findAll .orderItems (hasNo n) := by
  have hno : ∀ i : Row, hasNo n i = true → foreignItem u s i = false := by
    intro i hi
    rw [foreignItem, List.any_eq_false]
    intro r hr hc
    simp only [Bool.and_eq_true, Bool.not_eq_true', decide_eq_true_eq] at hc
    obtain ⟨hm, hno⟩ := mem_of_findOne hf
    have he : r.get "order_no" = order.get "order_no" := by
      rw [hc.2, JsVal.eq_of_strictEq hi, JsVal.eq_of_strictEq hno]
    rw [List.inj_on_of_nodup_map hd hr hm he, ho] at hc
    exact Bool.noConfusion hc.1
  have hsplit : ∀ l : List Row, l.filter (hasNo n) =
      (l.filter fun i => !foreignItem u s i).filter (hasNo n) := by
    intro l
    rw [List.filter_filter]
    refine List.filter_congr fun i _ => ?_
    by_cases hi : hasNo n i = true
    · rw [hi, hno i hi]
      rfl
    · simp [hi]
  unfold Store.findAll Store.getTable
  rw [hsplit, hsplit (s'.cache.rows .orderItems), h.items]

theorem relates_withItems (h : AgreeFor u s s')
    (hd : ((s.cache.rows .orders).map fun r => r.get "order_no").Nodup) {n : String} {order : Row}
    (hf : s.findOne .orders (hasNo n) = some order) (ho : ownedBy u order = true) :
    Relates (At s s') (At s s') Eq (OrderRoutes.withItems n order) (OrderRoutes.withItems n order) := by
  refine relates_bind (relates_reads (R := Eq) fun t t' ht => ?_) (fun _ _ hs => hs) ?_
  · rw [ht.1, ht.2]
    exact findAll_items h hd hf ho
  · rintro items _ rfl
    exact relates_pure rfl

theorem relates_detail (h : AgreeFor u s s')
    (hd : ((s.cache.rows .orders).map fun r => r.get "order_no").Nodup) (n : String) :
    Relates (At s s') (At s s') Eq (OrderRoutes.detail u n) (OrderRoutes.detail u n) := by
  refine relates_attempt (relates_bind (relates_findByOrderNo h n) (fun _ _ hs => hs) ?_) fun _ => rfl
  rintro found found' hr
  cases hr with
  | none => exact relates_pure rfl
  | some hr =>
    obtain ⟨hsame, hf⟩ := hr
    cases hsame with
    | own ho =>
      simp only [ho, if_true]
      exact relates_withItems h hd hf ho
    | foreign ho ho' _ _ =>
      simp only [ho, ho', Bool.false_eq_true, if_false]
      exact relates_pure rfl

theorem relates_myDetail (h : AgreeFor u s s')
    (hd : ((s.cache.rows .orders).map fun r => r.get "order_no").Nodup) (n : String) :
    Relates (At s s') (At s s') Eq (OrderRoutes.myDetail u n) (OrderRoutes.myDetail u n) := by
  refine relates_attempt (relates_bind (relates_findByOrderNo h n) (fun _ _ hs => hs) ?_) fun _ => rfl
  rintro found found' hr
  cases hr with
  | none => exact relates_pure rfl
  | some hr =>
    obtain ⟨hsame, hf⟩ := hr
    cases hsame with
    | own ho =>
      simp only [ho, if_true]
      exact relates_withItems h hd hf ho
    | foreign ho ho' _ _ =>
      simp only [ho, ho', Bool.false_eq_true, if_false]
      exact relates_pure rfl

theorem relates_status (h : AgreeFor u s s') {n : String}
    (ho : ∀ order, s.findOne .orders (hasNo n) = some order → ownedBy u order = true) :
    Relates (At s s') (At s s') Eq (OrderRoutes.status n) (OrderRoutes.status n) := by
  refine relates_attempt (relates_bind (relates_findByOrderNo h n) (fun _ _ hs => hs) ?_) fun _ => rfl
  rintro found found' hr
  cases hr with
  | none => exact relates_pure rfl
  | some hr =>
    obtain ⟨hsame, hf⟩ := hr
    cases hsame with
    | own _ => exact relates_pure rfl
    | foreign hr _ _ _ => exact absurd (ho _ hf) (by simp [hr])

/-- A program that returns whatever the state answers alike in all states. -/
theorem relates_of_ok {α : Type} {S : Store → Store → Prop} {m : Act α}
    (hm : ∀ t, ∃ a, (m.run t).1 = .ok a) :
    Relates S (fun _ _ => True) (fun _ _ => True) m m := by
  intro t t' _
  obtain ⟨a, ha⟩ := hm t
  obtain ⟨b, hb⟩ := hm t'
  rw [ha, hb]
  exact ⟨.ok trivial, trivial⟩

theorem updateStatus_ok (n : String) (status : JsVal) (now : String) (t : Store) :
    ∃ hit, ((Orders.updateStatus n status now).run t).1 = .ok hit := by
  cases hf : t.findOne .orders (hasNo n) with
  | none =>
    unfold Orders.updateStatus Orders.findByOrderNo Act.findOne
    rw [Action.run_reads_bind, hf]
    exact ⟨_, rfl⟩
  | some order =>
    obtain ⟨hit, h⟩ := run_updateStatus hf status now
    exact ⟨hit, by rw [h]⟩

theorem relates_cancel (h : AgreeFor u s s') (n : String) (at_ : Moment) :
    Relates (At s s') (fun _ _ => True) Eq (OrderRoutes.cancel u n at_) (OrderRoutes.cancel u n at_) := by
  refine relates_attempt (relates_bind (relates_findByOrderNo h n) (fun _ _ _ => trivial) ?_)
    fun _ => rfl
  have hend {r : Response} : Relates (At s s') (fun _ _ => True) Eq (pure r : Act Response) (pure r) :=
    relates_post (relates_pure rfl) fun _ _ _ => trivial
  rintro found found' hr
  cases hr with
  | none => exact hend
  | some hr =>
    cases hr.1 with
    | own ho =>
      rename_i order
      simp only [ho, Bool.not_true, Bool.false_eq_true, if_false]
      by_cases hp : pending order = true
      · simp only [hp, Bool.not_true, Bool.false_eq_true, if_false]
        refine relates_bind (relates_of_ok (updateStatus_ok n _ _)) (fun _ _ hs => hs) fun _ _ _ => ?_
        exact relates_bind (relates_of_ok fun _ => ⟨_, rfl⟩) (fun _ _ hs => hs)
          fun _ _ _ => relates_pure rfl
      · simp only [hp, Bool.not_false, if_true]
        exact hend
    | foreign ho ho' _ _ =>
      simp only [ho, ho', Bool.not_false, if_true]
      exact hend

theorem relates_cancelMine (h : AgreeFor u s s') (n : String) (at_ : Moment) :
    Relates (At s s') (fun _ _ => True) Eq (OrderRoutes.cancelMine u n at_)
      (OrderRoutes.cancelMine u n at_) := by
  refine relates_attempt (relates_bind (relates_findByOrderNo h n) (fun _ _ _ => trivial) ?_)
    fun _ => rfl
  have hend {r : Response} : Relates (At s s') (fun _ _ => True) Eq (pure r : Act Response) (pure r) :=
    relates_post (relates_pure rfl) fun _ _ _ => trivial
  rintro found found' hr
  cases hr with
  | none => exact hend
  | some hr =>
    cases hr.1 with
    | own ho =>
      rename_i order
      simp only [ho, Bool.not_true, Bool.false_eq_true, if_false]
      by_cases hp : pending order = true
      · simp only [hp, Bool.not_true, Bool.false_eq_true, if_false]
        exact relates_bind (relates_of_ok (updateStatus_ok n _ _)) (fun _ _ hs => hs)
          fun _ _ _ => relates_pure rfl
      · simp only [hp, Bool.not_false, if_true]
        exact hend
    | foreign ho ho' _ _ =>
      simp only [ho, ho', Bool.not_false, if_true]
      exact hend

theorem relates_list (h : AgreeFor u s s') (query : Row) (page pageSize : JsNum) :
    let asked : Orders.ListQuery :=
      { page := some page, pageSize := some pageSize, status := query.get "status",
        orderNo := .undefined, phone := .undefined, startAt := .undefined, endAt := .undefined,
        userId := some (.fin u) }
    Relates (At s s') (At s s') Eq (Orders.list env asked) (Orders.list env asked) := by
  intro asked
  have hne : (u : ℚ) ≠ 0 := ne_of_gt u.2
  have hfilters : asked.filters = onlyIf (query.get "status").truthy
      (columnIs "status" (query.get "status")) ++ [columnIs "user_id" (.num (.fin u))] := by
    simp [asked, Orders.ListQuery.filters, onlyIf, JsVal.truthy, JsNum.truthy, hne]
  refine relates_bind (R := Eq) ?_ (fun _ _ hs => hs) ?_
  · rw [hfilters, listed_of_ne _ _ (by simp)]
    refine relates_bind (R := fun l l' => l = s.cache.rows .orders ∧ l' = s'.cache.rows .orders)
      (relates_reads fun t t' ht => ?_) (fun _ _ hs => hs) ?_
    · rw [ht.1, ht.2]
      exact ⟨rfl, rfl⟩
    · rintro _ _ ⟨rfl, rfl⟩
      rw [filterAll_own, filterAll_own, filter_own _ h.orders]
      exact relates_bind (relates_lift (.ok rfl)) (fun _ _ hs => hs) fun kept _ hk =>
        hk ▸ relates_lift (.refl _ fun _ => rfl)
  · rintro rows _ rfl
    refine relates_bind (relates_reads (R := Eq) fun t t' ht => ?_) (fun _ _ hs => hs) ?_
    · rw [ht.1, ht.2]
      exact h.users.symm
    · rintro users _ rfl
      refine relates_bind (relates_lift (.refl _ fun _ => rfl)) (fun _ _ hs => hs) ?_
      rintro orders _ rfl
      exact relates_pure rfl

theorem relates_mine (h : AgreeFor u s s') (query : Row) :
    Relates (At s s') (At s s') Eq (OrderRoutes.mine env u query) (OrderRoutes.mine env u query) := by
  refine relates_attempt ?_ fun _ => rfl
  refine relates_bind (relates_lift (.refl _ fun _ => rfl)) (fun _ _ hs => hs) ?_
  rintro page _ rfl
  refine relates_bind (relates_lift (.refl _ fun _ => rfl)) (fun _ _ hs => hs) ?_
  rintro pageSize _ rfl
  refine relates_bind (R := Eq) (relates_list h query page pageSize) (fun _ _ hs => hs) ?_
  · rintro ⟨total, orders⟩ _ rfl
    exact relates_pure rfl

/-- Requests that ask for own orders only are answered alike in stores that agree. -/
theorem answer_eq (h : AgreeFor u s s')
    (hd : ((s.cache.rows .orders).map fun r => r.get "order_no").Nodup) {r : UserRequest}
    (ho : OwnOnly s u r) (at_ : Moment) :
    Server.answer env (.user (some u) r) at_ s = Server.answer env (.user (some u) r) at_ s' := by
  have hstart : At s s' s s' := ⟨rfl, rfl⟩
  cases r with
  | createOrder body =>
    cases hb : env.createOrderReq body with
    | error issue => rw [Server.answer_create_refused hb, Server.answer_create_refused hb]
    | ok b => rw [Server.answer_create hb, Server.answer_create hb]
  | orderStatus n => exact (relates_status h ho s s' hstart).1.eq
  | order n => exact (relates_detail h hd n s s' hstart).1.eq
  | cancelOrder n => exact (relates_cancel h n at_ s s' hstart).1.eq
  | myOrders query => exact (relates_mine h query s s' hstart).1.eq
  | myOrder n => exact (relates_myDetail h hd n s s' hstart).1.eq
  | cancelMyOrder n => exact (relates_cancelMine h n at_ s s' hstart).1.eq

end

section
variable {env : Env} {u : UserId} {s : Store}

theorem SameFor.refl (u : UserId) (r : Row) : SameFor u r r := by
  cases h : ownedBy u r with
  | true => exact .own h
  | false => exact .foreign h h rfl rfl

theorem AgreeFor.refl (u : UserId) (s : Store) : AgreeFor u s s :=
  ⟨List.forall₂_same.mpr fun r _ => .refl u r, rfl, rfl⟩

theorem ownedBy_merged (u : UserId) {column : String} (hc : column = "status") (v : JsVal)
    (now : String) (r : Row) :
    ownedBy u (Store.merged (.ofList [(column, v)]) now r) = ownedBy u r := by
  subst hc
  rw [ownedBy, ownedBy, get_merged_single, if_neg (by decide), if_neg (by decide)]

theorem foreign_setOrder {order : Row}
    (h : ∀ hit, s.findById .orders (order.get "id") = some hit → ownedBy u hit = true) (v : JsVal)
    (now : String) :
    ((s.setOrder order "status" v now).cache.rows .orders).filter (fun r => !ownedBy u r) =
      (s.cache.rows .orders).filter fun r => !ownedBy u r := by
  unfold Store.setOrder
  rw [Store.rows_update, if_pos rfl]
  refine filter_modifyFirst fun r hr => ?_
  rw [ownedBy_merged u rfl, h r hr]
  exact ⟨rfl, rfl⟩

/-- A request changes no order of anybody else, if a cancellation hits the user's own. -/
theorem foreign_serve (hd : ((s.cache.rows .orders).map fun r => r.get "order_no").Nodup)
    {r : UserRequest} (ho : OwnOnly s u r) (at_ : Moment) :
    ((Server.serve env (.user (some u) r) at_ s).cache.rows .orders).filter (fun r => !ownedBy u r) =
      (s.cache.rows .orders).filter fun r => !ownedBy u r := by
  have heff : ∀ s', OrderEffect env at_ s (.user (some u) r) s' →
      (s'.cache.rows .orders).filter (fun r => !ownedBy u r) =
        (s.cache.rows .orders).filter fun r => !ownedBy u r := by
    intro s' he
    cases he with
    | create hb =>
      rw [rows_addOrder, List.filter_append, List.filter_cons_of_neg, List.filter_nil,
        List.append_nil]
      rw [ownedBy, (isOrder_newOrder _ _ _ _ _).owner]
      simp [JsVal.strictEq, JsNum.strictEq]
    | cancel hf hown hp =>
      rw [rows_addLog _ _ _ _ _ _ (by decide)]
      exact foreign_setOrder (fun hit => ho _ hit hf hown hp) _ _
    | cancelMine hf hown hp => exact foreign_setOrder (fun hit => ho _ hit hf hown hp) _ _
  have hwrites : Table.orders ∈ (Request.user (some u) r).tables →
      ((Server.serve env (.user (some u) r) at_ s).cache.rows .orders).filter
        (fun r => !ownedBy u r) = (s.cache.rows .orders).filter fun r => !ownedBy u r := by
    intro ht
    obtain he | he := serve_orders env ht at_ s
    · rw [he]
    · exact heff _ he
  -- the requests that only read leave the store as it is
  have hrefl := AgreeFor.refl u s
  have hstart : At s s s s := ⟨rfl, rfl⟩
  have hreads : Server.serve env (.user (some u) r) at_ s = s →
      ((Server.serve env (.user (some u) r) at_ s).cache.rows .orders).filter
        (fun r => !ownedBy u r) = (s.cache.rows .orders).filter fun r => !ownedBy u r :=
    fun he => by rw [he]
  cases r with
  | createOrder body => exact hwrites List.mem_cons_self
  | orderStatus n => exact hreads (relates_status hrefl ho s s hstart).2.1
  | order n => exact hreads (relates_detail hrefl hd n s s hstart).2.1
  | cancelOrder n => exact hwrites List.mem_cons_self
  | myOrders query => exact hreads (relates_mine hrefl query s s hstart).2.1
  | myOrder n => exact hreads (relates_myDetail hrefl hd n s s hstart).2.1
  | cancelMyOrder n => exact hwrites List.mem_cons_self

theorem items_serve (r : UserRequest) (at_ : Moment) :
    (Server.serve env (.user (some u) r) at_ s).cache.rows .orderItems =
      s.cache.rows .orderItems := by
  have ht : Table.orderItems ∉ (Request.user (some u) r).tables := by
    cases r <;> simp [Request.tables]
  exact (serve_sameRows env ht at_ s).rows rfl

end

section
variable {env : Env} {u : UserId} {s : Store} {n : String} {order : Row}

/-- The store with another status on one order. -/
def withStatus (order : Row) (v : JsVal) (s : Store) : Store :=
  s.putRows .orders ((s.cache.rows .orders).map fun r => if r = order then r.set "status" v else r)

theorem agreeFor_withStatus (ho : ownedBy u order = false) (v : JsVal) :
    AgreeFor u s (withStatus order v s) := by
  refine ⟨?_, rfl, rfl⟩
  have hrows : (withStatus order v s).cache.rows .orders = (s.cache.rows .orders).map fun r =>
      if r = order then r.set "status" v else r := StoreData.rows_setRows_self ..
  rw [hrows, List.forall₂_map_right_iff, List.forall₂_same]
  intro r _
  split
  · rename_i hr
    subst hr
    refine .foreign ho ?_ (Dict.get_set_of_ne _ _ (by decide)) (Dict.get_set_of_ne _ _ (by decide))
    rw [ownedBy, Dict.get_set_of_ne _ _ (by decide)]
    exact ho
  · exact .refl u r

theorem findOne_withStatus (hf : s.findOne .orders (hasNo n) = some order) (v : JsVal) :
    (withStatus order v s).findOne .orders (hasNo n) = some (order.set "status" v) := by
  have hno : (hasNo n ∘ fun r : Row => if r = order then r.set "status" v else r) = hasNo n := by
    funext r
    simp only [Function.comp]
    split
    · rw [hasNo, hasNo, Dict.get_set_of_ne _ _ (by decide)]
    · rfl
  change (((s.cache.rows .orders).map _).find? (hasNo n)) = _
  rw [List.find?_map, hno]
  have hfind : (s.cache.rows .orders).find? (hasNo n) = some order := hf
  rw [hfind]
  simp

theorem answer_status (hf : s.findOne .orders (hasNo n) = some order) (at_ : Moment) :
    Server.answer env (.user (some u) (.orderStatus n)) at_ s = .ok (OrderRoutes.summary order) := by
  unfold Server.answer Request.handle Request.handleUser OrderRoutes.status guarded
    Orders.findByOrderNo Act.findOne
  rw [Action.run_attempt, Action.run_reads_bind, hf]
  rfl

/-- The status of somebody else's order is told. -/
theorem own_of_status_private (h : Private env s u (.orderStatus n)) (at_ : Moment)
    (hf : s.findOne .orders (hasNo n) = some order) : ownedBy u order = true := by
  rw [← Bool.not_eq_false]
  intro ho
  -- a store that agrees for `u` and has another status there
  have hne : ∃ v : JsVal, v ≠ order.get "status" := by
    by_cases hv : order.get "status" = .null
    · exact ⟨.undefined, by rw [hv]; simp⟩
    · exact ⟨.null, Ne.symm hv⟩
  obtain ⟨v, hv⟩ := hne
  have hag : AgreeFor u s (withStatus order v s) := agreeFor_withStatus ho v
  have ha := h.answer _ at_ hag
  rw [answer_status hf, answer_status (findOne_withStatus hf v), Except.ok.injEq] at ha
  have hbody := congrArg Response.body ha
  simp only [OrderRoutes.summary, Response.ok, List.cons.injEq, Prod.mk.injEq, Reply.val.injEq,
    true_and, Dict.get_set_self] at hbody
  exact hv hbody.2.1.symm

/-- A cancellation that hits somebody else's order changes it. -/
theorem own_of_foreign_kept (now : ℕ → String)
    (hk : ∀ i, ((s.setOrder order "status" (.str "CANCELLED") (now i)).cache.rows .orders).filter
      (fun r => !ownedBy u r) = (s.cache.rows .orders).filter fun r => !ownedBy u r)
    (hnow : now 0 ≠ now 1) {hit : Row} (hh : s.findById .orders (order.get "id") = some hit) :
    ownedBy u hit = true := by
  rw [← Bool.not_eq_false]
  intro ho
  have hfind : (s.cache.rows .orders).find? (Store.hasId (order.get "id")) = some hit := hh
  have hat : ∀ i, hit.get "updated_at" = .str (now i) := by
    intro i
    have hki := hk i
    unfold Store.setOrder at hki
    rw [Store.rows_update, if_pos rfl] at hki
    obtain ⟨l₁, l₂, hl, _, hm, _⟩ := find?_split hfind
      (Store.merged (.ofList [("status", .str "CANCELLED")]) (now i))
    rw [hm, hl, List.filter_append, List.filter_append, List.append_cancel_left_eq,
      List.filter_cons_of_pos (by rw [ownedBy_merged u rfl, ho]; rfl),
      List.filter_cons_of_pos (by rw [ho]; rfl), List.cons.injEq] at hki
    rw [← hki.1, get_merged_single, if_pos rfl]
  exact hnow (JsVal.str.inj ((hat 0).symm.trans (hat 1)))

end

/-- With distinct order numbers, a request of a user is private exactly when the status it
asks for is not that of somebody else's order, and the row a cancellation changes is
not somebody else's. -/
theorem private_iff (env : Env) (s : Store)
    (hd : ((s.cache.rows .orders).map fun r => r.get "order_no").Nodup) (u : UserId)
    (r : UserRequest) : Private env s u r ↔ OwnOnly s u r := by
  constructor
  · intro h
    cases r with
    | orderStatus n => exact fun order hf => own_of_status_private h (Server.moment "") hf
    | cancelOrder n =>
      intro order hit hf ho hp hh
      refine own_of_foreign_kept (fun i => if i = 0 then "a" else "b") (fun i => ?_) (by decide) hh
      have hk := h.orders (Server.moment (if i = 0 then "a" else "b"))
      rw [serve_cancel hf, if_pos ⟨ho, hp⟩, rows_addLog _ _ _ _ _ _ (by decide)] at hk
      exact hk
    | cancelMyOrder n =>
      intro order hit hf ho hp hh
      refine own_of_foreign_kept (fun i => if i = 0 then "a" else "b") (fun i => ?_) (by decide) hh
      have hk := h.orders (Server.moment (if i = 0 then "a" else "b"))
      rw [serve_cancelMine hf, if_pos ⟨ho, hp⟩] at hk
      exact hk
    | _ => trivial
  · intro ho
    exact ⟨fun s' at_ h => answer_eq h hd ho at_, fun at_ => foreign_serve hd ho at_,
      fun at_ => items_serve r at_⟩

/-- Where ids are distinct, as in every state the server reaches, a cancellation changes the
order it is for: the request for a status is then the only one that is not private. -/
theorem cancelsOwn_of_issued {s : Store} (hi : Issued s.cache .orders) (u : UserId) (n : String) :
    CancelsOwn s u n := by
  intro order hit hf ho _ hh
  have hfind : s.findById .orders (order.get "id") = some order := hi.find (mem_of_findOne hf).1
  rw [hfind, Option.some.injEq] at hh
  exact hh ▸ ho

namespace Server

/-- Another user asks for the details of the order. -/
theorem private_iff_order :
    Private .plain oneOrder ⟨2, by decide⟩ (.order "202501010000000000") :=
  (private_iff .plain oneOrder (by decide) ⟨2, by decide⟩ (.order _)).mpr trivial

/-- Another user asks for the status of the order and is told it. -/
theorem status_not_private :
    answer .plain (.user (some ⟨2, by decide⟩) (.orderStatus "202501010000000000")) (moment "t3")
        oneOrder = .ok (.ok [("order_no", .val (.str "202501010000000000")),
          ("status", .val (.str "PENDING_PAYMENT")), ("total_amount", .val (.num (.fin 0)))]) ∧
      ¬Private .plain oneOrder ⟨2, by decide⟩ (.orderStatus "202501010000000000") := by
  have hrow : (oneOrder.findOne .orders (hasNo "202501010000000000")).map (fun o =>
      (ownedBy ⟨2, by decide⟩ o, o.get "order_no", o.get "status", o.get "total_amount")) =
      some (false, .str "202501010000000000", .str "PENDING_PAYMENT", .num (.fin 0)) := by
    decide
  obtain ⟨order, hf, hcols⟩ := Option.map_eq_some_iff.mp hrow
  simp only [Prod.mk.injEq] at hcols
  obtain ⟨ho, h1, h2, h3⟩ := hcols
  refine ⟨?_, fun h => ?_⟩
  · rw [answer_status hf, OrderRoutes.summary, h1, h2, h3]
  · have hown := own_of_status_private h (moment "t3") hf
    rw [ho] at hown
    exact Bool.noConfusion hown

end Server

end JtfpMall
