import JtfpMall.Server.ChangeLog

/-!
# Where orders come from

Every order of a run was made by a creation of the run for the user who asked for it. Its columns
are those of the creation, but for a status and a remark that a later request was entitled to
write: a cancellation by that user, or a request of the admin.
-/

namespace JtfpMall

open JtfpMall.Js
open JtfpMall.Lib
open JtfpMall.Orders (hasNo newOrder generateOrderNo)
open JtfpMall.OrderRoutes (orderData ownedBy pending)

/-- A value that was written, as it is or as a restart has read it back. -/
def Kept (v w : JsVal) : Prop := w = v ∨ w = v.viaJson

namespace Kept

variable {v w : JsVal}

theorem refl (v : JsVal) : Kept v v := Or.inl rfl

theorem viaJson (h : Kept v w) : Kept v w.viaJson := by
  rcases h with rfl | rfl
  · exact Or.inr rfl
  · exact Or.inr v.viaJson_viaJson

theorem eq_of_storable (h : Kept v w) (hv : v.Storable) : w = v := by
  rcases h with rfl | rfl
  · rfl
  · exact hv.viaJson_eq

end Kept

/-- The request may write the value into the column of the order that `u` has made under the
number `n`. -/
inductive Entitled (u : UserId) (n : String) : String → JsVal → Request → Prop where
  | cancel : Entitled u n "status" (.str "CANCELLED") (.user (some u) (.cancelOrder n))
  | cancelMine : Entitled u n "status" (.str "CANCELLED") (.user (some u) (.cancelMyOrder n))
  | status (body : Row) : Entitled u n "status" (body.get "status")
      (.admin true (.updateOrderStatus n body))
  | remark (body : Row) : Entitled u n "remark" (body.get "remark")
      (.admin true (.updateOrderRemark n body))

/-- A creation of an order, by whom, with what and when. -/
structure Creation where
  user : UserId
  body : JsVal
  order : CreateOrderReq
  at_ : Moment

namespace Creation

def event (c : Creation) : Server.Event := .request (.user (some c.user) (.createOrder c.body)) c.at_

def number (c : Creation) : String := generateOrderNo c.at_.time c.at_.draw

/-- The row it has made under the id. -/
def row (c : Creation) (id : ℕ) : Row :=
  Store.newRow (newOrder (orderData c.user c.order) c.number) id (c.at_.clock 0)

end Creation

/-- The columns that requests write after the creation. -/
def writtenLater : List String := ["status", "remark"]

/-- The order was made by the creation, and what is written in it since was written by the later
events. -/
structure MadeBy (c : Creation) (id : ℕ) (later : List Server.Event) (r : Row) : Prop where
  sealed : ∀ k, k ≠ "updated_at" → k ∉ writtenLater → Kept ((c.row id).get k) (r.get k)
  written : ∀ k ∈ writtenLater, Kept ((c.row id).get k) (r.get k) ∨
    ∃ q at_ v, .request q at_ ∈ later ∧ Entitled c.user c.number k v q ∧ Kept v (r.get k)

/-- The events have a creation of the order. -/
def HasOrigin (env : Env) (es : List Server.Event) (r : Row) : Prop :=
  ∃ before c id later, es = before ++ c.event :: later ∧ env.createOrderReq c.body = .ok c.order ∧
    MadeBy c id later r

section
variable {c : Creation} {id : ℕ} {later : List Server.Event} {r : Row}

theorem MadeBy.refl (c : Creation) (id : ℕ) (later : List Server.Event) :
    MadeBy c id later (c.row id) :=
  ⟨fun _ _ _ => Kept.refl _, fun _ _ => Or.inl (Kept.refl _)⟩

theorem MadeBy.snoc (h : MadeBy c id later r) (e : Server.Event) : MadeBy c id (later ++ [e]) r := by
  refine ⟨h.sealed, fun k hk => ?_⟩
  rcases h.written k hk with hw | ⟨q, at_, v, hq, hw⟩
  · exact Or.inl hw
  · exact Or.inr ⟨q, at_, v, List.mem_append_left _ hq, hw⟩

theorem MadeBy.viaJson (h : MadeBy c id later r) : MadeBy c id later r.viaJson := by
  constructor
  · intro k hu hk
    rw [Dict.get_viaJson]
    exact (h.sealed k hu hk).viaJson
  · intro k hk
    rw [Dict.get_viaJson]
    rcases h.written k hk with hw | ⟨q, at_, v, hq, he, hw⟩
    · exact Or.inl hw.viaJson
    · exact Or.inr ⟨q, at_, v, hq, he, hw.viaJson⟩

theorem MadeBy.number (h : MadeBy c id later r) : r.get "order_no" = .str c.number := by
  have hno := get_newOrder_no c.user c.order c.number id (c.at_.clock 0)
  have hkept := h.sealed "order_no" (by decide) (by decide)
  rw [Creation.row, hno] at hkept
  exact hkept.eq_of_storable (JsVal.storable_str _)

theorem MadeBy.owner (h : MadeBy c id later r) : r.get "user_id" = .num (.fin c.user) := by
  have howner := (isOrder_newOrder c.user c.order c.number id (c.at_.clock 0)).owner
  have hkept := h.sealed "user_id" (by decide) (by decide)
  rw [Creation.row, howner] at hkept
  exact hkept.eq_of_storable (JsVal.storable_fin _)

/-- A request that finds the order by its number names the number of its creation. -/
theorem MadeBy.named (h : MadeBy c id later r) {n : String} (hn : hasNo n r = true) :
    n = c.number := by
  rw [hasNo, h.number] at hn
  have heq := JsVal.eq_of_strictEq hn
  rw [JsVal.str.injEq] at heq
  exact heq.symm

/-- A user who owns the order is the one who asked for it. -/
theorem MadeBy.owned (h : MadeBy c id later r) {u : UserId} (hu : ownedBy u r = true) :
    u = c.user := by
  rw [ownedBy, h.owner] at hu
  have heq := JsVal.eq_of_strictEq hu
  rw [JsVal.num.injEq, JsNum.fin.injEq] at heq
  exact Subtype.ext heq.symm

/-- An entitled request writes its column, and the time. -/
theorem MadeBy.write (h : MadeBy c id later r) {k : String} {v : JsVal} {q : Request}
    (hq : Entitled c.user c.number k v q) (at_ : Moment) (now : String) :
    MadeBy c id (later ++ [.request q at_]) (Store.merged (.ofList [(k, v)]) now r) := by
  have hcolumn : k ∈ writtenLater := by cases hq <;> decide
  constructor
  · intro j hu hj
    rw [get_merged_single, if_neg hu, if_neg (by rintro rfl; exact hj hcolumn)]
    exact h.sealed j hu hj
  · intro j hj
    have hu : j ≠ "updated_at" := by
      rintro rfl
      exact absurd hj (by decide)
    rw [get_merged_single, if_neg hu]
    split
    · rename_i hjk
      subst hjk
      exact Or.inr ⟨q, at_, v, List.mem_append_right _ List.mem_cons_self, hq, Kept.refl _⟩
    · exact (h.snoc _).written j hj

end

section
variable {env : Env} {es : List Server.Event} {r : Row}

theorem HasOrigin.snoc (h : HasOrigin env es r) (e : Server.Event) :
    HasOrigin env (es ++ [e]) r := by
  obtain ⟨before, c, id, later, rfl, hb, hm⟩ := h
  exact ⟨before, c, id, later ++ [e], by simp, hb, hm.snoc e⟩

theorem HasOrigin.viaJson (h : HasOrigin env es r) : HasOrigin env es r.viaJson := by
  obtain ⟨before, c, id, later, hes, hb, hm⟩ := h
  exact ⟨before, c, id, later, hes, hb, hm.viaJson⟩

/-- A request wrote a column of the order that it has found by its number. -/
theorem HasOrigin.write (h : HasOrigin env es r) {n k : String} {v : JsVal} {q : Request}
    (hn : hasNo n r = true)
    (hq : ∀ c : Creation, (∀ u, ownedBy u r = true → u = c.user) → n = c.number →
      Entitled c.user c.number k v q) (at_ : Moment) (now : String) :
    HasOrigin env (es ++ [.request q at_]) (Store.merged (.ofList [(k, v)]) now r) := by
  obtain ⟨before, c, id, later, rfl, hb, hm⟩ := h
  have hentitled := hq c (fun u hu => hm.owned hu) (hm.named hn)
  exact ⟨before, c, id, later ++ [.request q at_], by simp, hb, hm.write hentitled at_ now⟩

end

/-- What the writes of a request leave of the orders has its origin in the events, with the request
as the last. -/
theorem OrderEffect.origins {env : Env} {at_ : Moment} {s s' : Store} {q : Request}
    {es : List Server.Event} (h : OrderEffect env at_ s q s') (hi : Issued s.cache .orders)
    (ho : ∀ r ∈ s.cache.rows .orders, HasOrigin env es r) :
    ∀ r ∈ s'.cache.rows .orders, HasOrigin env (es ++ [.request q at_]) r := by
  have hwrite : ∀ {n k v now} {order : Row}, s.findOne .orders (hasNo n) = some order →
      (∀ c : Creation, (∀ u, ownedBy u order = true → u = c.user) → n = c.number →
        Entitled c.user c.number k v q) →
      ∀ r ∈ (s.setOrder order k v now).cache.rows .orders,
        HasOrigin env (es ++ [.request q at_]) r := by
    intro n k v now order hf hq r hr
    obtain ⟨hmem, hno⟩ := mem_of_findOne hf
    rw [rows_setOrder hi hmem] at hr
    obtain ⟨r₀, hr₀, rfl⟩ := List.mem_map.mp hr
    split
    · rename_i heq
      subst heq
      exact (ho r₀ hr₀).write hno hq at_ now
    · exact (ho r₀ hr₀).snoc _
  cases h with
  | @create u body b hb =>
    intro r hr
    rw [rows_addOrder, List.mem_append, List.mem_singleton] at hr
    rcases hr with hr | rfl
    · exact (ho r hr).snoc _
    · let c : Creation := ⟨u, body, b, at_⟩
      exact ⟨es, c, s.cache.next .orders, [], rfl, hb, MadeBy.refl c _ _⟩
  | cancel hf hu hp =>
    rw [rows_addLog _ _ _ _ _ _ (by decide)]
    exact hwrite hf fun c hc hn => hn ▸ hc _ hu ▸ .cancel
  | cancelMine hf hu hp => exact hwrite hf fun c hc hn => hn ▸ hc _ hu ▸ .cancelMine
  | status hf =>
    rw [rows_addLog _ _ _ _ _ _ (by decide)]
    exact hwrite hf fun c _ hn => hn ▸ .status _
  | remark hf =>
    rw [rows_addLog _ _ _ _ _ _ (by decide)]
    exact hwrite hf fun c _ hn => hn ▸ .remark _
  | delete hf =>
    intro r hr
    rw [rows_dropOrder hi (mem_of_findOne hf).1] at hr
    exact (ho r (List.mem_of_mem_filter hr)).snoc _

namespace Server

/-- The event writes orders through requests only. -/
def Event.LeavesOrders : Event → Prop
  | .operation w _ => w.table ≠ .orders
  | _ => True

section
variable {env : Env} {s s' : Store} {e : Event} {es : List Event}

theorem Event.LeavesOrders.keepsIdsOf (h : e.LeavesOrders) : e.KeepsIdsOf .orders := by
  cases e with
  | request r at_ => exact keepsIds_of_orders
  | operation w now => exact fun ht => absurd ht h
  | _ => trivial

theorem origins_step (hsv : Saved env s) (hi : Issued s.cache .orders)
    (ho : ∀ r ∈ s.cache.rows .orders, HasOrigin env es r) (he : e.LeavesOrders)
    (hs : step env s e = some s') : ∀ r ∈ s'.cache.rows .orders, HasOrigin env (es ++ [e]) r := by
  have hlater : ∀ r ∈ s.cache.rows .orders, HasOrigin env (es ++ [e]) r :=
    fun r hr => (ho r hr).snoc e
  refine rows_step (fun rows => ∀ r ∈ rows, HasOrigin env (es ++ [e]) r) (by decide) (by decide)
    ?_ ?_ hsv hlater hs ?_ ?_
  · exact fun l l' hp h r hr => h r (hp.mem_iff.mp hr)
  · intro l h r hr
    obtain ⟨r₀, hr₀, rfl⟩ := List.mem_map.mp hr
    exact (h r₀ hr₀).viaJson
  · rintro q at_ rfl ht rfl
    obtain hnone | heffect := serve_orders env ht at_ s
    · rw [hnone]
      exact hlater
    · exact heffect.origins hi ho
  · rintro w now rfl ht
    exact absurd ht he

/-- Every order of a run was made by a creation of the run, for the user who asked for it; all its
columns are those of the creation, but for the time, and a status and a remark that a later request
was entitled to write. -/
theorem orders_have_origins {loadedAt : String} {clock : ℕ → String}
    (hes : ∀ e ∈ es, e.LeavesOrders) (hr : run (step env) (start loadedAt clock .empty) es = some s) :
    ∀ r ∈ s.cache.rows .orders, HasOrigin env es r := by
  suffices h : Saved env s ∧ Issued s.cache .orders ∧
      ∀ r ∈ s.cache.rows .orders, HasOrigin env es r from h.2.2
  induction es using List.reverseRecOn generalizing s with
  | nil =>
    rw [run_nil, Option.some.injEq] at hr
    subst hr
    refine ⟨saved_start loadedAt clock, issued_start loadedAt clock .orders, fun r hr => ?_⟩
    unfold start at hr
    rw [rows_initDefaultData_of_ne (by decide) (by decide)] at hr
    exact absurd hr List.not_mem_nil
  | append_singleton es e ih =>
    obtain ⟨m, hm, hs⟩ := run_snoc (step env) hr
    have he := hes e (List.mem_append_right _ List.mem_cons_self)
    obtain ⟨hsv, hi, ho⟩ := ih (fun e' he' => hes e' (List.mem_append_left _ he')) hm
    exact ⟨saved_step hsv hs, issued_step hsv hi he.keepsIdsOf hs, origins_step hsv hi ho he hs⟩

end

/-- A stranger may not cancel the order, its user does, and the admin remarks on it before a
restart. -/
theorem orders_have_origins_cancelled :
    let es : List Event := [creation,
      .request (.user (some ⟨2, by decide⟩) (.cancelOrder "202501010000000000")) (moment "t3"),
      .request (.user (some ⟨1, userId_one⟩) (.cancelOrder "202501010000000000")) (moment "t4"),
      .request (.admin true (.updateOrderRemark "202501010000000000"
        (.ofList [("remark", .str "called")]))) (moment "t5"),
      .restart "t6" fun _ => "t7"]
    ∃ s, run (step .plain) (start "t0" (fun _ => "t1") .empty) es = some s ∧
      (s.cache.rows .orders).map (fun r => (r.get "status", r.get "remark")) =
        [(.str "CANCELLED", .str "called")] ∧
      ∀ r ∈ s.cache.rows .orders, HasOrigin .plain es r := by
  intro es
  have hes : ∀ e ∈ es, e.LeavesOrders := by
    intro e he
    simp only [es, List.mem_cons, List.not_mem_nil, or_false] at he
    rcases he with rfl | rfl | rfl | rfl | rfl
    all_goals trivial
  obtain ⟨s, hs⟩ : ∃ s, run (step .plain) (start "t0" (fun _ => "t1") .empty) es = some s :=
    ⟨_, rfl⟩
  refine ⟨s, hs, ?_, orders_have_origins hes hs⟩
  cases hs
  decide +kernel

end Server

end JtfpMall
