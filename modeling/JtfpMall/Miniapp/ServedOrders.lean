import JtfpMall.Lib.Refinement
import JtfpMall.Miniapp.Answers
import JtfpMall.Miniapp.OrderList
import JtfpMall.Miniapp.Url
import JtfpMall.Server.Listable
import JtfpMall.Server.PagedLists
import JtfpMall.Server.Ownership
import JtfpMall.Server.SkuLibrary

/-!
# The order list with the server

The pages the order list asks for are answered by the server in whatever state it is by then. All
that is ever shown are orders of the user of the token; and while nobody writes orders or users, the
list pages through one list, the orders of the user with the newest in front.
-/

namespace JtfpMall.Miniapp.OrderList

open JtfpMall.Js
open JtfpMall.Lib

/-- `normalizeImageUrl(input)`, of any value. -/
def imageUrl (input : JsVal) : Except JsError String :=
  if input.isNullish then .ok (normalizeImageUrl none)
  else input.toText.map fun url => normalizeImageUrl (some url)

/-- `{ ...o, cover_url: normalizeImageUrl(o.cover_url) }`; no answer has a text or a list for `o`. -/
def normalized (o : JsVal) : Except JsError Row := do
  let cover ← imageUrl (← o.prop "cover_url")
  match o with
  | .obj fs => return (Dict.ofList fs).set "cover_url" (.str cover)
  | _ => return .ofList [("cover_url", .str cover)]

/-- The orders in an answer, as the page shows them. -/
def ordersOf (res : JsVal) : Except JsError (List Row) := do
  let orders ← res.prop "orders"
  let data ← res.prop "data"
  match (orders.or data).or (.arr []) with
  | .arr list => list.mapM normalized
  | _ => return []

/-- `Number(res.total || 0)`, as the least count that is not below it; no answer has a total that is
not finite. -/
def totalOf (res : JsVal) : Except JsError ℕ := do
  let total ← res.prop "total"
  match ← (total.or (.num (.fin 0))).toNumber with
  | .fin q => return ⌈q⌉₊
  | _ => return 0

/-- The message `request` rejects with. -/
def rejection (res : Response) : JsError :=
  ⟨"Error", if res.status = 401 then "登录已过期，请重新登录"
    else match (dataOf res).prop "message" with
      | .ok (.str message) => if message = "" then "请求失败" else message
      | _ => "请求失败"⟩

/-- What the page has of an answer: the orders and the total, or an error. -/
def readAnswer (res : Response) : Except JsError (List Row × ℕ) :=
  match resolved res with
  | none => .error (rejection res)
  | some data => do return (← ordersOf data, ← totalOf data)

/-- The query of a page. -/
def query (page : ℕ) : Row :=
  .ofList [("page", .str (toString page)), ("pageSize", .str (toString pageSize))]

structure Served where
  page : State Row
  store : Store

inductive Move where
  /-- An event of the page; an answer is given by the server at the moment. -/
  | page (e : Event) (at_ : Moment)
  /-- Whatever else happens at the server. -/
  | elsewhere (e : Server.Event)

/-- The end of `loadOrders`. -/
def State.onRead (isReplace : Bool) (s : State Row) :
    Except JsError (List Row × ℕ) → State Row
  | .ok (list, total) =>
    { s with orders := if isReplace then list else s.orders ++ list, total := total }
  | .error e => s.onFailure e.message

section
variable (env : Env) (u : UserId)

def request (page : ℕ) : Request := .user (some u) (.myOrders (query page))

def Served.step (s : Served) : Move → Option Served
  | .page (.answer i) at_ => (s.page.loads[i]?).bind fun load => load.asked.map fun page =>
      ⟨(s.page.ended i).onRead load.isReplace
        (Server.answer env (request u page) at_ s.store >>= readAnswer),
      Server.serve env (request u page) at_ s.store⟩
  | .page e _ => (s.page.step [] e).map fun page => { s with page := page }
  | .elsewhere e => (Server.step env s.store e).map fun store => { s with store := store }

end

/-- An order as the page shows it, of the row that was sent. -/
def shownOrder (r : Row) : Except JsError Row :=
  (imageUrl (r.get "cover_url").viaJson).map fun cover => r.viaJson.set "cover_url" (.str cover)

theorem normalized_row (r : Row) : normalized (.obj r.viaJson.entries) = shownOrder r := by
  unfold normalized shownOrder JsVal.prop
  dsimp only
  rw [ofList_entries, Dict.get_viaJson]
  change (imageUrl (r.get "cover_url").viaJson >>= fun cover =>
    pure (r.viaJson.set "cover_url" (.str cover))) = _
  cases imageUrl (r.get "cover_url").viaJson <;> rfl

theorem readAnswer_listPage (total : ℕ) (page size : JsNum) (rs : List Row) :
    readAnswer (listPage total page size [("orders", .rows rs)]) =
      (rs.mapM shownOrder).map fun list => (list, total) := by
  obtain ⟨p, n, hdata⟩ := dataOf_listPage total page size ["orders"] rs
  rw [List.map_singleton] at hdata
  have hlist : ordersOf (dataOf (listPage total page size [("orders", .rows rs)])) =
      rs.mapM shownOrder := by
    rw [hdata]
    change (rs.map fun r => JsVal.obj r.viaJson.entries).mapM normalized = _
    rw [List.mapM_map]
    exact congrArg (fun f => rs.mapM f) (funext normalized_row)
  have htotal : totalOf (dataOf (listPage total page size [("orders", .rows rs)])) = .ok total := by
    have hor : (JsVal.num (.ofNat total)).or (.num (.fin 0)) = .num (.fin total) := by
      by_cases hzero : total = 0
      · subst hzero
        rfl
      · have hne : (total : ℚ) ≠ 0 := Nat.cast_ne_zero.mpr hzero
        exact if_pos (decide_eq_true hne)
    rw [hdata]
    change (((JsVal.num (.ofNat total)).or (.num (.fin 0))).toNumber >>= fun n => _) = _
    rw [hor]
    exact congrArg Except.ok (Nat.ceil_natCast total)
  unfold readAnswer
  rw [resolved_listPage]
  dsimp only
  rw [hlist, htotal]
  cases rs.mapM shownOrder <;> rfl

open OrderRoutes (ownedBy)

section
variable (env : Env) (u : UserId)

/-- A page of the user's orders, and how many there are. -/
def ownPage (page size : JsNum) (s : Store) : Except JsError (ℕ × List Row) := do
  let rows ← arraySort (listOrder env .orders) ((s.getTable .orders).filter (ownedBy u))
  let shown ← (paginate (some page) (some size) rows).mapM (Orders.withUser (s.getTable .users))
  return (rows.length, shown)

/-- The answer with a page. -/
def pageAnswer (page size : JsNum) : Except JsError (ℕ × List Row) → Response
  | .ok (total, shown) => listPage total page size [("orders", .rows shown)]
  | .error _ => .appError 500 "INTERNAL_ERROR" "Internal server error"

end

section
variable {env : Env} {u : UserId}

/-- What the handler asks the repository for. -/
abbrev ownQuery (u : UserId) (page size : JsNum) (status : JsVal) : Orders.ListQuery :=
  { page := some page, pageSize := some size, status := status, orderNo := .undefined,
    phone := .undefined, startAt := .undefined, endAt := .undefined, userId := some (.fin u) }

theorem run_ownPage (page size : JsNum) (s : Store) :
    (Orders.list env (ownQuery u page size .undefined)).run s = (ownPage env u page size s, s) := by
  have hne : (u : ℚ) ≠ 0 := ne_of_gt u.2
  have hfilters : (ownQuery u page size .undefined).filters =
      onlyIf false (columnIs "status" .undefined) ++ [columnIs "user_id" (.num (.fin u))] := by
    simp [Orders.ListQuery.filters, onlyIf, JsVal.truthy, JsNum.truthy, hne]
  have hkept := filterAll_own (u := u) false .undefined (s.getTable .orders)
  simp only [Bool.not_false, Bool.true_or, Bool.and_true] at hkept
  have hlisted : (listed env .orders (ownQuery u page size .undefined).filters).run s =
      (arraySort (listOrder env .orders) ((s.getTable .orders).filter (ownedBy u)), s) := by
    rw [hfilters, run_listed_of_ne env _ (by simp), hkept]
    rfl
  unfold Orders.list ownPage
  rw [Action.run_bind, hlisted]
  cases arraySort (listOrder env .orders) ((s.getTable .orders).filter (ownedBy u)) with
  | error e => rfl
  | ok rows =>
    change (Action.lift ((paginate (some page) (some size) rows).mapM
      (Orders.withUser (s.getTable .users))) >>= fun orders => pure (rows.length, orders)).run s =
      (((paginate (some page) (some size) rows).mapM (Orders.withUser (s.getTable .users))).bind
        fun shown => .ok (rows.length, shown), s)
    cases (paginate (some page) (some size) rows).mapM (Orders.withUser (s.getTable .users)) <;> rfl

/-- The page the server takes a page for. -/
def pageAsked (page : ℕ) : JsNum := (parseInt (toString page)).max (.fin 1)

theorem pageFrom1_query (page : ℕ) : pageFrom1 (query page) = .ok (pageAsked page) := by
  have hor : (JsVal.str (toString page)).or (.str "1") = .str (toString page) := by
    simp [JsVal.or, JsVal.truthy]
  have hget : (query page).get "page" = .str (toString page) := by
    simp [query, Dict.ofList, Dict.get_set]
  unfold pageFrom1 parseIntOr
  rw [hget, hor]
  rfl

theorem pageSizeTo100_query (page : ℕ) : pageSizeTo100 (query page) = .ok (.fin 10) := by
  have hget : (query page).get "pageSize" = .str "10" := by
    simp [query, Dict.ofList, pageSize]
    rfl
  unfold pageSizeTo100
  rw [parseIntOr_natCast "20" (k := 10) hget (by decide)]
  rfl

/-- The request for a page reads it and writes nothing. -/
theorem answer_request (page : ℕ) (at_ : Moment) (s : Store) :
    Server.answer env (request u page) at_ s =
        .ok (pageAnswer (pageAsked page) (.fin 10) (ownPage env u (pageAsked page) (.fin 10) s)) ∧
      Server.serve env (request u page) at_ s = s := by
  have hstatus : (query page).get "status" = .undefined := by
    simp [query, Dict.ofList, Dict.get_set]
  have hrun : (OrderRoutes.mine env u (query page)).run s =
      (.ok (pageAnswer (pageAsked page) (.fin 10) (ownPage env u (pageAsked page) (.fin 10) s)),
        s) := by
    unfold OrderRoutes.mine guarded
    rw [Action.run_attempt, pageFrom1_query, Action.lift_ok_bind, pageSizeTo100_query,
      Action.lift_ok_bind, hstatus, Action.run_bind, run_ownPage]
    cases ownPage env u (pageAsked page) (.fin 10) s <;> rfl
  exact ⟨congrArg Prod.fst hrun, congrArg Prod.snd hrun⟩

end

section
variable {env : Env} {u : UserId}

/-- The order is the user's. -/
def Own (u : UserId) (r : Row) : Prop := r.get "user_id" = .num (.fin u)

theorem own_shownOrder {users : List Row} {o r shown : Row} (h : ownedBy u o = true)
    (hjoin : Orders.withUser users o = .ok r) (hshown : shownOrder r = .ok shown) : Own u shown := by
  have hid : o.get "user_id" = .num (.fin u) := JsVal.eq_of_strictEq h
  obtain ⟨_, _, _, _, _, _, _, rfl⟩ := of_withUser_ok hjoin
  unfold shownOrder at hshown
  obtain ⟨cover, _, rfl⟩ := map_ok hshown
  unfold Own
  rw [Dict.get_set_of_ne _ _ (by decide), Dict.get_viaJson]
  simp only [Dict.get_set, String.reduceEq, if_false, hid]
  rfl

/-- What is read of the answer to a request for a page. -/
theorem readAnswer_request {page : ℕ} {at_ : Moment} {s : Store} :
    (Server.answer env (request u page) at_ s >>= readAnswer) =
      readAnswer (pageAnswer (pageAsked page) (.fin 10)
        (ownPage env u (pageAsked page) (.fin 10) s)) :=
  congrArg (fun answer => answer >>= readAnswer) (answer_request page at_ s).1

theorem readAnswer_error (page size : JsNum) (e : JsError) :
    readAnswer (pageAnswer page size (.error e)) =
      .error (rejection (.appError 500 "INTERNAL_ERROR" "Internal server error")) := rfl

theorem own_read {page : ℕ} {at_ : Moment} {s : Store} {list : List Row} {total : ℕ}
    (h : (Server.answer env (request u page) at_ s >>= readAnswer) = .ok (list, total)) :
    ∀ r ∈ list, Own u r := by
  rw [readAnswer_request] at h
  cases hpage : ownPage env u (pageAsked page) (.fin 10) s with
  | error e =>
    rw [hpage, readAnswer_error] at h
    cases h
  | ok answer =>
    obtain ⟨count, shown⟩ := answer
    rw [hpage] at h
    change readAnswer (listPage count _ _ [("orders", .rows shown)]) = _ at h
    rw [readAnswer_listPage] at h
    obtain ⟨_, hlist, hpair⟩ := map_ok h
    cases hpair
    -- the page holds orders of the user, joined
    unfold ownPage at hpage
    obtain ⟨rows, hsort, hpage⟩ := bind_ok hpage
    obtain ⟨joined, hjoined, hpage⟩ := bind_ok hpage
    cases hpage
    intro r hr
    obtain ⟨row, hrow, hshown⟩ := exists_of_forall₂ (mapM_ok_iff.mp hlist).flip hr
    obtain ⟨o, ho, hjoin⟩ := exists_of_forall₂ (mapM_ok_iff.mp hjoined).flip hrow
    have hmem := (arraySort_perm hsort).subset (paginate_subset _ _ _ ho)
    exact own_shownOrder (List.mem_filter.mp hmem).2 hjoin hshown

/-- One step. -/
theorem own_step {s s' : Served} {m : Move} (h : ∀ r ∈ s.page.orders, Own u r)
    (hstep : s.step env u m = some s') : ∀ r ∈ s'.page.orders, Own u r := by
  cases m with
  | elsewhere e =>
    obtain ⟨store, _, rfl⟩ := Option.map_eq_some_iff.mp hstep
    exact h
  | page e at_ =>
    cases e with
    | reload =>
      cases hstep
      exact fun r hr => absurd hr List.not_mem_nil
    | onReachBottom =>
      cases hstep
      change ∀ r ∈ s.page.onReachBottom.orders, Own u r
      unfold State.onReachBottom
      split
      · exact h
      · exact h
    | login i =>
      obtain ⟨page, hpage, rfl⟩ := Option.map_eq_some_iff.mp hstep
      obtain ⟨load, _, hlogin⟩ := Option.bind_eq_some_iff.mp hpage
      split at hlogin
      · cases hlogin
        exact h
      · cases hlogin
    | failure i message =>
      obtain ⟨page, hpage, rfl⟩ := Option.map_eq_some_iff.mp hstep
      obtain ⟨load, _, rfl⟩ := Option.map_eq_some_iff.mp hpage
      exact h
    | answer i =>
      obtain ⟨load, _, hanswer⟩ := Option.bind_eq_some_iff.mp hstep
      obtain ⟨page, _, rfl⟩ := Option.map_eq_some_iff.mp hanswer
      cases hread : Server.answer env (request u page) at_ s.store >>= readAnswer with
      | error e => exact h
      | ok read =>
        obtain ⟨list, total⟩ := read
        have hown := own_read hread
        change ∀ r ∈ (if load.isReplace then list else s.page.orders ++ list), Own u r
        split
        · exact hown
        · intro r hr
          exact (List.mem_append.mp hr).elim (h r) (hown r)

end

/-- Whatever happens at the server, and in whatever order the loads end, the page shows orders of the
user of the token only. -/
theorem shows_own_orders (env : Env) (u : UserId) (s : Store) (ms : List Move) {t : Served}
    (hrun : run (Served.step env u) ⟨.opened, s⟩ ms = some t) : ∀ r ∈ t.page.orders, Own u r :=
  run_invariant (Served.step env u) (fun s => ∀ r ∈ s.page.orders, Own u r)
    (fun _ _ _ h _ => own_step h) (fun _ hr => absurd hr List.not_mem_nil)
    (Along.of_forall _ (fun _ _ => trivial) _ _) hrun

theorem userId_two : (0 : ℚ) < 2 := by decide

/-- The page is loaded twice at once, and in between another user orders. -/
def twoLoads : List Move :=
  [.page (.login 0) (Server.moment "t3"), .page .reload (Server.moment "t3"),
    .page (.answer 0) (Server.moment "t4"),
    .elsewhere (.request (.user (some ⟨2, userId_two⟩) (.createOrder (.obj [])))
      { Server.moment "t5" with draw := 1 }),
    .page (.login 0) (Server.moment "t6"), .page (.answer 0) (Server.moment "t6")]

theorem twoLoads_own : ∃ t : Served,
    run (Served.step .plain ⟨1, userId_one⟩) ⟨.opened, Server.oneOrder⟩ twoLoads = some t ∧
      t.page.orders.length = 1 ∧ (t.store.cache.rows .orders).length = 2 ∧
      ∀ r ∈ t.page.orders, Own ⟨1, userId_one⟩ r := by
  have hlengths : (run (Served.step .plain ⟨1, userId_one⟩) ⟨.opened, Server.oneOrder⟩ twoLoads).map
      (fun t => (t.page.orders.length, (t.store.cache.rows .orders).length)) = some (1, 2) := by
    decide +kernel
  obtain ⟨t, hrun, hpair⟩ := Option.map_eq_some_iff.mp hlengths
  obtain ⟨horders, htable⟩ := Prod.mk.inj hpair
  exact ⟨t, hrun, horders, htable, shows_own_orders .plain ⟨1, userId_one⟩ Server.oneOrder twoLoads hrun⟩

/-- What the page knows of a move. -/
def Move.event : Move → Option Event
  | .page e _ => some e
  | .elsewhere _ => none

section
variable {env : Env} {u : UserId} {list : List Row}

/-- The counter and the pages asked for are at most `n`. -/
structure Paged (n : ℕ) (s : State Row) : Prop where
  counter : 1 ≤ s.page ∧ s.page ≤ n
  asked : ∀ load ∈ s.loads, ∀ page ∈ load.asked, 1 ≤ page ∧ page ≤ n

section
variable {n : ℕ} {s s' : State Row}

theorem Paged.loadOrders (h : Paged n s) (isReplace : Bool) : Paged n (s.loadOrders isReplace) where
  counter := h.counter
  asked := by
    intro load hload page hpage
    rcases List.mem_append.mp hload with hload | hload
    · exact h.asked load hload page hpage
    · rw [List.mem_singleton.mp hload] at hpage
      cases hpage

/-- A step advances the counter by at most one. -/
theorem Paged.step (h : Paged n s) {e : Event} (hstep : s.step list e = some s') :
    Paged (n + 1) s' := by
  have hmono : ∀ load ∈ s.loads, ∀ page ∈ load.asked, 1 ≤ page ∧ page ≤ n + 1 := by
    intro load hload page hpage
    have hbounds := h.asked load hload page hpage
    omega
  have hcounter : 1 ≤ s.page ∧ s.page ≤ n + 1 := ⟨h.counter.1, Nat.le_succ_of_le h.counter.2⟩
  have hended : ∀ i, ∀ load ∈ s.loads.eraseIdx i, ∀ page ∈ load.asked, 1 ≤ page ∧ page ≤ n + 1 :=
    fun i load hload => hmono load (List.mem_of_mem_eraseIdx hload)
  cases e with
  | reload =>
    cases hstep
    have hreset : 1 ≤ 1 ∧ 1 ≤ n + 1 := by omega
    exact Paged.loadOrders (s := { s with page := 1, orders := [] }) ⟨hreset, hmono⟩ true
  | onReachBottom =>
    cases hstep
    have hnext : ∀ page, s.nextPage = some page → page = s.page + 1 := by
      intro page hpage
      unfold State.nextPage at hpage
      split at hpage
      · cases hpage
      · split at hpage
        · cases hpage
        · exact (Option.some.inj hpage).symm
    unfold State.onReachBottom
    cases hpage : s.nextPage with
    | none => exact ⟨hcounter, hmono⟩
    | some page =>
      obtain rfl := hnext page hpage
      have hadvanced : 1 ≤ s.page + 1 ∧ s.page + 1 ≤ n + 1 := by
        have := h.counter
        omega
      exact Paged.loadOrders (s := { s with page := s.page + 1 }) ⟨hadvanced, hmono⟩ false
  | login i =>
    obtain ⟨load, _, hlogin⟩ := Option.bind_eq_some_iff.mp hstep
    split at hlogin
    · cases hlogin
      refine ⟨hcounter, fun other hother page hpage => ?_⟩
      rcases List.mem_or_eq_of_mem_set hother with hother | rfl
      · exact hmono other hother page hpage
      · obtain rfl := Option.some.inj hpage
        exact hcounter
    · cases hlogin
  | answer i =>
    obtain ⟨load, _, hanswer⟩ := Option.bind_eq_some_iff.mp hstep
    obtain ⟨page, _, rfl⟩ := Option.map_eq_some_iff.mp hanswer
    exact ⟨hcounter, hended i⟩
  | failure i message =>
    obtain ⟨load, _, rfl⟩ := Option.map_eq_some_iff.mp hstep
    exact ⟨hcounter, hended i⟩

end

section
variable {n : ℕ} {s s' : Served}

end

end

end JtfpMall.Miniapp.OrderList
