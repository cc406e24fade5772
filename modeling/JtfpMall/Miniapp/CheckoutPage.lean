import JtfpMall.Js.Uri
import JtfpMall.Lib.LastWrite
import JtfpMall.Miniapp.ProductPage
import JtfpMall.Miniapp.RoundTrip

/-!
# The checkout page over time

`submitOrder` waits for the login, for the creation of the order and for the payment, and the page
may be shown again and load its data anew while it waits. What is ordered is what the page showed
when it was submitted.
-/

namespace JtfpMall.Miniapp.CheckoutPage

open JtfpMall.Js
open JtfpMall.Lib
open JtfpMall.Miniapp.Cart (Line numberOr)

/-- The parameters of the page, as they stand in its address. -/
structure Query where
  inviteCode : Option String
  productId : Option String
  welfarePriceCent : Option String
  welfareNote : Option String

/-- What a welfare order is made from. -/
structure Welfare where
  inviteCode : String
  productId : JsNum
  priceCent : JsNum
  note : String

/-- The welfare order of the parameters, if they have one. -/
def Query.welfare (q : Query) : Except JsError (Option Welfare) := do
  let inviteCode := trim (q.inviteCode.getD "")
  let productId := q.productId.elim .nan stringToNumber
  let welfarePriceCent := stringToNumber (q.welfarePriceCent.getD "")
  let welfareNote ← decodeURIComponent (q.welfareNote.getD "")
  if decide (inviteCode ≠ "") && productId.truthy &&
      decide (JsNum.lt? (.fin 0) welfarePriceCent = some true) then
    return some ⟨inviteCode, productId, welfarePriceCent, welfareNote⟩
  else return none

structure Data where
  items : List Line
  goodsCent : JsNum
  submitting : Bool
  address : Option SavedAddress
  isWelfareOrder : Bool
  welfareInviteCode : String
  welfareNote : String

/-- What `submitOrder` reads of the data. -/
def Data.page (d : Data) : Page :=
  ⟨d.items.map fun it => ⟨it.productId, it.skuId, it.qty⟩, d.address, d.submitting,
    d.isWelfareOrder, d.welfareInviteCode⟩

/-- A `loadData` that waits for the product, with the address it has read. -/
structure Load where
  welfare : Welfare
  address : Option SavedAddress

/-- What a `submitOrder` waits for; later it has the number of the order. -/
inductive Phase where
  | login
  | creating
  | prepaying (orderNo : String)
  | paying (orderNo : String)

structure Submission where
  body : JsVal
  isWelfareOrder : Bool
  phase : Phase

structure State where
  /-- The address and the cart in the storage. -/
  address : Option SavedAddress
  cart : List Line
  data : Data
  loads : List Load
  submissions : List Submission
  /-- The creations that were asked for so far. -/
  posted : List JsVal
  /-- The orders whose detail page is to come. -/
  redirects : List String

inductive Event where
  | onShow
  /-- A product that fails to load, or that there is not, is none. -/
  | productAnswered (i : ℕ) (product : Option Product)
  /-- Another page writes the storage. -/
  | stored (address : Option SavedAddress) (cart : List Line)
  | submitOrder
  | loggedIn (i : ℕ) (ok : Bool)
  /-- What `createOrder` resolves with; a rejection is none. -/
  | created (i : ℕ) (orderRes : Option JsVal)
  | prepaid (i : ℕ) (ok : Bool)
  | paid (i : ℕ) (ok : Bool)

namespace State

def opened (address : Option SavedAddress) (cart : List Line) : State :=
  ⟨address, cart, ⟨[], .fin 0, false, none, false, "", ""⟩, [], [], [], []⟩

/-- The sum over the items. -/
def goodsCent (items : List Line) : JsNum :=
  items.foldl (fun sum it =>
    sum.add ((numberOr it.price_cent (.fin 0)).mul (numberOr it.qty (.fin 0)))) (.fin 0)

/-- The cart as it is stored, with the address that was read before. -/
def showCart (address : Option SavedAddress) (s : State) : State :=
  { s with data := { s.data with
      items := s.cart, goodsCent := goodsCent s.cart, address := address, isWelfareOrder := false,
      welfareInviteCode := "", welfareNote := "" } }

/-- The only item of a welfare order. -/
def welfareItem (w : Welfare) (product : Product) : Except JsError Line := do
  let productId ← product.id.toNumber
  return { key := "welfare:" ++ w.productId.toText ++ ":" ++ w.inviteCode
           productId := productId
           skuId := none
           qty := .fin 1
           title := product.title
           skuTitle := .str ("福利码 " ++ w.inviteCode)
           cover_url := product.cover_url
           price_cent := w.priceCent
           is_welfare := .fin 1 }

def showWelfare (load : Load) (item : Line) (s : State) : State :=
  { s with data := { s.data with
      items := [item], goodsCent := load.welfare.priceCent, address := load.address,
      isWelfareOrder := true, welfareInviteCode := load.welfare.inviteCode,
      welfareNote := load.welfare.note } }

/-- `loadData()`, up to its `await`; a note that cannot be decoded ends it. -/
def loadData (q : Query) (s : State) : State :=
  match q.welfare with
  | .error _ => s
  | .ok (some w) => { s with loads := s.loads ++ [⟨w, s.address⟩] }
  | .ok none => s.showCart s.address

def onProduct (load : Load) (product : Option Product) (s : State) : State :=
  match product.map (welfareItem load.welfare) with
  | some (.ok item) => s.showWelfare load item
  | _ => s.showCart load.address

/-- `submitOrder()`, up to its first `await`. -/
def submitOrder (s : State) : State :=
  match s.data.page.submitOrder with
  | none => s
  | some body =>
    { s with
      data := { s.data with submitting := true }
      submissions := s.submissions ++ [⟨body, s.data.isWelfareOrder, .login⟩] }

/-- The `finally`, and the redirection when there is an order. -/
def ended (i : ℕ) (createdOrderNo : Option String) (s : State) : State :=
  { s with
    data := { s.data with submitting := false }
    submissions := s.submissions.eraseIdx i
    redirects := s.redirects ++ createdOrderNo.toList }

def advance (i : ℕ) (sub : Submission) (phase : Phase) (s : State) : State :=
  { s with submissions := s.submissions.set i { sub with phase := phase } }

def onLogin (i : ℕ) (sub : Submission) (ok : Bool) (s : State) : State :=
  if ok then { s.advance i sub .creating with posted := s.posted ++ [sub.body] } else s.ended i none

def onCreated (i : ℕ) (sub : Submission) (orderRes : Option JsVal) (s : State) : State :=
  match orderRes.map createdOrderNo with
  | some (.ok orderNo) => s.advance i sub (.prepaying orderNo)
  | _ => s.ended i none

def onPrepaid (i : ℕ) (sub : Submission) (orderNo : String) (ok : Bool) (s : State) : State :=
  if ok then s.advance i sub (.paying orderNo) else s.ended i (some orderNo)

/-- A welfare order leaves the cart. -/
def onPaid (i : ℕ) (sub : Submission) (orderNo : String) (ok : Bool) (s : State) : State :=
  let s := if ok && !sub.isWelfareOrder then { s with cart := [] } else s
  s.ended i (some orderNo)

section
variable (q : Query)

def step (s : State) : Event → Option State
  | .onShow => some (s.loadData q)
  | .productAnswered i product => s.loads[i]?.map fun load =>
      ({ s with loads := s.loads.eraseIdx i }).onProduct load product
  | .stored address cart => some { s with address := address, cart := cart }
  | .submitOrder => some s.submitOrder
  | .loggedIn i ok => s.submissions[i]?.bind fun sub => match sub.phase with
    | .login => some (s.onLogin i sub ok)
    | _ => none
  | .created i orderRes => s.submissions[i]?.bind fun sub => match sub.phase with
    | .creating => some (s.onCreated i sub orderRes)
    | _ => none
  | .prepaid i ok => s.submissions[i]?.bind fun sub => match sub.phase with
    | .prepaying orderNo => some (s.onPrepaid i sub orderNo ok)
    | _ => none
  | .paid i ok => s.submissions[i]?.bind fun sub => match sub.phase with
    | .paying orderNo => some (s.onPaid i sub orderNo ok)
    | _ => none

end

/-- The order that a tap asks for. -/
def ordered (s : State) : Event → Option JsVal
  | .submitOrder => s.data.page.submitOrder
  | _ => none

/-- The orders that wait for the login. -/
def waiting (s : State) : List JsVal :=
  s.submissions.filterMap fun sub => match sub.phase with
    | .login => some sub.body
    | _ => none

/-- One submission at a time, during which the button is off. -/
def Single (s : State) : Prop :=
  s.submissions = [] ∧ s.data.submitting = false ∨
    ∃ sub, s.submissions = [sub] ∧ s.data.submitting = true

section
variable {q : Query} {s s' : State}

theorem Single.index (h : s.Single) {i : ℕ} {sub : Submission} (hi : s.submissions[i]? = some sub) :
    i = 0 ∧ s.submissions = [sub] ∧ s.data.submitting = true := by
  rcases h with ⟨hnil, _⟩ | ⟨one, hone, hsubmitting⟩
  · rw [hnil, List.getElem?_nil] at hi
    cases hi
  · cases i with
    | zero =>
      rw [hone, List.getElem?_cons_zero, Option.some.injEq] at hi
      exact ⟨rfl, hi ▸ hone, hsubmitting⟩
    | succ i =>
      rw [hone, List.getElem?_cons_succ, List.getElem?_nil] at hi
      cases hi

theorem Single.ended {i : ℕ} {sub : Submission} (h : s.Single) (hi : s.submissions[i]? = some sub)
    (createdOrderNo : Option String) : (s.ended i createdOrderNo).Single := by
  obtain ⟨rfl, hone, _⟩ := h.index hi
  refine Or.inl ⟨?_, rfl⟩
  change s.submissions.eraseIdx 0 = []
  rw [hone]
  rfl

theorem Single.advance {i : ℕ} {sub : Submission} (h : s.Single) (hi : s.submissions[i]? = some sub)
    (phase : Phase) : (s.advance i sub phase).Single := by
  obtain ⟨rfl, hone, hsubmitting⟩ := h.index hi
  refine Or.inr ⟨{ sub with phase := phase }, ?_, hsubmitting⟩
  change s.submissions.set 0 _ = _
  rw [hone]
  rfl

/-- A tap goes through only where nothing is submitted. -/
theorem Single.of_submitOrder (h : s.Single) {body : JsVal}
    (hbody : s.data.page.submitOrder = some body) : s.submissions = [] := by
  rcases h with ⟨hnil, _⟩ | ⟨_, _, hsubmitting⟩
  · exact hnil
  · have hoff : s.data.page.submitting = true := hsubmitting
    unfold Page.submitOrder at hbody
    rw [if_pos hoff] at hbody
    cases hbody

theorem Single.onProduct (h : s.Single) (load : Load) (product : Option Product) :
    (s.onProduct load product).Single := by
  unfold State.onProduct
  split <;> exact h

theorem single_step (h : s.Single) {e : Event} (hs : s.step q e = some s') : s'.Single := by
  cases e with
  | onShow =>
    cases hs
    unfold loadData
    split <;> exact h
  | productAnswered i product =>
    obtain ⟨load, _, rfl⟩ := Option.map_eq_some_iff.mp hs
    have hloaded : Single { s with loads := s.loads.eraseIdx i } := h
    exact hloaded.onProduct load product
  | stored address cart =>
    cases hs
    exact h
  | submitOrder =>
    cases hs
    unfold State.submitOrder
    cases hbody : s.data.page.submitOrder with
    | none => exact h
    | some body =>
      refine Or.inr ⟨⟨body, s.data.isWelfareOrder, .login⟩, ?_, rfl⟩
      dsimp only
      rw [h.of_submitOrder hbody, List.nil_append]
  | loggedIn i ok =>
    obtain ⟨sub, hi, hs⟩ := Option.bind_eq_some_iff.mp hs
    split at hs
    · cases hs
      unfold onLogin
      split
      · exact h.advance hi .creating
      · exact h.ended hi none
    · cases hs
  | created i orderRes =>
    obtain ⟨sub, hi, hs⟩ := Option.bind_eq_some_iff.mp hs
    split at hs
    · cases hs
      unfold onCreated
      split
      · exact h.advance hi _
      · exact h.ended hi none
    · cases hs
  | prepaid i ok =>
    obtain ⟨sub, hi, hs⟩ := Option.bind_eq_some_iff.mp hs
    split at hs
    · cases hs
      unfold onPrepaid
      split
      · exact h.advance hi _
      · exact h.ended hi _
    · cases hs
  | paid i ok =>
    obtain ⟨sub, hi, hs⟩ := Option.bind_eq_some_iff.mp hs
    split at hs
    · cases hs
      unfold onPaid
      dsimp only
      split
      · exact Single.ended (s := { s with cart := [] }) h hi _
      · exact h.ended hi _
    · cases hs

theorem waiting_eq_nil {sub : Submission} (hone : s.submissions = [sub]) (hphase : sub.phase ≠ .login) :
    s.waiting = [] := by
  unfold waiting
  rw [hone]
  cases hp : sub.phase with
  | login => exact absurd hp hphase
  | creating => simp [hp]
  | prepaying orderNo => simp [hp]
  | paying orderNo => simp [hp]

theorem waiting_ended (h : s.Single) {i : ℕ} {sub : Submission} (hi : s.submissions[i]? = some sub)
    (n : Option String) : (s.ended i n).waiting = [] := by
  obtain ⟨rfl, hone, _⟩ := h.index hi
  unfold waiting ended
  dsimp only
  rw [hone]
  rfl

theorem waiting_advance (h : s.Single) {i : ℕ} {sub : Submission}
    (hi : s.submissions[i]? = some sub) {phase : Phase} (hphase : phase ≠ .login) :
    (s.advance i sub phase).waiting = [] := by
  obtain ⟨rfl, hone, _⟩ := h.index hi
  have hnext : (s.advance 0 sub phase).submissions = [{ sub with phase := phase }] := by
    unfold advance
    dsimp only
    rw [hone]
    rfl
  exact waiting_eq_nil hnext hphase

/-- A step asks for no creation but those that a tap has asked for and that still waited. -/
theorem posted_step (h : s.Single) {e : Event} (hs : s.step q e = some s') :
    (s'.posted ++ s'.waiting).Sublist (s.posted ++ s.waiting ++ (s.ordered e).toList) := by
  have hsame : ∀ t : State, t.posted = s.posted → t.submissions = s.submissions →
      (t.posted ++ t.waiting).Sublist (s.posted ++ s.waiting ++ (s.ordered e).toList) := by
    intro t hposted hsubmissions
    unfold waiting
    rw [hposted, hsubmissions]
    exact List.sublist_append_left ..
  have hless : ∀ t : State, t.posted = s.posted → t.waiting = [] →
      (t.posted ++ t.waiting).Sublist (s.posted ++ s.waiting ++ (s.ordered e).toList) := by
    intro t hposted hwaiting
    rw [hposted, hwaiting, List.append_nil, List.append_assoc]
    exact List.sublist_append_left ..
  cases e with
  | onShow =>
    cases hs
    unfold loadData
    split <;> exact hsame _ rfl rfl
  | productAnswered i product =>
    obtain ⟨load, _, rfl⟩ := Option.map_eq_some_iff.mp hs
    unfold onProduct
    split <;> exact hsame _ rfl rfl
  | stored address cart =>
    cases hs
    exact hsame _ rfl rfl
  | submitOrder =>
    cases hs
    have hordered : s.ordered .submitOrder = s.data.page.submitOrder := rfl
    unfold State.submitOrder
    cases hbody : s.data.page.submitOrder with
    | none => exact hsame s rfl rfl
    | some body =>
      rw [hordered, hbody]
      unfold waiting
      dsimp only
      rw [List.filterMap_append, ← List.append_assoc]
      exact List.Sublist.refl _
  | loggedIn i ok =>
    obtain ⟨sub, hi, hs⟩ := Option.bind_eq_some_iff.mp hs
    split at hs
    · rename_i hphase
      cases hs
      unfold onLogin
      cases ok with
      | false => exact hless _ rfl (waiting_ended h hi none)
      | true =>
        obtain ⟨rfl, hone, _⟩ := h.index hi
        have hwaits : s.waiting = [sub.body] := by
          unfold waiting
          rw [hone]
          simp [hphase]
        have hnext : (s.advance 0 sub .creating).waiting = [] :=
          waiting_advance h hi fun hlogin => by cases hlogin
        change ((s.posted ++ [sub.body]) ++ (s.advance 0 sub .creating).waiting).Sublist _
        rw [hnext, hwaits, List.append_nil]
        exact List.sublist_append_left ..
    · cases hs
  | created i orderRes =>
    obtain ⟨sub, hi, hs⟩ := Option.bind_eq_some_iff.mp hs
    split at hs
    · cases hs
      unfold onCreated
      split
      · exact hless _ rfl (waiting_advance h hi fun hlogin => by cases hlogin)
      · exact hless _ rfl (waiting_ended h hi none)
    · cases hs
  | prepaid i ok =>
    obtain ⟨sub, hi, hs⟩ := Option.bind_eq_some_iff.mp hs
    split at hs
    · cases hs
      unfold onPrepaid
      split
      · exact hless _ rfl (waiting_advance h hi fun hlogin => by cases hlogin)
      · exact hless _ rfl (waiting_ended h hi _)
    · cases hs
  | paid i ok =>
    obtain ⟨sub, hi, hs⟩ := Option.bind_eq_some_iff.mp hs
    split at hs
    · rename_i orderNo _
      cases hs
      have hpaid : (s.onPaid i sub orderNo ok).waiting = (s.ended i (some orderNo)).waiting := by
        unfold onPaid
        dsimp only
        split <;> rfl
      refine hless _ ?_ (hpaid.trans (waiting_ended h hi _))
      unfold onPaid
      dsimp only
      split <;> rfl
    · cases hs

end

end State

section
variable {q : Query} {s s' : State}

theorem posted_run (h : s.Single) {es : List Event} (hr : run (State.step q) s es = some s') :
    s'.Single ∧ (s'.posted ++ s'.waiting).Sublist
      (s.posted ++ s.waiting ++ receipts (State.step q) State.ordered s es) := by
  induction es generalizing s with
  | nil =>
    rw [run_nil, Option.some.injEq] at hr
    rw [← hr, receipts, List.append_nil]
    exact ⟨h, List.Sublist.refl _⟩
  | cons e es ih =>
    rw [run_cons, Option.bind_eq_some_iff] at hr
    obtain ⟨t, ht, hr⟩ := hr
    obtain ⟨hsingle, hrest⟩ := ih (State.single_step h ht) hr
    rw [receipts_cons ht, ← List.append_assoc]
    exact ⟨hsingle, hrest.trans ((State.posted_step h ht).append_right _)⟩

end

/-- Whatever is loaded, stored and answered in between: one order at most is under way, with the
button off, and the orders asked for are among those that the page showed at the taps that went
through, in their order, one for each tap at most. -/
theorem ordered_as_shown {q : Query} {address : Option SavedAddress} {cart : List Line}
    {es : List Event} {s : State} (hr : run (State.step q) (.opened address cart) es = some s) :
    s.Single ∧ s.posted.Sublist (receipts (State.step q) State.ordered (.opened address cart) es) := by
  have hopened : (State.opened address cart).Single := Or.inl ⟨rfl, rfl⟩
  obtain ⟨hsingle, hposted⟩ := posted_run hopened hr
  exact ⟨hsingle, (List.sublist_append_left ..).trans hposted⟩

/-- The page is shown again while the login is under way, with a new address and a changed cart: what
is ordered is what was there at the tap. -/
theorem ordered_as_shown_reloaded :
    let line : Line := ⟨"7:0", .fin 7, none, .fin 2, .str "a", .str "", .str "", .fin 100, .fin 0⟩
    let es : List Event := [.onShow, .submitOrder, .stored none [], .onShow, .submitOrder,
      .loggedIn 0 true]
    ∃ s body, run (State.step ⟨none, none, none, none⟩) (.opened onePage.address [line]) es = some s ∧
      s.posted = [body] ∧ s.data.items = [] ∧
      s.posted.Sublist (receipts (State.step ⟨none, none, none, none⟩) State.ordered
        (.opened onePage.address [line]) es) := by
  intro line es
  obtain ⟨s, hs⟩ : ∃ s, run (State.step ⟨none, none, none, none⟩)
      (.opened onePage.address [line]) es = some s := ⟨_, rfl⟩
  obtain ⟨_, hposted⟩ := ordered_as_shown hs
  obtain ⟨body, hbody, hitems⟩ : ∃ body, s.posted = [body] ∧ s.data.items = [] := by
    cases hs
    exact ⟨_, rfl, rfl⟩
  exact ⟨s, body, hs, hbody, hitems, hposted⟩

/-- A creation is answered by the server, in whatever state it is, or the request fails. -/
def Event.ServerAnswered (env : Env) : Event → Prop
  | .created _ orderRes => orderRes = none ∨ ∃ user body at_ s res,
      Server.answer env (.user user (.createOrder body)) at_ s = .ok res ∧ orderRes = resolved res
  | _ => True

/-- No answer of the server has a number that the page finds. -/
theorem createdOrderNo_served {env : Env} {user : Option UserId} {body : JsVal} {at_ : Moment}
    {s : Store} {res : Response} (h : Server.answer env (.user user (.createOrder body)) at_ s = .ok res)
    {data : JsVal} (hdata : resolved res = some data) :
    createdOrderNo data = .error ⟨"Error", "创建订单失败：缺少订单号"⟩ := by
  cases user with
  | none =>
    have hrefused : Server.answer env (.user none (.createOrder body)) at_ s = .ok .needLogin := rfl
    rw [hrefused, Except.ok.injEq] at h
    rw [← h] at hdata
    cases hdata
  | some u =>
    cases hb : env.createOrderReq body with
    | error issue =>
      rw [Server.answer_create_refused hb, Except.ok.injEq] at h
      rw [← h] at hdata
      cases hdata
    | ok b =>
      rw [Server.answer_create hb, Except.ok.injEq] at h
      exact createdOrderNo_summary (h ▸ hdata)

/-- No order has come so far that it is paid for. -/
structure State.Unpaid (s : State) : Prop where
  phases : ∀ sub ∈ s.submissions, sub.phase = .login ∨ sub.phase = .creating
  redirects : s.redirects = []

/-- The cart that another page has stored. -/
def Event.cart : Event → Option (List Line)
  | .stored _ cart => some cart
  | _ => none

section
variable {env : Env} {q : Query} {s s' : State}

theorem State.Unpaid.ended (h : s.Unpaid) (i : ℕ) : (s.ended i none).Unpaid :=
  ⟨fun sub hsub => h.phases sub (List.mem_of_mem_eraseIdx hsub), by
    unfold State.ended
    rw [h.redirects]
    rfl⟩

theorem unpaid_step (h : s.Unpaid) {e : Event} (he : e.ServerAnswered env)
    (hs : s.step q e = some s') : s'.Unpaid ∧ s'.cart = e.cart.getD s.cart := by
  cases e with
  | onShow =>
    cases hs
    unfold State.loadData
    split <;> exact ⟨⟨h.phases, h.redirects⟩, rfl⟩
  | productAnswered i product =>
    obtain ⟨load, _, rfl⟩ := Option.map_eq_some_iff.mp hs
    unfold State.onProduct
    split <;> exact ⟨⟨h.phases, h.redirects⟩, rfl⟩
  | stored address cart =>
    cases hs
    exact ⟨⟨h.phases, h.redirects⟩, rfl⟩
  | submitOrder =>
    cases hs
    unfold State.submitOrder
    split
    · exact ⟨h, rfl⟩
    · refine ⟨⟨fun sub hsub => ?_, h.redirects⟩, rfl⟩
      rcases List.mem_append.mp hsub with hsub | hsub
      · exact h.phases sub hsub
      · rw [List.mem_singleton] at hsub
        exact Or.inl (congrArg Submission.phase hsub)
  | loggedIn i ok =>
    obtain ⟨sub, hi, hs⟩ := Option.bind_eq_some_iff.mp hs
    split at hs
    · cases hs
      unfold State.onLogin
      split
      · refine ⟨⟨fun other hother => ?_, h.redirects⟩, rfl⟩
        rcases List.mem_or_eq_of_mem_set hother with hother | rfl
        · exact h.phases other hother
        · exact Or.inr rfl
      · exact ⟨h.ended i, rfl⟩
    · cases hs
  | created i orderRes =>
    obtain ⟨sub, hi, hs⟩ := Option.bind_eq_some_iff.mp hs
    split at hs
    · cases hs
      have hnone : ∀ orderNo, orderRes.map createdOrderNo ≠ some (.ok orderNo) := by
        intro orderNo hsome
        obtain ⟨data, hdata, hno⟩ := Option.map_eq_some_iff.mp hsome
        rcases he with rfl | ⟨user, body, at_, t, res, hanswer, rfl⟩
        · cases hdata
        · rw [createdOrderNo_served hanswer hdata] at hno
          cases hno
      unfold State.onCreated
      split
      · exact absurd ‹_› (hnone _)
      · exact ⟨h.ended i, rfl⟩
    · cases hs
  | prepaid i ok =>
    obtain ⟨sub, hi, hs⟩ := Option.bind_eq_some_iff.mp hs
    rcases h.phases sub (List.mem_of_getElem? hi) with hphase | hphase <;>
    · rw [hphase] at hs
      cases hs
  | paid i ok =>
    obtain ⟨sub, hi, hs⟩ := Option.bind_eq_some_iff.mp hs
    rcases h.phases sub (List.mem_of_getElem? hi) with hphase | hphase <;>
    · rw [hphase] at hs
      cases hs

end

/-- With the answers of the server no order of the page is ever paid for: each creation ends the
submission, the cart stays as the other pages have left it, and no order is shown. -/
theorem checkout_never_pays {env : Env} {q : Query} {address : Option SavedAddress}
    {cart : List Line} {es : List Event} {s : State} (hes : ∀ e ∈ es, e.ServerAnswered env)
    (hr : run (State.step q) (.opened address cart) es = some s) :
    s.Unpaid ∧ s.cart = ((es.filterMap Event.cart).getLast?).getD cart := by
  induction es using List.reverseRecOn generalizing s with
  | nil =>
    rw [run_nil, Option.some.injEq] at hr
    subst hr
    exact ⟨⟨fun sub hsub => absurd hsub List.not_mem_nil, rfl⟩, rfl⟩
  | append_singleton es e ih =>
    obtain ⟨m, hm, hs⟩ := run_snoc (State.step q) hr
    have he := hes e (List.mem_append_right _ List.mem_cons_self)
    obtain ⟨hunpaid, hcart⟩ := ih (fun e' he' => hes e' (List.mem_append_left _ he')) hm
    obtain ⟨hnext, hcart'⟩ := unpaid_step hunpaid he hs
    refine ⟨hnext, ?_⟩
    rw [hcart', hcart, List.filterMap_append]
    cases hstored : e.cart with
    | none => simp [hstored]
    | some stored => simp [hstored]

/-- A user's order is created and answered with success. The page finds no number in the answer: the
cart is as it was, and the button is on for another tap. -/
theorem checkout_never_pays_created :
    let q : Query := ⟨none, none, none, none⟩
    let line : Line := ⟨"7:0", .fin 7, none, .fin 2, .str "a", .str "", .str "", .fin 100, .fin 0⟩
    let opened := State.opened onePage.address [line]
    ∃ body res s, Server.answer .plain (.user (some ⟨1, by decide⟩) (.createOrder body))
        (Server.moment "t2") (Server.start "t0" (fun _ => "t1") .empty) = .ok res ∧
      run (State.step q) opened [.onShow, .submitOrder, .loggedIn 0 true, .created 0 (resolved res)] =
        some s ∧
      s.posted = [body] ∧ s.data.submitting = false ∧ s.Unpaid ∧ s.cart = [line] := by
  intro q line opened
  obtain ⟨body, hbody⟩ := onePage_submitOrder
  obtain ⟨a, _, _, hpayload⟩ := submitOrder_eq hbody
  have hreq : Env.plain.createOrderReq body = .ok (request onePage) :=
    hpayload ▸ Env.plain_parsesOrders _ _ (parsed_payload onePage a)
  obtain ⟨res, hanswer, data, hdata⟩ : ∃ res, Server.answer .plain
      (.user (some ⟨1, by decide⟩) (.createOrder body)) (Server.moment "t2")
      (Server.start "t0" (fun _ => "t1") .empty) = .ok res ∧ ∃ data, resolved res = some data :=
    ⟨_, Server.answer_create hreq, _, rfl⟩
  have hno := createdOrderNo_served hanswer hdata
  -- The page as it is shown, and the tap.
  let shown := opened.showCart onePage.address
  have hpage : shown.data.page = onePage := rfl
  have htapped : shown.submitOrder = { shown with
      data := { shown.data with submitting := true }
      submissions := [⟨body, false, .login⟩] } := by
    unfold State.submitOrder
    rw [hpage, hbody]
    rfl
  obtain ⟨m, hm, hposted, hsub⟩ : ∃ m, run (State.step q) shown.submitOrder [.loggedIn 0 true] =
      some m ∧ m.posted = [body] ∧ m.submissions = [⟨body, false, .creating⟩] := by
    rw [htapped]
    exact ⟨_, rfl, rfl, rfl⟩
  have hlast : m.step q (.created 0 (resolved res)) = some (m.ended 0 none) := by
    unfold State.step
    rw [hsub]
    simp only [List.getElem?_cons_zero, Option.bind_some, State.onCreated, hdata, Option.map_some, hno]
  have hr : run (State.step q) opened [.onShow, .submitOrder, .loggedIn 0 true,
      .created 0 (resolved res)] = some (m.ended 0 none) := by
    have hsplit : [Event.onShow, .submitOrder, .loggedIn 0 true, .created 0 (resolved res)] =
        [.onShow, .submitOrder] ++ ([.loggedIn 0 true] ++ [.created 0 (resolved res)]) := rfl
    have htap : run (State.step q) opened [.onShow, .submitOrder] = some shown.submitOrder := rfl
    rw [hsplit, run_append, htap, Option.bind_some, run_append, hm, Option.bind_some, run_cons, hlast,
      Option.bind_some, run_nil]
  have hes : ∀ e ∈ [Event.onShow, .submitOrder, .loggedIn 0 true, .created 0 (resolved res)],
      e.ServerAnswered .plain := by
    simp only [List.forall_mem_cons]
    exact ⟨trivial, trivial, trivial, Or.inr ⟨_, _, _, _, res, hanswer, rfl⟩, by simp⟩
  obtain ⟨hunpaid, hcart⟩ := checkout_never_pays hes hr
  exact ⟨body, res, _, hanswer, hr, hposted, rfl, hunpaid, hcart⟩

end JtfpMall.Miniapp.CheckoutPage
