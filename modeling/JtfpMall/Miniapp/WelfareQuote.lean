import JtfpMall.Lib.Run
import JtfpMall.Miniapp.Checkout
import JtfpMall.Miniapp.ProductPage

/-!
# The welfare code of the product page

Each complete code is asked about after a pause, and an answer is shown as it comes. An edit cancels
the pause but no request, and an answer does not say which code it is about.
-/

namespace JtfpMall.Miniapp

open JtfpMall.Js
open JtfpMall.Lib
open Cart

structure QuoteRequest where
  productId : JsVal
  code : String

/-- The answer to a request, as the page reads it. -/
structure Quote where
  ok : Bool
  priceCent : JsNum
  note : String
  maxUsage : JsNum
  usedCount : JsNum
  remainingUsage : JsNum

structure QuotePage extends ProductPage where
  welfareCode : String
  welfareChecked : Bool
  welfareValid : Bool
  welfarePriceCent : JsNum
  welfareNote : String
  welfareError : String
  welfareMaxUsage : JsNum
  welfareUsedCount : JsNum
  welfareRemainingUsage : JsNum
  /-- The code the timer is set for. -/
  timer : Option String
  inFlight : List QuoteRequest
  /-- What the server has answered so far, with the code asked about. -/
  quoted : List (String × Quote)

/-- The query `buyNow` hands to the checkout. -/
structure WelfareQuery where
  productId : JsVal
  inviteCode : String
  welfarePriceCent : JsNum
  welfareNote : String

inductive QuoteEvent where
  | loadDetail (product : Product) (skus : List Sku)
  | onWelfareCodeInput (value : String)
  | timeout
  | answer (request : ℕ) (data : JsVal)
  | failure (request : ℕ) (message : String)
  | buyNow

def invalidWelfareMsg : String := "您输入的福利码错误，请输入正确码，否则无法通过福利通道下单。"

/-- `value.replace(/\D/g, '').slice(0, 6)`. -/
def typedCode (value : String) : String := String.ofList ((value.toList.filter isDigit).take 6)

def Quote.read (data : JsVal) : Except JsError Quote := do
  let ok ← data.optionalProp "ok"
  let priceCent ← ((← data.optionalProp "priceCent").or (.num (.fin 0))).toNumber
  let note ← ((← data.optionalProp "note").or (.str "")).toText
  let maxUsage ← ((← data.optionalProp "maxUsage").or (.num (.fin 1))).toNumber
  let usedCount ← ((← data.optionalProp "usedCount").or (.num (.fin 0))).toNumber
  let remainingUsage ← ((← data.optionalProp "remainingUsage").or (.num (.fin 0))).toNumber
  return ⟨ok.truthy, priceCent, note, maxUsage, usedCount, remainingUsage⟩

namespace QuotePage

def opened : QuotePage where
  toProductPage := .opened
  welfareCode := ""
  welfareChecked := false
  welfareValid := false
  welfarePriceCent := .fin 0
  welfareNote := ""
  welfareError := ""
  welfareMaxUsage := .fin 1
  welfareUsedCount := .fin 0
  welfareRemainingUsage := .fin 0
  timer := none
  inFlight := []
  quoted := []

/-- What an incomplete code and a failure set. -/
def unquoted (checked : Bool) (error : String) (page : QuotePage) : QuotePage :=
  { page with
    welfareChecked := checked
    welfareValid := false
    welfarePriceCent := .fin 0
    welfareNote := ""
    welfareError := error
    welfareMaxUsage := .fin 1
    welfareUsedCount := .fin 0
    welfareRemainingUsage := .fin 0 }

def onWelfareCodeInput (value : String) (page : QuotePage) : QuotePage :=
  let page := { page with welfareCode := typedCode value, timer := none }
  if (typedCode value).toList.length = 6 then { page with timer := some (typedCode value) }
  else page.unquoted false ""

/-- The request `checkWelfareCode` makes. -/
def checkWelfareCode (code : String) (page : QuotePage) : Option QuoteRequest :=
  match page.product with
  | none => none
  | some product => match product.isWelfare with
    | .ok true => if sixDigits (trim code) then some ⟨product.id, trim code⟩ else none
    | _ => none

def onTimeout (code : String) (page : QuotePage) : QuotePage :=
  { page with timer := none, inFlight := page.inFlight ++ (page.checkWelfareCode code).toList }

/-- The `catch` of `checkWelfareCode`. -/
def onFailure (message : String) (page : QuotePage) : QuotePage :=
  page.unquoted true (if message = "" then invalidWelfareMsg else message)

def onQuote (code : String) (quote : Quote) (page : QuotePage) : QuotePage :=
  { page with
    welfareChecked := true
    welfareValid := quote.ok
    welfarePriceCent := quote.priceCent
    welfareNote := quote.note
    welfareError := ""
    welfareMaxUsage := quote.maxUsage
    welfareUsedCount := quote.usedCount
    welfareRemainingUsage := quote.remainingUsage
    quoted := page.quoted ++ [(code, quote)] }

/-- The request is answered: it is no longer in flight. -/
def arrived (page : QuotePage) (i : ℕ) : QuotePage :=
  { page with inFlight := page.inFlight.eraseIdx i }

def onAnswer (code : String) (data : JsVal) (page : QuotePage) : QuotePage :=
  match Quote.read data with
  | .ok quote => page.onQuote code quote
  | .error e => page.onFailure e.message

/-- `buyNow` of a welfare product. -/
def buyNow (page : QuotePage) : Option WelfareQuery :=
  match page.product with
  | none => none
  | some product => match product.isWelfare with
    | .ok true =>
      if page.welfareValid then
        some ⟨product.id, trim page.welfareCode, page.welfarePriceCent, page.welfareNote⟩
      else none
    | _ => none

def step (page : QuotePage) : QuoteEvent → Option QuotePage
  | .loadDetail product skus =>
    some { page with toProductPage := page.toProductPage.loadDetail product skus }
  | .onWelfareCodeInput value => some (page.onWelfareCodeInput value)
  | .timeout => page.timer.map fun code => page.onTimeout code
  | .answer i data => (page.inFlight[i]?).map fun request =>
      (page.arrived i).onAnswer request.code data
  | .failure i message => (page.inFlight[i]?).map fun _ => (page.arrived i).onFailure message
  | .buyNow => some page

/-- The server has accepted the code, with this price and note. -/
def QuotedAs (page : QuotePage) (code : String) (priceCent : JsNum) (note : String) : Prop :=
  ∃ quote, (code, quote) ∈ page.quoted ∧ quote.ok = true ∧ quote.priceCent = priceCent ∧
    quote.note = note

/-- What is shown as valid is a complete code and what the server quoted for it. -/
def Matches (page : QuotePage) : Prop :=
  page.welfareValid = true → sixDigits page.welfareCode = true ∧
    page.QuotedAs page.welfareCode page.welfarePriceCent page.welfareNote

/-- What is bought is bought as quoted. -/
def Sound (page : QuotePage) : Prop :=
  page.Matches ∧ ∀ query, page.buyNow = some query →
    page.QuotedAs query.inviteCode query.welfarePriceCent query.welfareNote

/-- An edit that leaves a valid mark standing is to a code with the same quote; a code is accepted
while it is on screen, or a code with the same quote. -/
def Agrees (page : QuotePage) : QuoteEvent → Prop
  | .onWelfareCodeInput value => page.welfareValid = true → (typedCode value).toList.length = 6 →
      page.QuotedAs (typedCode value) page.welfarePriceCent page.welfareNote
  | .answer i data => ∀ request, page.inFlight[i]? = some request → ∀ quote,
      Quote.read data = .ok quote → quote.ok = true → request.code = page.welfareCode ∨
        page.QuotedAs page.welfareCode quote.priceCent quote.note
  | _ => True

theorem sixDigits_typedCode {value : String} (h : (typedCode value).toList.length = 6) :
    sixDigits (typedCode value) = true := by
  unfold sixDigits
  rw [decide_eq_true h, Bool.true_and]
  unfold typedCode
  rw [String.toList_ofList, List.all_eq_true]
  exact fun c hc => List.of_mem_filter (List.mem_of_mem_take hc)

theorem isSpace_of_isDigit {c : Char} (h : isDigit c = true) : isSpace c = false := by
  unfold isDigit at h
  rw [Bool.and_eq_true, decide_eq_true_eq, decide_eq_true_eq] at h
  have hlow : 48 ≤ c.toNat := h.1
  have hhigh : c.toNat ≤ 57 := h.2
  unfold isSpace
  simp
  omega

theorem dropWhile_isSpace {cs : List Char} (h : ∀ c ∈ cs, isSpace c = false) :
    cs.dropWhile isSpace = cs := by
  cases cs with
  | nil => rfl
  | cons c cs =>
    rw [List.dropWhile_cons_of_neg]
    rw [h c List.mem_cons_self]
    exact Bool.false_ne_true

theorem trim_sixDigits {code : String} (h : sixDigits code = true) : trim code = code := by
  unfold sixDigits at h
  rw [Bool.and_eq_true, List.all_eq_true] at h
  have hspace : ∀ c ∈ code.toList, isSpace c = false := fun c hc => isSpace_of_isDigit (h.2 c hc)
  unfold trim trimChars
  rw [dropWhile_isSpace hspace, dropWhile_isSpace fun c hc => hspace c (List.mem_reverse.mp hc),
    List.reverse_reverse, String.ofList_toList]

/-- What is asked about and what is quoted are complete codes. -/
structure Ok (page : QuotePage) : Prop where
  shown : page.Matches
  asked : ∀ request ∈ page.inFlight, sixDigits request.code = true
  answered : ∀ p ∈ page.quoted, sixDigits p.1 = true

section
variable {page page' : QuotePage}

theorem ok_opened : opened.Ok :=
  ⟨fun h => absurd h Bool.false_ne_true, fun _ h => absurd h List.not_mem_nil,
    fun _ h => absurd h List.not_mem_nil⟩

theorem matches_unquoted (checked : Bool) (error : String) (page : QuotePage) :
    (page.unquoted checked error).Matches := fun h => absurd h Bool.false_ne_true

theorem Matches.sound (h : page.Matches) : page.Sound := by
  refine ⟨h, fun query hquery => ?_⟩
  unfold buyNow at hquery
  split at hquery
  · cases hquery
  · split at hquery
    · split at hquery
      · rename_i hvalid
        cases hquery
        obtain ⟨hsix, hquoted⟩ := h hvalid
        rw [trim_sixDigits hsix]
        exact hquoted
      · cases hquery
    · cases hquery

theorem sound_iff : page.Sound ↔ page.Matches := ⟨fun h => h.1, Matches.sound⟩

theorem Ok.sound (h : page.Ok) : page.Sound := h.shown.sound

theorem mem_arrived {i : ℕ} {request : QuoteRequest} (h : request ∈ (page.arrived i).inFlight) :
    request ∈ page.inFlight := (List.eraseIdx_subset : _ ⊆ page.inFlight) h

theorem matches_input_iff (value : String) : (page.onWelfareCodeInput value).Matches ↔
    page.Agrees (.onWelfareCodeInput value) := by
  unfold onWelfareCodeInput Agrees
  dsimp only
  split
  · rename_i hsix
    constructor
    · exact fun h hvalid _ => (h hvalid).2
    · exact fun h hvalid => ⟨sixDigits_typedCode hsix, h hvalid hsix⟩
  · rename_i hshort
    exact iff_of_true (matches_unquoted _ _ _) fun _ hsix => absurd hsix hshort

theorem matches_quote_iff {code : String} (hcode : sixDigits code = true) (quote : Quote)
    (hpage : ∀ p ∈ page.quoted, sixDigits p.1 = true) : (page.onQuote code quote).Matches ↔
    (quote.ok = true → code = page.welfareCode ∨
      page.QuotedAs page.welfareCode quote.priceCent quote.note) := by
  unfold Matches QuotedAs
  change (quote.ok = true → sixDigits page.welfareCode = true ∧ ∃ q,
    (page.welfareCode, q) ∈ page.quoted ++ [(code, quote)] ∧ q.ok = true ∧
      q.priceCent = quote.priceCent ∧ q.note = quote.note) ↔ _
  refine forall_congr' fun hok => ?_
  constructor
  · rintro ⟨_, q, hmem, hq⟩
    rcases List.mem_append.mp hmem with hmem | hmem
    · exact Or.inr ⟨q, hmem, hq⟩
    · exact Or.inl (Prod.mk.inj (List.mem_singleton.mp hmem)).1.symm
  · rintro (rfl | ⟨q, hmem, hq⟩)
    · exact ⟨hcode, quote, List.mem_append_right _ (List.mem_singleton_self _), hok, rfl, rfl⟩
    · exact ⟨hpage _ hmem, q, List.mem_append_left _ hmem, hq⟩

theorem matches_answer_iff {code : String} (hcode : sixDigits code = true) (data : JsVal)
    (hpage : ∀ p ∈ page.quoted, sixDigits p.1 = true) : (page.onAnswer code data).Matches ↔
    ∀ quote, Quote.read data = .ok quote → quote.ok = true → code = page.welfareCode ∨
      page.QuotedAs page.welfareCode quote.priceCent quote.note := by
  unfold onAnswer
  cases Quote.read data with
  | error e => exact iff_of_true (matches_unquoted _ _ _) fun _ h => nomatch h
  | ok quote =>
    simp only [Except.ok.injEq, forall_eq']
    exact matches_quote_iff hcode quote hpage

/-- Whether a step agrees is whether it leaves on screen what was quoted. -/
theorem Ok.agrees_iff (h : page.Ok) (e : QuoteEvent) :
    page.Agrees e ↔ ∀ page', page.step e = some page' → page'.Sound := by
  simp only [sound_iff]
  cases e with
  | loadDetail product skus =>
    simp only [step, Option.some.injEq, forall_eq']
    exact iff_of_true trivial h.shown
  | onWelfareCodeInput value =>
    simp only [step, Option.some.injEq, forall_eq']
    exact (matches_input_iff value).symm
  | timeout =>
    refine iff_of_true trivial fun page' hstep => ?_
    obtain ⟨code, _, rfl⟩ := Option.map_eq_some_iff.mp hstep
    exact h.shown
  | answer i data =>
    simp only [Agrees, step]
    cases hi : page.inFlight[i]? with
    | none => simp
    | some request =>
      have hcode := h.asked request (List.mem_of_getElem? hi)
      simp only [Option.map_some, Option.some.injEq, forall_eq']
      exact (@matches_answer_iff (page.arrived i) _ hcode data h.answered).symm
  | failure i message =>
    refine iff_of_true trivial fun page' hstep => ?_
    obtain ⟨request, _, rfl⟩ := Option.map_eq_some_iff.mp hstep
    exact matches_unquoted _ _ _
  | buyNow =>
    simp only [step, Option.some.injEq, forall_eq']
    exact iff_of_true trivial h.shown

theorem sixDigits_checkWelfareCode {code : String} {request : QuoteRequest}
    (h : page.checkWelfareCode code = some request) : sixDigits request.code = true := by
  unfold checkWelfareCode at h
  split at h
  · cases h
  · split at h
    · split at h
      · rename_i hsix
        cases h
        exact hsix
      · cases h
    · cases h

theorem quoted_onAnswer {code : String} (hcode : sixDigits code = true) (data : JsVal)
    (h : ∀ p ∈ page.quoted, sixDigits p.1 = true) :
    ∀ p ∈ (page.onAnswer code data).quoted, sixDigits p.1 = true := by
  unfold onAnswer
  split
  · intro p hp
    rcases List.mem_append.mp hp with hp | hp
    · exact h p hp
    · rw [List.mem_singleton.mp hp]
      exact hcode
  · exact h

theorem inFlight_onAnswer (code : String) (data : JsVal) (page : QuotePage) :
    (page.onAnswer code data).inFlight = page.inFlight := by
  unfold onAnswer
  split <;> rfl

theorem kept_onWelfareCodeInput (value : String) (page : QuotePage) :
    (page.onWelfareCodeInput value).inFlight = page.inFlight ∧
      (page.onWelfareCodeInput value).quoted = page.quoted := by
  unfold onWelfareCodeInput
  dsimp only
  split <;> exact ⟨rfl, rfl⟩

theorem Ok.step (h : page.Ok) {e : QuoteEvent} (hagrees : page.Agrees e)
    (hstep : page.step e = some page') : page'.Ok := by
  have hshown := ((h.agrees_iff e).mp hagrees page' hstep).1
  cases e with
  | loadDetail product skus =>
    cases hstep
    exact ⟨hshown, h.asked, h.answered⟩
  | onWelfareCodeInput value =>
    rw [QuotePage.step, Option.some.injEq] at hstep
    subst hstep
    obtain ⟨hinFlight, hquoted⟩ := kept_onWelfareCodeInput value page
    refine ⟨hshown, ?_, ?_⟩
    · rw [hinFlight]
      exact h.asked
    · rw [hquoted]
      exact h.answered
  | timeout =>
    obtain ⟨code, _, rfl⟩ := Option.map_eq_some_iff.mp hstep
    refine ⟨hshown, fun request hrequest => ?_, h.answered⟩
    have hin : request ∈ page.inFlight ++ (page.checkWelfareCode code).toList := hrequest
    rw [List.mem_append, Option.mem_toList] at hin
    rcases hin with hin | hin
    · exact h.asked request hin
    · exact sixDigits_checkWelfareCode hin
  | answer i data =>
    obtain ⟨request, hi, rfl⟩ := Option.map_eq_some_iff.mp hstep
    have hcode := h.asked request (List.mem_of_getElem? hi)
    refine ⟨hshown, fun r hr => h.asked r (mem_arrived (i := i) ?_),
      quoted_onAnswer hcode data h.answered⟩
    rwa [inFlight_onAnswer] at hr
  | failure i message =>
    obtain ⟨request, _, rfl⟩ := Option.map_eq_some_iff.mp hstep
    exact ⟨hshown, fun r hr => h.asked r (mem_arrived (i := i) hr), h.answered⟩
  | buyNow =>
    cases hstep
    exact h

end

end QuotePage

/-- **The quote on screen.** Along any events from the opened page what is shown as valid, and what
is bought, is what the server quoted for the code on screen, wherever one stops, exactly when every
step agrees. -/
theorem quote_matches_iff (es : List QuoteEvent) :
    Along QuotePage.step QuotePage.Agrees .opened es ↔ ∀ front rest page, es = front ++ rest →
      run QuotePage.step .opened front = some page → page.Sound :=
  along_iff_forall QuotePage.step (fun _ h => h.sound) (fun _ e h => h.agrees_iff e)
    (fun _ _ _ h hagrees hstep => h.step hagrees hstep) QuotePage.ok_opened es

def giftBox : Product := ⟨.num (.fin 1), .str "", .str "", .num (.fin 100), .num (.fin 1)⟩

/-- The answer about the first code comes when the second is on screen. -/
def lateAnswer : List QuoteEvent :=
  [.loadDetail giftBox [], .onWelfareCodeInput "111111", .timeout, .onWelfareCodeInput "222222",
    .answer 0 (.obj [("ok", .bool true), ("priceCent", .num (.fin 100))])]

theorem lateAnswer_mismatch : ¬ ∀ front rest page, lateAnswer = front ++ rest →
    run QuotePage.step .opened front = some page → page.Sound := by
  intro hall
  have hrun : ((run QuotePage.step .opened lateAnswer).map fun page =>
      (page.welfareValid, page.welfareCode, page.quoted.map Prod.fst)) =
      some (true, "222222", ["111111"]) := by
    decide +kernel
  obtain ⟨page, hpage, heq⟩ := Option.map_eq_some_iff.mp hrun
  simp only [Prod.mk.injEq] at heq
  obtain ⟨hvalid, hcode, hquoted⟩ := heq
  obtain ⟨_, quote, hmem, _⟩ := (hall lateAnswer [] page (List.append_nil _).symm hpage).1 hvalid
  have hin : page.welfareCode ∈ page.quoted.map Prod.fst := List.mem_map_of_mem hmem
  rw [hquoted, hcode] at hin
  exact absurd hin (by decide)

end JtfpMall.Miniapp
