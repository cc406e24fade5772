import JtfpMall.Repositories.Pages
import JtfpMall.Server.Exports
import JtfpMall.Server.Mall

/-!
# The pages of the five lists

Each repository with pages writes the same three steps: keep what the query asks for, sort, cut a
page. Read from the first page to the last, the pages hold every row that matches,
once and in the order of the list. The list of the orders joins the user of each order, and the
list of the welfare codes the items of each code.
-/

namespace JtfpMall

open JtfpMall.Js
open JtfpMall.Lib

/-- A filter that is given, and not as an empty text. -/
def given (x : Option String) (keeps : String → Bool) : Bool :=
  x.all fun t => decide (t = "") || keeps t

/-- A filter that is given as a number, of the kind the list takes for one. -/
def givenNumber (taken : JsNum → Bool) (x : Option JsNum) (keeps : JsNum → Bool) : Bool :=
  x.all fun n => !taken n || keeps n

/-- A number that is not zero. -/
def nonzero (n : JsNum) : Bool := n.truthy

/-- A number above zero. -/
def positive (n : JsNum) : Bool := n.truthy && (JsNum.fin 0).lt? n == some true

/-- `x ?? undefined`. -/
def absentNumber (x : Option JsNum) : JsVal := x.elim .undefined .num

/-- The text is in the value. -/
def hasText (kw : String) : JsVal → Bool
  | .str s => decide (kw.toList <:+: s.toList)
  | _ => false

/-- The text the row was created at is not before, or not after, the given one. -/
def notBefore (start : String) (r : Row) : Bool := !textLt (createdText r) start
def notAfter (stop : String) (r : Row) : Bool := !textLt stop (createdText r)

/-- The phone of the address includes the text. -/
def phoneHas (kw : String) (r : Row) : Bool :=
  match (r.get "address_snapshot").toText.bind Json.parse with
  | .ok (.obj fs) => match (Dict.ofList fs).get "phone" with
    | .str s => decide (kw.toList <:+: s.toList)
    | .arr xs => xs.any fun x => x.strictEq (.str kw)
    | _ => false
  | _ => false

structure OrderQuery where
  status : Option String
  orderNo : Option String
  phone : Option String
  startAt : Option String
  endAt : Option String
  userId : Option JsNum

structure ProductQuery where
  keyword : Option String
  categoryId : Option JsNum
  status : Option JsNum

structure PropertyQuery where
  communityName : Option String
  customerPhone : Option String
  authCode : Option String
  startAt : Option String
  endAt : Option String
  keyword : Option String
  categoryId : Option JsNum
  status : Option JsNum

structure ReviewQuery where
  productId : Option JsNum
  userId : Option JsNum
  status : Option JsNum

structure CodeQuery where
  keyword : Option String
  status : Option JsNum
  type : Option String

namespace OrderQuery

def toListQuery (q : OrderQuery) (page pageSize : JsNum) : Orders.ListQuery :=
  { page := some page, pageSize := some pageSize, status := absent q.status,
    orderNo := absent q.orderNo, phone := absent q.phone, startAt := absent q.startAt,
    endAt := absent q.endAt, userId := q.userId }

/-- The order satisfies every given filter. -/
def keeps (q : OrderQuery) (r : Row) : Bool :=
  given q.status (fun x => (r.get "status").strictEq (.str x)) &&
  given q.orderNo (fun x => hasText x (r.get "order_no")) &&
  givenNumber nonzero q.userId (fun n => (r.get "user_id").strictEq (.num n)) &&
  given q.phone (fun x => phoneHas x r) &&
  given q.startAt (fun x => notBefore x r) &&
  given q.endAt (fun x => notAfter x r)

end OrderQuery

namespace ProductQuery

def toListQuery (q : ProductQuery) (page pageSize : JsNum) : Products.ListQuery :=
  { page := some page, pageSize := some pageSize, keyword := absent q.keyword,
    categoryId := q.categoryId, status := absentNumber q.status }

def keeps (env : Env) (q : ProductQuery) (r : Row) : Bool :=
  given q.keyword (fun x => textMatches env (env.lower x) (r.get "title")) &&
  givenNumber positive q.categoryId (fun n => (r.get "category_id").strictEq (.num n)) &&
  givenNumber (fun _ => true) q.status (fun n => (r.get "status").strictEq (.num n))

end ProductQuery

namespace PropertyQuery

def toListQuery (q : PropertyQuery) (page pageSize : JsNum) : Properties.ListQuery :=
  { page := some page, pageSize := some pageSize, communityName := absent q.communityName,
    customerPhone := absent q.customerPhone, authCode := absent q.authCode,
    startAt := absent q.startAt, endAt := absent q.endAt, keyword := absent q.keyword,
    categoryId := q.categoryId, status := absentNumber q.status }

def keeps (env : Env) (q : PropertyQuery) (r : Row) : Bool :=
  given q.communityName (fun x => textMatches env (env.lower x) (r.get "community_name")) &&
  given q.customerPhone (fun x => hasText x (r.get "customer_phone")) &&
  given q.authCode (fun x => hasText x (r.get "auth_code")) &&
  given q.startAt (fun x => notBefore x r) &&
  given q.endAt (fun x => notAfter x r) &&
  given q.keyword (fun x => keywordMatches env (env.lower x) r) &&
  givenNumber positive q.categoryId (fun n => (r.get "category_id").strictEq (.num n)) &&
  givenNumber (fun _ => true) q.status (fun n => (r.get "status").strictEq (.num n))

end PropertyQuery

namespace ReviewQuery

def toListQuery (q : ReviewQuery) (page pageSize : JsNum) : Reviews.ListQuery :=
  { page := some page, pageSize := some pageSize, productId := q.productId, userId := q.userId,
    status := absentNumber q.status }

def keeps (q : ReviewQuery) (r : Row) : Bool :=
  givenNumber nonzero q.productId (fun n => (r.get "product_id").strictEq (.num n)) &&
  givenNumber nonzero q.userId (fun n => (r.get "user_id").strictEq (.num n)) &&
  givenNumber (fun _ => true) q.status (fun n => (r.get "status").strictEq (.num n))

end ReviewQuery

namespace CodeQuery

def toListQuery (q : CodeQuery) (page pageSize : JsNum) : WelfareCodes.ListQuery :=
  { page := some page, pageSize := some pageSize, keyword := absent q.keyword,
    status := absentNumber q.status, type := absent q.type }

def keeps (env : Env) (q : CodeQuery) (r : Row) : Bool :=
  given q.keyword (fun x => textMatches env (env.lower x) (r.get "code") ||
    textMatches env (env.lower x) (r.get "name")) &&
  givenNumber (fun _ => true) q.status (fun n => (r.get "status").strictEq (.num n)) &&
  given q.type (fun x => (r.get "type").strictEq (.str x))

end CodeQuery

/-- A query of one of the lists. -/
inductive ListRequest where
  | orders (q : OrderQuery)
  | products (q : ProductQuery)
  | properties (q : PropertyQuery)
  | reviews (q : ReviewQuery)
  | welfareCodes (q : CodeQuery)

namespace ListRequest

def table : ListRequest → Table
  | .orders _ => .orders
  | .products _ => .products
  | .properties _ => .properties
  | .reviews _ => .reviews
  | .welfareCodes _ => .welfareCodes

/-- The list as the repository gives page `i` of the size. -/
def page (env : Env) (size i : ℕ) : ListRequest → Act (ℕ × List Row)
  | .orders q => Orders.list env (q.toListQuery (.fin i) (.fin size))
  | .products q => Products.list env (q.toListQuery (.fin i) (.fin size))
  | .properties q => Properties.list env (q.toListQuery (.fin i) (.fin size))
  | .reviews q => Reviews.list env (q.toListQuery (.fin i) (.fin size))
  | .welfareCodes q => WelfareCodes.list env (q.toListQuery (.fin i) (.fin size))

/-- The row satisfies every given filter. -/
def keeps (env : Env) (r : Row) : ListRequest → Bool
  | .orders q => q.keeps r
  | .products q => q.keeps env r
  | .properties q => q.keeps env r
  | .reviews q => q.keeps r
  | .welfareCodes q => q.keeps env r

/-- The columns a list joins to its rows. -/
def joined : ListRequest → List String
  | .orders _ =>
    ["user_nickname", "user_phone", "address_name", "address_phone", "address_detail"]
  | .welfareCodes _ => ["sku_codes", "sku_titles"]
  | _ => []

/-- The first page has the number of the rows as its total. The pages up to that total, read one
after another, have it too, hold at most as many rows as their size, and show the rows in
a row, each once. -/
def Pages (env : Env) (s : Store) (size : ℕ) (rows : List Row) (q : ListRequest) : Prop :=
  (∃ first s₁, (q.page env size 1).run s = (.ok first, s₁) ∧ first.1 = rows.length) ∧
  ∃ pages s₂, (readPages (fun i => q.page env size i) 1 (pageCount rows.length size)).run s =
    (.ok pages, s₂) ∧
    (∀ page ∈ pages, page.1 = rows.length ∧ page.2.length ≤ size) ∧
    List.Forall₂ (fun row shown => ∀ c ∉ q.joined, shown.get c = row.get c) rows
      (pages.flatMap Prod.snd)

end ListRequest

/-- The row was created at the time, as `insert` writes it. -/
def CreatedAt (x : Stamp) (r : Row) : Prop := r.get "created_at" = .str x.text

/-- The address snapshot is absent, or the JSON text of a value other than null. -/
def HasSnapshot (r : Row) : Prop :=
  (r.get "address_snapshot").isNullish = true ∨ ∃ text v,
    r.get "address_snapshot" = .str text ∧ Json.parse text = .ok v ∧ v.isNullish = false

/-- A number, or nothing. -/
def IsNumber (v : JsVal) : Prop := v.isNullish = true ∨ ∃ n : JsNum, v = .num n ∧ n.IsDouble

/-- Rows as their interfaces type the columns the lists read. -/
structure TypedRows (s : Store) : Prop where
  arrays : ∀ t, (s.getTable t).length < 2 ^ 32
  created : ∀ t ∈ [Table.orders, .products, .properties, .reviews, .welfareCodes],
    ∀ r ∈ s.getTable t, ∃ x, CreatedAt x r
  orderNo : ∀ r ∈ s.getTable .orders, ∃ x, r.get "order_no" = .str x
  snapshot : ∀ r ∈ s.getTable .orders, HasSnapshot r
  title : ∀ r ∈ s.getTable .products, IsText (r.get "title")
  productWeights : ∀ r ∈ s.getTable .products, ∀ c ∈ ["is_featured", "sort_order"],
    Weighs (fun r => r.get c) r
  propertyTexts : ∀ r ∈ s.getTable .properties,
    ∀ c ∈ ["community_name", "detail_address", "customer_phone", "auth_code"], IsText (r.get c)
  propertyWeights : ∀ r ∈ s.getTable .properties, ∀ c ∈ ["is_featured", "sort_order"],
    IsNumber (r.get c)
  codeTexts : ∀ r ∈ s.getTable .welfareCodes, ∀ c ∈ ["code", "name"], IsText (r.get c)
  itemTexts : ∀ r ∈ s.getTable .welfareCodeItems, ∀ c ∈ ["sku_code", "sku_title"], IsText (r.get c)

/-- The one was not created before the other. -/
def NotEarlier (a b : Row) : Prop := ∃ x y, CreatedAt x a ∧ CreatedAt y b ∧ y ≤ x

section
variable {env : Env} {rows : List Row}

theorem selects_given {x : Option String} {p : Row → Except JsError Bool}
    (keeps : String → Row → Bool)
    (h : ∀ t, x = some t → t ≠ "" → ∀ r ∈ rows, p r = .ok (keeps t r)) :
    Selects (onlyIf (absent x).truthy p) (fun r => given x fun t => keeps t r) rows := by
  cases x with
  | none => exact selects_onlyIf (fun hasked => by cases hasked) fun _ r _ => rfl
  | some t =>
    refine selects_onlyIf (fun hasked r hr => ?_) fun hasked r hr => ?_
    · have ht : t ≠ "" := of_decide_eq_true hasked
      rw [h t rfl ht r hr]
      simp [given, ht]
    · have ht : t = "" := by simpa [absent, JsVal.truthy] using hasked
      simp [given, ht]

theorem selects_number {taken : JsNum → Bool} {x : Option JsNum} {asked : Bool} (column : String)
    (h : asked = x.any taken) :
    Selects (onlyIf asked (columnIs column (x.elim .undefined .num)))
      (fun r => givenNumber taken x fun n => (r.get column).strictEq (.num n)) rows := by
  subst h
  cases x with
  | none => exact selects_onlyIf (fun hasked => by cases hasked) fun _ r _ => rfl
  | some n =>
    refine selects_onlyIf (fun hasked r hr => ?_) fun hasked r hr => ?_
    · have ht : taken n = true := by simpa using hasked
      simp [givenNumber, ht, columnIs]
    · have ht : taken n = false := by simpa using hasked
      simp [givenNumber, ht]

theorem selects_status (x : Option JsNum) (column : String) :
    Selects (onlyIf (absentNumber x != .undefined) (columnIs column (absentNumber x)))
      (fun r => givenNumber (fun _ => true) x fun n => (r.get column).strictEq (.num n)) rows := by
  refine selects_number column ?_
  cases x with
  | none => rfl
  | some n => rfl

theorem selects_column (x : Option String) (column : String) :
    Selects (onlyIf (absent x).truthy (columnIs column (absent x)))
      (fun r => given x fun t => (r.get column).strictEq (.str t)) rows := by
  refine selects_given (fun t r => (r.get column).strictEq (.str t)) fun t hx _ r _ => ?_
  subst hx
  rfl

theorem selects_includes (x : Option String) {column : String}
    (h : ∀ r ∈ rows, IsText (r.get column)) :
    Selects (onlyIf (absent x).truthy (columnIncludes column (absent x)))
      (fun r => given x fun t => hasText t (r.get column)) rows := by
  refine selects_given (fun t r => hasText t (r.get column)) fun t hx _ r hr => ?_
  subst hx
  have htext := h r hr
  unfold columnIncludes
  generalize r.get column = v at htext ⊢
  rcases htext with hnone | ⟨y, rfl⟩
  · cases v <;> first | rfl | cases hnone
  · rfl

theorem createdText_of {x : Stamp} {r : Row} (h : CreatedAt x r) : createdText r = x.text := by
  unfold createdText
  rw [h]
  simp [JsVal.or, JsVal.truthy, x.text_ne_empty]

theorem truthy_created {x : Stamp} {r : Row} (h : CreatedAt x r) :
    (r.get "created_at").truthy = true := by
  rw [h]
  exact decide_eq_true x.text_ne_empty

theorem selects_from (x : Option String) (h : ∀ r ∈ rows, ∃ y, CreatedAt y r) :
    Selects (onlyIf (absent x).truthy (createdFrom (absent x)))
      (fun r => given x fun t => notBefore t r) rows := by
  refine selects_given notBefore fun t hx _ r hr => ?_
  subst hx
  obtain ⟨y, hy⟩ := h r hr
  unfold createdFrom notBefore
  rw [if_pos (truthy_created hy), createdText_of hy, hy]
  change Except.ok (some (textLt y.text t) == some false) = _
  cases textLt y.text t <;> rfl

theorem selects_to (x : Option String) (h : ∀ r ∈ rows, ∃ y, CreatedAt y r) :
    Selects (onlyIf (absent x).truthy (createdTo (absent x)))
      (fun r => given x fun t => notAfter t r) rows := by
  refine selects_given notAfter fun t hx _ r hr => ?_
  subst hx
  obtain ⟨y, hy⟩ := h r hr
  unfold createdTo notAfter
  rw [if_pos (truthy_created hy), createdText_of hy, hy]
  change Except.ok (some (textLt t y.text) == some false) = _
  cases textLt t y.text <;> rfl

/-- The keyword the filters work with. -/
def loweredText (env : Env) (x : Option String) : JsVal :=
  if (absent x).truthy then .str (env.lower (x.getD "")) else .undefined

theorem lowered_absent (env : Env) (name : String) (x : Option String) :
    lowered env name (absent x) = .ok (loweredText env x) := by
  unfold lowered loweredText
  cases x with
  | none => rfl
  | some t =>
    split
    · rfl
    · rfl

theorem loweredText_eq {x : Option String} {t : String} (hx : x = some t) (ht : t ≠ "") :
    loweredText env x = .str (env.lower t) := by
  unfold loweredText
  rw [if_pos (truthy_absent.mpr ⟨t, hx, ht⟩), hx]
  rfl

theorem selects_keyword (env : Env) (x : Option String) {column : String}
    (h : ∀ r ∈ rows, IsText (r.get column)) :
    Selects (onlyIf (absent x).truthy (columnMatches env column (loweredText env x)))
      (fun r => given x fun t => textMatches env (env.lower t) (r.get column)) rows := by
  refine selects_given (fun t r => textMatches env (env.lower t) (r.get column))
    fun t hx ht r hr => ?_
  rw [loweredText_eq hx ht]
  exact columnMatches_text env (h r hr)

/-- The keyword in one of two columns. -/
theorem selects_either (env : Env) (x : Option String) {column column' : String}
    (h : ∀ r ∈ rows, IsText (r.get column)) (h' : ∀ r ∈ rows, IsText (r.get column')) :
    Selects (onlyIf (absent x).truthy (either (columnMatches env column (loweredText env x))
        (columnMatches env column' (loweredText env x))))
      (fun r => given x fun t => textMatches env (env.lower t) (r.get column) ||
        textMatches env (env.lower t) (r.get column')) rows := by
  refine selects_given (fun t r => textMatches env (env.lower t) (r.get column) ||
    textMatches env (env.lower t) (r.get column')) fun t hx ht r hr => ?_
  rw [loweredText_eq hx ht]
  unfold either
  rw [columnMatches_text env (h r hr), columnMatches_text env (h' r hr)]
  cases textMatches env (env.lower t) (r.get column) <;> rfl

/-- Whatever the snapshot holds, the filter of the phone throws on no order. -/
theorem phoneIncludes_eq (kw : String) {r : Row} (h : HasSnapshot r) :
    Orders.phoneIncludes (.str kw) r = .ok (phoneHas kw r) := by
  unfold Orders.phoneIncludes phoneHas
  rcases h with hnone | ⟨text, v, htext, hparse, hv⟩
  · generalize r.get "address_snapshot" = w at hnone ⊢
    cases w <;> first | rfl | cases hnone
  · have hne : text ≠ "" := by
      rintro rfl
      cases hparse
    rw [if_pos (by rw [htext]; exact decide_eq_true hne)]
    unfold Orders.parseAddress
    rw [htext]
    have hread : (JsVal.str text).toText = .ok text := rfl
    have hbind : ∀ f : String → Except JsError JsVal, (Except.ok text >>= f) = f text := fun _ => rfl
    have hbind' : ∀ f : String → Except JsError JsVal, (Except.ok text).bind f = f text :=
      fun _ => rfl
    rw [hread, hbind, hbind', hparse]
    cases v with
    | obj fs =>
      have hphone : ∀ f : JsVal → Except JsError Bool,
          ((Except.ok (JsVal.obj fs) : Except JsError JsVal) >>= fun addr =>
            addr.prop "phone" >>= f) = f ((Dict.ofList fs).get "phone") := fun _ => rfl
      dsimp only
      rw [hphone]
      cases (Dict.ofList fs).get "phone" <;> rfl
    | null => cases hv
    | undefined => cases hv
    | _ => rfl

end

section
variable {env : Env} {s s' : Store}

theorem selects_orders {rows : List Row} (q : OrderQuery) (page size : JsNum)
    (hcreated : ∀ r ∈ rows, ∃ x, CreatedAt x r)
    (hno : q.orderNo ≠ none → ∀ r ∈ rows, ∃ x, r.get "order_no" = .str x)
    (hsnapshot : ∀ r ∈ rows, HasSnapshot r) :
    Selects (q.toListQuery page size).filters q.keeps rows := by
  have hnumber : Selects (onlyIf (absent q.orderNo).truthy
      fun r => (r.get "order_no").includes "r.order_no.includes" (absent q.orderNo))
      (fun r => given q.orderNo fun x => hasText x (r.get "order_no")) rows := by
    refine selects_given (fun t r => hasText t (r.get "order_no")) fun t hx _ r hr => ?_
    obtain ⟨x, hno⟩ := hno (by simp [hx]) r hr
    rw [hx, hno]
    rfl
  have hphone : Selects (onlyIf (absent q.phone).truthy (Orders.phoneIncludes (absent q.phone)))
      (fun r => given q.phone fun x => phoneHas x r) rows := by
    refine selects_given phoneHas fun t hx _ r hr => ?_
    rw [hx]
    exact phoneIncludes_eq t (hsnapshot r hr)
  exact (((((selects_column q.status "status").append hnumber).append
    (selects_number "user_id" rfl)).append hphone).append (selects_from q.startAt hcreated)).append
    (selects_to q.endAt hcreated)

theorem selects_reviews (q : ReviewQuery) (page size : JsNum) :
    Selects (q.toListQuery page size).filters q.keeps (s.getTable .reviews) :=
  ((selects_number "product_id" rfl).append (selects_number "user_id" rfl)).append
    (selects_status q.status "status")

theorem selects_products (env : Env) (h : TypedRows s) (q : ProductQuery) (page size : JsNum) :
    ∃ filters, (q.toListQuery page size).filters env = .ok filters ∧
      Selects filters (q.keeps env) (s.getTable .products) := by
  unfold Products.ListQuery.filters
  change ∃ filters, (lowered env "keyword" (absent q.keyword) >>= _) = .ok filters ∧ _
  rw [lowered_absent]
  exact ⟨_, rfl, ((selects_keyword env q.keyword h.title).append
    (selects_number "category_id" rfl)).append (selects_status q.status "status")⟩

theorem selects_properties (env : Env) (h : TypedRows s) (q : PropertyQuery) (page size : JsNum) :
    ∃ filters, (q.toListQuery page size).filters env = .ok filters ∧
      Selects filters (q.keeps env) (s.getTable .properties) := by
  have hcreated := h.created .properties (by decide)
  have htext : ∀ c ∈ ["community_name", "detail_address", "customer_phone", "auth_code"],
      ∀ r ∈ s.getTable .properties, IsText (r.get c) := fun c hc r hr => h.propertyTexts r hr c hc
  unfold Properties.ListQuery.filters
  change ∃ filters, (lowered env "communityName" (absent q.communityName) >>= _) = .ok filters ∧ _
  rw [lowered_absent]
  change ∃ filters, (lowered env "keyword" (absent q.keyword) >>= _) = .ok filters ∧ _
  rw [lowered_absent]
  exact ⟨_, rfl, (((((((selects_keyword env q.communityName (htext _ (by decide))).append
    (selects_includes q.customerPhone (htext _ (by decide)))).append
    (selects_includes q.authCode (htext _ (by decide)))).append
    (selects_from q.startAt hcreated)).append (selects_to q.endAt hcreated)).append
    (selects_either env q.keyword (htext _ (by decide)) (htext _ (by decide)))).append
    (selects_number "category_id" rfl)).append (selects_status q.status "status")⟩

theorem selects_welfareCodes (env : Env) (h : TypedRows s) (q : CodeQuery) (page size : JsNum) :
    ∃ filters, (q.toListQuery page size).filters env = .ok filters ∧
      Selects filters (q.keeps env) (s.getTable .welfareCodes) := by
  have htext : ∀ c ∈ ["code", "name"], ∀ r ∈ s.getTable .welfareCodes, IsText (r.get c) :=
    fun c hc r hr => h.codeTexts r hr c hc
  unfold WelfareCodes.ListQuery.filters
  change ∃ filters, (lowered env "keyword" (absent q.keyword) >>= _) = .ok filters ∧ _
  rw [lowered_absent]
  exact ⟨_, rfl, ((selects_either env q.keyword (htext _ (by decide)) (htext _ (by decide))).append
    (selects_status q.status "status")).append (selects_column q.type "type")⟩

end

theorem exists_prop {v : JsVal} (h : v.isNullish = false) (name : String) :
    ∃ w, v.prop name = .ok w := by
  cases v <;> first | exact ⟨_, rfl⟩ | cases h

theorem falsy_of_nullish {v : JsVal} (h : v.isNullish = true) : v.truthy = false := by
  cases v <;> first | rfl | cases h

theorem addressData_not_nullish {o : Row} (h : HasSnapshot o) :
    (Orders.addressData o).isNullish = false := by
  unfold Orders.addressData
  split
  · split
    · rename_i htruthy _ v hparse
      rcases h with hnone | ⟨text, w, htext, hw, hne⟩
      · rw [falsy_of_nullish hnone] at htruthy
        cases htruthy
      · unfold Orders.parseAddress at hparse
        rw [htext] at hparse
        change Json.parse text = .ok v at hparse
        rw [hw] at hparse
        cases hparse
        exact hne
    · rfl
  · rfl

theorem exists_withUser (users : List Row) {o : Row} (h : HasSnapshot o) :
    ∃ shown, Orders.withUser users o = .ok shown ∧ ∀ c ∉ ["user_nickname", "user_phone",
      "address_name", "address_phone", "address_detail"], shown.get c = o.get c := by
  have haddress := addressData_not_nullish h
  obtain ⟨name, hname⟩ := exists_prop haddress "name"
  obtain ⟨phone, hphone⟩ := exists_prop haddress "phone"
  obtain ⟨detail, hdetail⟩ := exists_prop haddress "detail"
  obtain ⟨shown, hshown⟩ : ∃ shown, Orders.withUser users o = .ok shown := by
    unfold Orders.withUser
    dsimp only
    rw [hname, hphone, hdetail]
    split
    · exact ⟨_, rfl⟩
    · exact ⟨_, rfl⟩
  refine ⟨shown, hshown, fun c hc => ?_⟩
  simp only [List.mem_cons, List.not_mem_nil, or_false, not_or] at hc
  obtain ⟨_, _, _, _, _, _, _, rfl⟩ := of_withUser_ok hshown
  simp [Dict.get_set, hc]

theorem exists_joined {xs : List JsVal} (h : ∀ x ∈ xs, IsText x) :
    ∃ v, WelfareCodes.joined xs = .ok v := by
  have htexts : ∀ l : List JsVal, (∀ x ∈ l, IsText x) → ∃ ts, JsVal.elementTexts l = .ok ts := by
    intro l hl
    induction l with
    | nil => exact ⟨[], rfl⟩
    | cons x l ih =>
      obtain ⟨ts, hts⟩ := ih fun y hy => hl y (List.mem_cons_of_mem x hy)
      obtain ⟨t, ht⟩ : ∃ t, JsVal.elementTexts (x :: l) = (Except.ok t >>= fun t =>
          JsVal.elementTexts l >>= fun ts => Except.ok (t :: ts)) := by
        rcases hl x List.mem_cons_self with hnone | ⟨t, rfl⟩
        · cases x <;> first | exact ⟨"", rfl⟩ | cases hnone
        · exact ⟨t, rfl⟩
      rw [ht, hts]
      exact ⟨_, rfl⟩
  obtain ⟨ts, hts⟩ := htexts (xs.filter JsVal.truthy) fun x hx => h x (List.mem_of_mem_filter hx)
  unfold WelfareCodes.joined
  rw [hts]
  exact ⟨_, rfl⟩

theorem exists_withItems {items : List Row}
    (h : ∀ r ∈ items, ∀ c ∈ ["sku_code", "sku_title"], IsText (r.get c)) (wc : Row) :
    ∃ shown, WelfareCodes.withItems items wc = .ok shown ∧
      ∀ c ∉ ["sku_codes", "sku_titles"], shown.get c = wc.get c := by
  have hcolumn : ∀ c ∈ ["sku_code", "sku_title"],
      ∃ v, WelfareCodes.joined ((items.filter (WelfareCodes.ofCode (wc.get "id"))).map
        fun i => i.get c) = .ok v := by
    intro c hc
    refine exists_joined fun x hx => ?_
    obtain ⟨r, hr, rfl⟩ := List.mem_map.mp hx
    exact h r (List.mem_of_mem_filter hr) c hc
  obtain ⟨codes, hcodes⟩ := hcolumn "sku_code" (by decide)
  obtain ⟨titles, htitles⟩ := hcolumn "sku_title" (by decide)
  refine ⟨(wc.set "sku_codes" codes).set "sku_titles" titles, ?_, fun c hc => ?_⟩
  · unfold WelfareCodes.withItems
    dsimp only
    rw [hcodes, htitles]
    rfl
  · simp only [List.mem_cons, List.not_mem_nil, or_false, not_or] at hc
    simp [Dict.get_set, hc]

section
variable {env : Env} {s s' : Store} {n i : ℕ}

/-- A list that shows the rows of its table as they are. -/
theorem run_plainList {t : Table} {filters : List (Row → Except JsError Bool)} {keeps : Row → Bool}
    (hc : Consistent (listOrder env t) (s.getTable t)) (hq : Selects filters keeps (s.getTable t))
    (h : Reordered env t s s') (hn : 1 ≤ n) (hn' : n ≤ 100) (hi : i * n + n ≤ 2 ^ 53) :
    ∃ s'', (listed env t filters >>= fun rows =>
      pure (rows.length, paginate (some (.fin (i + 1 : ℕ))) (some (.fin n)) rows)).run s' =
        (.ok (((inOrder env t (s.getTable t)).filter keeps).length,
          pageOf n i ((inOrder env t (s.getTable t)).filter keeps)), s'') ∧
      Reordered env t s s'' := by
  refine run_listed_bind hc hq h fun s'' _ => ?_
  rw [paginate_natCast hn hn' hi]
  rfl

/-- A list that joins rows of another table to those of its own. -/
theorem run_joinedList {t u : Table} (hu : u ≠ t) {filters : List (Row → Except JsError Bool)}
    {keeps : Row → Bool} {join : List Row → Row → Except JsError Row} {f : Row → Row}
    (hc : Consistent (listOrder env t) (s.getTable t)) (hq : Selects filters keeps (s.getTable t))
    (h : Reordered env t s s') (hn : 1 ≤ n) (hn' : n ≤ 100) (hi : i * n + n ≤ 2 ^ 53)
    (hf : ∀ r ∈ s.getTable t, join (s.getTable u) r = .ok (f r)) :
    ∃ s'', (listed env t filters >>= fun rows => Act.getTable u >>= fun others =>
      Action.lift ((paginate (some (.fin (i + 1 : ℕ))) (some (.fin n)) rows).mapM (join others)) >>=
        fun shown => pure (rows.length, shown)).run s' =
        (.ok (((inOrder env t (s.getTable t)).filter keeps).length,
          (pageOf n i ((inOrder env t (s.getTable t)).filter keeps)).map f), s'') ∧
      Reordered env t s s'' := by
  refine run_listed_bind hc hq h fun s'' hs => ?_
  rw [paginate_natCast hn hn' hi]
  have hshown : (pageOf n i ((inOrder env t (s.getTable t)).filter keeps)).mapM
      (join (s.getTable u)) =
        .ok ((pageOf n i ((inOrder env t (s.getTable t)).filter keeps)).map f) := by
    refine mapM_eq_map fun r hr => hf r ?_
    have hkept := List.mem_of_mem_drop (List.mem_of_mem_take hr)
    exact (inOrder_perm env t _).subset (List.mem_of_mem_filter hkept)
  change (Action.lift ((pageOf n i _).mapM (join (s''.getTable u))) >>= fun shown =>
    pure (_, shown)).run s'' = _
  rw [hs.others u hu, hshown]
  rfl

/-- A page of a list, and how the list shows a row. -/
theorem ListRequest.run_page (h : TypedRows s) (q : ListRequest)
    (hc : Consistent (listOrder env q.table) (s.getTable q.table)) (hn : 1 ≤ n) (hn' : n ≤ 100) :
    ∃ f : Row → Row,
      (∀ r ∈ s.getTable q.table, ∀ c ∉ q.joined, (f r).get c = r.get c) ∧
      ∀ i s', i * n + n ≤ 2 ^ 53 → Reordered env q.table s s' → ∃ s'',
        (q.page env n (i + 1)).run s' =
          (.ok (((inOrder env q.table (s.getTable q.table)).filter fun r => q.keeps env r).length,
            (pageOf n i ((inOrder env q.table (s.getTable q.table)).filter
              fun r => q.keeps env r)).map f), s'') ∧
        Reordered env q.table s s'' := by
  cases q with
  | orders q =>
    choose! f hf hcolumns using fun o ho => exists_withUser (s.getTable .users) (h.snapshot o ho)
    refine ⟨f, hcolumns, fun i s' hi hs => ?_⟩
    have hselects : Selects (q.toListQuery (.fin (i + 1 : ℕ)) (.fin n)).filters q.keeps
        (s.getTable .orders) :=
      selects_orders q _ _ (h.created .orders (by decide)) (fun _ => h.orderNo) h.snapshot
    exact run_joinedList (by decide) hc hselects hs hn hn' hi hf
  | products q =>
    refine ⟨id, fun _ _ _ _ => rfl, fun i s' hi hs => ?_⟩
    obtain ⟨filters, hfilters, hselects⟩ :=
      selects_products env h q (.fin (i + 1 : ℕ)) (.fin n)
    change ∃ s'', (Products.list env (q.toListQuery (.fin (i + 1 : ℕ)) (.fin n))).run s' = _ ∧ _
    unfold Products.list
    rw [hfilters, Action.lift_ok_bind, List.map_id]
    exact run_plainList hc hselects hs hn hn' hi
  | properties q =>
    refine ⟨id, fun _ _ _ _ => rfl, fun i s' hi hs => ?_⟩
    obtain ⟨filters, hfilters, hselects⟩ :=
      selects_properties env h q (.fin (i + 1 : ℕ)) (.fin n)
    change ∃ s'', (Properties.list env (q.toListQuery (.fin (i + 1 : ℕ)) (.fin n))).run s' = _ ∧ _
    unfold Properties.list
    rw [hfilters, Action.lift_ok_bind, List.map_id]
    exact run_plainList hc hselects hs hn hn' hi
  | reviews q =>
    refine ⟨id, fun _ _ _ _ => rfl, fun i s' hi hs => ?_⟩
    rw [List.map_id]
    exact run_plainList hc (selects_reviews q _ _) hs hn hn' hi
  | welfareCodes q =>
    choose! f hf hcolumns using exists_withItems h.itemTexts
    refine ⟨f, fun r _ => hcolumns r, fun i s' hi hs => ?_⟩
    obtain ⟨filters, hfilters, hselects⟩ :=
      selects_welfareCodes env h q (.fin (i + 1 : ℕ)) (.fin n)
    change ∃ s'', (WelfareCodes.list env (q.toListQuery (.fin (i + 1 : ℕ)) (.fin n))).run s' = _ ∧ _
    unfold WelfareCodes.list
    rw [hfilters, Action.lift_ok_bind]
    exact run_joinedList (by decide) hc hselects hs hn hn' hi fun r _ => hf r

end

section
variable {env : Env} {s : Store}

theorem dated_of {x : Stamp} {r : Row} (h : CreatedAt x r) : Dated r := by
  refine ⟨x.text, ?_⟩
  rw [h]
  simp [JsVal.or, JsVal.truthy, x.text_ne_empty]

theorem weighs_orZero {column : String} {r : Row} (h : IsNumber (r.get column)) :
    Weighs (fun r => (r.get column).or (.num (.fin 0))) r := by
  unfold Weighs
  dsimp only
  rcases h with hnone | ⟨n, hn, hd⟩
  · refine ⟨.fin 0, ?_, isDouble_zero⟩
    unfold JsVal.or
    rw [falsy_of_nullish hnone]
    rfl
  · rw [hn]
    unfold JsVal.or
    split
    · exact ⟨n, rfl, hd⟩
    · exact ⟨.fin 0, rfl, isDouble_zero⟩

theorem TypedRows.sortable (h : TypedRows s) (q : ListRequest) :
    ∀ r ∈ s.getTable q.table, Sortable q.table r := by
  have hcreated : ∀ r ∈ s.getTable q.table, ∃ x, CreatedAt x r :=
    h.created q.table (by cases q <;> simp [ListRequest.table])
  intro r hr
  obtain ⟨x, hx⟩ := hcreated r hr
  refine ⟨fun read hread => ?_, dated_of hx⟩
  cases q with
  | products q =>
    simp only [ListRequest.table, weights, List.mem_cons, List.not_mem_nil, or_false] at hread
    rcases hread with rfl | rfl
    · exact h.productWeights r hr "is_featured" (by decide)
    · exact h.productWeights r hr "sort_order" (by decide)
  | properties q =>
    simp only [ListRequest.table, weights, List.mem_cons, List.not_mem_nil, or_false] at hread
    rcases hread with rfl | rfl
    · exact weighs_orZero (h.propertyWeights r hr "is_featured" (by decide))
    · exact weighs_orZero (h.propertyWeights r hr "sort_order" (by decide))
  | _ => cases hread

theorem ahead_mono {last last' : Row → Row → Prop} {reads : List (Row → JsVal)} {a b : Row}
    (h : last a b → last' a b) (hab : Ahead last reads a b) : Ahead last' reads a b := by
  induction reads with
  | nil => exact h hab
  | cons read reads ih =>
    rcases hab with hlt | ⟨heq, hab⟩
    · exact Or.inl hlt
    · exact Or.inr ⟨heq, ih hab⟩

/-- The collation orders the times of creation as times. -/
theorem notEarlier_of_isGE
    (hstamps : ∀ x y : Stamp, env.localeCompare x.text y.text = compare x y) {a b : Row}
    {x y : Stamp} (hx : CreatedAt x a) (hy : CreatedAt y b)
    (h : (env.localeCompare (createdText a) (createdText b)).isGE = true) : NotEarlier a b := by
  rw [createdText_of hx, createdText_of hy, hstamps] at h
  exact ⟨x, y, hx, hy, compare_ge_iff_ge.mp (Ordering.isGE_iff_ne_lt.mp h)⟩

theorem pairwise_inOrder [Std.TransCmp env.localeCompare]
    (hstamps : ∀ x y : Stamp, env.localeCompare x.text y.text = compare x y) (h : TypedRows s)
    (q : ListRequest) : (inOrder env q.table (s.getTable q.table)).Pairwise
      (Ahead NotEarlier (weights q.table)) := by
  have hne : q.table ≠ .categories := by cases q <;> simp [ListRequest.table]
  have hcreated : ∀ r ∈ s.getTable q.table, ∃ x, CreatedAt x r :=
    h.created q.table (by cases q <;> simp [ListRequest.table])
  have hc : Consistent (listOrder env q.table) (s.getTable q.table) :=
    consistent_listOrder hne (h.sortable q)
  refine hc.orders.pairwise_insertionSort.imp_of_mem fun {a b} ha hb hab => ?_
  have ha := (inOrder_perm env _ _).subset ha
  have hb := (inOrder_perm env _ _).subset hb
  rw [mayPrecede_listOrder hne (h.sortable q a ha) (h.sortable q b hb)] at hab
  obtain ⟨x, hx⟩ := hcreated a ha
  obtain ⟨y, hy⟩ := hcreated b hb
  exact ahead_mono (notEarlier_of_isGE hstamps hx hy) hab

end

/-- Every table has one order for all its queries and page sizes; the pages of a query show the
rows that match, in this order. The collation of the host puts the times of creation in the order
of time. -/
theorem pages_partition (env : Env) [Std.TransCmp env.localeCompare]
    (hstamps : ∀ x y : Stamp, env.localeCompare x.text y.text = compare x y) (s : Store)
    (hs : TypedRows s) : ∃ ordered : Table → List Row, ∀ q : ListRequest,
      (ordered q.table).Perm (s.getTable q.table) ∧
      (ordered q.table).Pairwise (Ahead NotEarlier (weights q.table)) ∧
      ∀ size, 1 ≤ size → size ≤ 100 →
        q.Pages env s size ((ordered q.table).filter fun r => q.keeps env r) := by
  refine ⟨fun t => inOrder env t (s.getTable t), fun q => ⟨inOrder_perm env _ _,
    pairwise_inOrder hstamps hs q, fun size h1 h100 => ?_⟩⟩
  have hne : q.table ≠ .categories := by cases q <;> simp [ListRequest.table]
  have hc : Consistent (listOrder env q.table) (s.getTable q.table) :=
    consistent_listOrder hne (hs.sortable q)
  obtain ⟨f, hcolumns, hpage⟩ := q.run_page hs hc h1 h100
  have hsub : ∀ r ∈ (inOrder env q.table (s.getTable q.table)).filter fun r => q.keeps env r,
      r ∈ s.getTable q.table := fun r hr =>
    (inOrder_perm env _ _).subset (List.mem_of_mem_filter hr)
  have hlen : ((inOrder env q.table (s.getTable q.table)).filter fun r => q.keeps env r).length <
      2 ^ 32 := by
    refine lt_of_le_of_lt (List.length_filter_le _ _) ?_
    rw [(inOrder_perm env _ _).length_eq]
    exact hs.arrays q.table
  generalize hrows : ((inOrder env q.table (s.getTable q.table)).filter fun r => q.keeps env r) =
    rows at hpage hsub hlen
  obtain ⟨⟨s₁, hfirst⟩, s₂, hall⟩ := run_pagesOf (fun i => q.page env size i)
    (fun i => (rows.length, (pageOf size (i - 1) rows).map f)) h1 h100 hlen hpage
  refine ⟨⟨_, s₁, hfirst, rfl⟩, _, s₂, hall, fun page hmem => ?_, ?_⟩
  · obtain ⟨i, _, rfl⟩ := List.mem_map.mp hmem
    refine ⟨rfl, ?_⟩
    rw [List.length_map]
    exact length_pageOf_le size _ rows
  · rw [flatMap_answers h1 (f := f) fun _ => rfl]
    rw [List.forall₂_map_right_iff, List.forall₂_same]
    exact fun r hr => hcolumns r (hsub r hr)

/-- The first millisecond of the first day of a year. -/
def newYear (year : Fin 10000) : Stamp := ⟨⟨year, 0, 0⟩, ⟨0, 0, 0⟩, 0⟩

/-- Two orders, the older one in front. -/
def twoOrders : List Row :=
  [.ofList [("order_no", .str "1"), ("created_at", .str (newYear 2024).text)],
    .ofList [("order_no", .str "2"), ("created_at", .str (newYear 2025).text)]]

theorem twoOrders_typed : TypedRows (shopWith .orders twoOrders) := by
  have hnone : ∀ t, t ≠ .orders → (shopWith .orders twoOrders).getTable t = [] := by
    intro t ht
    rw [getTable_shopWith, if_neg ht]
  have horders : (shopWith .orders twoOrders).getTable .orders = twoOrders := by
    rw [getTable_shopWith, if_pos rfl]
  have hmem : ∀ {P : Row → Prop}, (∀ r ∈ twoOrders, P r) →
      ∀ r ∈ (shopWith .orders twoOrders).getTable .orders, P r := by
    intro P h
    rwa [horders]
  refine ⟨shopWith_arrays (by decide), fun t _ => ?_, hmem ?_, hmem ?_, ?_, ?_, ?_, ?_, ?_, ?_⟩
  · by_cases ht : t = .orders
    · subst ht
      refine hmem (P := fun r => ∃ x, CreatedAt x r) fun r hr => ?_
      simp only [twoOrders, List.mem_cons, List.not_mem_nil, or_false] at hr
      rcases hr with rfl | rfl
      · exact ⟨newYear 2024, rfl⟩
      · exact ⟨newYear 2025, rfl⟩
    · rw [hnone t ht]
      exact fun r hr => absurd hr List.not_mem_nil
  · intro r hr
    simp only [twoOrders, List.mem_cons, List.not_mem_nil, or_false] at hr
    rcases hr with rfl | rfl
    · exact ⟨"1", rfl⟩
    · exact ⟨"2", rfl⟩
  · intro r hr
    simp only [twoOrders, List.mem_cons, List.not_mem_nil, or_false] at hr
    rcases hr with rfl | rfl
    · exact Or.inl rfl
    · exact Or.inl rfl
  all_goals
    rw [hnone _ (by decide)]
    exact fun r hr => absurd hr List.not_mem_nil

theorem twoOrders_partition : ∃ ordered : Table → List Row, ∀ q : ListRequest,
    (ordered q.table).Perm ((shopWith .orders twoOrders).getTable q.table) ∧
    (ordered q.table).Pairwise (Ahead NotEarlier (weights q.table)) ∧
    ∀ size, 1 ≤ size → size ≤ 100 → q.Pages .plain (shopWith .orders twoOrders) size
      ((ordered q.table).filter fun r => q.keeps .plain r) :=
  pages_partition .plain Stamp.compare_text _ twoOrders_typed

end JtfpMall
