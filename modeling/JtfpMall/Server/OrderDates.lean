import JtfpMall.Server.PagedLists
import JtfpMall.Server.SkuLibrary

/-!
# Orders of a range of days

The admin list of the orders takes a first and a last day, writes a time of day behind each of
them, after a blank, and compares the texts with the times of creation, which have a `T` in
the same place. A blank stands before a `T`, whatever follows: the range begins with its first day
and ends before its last.
-/

namespace JtfpMall

open JtfpMall.Js
open JtfpMall.Lib

/-- The query for page `i` of the size, with the days that are given. -/
def rangeText (first last : Option Day) (size i : ℕ) : Row :=
  .ofList ([("page", .str (toString i)), ("pageSize", .str (toString size))] ++
    first.elim [] (fun d => [("startDate", .str d.text)]) ++
    last.elim [] fun d => [("endDate", .str d.text)])

/-- GET /api/v1/admin/orders with this query. -/
def rangePage (env : Env) (first last : Option Day) (size i : ℕ) : Act Response :=
  AdminOrderRoutes.list env (rangeText first last size i)

/-- The order was created on one of the days, of which the first and the last count. -/
def InRange (first last : Option Day) (o : Row) : Prop :=
  ∃ x, CreatedAt x o ∧ (∀ d, first = some d → d ≤ x.day) ∧ ∀ d, last = some d → x.day ≤ d

/-- An order as the store has it: when it was created is written by `insert`, its status is a
text, and its snapshot is absent or the JSON text of a value. -/
structure StoredOrder (o : Row) : Prop where
  created : ∃ x, CreatedAt x o
  status : ∃ x, o.get "status" = .str x
  snapshot : HasSnapshot o

/-- The columns the list joins to an order, and those the router adds. -/
def addedToOrder : List String :=
  ["user_nickname", "user_phone", "address_name", "address_phone", "address_detail", "status_cn",
    "receiver_name", "receiver_phone", "receiver_address"]

open Classical in
/-- The totals count the orders of the range, and the pages up to the total show each of them
once. -/
def RangeShown (env : Env) (s : Store) (first last : Option Day) (size : ℕ) : Prop :=
  ∃ rows, rows.Perm ((s.getTable .orders).filter fun o => decide (InRange first last o)) ∧
    (∃ res s₁, (rangePage env first last size 1).run s = (.ok res, s₁) ∧
      res.HasTotal rows.length) ∧
    ∃ pages s₂, (readPages (rangePage env first last size) 1 (pageCount rows.length size)).run s =
      (.ok pages, s₂) ∧ (∀ res ∈ pages, res.HasTotal rows.length) ∧
      List.Forall₂ (fun o shown => ∀ c ∉ addedToOrder, shown.get c = o.get c) rows
        (pages.flatMap (Response.rowsIn "orders"))

/-- No order was created on the last day, if there is one. -/
def LastDayEmpty (s : Store) (last : Option Day) : Prop :=
  ∀ d, last = some d → ∀ o ∈ s.getTable .orders, ∀ x, CreatedAt x o → x.day ≠ d

/-- The text of one end of the range. -/
def endText (time : String) (d : Day) : String := d.text ++ " " ++ time

/-- The query behind the request. -/
def rangeQuery (first last : Option Day) : OrderQuery :=
  { status := none, orderNo := none, phone := none, startAt := first.map (endText "00:00:00"),
    endAt := last.map (endText "23:59:59"), userId := none }

section
variable {first last : Option Day} {x : Stamp} {o : Row}

theorem endText_eq (time : String) (d : Day) :
    endText time d = .ofList (d.chars ++ ' ' :: time.toList) := by
  apply String.toList_injective
  simp [endText, Day.text, String.toList_append, String.toList_ofList]

theorem endText_ne_empty (time : String) (d : Day) : endText time d ≠ "" := by
  intro h
  have hlen := congrArg (fun t => t.toList.length) h
  simp [endText_eq] at hlen

theorem oneUnit_of_all {cs : List Char} (h : cs.all (fun c => decide (c.toNat < 0x10000)) = true) :
    OneUnit cs := fun c hc => of_decide_eq_true (List.all_eq_true.mp h c hc)

theorem notBefore_endText (time : String) (ht : OneUnit time.toList) (hx : CreatedAt x o) (d : Day) :
    notBefore (endText time d) o = decide (d ≤ x.day) := by
  unfold notBefore
  rw [createdText_of hx, endText_eq, x.textLt_of_beforeT (Stamp.beforeT_blank ht), ← decide_not]
  exact decide_eq_decide.mpr not_lt

theorem notAfter_endText (time : String) (ht : OneUnit time.toList) (hx : CreatedAt x o) (d : Day) :
    notAfter (endText time d) o = decide (x.day < d) := by
  unfold notAfter
  rw [createdText_of hx, endText_eq, x.textLt_beforeT (Stamp.beforeT_blank ht), ← decide_not]
  exact decide_eq_decide.mpr not_le

/-- The list keeps the days from the first on, but only those before the last. -/
theorem keeps_rangeQuery (hx : CreatedAt x o) : (rangeQuery first last).keeps o = true ↔
    (∀ d, first = some d → d ≤ x.day) ∧ ∀ d, last = some d → x.day < d := by
  have hfrom : given (first.map (endText "00:00:00")) (fun t => notBefore t o) = true ↔
      ∀ d, first = some d → d ≤ x.day := by
    cases first with
    | none => simp [given]
    | some d =>
      have hday := notBefore_endText "00:00:00" (oneUnit_of_all (by decide)) hx d
      simp [given, endText_ne_empty, hday]
  have hto : given (last.map (endText "23:59:59")) (fun t => notAfter t o) = true ↔
      ∀ d, last = some d → x.day < d := by
    cases last with
    | none => simp [given]
    | some d =>
      have hday := notAfter_endText "23:59:59" (oneUnit_of_all (by decide)) hx d
      simp [given, endText_ne_empty, hday]
  rw [← hfrom, ← hto, ← Bool.and_eq_true]
  simp [OrderQuery.keeps, rangeQuery, given, givenNumber]

theorem inRange_iff (hx : CreatedAt x o) : InRange first last o ↔
    (∀ d, first = some d → d ≤ x.day) ∧ ∀ d, last = some d → x.day ≤ d := by
  constructor
  · rintro ⟨y, hy, hrange⟩
    have heq : x.text = y.text := JsVal.str.inj (hx.symm.trans hy)
    rwa [Stamp.text_injective heq]
  · exact fun h => ⟨x, hx, h⟩

end

section
variable {env : Env} {s s' : Store} {size i : ℕ}

theorem get_rangeText (first last : Option Day) (size i : ℕ) :
    (rangeText first last size i).get "page" = .str (toString i) ∧
    (rangeText first last size i).get "pageSize" = .str (toString size) ∧
    (rangeText first last size i).get "startDate" = absent (first.map Day.text) ∧
    (rangeText first last size i).get "endDate" = absent (last.map Day.text) ∧
    ∀ c ∈ ["status", "orderNo", "phone", "startAt", "endAt"],
      (rangeText first last size i).get c = .undefined := by
  unfold rangeText
  cases first <;> cases last <;> simp [Dict.ofList, Dict.get_set, absent]

theorem text_ne_empty (d : Day) : d.text ≠ "" := by
  intro h
  have hlen := congrArg (fun t => t.toList.length) h
  simp [Day.text, Day.chars, fields] at hlen

theorem rangeEnd_eq {query : Row} {at_ date : String} (time : String) {x : Option Day}
    (hat : query.get at_ = .undefined) (hdate : query.get date = absent (x.map Day.text)) :
    AdminOrderRoutes.rangeEnd query at_ date time = .ok (absent (x.map (endText time))) := by
  unfold AdminOrderRoutes.rangeEnd
  rw [hat, hdate]
  cases x with
  | none => rfl
  | some d =>
    have htruthy : (JsVal.str d.text).truthy = true := decide_eq_true (text_ne_empty d)
    simp only [Option.map_some, absent, Option.elim_some, htruthy]
    rfl

/-- The list the request asks the repository for. -/
theorem run_orderPage (first last : Option Day) (h : ∀ o ∈ s.getTable .orders, StoredOrder o)
    (hc : Consistent (listOrder env .orders) (s.getTable .orders)) (hn : 1 ≤ size) (hn' : size ≤ 100)
    {f : Row → Row}
    (hf : ∀ o ∈ s.getTable .orders, Orders.withUser (s.getTable .users) o = .ok (f o))
    (hs : Reordered env .orders s s') (hi : i * size + size ≤ 2 ^ 53) : ∃ s'',
      (Orders.list env ((rangeQuery first last).toListQuery (.fin (i + 1 : ℕ)) (.fin size))).run s' =
        (.ok (((inOrder env .orders (s.getTable .orders)).filter (rangeQuery first last).keeps).length,
          (pageOf size i ((inOrder env .orders (s.getTable .orders)).filter
            (rangeQuery first last).keeps)).map f), s'') ∧
      Reordered env .orders s s'' := by
  have hselects : Selects ((rangeQuery first last).toListQuery (.fin (i + 1 : ℕ)) (.fin size)).filters
      (rangeQuery first last).keeps (s.getTable .orders) :=
    selects_orders _ _ _ (fun o ho => (h o ho).created) (fun hno => absurd rfl hno)
      fun o ho => (h o ho).snapshot
  exact run_joinedList (by decide) hc hselects hs hn hn' hi hf

theorem exists_statusCn (x : String) : ∃ cn, AdminOrderRoutes.statusCn (.str x) = .ok cn := by
  have htext : (JsVal.str x).toText = .ok x := rfl
  unfold AdminOrderRoutes.statusCn
  rw [htext]
  dsimp only [bind, Except.bind]
  split
  · exact ⟨_, rfl⟩
  · split
    · exact ⟨_, rfl⟩
    · split
      · exact ⟨_, rfl⟩
      · exact ⟨_, rfl⟩

theorem or_object_not_nullish (v : JsVal) : (v.or (.obj [])).isNullish = false := by
  unfold JsVal.or
  split
  · rename_i htruthy
    by_contra hnull
    rw [falsy_of_nullish (by simpa using hnull)] at htruthy
    cases htruthy
  · rfl

theorem exists_forList {o : Row} (h : ∃ x, o.get "status" = .str x) :
    ∃ shown, AdminOrderRoutes.forList o = .ok shown ∧
      ∀ c ∉ ["status_cn", "receiver_name", "receiver_phone", "receiver_address"],
        shown.get c = o.get c := by
  obtain ⟨x, hx⟩ := h
  have hcn : ∃ cn, AdminOrderRoutes.statusCn (o.get "status") = .ok cn := by
    rw [hx]
    exact exists_statusCn x
  have haddress : (AdminOrderRoutes.safeJsonParse (o.get "address_snapshot")).isNullish = false :=
    or_object_not_nullish _
  obtain ⟨cn, hcn⟩ := hcn
  obtain ⟨name, hname⟩ := exists_prop haddress "name"
  obtain ⟨phone, hphone⟩ := exists_prop haddress "phone"
  obtain ⟨detail, hdetail⟩ := exists_prop haddress "detail"
  obtain ⟨address, haddr⟩ := exists_prop haddress "address"
  unfold AdminOrderRoutes.forList
  dsimp only
  rw [hcn, hname, hphone, hdetail, haddr]
  refine ⟨_, rfl, fun c hc => ?_⟩
  simp only [List.mem_cons, List.not_mem_nil, or_false, not_or] at hc
  simp [Dict.get_set, hc]

/-- How the admin list shows an order. -/
theorem exists_shownOrder (h : ∀ o ∈ s.getTable .orders, StoredOrder o) :
    ∃ f g : Row → Row, (∀ o ∈ s.getTable .orders, Orders.withUser (s.getTable .users) o = .ok (f o) ∧
      AdminOrderRoutes.forList (f o) = .ok (g o)) ∧
      ∀ o ∈ s.getTable .orders, ∀ c ∉ addedToOrder, (g o).get c = o.get c := by
  have hone : ∀ o ∈ s.getTable .orders, ∃ o' shown, Orders.withUser (s.getTable .users) o = .ok o' ∧
      AdminOrderRoutes.forList o' = .ok shown ∧ ∀ c ∉ addedToOrder, shown.get c = o.get c := by
    intro o ho
    obtain ⟨o', ho', hjoined⟩ := exists_withUser (s.getTable .users) (h o ho).snapshot
    obtain ⟨x, hx⟩ := (h o ho).status
    obtain ⟨shown, hshown, hadded⟩ := exists_forList (o := o')
      ⟨x, (hjoined "status" (by decide)).trans hx⟩
    refine ⟨o', shown, ho', hshown, fun c hc => ?_⟩
    have hc' : (c ∉ ["user_nickname", "user_phone", "address_name", "address_phone",
        "address_detail"]) ∧ c ∉ ["status_cn", "receiver_name", "receiver_phone",
        "receiver_address"] := by
      simp only [addedToOrder, List.mem_cons, List.not_mem_nil, or_false, not_or] at hc ⊢
      tauto
    exact (hadded c hc'.2).trans (hjoined c hc'.1)
  choose! f g hf hg hcolumns using hone
  exact ⟨f, g, fun o ho => ⟨hf o ho, hg o ho⟩, hcolumns⟩

/-- The answer with page `i` of the orders. -/
def rangeAnswer (rows : List Row) (g : Row → Row) (size i : ℕ) : Response :=
  listPage rows.length (.fin i) (.fin size) [("orders", .rows ((pageOf size (i - 1) rows).map g))]

theorem run_rangePage (first last : Option Day) (h : ∀ o ∈ s.getTable .orders, StoredOrder o)
    (hc : Consistent (listOrder env .orders) (s.getTable .orders)) (hn : 1 ≤ size) (hn' : size ≤ 100)
    {f g : Row → Row}
    (hf : ∀ o ∈ s.getTable .orders, Orders.withUser (s.getTable .users) o = .ok (f o) ∧
      AdminOrderRoutes.forList (f o) = .ok (g o))
    (hs : Reordered env .orders s s') (hi : i * size + size ≤ 2 ^ 53) : ∃ s'',
      (rangePage env first last size (i + 1)).run s' = (.ok (rangeAnswer
        ((inOrder env .orders (s.getTable .orders)).filter (rangeQuery first last).keeps) g size
          (i + 1)), s'') ∧
      Reordered env .orders s s'' := by
  obtain ⟨s'', hrun, hs''⟩ := run_orderPage first last h hc hn hn'
    (fun o ho => (hf o ho).1) hs hi
  refine ⟨s'', ?_, hs''⟩
  obtain ⟨hpage, hsize, hstart, hend, hnone⟩ := get_rangeText first last size (i + 1)
  have hpage' : i + 1 ≤ 2 ^ 53 := by nlinarith
  have hpageSize : pageSizeTo100 (rangeText first last size (i + 1)) = .ok (.fin size) := by
    unfold pageSizeTo100
    rw [parseIntOr_natCast "20" hsize (by omega)]
    exact congrArg Except.ok (min_of_le_hundred hn')
  have hshown : ((pageOf size i ((inOrder env .orders (s.getTable .orders)).filter
      (rangeQuery first last).keeps)).map f).mapM AdminOrderRoutes.forList =
      .ok ((pageOf size i ((inOrder env .orders (s.getTable .orders)).filter
        (rangeQuery first last).keeps)).map g) := by
    rw [List.mapM_map]
    refine mapM_eq_map fun o ho => (hf o ?_).2
    have hkept := List.mem_of_mem_drop (List.mem_of_mem_take ho)
    exact (inOrder_perm env _ _).subset (List.mem_of_mem_filter hkept)
  unfold rangePage AdminOrderRoutes.list adminGuarded
  rw [parseIntOr_natCast "1" hpage hpage', hpageSize,
    rangeEnd_eq "00:00:00" (hnone "startAt" (by decide)) hstart,
    rangeEnd_eq "23:59:59" (hnone "endAt" (by decide)) hend,
    hnone "status" (by decide), hnone "orderNo" (by decide), hnone "phone" (by decide)]
  simp only [Action.lift_ok_bind]
  rw [Action.run_attempt, Action.run_bind]
  have hlist : (Orders.list env
      { page := some (.fin (i + 1 : ℕ)), pageSize := some (.fin size), status := .undefined,
        orderNo := .undefined, phone := .undefined,
        startAt := absent (first.map (endText "00:00:00")),
        endAt := absent (last.map (endText "23:59:59")), userId := none }).run s' = _ := hrun
  rw [hlist]
  dsimp only
  rw [hshown]
  rfl

end

section
variable {s : Store} {first last : Option Day}

/-- What the list keeps is in the range. -/
theorem inRange_of_keeps {o : Row} (h : StoredOrder o)
    (hk : (rangeQuery first last).keeps o = true) : InRange first last o := by
  obtain ⟨x, hx⟩ := h.created
  obtain ⟨hfirst, hlast⟩ := (keeps_rangeQuery hx).mp hk
  exact (inRange_iff hx).mpr ⟨hfirst, fun d hd => (hlast d hd).le⟩

/-- When no order is from the last day, the list keeps the whole range. -/
theorem keeps_of_inRange {o : Row} (ho : o ∈ s.getTable .orders) (hempty : LastDayEmpty s last)
    (hr : InRange first last o) : (rangeQuery first last).keeps o = true := by
  obtain ⟨x, hx, hfirst, hlast⟩ := hr
  exact (keeps_rangeQuery hx).mpr ⟨hfirst, fun d hd =>
    lt_of_le_of_ne (hlast d hd) (hempty d hd o ho x hx)⟩

open Classical in
/-- A list that keeps as many orders as the range has keeps all of them. -/
theorem lastDayEmpty_of_length (h : ∀ o ∈ s.getTable .orders, StoredOrder o)
    (hle : ∀ a b, first = some a → last = some b → a ≤ b)
    (hlen : ((s.getTable .orders).filter (rangeQuery first last).keeps).length =
      ((s.getTable .orders).filter fun o => decide (InRange first last o)).length) :
    LastDayEmpty s last := by
  have htwice : ((s.getTable .orders).filter fun o => decide (InRange first last o)).filter
      (rangeQuery first last).keeps = (s.getTable .orders).filter (rangeQuery first last).keeps := by
    rw [List.filter_filter]
    refine List.filter_congr fun o ho => ?_
    by_cases hk : (rangeQuery first last).keeps o = true
    · simp [hk, inRange_of_keeps (h o ho) hk]
    · simp [hk]
  rw [← htwice, List.length_filter_eq_length_iff] at hlen
  rintro d rfl o ho x hx rfl
  -- an order of the last day is in the range, and the list does not keep it
  have hrange : InRange first (some x.day) o := by
    refine (inRange_iff hx).mpr ⟨fun a ha => hle a x.day ha rfl, fun b hb => ?_⟩
    exact (Option.some.inj hb).le
  have hk := hlen o (List.mem_filter.mpr ⟨ho, decide_eq_true hrange⟩)
  exact absurd (((keeps_rangeQuery hx).mp hk).2 x.day rfl) (lt_irrefl _)

end

/-- The orders the list keeps, in its order. -/
def listedInRange (env : Env) (s : Store) (first last : Option Day) : List Row :=
  (inOrder env .orders (s.getTable .orders)).filter (rangeQuery first last).keeps

section
variable {env : Env} {s : Store} {size : ℕ}

theorem listedInRange_perm (env : Env) (s : Store) (first last : Option Day) :
    (listedInRange env s first last).Perm
      ((s.getTable .orders).filter (rangeQuery first last).keeps) := (inOrder_perm env _ _).filter _

/-- The first page and all the pages the total asks for. -/
theorem run_rangePages (env : Env) [Std.TransCmp env.localeCompare]
    (hs : (s.getTable .orders).length < 2 ^ 32) (h : ∀ o ∈ s.getTable .orders, StoredOrder o)
    (first last : Option Day) (h1 : 1 ≤ size) (h100 : size ≤ 100) : ∃ g : Row → Row,
      (∀ o ∈ s.getTable .orders, ∀ c ∉ addedToOrder, (g o).get c = o.get c) ∧
      (∃ s₁, (rangePage env first last size 1).run s =
        (.ok (rangeAnswer (listedInRange env s first last) g size 1), s₁)) ∧
      ∃ s₂, (readPages (rangePage env first last size) 1
        (pageCount (listedInRange env s first last).length size)).run s =
          (.ok ((List.range' 1 (pageCount (listedInRange env s first last).length size)).map
            (rangeAnswer (listedInRange env s first last) g size)), s₂) := by
  have hc : Consistent (listOrder env .orders) (s.getTable .orders) := by
    refine consistent_listOrder (by decide) fun o ho =>
      ⟨fun read hread => absurd hread List.not_mem_nil, ?_⟩
    obtain ⟨x, hx⟩ := (h o ho).created
    exact dated_of hx
  obtain ⟨f, g, hfg, hcolumns⟩ := exists_shownOrder h
  have hlen : (listedInRange env s first last).length < 2 ^ 32 := by
    rw [(listedInRange_perm env s first last).length_eq]
    exact lt_of_le_of_lt (List.length_filter_le _ _) hs
  exact ⟨g, hcolumns, run_pagesOf _ _ h1 h100 hlen fun i s' hi hs' =>
    run_rangePage first last h hc h1 h100 hfg hs' hi⟩

/-- A list that shows the whole range has no order of its last day to leave out. -/
theorem RangeShown.lastDayEmpty [Std.TransCmp env.localeCompare] {first last : Option Day}
    (hshown : RangeShown env s first last size)
    (hs : (s.getTable .orders).length < 2 ^ 32) (h : ∀ o ∈ s.getTable .orders, StoredOrder o)
    (hle : ∀ a b, first = some a → last = some b → a ≤ b)
    (h1 : 1 ≤ size) (h100 : size ≤ 100) : LastDayEmpty s last := by
  obtain ⟨g, _, ⟨s₁, hfirst⟩, _⟩ := run_rangePages env hs h first last h1 h100
  obtain ⟨rows, hrows, ⟨res, s₃, hres, htotal⟩, _⟩ := hshown
  rw [hfirst] at hres
  cases hres
  have heq : (listedInRange env s first last).length = rows.length := total_unique (by rfl) htotal
  rw [(listedInRange_perm env s first last).length_eq, hrows.length_eq] at heq
  exact lastDayEmpty_of_length h hle heq

end

/-- The list shows the whole range exactly when no order was created on its last day. -/
theorem rangeShown_iff (env : Env) [Std.TransCmp env.localeCompare] (s : Store)
    (hs : (s.getTable .orders).length < 2 ^ 32) (h : ∀ o ∈ s.getTable .orders, StoredOrder o)
    (first last : Option Day) (hle : ∀ a b, first = some a → last = some b → a ≤ b) (size : ℕ)
    (h1 : 1 ≤ size) (h100 : size ≤ 100) :
    RangeShown env s first last size ↔ LastDayEmpty s last := by
  classical
  refine ⟨fun hshown => hshown.lastDayEmpty hs h hle h1 h100, fun hempty => ?_⟩
  obtain ⟨g, hcolumns, ⟨s₁, hfirst⟩, s₂, hall⟩ := run_rangePages env hs h first last h1 h100
  refine ⟨listedInRange env s first last, ?_, ⟨_, s₁, hfirst, rfl⟩, _, s₂, hall, fun res hres => ?_, ?_⟩
  · refine (listedInRange_perm env s first last).trans (.of_eq (List.filter_congr fun o ho => ?_))
    rw [Bool.eq_iff_iff, decide_eq_true_iff]
    exact ⟨inRange_of_keeps (h o ho), keeps_of_inRange ho hempty⟩
  · obtain ⟨i, _, rfl⟩ := List.mem_map.mp hres
    rfl
  · rw [flatMap_answers h1 (f := g) fun _ => rfl, List.forall₂_map_right_iff, List.forall₂_same]
    exact fun o ho => hcolumns o
      ((listedInRange_perm env s first last).subset ho |> List.mem_of_mem_filter)

/-- A store with one order, created on New Year's Day. -/
def newYearShop : Store :=
  shopWith .orders [.ofList [("order_no", .str "1"), ("status", .str "WAIT_SHIP"),
    ("created_at", .str (newYear 2025).text)]]

theorem newYearShop_orders : newYearShop.getTable .orders =
    [.ofList [("order_no", .str "1"), ("status", .str "WAIT_SHIP"),
      ("created_at", .str (newYear 2025).text)]] := by
  unfold newYearShop
  rw [getTable_shopWith, if_pos rfl]

theorem newYearShop_stored : ∀ o ∈ newYearShop.getTable .orders, StoredOrder o := by
  rw [newYearShop_orders]
  intro o ho
  rw [List.mem_singleton.mp ho]
  exact ⟨⟨newYear 2025, rfl⟩, ⟨"WAIT_SHIP", rfl⟩, Or.inl rfl⟩

theorem newYearShop_few : (newYearShop.getTable .orders).length < 2 ^ 32 := by
  rw [newYearShop_orders]
  decide

theorem newYear_le : ∀ a b, some (newYear 2025).day = some a → some (newYear 2025).day = some b →
    a ≤ b := by
  intro a b ha hb
  rw [← Option.some.inj ha, ← Option.some.inj hb]

theorem newYearShop_shown_iff :
    RangeShown .plain newYearShop (some (newYear 2025).day) (some (newYear 2025).day) 20 ↔
      LastDayEmpty newYearShop (some (newYear 2025).day) :=
  rangeShown_iff .plain newYearShop newYearShop_few newYearShop_stored _ _ newYear_le 20 (by decide)
    (by decide)

/-- Asked for the orders of the day, the list shows none. -/
theorem newYearShop_not_shown :
    ¬ RangeShown .plain newYearShop (some (newYear 2025).day) (some (newYear 2025).day) 20 := by
  intro hshown
  have hempty := hshown.lastDayEmpty newYearShop_few newYearShop_stored newYear_le (by decide)
    (by decide)
  refine hempty _ rfl (.ofList [("order_no", .str "1"), ("status", .str "WAIT_SHIP"),
    ("created_at", .str (newYear 2025).text)]) ?_ (newYear 2025) rfl rfl
  rw [newYearShop_orders]
  exact List.mem_cons_self

end JtfpMall
