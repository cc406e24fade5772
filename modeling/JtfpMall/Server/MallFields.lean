import JtfpMall.Server.PagedLists

/-!
# What the mall shows of a property

The list and the page of a property each write out the columns they show. The page lacks two
columns it reads, the mark of a featured property and the price increment, and both
show a stock of zero as one.
-/

namespace JtfpMall

open JtfpMall.Js
open JtfpMall.Lib

/-- The columns that the types of the mall pages declare, the images and the tabs aside. -/
def declaredFields : List String :=
  ["id", "community_name", "detail_address", "building_area", "house_type", "floor_info",
    "starting_price", "evaluation_total_price", "school_district", "business_circle", "cover_url",
    "is_featured", "auction_time", "bidding_phase", "profit_space", "created_at", "building_year",
    "decoration_status", "property_status", "property_type", "starting_unit_price",
    "auction_platform", "auction_deposit", "price_increment", "evaluation_unit_price",
    "loan_70_percent", "loan_80_percent", "loan_90_percent", "market_total_price",
    "market_unit_price", "deed_tax_rate", "deed_tax_amount", "vat_rate", "vat_amount",
    "income_tax_rate", "income_tax_amount"]

/-- A property as the admin pages save it: price, stock and flags are numbers, the text columns
are texts where they are given. -/
structure SavedProperty (r : Row) : Prop where
  numbers : ∀ c ∈ ["price_cent", "stock", "status", "is_featured", "sort_order"],
    ∃ n, r.get c = .num n ∧ n.IsDouble
  texts : ∀ c ∈ declaredFields, c ≠ "id" → c ≠ "is_featured" → IsText (r.get c)

/-- A list of the mall, asked with some query, shows the item. -/
def ListShows (env : Env) (s : Store) (item : Row) : Prop :=
  ∃ query res s', (Properties.listMall env query).run s = (.ok res, s') ∧ item ∈ res.2

/-- The property is in the list of every query it matches, on some page of every size. The page
of the property has the declared columns with their stored values, and agrees with every item of
it in a list; price and stock are the stored numbers. -/
structure ShownFaithfully (env : Env) (s : Store) (r : Row) (id : JsNum) : Prop where
  listed : ∀ keyword categoryId, mallKeeps env keyword categoryId r = true → ∀ size, 1 ≤ size →
    size ≤ 100 → ∃ (i : ℕ) (res : ℕ × List Row) (s' : Store),
      (Properties.listMall env (mallQuery (.fin i) (.fin size) (keyword.elim .undefined .str)
        categoryId)).run s = (.ok res, s') ∧ ∃ item ∈ res.2, item.get "id" = r.get "id"
  detailed : ∃ detail s', (Properties.findMallById id).run s = (.ok (some detail), s') ∧
    (∀ c ∈ declaredFields, r.get c ≠ .undefined → detail.get c = r.get c) ∧
    (∀ item, ListShows env s item → item.get "id" = r.get "id" →
      (∀ c, item.has c = true → detail.get c = item.get c) ∧
        ∀ c ∈ ["price_cent", "stock"], item.get c = r.get c) ∧
    ∀ c ∈ ["price_cent", "stock"], detail.get c = r.get c

/-- The property is in no list, and has no page. -/
structure Hidden (env : Env) (s : Store) (r : Row) (id : JsNum) : Prop where
  unlisted : ∀ item, ListShows env s item → item.get "id" ≠ r.get "id"
  noPage : ∃ s', (Properties.findMallById id).run s = (.ok none, s')

/-- A property is shown, and as it is stored, when it is on the shelf, and not shown otherwise. -/
def MallFaithful (env : Env) (s : Store) (r : Row) (id : JsNum) : Prop :=
  (r.get "status" = .num (.fin 1) → ShownFaithfully env s r id) ∧
    (r.get "status" ≠ .num (.fin 1) → Hidden env s r id)

theorem mem_columns {row : Row} {cs : List String} {c : String} (h : c ∈ cs) :
    (c, row.get c) ∈ Properties.columns row cs := List.mem_map.mpr ⟨c, h, rfl⟩

/-- The columns of a property that its page copies. -/
def detailColumns : List String :=
  ["community_name", "house_type", "building_area", "floor_info", "building_year",
    "decoration_status", "property_status", "property_type", "detail_address", "school_district",
    "business_circle", "starting_price", "starting_unit_price", "evaluation_total_price",
    "evaluation_unit_price", "market_total_price", "market_unit_price", "loan_70_percent",
    "loan_80_percent", "loan_90_percent", "profit_space", "auction_time", "bidding_phase",
    "auction_platform", "auction_deposit", "deed_tax_rate", "deed_tax_amount", "vat_rate",
    "vat_amount", "income_tax_rate", "income_tax_amount"]

/-- The keys of the page. -/
def detailKeys : List String :=
  ["id", "title", "price_cent", "cover_url", "images", "description", "stock"] ++ detailColumns ++
    ["module_config", "created_at", "updated_at"]

/-- What the page is written out of. -/
def detailFields (row : Row) (title price stock : JsVal) : List (String × JsVal) :=
  [("id", row.get "id"), ("title", title), ("price_cent", price),
    ("cover_url", row.get "cover_url"), ("images", Properties.imagesOf row),
    ("description", row.get "description"), ("stock", stock)] ++
    Properties.columns row detailColumns ++
    [("module_config", Properties.moduleConfigOf row), ("created_at", row.get "created_at"),
      ("updated_at", row.get "updated_at")]

theorem keys_detailFields (row : Row) (title price stock : JsVal) :
    (detailFields row title price stock).map Prod.fst = detailKeys := rfl

theorem nodup_detailFields (row : Row) (title price stock : JsVal) :
    ((detailFields row title price stock).map Prod.fst).Nodup := by
  rw [keys_detailFields]
  decide

section
variable {row item detail : Row}

theorem get_mallItem_id (h : Properties.mallItem row = .ok item) :
    item.get "id" = row.get "id" := by
  unfold Properties.mallItem at h
  obtain ⟨title, _, h⟩ := bind_ok h
  obtain ⟨price, _, h⟩ := bind_ok h
  obtain ⟨stock, _, h⟩ := bind_ok h
  obtain ⟨featured, _, h⟩ := bind_ok h
  rw [← Except.ok.inj h]
  simp [Properties.columns, Dict.ofList, Dict.get_set]

/-- The page as a record of its columns. -/
theorem of_mallDetail_ok (h : Properties.mallDetail row = .ok detail) : ∃ title price stock,
    Properties.numberOr row "price_cent" (.fin 0) = .ok price ∧
    Properties.numberOr row "stock" (.fin 1) = .ok stock ∧
    detail = .ofList (detailFields row title price stock) := by
  unfold Properties.mallDetail at h
  obtain ⟨title, _, h⟩ := bind_ok h
  obtain ⟨price, hprice, h⟩ := bind_ok h
  obtain ⟨stock, hstock, h⟩ := bind_ok h
  exact ⟨title, price, stock, hprice, hstock, (Except.ok.inj h).symm⟩

/-- The page shows every declared column but two as it is stored, and those two not at all. -/
theorem get_mallDetail (h : Properties.mallDetail row = .ok detail) :
    (∀ c ∈ declaredFields, c ≠ "is_featured" → c ≠ "price_increment" →
      detail.get c = row.get c) ∧
    ∀ c ∈ ["is_featured", "price_increment"], detail.get c = .undefined := by
  obtain ⟨title, price, stock, _, _, rfl⟩ := of_mallDetail_ok h
  constructor
  · intro c hc hfeatured hincrement
    refine Dict.get_ofList_of_mem (nodup_detailFields _ _ _ _) ?_
    have hcopied : ∀ c ∈ declaredFields, c ≠ "is_featured" → c ≠ "price_increment" →
        c = "id" ∨ c = "cover_url" ∨ c ∈ detailColumns ∨ c = "created_at" := by decide
    unfold detailFields
    rcases hcopied c hc hfeatured hincrement with rfl | rfl | hcolumn | rfl
    · simp
    · simp
    · simp [mem_columns hcolumn]
    · simp
  · intro c hc
    refine Dict.get_ofList_of_not_mem ?_
    rw [keys_detailFields]
    revert c
    decide

/-- The price is shown as it is stored, and so is the stock unless it is zero. -/
theorem get_mallDetail_number (h : Properties.mallDetail row = .ok detail) {column : String}
    {d n : JsNum} (hc : (column, d) ∈ [("price_cent", JsNum.fin 0), ("stock", .fin 1)])
    (hn : row.get column = .num n) :
    detail.get column = .num (if n.truthy then n else d) := by
  obtain ⟨title, price, stock, hprice, hstock, rfl⟩ := of_mallDetail_ok h
  have hvalue : Properties.numberOr row column d = .ok (.num (if n.truthy then n else d)) := by
    unfold Properties.numberOr JsVal.or
    rw [hn]
    cases ht : n.truthy <;> simp [JsVal.truthy, ht] <;> rfl
  simp only [List.mem_cons, Prod.mk.injEq, List.not_mem_nil, or_false] at hc
  rcases hc with ⟨rfl, rfl⟩ | ⟨rfl, rfl⟩
  · rw [hprice] at hvalue
    rw [← Except.ok.inj hvalue]
    exact Dict.get_ofList_of_mem (nodup_detailFields _ _ _ _) (by simp [detailFields])
  · rw [hstock] at hvalue
    rw [← Except.ok.inj hvalue]
    exact Dict.get_ofList_of_mem (nodup_detailFields _ _ _ _) (by simp [detailFields])

end

section
variable {env : Env} {s s' : Store} {r : Row} {id : JsNum}

theorem mem_paginate {page pageSize : Option JsNum} {rows : List Row}
    (h : r ∈ paginate page pageSize rows) : r ∈ rows :=
  List.mem_of_mem_drop (( slice_prefix rows _ _).subset h)

/-- What a list with a filter for the status gives has this status. -/
theorem status_of_listed {filters : List (Row → Except JsError Bool)} {v : JsVal}
    {t : Table} {rows : List Row}
    (h : (listed env t (filters ++ [columnIs "status" v])).run s = (.ok rows, s')) (hr : r ∈ rows) :
    r ∈ s.getTable t ∧ r.get "status" = v := by
  have hfst := fst_run_listed env t (filters ++ [columnIs "status" v]) s
  rw [h] at hfst
  obtain ⟨kept, hkept, hsorted⟩ := bind_ok hfst.symm
  rw [filterAll_append] at hkept
  obtain ⟨before, hbefore, hlast⟩ := bind_ok hkept
  obtain ⟨last, hlast, hrest⟩ := bind_ok hlast
  rw [← Except.ok.inj hrest] at hsorted
  obtain ⟨hmem, hstatus⟩ := mem_of_filterM hlast r ((arraySort_perm hsorted).subset hr)
  exact ⟨(filterAll_sublist hbefore).subset hmem, JsVal.eq_of_strictEq (Except.ok.inj hstatus)⟩

/-- Every item of a list is that of a property on the shelf. -/
theorem of_listShows {item : Row} (h : ListShows env s item) : ∃ row ∈ s.getTable .properties,
    row.get "status" = .num (.fin 1) ∧ Properties.mallItem row = .ok item := by
  obtain ⟨query, res, s', hrun, hitem⟩ := h
  unfold Properties.listMall at hrun
  obtain ⟨⟨total, rows⟩, s₁, hlist, hrun⟩ := Action.run_bind_ok hrun
  obtain ⟨items, s₂, hitems, hrun⟩ := Action.run_bind_ok hrun
  cases hrun
  unfold Properties.list at hlist
  obtain ⟨filters, hfilters, hlist⟩ := Action.run_lift_bind_ok hlist
  obtain ⟨found, s₃, hfound, hlist⟩ := Action.run_bind_ok hlist
  cases hlist
  obtain ⟨name, _, hfilters⟩ := bind_ok hfilters
  obtain ⟨kw, _, hfilters⟩ := bind_ok hfilters
  rw [← Except.ok.inj hfilters] at hfound
  obtain ⟨row, hrow, hshown⟩ := exists_of_forall₂
    (mapM_ok_iff.mp (Action.run_lift_ok hitems).1).flip hitem
  obtain ⟨hmem, hstatus⟩ := status_of_listed hfound (mem_paginate hrow)
  exact ⟨row, hmem, hstatus, hshown⟩

/-- A property that is not on the shelf is in no list and has no page. -/
theorem hidden_of_status (hi : Issued s.cache .properties) (hr : r ∈ s.getTable .properties)
    (hid : r.get "id" = .num id) (hstatus : r.get "status" ≠ .num (.fin 1)) :
    Hidden env s r id where
  unlisted item hitem heq := by
    obtain ⟨row, hrow, hshelf, hshown⟩ := of_listShows hitem
    rw [get_mallItem_id hshown] at heq
    rw [← hi.eq_of_get hrow hr heq.symm] at hshelf
    exact hstatus hshelf
  noPage := by
    have hnone : s.findOne .properties (Properties.shown id) = none := by
      refine List.find?_eq_none.mpr fun row hrow hshown => ?_
      obtain ⟨hsame, hshelf⟩ := Bool.and_eq_true_iff.mp hshown
      have heq := (JsVal.eq_of_strictEq hsame).trans hid.symm
      rw [← hi.eq_of_get hrow hr heq.symm] at hshelf
      exact hstatus (JsVal.eq_of_strictEq hshelf)
    have hread : (Act.findOne .properties (Properties.shown id)).run s = (.ok none, s) := by
      rw [← hnone]
      rfl
    refine ⟨s, ?_⟩
    unfold Properties.findMallById
    rw [Action.run_bind, hread]
    rfl

/-- No page shows a featured property as one. -/
theorem not_shownFaithfully (hfeatured : ∃ n, r.get "is_featured" = .num n) :
    ¬ShownFaithfully env s r id := by
  rintro ⟨_, detail, s', hrun, hdeclared, _⟩
  obtain ⟨n, hn⟩ := hfeatured
  unfold Properties.findMallById at hrun
  obtain ⟨found, s₁, _, hrun⟩ := Action.run_bind_ok hrun
  cases found with
  | none => cases hrun
  | some row =>
    obtain ⟨shown, hshown, hsome⟩ := map_ok (Action.run_lift_ok hrun).1
    obtain rfl := Option.some.inj hsome
    have hmissing := (get_mallDetail hshown).2 "is_featured" (by decide)
    have hstored := hdeclared "is_featured" (by decide) (by rw [hn]; simp)
    rw [hmissing, hn] at hstored
    cases hstored

end

/-- A property is shown as it is stored only when it is not to be shown at all. -/
theorem mallFaithful_iff (env : Env) (s : Store) (hi : Issued s.cache .properties) (r : Row)
    (hr : r ∈ s.getTable .properties) (hs : SavedProperty r) (id : JsNum)
    (hid : r.get "id" = .num id) : MallFaithful env s r id ↔ r.get "status" ≠ .num (.fin 1) := by
  constructor
  · intro h hstatus
    obtain ⟨n, hn, _⟩ := hs.numbers "is_featured" (by decide)
    exact not_shownFaithfully ⟨n, hn⟩ (h.1 hstatus)
  · exact fun hstatus => ⟨fun h => absurd h hstatus, fun _ => hidden_of_status hi hr hid hstatus⟩

/-- A featured property without stock. -/
def soldOut : Row :=
  .ofList [("community_name", .str "a"), ("status", .num (.fin 1)), ("price_cent", .num (.fin 0)),
    ("stock", .num (.fin 0)), ("is_featured", .num (.fin 1)), ("sort_order", .num (.fin 0))]

/-- A store with this property. -/
def soldOutShop : Store :=
  ((Server.start "t0" (fun _ => "t1") .empty).insert .properties soldOut "t2").2

/-- The property as the store keeps it. -/
def soldOutRow : Row := Store.newRow soldOut 1 "t2"

theorem soldOutShop_issued : Issued soldOutShop.cache .properties :=
  (issued_start "t0" (fun _ => "t1") .properties).insert _ _

theorem mem_soldOutShop : soldOutRow ∈ soldOutShop.getTable .properties := by
  refine List.mem_of_getLast? (a := soldOutRow) ?_
  rfl

theorem soldOutRow_saved : SavedProperty soldOutRow where
  numbers c hc := by
    simp only [List.mem_cons, List.not_mem_nil, or_false] at hc
    have hone : (JsNum.fin 1).IsDouble := isDouble_ofNat (n := 1) (by decide)
    rcases hc with rfl | rfl | rfl | rfl | rfl
    · exact ⟨_, rfl, isDouble_zero⟩
    · exact ⟨_, rfl, isDouble_zero⟩
    · exact ⟨_, rfl, hone⟩
    · exact ⟨_, rfl, hone⟩
    · exact ⟨_, rfl, isDouble_zero⟩
  texts := by
    have htexts : ∀ c ∈ declaredFields, c ≠ "id" → c ≠ "is_featured" →
        (soldOutRow.get c).isNullish = true ∨ c = "community_name" ∨ c = "created_at" := by decide
    intro c hc hid hfeatured
    rcases htexts c hc hid hfeatured with hnull | rfl | rfl
    · exact Or.inl hnull
    · exact Or.inr ⟨_, rfl⟩
    · exact Or.inr ⟨_, rfl⟩

theorem soldOut_faithful_iff : MallFaithful .plain soldOutShop soldOutRow (.ofNat 1) ↔
    soldOutRow.get "status" ≠ .num (.fin 1) :=
  mallFaithful_iff .plain soldOutShop soldOutShop_issued soldOutRow mem_soldOutShop
    soldOutRow_saved (.ofNat 1) rfl

/-- The page of the property does not show it as featured. -/
theorem soldOut_not_faithful : ¬MallFaithful .plain soldOutShop soldOutRow (.ofNat 1) :=
  fun h => not_shownFaithfully ⟨.fin 1, rfl⟩ (h.1 rfl)

end JtfpMall
