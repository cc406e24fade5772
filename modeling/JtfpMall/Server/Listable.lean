import JtfpMall.Server.CategoryReferences

/-!
# Rows that every list can read

The filters and the comparators of the lists call methods on columns that POST and PUT copy
from their bodies. A value that does not have the method, or that turns into no
primitive, makes every later list throw that comes across it.
-/

namespace JtfpMall

open JtfpMall.Js
open JtfpMall.Lib

/-- What the lists do with a column. -/
inductive Use where
  /-- `v?.toLowerCase()`. -/
  | lowered
  /-- `v?.includes(kw)`. -/
  | searched
  /-- `(v || '').localeCompare(..)`. -/
  | compared
  /-- `Number(v)`, `a - v` or the text of `v`. -/
  | converted

/-- The values that can be used so. -/
def Use.Fits : Use → JsVal → Prop
  | .lowered, v => v.isNullish = true ∨ ∃ t, v = .str t
  | .searched, v => v.isNullish = true ∨ (∃ t, v = .str t) ∨ ∃ xs, v = .arr xs
  | .compared, v => v.truthy = false ∨ ∃ t, v = .str t
  | .converted, v => ∃ t, v.toText = .ok t

/-- The columns the lists use, and how. -/
def listUses : Table → List (String × Use)
  | .properties => [("community_name", .lowered), ("detail_address", .lowered),
      ("customer_phone", .searched), ("auth_code", .searched), ("is_featured", .converted),
      ("sort_order", .converted), ("price_cent", .converted), ("stock", .converted),
      ("house_type", .converted), ("created_at", .compared)]
  | .products => [("title", .lowered), ("is_featured", .converted), ("sort_order", .converted),
      ("created_at", .compared)]
  | .categories => [("sort_order", .converted), ("id", .converted)]
  | .welfareCodes => [("code", .lowered), ("name", .lowered), ("created_at", .compared)]
  | _ => []

/-- Every column of the row can be used as the lists use it. -/
def FitsRow (t : Table) (row : Row) : Prop := ∀ p ∈ listUses t, p.2.Fits (row.get p.1)

/-- So can every column the data give. -/
def FitsGiven (t : Table) (data : Row) : Prop :=
  ∀ p ∈ listUses t, data.has p.1 = true → p.2.Fits (data.get p.1)

/-- What an accepted POST or PUT stores can be used. -/
def Request.Fits (s : Store) : Request → Prop
  | .admin true (.createProperty body) => (body.get "community_name").truthy = true →
      ∀ data, PropertyRoutes.withShopFields body = .ok data → FitsRow .properties data
  | .admin true (.createProduct body) => FitsRow .products body
  | .admin true (.createCategory body) => (body.get "name").truthy = true →
      Use.converted.Fits (body.get "sort_order")
  | .admin true (.createWelfareCode body) => FitsRow .welfareCodes body
  | r => ∀ t id, r.put = some (t, id) → (s.findById t (.num id)).isSome = true →
      ∀ data, r.putData = .ok data → FitsGiven t data

/-- The steps are requests and flushes, and what they store can be used. -/
def Server.Event.Fits (s : Store) : Server.Event → Prop
  | .request r _ => r.Fits s
  | .operation _ _ => False
  | .timer _ => True
  | .flush _ => True
  | .restart _ _ => False

/-- The query of a list or search request. -/
def Request.listQuery : Request → Option Row
  | .admin true (.properties query) => some query
  | .admin true (.products query) => some query
  | .admin true (.welfareCodes query) => some query
  | .admin true (.skuLibrary query) => some query
  | .admin true .categories => some .empty
  | .admin true .communities => some .empty
  | .admin true .exportProperties => some .empty
  | .anyone (.products query) => some query
  | .anyone (.mallProperties query) => some query
  | .anyone .mallCategories => some .empty
  | _ => none

/-- Every parameter is a text or missing. -/
def PlainQuery (query : Row) : Prop := ∀ k, query.get k = .undefined ∨ ∃ t, query.get k = .str t

/-- Every row of the four tables can be used, and there are no SKUs and no code items. -/
structure Listable (s : Store) : Prop where
  fits : ∀ t, ∀ r ∈ s.cache.rows t, FitsRow t r
  skus : s.cache.rows .productSkus = []
  items : s.cache.rows .welfareCodeItems = []

namespace Use

theorem fits_undefined (u : Use) : u.Fits .undefined := by
  cases u with
  | lowered => exact Or.inl rfl
  | searched => exact Or.inl rfl
  | compared => exact Or.inl rfl
  | converted => exact ⟨_, rfl⟩

theorem fits_str (u : Use) (t : String) : u.Fits (.str t) := by
  cases u with
  | lowered => exact Or.inr ⟨t, rfl⟩
  | searched => exact Or.inr (Or.inl ⟨t, rfl⟩)
  | compared => exact Or.inr ⟨t, rfl⟩
  | converted => exact ⟨t, rfl⟩

theorem fits_null (u : Use) : u.Fits .null := by
  cases u with
  | lowered => exact Or.inl rfl
  | searched => exact Or.inl rfl
  | compared => exact Or.inl rfl
  | converted => exact ⟨_, rfl⟩

theorem converted_num (n : JsNum) : converted.Fits (.num n) := ⟨_, rfl⟩

/-- The default of a column that can be used. -/
theorem fits_or {u : Use} {v d : JsVal} (hv : u.Fits v) (hd : u.Fits d) : u.Fits (v.or d) := by
  unfold JsVal.or
  split
  · exact hv
  · exact hd

theorem fits_orNullish {u : Use} {v d : JsVal} (hv : u.Fits v) (hd : u.Fits d) :
    u.Fits (v.orNullish d) := by
  unfold JsVal.orNullish
  split
  · exact hd
  · exact hd
  · exact hv

theorem exists_toNumber {v : JsVal} (h : converted.Fits v) : ∃ n, v.toNumber = .ok n := by
  obtain ⟨t, ht⟩ := h
  unfold JsVal.toNumber JsVal.toPrimitive
  split
  · rw [ht]
    exact ⟨_, rfl⟩
  · exact ⟨_, rfl⟩

theorem exists_sub {a b : JsVal} (ha : converted.Fits a) (hb : converted.Fits b) :
    ∃ n, JsVal.sub a b = .ok n := by
  obtain ⟨m, hm⟩ := exists_toNumber ha
  obtain ⟨n, hn⟩ := exists_toNumber hb
  refine ⟨m.sub n, ?_⟩
  unfold JsVal.sub
  rw [hm, hn]
  rfl

end Use

theorem get_single (k x k' : String) :
    (Dict.ofList [(k, JsVal.str x)]).get k' = if k' = k then .str x else .undefined := by
  change (Dict.set .empty k (.str x)).get k' = _
  rw [Dict.get_set, Dict.get_empty]

/-- A row of one text. -/
theorem fitsRow_single (t : Table) (k x : String) : FitsRow t (.ofList [(k, .str x)]) := by
  rintro ⟨k', u⟩ _
  rw [get_single]
  split
  · exact u.fits_str x
  · exact u.fits_undefined

section
variable {env : Env} {t : Table} {a b r : Row}

theorem FitsRow.get (h : FitsRow t r) {k : String} {u : Use} (hk : (k, u) ∈ listUses t) :
    u.Fits (r.get k) := h (k, u) hk

theorem exists_descending {read : Row → JsVal} {next : Row → Row → Except JsError JsNum}
    (ha : Use.converted.Fits (read a)) (hb : Use.converted.Fits (read b))
    (hn : ∃ n, next a b = .ok n) : ∃ n, descending read next a b = .ok n := by
  unfold descending
  split
  · exact hn
  · exact Use.exists_sub hb ha

theorem compared_or {v : JsVal} (h : Use.compared.Fits v) : ∃ t, v.or (.str "") = .str t := by
  unfold JsVal.or
  rcases h with hf | ⟨t, rfl⟩
  · rw [if_neg (by simp [hf])]
    exact ⟨"", rfl⟩
  · split
    · exact ⟨t, rfl⟩
    · exact ⟨"", rfl⟩

theorem exists_byCreatedAt (ha : Use.compared.Fits (a.get "created_at"))
    (hb : Use.compared.Fits (b.get "created_at")) : ∃ n, byCreatedAt env a b = .ok n := by
  obtain ⟨x, hx⟩ := compared_or ha
  obtain ⟨y, hy⟩ := compared_or hb
  unfold byCreatedAt
  rw [hx, hy]
  exact ⟨_, rfl⟩

/-- The tables whose lists compare and convert what the bodies of requests have stored. -/
def listedTables : List Table := [.properties, .products, .categories, .welfareCodes]

theorem exists_propertyOrder (ha : FitsRow .properties a) (hb : FitsRow .properties b) :
    ∃ n, propertyOrder env a b = .ok n := by
  have hzero : Use.converted.Fits (.num (.fin 0)) := Use.converted_num _
  have fits : ∀ r, FitsRow .properties r → Use.converted.Fits (r.get "is_featured") ∧
      Use.converted.Fits (r.get "sort_order") ∧ Use.compared.Fits (r.get "created_at") :=
    fun r hr => ⟨hr.get (by simp [listUses]), hr.get (by simp [listUses]), hr.get (by simp [listUses])⟩
  obtain ⟨fa, oa, ca⟩ := fits a ha
  obtain ⟨fb, ob, cb⟩ := fits b hb
  unfold propertyOrder
  refine exists_descending (Use.fits_or fa hzero) (Use.fits_or fb hzero) ?_
  refine exists_descending (Use.fits_or oa hzero) (Use.fits_or ob hzero) ?_
  exact exists_byCreatedAt ca cb

theorem exists_productOrder (ha : FitsRow .products a) (hb : FitsRow .products b) :
    ∃ n, productOrder env a b = .ok n := by
  have fits : ∀ r, FitsRow .products r → Use.converted.Fits (r.get "is_featured") ∧
      Use.converted.Fits (r.get "sort_order") ∧ Use.compared.Fits (r.get "created_at") :=
    fun r hr => ⟨hr.get (by simp [listUses]), hr.get (by simp [listUses]), hr.get (by simp [listUses])⟩
  obtain ⟨fa, oa, ca⟩ := fits a ha
  obtain ⟨fb, ob, cb⟩ := fits b hb
  unfold productOrder
  exact exists_descending fa fb (exists_descending oa ob (exists_byCreatedAt ca cb))

theorem exists_categoryOrder (ha : FitsRow .categories a) (hb : FitsRow .categories b) :
    ∃ n, categoryOrder a b = .ok n := by
  have fits : ∀ r, FitsRow .categories r → Use.converted.Fits (r.get "sort_order") ∧
      Use.converted.Fits (r.get "id") :=
    fun r hr => ⟨hr.get (by simp [listUses]), hr.get (by simp [listUses])⟩
  obtain ⟨oa, ia⟩ := fits a ha
  obtain ⟨ob, ib⟩ := fits b hb
  unfold categoryOrder
  exact exists_descending oa ob (Use.exists_sub ia ib)

/-- The order of a list compares any two rows it can use. -/
theorem exists_listOrder (env : Env) (ht : t ∈ listedTables) (ha : FitsRow t a) (hb : FitsRow t b) :
    ∃ n, listOrder env t a b = .ok n := by
  simp only [listedTables, List.mem_cons, List.not_mem_nil, or_false] at ht
  rcases ht with rfl | rfl | rfl | rfl
  · exact exists_propertyOrder ha hb
  · exact exists_productOrder ha hb
  · exact exists_categoryOrder ha hb
  · exact exists_byCreatedAt (ha.get (by simp [listUses])) (hb.get (by simp [listUses]))

/-- The filter throws on no row that can be used. -/
def Filters (t : Table) (p : Row → Except JsError Bool) : Prop :=
  ∀ r, FitsRow t r → ∃ b, p r = .ok b

theorem filters_columnIs (column : String) (v : JsVal) : Filters t (columnIs column v) :=
  fun _ _ => ⟨_, rfl⟩

theorem filters_columnMatches {column kw : String} (hk : (column, .lowered) ∈ listUses t) :
    Filters t (columnMatches env column (.str kw)) := by
  intro r hr
  unfold columnMatches
  rcases hr.get hk with hn | ⟨x, hx⟩
  · rw [if_pos hn]
    exact ⟨_, rfl⟩
  · rw [hx]
    exact ⟨_, rfl⟩

theorem filters_either {p q : Row → Except JsError Bool} (hp : Filters t p) (hq : Filters t q) :
    Filters t (either p q) := by
  intro r hr
  obtain ⟨b, hb⟩ := hp r hr
  obtain ⟨c, hc⟩ := hq r hr
  unfold either
  rw [hb]
  cases b with
  | true => exact ⟨_, rfl⟩
  | false => exact ⟨c, hc⟩

theorem filters_columnIncludes {column : String} {v : JsVal} {kw : String} (hv : v = .str kw)
    (hk : (column, .searched) ∈ listUses t) : Filters t (columnIncludes column v) := by
  intro r hr
  subst hv
  unfold columnIncludes
  rcases hr.get hk with hn | ⟨x, hx⟩ | ⟨xs, hx⟩
  · rw [if_pos hn]
    exact ⟨_, rfl⟩
  · rw [hx]
    exact ⟨_, rfl⟩
  · rw [hx]
    exact ⟨_, rfl⟩

theorem exists_compare {v : JsVal} {x : String} (hv : Use.compared.Fits v) (ht : v.truthy = true) :
    (∃ b, v.ge (.str x) = .ok b) ∧ ∃ b, v.le (.str x) = .ok b := by
  rcases hv with hf | ⟨y, rfl⟩
  · rw [ht] at hf
    cases hf
  · exact ⟨⟨_, rfl⟩, ⟨_, rfl⟩⟩

theorem filters_created {v : JsVal} {x : String} (hv : v = .str x)
    (hk : ("created_at", .compared) ∈ listUses t) :
    Filters t (createdFrom v) ∧ Filters t (createdTo v) := by
  subst hv
  constructor
  · intro r hr
    unfold createdFrom
    split
    · rename_i ht
      exact (exists_compare (hr.get hk) ht).1
    · exact ⟨_, rfl⟩
  · intro r hr
    unfold createdTo
    split
    · rename_i ht
      exact (exists_compare (hr.get hk) ht).2
    · exact ⟨_, rfl⟩

/-- Filters in a row. -/
def AllFilter (t : Table) (ps : List (Row → Except JsError Bool)) : Prop := ∀ p ∈ ps, Filters t p

theorem AllFilter.append {ps qs : List (Row → Except JsError Bool)} (hp : AllFilter t ps)
    (hq : AllFilter t qs) : AllFilter t (ps ++ qs) := by
  intro p hm
  rcases List.mem_append.mp hm with hm | hm
  · exact hp p hm
  · exact hq p hm

theorem allFilter_onlyIf {asked : Bool} {p : Row → Except JsError Bool}
    (h : asked = true → Filters t p) : AllFilter t (onlyIf asked p) := by
  intro q hq
  cases asked with
  | false => exact absurd hq List.not_mem_nil
  | true => exact (List.mem_singleton.mp hq) ▸ h rfl

end

theorem Listable.of_rows {s s' : Store} (h : Listable s)
    (hr : ∀ t, s'.cache.rows t ⊆ s.cache.rows t) : Listable s' := by
  refine ⟨fun t r hm => h.fits t r (hr t hm), ?_, ?_⟩
  · exact List.subset_nil.mp (h.skus ▸ hr .productSkus)
  · exact List.subset_nil.mp (h.items ▸ hr .welfareCodeItems)

theorem listable_putRows {s : Store} (h : Listable s) {t : Table} {rows : List Row}
    (hrows : rows ⊆ s.cache.rows t) : Listable (s.putRows t rows) := by
  refine h.of_rows fun u => ?_
  rw [Store.cache_putRows, StoreData.rows_setRows]
  split
  · rename_i hu
    exact hu ▸ hrows
  · exact List.Subset.refl _

section
variable {env : Env} {s : Store} {t : Table}

/-- A list over rows that can be used returns rows that can be used. -/
theorem returns_listed (h : Listable s) (ht : t ∈ listedTables)
    {filters : List (Row → Except JsError Bool)} (hf : AllFilter t filters) :
    Action.Returns (fun rows s' => (∀ r ∈ rows, FitsRow t r) ∧ Listable s') s
      (listed env t filters) := by
  have hsort : ∀ rows : List Row, rows ⊆ s.cache.rows t →
      ∃ sorted, arraySort (listOrder env t) rows = .ok sorted ∧ sorted ⊆ s.cache.rows t := by
    intro rows hrows
    obtain ⟨sorted, hs⟩ := exists_arraySort fun a ha b hb =>
      exists_listOrder env ht (h.fits t a (hrows ha)) (h.fits t b (hrows hb))
    exact ⟨sorted, hs, fun a ha => hrows ((arraySort_perm hs).subset ha)⟩
  cases filters with
  | nil =>
    obtain ⟨sorted, hs, hsub⟩ := hsort _ (List.Subset.refl _)
    refine ⟨sorted, s.putRows t sorted, ?_, fun r hr => h.fits t r (hsub hr), listable_putRows h hsub⟩
    change sortTable env t s = _
    unfold sortTable
    rw [show s.getTable t = s.cache.rows t from rfl, hs]
  | cons p ps =>
    obtain ⟨kept, hk, hsub⟩ : ∃ kept, filterAll (p :: ps) (s.cache.rows t) = .ok kept ∧
        kept ⊆ s.cache.rows t := exists_filterAll
      fun q hq a ha => hf q hq a (h.fits t a ha)
    obtain ⟨sorted, hs, hsorted⟩ := hsort kept hsub
    refine Action.returns_reads_bind (Action.returns_lift_bind hk ?_)
    exact Action.returns_lift hs ⟨fun r hr => h.fits t r (hsorted hr), h⟩

/-- A text or nothing. -/
def PlainText (v : JsVal) : Prop := v = .undefined ∨ ∃ x, v = .str x

theorem exists_lowered (env : Env) {v : JsVal} (hv : PlainText v) (name : String) :
    ∃ kw, lowered env name v = .ok kw ∧ (v.truthy = true → ∃ x, kw = .str x) := by
  unfold lowered
  rcases hv with rfl | ⟨x, rfl⟩
  · exact ⟨_, rfl, fun ht => absurd ht (by decide)⟩
  · split
    · exact ⟨_, rfl, fun _ => ⟨_, rfl⟩⟩
    · rename_i ht
      exact ⟨_, rfl, fun ht' => absurd ht' ht⟩

theorem PlainText.str_of_truthy {v : JsVal} (hv : PlainText v) (ht : v.truthy = true) :
    ∃ x, v = .str x := by
  rcases hv with rfl | hx
  · exact absurd ht (by decide)
  · exact hx

theorem paginate_subset (page pageSize : Option JsNum) (rows : List Row) :
    paginate page pageSize rows ⊆ rows :=
  fun _ hr => List.mem_of_mem_drop (List.mem_of_mem_take hr)

theorem returns_productsList (h : Listable s) {query : Products.ListQuery}
    (hk : PlainText query.keyword) :
    Action.Returns (fun _ s' => Listable s') s (Products.list env query) := by
  obtain ⟨kw, hkw, htext⟩ := exists_lowered env hk "keyword"
  have hfilters : ∃ ps, query.filters env = .ok ps ∧ AllFilter .products ps := by
    refine ⟨_, by unfold Products.ListQuery.filters; rw [hkw]; rfl, ?_⟩
    refine (AllFilter.append ?_ ?_).append ?_
    · refine allFilter_onlyIf fun ht => ?_
      obtain ⟨x, rfl⟩ := htext ht
      exact filters_columnMatches (by simp [listUses])
    · exact allFilter_onlyIf fun _ => filters_columnIs _ _
    · exact allFilter_onlyIf fun _ => filters_columnIs _ _
  obtain ⟨ps, hps, hall⟩ := hfilters
  refine Action.returns_lift_bind hps (Action.returns_bind (returns_listed h (by decide) hall) ?_)
  exact fun rows s' hr => Action.returns_pure hr.2

theorem returns_codesList (h : Listable s) {query : WelfareCodes.ListQuery}
    (hk : PlainText query.keyword) :
    Action.Returns (fun _ s' => Listable s') s (WelfareCodes.list env query) := by
  obtain ⟨kw, hkw, htext⟩ := exists_lowered env hk "keyword"
  have hfilters : ∃ ps, query.filters env = .ok ps ∧ AllFilter .welfareCodes ps := by
    refine ⟨_, by unfold WelfareCodes.ListQuery.filters; rw [hkw]; rfl, ?_⟩
    refine (AllFilter.append ?_ ?_).append ?_
    · refine allFilter_onlyIf fun ht => ?_
      obtain ⟨x, rfl⟩ := htext ht
      exact filters_either (filters_columnMatches (by simp [listUses]))
        (filters_columnMatches (by simp [listUses]))
    · exact allFilter_onlyIf fun _ => filters_columnIs _ _
    · exact allFilter_onlyIf fun _ => filters_columnIs _ _
  obtain ⟨ps, hps, hall⟩ := hfilters
  refine Action.returns_lift_bind hps (Action.returns_bind (returns_listed h (by decide) hall) ?_)
  rintro rows s' ⟨_, hs'⟩
  -- without items every code gets two empty texts
  have hitems : s'.getTable .welfareCodeItems = [] := hs'.items
  obtain ⟨codes, hcodes⟩ := exists_mapM (f := WelfareCodes.withItems [])
    (l := paginate query.page query.pageSize rows) fun wc _ => ⟨_, rfl⟩
  refine Action.returns_reads_bind ?_
  rw [hitems]
  exact Action.returns_lift_bind hcodes (Action.returns_pure hs')

theorem returns_propertiesList (h : Listable s) {query : Properties.ListQuery}
    (hn : PlainText query.communityName) (hp : PlainText query.customerPhone)
    (ha : PlainText query.authCode) (hs : PlainText query.startAt) (he : PlainText query.endAt)
    (hk : PlainText query.keyword) :
    Action.Returns (fun p s' => (∀ r ∈ p.2, FitsRow .properties r) ∧ Listable s') s
      (Properties.list env query) := by
  obtain ⟨name, hname, hnameText⟩ := exists_lowered env hn "communityName"
  obtain ⟨kw, hkw, htext⟩ := exists_lowered env hk "keyword"
  have hfilters : ∃ ps, query.filters env = .ok ps ∧ AllFilter .properties ps := by
    refine ⟨_, by unfold Properties.ListQuery.filters; rw [hname, hkw]; rfl, ?_⟩
    refine ((((((AllFilter.append ?_ ?_).append ?_).append ?_).append ?_).append ?_).append ?_).append ?_
    · refine allFilter_onlyIf fun ht => ?_
      obtain ⟨x, rfl⟩ := hnameText ht
      exact filters_columnMatches (by simp [listUses])
    · refine allFilter_onlyIf fun ht => ?_
      obtain ⟨x, hx⟩ := hp.str_of_truthy ht
      exact filters_columnIncludes hx (by simp [listUses])
    · refine allFilter_onlyIf fun ht => ?_
      obtain ⟨x, hx⟩ := ha.str_of_truthy ht
      exact filters_columnIncludes hx (by simp [listUses])
    · refine allFilter_onlyIf fun ht => ?_
      obtain ⟨x, hx⟩ := hs.str_of_truthy ht
      exact (filters_created hx (by simp [listUses])).1
    · refine allFilter_onlyIf fun ht => ?_
      obtain ⟨x, hx⟩ := he.str_of_truthy ht
      exact (filters_created hx (by simp [listUses])).2
    · refine allFilter_onlyIf fun ht => ?_
      obtain ⟨x, rfl⟩ := htext ht
      exact filters_either (filters_columnMatches (by simp [listUses]))
        (filters_columnMatches (by simp [listUses]))
    · exact allFilter_onlyIf fun _ => filters_columnIs _ _
    · exact allFilter_onlyIf fun _ => filters_columnIs _ _
  obtain ⟨ps, hps, hall⟩ := hfilters
  refine Action.returns_lift_bind hps (Action.returns_bind (returns_listed h (by decide) hall) ?_)
  rintro rows s' ⟨hrows, hs'⟩
  exact Action.returns_pure ⟨fun r hr => hrows r (paginate_subset _ _ _ hr), hs'⟩

theorem exists_numberOr {r : Row} {k : String} (d : JsNum)
    (hv : Use.converted.Fits (r.get k)) : ∃ v, Properties.numberOr r k d = .ok v := by
  obtain ⟨n, hn⟩ := Use.exists_toNumber (Use.fits_or hv (Use.converted_num d))
  unfold Properties.numberOr
  rw [hn]
  exact ⟨_, rfl⟩

theorem exists_title {row : Row} (h : FitsRow .properties row) :
    ∃ v, Properties.title row = .ok v := by
  have hname : ∃ x, ((row.get "community_name").or (.str "")).toText = .ok x := by
    refine Use.fits_or (u := .converted) ?_ ⟨_, rfl⟩
    rcases h.get (k := "community_name") (u := .lowered) (by simp [listUses]) with hn | ⟨x, hx⟩
    · cases hv : row.get "community_name" <;> rw [hv] at hn <;> first | exact ⟨_, rfl⟩ | cases hn
    · exact ⟨x, by rw [hx]; rfl⟩
  have hhouse : ∃ x, ((row.get "house_type").or (.str "")).toText = .ok x :=
    Use.fits_or (u := .converted) (h.get (by simp [listUses])) ⟨_, rfl⟩
  obtain ⟨x, hx⟩ := hname
  obtain ⟨y, hy⟩ := hhouse
  unfold Properties.title
  rw [hx, hy]
  exact ⟨_, rfl⟩

/-- The mall page shows every row that can be used. -/
theorem exists_mallItem {row : Row} (h : FitsRow .properties row) :
    ∃ item, Properties.mallItem row = .ok item := by
  obtain ⟨title, htitle⟩ := exists_title h
  obtain ⟨price, hprice⟩ := exists_numberOr (r := row) (k := "price_cent") (.fin 0)
    (h.get (by simp [listUses]))
  obtain ⟨stock, hstock⟩ := exists_numberOr (r := row) (k := "stock") (.fin 1)
    (h.get (by simp [listUses]))
  obtain ⟨featured, hfeatured⟩ := exists_numberOr (r := row) (k := "is_featured") (.fin 0)
    (h.get (by simp [listUses]))
  unfold Properties.mallItem
  rw [htitle, hprice, hstock, hfeatured]
  exact ⟨_, rfl⟩

/-- The answer of a list: success. -/
def Answers (res : Response) (_ : Store) : Prop := ∃ body, res = .ok body

theorem PlainQuery.or_str {query : Row} (hq : PlainQuery query) (k d : String) :
    ∃ x, (query.get k).or (.str d) = .str x := by
  unfold JsVal.or
  rcases hq k with hv | ⟨x, hv⟩
  · rw [hv]
    exact ⟨d, rfl⟩
  · rw [hv]
    split
    · exact ⟨x, rfl⟩
    · exact ⟨d, rfl⟩

theorem PlainQuery.parseIntOr {query : Row} (hq : PlainQuery query) (k d : String) :
    ∃ n, parseIntOr query k d = .ok n := by
  obtain ⟨x, hx⟩ := hq.or_str k d
  unfold JtfpMall.parseIntOr
  rw [hx]
  exact ⟨_, rfl⟩

theorem PlainQuery.pageFrom1 {query : Row} (hq : PlainQuery query) :
    ∃ n, pageFrom1 query = .ok n := by
  obtain ⟨n, hn⟩ := hq.parseIntOr "page" "1"
  unfold JtfpMall.pageFrom1
  rw [hn]
  exact ⟨_, rfl⟩

theorem PlainQuery.pageSizeTo100 {query : Row} (hq : PlainQuery query) :
    ∃ n, pageSizeTo100 query = .ok n := by
  obtain ⟨n, hn⟩ := hq.parseIntOr "pageSize" "20"
  unfold JtfpMall.pageSizeTo100
  rw [hn]
  exact ⟨_, rfl⟩

theorem PlainQuery.keywordOf {query : Row} (hq : PlainQuery query) :
    PlainText (keywordOf query) := by
  unfold JtfpMall.keywordOf JsVal.or
  split
  · exact hq "keyword"
  · exact Or.inl rfl

theorem PlainQuery.toInt {query : Row} (hq : PlainQuery query) (k : String) (fallback : ℕ) :
    ∃ n, PropertyRoutes.toInt (query.get k) fallback = .ok n := by
  unfold PropertyRoutes.toInt
  rcases hq k with hv | ⟨x, hv⟩
  · rw [hv]
    exact ⟨_, rfl⟩
  · rw [hv]
    exact ⟨_, rfl⟩

theorem PlainQuery.mallKeyword {query : Row} (hq : PlainQuery query) :
    ∃ kw, PropertyRoutes.mallKeyword query = .ok kw ∧ PlainText kw := by
  obtain ⟨x, hx⟩ := hq.or_str "keyword" ""
  unfold PropertyRoutes.mallKeyword
  rw [hx]
  refine ⟨(JsVal.str (trim x)).or .undefined, rfl, ?_⟩
  unfold JsVal.or
  split
  · exact Or.inr ⟨_, rfl⟩
  · exact Or.inl rfl

theorem plainQuery_single (k x : String) : PlainQuery (.ofList [(k, .str x)]) := by
  intro k'
  rw [get_single]
  split
  · exact Or.inr ⟨x, rfl⟩
  · exact Or.inl rfl

theorem returns_adminProperties (h : Listable s) {query : Row} (hq : PlainQuery query) :
    Action.Returns Answers s (PropertyRoutes.adminList env query) := by
  obtain ⟨page, hpage⟩ := hq.parseIntOr "page" "1"
  obtain ⟨size, hsize⟩ := hq.pageSizeTo100
  refine Action.returns_attempt (Action.returns_lift_bind hpage (Action.returns_lift_bind hsize ?_))
  refine Action.returns_bind (returns_propertiesList h (hq _) (hq _) (hq _) (hq _) (hq _)
    (Or.inl rfl)) fun rows s' _ => ?_
  exact Action.returns_pure ⟨_, rfl⟩

theorem returns_exportProperties (h : Listable s) :
    Action.Returns Answers s (PropertyRoutes.exportAll env) := by
  refine Action.returns_attempt (Action.returns_bind (returns_propertiesList h (Or.inl rfl)
    (Or.inl rfl) (Or.inl rfl) (Or.inl rfl) (Or.inl rfl) (Or.inl rfl)) fun rows s' _ => ?_)
  exact Action.returns_pure ⟨_, rfl⟩

theorem returns_mallList (h : Listable s) {query : Row} (hq : PlainQuery query) :
    Action.Returns Answers s (PropertyRoutes.mallList env query) := by
  obtain ⟨page, hpage⟩ := hq.toInt "page" 1
  obtain ⟨size, hsize⟩ := hq.toInt "pageSize" 20
  obtain ⟨kw, hkw, htext⟩ := hq.mallKeyword
  obtain ⟨category, hcategory⟩ := hq.toInt "categoryId" 0
  refine Action.returns_attempt (Action.returns_lift_bind hpage (Action.returns_lift_bind hsize
    (Action.returns_lift_bind hkw (Action.returns_lift_bind hcategory ?_))))
  refine Action.returns_bind (P := fun _ _ => True) ?_ fun p s' _ => Action.returns_pure ⟨_, rfl⟩
  refine Action.returns_bind (returns_propertiesList h (Or.inl rfl) (Or.inl rfl) (Or.inl rfl)
    (Or.inl rfl) (Or.inl rfl) htext) ?_
  rintro p s' ⟨hrows, _⟩
  obtain ⟨items, hitems⟩ := exists_mapM fun row hrow => exists_mallItem (hrows row hrow)
  exact Action.returns_lift_bind hitems (Action.returns_pure trivial)

theorem mem_of_mem_distinct {v : JsVal} {vs : List JsVal} (h : v ∈ Properties.distinct vs) :
    v ∈ vs := by
  induction vs with
  | nil => exact h
  | cons w vs ih =>
    rcases List.mem_cons.mp h with rfl | h
    · exact List.mem_cons_self
    · exact List.mem_cons_of_mem w (ih (List.mem_of_mem_filter h))

theorem not_truthy_of_isNullish {v : JsVal} (h : v.isNullish = true) : v.truthy = false := by
  cases v with
  | undefined => rfl
  | null => rfl
  | _ => cases h

/-- Every community name is a text. -/
theorem returns_communities (h : Listable s) : Action.Returns Answers s PropertyRoutes.communities := by
  have hnames : ∃ names, Properties.namesOf (s.cache.rows .properties) = .ok names := by
    refine exists_arraySort fun a ha b hb => ?_
    have htext : ∀ v ∈ Properties.distinct (((s.cache.rows .properties).map
        fun r => r.get "community_name").filter JsVal.truthy), ∃ x, v.toText = .ok x := by
      intro v hv
      have hmem : v ∈ ((s.cache.rows .properties).map
          fun r => r.get "community_name").filter JsVal.truthy := mem_of_mem_distinct hv
      obtain ⟨hm, ht⟩ := List.mem_filter.mp hmem
      obtain ⟨r, hr, rfl⟩ := List.mem_map.mp hm
      rcases (h.fits .properties r hr).get (k := "community_name") (u := .lowered)
        (by simp [listUses]) with hn | ⟨x, hx⟩
      · rw [not_truthy_of_isNullish hn] at ht
        cases ht
      · exact ⟨x, by rw [hx]; rfl⟩
    obtain ⟨x, hx⟩ := htext a ha
    obtain ⟨y, hy⟩ := htext b hb
    refine ⟨if textLt x y then .fin (-1) else if textLt y x then .fin 1 else .fin 0, ?_⟩
    rw [hx, hy]
    rfl
  obtain ⟨names, hn⟩ := hnames
  refine Action.returns_attempt (Action.returns_bind (P := fun _ _ => True) ?_ fun _ _ _ =>
    Action.returns_pure ⟨_, rfl⟩)
  exact Action.returns_reads_bind (Action.returns_lift hn trivial)

theorem returns_products (h : Listable s) {query : Row} (hq : PlainQuery query) :
    Action.Returns Answers s (CatalogueRoutes.products env query) := by
  obtain ⟨page, hpage⟩ := hq.pageFrom1
  obtain ⟨size, hsize⟩ := hq.pageSizeTo100
  obtain ⟨category, hcategory⟩ : ∃ c, CatalogueRoutes.categoryOf query = .ok c := by
    obtain ⟨n, hn⟩ := hq.parseIntOr "categoryId" "0"
    unfold CatalogueRoutes.categoryOf
    rw [hn]
    exact ⟨_, rfl⟩
  refine Action.returns_attempt (Action.returns_lift_bind hpage (Action.returns_lift_bind hsize
    (Action.returns_lift_bind hcategory ?_)))
  exact Action.returns_bind (returns_productsList h hq.keywordOf) fun _ _ _ =>
    Action.returns_pure ⟨_, rfl⟩

theorem returns_adminProducts (h : Listable s) {query : Row} (hq : PlainQuery query) :
    Action.Returns Answers s (CatalogueRoutes.adminProducts env query) := by
  obtain ⟨page, hpage⟩ := hq.parseIntOr "page" "1"
  obtain ⟨size, hsize⟩ := hq.pageSizeTo100
  refine Action.returns_attempt (Action.returns_lift_bind hpage (Action.returns_lift_bind hsize ?_))
  exact Action.returns_bind (returns_productsList h hq.keywordOf) fun _ _ _ =>
    Action.returns_pure ⟨_, rfl⟩

theorem returns_skusOf (h : Listable s) (products : List Row) :
    Action.Returns (fun _ _ => True) s (CatalogueRoutes.skusOf products) := by
  have hskus : ∀ p, s.findAll .productSkus p = [] := by
    intro p
    unfold Store.findAll Store.getTable
    rw [h.skus]
    rfl
  induction products with
  | nil => exact Action.returns_pure trivial
  | cons product products ih =>
    refine Action.returns_bind (P := fun _ s' => s' = s) ?_ ?_
    · refine Action.returns_reads_bind ?_
      rw [hskus]
      exact Action.returns_lift (a := []) rfl rfl
    · rintro skus s' rfl
      exact Action.returns_bind ih fun _ _ _ => Action.returns_pure trivial

theorem returns_skuLibrary (h : Listable s) {query : Row} (hq : PlainQuery query) :
    Action.Returns Answers s (CatalogueRoutes.skuLibrary env query) := by
  obtain ⟨page, hpage⟩ := hq.parseIntOr "page" "1"
  obtain ⟨size, hsize⟩ := hq.pageSizeTo100
  refine Action.returns_attempt (Action.returns_lift_bind hpage (Action.returns_lift_bind hsize ?_))
  refine Action.returns_bind (returns_productsList h (Or.inl rfl)) fun p s' hs' => ?_
  exact Action.returns_bind (returns_skusOf hs' p.2) fun _ _ _ => Action.returns_pure ⟨_, rfl⟩

theorem returns_adminCategories (h : Listable s) :
    Action.Returns Answers s (CatalogueRoutes.adminCategories env) := by
  refine Action.returns_attempt (Action.returns_bind (returns_listed h (t := .categories) (by decide)
    fun p hp => absurd hp List.not_mem_nil) fun _ _ _ => ?_)
  exact Action.returns_pure ⟨_, rfl⟩

theorem returns_mallCategories (h : Listable s) :
    Action.Returns Answers s (CatalogueRoutes.mallCategories env) := by
  have hall : AllFilter .categories [columnIs "status" (.num (.fin 1))] :=
    fun p hp => (List.mem_singleton.mp hp) ▸ filters_columnIs _ _
  refine Action.returns_attempt (Action.returns_bind (P := fun _ _ => True) ?_ fun _ _ _ =>
    Action.returns_pure ⟨_, rfl⟩)
  exact Action.returns_bind (returns_listed h (by decide) hall) fun _ _ _ => Action.returns_pure trivial

theorem returns_adminWelfareCodes (h : Listable s) {query : Row} (hq : PlainQuery query) :
    Action.Returns Answers s (WelfareRoutes.adminList env query) := by
  obtain ⟨page, hpage⟩ := hq.parseIntOr "page" "1"
  obtain ⟨size, hsize⟩ := hq.pageSizeTo100
  refine Action.returns_attempt (Action.returns_lift_bind hpage (Action.returns_lift_bind hsize ?_))
  exact Action.returns_bind (returns_codesList h hq.keywordOf) fun _ _ _ =>
    Action.returns_pure ⟨_, rfl⟩

/-- Every list request is answered with success. -/
theorem answer_list (h : Listable s) {r : Request} {query : Row} (hr : r.listQuery = some query)
    (hq : PlainQuery query) (at_ : Moment) : ∃ body, Server.answer env r at_ s = .ok (.ok body) := by
  have hreturns : Action.Returns Answers s (r.handle env at_) := by
    unfold Request.listQuery at hr
    split at hr <;> cases hr
    · exact returns_adminProperties h hq
    · exact returns_adminProducts h hq
    · exact returns_adminWelfareCodes h hq
    · exact returns_skuLibrary h hq
    · exact returns_adminCategories h
    · exact returns_communities h
    · exact returns_exportProperties h
    · exact returns_products h hq
    · exact returns_mallList h hq
    · exact returns_mallCategories h
  obtain ⟨res, s', hrun, body, rfl⟩ := hreturns
  exact ⟨body, congrArg Prod.fst hrun⟩

end

end JtfpMall
