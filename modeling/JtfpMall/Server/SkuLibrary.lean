import JtfpMall.Lib.Grouping
import JtfpMall.Repositories.Orderings
import JtfpMall.Server.PageWindows

/-!
# The SKU library

The admin page of all SKUs asks the list of the products for 10000 of them, gets at most 100, and
puts their SKUs in a row, product by product, before it cuts its own page. What belongs to
no product among the first 100 of the list is on no page.
-/

namespace JtfpMall

open JtfpMall.Js
open JtfpMall.Lib
open CatalogueRoutes (skuLibrary skusOf)

/-- The request for page `i` of size `n`. -/
def libraryPage (env : Env) (n i : ℕ) : Act Response :=
  skuLibrary env (.ofList [("page", .str (toString i)), ("pageSize", .str (toString n))])

/-- `r.product_id === p.id`. -/
def ownsSku (p sku : Row) : Bool := Products.ofProduct (p.get "id") sku

/-- The rows are the SKUs of the store, each once and with the title of its product; those of one
product are together and in the order of their weight. -/
def ShowsSkus (s : Store) (rows : List Row) : Prop :=
  ∃ groups : List (List Row), groups.flatten.Perm (s.getTable .productSkus) ∧
    (∀ g ∈ groups, (∀ a ∈ g, ∀ b ∈ g, a.get "product_id" = b.get "product_id") ∧
      g.Pairwise fun a b => weightOf (b.get "sort_order") ≤ weightOf (a.get "sort_order")) ∧
    (groups.Pairwise fun g h => ∀ a ∈ g, ∀ b ∈ h, a.get "product_id" ≠ b.get "product_id") ∧
    List.Forall₂ (fun sku row => ∃ p ∈ s.getTable .products, ownsSku p sku = true ∧
      row = sku.set "product_title" (p.get "title")) groups.flatten rows

/-- The total of an answer. -/
def Response.HasTotal (res : Response) (n : ℕ) : Prop :=
  res.body.lookup "total" = some (.number n)

/-- The first page names the number of the SKUs as the total, and the pages up to that total, read
one after another, show every SKU. -/
def LibraryComplete (env : Env) (s : Store) (n : ℕ) : Prop :=
  ∃ first s₁ pages s₂, (libraryPage env n 1).run s = (.ok first, s₁) ∧
    first.HasTotal (s.getTable .productSkus).length ∧
    (readPages (libraryPage env n) 1 (pageCount (s.getTable .productSkus).length n)).run s =
      (.ok pages, s₂) ∧
    (∀ res ∈ pages, res.HasTotal (s.getTable .productSkus).length) ∧
    ShowsSkus s (pages.flatMap (Response.rowsIn "skus"))

/-- Every SKU belongs to exactly one of the first 100 products of the list. -/
def SkusReached (env : Env) (s : Store) : Prop :=
  ∃ sorted, arraySort (listOrder env .products) (s.getTable .products) = .ok sorted ∧
    ∀ sku ∈ s.getTable .productSkus, ((sorted.take 100).countP fun p => ownsSku p sku) = 1

/-- Products and SKUs are typed as their interfaces say, and every SKU belongs to a product. -/
structure Catalogued (s : Store) : Prop where
  arrays : ∀ t, (s.getTable t).length < 2 ^ 32
  products : ∀ p ∈ s.getTable .products, Sortable .products p
  skus : ∀ sku ∈ s.getTable .productSkus, Weighs (fun r => r.get "sort_order") sku
  belongs : ∀ sku ∈ s.getTable .productSkus, ∃ p ∈ s.getTable .products, ownsSku p sku = true

/-- The SKUs of one product, in their order. -/
def skusInOrder (skus : List Row) (p : Row) : List Row :=
  (skus.filter (ownsSku p)).insertionSort fun a b => mayPrecede Products.skuOrder a b = true

/-- The SKUs of the products with their titles. -/
def titled (skus : List Row) (products : List Row) : List Row :=
  products.flatMap fun p => (skusInOrder skus p).map fun sku =>
    sku.set "product_title" (p.get "title")

section
variable {env : Env} {s : Store} {sorted : List Row} {n : ℕ}

theorem run_getSkus (h : ∀ sku ∈ s.getTable .productSkus, Weighs (fun r => r.get "sort_order") sku)
    (p : Row) : (Products.getSkus (p.get "id")).run s =
      (.ok (skusInOrder (s.getTable .productSkus) p), s) := by
  have hsort : Consistent Products.skuOrder ((s.getTable .productSkus).filter (ownsSku p)) :=
    consistent_sub fun r hr => h r (List.mem_of_mem_filter hr)
  change (Action.lift (arraySort Products.skuOrder
    ((s.getTable .productSkus).filter (ownsSku p)))).run s = _
  rw [hsort.arraySort_eq]
  rfl

theorem run_skusOf (h : ∀ sku ∈ s.getTable .productSkus, Weighs (fun r => r.get "sort_order") sku)
    (products : List Row) : (skusOf products).run s =
      (.ok (titled (s.getTable .productSkus) products), s) := by
  induction products with
  | nil => rfl
  | cons p products ih =>
    rw [skusOf, Action.run_bind, run_getSkus h]
    dsimp only
    rw [Action.run_bind, ih]
    rfl

/-- The list behind the library sorts the live table and has the first 100 products. -/
theorem run_firstProducts
    (hs : arraySort (listOrder env .products) (s.getTable .products) = .ok sorted) :
    (Products.list env
      { page := none, pageSize := some (.fin 10000), keyword := .undefined, categoryId := none,
        status := .undefined }).run s =
        (.ok (sorted.length, sorted.take 100), s.putRows .products sorted) := by
  have hrun : Products.list env
      { page := none, pageSize := some (.fin 10000), keyword := .undefined, categoryId := none,
        status := .undefined } =
      (listed env .products [] >>= fun rows =>
        pure (rows.length, paginate none (some (.fin 10000)) rows)) := rfl
  rw [hrun, Action.run_bind, run_listed_nil hs]
  dsimp only
  rw [paginate_capped]
  rfl

/-- A number in a query. -/
theorem parseIntOr_natCast {query : Row} {name : String} {k : ℕ} (d : String)
    (hq : query.get name = .str (toString k)) (hk : k ≤ 2 ^ 53) :
    parseIntOr query name d = .ok (.fin k) := by
  have hor : (JsVal.str (toString k)).or (.str d) = .str (toString k) := by
    simp [JsVal.or, JsVal.truthy]
  unfold parseIntOr
  rw [hq, hor]
  change Except.ok (parseInt (toString k)) = _
  rw [parseInt_toString hk]
  rfl

/-- The answer with page `i` of the SKUs. -/
def libraryAnswer (all : List Row) (n i : ℕ) : Response :=
  listPage all.length (.fin i) (.fin n) [("skus", .rows (pageOf n (i - 1) all))]

/-- The answer to the request for one page. -/
theorem run_libraryPage
    (hs : arraySort (listOrder env .products) (s.getTable .products) = .ok sorted)
    (hw : ∀ sku ∈ s.getTable .productSkus, Weighs (fun r => r.get "sort_order") sku)
    (hn : 1 ≤ n) (hn' : n ≤ 100) {i : ℕ} (hi : i * n + n ≤ 2 ^ 53) :
    (libraryPage env n (i + 1)).run s =
      (.ok (libraryAnswer (titled (s.getTable .productSkus) (sorted.take 100)) n (i + 1)),
        s.putRows .products sorted) := by
  have hquery : ∀ p z : String, (Dict.ofList [("page", JsVal.str p), ("pageSize", JsVal.str z)]).get
      "page" = .str p ∧ (Dict.ofList [("page", JsVal.str p), ("pageSize", JsVal.str z)]).get
      "pageSize" = .str z := fun p z => by simp [Dict.ofList, Dict.get_set]
  have hpage : i + 1 ≤ 2 ^ 53 := by nlinarith
  have hsize : pageSizeTo100 (.ofList [("page", .str (toString (i + 1))),
      ("pageSize", .str (toString n))]) = .ok (.fin n) := by
    unfold pageSizeTo100
    rw [parseIntOr_natCast "20" (hquery _ _).2 (by omega)]
    exact congrArg Except.ok (min_of_le_hundred hn')
  unfold libraryPage skuLibrary adminGuarded
  rw [parseIntOr_natCast "1" (hquery _ _).1 hpage, hsize, Action.lift_ok_bind,
    Action.lift_ok_bind, Action.run_attempt, Action.run_bind, run_firstProducts hs]
  dsimp only
  have hskus : (s.putRows .products sorted).getTable .productSkus = s.getTable .productSkus :=
    StoreData.rows_setRows_of_ne _ _ (by decide)
  rw [Action.run_bind, run_skusOf (by rw [hskus]; exact hw), hskus]
  dsimp only
  rw [slice_page hn hi]
  rfl

/-- What stays as it is while the pages are read. -/
def Reading (env : Env) (s : Store) (sorted : List Row) (s' : Store) : Prop :=
  s'.getTable .productSkus = s.getTable .productSkus ∧
    arraySort (listOrder env .products) (s'.getTable .products) = .ok sorted

/-- The pages in a row are the SKUs of the first 100 products. -/
theorem run_pages [Std.TransCmp env.localeCompare] (hc : Catalogued s)
    (hs : arraySort (listOrder env .products) (s.getTable .products) = .ok sorted)
    (hn : 1 ≤ n) (hn' : n ≤ 100) {first count : ℕ} (hf : 1 ≤ first)
    (hcount : (first + count) * n ≤ 2 ^ 53) :
    ∃ s', (readPages (libraryPage env n) first count).run s = (.ok ((List.range' first count).map
      (libraryAnswer (titled (s.getTable .productSkus) (sorted.take 100)) n)), s') := by
  have hconsistent : Consistent (listOrder env .products) sorted :=
    (consistent_listOrder (by decide) hc.products).subset fun p hp =>
      (arraySort_perm hs).subset hp
  obtain ⟨s', hrun, _⟩ := run_readPages (libraryPage env n)
    (libraryAnswer (titled (s.getTable .productSkus) (sorted.take 100)) n) (Reading env s sorted)
    first count (by
      rintro i s₁ hi hlt ⟨hskus, hsorted⟩
      obtain ⟨j, rfl⟩ : ∃ j, i = j + 1 := ⟨i - 1, by omega⟩
      refine ⟨s₁.putRows .products sorted, ?_, ?_, ?_⟩
      · rw [run_libraryPage hsorted (by rw [hskus]; exact hc.skus) hn hn', hskus]
        calc j * n + n = (j + 1) * n := by ring
          _ ≤ (first + count) * n := Nat.mul_le_mul_right n (by omega)
          _ ≤ 2 ^ 53 := hcount
      · rw [← hskus]
        exact StoreData.rows_setRows_of_ne _ _ (by decide)
      · change arraySort _ ((s₁.cache.setRows .products sorted).rows .products) = _
        rw [StoreData.rows_setRows_self]
        exact arraySort_arraySort hconsistent hs) ⟨rfl, hs⟩
  exact ⟨s', hrun⟩

theorem hasTotal_libraryAnswer (all : List Row) (i : ℕ) :
    (libraryAnswer all n i).HasTotal all.length := rfl

theorem total_unique {res : Response} {j k : ℕ} (hj : res.HasTotal j) (hk : res.HasTotal k) :
    j = k := by
  have heq := Option.some.inj (hj.symm.trans hk)
  exact JsNum.ofNat_inj.mp (JsVal.num.inj (Reply.val.inj heq))

theorem rowsIn_libraryAnswer (all : List Row) (i : ℕ) :
    (libraryAnswer all n i).rowsIn "skus" = pageOf n (i - 1) all := rfl

/-- As many pages as the length asks for are everything. -/
theorem flatMap_libraryAnswer (hn : 1 ≤ n) (all : List Row) :
    ((List.range' 1 (pageCount all.length n)).map (libraryAnswer all n)).flatMap
      (Response.rowsIn "skus") = all := by
  rw [List.flatMap_map, List.range'_eq_map_range, List.flatMap_map]
  simp only [rowsIn_libraryAnswer, Nat.add_sub_cancel_left]
  exact flatMap_pages hn all

/-- The SKUs behind the rows. -/
def untitled (skus products : List Row) : List Row := products.flatMap (skusInOrder skus)

theorem skusInOrder_perm (skus : List Row) (p : Row) :
    (skusInOrder skus p).Perm (skus.filter (ownsSku p)) := List.perm_insertionSort _ _

theorem untitled_perm (skus products : List Row) :
    (untitled skus products).Perm (grouped ownsSku products skus) :=
  List.Perm.flatMap_left _ fun p _ => skusInOrder_perm skus p

theorem titled_forall₂ (skus products : List Row) :
    List.Forall₂ (fun sku row => ∃ p ∈ products, ownsSku p sku = true ∧
      row = sku.set "product_title" (p.get "title")) (untitled skus products)
        (titled skus products) := by
  have hsub : ∀ ps, ps ⊆ products → List.Forall₂ (fun sku row => ∃ p ∈ products,
      ownsSku p sku = true ∧ row = sku.set "product_title" (p.get "title")) (untitled skus ps)
        (titled skus ps) := by
    intro ps
    induction ps with
    | nil => exact fun _ => .nil
    | cons p ps ih =>
      intro hps
      refine List.rel_append ?_ (ih fun q hq => hps (List.mem_cons_of_mem p hq))
      refine List.forall₂_map_right_iff.mpr (List.forall₂_same.mpr fun sku hsku => ?_)
      have hown := (List.mem_filter.mp ((skusInOrder_perm skus p).mem_iff.mp hsku)).2
      exact ⟨p, hps List.mem_cons_self, hown, rfl⟩
  exact hsub products (List.Subset.refl products)

theorem countP_forall₂ {R : Row → Row → Prop} {l m : List Row} {p q : Row → Bool}
    (h : List.Forall₂ R l m) (hp : ∀ a b, R a b → p a = q b) : l.countP p = m.countP q := by
  rw [List.countP_eq_length_filter, List.countP_eq_length_filter]
  exact (filter_forall₂ h hp).length_eq

/-- A title does not change whose SKU it is. -/
theorem product_set_title (sku : Row) (v : JsVal) :
    (sku.set "product_title" v).get "product_id" = sku.get "product_id" := by
  rw [Dict.get_set, if_neg (by decide)]

/-- Rows that show every SKU once come from products of which none is missing and none twice. -/
theorem countP_of_showsSkus {products : List Row}
    (h : ShowsSkus s (titled (s.getTable .productSkus) products)) {sku : Row}
    (hsku : sku ∈ s.getTable .productSkus) : (products.countP fun p => ownsSku p sku) = 1 := by
  obtain ⟨groups, hperm, _, _, hrows⟩ := h
  -- count the rows of the product the SKU names, in two ways
  let named (r : Row) : Bool := decide (r.get "product_id" = sku.get "product_id")
  have hshown : (titled (s.getTable .productSkus) products).countP named =
      (s.getTable .productSkus).countP named := by
    rw [← hperm.countP_eq]
    refine (countP_forall₂ hrows ?_).symm
    rintro a b ⟨p, _, _, rfl⟩
    simp only [named, product_set_title]
  have hlisted : (titled (s.getTable .productSkus) products).countP named =
      (products.countP fun p => ownsSku p sku) * (s.getTable .productSkus).countP named := by
    rw [← countP_grouped ownsSku named _ fun a _ ha => ?_, ← (untitled_perm _ _).countP_eq]
    · refine (countP_forall₂ (titled_forall₂ _ _) ?_).symm
      rintro a b ⟨p, _, _, rfl⟩
      simp only [named, product_set_title]
    · have hname : a.get "product_id" = sku.get "product_id" := of_decide_eq_true ha
      unfold ownsSku Products.ofProduct
      rw [hname]
  have hpos : 0 < (s.getTable .productSkus).countP named :=
    List.countP_pos_iff.mpr ⟨sku, hsku, by simp [named]⟩
  rw [hshown] at hlisted
  exact (Nat.eq_of_mul_eq_mul_right hpos (by rw [Nat.one_mul]; exact hlisted)).symm

/-- The SKUs of products that have each of them once. -/
theorem showsSkus_of_countP {products : List Row} (hsub : products ⊆ s.getTable .products)
    (hw : ∀ sku ∈ s.getTable .productSkus, Weighs (fun r => r.get "sort_order") sku)
    (h : ∀ sku ∈ s.getTable .productSkus, (products.countP fun p => ownsSku p sku) = 1) :
    ShowsSkus s (titled (s.getTable .productSkus) products) := by
  have hown : ∀ p, ∀ a ∈ skusInOrder (s.getTable .productSkus) p,
      a ∈ s.getTable .productSkus ∧ ownsSku p a = true := fun p a ha =>
    List.mem_filter.mp ((skusInOrder_perm _ p).mem_iff.mp ha)
  refine ⟨products.map (skusInOrder (s.getTable .productSkus)), ?_, ?_, ?_, ?_⟩
  · rw [← List.flatMap_def]
    exact (untitled_perm _ _).trans (grouped_perm_self ownsSku h)
  · intro g hg
    obtain ⟨p, _, rfl⟩ := List.mem_map.mp hg
    refine ⟨fun a ha b hb => ?_, ?_⟩
    · exact (JsVal.eq_of_strictEq (hown p a ha).2).trans (JsVal.eq_of_strictEq (hown p b hb).2).symm
    · have hsort : Consistent Products.skuOrder
          ((s.getTable .productSkus).filter (ownsSku p)) :=
        consistent_sub fun r hr => hw r (List.mem_of_mem_filter hr)
      refine hsort.orders.pairwise_insertionSort.imp_of_mem fun {a b} ha hb hab => ?_
      exact (mayPrecede_sub (hw a (hown p a ha).1) (hw b (hown p b hb).1)).mp hab
  · rw [List.pairwise_map]
    refine (pairwise_owns ownsSku fun a ha => (h a ha).le).imp fun {p q} hpq a ha b hb heq => ?_
    refine hpq a (hown p a ha).1 (hown p a ha).2 ?_
    have hb' := (hown q b hb).2
    unfold ownsSku Products.ofProduct at hb' ⊢
    rw [heq]
    exact hb'
  · rw [← List.flatMap_def]
    refine (titled_forall₂ _ _).imp fun sku row => ?_
    rintro ⟨p, hp, hown, rfl⟩
    exact ⟨p, hsub hp, hown, rfl⟩

theorem length_titled {products : List Row}
    (h : ∀ sku ∈ s.getTable .productSkus, (products.countP fun p => ownsSku p sku) = 1) :
    (titled (s.getTable .productSkus) products).length = (s.getTable .productSkus).length := by
  rw [← (titled_forall₂ _ _).length_eq]
  exact ((untitled_perm _ _).trans (grouped_perm_self ownsSku h)).length_eq

end

/-- The pages of the library show every SKU exactly when every SKU belongs to exactly one of the
first 100 products. -/
theorem library_complete_iff (env : Env) [Std.TransCmp env.localeCompare] (s : Store)
    (hc : Catalogued s) (n : ℕ) (hn : 1 ≤ n) (hn' : n ≤ 100) :
    LibraryComplete env s n ↔ SkusReached env s := by
  obtain ⟨sorted, hs⟩ : ∃ sorted, arraySort (listOrder env .products) (s.getTable .products) =
      .ok sorted := ⟨_, (consistent_listOrder (by decide) hc.products).arraySort_eq⟩
  have hbound : (1 + pageCount (s.getTable .productSkus).length n) * n ≤ 2 ^ 53 := by
    have hcount := pageCount_mul_le (s.getTable .productSkus).length n
    have hlen := hc.arrays .productSkus
    rw [Nat.add_mul]
    omega
  have hfirst : (libraryPage env n (0 + 1)).run s = _ :=
    run_libraryPage hs hc.skus hn hn' (by omega)
  obtain ⟨s', hpages⟩ := run_pages hc hs hn hn' (le_refl 1) hbound
  constructor
  · rintro ⟨first, s₁, pages, s₂, hrun, htotal, hread, _, hshow⟩
    rw [hfirst] at hrun
    cases hrun
    rw [hpages] at hread
    cases hread
    rw [← total_unique (hasTotal_libraryAnswer _ _) htotal, flatMap_libraryAnswer hn] at hshow
    exact ⟨sorted, hs, fun sku hsku => countP_of_showsSkus hshow hsku⟩
  · rintro ⟨sorted', hs', hreached⟩
    rw [hs] at hs'
    cases hs'
    have htotal := length_titled hreached
    refine ⟨_, _, _, _, hfirst, ?_, hpages, ?_, ?_⟩
    · rw [← htotal]
      exact hasTotal_libraryAnswer _ _
    · intro res hres
      obtain ⟨i, _, rfl⟩ := List.mem_map.mp hres
      rw [← htotal]
      exact hasTotal_libraryAnswer _ _
    · rw [← htotal, flatMap_libraryAnswer hn]
      refine showsSkus_of_countP (fun p hp => ?_) hc.skus hreached
      exact (arraySort_perm hs).subset (List.mem_of_mem_take hp)

/-- 101 products, and one SKU, of the last of them. -/
def lastSku : Store :=
  (shopWith .products (enabledProducts 101)).putRows .productSkus
    [.ofList [("id", .num (.ofNat 1)), ("product_id", .num (.ofNat 101)), ("sort_order", .num (.fin 0))]]

theorem sorted_enabledProducts (n : ℕ) :
    arraySort (listOrder .plain .products) (enabledProducts n) = .ok (enabledProducts n) := by
  have hcmp : ∀ a ∈ enabledProducts n, ∀ b ∈ enabledProducts n,
      listOrder .plain .products a b = .ok (.fin 0) := by
    intro a ha b hb
    obtain ⟨i, _, rfl⟩ := List.mem_map.mp ha
    obtain ⟨j, _, rfl⟩ := List.mem_map.mp hb
    rfl
  refine arraySort_eq_self (fun a ha b hb => ⟨_, hcmp a ha b hb⟩)
    (List.pairwise_of_forall_mem_list fun a ha b hb => ?_)
  unfold mayPrecede
  rw [hcmp b hb a ha]
  rfl

theorem lastSku_table : lastSku.getTable .products = enabledProducts 101 :=
  (StoreData.rows_setRows_of_ne _ _ (by decide)).trans (StoreData.rows_setRows_self _ _ _)

theorem lastSku_products : arraySort (listOrder .plain .products) (lastSku.getTable .products) =
    .ok (enabledProducts 101) := by
  rw [lastSku_table]
  exact sorted_enabledProducts 101

theorem lastSku_skus : lastSku.getTable .productSkus =
    [.ofList [("id", .num (.ofNat 1)), ("product_id", .num (.ofNat 101)),
      ("sort_order", .num (.fin 0))]] := StoreData.rows_setRows_self _ _ _

theorem lastSku_weighs : ∀ sku ∈ lastSku.getTable .productSkus,
    Weighs (fun r => r.get "sort_order") sku := by
  rw [lastSku_skus]
  rintro sku hsku
  rw [List.mem_singleton.mp hsku]
  exact ⟨.fin 0, rfl, isDouble_zero⟩

theorem sortable_enabledProduct (id : ℕ) : Sortable .products (enabledProduct id) where
  weighs := by
    intro read hread
    simp only [weights, List.mem_cons, List.not_mem_nil, or_false] at hread
    rcases hread with rfl | rfl
    · exact ⟨.fin 0, rfl, isDouble_zero⟩
    · exact ⟨.fin 0, rfl, isDouble_zero⟩
  dated := ⟨"t1", rfl⟩

theorem lastSku_catalogued : Catalogued lastSku where
  arrays t := by
    change ((StoreData.setRows _ .productSkus _).rows t).length < _
    rw [StoreData.rows_setRows]
    split
    · decide
    · exact shopWith_arrays (by simp [enabledProducts]) t
  products := by
    rw [lastSku_table]
    intro p hp
    obtain ⟨i, _, rfl⟩ := List.mem_map.mp hp
    exact sortable_enabledProduct (i + 1)
  skus := lastSku_weighs
  belongs := by
    rw [lastSku_table, lastSku_skus]
    intro sku hsku
    rw [List.mem_singleton.mp hsku]
    exact ⟨enabledProduct 101, List.mem_map.mpr ⟨100, by simp, rfl⟩, by rfl⟩

theorem lastSku_complete_iff : LibraryComplete .plain lastSku 20 ↔ SkusReached .plain lastSku :=
  library_complete_iff .plain lastSku lastSku_catalogued 20 (by decide) (by decide)

/-- The library does not count the SKU of the last product. -/
theorem lastSku_incomplete : ¬ LibraryComplete .plain lastSku 20 := by
  rintro ⟨first, s₁, pages, s₂, hrun, htotal, _⟩
  have hfirst : (libraryPage .plain 20 (0 + 1)).run lastSku = _ :=
    run_libraryPage lastSku_products lastSku_weighs (by decide) (by decide) (by decide)
  rw [hfirst] at hrun
  cases hrun
  have hnone : titled (lastSku.getTable .productSkus) ((enabledProducts 101).take 100) = [] := by
    refine List.flatMap_eq_nil_iff.mpr fun p hp => ?_
    have howns : ∀ sku ∈ lastSku.getTable .productSkus, ¬ ownsSku p sku = true := by
      intro sku hsku
      unfold enabledProducts at hp
      rw [← List.map_take, List.take_range] at hp
      obtain ⟨i, hi, rfl⟩ := List.mem_map.mp hp
      rw [lastSku_skus] at hsku
      rw [List.mem_singleton.mp hsku]
      have hlt := List.mem_range.mp hi
      change ¬ (JsNum.ofNat 101).strictEq (.ofNat (i + 1)) = true
      rw [JsNum.strictEq_ofNat, decide_eq_true_eq]
      omega
    unfold skusInOrder
    rw [List.filter_eq_nil_iff.mpr howns]
    rfl
  have heq := total_unique (hasTotal_libraryAnswer _ _) htotal
  rw [hnone, lastSku_skus] at heq
  exact absurd heq (by decide)

end JtfpMall
