import JtfpMall.Server.Identity

/-!
# Partial updates

A PUT keeps the fields its body does not mention when its route hands on what the
body has. The category route does not: it makes the data of its update out of four fields,
whether the body has them or not, and what the body lacks is reset.
-/

namespace JtfpMall

open JtfpMall.Js
open JtfpMall.Lib

namespace Request

def putBody : Request → Row
  | .admin true (.updateProduct _ body) => body
  | .admin true (.updateProperty _ body) => body
  | .admin true (.updateCategory _ body) => body
  | .admin true (.updateWelfareCode _ body) => body
  | _ => .empty

/-- The fields of a body that set a column under another name. -/
def aliases : Request → List (String × String)
  | .admin true (.updateProperty _ _) =>
    [("priceYuan", "price_cent"), ("coverUrl", "cover_url"), ("isFeatured", "is_featured"),
      ("sortOrder", "sort_order")]
  | _ => []

/-- The body names the column, or sets it through an alias of the route. -/
def mentions (r : Request) (column : String) : Bool :=
  r.putBody.has column || r.aliases.any fun p => decide (p.2 = column) && r.putBody.has p.1

end Request

/-- A row keeps every field but the timestamp that the request does not mention. -/
def KeepsUnmentioned (r : Request) (row row' : Row) : Prop :=
  ∀ k, k ≠ "updated_at" → r.mentions k = false → row'.get k = row.get k

/-- Every row of every table keeps what the request does not mention. -/
def AllKeepUnmentioned (r : Request) (s s' : Store) : Prop :=
  ∀ t, List.Forall₂ (KeepsUnmentioned r) (s.cache.rows t) (s'.cache.rows t)

/-- What a category PUT writes into the columns its body lacks. -/
def categoryDefaults : List (String × JsVal) :=
  [("name", .undefined), ("icon", .undefined), ("sort_order", .num (.fin 0)),
    ("status", .num (.fin 1))]

/-- The request is a category PUT that finds its row, and the row has something else than the default
in a column the body lacks. -/
def Request.Resets (s : Store) : Request → Prop
  | .admin true (.updateCategory id body) =>
    ∃ row, s.findById .categories (.num (stringToNumber id)) = some row ∧
      ∃ p ∈ categoryDefaults, body.has p.1 = false ∧ row.get p.1 ≠ p.2
  | _ => False

theorem KeepsUnmentioned.refl (r : Request) (row : Row) : KeepsUnmentioned r row row :=
  fun _ _ _ => rfl

/-- A field of the shop page sets no column but its own. -/
theorem has_setWhenGiven {data row row' : Row} {name column : String}
    {value : JsVal → Except JsError JsVal} {k : String}
    (h : PropertyRoutes.setWhenGiven data name column value row = .ok row')
    (hk : k = column → data.has name = false) : row'.has k = row.has k := by
  unfold PropertyRoutes.setWhenGiven at h
  split at h
  · cases h
    rfl
  · rename_i hg
    obtain ⟨v, _, rfl⟩ := map_ok h
    have hne : k ≠ column := fun he => hg (Dict.get_of_not_has (hk he))
    rw [Dict.has_set, decide_eq_false hne, Bool.false_or]

theorem has_withShopFields {data out : Row} {id k : String}
    (h : PropertyRoutes.withShopFields data = .ok out)
    (hk : Request.mentions (.admin true (.updateProperty id data)) k = false) :
    out.has k = false := by
  obtain ⟨r1, r2, r3, r4, r5, h1, h2, h3, h4, h5, h6⟩ := withShopFields_steps h
  rw [Request.mentions, Bool.or_eq_false_iff] at hk
  obtain ⟨hbody, halias⟩ := hk
  have hany : ∀ p ∈ Request.aliases (.admin true (.updateProperty id data)), k = p.2 →
      data.has p.1 = false := by
    intro p hp he
    have h := List.any_eq_false.mp halias p hp
    rw [he, decide_eq_true rfl, Bool.true_and, Bool.not_eq_true] at h
    exact h
  have hown : ∀ name, k = name → data.has name = false := fun name he => he ▸ hbody
  rw [has_setWhenGiven h6 (hown _), has_setWhenGiven h5 (hany ("sortOrder", _) (by simp [Request.aliases])),
    has_setWhenGiven h4 (hany ("isFeatured", _) (by simp [Request.aliases])),
    has_setWhenGiven h3 (hown _), has_setWhenGiven h2 (hany ("coverUrl", _) (by simp [Request.aliases])),
    has_setWhenGiven h1 (hany ("priceYuan", _) (by simp [Request.aliases]))]
  exact hbody

theorem has_categoryUpdates (body : Row) (k : String) :
    (CatalogueRoutes.categoryUpdates body).has k = decide (k ∈ categoryDefaults.map Prod.fst) := by
  unfold CatalogueRoutes.categoryUpdates
  rw [Dict.has_ofList]
  rfl

/-- The data of a category PUT have four columns. -/
theorem has_categoryData (body : Row) (k : String) :
    (Categories.cleanData (CatalogueRoutes.categoryUpdates body)).has k =
      decide (k ∈ categoryDefaults.map Prod.fst) := by
  unfold Categories.cleanData
  split
  · rw [Dict.has_set, has_categoryUpdates]
    by_cases hk : k = "icon"
    · subst hk
      rfl
    · rw [decide_eq_false hk, Bool.false_or]
  · exact has_categoryUpdates body k

/-- A column that the body lacks is reset. -/
theorem get_categoryData {body : Row} {p : String × JsVal} (hp : p ∈ categoryDefaults)
    (hb : body.has p.1 = false) :
    (Categories.cleanData (CatalogueRoutes.categoryUpdates body)).get p.1 = p.2 := by
  have hg := Dict.get_of_not_has hb
  simp only [categoryDefaults, List.mem_cons, List.not_mem_nil, or_false] at hp
  unfold Categories.cleanData CatalogueRoutes.categoryUpdates
  rcases hp with rfl | rfl | rfl | rfl <;> dsimp only at hg ⊢ <;>
    split <;> simp [Dict.get_set, Dict.ofList, hg, JsVal.or, JsVal.orNullish, JsVal.truthy] at *

section
variable {r : Request} {t : Table} {id : JsNum} {data : Row} {s : Store}

/-- What a request does not mention, the data of its update do not have, or have as it is reset to. -/
theorem has_putData (hr : r.put = some (t, id)) (hd : r.putData = .ok data) {k : String}
    (hk : r.mentions k = false) (hc : t = .categories → k ∉ categoryDefaults.map Prod.fst) :
    data.has k = false := by
  have hbody : r.putBody.has k = false := (Bool.or_eq_false_iff.mp hk).1
  unfold Request.put at hr
  split at hr
  · cases hr
    cases hd
    exact hbody
  · cases hr
    exact has_withShopFields hd hk
  · cases hr
    cases hd
    rw [has_categoryData, decide_eq_false (hc rfl)]
  · cases hr
    cases hd
    exact hbody
  · cases hr

/-- A category PUT that resets a column does not keep it. -/
theorem not_resets_of_keeps (hr : r.put = some (t, id)) (hd : r.putData = .ok data) {now : String}
    (h : ∀ row, s.findById t (.num id) = some row →
      KeepsUnmentioned r row (Store.merged data now row)) : ¬r.Resets s := by
  intro hreset
  unfold Request.Resets at hreset
  split at hreset
  · obtain ⟨row, hrow, p, hp, hb, hne⟩ := hreset
    cases hr
    cases hd
    have hname : p.1 ∈ categoryDefaults.map Prod.fst := List.mem_map_of_mem hp
    have hk : p.1 ≠ "updated_at" := by
      intro he
      rw [he] at hname
      exact absurd hname (by decide)
    have hkept := h row hrow p.1 hk (by rw [Request.mentions, Request.putBody, hb]; rfl)
    rw [get_merged_of_ne hk, has_categoryData, decide_eq_true hname, if_pos rfl,
      get_categoryData hp hb] at hkept
    exact hne hkept.symm
  · exact hreset

theorem keeps_of_not_resets (hr : r.put = some (t, id)) (hd : r.putData = .ok data)
    (h : ¬r.Resets s) {row : Row} (hrow : s.findById t (.num id) = some row) (now : String) :
    KeepsUnmentioned r row (Store.merged data now row) := by
  intro k hk hm
  rw [get_merged_of_ne hk]
  by_cases hc : t = .categories → k ∉ categoryDefaults.map Prod.fst
  · rw [has_putData hr hd hm hc]
    rfl
  · obtain ⟨rfl, hname⟩ : t = .categories ∧ k ∈ categoryDefaults.map Prod.fst := by
      rwa [Classical.not_imp, not_not] at hc
    obtain ⟨p, hp, rfl⟩ := List.mem_map.mp hname
    unfold Request.put at hr
    split at hr <;> cases hr
    rename_i body
    cases hd
    have hb : body.has p.1 = false := (Bool.or_eq_false_iff.mp hm).1
    rw [has_categoryData, decide_eq_true hname, if_pos rfl, get_categoryData hp hb]
    -- the column is reset to what it was
    by_contra hne
    exact h ⟨row, hrow, p, hp, hb, fun he => hne he.symm⟩

end

/-- A PUT keeps every field that its body does not mention exactly when it is no category PUT that
lacks a column in which its row differs from the default. -/
theorem put_keeps_unmentioned_iff (env : Env) {r : Request} {t : Table} {id : JsNum}
    (hr : r.put = some (t, id)) (at_ : Moment) (s : Store) :
    AllKeepUnmentioned r s (Server.serve env r at_ s) ↔ ¬r.Resets s := by
  obtain ⟨hs, hn⟩ | ⟨data, hd, hs⟩ := serve_put env hr at_ s
  · rw [hs]
    refine iff_of_true (fun u => List.forall₂_same.mpr fun row _ => .refl r row) fun hreset => ?_
    unfold Request.Resets at hreset
    split at hreset
    · obtain ⟨row, hrow, _⟩ := hreset
      cases hr
      rcases hn with hn | ⟨e, he⟩
      · rw [hn] at hrow
        cases hrow
      · cases he
    · exact hreset
  · have hrows : AllKeepUnmentioned r s (s.update t (.num id) data (at_.clock 0)).2 ↔
        ∀ row, s.findById t (.num id) = some row →
          KeepsUnmentioned r row (Store.merged data (at_.clock 0) row) := by
      refine Iff.trans ⟨fun h => ?_, fun h u => ?_⟩
        (forall₂_modifyFirst_iff (KeepsUnmentioned.refl r) (s.cache.rows t))
      · have ht := h t
        rwa [Store.rows_update, if_pos rfl] at ht
      · rw [Store.rows_update]
        split
        · rename_i hu
          exact hu ▸ h
        · exact List.forall₂_same.mpr fun row _ => .refl r row
    rw [hs, hrows]
    exact ⟨not_resets_of_keeps hr hd, fun h row hrow => keeps_of_not_resets hr hd h hrow _⟩

namespace Server

/-- The first category is hidden and has an icon. -/
def hiddenCategory : Store :=
  serve .plain (.admin true (.updateCategory "1" (.ofList [("name", .str "a"), ("icon", .str "i"),
    ("sort_order", .num (.fin 1)), ("status", .num (.fin 0))]))) (moment "t2")
    (start "t0" (fun _ => "t1") .empty)

/-- A rename of the hidden category keeps the other columns exactly when it resets none. -/
theorem put_keeps_unmentioned_iff_hidden :
    let r : Request := .admin true (.updateCategory "1" (.ofList [("name", .str "b")]))
    AllKeepUnmentioned r hiddenCategory (serve .plain r (moment "t3") hiddenCategory) ↔
      ¬r.Resets hiddenCategory := by
  intro r
  exact put_keeps_unmentioned_iff .plain rfl (moment "t3") hiddenCategory

/-- The hidden category is renamed: it is shown again and has no icon. -/
theorem rename_shows_category :
    let r : Request := .admin true (.updateCategory "1" (.ofList [("name", .str "b")]))
    let s' := serve .plain r (moment "t3") hiddenCategory
    r.mentions "status" = false ∧ r.mentions "icon" = false ∧
      ((hiddenCategory.cache.rows .categories).map
        fun c => (c.get "status", c.get "icon")).head? = some (.num (.fin 0), .str "i") ∧
      ((s'.cache.rows .categories).map
        fun c => (c.get "status", c.get "icon")).head? = some (.num (.fin 1), .undefined) ∧
      ¬AllKeepUnmentioned r hiddenCategory s' := by
  intro r s'
  have hbefore : ((hiddenCategory.cache.rows .categories).map
      fun c => (c.get "status", c.get "icon")).head? = some (.num (.fin 0), .str "i") := by
    decide +kernel
  have hafter : ((s'.cache.rows .categories).map
      fun c => (c.get "status", c.get "icon")).head? = some (.num (.fin 1), .undefined) := by
    decide +kernel
  have hm : r.mentions "status" = false := by decide
  refine ⟨hm, by decide, hbefore, hafter, fun h => ?_⟩
  have hcategories := h .categories
  rw [List.head?_map, Option.map_eq_some_iff] at hbefore hafter
  obtain ⟨c, hc, hc0⟩ := hbefore
  obtain ⟨c', hc', hc1⟩ := hafter
  rw [List.head?_eq_some_iff] at hc hc'
  obtain ⟨l, hl⟩ := hc
  obtain ⟨l', hl'⟩ := hc'
  rw [hl, hl', List.forall₂_cons] at hcategories
  have hk := hcategories.1 "status" (by decide) hm
  rw [(Prod.mk.inj hc1).1, (Prod.mk.inj hc0).1] at hk
  exact absurd hk (by decide)

end Server

end JtfpMall
