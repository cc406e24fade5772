import JtfpMall.Lib.Relational
import JtfpMall.Server.Identity

/-!
# What the public mall can tell

Two stores agree for the public when their shown properties differ in private fields
only and their categories are the same. Every request to the mall router is then answered
alike: the status filter and the filters before it drop every other property, and the order, the page and
the answer read public fields only.
-/

namespace JtfpMall

open JtfpMall.Js
open JtfpMall.Lib
open JtfpMall.Lib.Action

/-- The fields of a property that are not for the public. -/
def privateFields : List String :=
  ["customer_name", "customer_phone", "customer_survey_brief", "assigned_salesman", "unionID",
    "openID", "auth_code"]

/-- The rows have the same public fields. -/
def SamePublic (r r' : Row) : Prop := ∀ k ∉ privateFields, r.get k = r'.get k

/-- `r.status === 1`. -/
def onShelf (r : Row) : Bool := (r.get "status").strictEq (.num (.fin 1))

/-- A text, or nothing. -/
def IsText (v : JsVal) : Prop := v.isNullish = true ∨ ∃ t, v = .str t

/-- The text fields that lists search. -/
def HasTexts (r : Row) : Prop := IsText (r.get "community_name") ∧ IsText (r.get "detail_address")

/-- The shown properties agree in their public fields, row for row, and so do the categories. -/
structure MallAgree (s s' : Store) : Prop where
  shown : List.Forall₂ SamePublic ((s.cache.rows .properties).filter onShelf)
    ((s'.cache.rows .properties).filter onShelf)
  categories : s.cache.rows .categories = s'.cache.rows .categories

/-- The requests to the mall router. -/
def PublicRequest.toMall : PublicRequest → Bool
  | .mallProperties _ => true
  | .mallCategories => true
  | .mallProperty _ => true
  | _ => false

section
variable {r r' : Row}

theorem SamePublic.columns (h : SamePublic r r') {cs : List String} (hc : ∀ c ∈ cs, c ∉ privateFields) :
    Properties.columns r cs = Properties.columns r' cs := by
  unfold Properties.columns
  exact List.map_congr_left fun c hm => by rw [h c (hc c hm)]

theorem SamePublic.title (h : SamePublic r r') : Properties.title r = Properties.title r' := by
  unfold Properties.title
  rw [h "community_name" (by decide), h "house_type" (by decide)]

theorem SamePublic.numberOr (h : SamePublic r r') {column : String} (hc : column ∉ privateFields)
    (d : JsNum) : Properties.numberOr r column d = Properties.numberOr r' column d := by
  unfold Properties.numberOr
  rw [h column hc]

theorem SamePublic.mallItem (h : SamePublic r r') : Properties.mallItem r = Properties.mallItem r' := by
  unfold Properties.mallItem
  rw [h.title, h.numberOr (by decide), h.numberOr (by decide), h.numberOr (by decide),
    h.columns (by decide), h "id" (by decide), h "community_name" (by decide),
    h "detail_address" (by decide), h "created_at" (by decide)]

theorem SamePublic.mallDetail (h : SamePublic r r') :
    Properties.mallDetail r = Properties.mallDetail r' := by
  unfold Properties.mallDetail Properties.imagesOf Properties.moduleConfigOf
  rw [h.title, h.numberOr (by decide), h.numberOr (by decide), h.columns (by decide),
    h "id" (by decide), h "cover_url" (by decide), h "images" (by decide),
    h "description" (by decide), h "module_config" (by decide), h "created_at" (by decide),
    h "updated_at" (by decide)]

/-- The order of the list reads public fields only. -/
theorem SamePublic.order (env : Env) {a b : Row} (h : SamePublic r r') (hab : SamePublic a b) :
    listOrder env .properties r a = listOrder env .properties r' b := by
  have hpublic : ∀ k ∈ orderColumns, k ∉ privateFields := by decide
  exact listOrder_congr env .properties (fun k hk => h k (hpublic k hk))
    fun k hk => hab k (hpublic k hk)

end

/-- What the keyword filter answers about a text field. -/
def textMatches (env : Env) (kw : String) : JsVal → Bool
  | .str s => decide (kw.toList <:+: (env.lower s).toList)
  | _ => false

/-- The keyword is in one of the two texts. -/
def keywordMatches (env : Env) (kw : String) (r : Row) : Bool :=
  textMatches env kw (r.get "community_name") || textMatches env kw (r.get "detail_address")

theorem columnMatches_text (env : Env) {column kw : String} {r : Row} (h : IsText (r.get column)) :
    columnMatches env column (.str kw) r = .ok (textMatches env kw (r.get column)) := by
  unfold columnMatches textMatches
  generalize r.get column = v at h ⊢
  rcases h with h | ⟨t, rfl⟩
  · cases v <;> first | rfl | cases h
  · rfl

theorem either_text (env : Env) {kw : String} {r : Row} (h : HasTexts r) :
    either (columnMatches env "community_name" (.str kw))
      (columnMatches env "detail_address" (.str kw)) r = .ok (keywordMatches env kw r) := by
  unfold either keywordMatches
  rw [columnMatches_text env h.1, columnMatches_text env h.2]
  cases textMatches env kw (r.get "community_name") <;> rfl

/-- The query of a mall list. -/
def mallQuery (page pageSize : JsNum) (keyword : JsVal) (categoryId : Option JsNum) :
    Properties.ListQuery :=
  { page := some page, pageSize := some pageSize, communityName := .undefined,
    customerPhone := .undefined, authCode := .undefined, startAt := .undefined, endAt := .undefined,
    keyword := keyword, categoryId := categoryId, status := .num (.fin 1) }

/-- What is kept besides the status: the keyword, if there is one, and the category. -/
def mallKeeps (env : Env) (keyword : Option String) (categoryId : Option JsNum) (r : Row) : Bool :=
  (keyword.all fun kw => keywordMatches env (env.lower kw) r) &&
    (!Products.asksCategory categoryId ||
      (r.get "category_id").strictEq (categoryId.elim .undefined .num))

theorem filters_mallQuery (env : Env) {page pageSize : JsNum} {kw : Option String} (hne : kw ≠ some "")
    (categoryId : Option JsNum) :
    (mallQuery page pageSize (kw.elim .undefined .str) categoryId).filters env = .ok
      (onlyIf kw.isSome (either (columnMatches env "community_name" (.str (env.lower (kw.getD ""))))
          (columnMatches env "detail_address" (.str (env.lower (kw.getD ""))))) ++
        (onlyIf (Products.asksCategory categoryId)
            (columnIs "category_id" (categoryId.elim .undefined .num)) ++
          [columnIs "status" (.num (.fin 1))])) := by
  cases kw with
  | none => rfl
  | some kw =>
    have htrue : (JsVal.str kw).truthy = true := by
      rw [JsVal.truthy]
      exact decide_eq_true fun he => hne (by rw [he])
    have hlow : lowered env "keyword" (.str kw) = .ok (.str (env.lower kw)) := by
      unfold lowered
      rw [if_pos htrue]
      rfl
    unfold mallQuery Properties.ListQuery.filters
    simp only [Option.elim_some, hlow, htrue]
    rfl

/-- The filters of a mall list keep the rows that are on the shelf, and of these what the query
asks for. -/
theorem filterAll_mall (env : Env) (kw : Option String) (categoryId : Option JsNum)
    {rows : List Row} (h : ∀ r ∈ rows, HasTexts r) :
    filterAll (onlyIf kw.isSome
        (either (columnMatches env "community_name" (.str (env.lower (kw.getD ""))))
          (columnMatches env "detail_address" (.str (env.lower (kw.getD ""))))) ++
      (onlyIf (Products.asksCategory categoryId)
          (columnIs "category_id" (categoryId.elim .undefined .num)) ++
        [columnIs "status" (.num (.fin 1))])) rows =
      .ok ((rows.filter onShelf).filter (mallKeeps env kw categoryId)) := by
  rw [filterAll_onlyIf fun r hr => either_text env (h r hr),
    filterAll_onlyIf (p := columnIs "category_id" (categoryId.elim .undefined .num))
      (q := fun r => (r.get "category_id").strictEq (categoryId.elim .undefined .num)) fun r _ => rfl]
  change (filterM (columnIs "status" (.num (.fin 1))) _ >>= fun kept => Except.ok kept) = _
  rw [filterM_eq_filter (p := columnIs "status" (.num (.fin 1))) (q := onShelf) fun r _ => rfl]
  change Except.ok _ = _
  rw [List.filter_filter, List.filter_filter, List.filter_filter]
  congr 1
  refine List.filter_congr fun r _ => ?_
  unfold mallKeeps onShelf
  cases kw <;> simp [Bool.and_assoc, Bool.and_comm, Bool.and_left_comm]

theorem SamePublic.keeps (env : Env) {r r' : Row} (h : SamePublic r r') (kw : Option String)
    (categoryId : Option JsNum) : mallKeeps env kw categoryId r = mallKeeps env kw categoryId r' := by
  unfold mallKeeps keywordMatches
  rw [h "community_name" (by decide), h "detail_address" (by decide), h "category_id" (by decide)]

section
variable {env : Env} {s s' : Store}

/-- The two states of a comparison, which no mall request changes. -/
abbrev MallAt (s s' : Store) : Store → Store → Prop := fun t t' => t = s ∧ t' = s'

/-- The rows of a mall list, in its order. -/
theorem relates_mallListed (h : MallAgree s s') (ht : ∀ r ∈ s.cache.rows .properties, HasTexts r)
    (ht' : ∀ r ∈ s'.cache.rows .properties, HasTexts r) (kw : Option String)
    (categoryId : Option JsNum) {filters : List (Row → Except JsError Bool)} (hne : filters ≠ [])
    (hf : ∀ rows : List Row, (∀ r ∈ rows, HasTexts r) → filterAll filters rows =
      .ok ((rows.filter onShelf).filter (mallKeeps env kw categoryId))) :
    Relates (MallAt s s') (MallAt s s') (List.Forall₂ SamePublic) (listed env .properties filters)
      (listed env .properties filters) := by
  rw [listed_of_ne env _ hne]
  refine relates_bind (R := fun l l' => l = s.cache.rows .properties ∧ l' = s'.cache.rows .properties)
    (relates_reads fun t t' hts => by rw [hts.1, hts.2]; exact ⟨rfl, rfl⟩) (fun _ _ hts => hts) ?_
  rintro _ _ ⟨rfl, rfl⟩
  rw [hf _ ht, hf _ ht', lift_ok_bind, lift_ok_bind]
  refine relates_lift (arraySort_forall₂ (fun a a' b b' ha hb => ha.order env hb) ?_)
  exact filter_forall₂ h.shown fun a b hab => hab.keeps env kw categoryId

/-- The page of a mall list: the same total, and rows with the same public fields. -/
theorem relates_mallRows (h : MallAgree s s') (ht : ∀ r ∈ s.cache.rows .properties, HasTexts r)
    (ht' : ∀ r ∈ s'.cache.rows .properties, HasTexts r) (page pageSize : JsNum) {kw : Option String}
    (hne : kw ≠ some "") (categoryId : Option JsNum) :
    Relates (MallAt s s') (MallAt s s') (fun x y => x.1 = y.1 ∧ List.Forall₂ SamePublic x.2 y.2)
      (Properties.list env (mallQuery page pageSize (kw.elim .undefined .str) categoryId))
      (Properties.list env (mallQuery page pageSize (kw.elim .undefined .str) categoryId)) := by
  unfold Properties.list
  rw [filters_mallQuery env hne, lift_ok_bind]
  refine relates_bind (relates_mallListed h ht ht' kw categoryId ?_
    fun rows hrows => filterAll_mall env kw categoryId hrows) (fun _ _ hts => hts)
    fun rows rows' hrows => relates_pure ⟨hrows.length_eq, paginate_forall₂ _ _ hrows⟩
  simp

theorem relates_listMall (h : MallAgree s s') (ht : ∀ r ∈ s.cache.rows .properties, HasTexts r)
    (ht' : ∀ r ∈ s'.cache.rows .properties, HasTexts r) (page pageSize : JsNum) {kw : Option String}
    (hne : kw ≠ some "") (categoryId : Option JsNum) (status : JsVal) :
    let query := { mallQuery page pageSize (kw.elim .undefined .str) categoryId with status := status }
    Relates (MallAt s s') (MallAt s s') Eq (Properties.listMall env query)
      (Properties.listMall env query) := by
  intro query
  unfold Properties.listMall
  refine relates_bind (relates_mallRows h ht ht' page pageSize hne categoryId) (fun _ _ hts => hts) ?_
  rintro ⟨total, rows⟩ ⟨total', rows'⟩ ⟨htotal, hrows⟩
  dsimp only at htotal hrows ⊢
  subst htotal
  refine relates_bind (R := Eq) (relates_lift ?_) (fun _ _ hts => hts) fun items items' hitems =>
    relates_pure (by rw [hitems])
  refine ExceptRel.mono (fun _ _ => eq_of_forall₂_eq)
    (ExceptRel.mapM (R := SamePublic) (fun r r' hr => ?_) hrows)
  rw [hr.mallItem]
  exact .refl _ fun _ => rfl

/-- Programs that read nothing of the store go on alike. -/
theorem relates_lift_same {α β : Type} {x : Except JsError α} {f f' : α → Act β}
    (hf : ∀ a, x = .ok a → Relates (MallAt s s') (MallAt s s') Eq (f a) (f' a)) :
    Relates (MallAt s s') (MallAt s s') Eq (Action.lift x >>= f) (Action.lift x >>= f') :=
  relates_lift_bind (fun _ _ hts => hts) hf

/-- A keyword is a text, or there is none. -/
theorem mallKeyword_ok {query : Row} {v : JsVal} (h : PropertyRoutes.mallKeyword query = .ok v) :
    ∃ kw : Option String, kw ≠ some "" ∧ v = kw.elim .undefined .str := by
  obtain ⟨t, _, rfl⟩ := map_ok h
  by_cases ht : trim t = ""
  · refine ⟨none, by simp, ?_⟩
    rw [ht]
    rfl
  · refine ⟨some (trim t), by simpa using ht, ?_⟩
    simp [JsVal.or, JsVal.truthy, ht]

theorem relates_mallList (h : MallAgree s s') (ht : ∀ r ∈ s.cache.rows .properties, HasTexts r)
    (ht' : ∀ r ∈ s'.cache.rows .properties, HasTexts r) (query : Row) :
    Relates (MallAt s s') (MallAt s s') Eq (PropertyRoutes.mallList env query)
      (PropertyRoutes.mallList env query) := by
  refine relates_attempt ?_ fun _ => rfl
  refine relates_lift_same fun page _ => relates_lift_same fun pageSize _ =>
    relates_lift_same fun keyword hk => relates_lift_same fun categoryId _ => ?_
  obtain ⟨kw, hne, rfl⟩ := mallKeyword_ok hk
  refine relates_bind (R := Eq) (relates_listMall h ht ht' _ _ hne _ .undefined)
    (fun _ _ hts => hts) ?_
  rintro x _ rfl
  exact relates_pure rfl

theorem relates_mallCategories (h : MallAgree s s') :
    Relates (MallAt s s') (MallAt s s') Eq (CatalogueRoutes.mallCategories env)
      (CatalogueRoutes.mallCategories env) := by
  refine relates_attempt ?_ fun _ => rfl
  unfold Categories.listEnabled
  rw [listed_of_ne env _ (by simp)]
  refine relates_bind (R := Eq) ?_ (fun _ _ hts => hts) fun _ _ hrows => relates_pure (by rw [hrows])
  refine relates_bind (R := Eq) ?_ (fun _ _ hts => hts) fun _ _ hrows => relates_pure (by rw [hrows])
  refine relates_bind (R := Eq) (relates_reads fun t t' hts => ?_) (fun _ _ hts => hts) ?_
  · rw [hts.1, hts.2]
    exact h.categories
  · rintro rows _ rfl
    exact relates_lift_same fun kept _ => relates_lift (.refl _ fun _ => rfl)

/-- The property the mall shows under an id is found among those on the shelf. -/
theorem findOne_shown (id : JsNum) (t : Store) :
    t.findOne .properties (Properties.shown id) =
      ((t.cache.rows .properties).filter onShelf).find? (Store.hasId (.num id)) := by
  rw [List.find?_filter]
  unfold Store.findOne Store.getTable
  congr 1
  funext r
  rw [Properties.shown, Bool.and_comm, Bool.decide_and, Bool.decide_coe, Bool.decide_coe]
  rfl

theorem relates_mallDetail (h : MallAgree s s') (id : String) :
    Relates (MallAt s s') (MallAt s s') Eq (PropertyRoutes.mallDetail id)
      (PropertyRoutes.mallDetail id) := by
  refine relates_attempt ?_ fun _ => rfl
  refine relates_bind (R := Eq) ?_ (fun _ _ hts => hts) ?_
  · unfold Properties.findMallById
    refine relates_bind (R := Option.Rel SamePublic) (relates_reads fun t t' hts => ?_)
      (fun _ _ hts => hts) fun found found' hfound => ?_
    · rw [hts.1, hts.2, findOne_shown, findOne_shown]
      refine find?_forall₂ h.shown fun a b hab => ?_
      rw [Store.hasId, Store.hasId, hab "id" (by decide)]
    · cases hfound with
      | none => exact relates_pure rfl
      | some hr =>
        refine relates_lift ?_
        rw [hr.mallDetail]
        exact .refl _ fun _ => rfl
  · rintro found _ rfl
    cases found with
    | none => exact relates_pure rfl
    | some property => exact relates_pure rfl

end

/-- Private fields and hidden properties do not show in any answer of the mall router. -/
theorem mall_noninterference (env : Env) {s s' : Store}
    (ht : ∀ r ∈ s.cache.rows .properties, HasTexts r)
    (ht' : ∀ r ∈ s'.cache.rows .properties, HasTexts r) (h : MallAgree s s') {r : PublicRequest}
    (hr : r.toMall = true) (at_ : Moment) :
    Server.answer env (.anyone r) at_ s = Server.answer env (.anyone r) at_ s' := by
  have hrel : Relates (MallAt s s') (MallAt s s') Eq ((Request.anyone r).handle env at_)
      ((Request.anyone r).handle env at_) := by
    cases r with
    | mallProperties query => exact relates_mallList h ht ht' query
    | mallCategories => exact relates_mallCategories h
    | mallProperty id => exact relates_mallDetail h id
    | _ => cases hr
  exact (hrel s s' ⟨rfl, rfl⟩).1.eq

namespace Server

/-- A property on the shelf, and one that is not. -/
def shownProperty : Row :=
  .ofList [("id", .num (.fin 1)), ("community_name", .str "a"), ("status", .num (.fin 1))]

def hiddenProperty : Row :=
  .ofList [("id", .num (.fin 2)), ("community_name", .str "b"), ("status", .num (.fin 0))]

theorem hasTexts_shown : HasTexts shownProperty := ⟨Or.inr ⟨"a", rfl⟩, Or.inl rfl⟩

/-- A customer is noted on the shown property and a hidden one comes in front of it. -/
theorem mall_noninterference_customer :
    let empty := start "t0" (fun _ => "t1") .empty
    answer .plain (.anyone (.mallProperties .empty)) (moment "t2")
        (empty.putRows .properties [shownProperty]) =
      answer .plain (.anyone (.mallProperties .empty)) (moment "t2")
        (empty.putRows .properties [hiddenProperty, shownProperty.set "customer_phone" (.str "1")]) := by
  intro empty
  have hphone : SamePublic shownProperty (shownProperty.set "customer_phone" (.str "1")) := by
    intro k hk
    rw [Dict.get_set_of_ne]
    rintro rfl
    exact hk (by decide)
  have hmall : (PublicRequest.mallProperties .empty).toMall = true := rfl
  refine mall_noninterference .plain ?_ ?_ ⟨?_, ?_⟩ hmall (moment "t2")
  · intro r hr
    rw [Store.cache_putRows, StoreData.rows_setRows_self, List.mem_singleton] at hr
    exact hr ▸ hasTexts_shown
  · intro r hr
    rw [Store.cache_putRows, StoreData.rows_setRows_self] at hr
    simp only [List.mem_cons, List.not_mem_nil, or_false] at hr
    rcases hr with rfl | rfl
    · exact ⟨Or.inr ⟨"b", rfl⟩, Or.inl rfl⟩
    · exact ⟨Or.inr ⟨"a", rfl⟩, Or.inl rfl⟩
  · rw [Store.cache_putRows, StoreData.rows_setRows_self, Store.cache_putRows,
      StoreData.rows_setRows_self]
    exact .cons hphone .nil
  · rfl

end Server

end JtfpMall
