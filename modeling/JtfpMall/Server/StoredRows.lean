import JtfpMall.Server.Listable

/-!
# What POST and PUT may store

A write that stores only columns the lists can use keeps every row so. Imports, orders and
logins make no other writes; the POST and PUT handlers make whatever their bodies ask for.
-/

namespace JtfpMall

open JtfpMall.Js
open JtfpMall.Lib

/-- The write stores only what can be used, and no SKU and no code item. -/
structure FitsWrite (w : Write) : Prop where
  inserts : ∀ t row, w = .insert t row → t ≠ .productSkus ∧ t ≠ .welfareCodeItems ∧ FitsRow t row
  updates : ∀ t updates, w.updates? t = some updates → FitsGiven t updates

theorem fitsRow_newRow {t : Table} {row : Row} (h : FitsRow t row) (id : ℕ) (now : String) :
    FitsRow t (Store.newRow row id now) := by
  rintro ⟨k, u⟩ hk
  have hv : u.Fits (row.get k) := h.get hk
  have hne : k ≠ "updated_at" := by
    revert hk
    cases t <;> simp [listUses] <;> grind
  have hid : k = "id" → u = .converted := by
    revert hk
    cases t <;> simp [listUses] <;> grind
  unfold Store.newRow
  rw [Dict.get_set_of_ne _ _ hne, Dict.get_set]
  split
  · rename_i hcreated
    rw [← hcreated]
    exact Use.fits_or hv (Use.fits_str u now)
  · rw [Dict.get_set]
    split
    · rename_i hi
      rw [hid hi]
      exact Use.converted_num _
    · exact hv

theorem fitsRow_merged {t : Table} {row updates : Row} (h : FitsRow t row)
    (hu : FitsGiven t updates) (now : String) : FitsRow t (Store.merged updates now row) := by
  rintro ⟨k, u⟩ hk
  have hne : k ≠ "updated_at" := by
    revert hk
    cases t <;> simp [listUses] <;> grind
  rw [get_merged_of_ne hne]
  split
  · rename_i hhas
    exact hu (k, u) hk hhas
  · exact h.get hk

theorem listable_apply {s : Store} (h : Listable s) {w : Write} (hw : FitsWrite w) (now : String) :
    Listable (w.apply now s) := by
  refine ⟨fun t r hr => ?_, List.eq_nil_iff_forall_not_mem.mpr fun r hr => ?_,
    List.eq_nil_iff_forall_not_mem.mpr fun r hr => ?_⟩
  · rcases Write.mem_rows_apply hr with hr | ⟨row, id, he, rfl⟩ | ⟨old, hold, updates, he, rfl⟩
    · exact h.fits t r hr
    · exact fitsRow_newRow (hw.inserts t row he).2.2 id now
    · exact fitsRow_merged (h.fits t old hold) (hw.updates t updates he) now
  · rcases Write.mem_rows_apply hr with hr | ⟨row, id, he, rfl⟩ | ⟨old, hold, updates, he, rfl⟩
    · exact absurd (h.skus ▸ hr) List.not_mem_nil
    · exact (hw.inserts _ row he).1 rfl
    · exact absurd (h.skus ▸ hold) List.not_mem_nil
  · rcases Write.mem_rows_apply hr with hr | ⟨row, id, he, rfl⟩ | ⟨old, hold, updates, he, rfl⟩
    · exact absurd (h.items ▸ hr) List.not_mem_nil
    · exact (hw.inserts _ row he).2.1 rfl
    · exact absurd (h.items ▸ hold) List.not_mem_nil

theorem listable_flushNow {s : Store} (h : Listable s) (now : String) : Listable (s.flushNow now) :=
  h.of_rows fun t => by rw [Store.rows_flushNow]; exact List.Subset.refl _

/-- A request that makes only such writes. -/
theorem listable_serves {env : Env} {s : Store} (h : Listable s) {r : Request} {at_ : Moment}
    (hs : Serves env FitsWrite (fun _ => True) s (r.handle env at_)) : Listable (Server.serve env r at_ s) := by
  obtain ⟨s', he, hm⟩ := hs
  have hs' : Listable s' := effects_invariant Listable (fun _ _ now hw hi => listable_apply hi hw now)
    (fun _ _ _ _ _ hrows hi => listable_putRows hi (arraySort_perm hrows).subset) he h
  unfold Server.serve
  rcases hm with hm | ⟨now, hm⟩
  · rwa [hm]
  · rw [hm]
    exact listable_flushNow hs' now

theorem fitsWrite_insert {t : Table} {row : Row} (ht : t ∈ listedTables) (h : FitsRow t row) :
    FitsWrite (.insert t row) := by
  have hne : ∀ t ∈ listedTables, t ≠ .productSkus ∧ t ≠ .welfareCodeItems := by decide
  refine ⟨fun u r he => ?_, fun u updates he => ?_⟩
  · cases he
    exact ⟨(hne t ht).1, (hne t ht).2, h⟩
  · cases he

theorem fitsWrite_update {t : Table} {id : JsVal} {data : Row} (h : FitsGiven t data) :
    FitsWrite (.update t id data) := by
  refine ⟨fun u r he => ?_, fun u updates he => ?_⟩
  · cases he
  · simp only [Write.updates?] at he
    split at he
    · rename_i hu
      cases he
      exact hu ▸ h
    · cases he

theorem fitsWrite_remove (t : Table) (id : JsVal) : FitsWrite (.remove t id) :=
  ⟨fun _ _ he => (nomatch he), fun _ _ he => (nomatch he)⟩

theorem fitsWrite_removeWhere (t : Table) (p : Row → Bool) : FitsWrite (.removeWhere t p) :=
  ⟨fun _ _ he => (nomatch he), fun _ _ he => (nomatch he)⟩

theorem fitsRow_newProperty {data : Row} (h : FitsRow .properties data) :
    FitsRow .properties (Properties.newProperty data) := by
  have hd : ∀ k, Use.converted.Fits (data.get k) → ∀ n,
      Use.converted.Fits ((data.get k).orNullish (.num n)) :=
    fun k hk n => Use.fits_orNullish hk (Use.converted_num n)
  simp only [FitsRow, listUses, List.forall_mem_cons] at h ⊢
  simp only [Properties.newProperty, Dict.get_set]
  simp [h, hd]

theorem fitsRow_newProduct {data : Row} (h : FitsRow .products data) :
    FitsRow .products (Products.newProduct data) := by
  have hd : ∀ k, Use.converted.Fits (data.get k) → ∀ n,
      Use.converted.Fits ((data.get k).orNullish (.num n)) :=
    fun k hk n => Use.fits_orNullish hk (Use.converted_num n)
  simp only [FitsRow, listUses, List.forall_mem_cons] at h ⊢
  simp only [Products.newProduct, Dict.get_set]
  simp [h, hd]

theorem fitsRow_newCode {data : Row} (h : FitsRow .welfareCodes data) :
    FitsRow .welfareCodes (WelfareCodes.newCode data) := by
  simp only [FitsRow, listUses, List.forall_mem_cons] at h ⊢
  simp only [WelfareCodes.newCode, Dict.get_set]
  simp [h]

theorem fitsRow_newCategory {name icon sortOrder status : JsVal}
    (h : Use.converted.Fits sortOrder) :
    FitsRow .categories (Categories.newCategory name icon sortOrder status) := by
  have hs : (Categories.newCategory name icon sortOrder status).get "sort_order" =
      sortOrder.or (.num (.fin 0)) := rfl
  have hid : (Categories.newCategory name icon sortOrder status).get "id" = .undefined := rfl
  simp only [FitsRow, listUses, List.forall_mem_cons, hs, hid]
  exact ⟨Use.fits_or h (Use.converted_num _), Use.fits_undefined _,
    fun _ hp => absurd hp List.not_mem_nil⟩

/-- What a cell of a sheet becomes can be used in every way. -/
def FitsAll (v : JsVal) : Prop := ∀ u : Use, u.Fits v

theorem fitsAll_absent (x : Option String) : FitsAll (absent x) := by
  cases x with
  | none => exact fun u => u.fits_undefined
  | some x => exact fun u => u.fits_str x

theorem fitsAll_cellText (content : PropertyRoutes.CellContent) :
    FitsAll (PropertyRoutes.cellText content) :=
  fun u => Use.fits_or (fitsAll_absent _ u) u.fits_null

theorem fitsAll_trimmedOr (v : PropertyRoutes.CellValue) : FitsAll (PropertyRoutes.trimmedOr v) := by
  intro u
  cases v <;> first | exact u.fits_str _ | exact u.fits_null | exact u.fits_undefined

theorem fitsAll_auctionTime (cell : PropertyRoutes.Cell) :
    FitsAll (PropertyRoutes.auctionTime cell) := by
  intro u
  unfold PropertyRoutes.auctionTime
  split
  all_goals first
    | exact u.fits_str _
    | exact u.fits_null
    | exact fitsAll_trimmedOr _ u
    | (split
       · exact u.fits_str _
       · exact u.fits_null)

theorem fitsRow_importRow (headers : ℕ → Option String) (cells : List PropertyRoutes.Cell) :
    FitsRow .properties (PropertyRoutes.importRow headers cells) := by
  have hset : ∀ (cells : List PropertyRoutes.Cell) (row : Row), (∀ k, FitsAll (row.get k)) →
      ∀ k, FitsAll ((cells.foldl (PropertyRoutes.setCell headers) row).get k) := by
    intro cells
    induction cells with
    | nil => exact fun row hrow => hrow
    | cons cell cells ih =>
      refine fun row hrow => ih _ fun k => ?_
      unfold PropertyRoutes.setCell
      split
      · exact hrow k
      · rw [Dict.get_set]
        split
        · split
          · exact fitsAll_auctionTime cell
          · exact fitsAll_cellText _
        · exact hrow k
  exact fun p _ => hset cells .empty (fun k u => u.fits_undefined) p.1 p.2

section
variable {env : Env} {s : Store} {at_ : Moment}

theorem fits_put {r : Request} {t : Table} {id : JsNum} (hr : r.put = some (t, id)) (hk : r.Fits s)
    (hf : (s.findById t (.num id)).isSome = true) {data : Row} (hd : r.putData = .ok data) :
    FitsGiven t data := by
  have hput := hr
  unfold Request.put at hput
  split at hput <;> cases hput <;> exact hk _ _ hr hf data hd

theorem listable_put (h : Listable s) {r : Request} {t : Table} {id : JsNum}
    (hr : r.put = some (t, id)) (hk : r.Fits s) : Listable (Server.serve env r at_ s) := by
  cases hf : s.findById t (.num id) with
  | none =>
    rw [Server.serve_put_of_missing env hr hf]
    exact h
  | some row =>
    obtain ⟨hs, _⟩ | ⟨data, hd, hs⟩ := serve_put env hr at_ s
    · rwa [hs]
    · rw [hs]
      have hg : FitsGiven t data := fits_put hr hk (by rw [hf]; rfl) hd
      exact listable_apply (w := .update t (.num id) data) h (fitsWrite_update hg) _

theorem listable_createProperty (h : Listable s) {body : Row}
    (hk : Request.Fits s (.admin true (.createProperty body))) :
    Listable (Server.serve env (.admin true (.createProperty body)) at_ s) := by
  obtain hs | ⟨hn, data, hd, hs⟩ := serve_createProperty env at_ s body
  · rwa [hs]
  · rw [hs]
    exact listable_apply (w := .insert .properties (Properties.newProperty data)) h
      (fitsWrite_insert (by decide) (fitsRow_newProperty (hk hn data hd))) _

theorem listable_createProduct (h : Listable s) {body : Row} (hk : FitsRow .products body) :
    Listable (Server.serve env (.admin true (.createProduct body)) at_ s) :=
  listable_apply (w := .insert .products (Products.newProduct body)) h
    (fitsWrite_insert (by decide) (fitsRow_newProduct hk)) _

theorem listable_createCode (h : Listable s) {body : Row} (hk : FitsRow .welfareCodes body) :
    Listable (Server.serve env (.admin true (.createWelfareCode body)) at_ s) :=
  listable_apply (w := .insert .welfareCodes (WelfareCodes.newCode body)) h
    (fitsWrite_insert (by decide) (fitsRow_newCode hk)) _

theorem listable_createCategory (h : Listable s) {body : Row}
    (hk : Request.Fits s (.admin true (.createCategory body))) :
    Listable (Server.serve env (.admin true (.createCategory body)) at_ s) := by
  unfold Server.serve Request.handle Request.handleAdmin CatalogueRoutes.createCategory adminGuarded
  rw [Action.snd_run_attempt]
  cases hn : (body.get "name").truthy with
  | false => exact h
  | true =>
    have hsort : Use.converted.Fits ((body.get "sort_order").or (.num (.fin 0))) :=
      Use.fits_or (hk hn) (Use.converted_num _)
    exact listable_apply (w := .insert .categories _) h
      (fitsWrite_insert (by decide) (fitsRow_newCategory hsort)) _

theorem listable_useCode (h : Listable s) (body : JsVal) :
    Listable (Server.serve env (.anyone (.useCode body)) at_ s) := by
  refine listable_serves h (serves_of_leads (leads_use body at_ s fun _ _ wc _ v _ => ?_))
  refine fitsWrite_update fun p hp hhas => ?_
  rw [Dict.has_ofList] at hhas
  have hk : p.1 = "used_count" := List.mem_singleton.mp (of_decide_eq_true hhas)
  revert hp
  simp only [listUses, List.mem_cons, List.not_mem_nil, or_false]
  rintro (rfl | rfl | rfl) <;> exact absurd hk (by decide)

/-- A request that writes none of these tables. -/
theorem listable_elsewhere (h : Listable s) {r : Request}
    (ht : ∀ t ∈ r.tables, listUses t = [] ∧ t ≠ .productSkus ∧ t ≠ .welfareCodeItems) :
    Listable (Server.serve env r at_ s) := by
  refine serve_invariant Listable (fun s' w now hw hi => listable_apply hi ⟨?_, ?_⟩ now)
    (fun _ _ _ _ hrows hi => listable_putRows hi (arraySort_perm hrows).subset)
    (fun _ now hi => listable_flushNow hi now) at_ h
  · rintro t row rfl
    obtain ⟨huses, hskus, hitems⟩ := ht t hw.table
    refine ⟨hskus, hitems, fun p hp => ?_⟩
    rw [huses] at hp
    exact absurd hp List.not_mem_nil
  · intro t updates he p hp
    have htable : w.table = t := by
      cases w <;> simp only [Write.updates?] at he <;> first | cases he | skip
      all_goals
        split at he
        · assumption
        · cases he
    rw [(ht t (htable ▸ hw.table)).1] at hp
    exact absurd hp List.not_mem_nil

theorem listable_request (h : Listable s) {r : Request} (hk : r.Fits s) :
    Listable (Server.serve env r at_ s) := by
  cases hp : r.put with
  | some p => exact listable_put h hp hk
  | none =>
    by_cases ht : ∀ t ∈ r.tables, listUses t = [] ∧ t ≠ .productSkus ∧ t ≠ .welfareCodeItems
    · exact listable_elsewhere h ht
    · unfold Request.tables at ht
      split at ht <;> try exact absurd (by decide) ht
      · exact listable_createProduct h hk
      · cases hp
      · rename_i id
        exact listable_serves h (serves_of_leads (calm_deleteProduct id
          (fitsWrite_removeWhere _ _) (fitsWrite_remove _ _) s))
      · exact listable_createProperty h hk
      · cases hp
      · rename_i id
        exact listable_serves h (serves_of_leads (calm_deleteProperty id (fitsWrite_remove _ _) s))
      · rename_i upload
        exact listable_serves h (serves_import upload at_ s fun headers cells =>
          fitsWrite_insert (by decide) (fitsRow_newProperty (fitsRow_importRow headers cells)))
      · exact listable_createCategory h hk
      · cases hp
      · rename_i id
        exact listable_serves h (serves_of_leads (calm_deleteCategory id (fitsWrite_remove _ _) s))
      · exact listable_createCode h hk
      · cases hp
      · rename_i id
        exact listable_serves h (serves_of_leads (calm_deleteWelfareCode id
          (fitsWrite_removeWhere _ _) (fitsWrite_remove _ _) s))
      · exact listable_useCode h _

end

namespace Server

theorem listable_start (loadedAt : String) (clock : ℕ → String) :
    Listable (start loadedAt clock .empty) := by
  have hempty : Listable (Store.loadData loadedAt (clock 0) .empty) :=
    ⟨fun t r hr => absurd hr List.not_mem_nil, rfl, rfl⟩
  refine Store.initDefaultData_invariant Listable (fun s row hrow now hi => ?_) (fun s now hi => ?_)
    (fun s now hi => listable_flushNow hi now) _ hempty
  · have hfits : FitsRow .categories row := by
      obtain ⟨⟨name, order⟩, _, rfl⟩ := List.mem_map.mp hrow
      simp only [FitsRow, listUses, List.forall_mem_cons]
      exact ⟨Use.converted_num _, Use.fits_undefined _, fun p hp => absurd hp List.not_mem_nil⟩
    exact listable_apply (w := .insert .categories row) hi (fitsWrite_insert (by decide) hfits) now
  · have hw : FitsWrite (.insert .admins Store.defaultAdmin) := by
      refine ⟨fun u r he => ?_, fun u updates he => by cases he⟩
      cases he
      exact ⟨by decide, by decide, fun p hp => absurd hp List.not_mem_nil⟩
    exact listable_apply hi hw now

theorem listable_step {env : Env} {s s' : Store} {e : Event} (h : Listable s) (hk : e.Fits s)
    (hs : step env s e = some s') : Listable s' := by
  cases e with
  | request r at_ =>
    cases hs
    exact listable_request h hk
  | operation w now => exact hk.elim
  | timer now =>
    simp only [step] at hs
    split at hs
    · cases hs
      exact listable_flushNow h now
    · cases hs
  | flush now =>
    cases hs
    exact listable_flushNow h now
  | restart loadedAt clock => exact hk.elim

/-- While every accepted POST and PUT stores what the lists can use, every list and search is
answered with success. -/
theorem lists_answer {env : Env} {loadedAt : String} {clock : ℕ → String} {es : List Event}
    {s : Store} (hok : Along (step env) (fun s e => e.Fits s) (start loadedAt clock .empty) es)
    (hr : run (step env) (start loadedAt clock .empty) es = some s) :
    ∀ r query at_, r.listQuery = some query → PlainQuery query →
      ∃ body, answer env r at_ s = .ok (.ok body) := by
  have h : Listable s := run_invariant (step env) Listable
    (fun _ _ _ hi ho hs => listable_step hi ho hs) (listable_start loadedAt clock) hok hr
  exact fun r query at_ hq hplain => answer_list h hq hplain at_

/-- A property that is not shown is created, renamed and searched for. -/
theorem lists_answer_renamed :
    let es : List Event := [
      .request (.admin true (.createProperty (.ofList [("community_name", .str "a")]))) (moment "t2"),
      .request (.admin true (.updateProperty "1" (.ofList [("community_name", .str "b")]))) (moment "t3")]
    ∃ s, run (step .plain) (start "t0" (fun _ => "t1") .empty) es = some s ∧
      ∃ body, answer .plain (.anyone (.mallProperties (.ofList [("keyword", .str "c")]))) (moment "t4") s =
        .ok (.ok body) := by
  intro es
  have hok : Along (step .plain) (fun s e => e.Fits s) (start "t0" (fun _ => "t1") .empty) es := by
    refine along_request (fun _ data hd => ?_) (along_request ?_ trivial)
    · cases hd
      exact fitsRow_single .properties "community_name" "a"
    · rintro t id ⟨⟩ _ data ⟨⟩
      exact fun p hp _ => fitsRow_single .properties "community_name" "b" p hp
  have hplain : PlainQuery (.ofList [("keyword", .str "c")]) := plainQuery_single "keyword" "c"
  exact ⟨_, rfl, lists_answer hok rfl _ _ _ rfl hplain⟩

/-- A welfare code whose text is a number. -/
def numberCode : Request := .admin true (.createWelfareCode (.ofList [("code", .num (.ofNat 123))]))

/-- The code is stored, and the search for a code throws. -/
theorem number_code_breaks_search :
    let es : List Event := [.request numberCode (moment "t2")]
    ∃ s, run (step .plain) (start "t0" (fun _ => "t1") .empty) es = some s ∧
      ¬∀ r query at_, r.listQuery = some query → PlainQuery query →
        ∃ body, answer .plain r at_ s = .ok (.ok body) := by
  intro es
  let s := serve .plain numberCode (moment "t2") (start "t0" (fun _ => "t1") .empty)
  have hbreaks : (answer .plain (.admin true (.welfareCodes (.ofList [("keyword", .str "a")])))
      (moment "t3") s).toOption.map (fun res => decide (res.status = 500)) = some true := by decide
  refine ⟨s, rfl, fun h => ?_⟩
  have hplain : PlainQuery (.ofList [("keyword", .str "a")]) := plainQuery_single "keyword" "a"
  obtain ⟨body, hbody⟩ := h (.admin true (.welfareCodes _)) _ (moment "t3") rfl hplain
  rw [hbody] at hbreaks
  cases hbreaks

end Server

end JtfpMall
