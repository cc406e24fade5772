import JtfpMall.Server.PartialUpdates

/-!
# References to categories

A property names a category by its id, compared as the mall filter compares it. The deletion
of a category looks for properties that name it and keeps the references whole; the
writing handlers of the properties take any value from their bodies.
-/

namespace JtfpMall

open JtfpMall.Js
open JtfpMall.Lib

/-- The value is unset, or names a category of the store. -/
def NamesCategory (s : Store) (v : JsVal) : Prop :=
  v.isNullish = true ∨ ∃ c ∈ s.cache.rows .categories, v.strictEq (c.get "id") = true

/-- Every property names a category that exists, or none. -/
def NoDangling (s : Store) : Prop :=
  ∀ p ∈ s.cache.rows .properties, NamesCategory s (p.get "category_id")

/-- A property that the request creates or updates gets no category, or one that exists. -/
def Request.SetsCategory (s : Store) : Request → Prop
  | .admin true (.createProperty body) => (body.get "community_name").truthy = true →
      (∃ data, PropertyRoutes.withShopFields body = .ok data) →
      NamesCategory s (body.get "category_id")
  | .admin true (.updateProperty id body) =>
      (s.findById .properties (.num (stringToNumber id))).isSome = true →
      (∃ data, PropertyRoutes.withShopFields body = .ok data) →
      body.has "category_id" = true → NamesCategory s (body.get "category_id")
  | _ => True

/-- The steps are requests and flushes, and what they set names a category. -/
def Server.Event.SetsCategory (s : Store) : Server.Event → Prop
  | .request r _ => r.SetsCategory s
  | .operation _ _ => False
  | .timer _ => True
  | .flush _ => True
  | .restart _ _ => False

theorem get_setWhenGiven_of_ne {data row row' : Row} {name column k : String}
    {value : JsVal → Except JsError JsVal} (hk : k ≠ column)
    (h : PropertyRoutes.setWhenGiven data name column value row = .ok row') :
    row'.get k = row.get k ∧ row'.has k = row.has k := by
  unfold PropertyRoutes.setWhenGiven at h
  split at h
  · cases h
    exact ⟨rfl, rfl⟩
  · obtain ⟨v, _, rfl⟩ := map_ok h
    exact ⟨Dict.get_set_of_ne _ _ hk, by rw [Dict.has_set, decide_eq_false hk, Bool.false_or]⟩

/-- The fields of the shop page do not concern the category. -/
theorem category_withShopFields {body data : Row} (h : PropertyRoutes.withShopFields body = .ok data) :
    data.get "category_id" = body.get "category_id" ∧
      data.has "category_id" = body.has "category_id" := by
  obtain ⟨r1, r2, r3, r4, r5, h1, h2, h3, h4, h5, h6⟩ := withShopFields_steps h
  obtain ⟨g1, k1⟩ := get_setWhenGiven_of_ne (k := "category_id") (by decide) h1
  obtain ⟨g2, k2⟩ := get_setWhenGiven_of_ne (k := "category_id") (by decide) h2
  obtain ⟨g3, k3⟩ := get_setWhenGiven_of_ne (k := "category_id") (by decide) h3
  obtain ⟨g4, k4⟩ := get_setWhenGiven_of_ne (k := "category_id") (by decide) h4
  obtain ⟨g5, k5⟩ := get_setWhenGiven_of_ne (k := "category_id") (by decide) h5
  obtain ⟨g6, k6⟩ := get_setWhenGiven_of_ne (k := "category_id") (by decide) h6
  exact ⟨g6.trans (g5.trans (g4.trans (g3.trans (g2.trans g1)))),
    k6.trans (k5.trans (k4.trans (k3.trans (k2.trans k1))))⟩

theorem category_newRow (data : Row) (id : ℕ) (now : String) :
    (Store.newRow (Properties.newProperty data) id now).get "category_id" = data.get "category_id" := by
  simp [Store.newRow, Properties.newProperty, Dict.get_set]

/-- No column of a sheet is the category. -/
theorem category_importRow (headers : ℕ → Option String) (cells : List PropertyRoutes.Cell) :
    (PropertyRoutes.importRow headers cells).get "category_id" = .undefined := by
  have hset : ∀ (cells : List PropertyRoutes.Cell) (row : Row), row.get "category_id" = .undefined →
      (cells.foldl (PropertyRoutes.setCell headers) row).get "category_id" = .undefined := by
    intro cells
    induction cells with
    | nil => exact fun _ h => h
    | cons cell cells ih =>
      intro row h
      refine ih _ ?_
      unfold PropertyRoutes.setCell
      split
      · exact h
      · rename_i field hf
        obtain ⟨header, _, hl⟩ := Option.bind_eq_some_iff.mp hf
        have hne : "category_id" ≠ field := by
          rintro rfl
          obtain ⟨l₁, l₂, hmap, _⟩ := List.lookup_eq_some_iff.mp hl
          have hm : "category_id" ∈ PropertyRoutes.headerMap.map Prod.snd := by
            rw [hmap]
            simp
          exact absurd hm (by decide)
        rw [Dict.get_set_of_ne _ _ hne]
        exact h
  exact hset cells .empty rfl

section
variable (env : Env) (at_ : Moment) (s : Store)

theorem serve_createProperty (body : Row) :
    Server.serve env (.admin true (.createProperty body)) at_ s = s ∨
      (body.get "community_name").truthy = true ∧ ∃ data,
        PropertyRoutes.withShopFields body = .ok data ∧
        Server.serve env (.admin true (.createProperty body)) at_ s =
          (s.insert .properties (Properties.newProperty data) (at_.clock 0)).2 := by
  unfold Server.serve Request.handle Request.handleAdmin PropertyRoutes.create adminGuarded
  rw [Action.snd_run_attempt]
  cases hn : (body.get "community_name").truthy with
  | false => exact Or.inl rfl
  | true =>
    cases hd : PropertyRoutes.withShopFields body with
    | error e => exact Or.inl rfl
    | ok data => exact Or.inr ⟨rfl, data, rfl, rfl⟩

theorem serve_deleteProperty (id : String) :
    Server.serve env (.admin true (.deleteProperty id)) at_ s = s ∨
      Server.serve env (.admin true (.deleteProperty id)) at_ s =
        (s.remove .properties (.num (stringToNumber id))).2 := by
  unfold Server.serve Request.handle Request.handleAdmin PropertyRoutes.delete adminGuarded
    Properties.findById Act.findById
  rw [Action.snd_run_attempt, Action.run_reads_bind]
  cases s.findById .properties (.num (stringToNumber id)) with
  | none => exact Or.inl rfl
  | some _ => exact Or.inr rfl

theorem serve_createCategory (body : Row) :
    Server.serve env (.admin true (.createCategory body)) at_ s = s ∨ ∃ row,
      Server.serve env (.admin true (.createCategory body)) at_ s =
        (s.insert .categories row (at_.clock 0)).2 := by
  unfold Server.serve Request.handle Request.handleAdmin CatalogueRoutes.createCategory adminGuarded
  rw [Action.snd_run_attempt]
  cases (body.get "name").truthy with
  | false => exact Or.inl rfl
  | true => exact Or.inr ⟨_, rfl⟩

/-- The guard of the deletion: no property names the category. -/
def Unnamed (s : Store) (id : String) : Prop :=
  ∀ p ∈ s.cache.rows .properties, (p.get "category_id").strictEq (.num (stringToNumber id)) = false

/-- A deletion that finds the category in use is refused, any other one goes through. -/
theorem run_deleteCategory (id : String) :
    (¬Unnamed s id ∧ (CatalogueRoutes.deleteCategory id).run s =
        (.ok (.error 400 "该分类下已有房源，无法删除"), s)) ∨
      Unnamed s id ∧ (CatalogueRoutes.deleteCategory id).run s =
        (.ok (.success "分类删除成功"), (s.remove .categories (.num (stringToNumber id))).2) := by
  have hguard : (Properties.existsByCategoryId (stringToNumber id)).run s = (.ok ((s.findOne .properties
      fun r => (r.get "category_id").strictEq (.num (stringToNumber id))).isSome), s) := rfl
  unfold CatalogueRoutes.deleteCategory adminGuarded
  rw [Action.run_attempt, Action.run_bind, hguard]
  dsimp only
  cases hf : s.findOne .properties
      fun r => (r.get "category_id").strictEq (.num (stringToNumber id)) with
  | some p =>
    obtain ⟨hm, hp⟩ := mem_of_findOne hf
    exact Or.inl ⟨fun hu => absurd hp (by rw [hu p hm]; decide), rfl⟩
  | none =>
    refine Or.inr ⟨fun p hp => ?_, rfl⟩
    have hn := List.find?_eq_none.mp hf p hp
    rwa [Bool.not_eq_true] at hn

end

section
variable {s s' : Store}

theorem NamesCategory.mono {v : JsVal} (h : NamesCategory s v)
    (hc : ∀ c ∈ s.cache.rows .categories, ∃ c' ∈ s'.cache.rows .categories, c'.get "id" = c.get "id") :
    NamesCategory s' v := by
  rcases h with h | ⟨c, hm, h⟩
  · exact Or.inl h
  · obtain ⟨c', hm', hid⟩ := hc c hm
    exact Or.inr ⟨c', hm', hid ▸ h⟩

/-- Categories keep their ids or are added, and the properties name old ones. -/
theorem noDangling_of
    (hc : ∀ c ∈ s.cache.rows .categories, ∃ c' ∈ s'.cache.rows .categories, c'.get "id" = c.get "id")
    (hp : ∀ p ∈ s'.cache.rows .properties, NamesCategory s (p.get "category_id")) : NoDangling s' :=
  fun p hm => (hp p hm).mono hc

theorem noDangling_perm (h : NoDangling s)
    (hp : (s'.cache.rows .properties).Perm (s.cache.rows .properties))
    (hc : (s'.cache.rows .categories).Perm (s.cache.rows .categories)) : NoDangling s' :=
  noDangling_of (fun c hm => ⟨c, hc.mem_iff.mpr hm, rfl⟩) fun p hm => h p (hp.mem_iff.mp hm)

theorem noDangling_insertProperty (h : NoDangling s) {data : Row}
    (hd : NamesCategory s (data.get "category_id")) (now : String) :
    NoDangling (s.insert .properties (Properties.newProperty data) now).2 := by
  refine noDangling_of (s := s) (fun c hm => ⟨c, ?_, rfl⟩) fun p hm => ?_
  · rwa [Store.rows_insert, if_neg (by decide)]
  · rw [Store.rows_insert, if_pos rfl, List.mem_append, List.mem_singleton] at hm
    rcases hm with hm | rfl
    · exact h p hm
    · rw [category_newRow]
      exact hd

theorem noDangling_updateProperty (h : NoDangling s) {id : JsVal} {data : Row}
    (hd : data.has "category_id" = true → NamesCategory s (data.get "category_id")) (now : String) :
    NoDangling (s.update .properties id data now).2 := by
  refine noDangling_of (s := s) (fun c hm => ⟨c, ?_, rfl⟩) fun p hm => ?_
  · rwa [Store.rows_update, if_neg (by decide)]
  · rw [Store.rows_update, if_pos rfl] at hm
    rcases mem_modifyFirst hm with hm | ⟨row, hf, rfl⟩
    · exact h p hm
    · rw [get_merged_of_ne (by decide)]
      split
      · rename_i hb
        exact hd hb
      · exact h row (List.mem_of_find?_eq_some hf)

theorem noDangling_removeProperty (h : NoDangling s) (id : JsVal) :
    NoDangling (s.remove .properties id).2 := by
  refine noDangling_of (s := s) (fun c hm => ⟨c, ?_, rfl⟩) fun p hm => ?_
  · rwa [Store.rows_remove, if_neg (by decide)]
  · rw [Store.rows_remove, if_pos rfl] at hm
    exact h p (List.mem_of_mem_eraseP hm)

theorem noDangling_insertCategory (h : NoDangling s) (row : Row) (now : String) :
    NoDangling (s.insert .categories row now).2 := by
  refine noDangling_of (s := s) (fun c hm => ⟨c, ?_, rfl⟩) fun p hm => ?_
  · rw [Store.rows_insert, if_pos rfl]
    exact List.mem_append_left _ hm
  · rw [Store.rows_insert, if_neg (by decide)] at hm
    exact h p hm

theorem noDangling_updateCategory (h : NoDangling s) {id : JsVal} {data : Row}
    (hk : (Write.update .categories id data).KeepsIds) (now : String) :
    NoDangling (s.update .categories id data now).2 := by
  refine noDangling_of (s := s) (fun c hm => ?_) fun p hm => ?_
  · have hid : c.get "id" ∈ ((s.update .categories id data now).2.cache.rows .categories).map
        fun r => r.get "id" := by
      rw [ids_update hk]
      exact List.mem_map_of_mem hm
    obtain ⟨c', hm', he⟩ := List.mem_map.mp hid
    exact ⟨c', hm', he⟩
  · rw [Store.rows_update, if_neg (by decide)] at hm
    exact h p hm

/-- The category that goes is named by no property. -/
theorem noDangling_removeCategory (h : NoDangling s) {id : String} (hu : Unnamed s id) :
    NoDangling (s.remove .categories (.num (stringToNumber id))).2 := by
  intro p hm
  rw [Store.rows_remove, if_neg (by decide)] at hm
  rcases h p hm with hn | ⟨c, hc, hpc⟩
  · exact Or.inl hn
  · refine Or.inr ⟨c, ?_, hpc⟩
    rw [Store.rows_remove, if_pos rfl]
    refine (List.mem_eraseP_of_neg fun hid => ?_).mpr hc
    have hnamed : (p.get "category_id").strictEq (.num (stringToNumber id)) = true := by
      rw [← JsVal.eq_of_strictEq hid]
      exact hpc
    rw [hu p hm] at hnamed
    cases hnamed

end

/-- The import sets no category. -/
theorem noDangling_import {env : Env} {s : Store} (h : NoDangling s)
    (upload : PropertyRoutes.Upload) (at_ : Moment) :
    NoDangling (Server.serve env (.admin true (.importProperties upload)) at_ s) := by
  let W : Write → Prop := fun w => ∃ headers cells,
    w = .insert .properties (Properties.newProperty (PropertyRoutes.importRow headers cells))
  obtain ⟨s', he, hm⟩ : Serves env W (fun _ => True) s (PropertyRoutes.importSheet upload at_) :=
    serves_import upload at_ s fun headers cells => ⟨headers, cells, rfl⟩
  have hs' : NoDangling s' := by
    refine effects_invariant NoDangling (fun t w now hw ht => ?_) (fun t u rows _ _ hrows ht => ?_) he h
    · obtain ⟨headers, cells, rfl⟩ := hw
      refine noDangling_insertProperty ht (Or.inl ?_) now
      rw [category_importRow]
      rfl
    · have hperm : ∀ v, ((t.putRows u rows).cache.rows v).Perm (t.cache.rows v) := by
        intro v
        rw [Store.cache_putRows, StoreData.rows_setRows]
        split
        · rename_i hv
          exact hv ▸ arraySort_perm hrows
        · exact .refl _
      exact noDangling_perm ht (hperm _) (hperm _)
  change NoDangling ((PropertyRoutes.importSheet upload at_).run s).2
  rcases hm with hm | ⟨now, hm⟩
  · rwa [hm]
  · rw [hm]
    exact noDangling_perm hs' (by rw [Store.rows_flushNow]) (by rw [Store.rows_flushNow])

namespace Server

theorem noDangling_request {env : Env} {s : Store} {r : Request} (h : NoDangling s)
    (hk : r.SetsCategory s) (at_ : Moment) : NoDangling (serve env r at_ s) := by
  by_cases ht : Table.properties ∈ r.tables ∨ Table.categories ∈ r.tables
  · unfold Request.tables at ht
    split at ht <;> try exact absurd ht (by decide)
    · rename_i body
      obtain hs | ⟨hn, data, hd, hs⟩ := serve_createProperty env at_ s body
      · rwa [hs]
      · rw [hs]
        refine noDangling_insertProperty h ?_ _
        rw [(category_withShopFields hd).1]
        exact hk hn ⟨data, hd⟩
    · rename_i id body
      cases hf : s.findById .properties (.num (stringToNumber id)) with
      | none => rwa [serve_put_of_missing env rfl hf]
      | some row =>
        obtain ⟨hs, _⟩ | ⟨data, hd, hs⟩ := serve_put env (r := .admin true (.updateProperty id body)) rfl at_ s
        · rwa [hs]
        · rw [hs]
          refine noDangling_updateProperty h (fun hb => ?_) _
          obtain ⟨hget, hhas⟩ := category_withShopFields hd
          rw [hget]
          exact hk (by rw [hf]; rfl) ⟨data, hd⟩ (hhas ▸ hb)
    · rename_i id
      obtain hs | hs := serve_deleteProperty env at_ s id
      · rwa [hs]
      · rw [hs]
        exact noDangling_removeProperty h _
    · exact noDangling_import h _ at_
    · rename_i body
      obtain hs | ⟨row, hs⟩ := serve_createCategory env at_ s body
      · rwa [hs]
      · rw [hs]
        exact noDangling_insertCategory h row _
    · rename_i id body
      obtain ⟨hs, _⟩ | ⟨data, hd, hs⟩ := serve_put env (r := .admin true (.updateCategory id body)) rfl at_ s
      · rwa [hs]
      · rw [hs]
        cases hd
        exact noDangling_updateCategory h (Or.inl (has_cleanData body)) _
    · rename_i id
      change NoDangling ((CatalogueRoutes.deleteCategory id).run s).2
      obtain ⟨_, hrun⟩ | ⟨hu, hrun⟩ := run_deleteCategory (s := s) id
      · rwa [hrun]
      · rw [hrun]
        exact noDangling_removeCategory h hu
  · rw [not_or] at ht
    exact noDangling_perm h (serve_sameRows env ht.1 at_ s).perm (serve_sameRows env ht.2 at_ s).perm

theorem noDangling_step {env : Env} {s s' : Store} {e : Event} (h : NoDangling s)
    (hk : e.SetsCategory s) (hs : step env s e = some s') : NoDangling s' := by
  cases e with
  | request r at_ =>
    cases hs
    exact noDangling_request h hk at_
  | operation w now => exact hk.elim
  | timer now =>
    simp only [step] at hs
    split at hs
    · cases hs
      exact noDangling_perm h (by rw [Store.timerFired_eq, Store.rows_flushNow])
        (by rw [Store.timerFired_eq, Store.rows_flushNow])
    · cases hs
  | flush now =>
    cases hs
    exact noDangling_perm h (by rw [Store.rows_flushNow]) (by rw [Store.rows_flushNow])
  | restart loadedAt clock => exact hk.elim

/-- While no accepted POST or PUT sets a category that is not there, every reference in every state
reached is whole; and a deletion that is answered with success leaves no property that names
the category. -/
theorem references_whole {env : Env} {loadedAt : String} {clock : ℕ → String} {es : List Event}
    {s : Store} (hok : Along (step env) (fun s e => e.SetsCategory s)
      (start loadedAt clock .empty) es)
    (hr : run (step env) (start loadedAt clock .empty) es = some s) :
    NoDangling s ∧ ∀ id at_ message,
      answer env (.admin true (.deleteCategory id)) at_ s = .ok (.success message) →
      Unnamed (serve env (.admin true (.deleteCategory id)) at_ s) id := by
  have hstart : NoDangling (start loadedAt clock .empty) := by
    intro p hp
    unfold start at hp
    rw [rows_initDefaultData_of_ne (by decide) (by decide)] at hp
    exact absurd hp List.not_mem_nil
  refine ⟨run_invariant (step env) NoDangling (fun _ _ _ hi ho hs => noDangling_step hi ho hs) hstart
    hok hr, fun id at_ message ha => ?_⟩
  change ((CatalogueRoutes.deleteCategory id).run s).1 = _ at ha
  change Unnamed ((CatalogueRoutes.deleteCategory id).run s).2 id
  obtain ⟨_, hrun⟩ | ⟨hu, hrun⟩ := run_deleteCategory (s := s) id
  · rw [hrun] at ha
    cases ha
  · rw [hrun]
    intro p hp
    rw [Store.rows_remove, if_neg (by decide)] at hp
    exact hu p hp

/-- A property of the category `n`. -/
def propertyOf (n : ℕ) : Request :=
  .admin true (.createProperty (.ofList [("community_name", .str "a"), ("category_id", .num (.ofNat n))]))

/-- A property is put into the first of the default categories, and that category is not deleted. -/
theorem references_whole_default :
    let es : List Event := [.request (propertyOf 1) (moment "t2"),
      .request (.admin true (.deleteCategory "1")) (moment "t3")]
    ∃ s, run (step .plain) (start "t0" (fun _ => "t1") .empty) es = some s ∧ NoDangling s := by
  intro es
  have hnamed : ((start "t0" (fun _ => "t1") .empty).cache.rows .categories).any
      (fun c => (JsVal.num (.ofNat 1)).strictEq (c.get "id")) = true := by decide
  have hok : Along (step .plain) (fun s e => e.SetsCategory s) (start "t0" (fun _ => "t1") .empty)
      es :=
    along_request (fun _ _ => Or.inr (List.any_eq_true.mp hnamed)) (along_request trivial trivial)
  exact ⟨_, rfl, (references_whole hok rfl).1⟩

/-- A property is created for a category that is not there. -/
theorem property_without_category :
    let es : List Event := [.request (propertyOf 99) (moment "t2")]
    ∃ s, run (step .plain) (start "t0" (fun _ => "t1") .empty) es = some s ∧ ¬NoDangling s := by
  intro es
  let s := serve .plain (propertyOf 99) (moment "t2") (start "t0" (fun _ => "t1") .empty)
  have hset : ((s.cache.rows .properties).any fun p => decide (p.get "category_id" = .num (.ofNat 99))) =
      true := by decide
  have hnone : (s.cache.rows .categories).any
      (fun c => (JsVal.num (.ofNat 99)).strictEq (c.get "id")) = false := by decide
  obtain ⟨p, hp, he⟩ := List.any_eq_true.mp hset
  refine ⟨s, rfl, fun h => ?_⟩
  have hn := h p hp
  rw [of_decide_eq_true he] at hn
  rcases hn with hn | hn
  · cases hn
  · exact absurd (List.any_eq_true.mpr hn) (by rw [hnone]; decide)

end Server

end JtfpMall
