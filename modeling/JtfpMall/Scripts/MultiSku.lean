import JtfpMall.Lib.Transaction
import JtfpMall.Store.Data

/-!
# Welfare codes get their items

`migrate_welfare_codes_to_multi_sku.ts`: every code without items gets one of the default SKU, at
the price of the code, which also becomes its original price where there is none. The SKU is created
outside the transaction.
-/

namespace JtfpMall.Scripts

open JtfpMall.Js
open JtfpMall.Lib

structure LibrarySku where
  id : ℕ
  skuCode : String
  skuTitle : String
  attrsText : String
  priceCent : ℤ
  status : ℕ
  coverUrl : Option String

/-- A row of `welfare_codes`; `columns` are the ones the script does not name. -/
structure WelfareCode where
  id : ℕ
  code : String
  priceCent : Option ℤ
  originalPriceCent : Option ℤ
  columns : Row

structure CodeItem where
  id : ℕ
  welfareCodeId : ℕ
  skuLibraryId : ℕ
  skuCode : String
  skuTitle : String
  quantity : ℕ
  priceCent : ℤ

structure WelfareDb where
  skuLibrary : List LibrarySku
  welfareCodes : List WelfareCode
  welfareCodeItems : List CodeItem
  skuIds : (skuLibrary.map LibrarySku.id).Nodup
  codeIds : (welfareCodes.map WelfareCode.id).Nodup
  itemIds : (welfareCodeItems.map CodeItem.id).Nodup

/-- The id of a new row, which no row of its table has; the number of the statement stands for what
else it depends on. -/
structure AutoIncrement where
  next : ℕ → List ℕ → ℕ
  fresh : ∀ n ids, next n ids ∉ ids

theorem nodup_append_next {α : Type} {id : α → ℕ} {rows : List α} (h : (rows.map id).Nodup)
    (auto : AutoIncrement) {n : ℕ} {row : α} (hrow : id row = auto.next n (rows.map id)) :
    ((rows ++ [row]).map id).Nodup := by
  rw [List.map_append, List.map_singleton, hrow, List.nodup_append]
  refine ⟨h, List.nodup_singleton _, fun a ha b hb => ?_⟩
  rintro rfl
  rw [List.mem_singleton.mp hb] at ha
  exact auto.fresh n _ ha

def defaultSkuCode : String := "WELFARE_DEFAULT"

def defaultSkuTitle : String := "福利商品（默认）"

/-- `WHERE sku_code = ? LIMIT 1`, as the collation compares. -/
def findDefaultSku (collate : String → String) (db : WelfareDb) : Option LibrarySku :=
  db.skuLibrary.find? fun sku => decide (collate sku.skuCode = collate defaultSkuCode)

def insertDefaultSku (auto : AutoIncrement) (n : ℕ) (db : WelfareDb) : ℕ × WelfareDb :=
  let id := auto.next n (db.skuLibrary.map LibrarySku.id)
  (id, { db with
    skuLibrary := db.skuLibrary ++
      [⟨id, defaultSkuCode, defaultSkuTitle, "福利码默认商品", 0, 1, none⟩]
    skuIds := nodup_append_next db.skuIds auto rfl })

/-- `welfare_codes wc LEFT JOIN welfare_code_items wci ON wci.welfare_code_id = wc.id`. -/
def joined (db : WelfareDb) : List (WelfareCode × Option CodeItem) :=
  db.welfareCodes.flatMap fun wc =>
    match db.welfareCodeItems.filter fun wci => decide (wci.welfareCodeId = wc.id) with
    | [] => [(wc, none)]
    | items => items.map fun wci => (wc, some wci)

/-- `WHERE wci.id IS NULL`. -/
def unmigrated (db : WelfareDb) : List WelfareCode :=
  ((joined db).filter fun r => r.2.isNone).map Prod.fst

/-- The item of a code. -/
def defaultItem (id wcId skuId : ℕ) (priceCent : ℤ) : CodeItem :=
  ⟨id, wcId, skuId, defaultSkuCode, defaultSkuTitle, 1, priceCent⟩

def insertItem (auto : AutoIncrement) (wcId skuId : ℕ) (priceCent : ℤ) (n : ℕ) (db : WelfareDb) :
    Unit × WelfareDb :=
  let id := auto.next n (db.welfareCodeItems.map CodeItem.id)
  ((), { db with
    welfareCodeItems := db.welfareCodeItems ++ [defaultItem id wcId skuId priceCent]
    itemIds := nodup_append_next db.itemIds auto rfl })

/-- The code with another original price, if it is the one with the id. -/
def WelfareCode.priced (wcId : ℕ) (priceCent : ℤ) (wc : WelfareCode) : WelfareCode :=
  if wc.id = wcId then { wc with originalPriceCent := some priceCent } else wc

@[simp] theorem WelfareCode.id_priced (wcId : ℕ) (priceCent : ℤ) (wc : WelfareCode) :
    (wc.priced wcId priceCent).id = wc.id := by
  unfold WelfareCode.priced
  split <;> rfl

/-- `UPDATE welfare_codes SET original_price_cent = ? WHERE id = ?`. -/
def updateOriginalPrice (wcId : ℕ) (priceCent : ℤ) (_ : ℕ) (db : WelfareDb) : Unit × WelfareDb :=
  ((), { db with
    welfareCodes := db.welfareCodes.map (WelfareCode.priced wcId priceCent)
    codeIds := by
      rw [List.map_map]
      have hids : WelfareCode.id ∘ WelfareCode.priced wcId priceCent = WelfareCode.id :=
        funext (WelfareCode.id_priced wcId priceCent)
      rw [hids]
      exact db.codeIds })

variable (collate : String → String) (auto : AutoIncrement) (fails : ℕ → Bool)

abbrev Script := Action (Session WelfareDb) Unit

open Session

/-- A round of the loop. -/
def migrateCode (skuId : ℕ) (wc : WelfareCode) : Script Unit := do
  let priceCent := wc.priceCent.getD 0
  let existingOriginalPrice := wc.originalPriceCent.getD 0
  statement fails (insertItem auto wc.id skuId priceCent)
  if existingOriginalPrice = 0 then statement fails (updateOriginalPrice wc.id priceCent)

def migrateCodes (skuId : ℕ) : List WelfareCode → Script Unit
  | [] => pure ()
  | wc :: rest => do
    migrateCode auto fails skuId wc
    migrateCodes skuId rest

def defaultSkuId : Script ℕ := do
  match ← query fails (findDefaultSku collate) with
  | some sku => return sku.id
  | none => statement fails (insertDefaultSku auto)

def migration : Script Unit := do
  let skuId ← defaultSkuId collate auto fails
  let wcRows ← query fails unmigrated
  if wcRows.length = 0 then return
  transaction fails (migrateCodes auto fails skuId wcRows)

/-- `main()`: whether it succeeds, and the database afterwards. -/
def migrate (db : WelfareDb) : Bool × WelfareDb := connected fails (migration collate auto fails) db

def itemsOf (wcId : ℕ) (db : WelfareDb) : List CodeItem :=
  db.welfareCodeItems.filter fun wci => decide (wci.welfareCodeId = wcId)

/-- The original price of a code that has its items now. -/
def originalPrice (wc : WelfareCode) : Option ℤ :=
  if wc.originalPriceCent = none ∨ wc.originalPriceCent = some 0 then some (wc.priceCent.getD 0)
  else wc.originalPriceCent

/-- Codes without items have one of the default SKU; nothing else has changed but original prices
that were missing. -/
structure Migrated (db db' : WelfareDb) : Prop where
  migrated : ∃ sku ∈ db'.skuLibrary, collate sku.skuCode = collate defaultSkuCode ∧
    ∀ wc ∈ db.welfareCodes, itemsOf wc.id db = [] →
      ∃ id, itemsOf wc.id db' = [defaultItem id wc.id sku.id (wc.priceCent.getD 0)]
  kept : ∀ wcId, itemsOf wcId db ≠ [] → itemsOf wcId db' = itemsOf wcId db
  codes : db'.welfareCodes = db.welfareCodes.map fun wc =>
    if itemsOf wc.id db = [] then { wc with originalPriceCent := originalPrice wc } else wc

/-- The anti-join selects the codes without items, each once. -/
theorem unmigrated_eq (db : WelfareDb) :
    unmigrated db = db.welfareCodes.filter fun wc => (itemsOf wc.id db).isEmpty := by
  unfold unmigrated joined
  induction db.welfareCodes with
  | nil => rfl
  | cons wc codes ih =>
    rw [List.flatMap_cons, List.filter_append, List.map_append, ih, List.filter_cons]
    change List.map Prod.fst (List.filter _ (match itemsOf wc.id db with
      | [] => [(wc, none)]
      | items => items.map fun wci => (wc, some wci))) ++ _ = _
    cases itemsOf wc.id db with
    | nil => rfl
    | cons item items =>
      have hsome : ((item :: items).map fun wci => (wc, some wci)).filter
          (fun r => r.2.isNone) = [] := by
        rw [List.filter_eq_nil_iff]
        intro r hr
        obtain ⟨wci, -, rfl⟩ := List.mem_map.mp hr
        exact Bool.false_ne_true
      dsimp only
      rw [hsome]
      rfl

variable {auto fails}

/-- A round puts one item in and sets at most the original price of its code. -/
theorem run_migrateCode_ok {skuId : ℕ} {wc : WelfareCode} {s s' : Session WelfareDb}
    (h : (migrateCode auto fails skuId wc).run s = (.ok (), s')) :
    (∃ id, s'.db.welfareCodeItems =
      s.db.welfareCodeItems ++ [defaultItem id wc.id skuId (wc.priceCent.getD 0)]) ∧
    s'.db.welfareCodes = (if wc.originalPriceCent.getD 0 = 0 then
      s.db.welfareCodes.map (WelfareCode.priced wc.id (wc.priceCent.getD 0))
      else s.db.welfareCodes) ∧
    s'.db.skuLibrary = s.db.skuLibrary := by
  unfold migrateCode at h
  dsimp only at h
  obtain ⟨u, s₁, hinsert, h⟩ := Action.run_bind_ok h
  rcases run_statement_cases fails (insertItem auto wc.id skuId (wc.priceCent.getD 0)) s with hs | hs
  · rw [hs] at hinsert
    cases hinsert
  · rw [hs] at hinsert
    cases hinsert
    split at h
    · rename_i hzero
      rw [if_pos hzero]
      rcases run_statement_cases fails (updateOriginalPrice wc.id (wc.priceCent.getD 0)) _ with hs' | hs'
      · rw [hs'] at h
        cases h
      · rw [hs'] at h
        cases h
        exact ⟨⟨_, rfl⟩, rfl, rfl⟩
    · rename_i hprice
      cases h
      rw [if_neg hprice]
      exact ⟨⟨_, rfl⟩, rfl, rfl⟩

/-- The codes after the update of a round. -/
def updated (codes : List WelfareCode) (wc : WelfareCode) : List WelfareCode :=
  if wc.originalPriceCent.getD 0 = 0 then
    codes.map (WelfareCode.priced wc.id (wc.priceCent.getD 0))
  else codes

/-- The loop puts in one item for each code. -/
theorem run_migrateCodes_ok {skuId : ℕ} {rest : List WelfareCode} {s s' : Session WelfareDb}
    (h : (migrateCodes auto fails skuId rest).run s = (.ok (), s')) :
    (∃ new, s'.db.welfareCodeItems = s.db.welfareCodeItems ++ new ∧
      List.Forall₂ (fun wc item => ∃ id, item =
        defaultItem id (WelfareCode.id wc) skuId (wc.priceCent.getD 0)) rest new) ∧
    s'.db.welfareCodes = rest.foldl updated s.db.welfareCodes ∧
    s'.db.skuLibrary = s.db.skuLibrary := by
  induction rest generalizing s with
  | nil =>
    cases h
    exact ⟨⟨[], (List.append_nil _).symm, .nil⟩, rfl, rfl⟩
  | cons wc rest ih =>
    obtain ⟨u, s₁, hround, h⟩ := Action.run_bind_ok h
    obtain ⟨⟨id, hitems⟩, hcodes, hskus⟩ := run_migrateCode_ok hround
    obtain ⟨⟨new, hnew, hall⟩, hcodes', hskus'⟩ := ih h
    refine ⟨⟨defaultItem id wc.id skuId (wc.priceCent.getD 0) :: new, ?_, .cons ⟨id, rfl⟩ hall⟩, ?_,
      hskus'.trans hskus⟩
    · rw [hnew, hitems, List.append_assoc]
      rfl
    · rw [hcodes', hcodes]
      rfl

theorem inside_migrateCodes (auto : AutoIncrement) (fails : ℕ → Bool) (skuId : ℕ) (rest : List WelfareCode) :
    Inside (migrateCodes auto fails skuId rest) := by
  induction rest with
  | nil => exact inside_pure ()
  | cons wc rest ih =>
    refine inside_bind ?_ fun _ => ih
    unfold migrateCode
    refine inside_bind (inside_statement fails _) fun _ => ?_
    split
    · exact inside_statement fails _
    · exact inside_pure ()

/-- The update of the code with its own id, and of no other. -/
def updatedIn (rest : List WelfareCode) (wc : WelfareCode) : WelfareCode :=
  match rest.find? fun r => decide (r.id = wc.id) with
  | some r => if r.originalPriceCent.getD 0 = 0
    then { wc with originalPriceCent := some (r.priceCent.getD 0) } else wc
  | none => wc

theorem foldl_updated {rest : List WelfareCode} (hrest : (rest.map WelfareCode.id).Nodup)
    (codes : List WelfareCode) : rest.foldl updated codes = codes.map (updatedIn rest) := by
  induction rest generalizing codes with
  | nil => exact (List.map_id' codes).symm
  | cons r rest ih =>
    obtain ⟨hr, hrest⟩ := List.nodup_cons.mp hrest
    have hnone : rest.find? (fun r' => decide (r'.id = r.id)) = none := by
      rw [List.find?_eq_none]
      intro r' hr' hid
      exact hr (of_decide_eq_true hid ▸ List.mem_map_of_mem hr')
    rw [List.foldl_cons, ih hrest]
    unfold updated
    split
    · rename_i hzero
      rw [List.map_map]
      refine List.map_congr_left fun wc _ => ?_
      change updatedIn rest (wc.priced r.id _) = _
      unfold updatedIn WelfareCode.priced
      rw [List.find?_cons]
      by_cases hid : wc.id = r.id
      · rw [if_pos hid, decide_eq_true hid.symm]
        dsimp only
        rw [hid, hnone, if_pos hzero]
      · rw [if_neg hid, decide_eq_false (Ne.symm hid)]
    · rename_i hprice
      refine List.map_congr_left fun wc _ => ?_
      unfold updatedIn
      rw [List.find?_cons]
      by_cases hid : wc.id = r.id
      · rw [decide_eq_true hid.symm]
        dsimp only
        rw [hid, hnone, if_neg hprice]
      · rw [decide_eq_false (Ne.symm hid)]

/-- A code is found by its id when it is among those that are migrated. -/
theorem updatedIn_filter {codes : List WelfareCode} (hcodes : (codes.map WelfareCode.id).Nodup)
    (p : WelfareCode → Bool) {wc : WelfareCode} (hwc : wc ∈ codes) :
    updatedIn (codes.filter p) wc =
      if p wc = true then { wc with originalPriceCent := originalPrice wc } else wc := by
  have hfind : (codes.filter p).find? (fun r => decide (r.id = wc.id)) =
      if p wc = true then some wc else none := by
    split
    · rename_i hp
      cases h : (codes.filter p).find? fun r => decide (r.id = wc.id) with
      | none =>
        exact absurd (decide_eq_true rfl)
          (List.find?_eq_none.mp h wc (List.mem_filter.mpr ⟨hwc, hp⟩))
      | some r =>
        have hid : r.id = wc.id := by simpa using List.find?_some h
        have hr := (List.mem_filter.mp (List.mem_of_find?_eq_some h)).1
        rw [List.inj_on_of_nodup_map hcodes hr hwc hid]
    · rename_i hp
      rw [List.find?_eq_none]
      intro r hr hid
      obtain ⟨hr, hpr⟩ := List.mem_filter.mp hr
      rw [List.inj_on_of_nodup_map hcodes hr hwc (of_decide_eq_true hid)] at hpr
      exact hp hpr
  have hprice : wc.originalPriceCent.getD 0 = 0 ↔
      wc.originalPriceCent = none ∨ wc.originalPriceCent = some 0 := by
    cases wc.originalPriceCent <;> simp
  unfold updatedIn originalPrice
  rw [hfind]
  by_cases hp : p wc = true
  · rw [if_pos hp, if_pos hp]
    dsimp only
    by_cases hzero : wc.originalPriceCent.getD 0 = 0
    · rw [if_pos hzero, if_pos (hprice.mp hzero)]
    · rw [if_neg hzero, if_neg (fun h => hzero (hprice.mpr h))]
  · rw [if_neg hp, if_neg hp]

/-- Of the new items one belongs to each migrated code. -/
theorem filter_new {skuId : ℕ} {rest : List WelfareCode} {new : List CodeItem}
    (h : List.Forall₂ (fun wc item => ∃ id, item =
      defaultItem id (WelfareCode.id wc) skuId (wc.priceCent.getD 0)) rest new)
    (hrest : (rest.map WelfareCode.id).Nodup) (wcId : ℕ) :
    (wcId ∉ rest.map WelfareCode.id → new.filter (fun i => decide (i.welfareCodeId = wcId)) = []) ∧
    ∀ wc ∈ rest, wc.id = wcId → ∃ id, new.filter (fun i => decide (i.welfareCodeId = wcId)) =
      [defaultItem id wcId skuId (wc.priceCent.getD 0)] := by
  induction h with
  | nil => exact ⟨fun _ => rfl, fun wc hwc => (List.not_mem_nil hwc).elim⟩
  | @cons r item rest new hitem _ ih =>
    obtain ⟨id, rfl⟩ := hitem
    obtain ⟨hr, hrest⟩ := List.nodup_cons.mp hrest
    obtain ⟨hnone, hone⟩ := ih hrest
    rw [List.filter_cons]
    change (_ → (if decide (r.id = wcId) = true then _ else _) = _) ∧
      ∀ wc ∈ _, _ → ∃ id, (if decide (r.id = wcId) = true then _ else _) = _
    by_cases hid : r.id = wcId
    · rw [decide_eq_true hid, if_pos rfl, hnone (hid ▸ hr)]
      refine ⟨fun hout => absurd (hid ▸ List.mem_cons_self) hout, fun wc hwc hwcid => ?_⟩
      rcases List.mem_cons.mp hwc with rfl | hwc
      · exact ⟨id, by rw [hid]⟩
      · exact absurd (hid.trans hwcid.symm ▸ List.mem_map_of_mem hwc) hr
    · rw [decide_eq_false hid, if_neg Bool.false_ne_true]
      refine ⟨fun hout => hnone fun hmem => hout (List.mem_cons_of_mem _ hmem),
        fun wc hwc hwcid => ?_⟩
      rcases List.mem_cons.mp hwc with rfl | hwc
      · exact absurd hwcid hid
      · exact hone wc hwc hwcid

/-- The session has the same codes and items, and the same open transaction. -/
structure SameCodes (s s' : Session WelfareDb) : Prop where
  saved : s'.saved = s.saved
  codes : s'.db.welfareCodes = s.db.welfareCodes
  items : s'.db.welfareCodeItems = s.db.welfareCodeItems

theorem run_query_cases (fails : ℕ → Bool) {α : Type} (f : WelfareDb → α) (s : Session WelfareDb) :
    (query fails f).run s = (.error (), { s with issued := s.issued + 1 }) ∨
    (query fails f).run s = (.ok (f s.db), { s with issued := s.issued + 1 }) :=
  run_statement_cases fails _ s

/-- The default SKU is looked up or created. -/
theorem run_defaultSkuId_cases (auto : AutoIncrement) (fails : ℕ → Bool) (s : Session WelfareDb) :
    (∃ s', (defaultSkuId collate auto fails).run s = (.error (), s') ∧ SameCodes s s') ∨
    (∃ skuId s', (defaultSkuId collate auto fails).run s = (.ok skuId, s') ∧ SameCodes s s' ∧
      ∃ sku ∈ s'.db.skuLibrary, collate sku.skuCode = collate defaultSkuCode ∧ sku.id = skuId) := by
  unfold defaultSkuId
  rw [Action.run_bind]
  rcases run_query_cases fails (findDefaultSku collate) s with h | h
  · rw [h]
    exact Or.inl ⟨_, rfl, rfl, rfl, rfl⟩
  · rw [h]
    dsimp only
    cases hfind : findDefaultSku collate s.db with
    | some sku =>
      refine Or.inr ⟨sku.id, _, rfl, ⟨rfl, rfl, rfl⟩, sku, List.mem_of_find?_eq_some hfind, ?_, rfl⟩
      simpa using List.find?_some hfind
    | none =>
      dsimp only
      rcases run_statement_cases fails (insertDefaultSku auto) { s with issued := s.issued + 1 }
        with h' | h'
      · exact Or.inl ⟨_, h', rfl, rfl, rfl⟩
      · exact Or.inr ⟨_, _, h', ⟨rfl, rfl, rfl⟩, _, List.mem_append_right _ List.mem_cons_self, rfl, rfl⟩

theorem itemsOf_congr {db db' : WelfareDb} (h : db'.welfareCodeItems = db.welfareCodeItems)
    (wcId : ℕ) : itemsOf wcId db' = itemsOf wcId db := by
  unfold itemsOf
  rw [h]

theorem unmigrated_congr {db db' : WelfareDb} (hcodes : db'.welfareCodes = db.welfareCodes)
    (hitems : db'.welfareCodeItems = db.welfareCodeItems) : unmigrated db' = unmigrated db := by
  unfold unmigrated joined
  rw [hcodes, hitems]

/-- Nothing to migrate: what is there stays. -/
theorem migrated_of_same {db db' : WelfareDb} (hcodes : db'.welfareCodes = db.welfareCodes)
    (hitems : db'.welfareCodeItems = db.welfareCodeItems) (hnone : unmigrated db = [])
    (hsku : ∃ sku ∈ db'.skuLibrary, collate sku.skuCode = collate defaultSkuCode) :
    Migrated collate db db' := by
  have hall : ∀ wc ∈ db.welfareCodes, itemsOf wc.id db ≠ [] := by
    intro wc hwc hempty
    rw [unmigrated_eq, List.filter_eq_nil_iff] at hnone
    exact hnone wc hwc (by rw [hempty]; rfl)
  obtain ⟨sku, hmem, hcode⟩ := hsku
  refine ⟨⟨sku, hmem, hcode, fun wc hwc hempty => absurd hempty (hall wc hwc)⟩,
    fun wcId _ => itemsOf_congr hitems wcId, ?_⟩
  rw [hcodes]
  refine (List.map_id' _).symm.trans (List.map_congr_left fun wc hwc => ?_)
  rw [if_neg (hall wc hwc)]

/-- The loop over the codes without items migrates them. -/
theorem migrated_of_loop {db : WelfareDb} {skuId : ℕ} {s s' : Session WelfareDb}
    (hcodes : s.db.welfareCodes = db.welfareCodes)
    (hitems : s.db.welfareCodeItems = db.welfareCodeItems)
    (hsku : ∃ sku ∈ s.db.skuLibrary, collate sku.skuCode = collate defaultSkuCode ∧ sku.id = skuId)
    (h : (migrateCodes auto fails skuId (unmigrated db)).run s = (.ok (), s')) :
    Migrated collate db s'.db := by
  obtain ⟨⟨new, hnew, hall⟩, hcodes', hskus⟩ := run_migrateCodes_ok h
  have hrest : ((unmigrated db).map WelfareCode.id).Nodup := by
    rw [unmigrated_eq]
    exact db.codeIds.sublist (List.filter_sublist.map _)
  have hafter : ∀ wcId, itemsOf wcId s'.db =
      itemsOf wcId db ++ new.filter fun i => decide (i.welfareCodeId = wcId) := by
    intro wcId
    unfold itemsOf
    rw [hnew, hitems, List.filter_append]
  obtain ⟨sku, hmem, hcode, rfl⟩ := hsku
  refine ⟨⟨sku, hskus ▸ hmem, hcode, fun wc hwc hempty => ?_⟩, fun wcId hne => ?_, ?_⟩
  · have hwc' : wc ∈ unmigrated db := by
      rw [unmigrated_eq]
      exact List.mem_filter.mpr ⟨hwc, by rw [hempty]; rfl⟩
    obtain ⟨id, hid⟩ := (filter_new hall hrest wc.id).2 wc hwc' rfl
    exact ⟨id, by rw [hafter, hempty, hid, List.nil_append]⟩
  · have hout : wcId ∉ (unmigrated db).map WelfareCode.id := by
      rw [unmigrated_eq]
      intro hmem
      obtain ⟨wc, hwc, rfl⟩ := List.mem_map.mp hmem
      exact hne (List.isEmpty_iff.mp (List.mem_filter.mp hwc).2)
    rw [hafter, (filter_new hall hrest wcId).1 hout, List.append_nil]
  · rw [hcodes', foldl_updated hrest, hcodes, unmigrated_eq]
    refine List.map_congr_left fun wc hwc => ?_
    rw [updatedIn_filter db.codeIds _ hwc]
    refine if_congr List.isEmpty_iff rfl rfl

theorem migration_cases (auto : AutoIncrement) (fails : ℕ → Bool) (db : WelfareDb) :
    (∃ s', (migration collate auto fails).run ⟨db, none, 0⟩ = (.error (), s') ∧
      s'.close.welfareCodes = db.welfareCodes ∧
      s'.close.welfareCodeItems = db.welfareCodeItems) ∨
    (∃ s', (migration collate auto fails).run ⟨db, none, 0⟩ = (.ok (), s') ∧
      Migrated collate db s'.close) := by
  unfold migration
  rw [Action.run_bind]
  rcases run_defaultSkuId_cases collate auto fails ⟨db, none, 0⟩ with
    ⟨s₁, hrun, hsame⟩ | ⟨skuId, s₁, hrun, hsame, hsku⟩
  · refine Or.inl ⟨s₁, by rw [hrun], ?_⟩
    unfold close
    rw [hsame.saved]
    exact ⟨hsame.codes, hsame.items⟩
  · rw [hrun]
    dsimp only
    rw [Action.run_bind]
    rcases run_query_cases fails unmigrated s₁ with hquery | hquery
    · refine Or.inl ⟨_, by rw [hquery], ?_⟩
      unfold close
      dsimp only
      rw [hsame.saved]
      exact ⟨hsame.codes, hsame.items⟩
    · rw [hquery, unmigrated_congr hsame.codes hsame.items]
      dsimp only
      split
      · rename_i hnone
        refine Or.inr ⟨_, rfl, ?_⟩
        unfold close
        dsimp only
        rw [hsame.saved]
        obtain ⟨sku, hmem, hcode, -⟩ := hsku
        exact migrated_of_same collate hsame.codes hsame.items (List.length_eq_zero_iff.mp hnone)
          ⟨sku, hmem, hcode⟩
      · rcases run_transaction_cases fails (inside_migrateCodes auto fails skuId (unmigrated db))
          (s := { s₁ with issued := s₁.issued + 1 }) hsame.saved with
          ⟨s₂, s₃, s', hdb, hloop, hrun', hclose⟩ | ⟨s', hrun', hclose⟩
        · refine Or.inr ⟨s', hrun', ?_⟩
          rw [hclose]
          exact migrated_of_loop collate (by rw [hdb]; exact hsame.codes)
            (by rw [hdb]; exact hsame.items) (by rw [hdb]; exact hsku) hloop
        · refine Or.inl ⟨s', hrun', ?_⟩
          rw [hclose]
          exact ⟨hsame.codes, hsame.items⟩

/-- With the default SKU there and no code without items, a run changes nothing. -/
theorem migrate_of_done {db : WelfareDb} (hsku : (findDefaultSku collate db).isSome = true)
    (hnone : unmigrated db = []) : (migrate collate auto fails db).2 = db := by
  obtain ⟨sku, hfind⟩ := Option.isSome_iff_exists.mp hsku
  unfold migrate connected migration defaultSkuId
  rw [Action.run_bind, Action.run_bind]
  rcases run_query_cases fails (findDefaultSku collate) ⟨db, none, 0⟩ with h | h
  · rw [h]
    exact close_rollback fails _
  · rw [h, hfind]
    dsimp only
    rw [Action.run_pure]
    dsimp only
    rw [Action.run_bind]
    rcases run_query_cases fails unmigrated ⟨db, none, 0 + 1⟩ with h' | h'
    · rw [h']
      exact close_rollback fails _
    · rw [h', hnone]
      rfl

theorem Migrated.done {db db' : WelfareDb} (h : Migrated collate db db') :
    (findDefaultSku collate db').isSome = true ∧ unmigrated db' = [] := by
  obtain ⟨sku, hmem, hcode, hitems⟩ := h.migrated
  constructor
  · unfold findDefaultSku
    rw [List.find?_isSome]
    exact ⟨sku, hmem, decide_eq_true hcode⟩
  · rw [unmigrated_eq, List.filter_eq_nil_iff, h.codes]
    intro wc' hwc' hempty
    obtain ⟨wc, hwc, rfl⟩ := List.mem_map.mp hwc'
    have hid : (if itemsOf wc.id db = [] then { wc with originalPriceCent := originalPrice wc }
        else wc).id = wc.id := by
      split <;> rfl
    rw [hid, List.isEmpty_iff] at hempty
    by_cases hnone : itemsOf wc.id db = []
    · obtain ⟨id, hone⟩ := hitems wc hwc hnone
      rw [hone] at hempty
      cases hempty
    · rw [h.kept wc.id hnone] at hempty
      exact hnone hempty

/-- **The migration.** A run that succeeds migrates the codes without items and nothing else, and
another run changes nothing; a run that fails leaves the codes and the items. -/
theorem migrate_correct (collate : String → String) (auto : AutoIncrement) (fails : ℕ → Bool)
    (db : WelfareDb) :
    ((migrate collate auto fails db).1 = true →
      Migrated collate db (migrate collate auto fails db).2 ∧
      ∀ auto' fails', (migrate collate auto' fails' (migrate collate auto fails db).2).2 =
        (migrate collate auto fails db).2) ∧
    ((migrate collate auto fails db).1 = false →
      (migrate collate auto fails db).2.welfareCodes = db.welfareCodes ∧
      (migrate collate auto fails db).2.welfareCodeItems = db.welfareCodeItems) := by
  rcases migration_cases collate auto fails db with
    ⟨s', hrun, hcodes, hitems⟩ | ⟨s', hrun, hmigrated⟩
  · have hmigrate : migrate collate auto fails db = (false, ((rollback fails).run s').2.close) := by
      unfold migrate connected
      rw [hrun]
    rw [hmigrate, close_rollback]
    exact ⟨fun h => (nomatch h), fun _ => ⟨hcodes, hitems⟩⟩
  · have hmigrate : migrate collate auto fails db = (true, s'.close) := by
      unfold migrate connected
      rw [hrun]
    rw [hmigrate]
    obtain ⟨hsku, hnone⟩ := hmigrated.done
    exact ⟨fun _ => ⟨hmigrated, fun auto' fails' => migrate_of_done collate hsku hnone⟩,
      fun h => (nomatch h)⟩

end JtfpMall.Scripts
