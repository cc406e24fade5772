import JtfpMall.Js.Coerce

/-!
# The orders after the upgrade

`verify_orders_after_upgrade.ts` compares the backup of the orders and their items with the current
tables. Of an order it asks whether its number is still there; an item is found by its id and some
of its columns are compared.
-/

namespace JtfpMall.Scripts

open JtfpMall.Js

/-- What the driver gives for a column. -/
inductive Column where
  | null
  | number (n : JsNum)
  | text (s : String)
deriving DecidableEq

def Column.js : Column → JsVal
  | .null => .null
  | .number n => .num n
  | .text s => .str s

theorem Column.js_injective {a b : Column} (h : a.js = b.js) : a = b := by
  cases a <;> cases b <;> cases h <;> rfl

structure OrderRow where
  orderNo : String
  userId : Column
  totalAmount : Column
  goodsAmount : Column
  status : Column
  createdAt : Option ℤ

structure ItemRow where
  id : ℕ
  orderNo : Option String
  skuId : Column
  skuTitle : Column
  quantity : Column
  salePrice : Column
  totalPrice : Column
deriving DecidableEq

/-- The tables `orders` and `order_items`, or their backups. Two order numbers are the same for the
database when their keys under its collation are. -/
structure Tables (collate : String → String) where
  orders : List OrderRow
  items : List ItemRow
  orderNos : (orders.map fun o => collate o.orderNo).Nodup
  itemIds : (items.map ItemRow.id).Nodup

variable {collate : String → String}

inductive Source where
  | backup
  | current

/-- `SELECT MAX(created_at)`; it is `NULL` when there is none. -/
def maxCreatedAt (orders : List OrderRow) : Option ℤ := (orders.filterMap OrderRow.createdAt).max?

/-- `c.created_at <= (SELECT MAX(created_at) ..)`. -/
def OrderRow.notAfter (o : OrderRow) (last : Option ℤ) : Bool :=
  match o.createdAt, last with
  | some t, some last => decide (t ≤ last)
  | _, _ => false

/-- No row of the other table has the number of the order. -/
def OrderRow.unmatched (collate : String → String) (o : OrderRow) (others : List OrderRow) : Bool :=
  others.all fun other => decide (collate other.orderNo ≠ collate o.orderNo)

def orderDiffs (backup current : Tables collate) : List (Source × OrderRow) :=
  ((backup.orders.filter fun b => b.unmatched collate current.orders).map fun b => (.backup, b)) ++
    ((current.orders.filter fun c => c.unmatched collate backup.orders &&
      c.notAfter (maxCreatedAt backup.orders)).map fun c => (.current, c))

inductive Difference where
  | deleted (orderNo : Option String) (backup : ItemRow)
  | modified (orderNo : Option String) (backup current : ItemRow)

def Difference.isDeleted : Difference → Bool
  | .deleted _ _ => true
  | .modified _ _ _ => false

/-- `SELECT DISTINCT order_no`. -/
def distinctOrderNos (collate : String → String) : List (Option String) → List (Option String)
  | [] => []
  | n :: ns => n :: (distinctOrderNos collate ns).filter fun n' => decide (n'.map collate ≠ n.map collate)

/-- `WHERE order_no = ? ORDER BY id`; nothing is equal to `NULL`. -/
def itemsOfOrder (collate : String → String) (orderNo : Option String) (items : List ItemRow) :
    List ItemRow :=
  (items.filter fun i => i.orderNo.isSome && decide (i.orderNo.map collate = orderNo.map collate)).mergeSort
    fun a b => decide (a.id ≤ b.id)

/-- `WHERE id IN (?) ORDER BY id`. -/
def itemsWithIds (ids : List ℕ) (items : List ItemRow) : List ItemRow :=
  (items.filter fun i => decide (i.id ∈ ids)).mergeSort fun a b => decide (a.id ≤ b.id)

/-- `Number(a) !== Number(b)`. -/
def numbersDiffer (a b : Column) : Bool := !a.js.primitiveToNumber.strictEq b.js.primitiveToNumber

def ItemRow.changed (bi ci : ItemRow) : Bool :=
  !bi.skuId.js.strictEq ci.skuId.js || !bi.skuTitle.js.strictEq ci.skuTitle.js ||
    numbersDiffer bi.quantity ci.quantity || numbersDiffer bi.salePrice ci.salePrice ||
    numbersDiffer bi.totalPrice ci.totalPrice

/-- The differences of one order. -/
def orderItemDiffs (backup current : Tables collate) (orderNo : Option String) : List Difference :=
  let backupItems := itemsOfOrder collate orderNo backup.items
  let backupIds := backupItems.map ItemRow.id
  if backupIds.length = 0 then []
  else
    let currentItems := itemsWithIds backupIds current.items
    let currentIds := currentItems.map ItemRow.id
    ((backupItems.filter fun bi => !decide (bi.id ∈ currentIds)).map (.deleted orderNo)) ++
      currentItems.filterMap fun ci => do
        let bi ← backupItems.find? fun b => decide (b.id = ci.id)
        if bi.changed ci then some (.modified orderNo bi ci) else none

def itemDiffs (backup current : Tables collate) : List Difference :=
  (distinctOrderNos collate (backup.items.map ItemRow.orderNo)).flatMap
    (orderItemDiffs backup current)

structure Integrity where
  ordersOk : Bool
  orderItemsModified : ℕ
  orderItemsDeleted : ℕ
  isValid : Bool

/-- `report.integrity`. -/
def integrity (backup current : Tables collate) : Integrity :=
  let ordersOk := decide ((orderDiffs backup current).length = 0)
  let diffs := itemDiffs backup current
  let modifiedCount := diffs.countP fun d => !d.isDeleted
  let deletedCount := diffs.countP Difference.isDeleted
  ⟨ordersOk, modifiedCount, deletedCount,
    ordersOk && decide (modifiedCount = 0) && decide (deletedCount = 0)⟩

/-- The orders and items of the backup are in the current tables as they were. -/
structure Unmodified (backup current : Tables collate) : Prop where
  orders : ∀ b ∈ backup.orders, ∃ c ∈ current.orders, c.orderNo = b.orderNo ∧ c.userId = b.userId ∧
    c.totalAmount = b.totalAmount ∧ c.goodsAmount = b.goodsAmount ∧ c.status = b.status
  items : ∀ bi ∈ backup.items, ∃ ci ∈ current.items, ci.id = bi.id ∧ ci.orderNo = bi.orderNo ∧
    ci.skuId = bi.skuId ∧ ci.skuTitle = bi.skuTitle ∧ ci.quantity = bi.quantity ∧
    ci.salePrice = bi.salePrice ∧ ci.totalPrice = bi.totalPrice

/-- What is looked at: the numbers of the orders, and the items that have one. -/
structure Passed (backup current : Tables collate) : Prop where
  found : ∀ b ∈ backup.orders, ∃ c ∈ current.orders, collate c.orderNo = collate b.orderNo
  noneNew : ∀ c ∈ current.orders, (∀ b ∈ backup.orders, collate b.orderNo ≠ collate c.orderNo) →
    c.notAfter (maxCreatedAt backup.orders) = false
  items : ∀ bi ∈ backup.items, bi.orderNo ≠ none →
    ∃ ci ∈ current.items, ci.id = bi.id ∧ bi.changed ci = false

/-- What is not looked at has not changed. -/
structure Untouched (backup current : Tables collate) : Prop where
  orders : ∀ b ∈ backup.orders, ∀ c ∈ current.orders, collate c.orderNo = collate b.orderNo →
    c.orderNo = b.orderNo ∧ c.userId = b.userId ∧ c.totalAmount = b.totalAmount ∧
      c.goodsAmount = b.goodsAmount ∧ c.status = b.status
  items : ∀ bi ∈ backup.items, ∀ ci ∈ current.items, ci.id = bi.id → ci.orderNo = bi.orderNo ∧
    (numbersDiffer bi.quantity ci.quantity = false → ci.quantity = bi.quantity) ∧
    (numbersDiffer bi.salePrice ci.salePrice = false → ci.salePrice = bi.salePrice) ∧
    (numbersDiffer bi.totalPrice ci.totalPrice = false → ci.totalPrice = bi.totalPrice)
  unnumbered : ∀ bi ∈ backup.items, bi.orderNo = none → bi ∈ current.items

variable {backup current : Tables collate}

theorem unmatched_eq_false_iff {o : OrderRow} {others : List OrderRow} :
    o.unmatched collate others = false ↔
      ∃ other ∈ others, collate other.orderNo = collate o.orderNo := by
  unfold OrderRow.unmatched
  rw [List.all_eq_false]
  simp

theorem orderDiffs_eq_nil_iff : orderDiffs backup current = [] ↔
    (∀ b ∈ backup.orders, ∃ c ∈ current.orders, collate c.orderNo = collate b.orderNo) ∧
    ∀ c ∈ current.orders, (∀ b ∈ backup.orders, collate b.orderNo ≠ collate c.orderNo) →
      c.notAfter (maxCreatedAt backup.orders) = false := by
  unfold orderDiffs
  rw [List.append_eq_nil_iff, List.map_eq_nil_iff, List.map_eq_nil_iff, List.filter_eq_nil_iff,
    List.filter_eq_nil_iff]
  refine and_congr (forall₂_congr fun b hb => ?_) (forall₂_congr fun c hc => ?_)
  · rw [← unmatched_eq_false_iff, Bool.not_eq_true]
  · have hnone : (∀ b ∈ backup.orders, collate b.orderNo ≠ collate c.orderNo) ↔
        c.unmatched collate backup.orders = true := by
      unfold OrderRow.unmatched
      simp
    rw [hnone]
    cases c.unmatched collate backup.orders <;> simp

theorem mem_itemsOfOrder {orderNo : Option String} {items : List ItemRow} {i : ItemRow} :
    i ∈ itemsOfOrder collate orderNo items ↔
      i ∈ items ∧ i.orderNo ≠ none ∧ i.orderNo.map collate = orderNo.map collate := by
  unfold itemsOfOrder
  rw [List.mem_mergeSort, List.mem_filter, Bool.and_eq_true, decide_eq_true_eq,
    Option.isSome_iff_ne_none]

theorem mem_itemsWithIds {ids : List ℕ} {items : List ItemRow} {i : ItemRow} :
    i ∈ itemsWithIds ids items ↔ i ∈ items ∧ i.id ∈ ids := by
  unfold itemsWithIds
  rw [List.mem_mergeSort, List.mem_filter, decide_eq_true_eq]

/-- Every order number is among the distinct ones, as the database compares them. -/
theorem exists_distinct {n : Option String} {ns : List (Option String)} (h : n ∈ ns) :
    ∃ n' ∈ distinctOrderNos collate ns, n'.map collate = n.map collate := by
  induction ns with
  | nil => cases h
  | cons m ns ih =>
    rw [distinctOrderNos]
    by_cases hm : n.map collate = m.map collate
    · exact ⟨m, List.mem_cons_self, hm.symm⟩
    · have hn : n ∈ ns := (List.mem_cons.mp h).resolve_left fun heq => hm (congrArg _ heq)
      obtain ⟨n', hn', hsame⟩ := ih hn
      refine ⟨n', List.mem_cons_of_mem _ (List.mem_filter.mpr ⟨hn', ?_⟩), hsame⟩
      exact decide_eq_true (hsame ▸ hm)

theorem eq_of_id {t : Tables collate} {i j : ItemRow} (hi : i ∈ t.items) (hj : j ∈ t.items)
    (h : i.id = j.id) : i = j := List.inj_on_of_nodup_map t.itemIds hi hj h

/-- An order has no differences when each of its items is found and unchanged. -/
theorem orderItemDiffs_eq_nil_iff {orderNo : Option String} :
    orderItemDiffs backup current orderNo = [] ↔
      ∀ bi ∈ itemsOfOrder collate orderNo backup.items,
        ∃ ci ∈ current.items, ci.id = bi.id ∧ bi.changed ci = false := by
  unfold orderItemDiffs
  dsimp only
  have hfind : ∀ bi ∈ itemsOfOrder collate orderNo backup.items, ∀ ci : ItemRow, ci.id = bi.id →
      ((itemsOfOrder collate orderNo backup.items).find? fun b => decide (b.id = ci.id)) = some bi := by
    intro bi hbi ci hid
    cases hb : (itemsOfOrder collate orderNo backup.items).find? fun b => decide (b.id = ci.id) with
    | none => exact absurd hid.symm (by simpa using List.find?_eq_none.mp hb bi hbi)
    | some b =>
      have hbid : b.id = ci.id := by simpa using List.find?_some hb
      have hmem := (mem_itemsOfOrder.mp (List.mem_of_find?_eq_some hb)).1
      rw [eq_of_id hmem (mem_itemsOfOrder.mp hbi).1 (hbid.trans hid)]
  split
  · rename_i hnone
    have hnil : itemsOfOrder collate orderNo backup.items = [] := by
      rwa [List.length_map, List.length_eq_zero_iff] at hnone
    rw [hnil]
    exact iff_of_true rfl fun bi hbi => (List.not_mem_nil hbi).elim
  · rw [List.append_eq_nil_iff, List.map_eq_nil_iff, List.filter_eq_nil_iff]
    constructor
    · rintro ⟨hdeleted, hmodified⟩ bi hbi
      have hid := hdeleted bi hbi
      rw [Bool.not_eq_true, Bool.not_eq_false', decide_eq_true_eq] at hid
      obtain ⟨ci, hci, hcid⟩ := List.mem_map.mp hid
      refine ⟨ci, (mem_itemsWithIds.mp hci).1, hcid, ?_⟩
      have hsame := List.filterMap_eq_nil_iff.mp hmodified ci hci
      rw [hfind bi hbi ci hcid] at hsame
      by_contra hchanged
      rw [Bool.not_eq_false] at hchanged
      change (if bi.changed ci = true then _ else _) = _ at hsame
      rw [if_pos hchanged] at hsame
      cases hsame
    · intro h
      constructor
      · intro bi hbi
        obtain ⟨ci, hci, hid, -⟩ := h bi hbi
        have hmem : ci ∈ itemsWithIds ((itemsOfOrder collate orderNo backup.items).map ItemRow.id)
            current.items :=
          mem_itemsWithIds.mpr ⟨hci, List.mem_map.mpr ⟨bi, hbi, hid.symm⟩⟩
        have hids := List.mem_map.mpr ⟨ci, hmem, hid⟩
        simpa using hids
      · refine List.filterMap_eq_nil_iff.mpr fun ci hci => ?_
        obtain ⟨hmem, hids⟩ := mem_itemsWithIds.mp hci
        obtain ⟨bi, hbi, hid⟩ := List.mem_map.mp hids
        obtain ⟨ci', hci', hid', hunchanged⟩ := h bi hbi
        obtain rfl := eq_of_id hmem hci' (hid.symm.trans hid'.symm)
        rw [hfind bi hbi ci hid']
        exact if_neg (by rw [hunchanged]; exact Bool.false_ne_true)

theorem itemDiffs_eq_nil_iff : itemDiffs backup current = [] ↔
    ∀ bi ∈ backup.items, bi.orderNo ≠ none →
      ∃ ci ∈ current.items, ci.id = bi.id ∧ bi.changed ci = false := by
  unfold itemDiffs
  rw [List.flatMap_eq_nil_iff]
  constructor
  · intro h bi hbi hno
    obtain ⟨n, hn, hsame⟩ := exists_distinct (List.mem_map_of_mem hbi)
    exact orderItemDiffs_eq_nil_iff.mp (h n hn) bi (mem_itemsOfOrder.mpr ⟨hbi, hno, hsame.symm⟩)
  · intro h n _
    refine orderItemDiffs_eq_nil_iff.mpr fun bi hbi => ?_
    obtain ⟨hmem, hno, -⟩ := mem_itemsOfOrder.mp hbi
    exact h bi hmem hno

theorem isValid_iff : (integrity backup current).isValid = true ↔ Passed backup current := by
  have hcounts : ((itemDiffs backup current).countP (fun d => !d.isDeleted) = 0 ∧
      (itemDiffs backup current).countP Difference.isDeleted = 0) ↔ itemDiffs backup current = [] := by
    rw [List.countP_eq_zero, List.countP_eq_zero]
    constructor
    · rintro ⟨hmodified, hdeleted⟩
      refine List.eq_nil_iff_forall_not_mem.mpr fun d hd => ?_
      have h := hmodified d hd
      rw [Bool.eq_false_iff.mpr (hdeleted d hd)] at h
      exact h rfl
    · intro h
      rw [h]
      exact ⟨fun d hd => (List.not_mem_nil hd).elim, fun d hd => (List.not_mem_nil hd).elim⟩
  unfold integrity
  dsimp only
  rw [Bool.and_eq_true, Bool.and_eq_true, decide_eq_true_eq, decide_eq_true_eq, decide_eq_true_eq,
    and_assoc, hcounts, List.length_eq_zero_iff, orderDiffs_eq_nil_iff, itemDiffs_eq_nil_iff]
  exact ⟨fun ⟨⟨h₁, h₂⟩, h₃⟩ => ⟨h₁, h₂, h₃⟩, fun ⟨h₁, h₂, h₃⟩ => ⟨⟨h₁, h₂⟩, h₃⟩⟩

theorem same_of_unchanged {bi ci : ItemRow} (h : bi.changed ci = false) :
    ci.skuId = bi.skuId ∧ ci.skuTitle = bi.skuTitle ∧ numbersDiffer bi.quantity ci.quantity = false ∧
      numbersDiffer bi.salePrice ci.salePrice = false ∧
      numbersDiffer bi.totalPrice ci.totalPrice = false := by
  unfold ItemRow.changed at h
  simp only [Bool.or_eq_false_iff, Bool.not_eq_false'] at h
  obtain ⟨⟨⟨⟨hsku, htitle⟩, hquantity⟩, hsale⟩, htotal⟩ := h
  exact ⟨(Column.js_injective (JsVal.eq_of_strictEq hsku)).symm,
    (Column.js_injective (JsVal.eq_of_strictEq htitle)).symm, hquantity, hsale, htotal⟩

/-- What passes is unmodified if the rest is untouched. -/
theorem Passed.unmodified_iff (h : Passed backup current) :
    Unmodified backup current ↔ Untouched backup current := by
  constructor
  · intro hunmodified
    have hitem : ∀ bi ∈ backup.items, bi ∈ current.items := by
      intro bi hbi
      obtain ⟨ci, hci, hid, horderNo, hsku, htitle, hquantity, hsale, htotal⟩ :=
        hunmodified.items bi hbi
      have heq : ci = bi := by
        cases ci
        cases bi
        simp_all
      rwa [← heq]
    refine ⟨?_, ?_, fun bi hbi _ => hitem bi hbi⟩
    · intro b hb c hc hsame
      obtain ⟨c', hc', hno, hrest⟩ := hunmodified.orders b hb
      have hno' : collate c'.orderNo = collate c.orderNo := by rw [hno, hsame]
      rw [← List.inj_on_of_nodup_map current.orderNos hc' hc hno']
      exact ⟨hno, hrest⟩
    · intro bi hbi ci hci hid
      rw [eq_of_id hci (hitem bi hbi) hid]
      exact ⟨rfl, fun _ => rfl, fun _ => rfl, fun _ => rfl⟩
  · intro huntouched
    constructor
    · intro b hb
      obtain ⟨c, hc, hsame⟩ := h.found b hb
      exact ⟨c, hc, huntouched.orders b hb c hc hsame⟩
    · intro bi hbi
      by_cases hno : bi.orderNo = none
      · exact ⟨bi, huntouched.unnumbered bi hbi hno, rfl, rfl, rfl, rfl, rfl, rfl, rfl⟩
      · obtain ⟨ci, hci, hid, hunchanged⟩ := h.items bi hbi hno
        obtain ⟨hsku, htitle, hquantity, hsale, htotal⟩ := same_of_unchanged hunchanged
        obtain ⟨horderNo, hquantity', hsale', htotal'⟩ := huntouched.items bi hbi ci hci hid
        exact ⟨ci, hci, hid, horderNo, hsku, htitle, hquantity' hquantity, hsale' hsale,
          htotal' htotal⟩

/-- **The verdict.** A valid report vouches for the tables, except where all that is looked at is in
order while something that is not has changed. -/
theorem isValid_sound_iff (backup current : Tables collate) :
    ((integrity backup current).isValid = true → Unmodified backup current) ↔
      (Passed backup current → Untouched backup current) := by
  rw [isValid_iff]
  exact forall_congr' fun h => h.unmodified_iff

/-- The only order of a table. -/
def oneOrder (total status : String) : Tables id where
  orders := [⟨"A1", .number (.fin 7), .text total, .text total, .text status, some 0⟩]
  items := []
  orderNos := List.nodup_singleton _
  itemIds := List.nodup_nil

/-- Another amount and status are not noticed. -/
theorem changedAmount_valid :
    (integrity (oneOrder "100.00" "paid") (oneOrder "1.00" "refunded")).isValid = true ∧
      ¬ Unmodified (oneOrder "100.00" "paid") (oneOrder "1.00" "refunded") := by
  refine ⟨by rfl, fun h => ?_⟩
  obtain ⟨c, hc, -, -, htotal, -⟩ := h.orders _ List.mem_cons_self
  rw [List.mem_singleton.mp hc] at htotal
  exact absurd htotal (by decide)

end JtfpMall.Scripts
