import JtfpMall.Js.Json
import JtfpMall.Lib.Action

/-!
# The notes of welfare orders become buyer notes

The check at the end of `migrate_welfare_note_to_buyer_note.ts`: the orders and items of consumed
codes as they were read before the migration and after it. The loops walk the second snapshot and
look for each row in the first, and compare some columns, as texts.
-/

namespace JtfpMall.Scripts

open JtfpMall.Js
open JtfpMall.Lib

@[ext] structure OrderShot where
  orderNo : JsVal
  inviteCode : JsVal
  buyerNote : JsVal
  welfareNote : JsVal
  welfareConsumedOrderNo : JsVal
  welfareStatus : JsVal
  welfareProductId : JsVal

structure ItemShot where
  id : JsVal
  orderNo : JsVal
  skuId : JsVal
  skuTitle : JsVal
  quantity : JsVal
  salePrice : JsVal
  totalPrice : JsVal
  skuAttrs : JsVal

structure Snapshot where
  orders : List OrderShot
  items : List ItemShot

/-- `rowsToMap(rows, key)`: of the rows with one key the last stays. -/
def rowsToMap {α : Type} (key : α → JsVal) (rows : List α) : Except JsError (Dict α) :=
  rows.foldlM (fun m r => do
    let k ← (key r).toText
    return m.set k r) .empty

/-- `x == null ? null : String(x)`. -/
def textOrNull (v : JsVal) : Except JsError JsVal :=
  if v.isNullish then .ok .null else v.toText.map .str

/-- `${JSON.stringify(x)}`. -/
def printed (v : JsVal) : Except JsError String := (Json.stringify v).toText

def noteErrors (orderNo : String) (expected actual : JsVal) : Except JsError (List String) :=
  if actual ≠ expected then do
    return ["buyer_note 不一致 order_no=" ++ orderNo ++ " expected=" ++ (← printed expected) ++
      " actual=" ++ (← printed actual)]
  else .ok []

/-- The errors about an order of the second snapshot. -/
def checkOrder (beforeOrders : Dict OrderShot) (o : OrderShot) : Except JsError (List String) := do
  let orderNo ← o.orderNo.toText
  match beforeOrders.get? orderNo with
  | none => return ["before 快照缺失订单：" ++ orderNo]
  | some before =>
    let expected ← textOrNull o.welfareNote
    let actual ← textOrNull o.buyerNote
    let errors ← noteErrors orderNo expected actual
    let beforeCode ← (before.inviteCode.or (.str "")).toText
    let code ← (o.inviteCode.or (.str "")).toText
    return errors ++
      if beforeCode ≠ code then ["invite_code 被意外改动 order_no=" ++ orderNo] else []

def sameFields : List (String × (ItemShot → JsVal)) :=
  [("order_no", ItemShot.orderNo), ("sku_id", ItemShot.skuId), ("sku_title", ItemShot.skuTitle),
    ("quantity", ItemShot.quantity), ("sale_price", ItemShot.salePrice),
    ("total_price", ItemShot.totalPrice)]

/-- The errors about one of `sameFields`. -/
def checkField (id : String) (before it : ItemShot) (f : String × (ItemShot → JsVal)) :
    Except JsError (List String) := do
  let b ← (f.2 before).toText
  let a ← (f.2 it).toText
  if b ≠ a then
    return ["明细字段被意外改动 id=" ++ id ++ " field=" ++ f.1 ++ " before=" ++
      (← printed (f.2 before)) ++ " after=" ++ (← printed (f.2 it))]
  else return []

def attrErrors (id : String) (before it : ItemShot) : Except JsError (List String) := do
  let skuId ← it.skuId.toNumber
  if skuId.strictEq (.fin 1) then
    if it.skuAttrs ≠ .null then
      return ["福利明细 sku_attrs 未清空 id=" ++ id ++ " sku_attrs=" ++ (← printed it.skuAttrs)]
    else return []
  else
    let b ← (before.skuAttrs.orNullish (.str "")).toText
    let a ← (it.skuAttrs.orNullish (.str "")).toText
    return if b ≠ a then ["非福利明细 sku_attrs 被意外改动 id=" ++ id] else []

/-- The errors about an item of the second snapshot. -/
def checkItem (beforeItems : Dict ItemShot) (it : ItemShot) : Except JsError (List String) := do
  let id ← it.id.toText
  match beforeItems.get? id with
  | none => return ["before 快照缺失明细：id=" ++ id]
  | some before =>
    let fieldErrors ← sameFields.mapM (checkField id before it)
    let errors ← attrErrors id before it
    return fieldErrors.flatten ++ errors

/-- `errors`; an exception ends the script as an error does. -/
def verify (before after : Snapshot) : Except JsError (List String) := do
  let beforeOrders ← rowsToMap OrderShot.orderNo before.orders
  let beforeItems ← rowsToMap ItemShot.id before.items
  let orderErrors ← after.orders.mapM (checkOrder beforeOrders)
  let itemErrors ← after.items.mapM (checkItem beforeItems)
  return orderErrors.flatten ++ itemErrors.flatten

/-- The number of the welfare SKU. -/
def ItemShot.IsWelfare (it : ItemShot) : Prop := it.skuId.toNumber = .ok (.fin 1)

/-- At most the buyer note differs, and it is the note of the code. -/
def OrderKept (b o : OrderShot) : Prop := o = { b with buyerNote := o.welfareNote }

/-- Of a welfare item the attributes are gone, and nothing else. -/
def ItemKept (b it : ItemShot) : Prop :=
  (it.IsWelfare → it = { b with skuAttrs := .null }) ∧ (¬ it.IsWelfare → it = b)

structure Kept (before after : Snapshot) : Prop where
  orderNumbers : (after.orders.map OrderShot.orderNo).Perm (before.orders.map OrderShot.orderNo)
  itemIds : (after.items.map ItemShot.id).Perm (before.items.map ItemShot.id)
  orders : ∀ b ∈ before.orders, ∀ o ∈ after.orders, o.orderNo = b.orderNo → OrderKept b o
  items : ∀ b ∈ before.items, ∀ it ∈ after.items, it.id = b.id → ItemKept b it

/-- The values have one text. -/
def SameText (v w : JsVal) : Prop := ∃ t, v.toText = .ok t ∧ w.toText = .ok t

/-- Both notes are absent, or they have one text. -/
def SameNote (v w : JsVal) : Prop :=
  (v.isNullish = true ∧ w.isNullish = true) ∨
    (v.isNullish = false ∧ w.isNullish = false ∧ SameText v w)

structure OrderAgrees (b o : OrderShot) : Prop where
  note : SameNote o.buyerNote o.welfareNote
  code : SameText (b.inviteCode.or (.str "")) (o.inviteCode.or (.str ""))

structure ItemAgrees (b it : ItemShot) : Prop where
  fields : ∀ f ∈ sameFields, SameText (f.2 b) (f.2 it)
  number : ∃ n, it.skuId.toNumber = .ok n
  cleared : it.IsWelfare → it.skuAttrs = .null
  attrs : ¬ it.IsWelfare →
    SameText (b.skuAttrs.orNullish (.str "")) (it.skuAttrs.orNullish (.str ""))

/-- The last row with the text as its key. -/
def lastWith {α : Type} (key : α → JsVal) (t : String) : List α → Option α
  | [] => none
  | r :: rows => (lastWith key t rows).or (if (key r).toText.toOption = some t then some r else none)

/-- Every row of the second snapshot has a row of the first, with which it agrees. -/
structure Agreed (before after : Snapshot) : Prop where
  orderKeys : ∀ b ∈ before.orders, ∃ t, b.orderNo.toText = .ok t
  itemKeys : ∀ b ∈ before.items, ∃ t, b.id.toText = .ok t
  orders : ∀ o ∈ after.orders, ∃ t b, o.orderNo.toText = .ok t ∧
    lastWith OrderShot.orderNo t before.orders = some b ∧ OrderAgrees b o
  items : ∀ it ∈ after.items, ∃ t b, it.id.toText = .ok t ∧
    lastWith ItemShot.id t before.items = some b ∧ ItemAgrees b it

section
variable {α : Type} {key : α → JsVal}

theorem foldlM_set {rows : List α} {d₀ d : Dict α} (h : rows.foldlM (fun m r => do
      let k ← (key r).toText
      return m.set k r) d₀ = .ok d) :
    (∀ r ∈ rows, ∃ t, (key r).toText = .ok t) ∧
      ∀ t, d.get? t = (lastWith key t rows).or (d₀.get? t) := by
  induction rows generalizing d₀ with
  | nil =>
    cases h
    exact ⟨fun r hr => (List.not_mem_nil hr).elim, fun t => rfl⟩
  | cons r rows ih =>
    rw [List.foldlM_cons] at h
    obtain ⟨d₁, hd₁, h⟩ := bind_ok h
    obtain ⟨k, hk, hd₁⟩ := bind_ok hd₁
    cases hd₁
    obtain ⟨hkeys, hget⟩ := ih h
    constructor
    · intro r' hr'
      rcases List.mem_cons.mp hr' with rfl | hr'
      · exact ⟨k, hk⟩
      · exact hkeys r' hr'
    · intro t
      rw [hget, lastWith, hk, Dict.get?_set, Option.or_assoc]
      congr 1
      change _ = (if some k = some t then some r else none).or _
      by_cases ht : t = k
      · rw [if_pos ht, if_pos (congrArg some ht.symm)]
        rfl
      · rw [if_neg ht, if_neg (fun h => ht (Option.some.inj h).symm)]
        rfl

theorem rowsToMap_get? {rows : List α} {d : Dict α} (h : rowsToMap key rows = .ok d) (t : String) :
    d.get? t = lastWith key t rows := by
  rw [(foldlM_set h).2, Dict.get?_empty, Option.or_none]

theorem exists_rowsToMap_iff {rows : List α} :
    (∃ d, rowsToMap key rows = .ok d) ↔ ∀ r ∈ rows, ∃ t, (key r).toText = .ok t := by
  constructor
  · rintro ⟨d, hd⟩
    exact (foldlM_set hd).1
  · unfold rowsToMap
    generalize (Dict.empty : Dict α) = d₀
    induction rows generalizing d₀ with
    | nil => exact fun _ => ⟨d₀, rfl⟩
    | cons r rows ih =>
      intro h
      obtain ⟨k, hk⟩ := h r List.mem_cons_self
      obtain ⟨d, hd⟩ := ih (d₀.set k r) fun r' hr' => h r' (List.mem_cons_of_mem _ hr')
      refine ⟨d, ?_⟩
      rw [List.foldlM_cons, hk]
      exact hd

theorem of_lastWith {rows : List α} {t : String} {b : α} (h : lastWith key t rows = some b) :
    b ∈ rows ∧ (key b).toText = .ok t := by
  induction rows with
  | nil => cases h
  | cons r rows ih =>
    rw [lastWith, Option.or_eq_some_iff] at h
    rcases h with h | ⟨-, h⟩
    · exact ⟨List.mem_cons_of_mem _ (ih h).1, (ih h).2⟩
    · split at h
      · rename_i hkey
        cases h
        refine ⟨List.mem_cons_self, ?_⟩
        cases htext : (key b).toText with
        | ok t' =>
          rw [htext] at hkey
          exact congrArg Except.ok (Option.some.inj hkey)
        | error e =>
          rw [htext] at hkey
          cases hkey
      · cases h

end

/-- A loop has no errors when no round has one. -/
theorem mapM_flatten_iff {α : Type} {f : α → Except JsError (List String)} {l : List α} :
    (∃ es, l.mapM f = .ok es ∧ es.flatten = []) ↔ ∀ a ∈ l, f a = .ok [] := by
  constructor
  · rintro ⟨es, hes, hnil⟩
    induction l generalizing es with
    | nil => exact fun a ha => (List.not_mem_nil ha).elim
    | cons a l ih =>
      rw [List.mapM_cons] at hes
      obtain ⟨e, he, hes⟩ := bind_ok hes
      obtain ⟨es', hes', hes⟩ := bind_ok hes
      cases hes
      rw [List.flatten_cons, List.append_eq_nil_iff] at hnil
      intro a' ha'
      rcases List.mem_cons.mp ha' with rfl | ha'
      · rw [he, hnil.1]
      · exact ih es' hes' hnil.2 a' ha'
  · intro h
    refine ⟨l.map fun _ => [], mapM_eq_map h, ?_⟩
    rw [List.flatten_eq_nil_iff]
    intro e he
    obtain ⟨a, -, rfl⟩ := List.mem_map.mp he
    rfl

theorem textOrNull_ok_iff {v x : JsVal} : textOrNull v = .ok x ↔
    (v.isNullish = true ∧ x = .null) ∨
      (v.isNullish = false ∧ ∃ t, v.toText = .ok t ∧ x = .str t) := by
  unfold textOrNull
  cases hv : v.isNullish with
  | true => simp [eq_comm]
  | false =>
    cases ht : v.toText with
    | ok t => simp [Except.map, eq_comm]
    | error e => simp [Except.map]

theorem sameNote_iff {v w : JsVal} :
    SameNote v w ↔ ∃ x, textOrNull v = .ok x ∧ textOrNull w = .ok x := by
  constructor
  · rintro (⟨hv, hw⟩ | ⟨hv, hw, t, htv, htw⟩)
    · exact ⟨.null, textOrNull_ok_iff.mpr (Or.inl ⟨hv, rfl⟩), textOrNull_ok_iff.mpr (Or.inl ⟨hw, rfl⟩)⟩
    · exact ⟨.str t, textOrNull_ok_iff.mpr (Or.inr ⟨hv, t, htv, rfl⟩),
        textOrNull_ok_iff.mpr (Or.inr ⟨hw, t, htw, rfl⟩)⟩
  · rintro ⟨x, hx, hx'⟩
    rcases textOrNull_ok_iff.mp hx with ⟨hv, rfl⟩ | ⟨hv, t, htv, rfl⟩
    · rcases textOrNull_ok_iff.mp hx' with ⟨hw, -⟩ | ⟨-, t, -, ht⟩
      · exact Or.inl ⟨hv, hw⟩
      · cases ht
    · rcases textOrNull_ok_iff.mp hx' with ⟨-, ht⟩ | ⟨hw, t', htw, ht⟩
      · cases ht
      · cases ht
        exact Or.inr ⟨hv, hw, t, htv, htw⟩

theorem checkOrder_eq_nil_iff {beforeOrders : Dict OrderShot} {o : OrderShot} :
    checkOrder beforeOrders o = .ok [] ↔ ∃ t b, o.orderNo.toText = .ok t ∧
      beforeOrders.get? t = some b ∧ OrderAgrees b o := by
  unfold checkOrder
  constructor
  · intro h
    obtain ⟨t, ht, h⟩ := bind_ok h
    cases hb : beforeOrders.get? t with
    | none =>
      rw [hb] at h
      cases h
    | some b =>
      rw [hb] at h
      obtain ⟨expected, hexpected, h⟩ := bind_ok h
      obtain ⟨actual, hactual, h⟩ := bind_ok h
      obtain ⟨errors, hnote, h⟩ := bind_ok h
      obtain ⟨beforeCode, hbefore, h⟩ := bind_ok h
      obtain ⟨code, hcode, h⟩ := bind_ok h
      obtain ⟨rfl, hcodes⟩ := List.append_eq_nil_iff.mp (Except.ok.inj h)
      have hsame : actual = expected := by
        by_contra hne
        unfold noteErrors at hnote
        rw [if_pos hne] at hnote
        obtain ⟨e, -, hnote⟩ := bind_ok hnote
        obtain ⟨a, -, hnote⟩ := bind_ok hnote
        cases hnote
      have hcodes' : beforeCode = code := by
        by_contra hne
        rw [if_pos hne] at hcodes
        cases hcodes
      exact ⟨t, b, ht, hb, sameNote_iff.mpr ⟨expected, hsame ▸ hactual, hexpected⟩,
        beforeCode, hbefore, hcodes' ▸ hcode⟩
  · rintro ⟨t, b, ht, hb, hnote, code, hbefore, hcode⟩
    obtain ⟨x, hactual, hexpected⟩ := sameNote_iff.mp hnote
    rw [ht]
    change (match beforeOrders.get? t with
      | none => _
      | some before => _) = _
    rw [hb]
    dsimp only
    rw [hexpected, hactual, hbefore, hcode]
    simp [noteErrors, bind, Except.bind, pure, Except.pure]

theorem checkField_eq_nil_iff {id : String} {b it : ItemShot} {f : String × (ItemShot → JsVal)} :
    checkField id b it f = .ok [] ↔ SameText (f.2 b) (f.2 it) := by
  unfold checkField
  constructor
  · intro h
    obtain ⟨t, ht, h⟩ := bind_ok h
    obtain ⟨t', ht', h⟩ := bind_ok h
    have hsame : t = t' := by
      by_contra hne
      rw [if_pos hne] at h
      obtain ⟨e, -, h⟩ := bind_ok h
      obtain ⟨a, -, h⟩ := bind_ok h
      cases h
    exact ⟨t, ht, hsame ▸ ht'⟩
  · rintro ⟨t, hb, hit⟩
    rw [hb, hit]
    simp [bind, Except.bind, pure, Except.pure]

theorem isWelfare_iff {it : ItemShot} {n : JsNum} (h : it.skuId.toNumber = .ok n) :
    it.IsWelfare ↔ n.strictEq (.fin 1) = true := by
  unfold ItemShot.IsWelfare
  rw [h, Except.ok.injEq]
  constructor
  · rintro rfl
    decide
  · exact JsNum.eq_of_strictEq

theorem attrErrors_eq_nil_iff {id : String} {b it : ItemShot} :
    attrErrors id b it = .ok [] ↔ (∃ n, it.skuId.toNumber = .ok n) ∧
      (it.IsWelfare → it.skuAttrs = .null) ∧ (¬ it.IsWelfare →
        SameText (b.skuAttrs.orNullish (.str "")) (it.skuAttrs.orNullish (.str ""))) := by
  unfold attrErrors
  constructor
  · intro h
    obtain ⟨n, hn, h⟩ := bind_ok h
    refine ⟨⟨n, hn⟩, fun hwelfare => ?_, fun hwelfare => ?_⟩
    · rw [if_pos ((isWelfare_iff hn).mp hwelfare)] at h
      by_contra hne
      rw [if_pos hne] at h
      obtain ⟨e, -, h⟩ := bind_ok h
      cases h
    · rw [if_neg (fun h => hwelfare ((isWelfare_iff hn).mpr h))] at h
      obtain ⟨before, hbefore, h⟩ := bind_ok h
      obtain ⟨after, hafter, h⟩ := bind_ok h
      have hsame : before = after := by
        by_contra hne
        rw [if_pos hne] at h
        cases h
      exact ⟨before, hbefore, hsame ▸ hafter⟩
  · rintro ⟨⟨n, hn⟩, hcleared, hattrs⟩
    rw [hn]
    by_cases hwelfare : it.IsWelfare
    · simp [bind, Except.bind, pure, Except.pure, (isWelfare_iff hn).mp hwelfare, hcleared hwelfare]
    · obtain ⟨text, hbefore, hafter⟩ := hattrs hwelfare
      have hne : n.strictEq (.fin 1) = false :=
        Bool.eq_false_iff.mpr fun h => hwelfare ((isWelfare_iff hn).mpr h)
      simp [bind, Except.bind, pure, Except.pure, hne, hbefore, hafter]

theorem checkItem_eq_nil_iff {beforeItems : Dict ItemShot} {it : ItemShot} :
    checkItem beforeItems it = .ok [] ↔ ∃ t b, it.id.toText = .ok t ∧
      beforeItems.get? t = some b ∧ ItemAgrees b it := by
  unfold checkItem
  constructor
  · intro h
    obtain ⟨t, ht, h⟩ := bind_ok h
    cases hb : beforeItems.get? t with
    | none =>
      rw [hb] at h
      cases h
    | some b =>
      rw [hb] at h
      obtain ⟨fieldErrors, hfields, h⟩ := bind_ok h
      obtain ⟨errors, hattrs, h⟩ := bind_ok h
      obtain ⟨hnil, rfl⟩ := List.append_eq_nil_iff.mp (Except.ok.inj h)
      obtain ⟨hn, hcleared, hattrs⟩ := attrErrors_eq_nil_iff.mp hattrs
      refine ⟨t, b, ht, hb, fun f hf => ?_, hn, hcleared, hattrs⟩
      exact checkField_eq_nil_iff.mp (mapM_flatten_iff.mp ⟨fieldErrors, hfields, hnil⟩ f hf)
  · rintro ⟨t, b, ht, hb, hfields, hn, hcleared, hattrs⟩
    obtain ⟨es, hes, hnil⟩ := mapM_flatten_iff.mpr fun f hf =>
      (checkField_eq_nil_iff (b := b)).mpr (hfields f hf)
    rw [ht]
    change (match beforeItems.get? t with
      | none => _
      | some before => _) = _
    rw [hb]
    dsimp only
    rw [hes, attrErrors_eq_nil_iff.mpr ⟨hn, hcleared, hattrs⟩]
    change Except.ok (es.flatten ++ []) = _
    rw [hnil]
    rfl

/-- The check records no error exactly when the snapshots agree. -/
theorem verify_eq_nil_iff {before after : Snapshot} :
    verify before after = .ok [] ↔ Agreed before after := by
  unfold verify
  constructor
  · intro h
    obtain ⟨orders, horders, h⟩ := bind_ok h
    obtain ⟨items, hitems, h⟩ := bind_ok h
    obtain ⟨orderErrors, horderErrors, h⟩ := bind_ok h
    obtain ⟨itemErrors, hitemErrors, h⟩ := bind_ok h
    obtain ⟨hnil, hnil'⟩ := List.append_eq_nil_iff.mp (Except.ok.inj h)
    refine ⟨exists_rowsToMap_iff.mp ⟨orders, horders⟩, exists_rowsToMap_iff.mp ⟨items, hitems⟩, ?_, ?_⟩
    · intro o ho
      obtain ⟨t, b, ht, hb, hagrees⟩ :=
        checkOrder_eq_nil_iff.mp (mapM_flatten_iff.mp ⟨orderErrors, horderErrors, hnil⟩ o ho)
      exact ⟨t, b, ht, (rowsToMap_get? horders t).symm.trans hb, hagrees⟩
    · intro it hit
      obtain ⟨t, b, ht, hb, hagrees⟩ :=
        checkItem_eq_nil_iff.mp (mapM_flatten_iff.mp ⟨itemErrors, hitemErrors, hnil'⟩ it hit)
      exact ⟨t, b, ht, (rowsToMap_get? hitems t).symm.trans hb, hagrees⟩
  · intro h
    obtain ⟨orders, horders⟩ := exists_rowsToMap_iff.mpr h.orderKeys
    obtain ⟨items, hitems⟩ := exists_rowsToMap_iff.mpr h.itemKeys
    obtain ⟨orderErrors, horderErrors, hnil⟩ := mapM_flatten_iff.mpr fun o ho => by
      obtain ⟨t, b, ht, hb, hagrees⟩ := h.orders o ho
      exact checkOrder_eq_nil_iff.mpr ⟨t, b, ht, (rowsToMap_get? horders t).trans hb, hagrees⟩
    obtain ⟨itemErrors, hitemErrors, hnil'⟩ := mapM_flatten_iff.mpr fun it hit => by
      obtain ⟨t, b, ht, hb, hagrees⟩ := h.items it hit
      exact checkItem_eq_nil_iff.mpr ⟨t, b, ht, (rowsToMap_get? hitems t).trans hb, hagrees⟩
    rw [horders, hitems]
    change (after.orders.mapM (checkOrder orders) >>= _) = _
    rw [horderErrors]
    change (after.items.mapM (checkItem items) >>= _) = _
    rw [hitemErrors]
    change Except.ok (orderErrors.flatten ++ itemErrors.flatten) = _
    rw [hnil, hnil']
    rfl

/-- The columns that are not compared are the same, and the compared ones where their texts are. -/
structure OrderNoticed (b o : OrderShot) : Prop where
  welfareNote : o.welfareNote = b.welfareNote
  welfareConsumedOrderNo : o.welfareConsumedOrderNo = b.welfareConsumedOrderNo
  welfareStatus : o.welfareStatus = b.welfareStatus
  welfareProductId : o.welfareProductId = b.welfareProductId
  note : SameNote o.buyerNote o.welfareNote → o.buyerNote = o.welfareNote
  code : SameText (b.inviteCode.or (.str "")) (o.inviteCode.or (.str "")) →
    o.inviteCode = b.inviteCode

structure ItemNoticed (b it : ItemShot) : Prop where
  fields : ∀ f ∈ sameFields, SameText (f.2 b) (f.2 it) → f.2 it = f.2 b
  attrs : ¬ it.IsWelfare →
    SameText (b.skuAttrs.orNullish (.str "")) (it.skuAttrs.orNullish (.str "")) →
      it.skuAttrs = b.skuAttrs

/-- No row is lost or doubled, rows of the first snapshot that have one key text agree with the same
rows, and what is not compared has not changed. -/
structure Noticed (before after : Snapshot) : Prop where
  orderNumbers : (after.orders.map OrderShot.orderNo).Perm (before.orders.map OrderShot.orderNo)
  itemIds : (after.items.map ItemShot.id).Perm (before.items.map ItemShot.id)
  oneOrder : ∀ b ∈ before.orders, ∀ b' ∈ before.orders, ∀ o ∈ after.orders,
    SameText b.orderNo b'.orderNo → o.orderNo = b.orderNo → OrderAgrees b' o → OrderAgrees b o
  oneItem : ∀ b ∈ before.items, ∀ b' ∈ before.items, ∀ it ∈ after.items,
    SameText b.id b'.id → it.id = b.id → ItemAgrees b' it → ItemAgrees b it
  orders : ∀ b ∈ before.orders, ∀ o ∈ after.orders, o.orderNo = b.orderNo → OrderNoticed b o
  items : ∀ b ∈ before.items, ∀ it ∈ after.items, it.id = b.id → ItemNoticed b it

/-- What agrees is kept if the rest has not changed. -/
theorem OrderAgrees.kept_iff {b o : OrderShot} (h : OrderAgrees b o) (hno : o.orderNo = b.orderNo) :
    OrderKept b o ↔ OrderNoticed b o := by
  unfold OrderKept
  rw [OrderShot.ext_iff]
  constructor
  · rintro ⟨-, hcode, hnote, hwelfare, hconsumed, hstatus, hproduct⟩
    exact ⟨hwelfare, hconsumed, hstatus, hproduct, fun _ => hnote, fun _ => hcode⟩
  · intro hnoticed
    exact ⟨hno, hnoticed.code h.code, hnoticed.note h.note, hnoticed.welfareNote,
      hnoticed.welfareConsumedOrderNo, hnoticed.welfareStatus, hnoticed.welfareProductId⟩

theorem ItemAgrees.kept_iff {b it : ItemShot} (h : ItemAgrees b it) (hid : it.id = b.id) :
    ItemKept b it ↔ ItemNoticed b it := by
  constructor
  · rintro ⟨hwelfare, hother⟩
    refine ⟨fun f hf _ => ?_, fun hne _ => by rw [hother hne]⟩
    by_cases hw : it.IsWelfare
    · rw [hwelfare hw]
      simp only [sameFields, List.mem_cons, List.not_mem_nil, or_false] at hf
      rcases hf with rfl | rfl | rfl | rfl | rfl | rfl <;> rfl
    · rw [hother hw]
  · intro hnoticed
    have hfields : ∀ f ∈ sameFields, f.2 it = f.2 b := fun f hf =>
      hnoticed.fields f hf (h.fields f hf)
    simp only [sameFields, List.forall_mem_cons, List.not_mem_nil, false_implies, implies_true,
      and_true] at hfields
    obtain ⟨h₁, h₂, h₃, h₄, h₅, h₆⟩ := hfields
    constructor
    · intro hw
      have hnull := h.cleared hw
      cases it
      simp_all
    · intro hw
      have hattrs := hnoticed.attrs hw (h.attrs hw)
      cases it
      simp_all

/-- A row that is kept agrees, if its texts can be read. -/
theorem OrderAgrees.of_kept {b b' o : OrderShot} (hb' : OrderAgrees b' o) (h : OrderKept b o) :
    OrderAgrees b o := by
  refine ⟨hb'.note, ?_⟩
  obtain ⟨t, -, ht⟩ := hb'.code
  have hcode : o.inviteCode = b.inviteCode := by
    unfold OrderKept at h
    rw [h]
  exact ⟨t, by rw [← hcode, ht], ht⟩

theorem ItemAgrees.of_kept {b b' it : ItemShot} (hb' : ItemAgrees b' it) (h : ItemKept b it) :
    ItemAgrees b it := by
  refine ⟨fun f hf => ?_, hb'.number, hb'.cleared, fun hw => ?_⟩
  · obtain ⟨t, -, ht⟩ := hb'.fields f hf
    have hsame : f.2 it = f.2 b := by
      by_cases hw : it.IsWelfare
      · rw [h.1 hw]
        simp only [sameFields, List.mem_cons, List.not_mem_nil, or_false] at hf
        rcases hf with rfl | rfl | rfl | rfl | rfl | rfl <;> rfl
      · rw [h.2 hw]
    exact ⟨t, by rw [← hsame, ht], ht⟩
  · obtain ⟨t, -, ht⟩ := hb'.attrs hw
    exact ⟨t, by rw [← h.2 hw, ht], ht⟩

theorem Agreed.order {before after : Snapshot} (h : Agreed before after) {b o : OrderShot}
    (ho : o ∈ after.orders) (hno : o.orderNo = b.orderNo) :
    ∃ b' ∈ before.orders, SameText b.orderNo b'.orderNo ∧ OrderAgrees b' o := by
  obtain ⟨t, b', ht, hlast, hagrees⟩ := h.orders o ho
  obtain ⟨hb', ht'⟩ := of_lastWith hlast
  exact ⟨b', hb', ⟨t, hno ▸ ht, ht'⟩, hagrees⟩

theorem Agreed.item {before after : Snapshot} (h : Agreed before after) {b it : ItemShot}
    (hit : it ∈ after.items) (hid : it.id = b.id) :
    ∃ b' ∈ before.items, SameText b.id b'.id ∧ ItemAgrees b' it := by
  obtain ⟨t, b', ht, hlast, hagrees⟩ := h.items it hit
  obtain ⟨hb', ht'⟩ := of_lastWith hlast
  exact ⟨b', hb', ⟨t, hid ▸ ht, ht'⟩, hagrees⟩

theorem Agreed.kept_iff {before after : Snapshot} (h : Agreed before after) :
    Kept before after ↔ Noticed before after := by
  constructor
  · intro hkept
    have horder : ∀ b ∈ before.orders, ∀ o ∈ after.orders, o.orderNo = b.orderNo →
        OrderAgrees b o := by
      intro b hb o ho hno
      obtain ⟨b', -, -, hb'⟩ := h.order ho hno
      exact hb'.of_kept (hkept.orders b hb o ho hno)
    have hitem : ∀ b ∈ before.items, ∀ it ∈ after.items, it.id = b.id → ItemAgrees b it := by
      intro b hb it hit hid
      obtain ⟨b', -, -, hb'⟩ := h.item hit hid
      exact hb'.of_kept (hkept.items b hb it hit hid)
    exact
      { orderNumbers := hkept.orderNumbers
        itemIds := hkept.itemIds
        oneOrder := fun b hb _ _ o ho _ hno _ => horder b hb o ho hno
        oneItem := fun b hb _ _ it hit _ hid _ => hitem b hb it hit hid
        orders := fun b hb o ho hno =>
          ((horder b hb o ho hno).kept_iff hno).mp (hkept.orders b hb o ho hno)
        items := fun b hb it hit hid =>
          ((hitem b hb it hit hid).kept_iff hid).mp (hkept.items b hb it hit hid) }
  · intro hnoticed
    refine ⟨hnoticed.orderNumbers, hnoticed.itemIds, ?_, ?_⟩
    · intro b hb o ho hno
      obtain ⟨b', hb', hsame, hagrees'⟩ := h.order ho hno
      have hagrees := hnoticed.oneOrder b hb b' hb' o ho hsame hno hagrees'
      exact (hagrees.kept_iff hno).mpr (hnoticed.orders b hb o ho hno)
    · intro b hb it hit hid
      obtain ⟨b', hb', hsame, hagrees'⟩ := h.item hit hid
      have hagrees := hnoticed.oneItem b hb b' hb' it hit hsame hid hagrees'
      exact (hagrees.kept_iff hid).mpr (hnoticed.items b hb it hit hid)

/-- **The check.** A check without errors vouches for the snapshots, except where they agree in all
that is compared while something that is not has changed. -/
theorem verify_sound_iff (before after : Snapshot) :
    (verify before after = .ok [] → Kept before after) ↔
      (Agreed before after → Noticed before after) := by
  rw [verify_eq_nil_iff]
  exact forall_congr' fun h => h.kept_iff

/-- An order with its note. -/
def consumed (orderNo code note : String) : OrderShot :=
  ⟨.str orderNo, .str code, .str note, .str note, .str orderNo, .num (.fin 2), .num (.fin 1)⟩

/-- One of two orders is gone, and no error is recorded. -/
theorem lostOrder_unnoticed :
    verify ⟨[consumed "A1" "111111" "x", consumed "A2" "222222" "y"], []⟩
        ⟨[consumed "A1" "111111" "x"], []⟩ = .ok [] ∧
      ¬ Kept ⟨[consumed "A1" "111111" "x", consumed "A2" "222222" "y"], []⟩
        ⟨[consumed "A1" "111111" "x"], []⟩ := by
  refine ⟨by rfl, fun h => ?_⟩
  exact absurd h.orderNumbers.length_eq (by decide)

end JtfpMall.Scripts
