import JtfpMall.Js.NumberText
import JtfpMall.Js.Whole
import JtfpMall.Lib.Keyed
import JtfpMall.Lib.Ledger

/-!
# The cart of the mini-program

`utils/cart.js`: the lines are read from the storage of the device, changed and written back on
each call. A line is found by its key, the text of its product and its SKU. What is stored shows a
map from these pairs that remembers when each came in.
-/

namespace JtfpMall.Miniapp.Cart

open JtfpMall.Js
open JtfpMall.Lib

structure Line where
  key : String
  productId : JsNum
  /-- `skuId || null`. -/
  skuId : Option JsNum
  qty : JsNum
  title : JsVal
  skuTitle : JsVal
  cover_url : JsVal
  price_cent : JsNum
  is_welfare : JsNum

structure Payload where
  productId : JsNum
  skuId : Option JsNum
  qty : JsNum
  title : JsVal
  skuTitle : JsVal
  cover_url : JsVal
  price_cent : JsVal
  is_welfare : JsVal

/-- What the storage holds under the key of the cart. -/
abbrev Storage := Option (List Line)

def getCart (storage : Storage) : List Line := storage.getD []

/-- `Number(n || otherwise)` of a number. -/
def numberOr (n otherwise : JsNum) : JsNum := if n.truthy then n else otherwise

def makeKey (productId skuId : JsNum) : String :=
  productId.toText ++ ":" ++ (numberOr skuId (.fin 0)).toText

def hasKey (key : String) (x : Line) : Bool := decide (x.key = key)

/-- The line a payload makes. -/
def itemOf (payload : Payload) (price : JsNum) : Line :=
  let skuId := match payload.skuId with
    | some skuId => numberOr skuId (.fin 0)
    | none => .fin 0
  { key := makeKey payload.productId skuId
    productId := payload.productId
    skuId := if skuId.truthy then some skuId else none
    qty := JsNum.max (.fin 1) (numberOr payload.qty (.fin 1))
    title := payload.title.or (.str "")
    skuTitle := payload.skuTitle.or (.str "")
    cover_url := payload.cover_url.or (.str "")
    price_cent := price
    is_welfare := .fin 0 }

def addToCart (payload : Payload) (storage : Storage) : Except JsError Storage := do
  let welfare ← (payload.is_welfare.or (.num (.fin 0))).toNumber
  if welfare.strictEq (.fin 1) then return storage
  else do
    let cart := getCart storage
    let item := itemOf payload (← (payload.price_cent.or (.num (.fin 0))).toNumber)
    match cart.find? (hasKey item.key) with
    | some existing =>
      let mergedQty := JsNum.max (.fin 1) ((numberOr existing.qty (.fin 0)).add item.qty)
      -- the item has every field of the line it is spread over
      return some (modifyFirst (hasKey item.key) (fun _ => { item with qty := mergedQty }) cart)
    | none => return some (cart ++ [item])

def updateQty (key : String) (qty : JsNum) (storage : Storage) : Storage :=
  let cart := getCart storage
  match cart.find? (hasKey key) with
  | none => storage
  | some line =>
    let nextQty := JsNum.max (.fin 1) (numberOr qty (.fin 1))
    let isWelfare := (numberOr line.is_welfare (.fin 0)).strictEq (.fin 1)
    some (modifyFirst (hasKey key) (fun x => { x with qty := if isWelfare then .fin 1 else nextQty })
      cart)

def removeItem (key : String) (storage : Storage) : Storage :=
  some ((getCart storage).filter fun x => !hasKey key x)

def clearCart : Storage := some []

/-- A whole number of the language, zero or more. -/
abbrev Count := { n : ℕ // (JsNum.ofNat n).IsDouble }

def Count.number (n : Count) : JsNum := .ofNat n.val

/-- A product and its SKU, 0 for none. -/
abbrev Ids := Count × Count

def Ids.key (k : Ids) : String := makeKey k.1.number k.2.number

theorem numberOr_zero (n : JsNum) (h : n ≠ .nan) : numberOr n (.fin 0) = n := by
  unfold numberOr
  split
  · rfl
  · rename_i hn
    cases n with
    | nan => exact absurd rfl h
    | inf neg => exact absurd rfl hn
    | fin q =>
      have hq : q = 0 := by simpa [JsNum.truthy] using hn
      rw [hq]

/-- Two pairs have different keys: the text of a number is read back up to the colon. -/
theorem key_injective : Function.Injective Ids.key := by
  intro k l h
  have htext : ∀ k : Ids, k.key.toList = k.1.number.toText.toList ++
      ':' :: k.2.number.toText.toList := by
    intro k
    unfold Ids.key makeKey
    rw [numberOr_zero _ JsNum.noConfusion, String.toList_append, String.toList_append,
      List.append_assoc]
    rfl
  have hstop : ∀ r, Json.Stops (':' :: r) := fun r =>
    Json.stops_cons ⟨by decide, by decide, by decide, by decide⟩
  have hread := congrArg (fun s : String => Json.number s.toList) h
  simp only [htext] at hread
  have hsame : ∀ n : Count, ∀ r, Json.Stops r →
      Json.number (n.number.toText.toList ++ r) = some (n.number, r) :=
    fun n r hr => Json.number_toText n.property hr
  rw [hsame k.1 _ (hstop _), hsame l.1 _ (hstop _), Option.some.injEq, Prod.mk.injEq] at hread
  obtain ⟨hproduct, hrest⟩ := hread
  have hsku := congrArg (fun cs => Json.number (cs ++ [])) (List.cons.inj hrest).2
  simp only [hsame _ _ Json.stops_nil, Option.some.injEq, Prod.mk.injEq] at hsku
  exact Prod.ext (Subtype.ext (JsNum.ofNat_inj.mp hproduct))
    (Subtype.ext (JsNum.ofNat_inj.mp hsku.1))

/-- A call of `addToCart` with whole ids and a positive quantity. -/
structure Adding where
  productId : Count
  skuId : Option Count
  qty : Count
  qty_pos : 0 < qty.val
  title : JsVal
  skuTitle : JsVal
  cover_url : JsVal
  price_cent : JsVal
  is_welfare : JsVal

inductive Call where
  | addToCart (a : Adding)
  | updateQty (key : String) (qty : Count) (qty_pos : 0 < qty.val)
  | removeItem (key : String)
  | clearCart

/-- What a line shows of the call that wrote it. -/
structure Shown where
  title : JsVal
  skuTitle : JsVal
  cover_url : JsVal
  price_cent : JsNum

structure Entry where
  qty : JsNum
  shown : Shown

namespace Adding

def payload (a : Adding) : Payload :=
  ⟨a.productId.number, a.skuId.map Count.number, a.qty.number, a.title, a.skuTitle, a.cover_url,
    a.price_cent, a.is_welfare⟩

/-- No SKU is SKU 0. -/
def ids (a : Adding) : Ids := (a.productId, a.skuId.getD ⟨0, isDouble_ofNat (by norm_num)⟩)

/-- What the call writes, if it writes: not for a welfare product, and not when a conversion
throws. -/
def shown? (a : Adding) : Option Shown :=
  match (a.is_welfare.or (.num (.fin 0))).toNumber, (a.price_cent.or (.num (.fin 0))).toNumber with
  | .ok welfare, .ok price =>
    if welfare.strictEq (.fin 1) then none
    else some ⟨a.title.or (.str ""), a.skuTitle.or (.str ""), a.cover_url.or (.str ""), price⟩
  | _, _ => none

end Adding

/-- The line of an entry. -/
def line (e : Ids × Entry) : Line where
  key := e.1.key
  productId := e.1.1.number
  skuId := if e.1.2.number.truthy then some e.1.2.number else none
  qty := e.2.qty
  title := e.2.shown.title
  skuTitle := e.2.shown.skuTitle
  cover_url := e.2.shown.cover_url
  price_cent := e.2.shown.price_cent
  is_welfare := .fin 0

/-- A call that throws leaves the storage as it is. -/
def perform (storage : Storage) : Call → Storage
  | .addToCart a => match addToCart a.payload storage with
    | .ok storage => storage
    | .error _ => storage
  | .updateQty key qty _ => updateQty key qty.number storage
  | .removeItem key => removeItem key storage
  | .clearCart => clearCart

/-- What a call means for the map. -/
def record (m : Ledger Ids Entry) : Call → Ledger Ids Entry
  | .addToCart a => match a.shown? with
    | some shown => m.enter a.ids ⟨a.qty.number, shown⟩ fun e => ⟨e.qty.add a.qty.number, shown⟩
    | none => m.skip
  | .updateQty key qty _ => m.alter (fun k => decide (k.key = key)) fun e => ⟨qty.number, e.shown⟩
  | .removeItem key => m.drop fun k => decide (k.key = key)
  | .clearCart => m.drop fun _ => true

def stored (cs : List Call) : Storage := cs.foldl perform none

def recorded (cs : List Call) : Ledger Ids Entry := cs.foldl record .empty

/-- A positive whole number, or one too large for any. -/
def IsQuantity (n : JsNum) : Prop := n = .inf false ∨ ∃ z : ℕ, 0 < z ∧ n = .ofNat z

theorem IsQuantity.max_one {n : JsNum} (h : IsQuantity n) : JsNum.max (.fin 1) n = n := by
  rcases h with rfl | ⟨z, hz, rfl⟩
  · rfl
  · unfold JsNum.max JsNum.lt? JsNum.ofNat
    by_cases hone : z = 1
    · subst hone
      simp
    · have hlt : (1 : ℚ) < z := by
        have h : 1 < z := by omega
        exact_mod_cast h
      simp [hlt]

theorem IsQuantity.numberOr {n : JsNum} (h : IsQuantity n) (otherwise : JsNum) :
    numberOr n otherwise = n := by
  rcases h with rfl | ⟨z, hz, rfl⟩
  · rfl
  · refine if_pos (decide_eq_true ?_)
    exact_mod_cast hz.ne'

theorem isQuantity_number {n : Count} (h : 0 < n.val) : IsQuantity n.number :=
  Or.inr ⟨n.val, h, rfl⟩

theorem IsQuantity.add {m n : JsNum} (hm : IsQuantity m) (hn : IsQuantity n) :
    IsQuantity (m.add n) := by
  rcases hm with rfl | ⟨y, hy, rfl⟩
  · rcases hn with rfl | ⟨z, hz, rfl⟩ <;> exact Or.inl rfl
  · rcases hn with rfl | ⟨z, hz, rfl⟩
    · exact Or.inl rfl
    · have hround := rounds_add y z
      change IsQuantity ((JsNum.fin (y : ℤ)).add (.fin (z : ℤ)))
      generalize (JsNum.fin ((y : ℤ) : ℚ)).add (.fin ((z : ℤ) : ℚ)) = sum at hround
      cases hround with
      | exact _ => exact Or.inr ⟨y + z, by omega, by push_cast [JsNum.ofNat]; rfl⟩
      | @above w h hw =>
        lift w to ℕ using (by omega)
        exact Or.inr ⟨w, by omega, rfl⟩
      | below h _ => omega
      | infAbove _ => exact Or.inl rfl
      | infBelow h => omega

/-- Within 2^53 the sum is the exact one. -/
theorem foldl_add {qs : List Count} {base : ℕ}
    (h : base + (qs.map fun q => q.val).sum ≤ 2 ^ 53) :
    qs.foldl (fun sum q => sum.add q.number) (JsNum.ofNat base) =
      .ofNat (base + (qs.map fun q => q.val).sum) := by
  induction qs generalizing base with
  | nil => rfl
  | cons q qs ih =>
    rw [List.map_cons, List.sum_cons] at h ⊢
    have hone : (JsNum.ofNat base).add q.number = .ofNat (base + q.val) := by
      have hsum := add_int (m := base) (n := q.val) (by omega)
      push_cast at hsum
      change (JsNum.fin (base : ℚ)).add (.fin (q.val : ℚ)) = .fin ((base + q.val : ℕ) : ℚ)
      rw [hsum]
      push_cast
      rfl
    rw [List.foldl_cons, hone, ih (by omega), Nat.add_assoc]

/-- What is stored shows the map. -/
def Shows (m : Ledger Ids Entry) (storage : Storage) : Prop :=
  ∃ xs, m.Lists xs ∧ getCart storage = xs.map line ∧ ∀ e ∈ xs, IsQuantity e.2.qty

theorem unique_key {m : Ledger Ids Entry} {xs : List (Ids × Entry)} (h : m.Lists xs) (key : String) :
    Unique (hasKey key) (xs.map line) := by
  have hkeys : ((xs.map line).map Line.key).Nodup := by
    rw [List.map_map]
    change (xs.map (Ids.key ∘ Prod.fst)).Nodup
    rw [← List.map_map]
    exact h.nodup.map key_injective
  refine Unique.of_nodup hkeys fun a _ b _ ha hb => ?_
  exact (of_decide_eq_true ha).trans (of_decide_eq_true hb).symm

theorem find?_line (xs : List (Ids × Entry)) (key : String) :
    (xs.map line).find? (hasKey key) =
      (xs.find? fun e => decide (e.1.key = key)).map line := by
  rw [List.find?_map]
  rfl

/-- The lines with the key change as their entries do. -/
theorem modifyFirst_line {m : Ledger Ids Entry} {xs : List (Ids × Entry)} (h : m.Lists xs)
    {key : String} {f : Line → Line} {g : Entry → Entry}
    (hf : ∀ e ∈ xs, e.1.key = key → f (line e) = line (e.1, g e.2)) :
    modifyFirst (hasKey key) f (xs.map line) =
      (xs.map fun e => if e.1.key = key then (e.1, g e.2) else e).map line := by
  rw [(unique_key h key).modifyFirst_eq, List.map_map, List.map_map]
  refine List.map_congr_left fun e he => ?_
  simp only [Function.comp_apply]
  by_cases hkey : e.1.key = key
  · have hhas : hasKey key (line e) = true := decide_eq_true hkey
    rw [if_pos hkey, if_pos hhas, hf e he hkey]
  · have hhas : ¬ hasKey key (line e) = true := fun h => hkey (of_decide_eq_true h)
    rw [if_neg hkey, if_neg hhas]

theorem mem_map_alter {xs : List (Ids × Entry)} {key : String} {g : Entry → Entry}
    (hg : ∀ e : Entry, IsQuantity e.qty → IsQuantity (g e).qty)
    (hxs : ∀ e ∈ xs, IsQuantity e.2.qty) :
    ∀ e ∈ xs.map fun e => if e.1.key = key then (e.1, g e.2) else e, IsQuantity e.2.qty := by
  intro e he
  obtain ⟨d, hd, rfl⟩ := List.mem_map.mp he
  split
  · exact hg d.2 (hxs d hd)
  · exact hxs d hd

section
variable {m : Ledger Ids Entry} {storage : Storage}

theorem shows_updateQty (h : Shows m storage) (key : String) {qty : Count} (hpos : 0 < qty.val) :
    Shows (record m (.updateQty key qty hpos)) (updateQty key qty.number storage) := by
  obtain ⟨xs, hlists, hcart, hqty⟩ := h
  have halter := hlists.alter (fun k : Ids => decide (k.key = key))
    fun e => (⟨qty.number, e.shown⟩ : Entry)
  simp only [decide_eq_true_eq] at halter
  refine ⟨_, halter, ?_, mem_map_alter (g := fun e => ⟨qty.number, e.shown⟩)
    (fun _ _ => isQuantity_number hpos) hqty⟩
  unfold updateQty
  dsimp only
  rw [hcart, find?_line]
  cases hfind : xs.find? fun e => decide (e.1.key = key) with
  | none =>
    -- no line has the key, and no entry
    have hnone : ∀ e ∈ xs, ¬ e.1.key = key := fun e he => by
      simpa using List.find?_eq_none.mp hfind e he
    change getCart storage = _
    rw [hcart]
    congr 1
    conv_lhs => rw [← List.map_id xs]
    exact List.map_congr_left fun e he => (if_neg (hnone e he)).symm
  | some e =>
    change modifyFirst (hasKey key) _ (xs.map line) = _
    refine modifyFirst_line (g := fun e => ⟨qty.number, e.shown⟩) hlists fun d _ _ => ?_
    have hnext : JsNum.max (.fin 1) (numberOr qty.number (.fin 1)) = qty.number := by
      rw [(isQuantity_number hpos).numberOr, (isQuantity_number hpos).max_one]
    have hnot : (numberOr (line e).is_welfare (.fin 0)).strictEq (.fin 1) = false := by
      change (numberOr (.fin 0) (.fin 0)).strictEq (.fin 1) = false
      decide +kernel
    rw [hnot, hnext]
    rfl

theorem shows_removeItem (h : Shows m storage) (key : String) :
    Shows (record m (.removeItem key)) (removeItem key storage) := by
  obtain ⟨xs, hlists, hcart, hqty⟩ := h
  refine ⟨_, hlists.drop fun k => decide (k.key = key), ?_,
    fun e he => hqty e (List.mem_of_mem_filter he)⟩
  unfold removeItem
  rw [hcart]
  change (xs.map line).filter _ = _
  rw [List.filter_map]
  rfl

theorem shows_clearCart (h : Shows m storage) : Shows (record m .clearCart) clearCart := by
  obtain ⟨xs, hlists, _, hqty⟩ := h
  refine ⟨_, hlists.drop fun _ => true, ?_, fun e he => hqty e (List.mem_of_mem_filter he)⟩
  simp [clearCart, getCart]

/-- The item of a call is the line of its entry. -/
theorem itemOf_payload (a : Adding) {shown : Shown} {price : JsNum}
    (hshown : shown = ⟨a.title.or (.str ""), a.skuTitle.or (.str ""), a.cover_url.or (.str ""),
      price⟩) : itemOf a.payload price = line (a.ids, ⟨a.qty.number, shown⟩) := by
  have hsku : (match a.payload.skuId with
      | some skuId => numberOr skuId (.fin 0)
      | none => .fin 0) = a.ids.2.number := by
    unfold Adding.payload Adding.ids
    cases a.skuId with
    | none =>
      change JsNum.fin 0 = .fin ((0 : ℕ) : ℚ)
      rw [Nat.cast_zero]
    | some s => exact numberOr_zero _ JsNum.noConfusion
  have hqty : JsNum.max (.fin 1) (numberOr a.payload.qty (.fin 1)) = a.qty.number := by
    change JsNum.max (.fin 1) (numberOr a.qty.number (.fin 1)) = _
    rw [(isQuantity_number a.qty_pos).numberOr, (isQuantity_number a.qty_pos).max_one]
  unfold itemOf
  dsimp only
  rw [hsku, hqty, hshown]
  rfl

/-- The three ends of `addToCart`. -/
theorem addToCart_cases (a : Adding) (storage : Storage) :
    a.shown? = none ∧ perform storage (.addToCart a) = storage ∨
      ∃ shown, a.shown? = some shown ∧ perform storage (.addToCart a) =
        match (getCart storage).find? (hasKey a.ids.key) with
        | some existing => some (modifyFirst (hasKey a.ids.key) (fun _ =>
            { line (a.ids, ⟨a.qty.number, shown⟩) with
              qty := JsNum.max (.fin 1) ((numberOr existing.qty (.fin 0)).add a.qty.number) })
            (getCart storage))
        | none => some (getCart storage ++ [line (a.ids, ⟨a.qty.number, shown⟩)]) := by
  unfold Adding.shown? perform addToCart
  dsimp only [bind, Except.bind, pure, Except.pure]
  cases hw : (a.is_welfare.or (.num (.fin 0))).toNumber with
  | error e =>
    rw [show (a.payload.is_welfare.or (.num (.fin 0))).toNumber = _ from hw]
    exact Or.inl ⟨rfl, rfl⟩
  | ok welfare =>
    rw [show (a.payload.is_welfare.or (.num (.fin 0))).toNumber = _ from hw]
    dsimp only
    by_cases hone : welfare.strictEq (.fin 1) = true
    · rw [if_pos hone]
      left
      refine ⟨?_, rfl⟩
      cases (a.price_cent.or (.num (.fin 0))).toNumber with
      | error e => rfl
      | ok price => exact if_pos hone
    · rw [if_neg hone]
      cases hp : (a.price_cent.or (.num (.fin 0))).toNumber with
      | error e =>
        rw [show (a.payload.price_cent.or (.num (.fin 0))).toNumber = _ from hp]
        exact Or.inl ⟨rfl, rfl⟩
      | ok price =>
        rw [show (a.payload.price_cent.or (.num (.fin 0))).toNumber = _ from hp]
        right
        refine ⟨_, if_neg hone, ?_⟩
        dsimp only
        rw [itemOf_payload a rfl]
        change (match (match (getCart storage).find? (hasKey a.ids.key) with
          | some existing => _
          | none => _ : Except JsError Storage) with
          | .ok storage => storage
          | .error _ => storage) = _
        cases (getCart storage).find? (hasKey a.ids.key) <;> rfl

theorem shows_addToCart (h : Shows m storage) (a : Adding) :
    Shows (record m (.addToCart a)) (perform storage (.addToCart a)) := by
  obtain ⟨xs, hlists, hcart, hqty⟩ := h
  rcases addToCart_cases a storage with ⟨hnone, hsame⟩ | ⟨shown, hshown, hput⟩
  · rw [hsame]
    have hrecord : record m (.addToCart a) = m.skip := by
      change (match a.shown? with
        | some shown => _
        | none => m.skip) = _
      rw [hnone]
    rw [hrecord]
    exact ⟨xs, hlists.skip, hcart, hqty⟩
  · rw [hput, hcart, find?_line]
    have hrecord : record m (.addToCart a) = m.enter a.ids ⟨a.qty.number, shown⟩
        fun e => ⟨e.qty.add a.qty.number, shown⟩ := by
      change (match a.shown? with
        | some shown => m.enter a.ids (Entry.mk a.qty.number shown)
            fun e => ⟨e.qty.add a.qty.number, shown⟩
        | none => _) = _
      rw [hshown]
    rw [hrecord]
    have hquantity := isQuantity_number a.qty_pos
    cases hfind : xs.find? fun e => decide (e.1.key = a.ids.key) with
    | none =>
      have hnew : m.entry a.ids = none := by
        by_contra hne
        obtain ⟨e, he, hk⟩ := List.mem_map.mp (hlists.mem_keys_iff.mpr hne)
        have hnot := List.find?_eq_none.mp hfind e he
        rw [hk] at hnot
        exact hnot (decide_eq_true rfl)
      refine ⟨_, hlists.enter_new hnew _ _, by rw [List.map_append]; rfl, ?_⟩
      intro e he
      rcases List.mem_append.mp he with he | he
      · exact hqty e he
      · rw [List.mem_singleton.mp he]
        exact hquantity
    | some e =>
      have hmem := List.mem_of_find?_eq_some hfind
      have hids : e.1 = a.ids := by
        have hkey := List.find?_some hfind
        exact key_injective (of_decide_eq_true hkey)
      obtain ⟨n, hentry⟩ := hlists.mem_iff.mp (show (a.ids, e.2) ∈ xs by rw [← hids]; exact hmem)
      have hold := hlists.enter_old hentry ⟨a.qty.number, shown⟩
        fun e => ⟨e.qty.add a.qty.number, shown⟩
      have hkeys : ∀ d : Ids × Entry, (d.1 = a.ids) = (d.1.key = a.ids.key) := fun d =>
        propext key_injective.eq_iff.symm
      simp only [hkeys] at hold
      refine ⟨_, hold, ?_, mem_map_alter (g := fun e => ⟨e.qty.add a.qty.number, shown⟩)
        (fun _ h => h.add hquantity) hqty⟩
      change modifyFirst (hasKey a.ids.key) _ (xs.map line) = _
      refine modifyFirst_line (g := fun e => ⟨e.qty.add a.qty.number, shown⟩) hlists
        fun d hd hkey => ?_
      have hd1 : d.1 = a.ids := key_injective hkey
      obtain ⟨n', hentry'⟩ := hlists.mem_iff.mp
        (show (a.ids, d.2) ∈ xs by rw [← hd1]; exact hd)
      rw [hentry, Option.some.injEq, Prod.mk.injEq] at hentry'
      have hsum := (hqty e hmem).add hquantity
      have hmerged : JsNum.max (.fin 1) ((numberOr (line e).qty (.fin 0)).add a.qty.number) =
          e.2.qty.add a.qty.number := by
        rw [show (line e).qty = e.2.qty from rfl, (hqty e hmem).numberOr, hsum.max_one]
      rw [hmerged, ← hentry'.2, hd1]
      rfl

/-- **One call.** What is stored goes on showing the map. -/
theorem shows_perform (h : Shows m storage) (c : Call) :
    Shows (record m c) (perform storage c) := by
  cases c with
  | addToCart a => exact shows_addToCart h a
  | updateQty key qty hpos => exact shows_updateQty h key hpos
  | removeItem key => exact shows_removeItem h key
  | clearCart => exact shows_clearCart h

end

end JtfpMall.Miniapp.Cart
