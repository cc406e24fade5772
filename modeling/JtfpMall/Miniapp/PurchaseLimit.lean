import JtfpMall.Lib.Action
import JtfpMall.Lib.Run
import JtfpMall.Miniapp.Checkout
import JtfpMall.Miniapp.ProductPage

/-!
# The limit of the cart page

The product page chooses a quantity and adds it, the cart page changes the quantities of the lines,
and only its `inc` looks at the limit of 99. A line goes over it exactly when what is added and what
is there already do.
-/

namespace JtfpMall.Miniapp.Cart

open JtfpMall.Js
open JtfpMall.Lib

/-- What the handlers of the cart page read of an item. -/
structure Item where
  key : String
  qty : JsNum
  is_welfare : JsNum

/-- The pages, and the storage below them. -/
structure Device where
  storage : Storage
  /-- The product pages that are open. -/
  products : List ProductPage
  /-- The items of the cart page. -/
  cart : List Item
  /-- The keys the cart page asks whether to remove. -/
  asked : List String
  /-- The items of the checkout page. -/
  checkout : List CartLine

inductive Action where
  | openProduct
  | loadDetail (page : ℕ) (product : Product) (skus : List Sku)
  | selectSku (page : ℕ) (id : JsNum)
  | decQty (page : ℕ)
  | incQty (page : ℕ)
  | addToCart (page : ℕ)
  | buyNow (page : ℕ)
  | showCart
  | dec (key : String)
  | inc (key : String)
  | remove (key : String)
  | answer (key : String) (confirm : Bool)
  | showCheckout
  | paid

namespace Device

def start : Device := ⟨none, [], [], [], []⟩

def loadCart (storage : Storage) : List Item :=
  (getCart storage).map fun it => ⟨it.key, it.qty, it.is_welfare⟩

/-- `loadData` of the checkout page, for an order from the cart. -/
def loadData (storage : Storage) : List CartLine :=
  (getCart storage).map fun it => ⟨it.productId, it.skuId, it.qty⟩

/-- The cart page writes and reads again. -/
def put (d : Device) (storage : Storage) : Device :=
  { d with storage := storage, cart := loadCart storage }

def ask (d : Device) (key : String) : Device := { d with asked := d.asked ++ [key] }

/-- What `dec` and `inc` share; `is_welfare == 1` compares numbers. -/
def change (d : Device) (key : String) (f : JsNum → JsNum) (next : JsNum → Device) : Device :=
  match d.cart.find? fun x => decide (x.key = key) with
  | none => d
  | some item =>
    if item.is_welfare.strictEq (.fin 1) then d else next (f (numberOr item.qty (.fin 1)))

def dec (d : Device) (key : String) : Device :=
  d.change key (fun qty => qty.sub (.fin 1)) fun newQty =>
    if newQty.lt? (.fin 1) = some true then d.ask key else d.put (updateQty key newQty d.storage)

def inc (d : Device) (key : String) : Device :=
  d.change key (fun qty => qty.add (.fin 1)) fun newQty =>
    if (JsNum.fin 99).lt? newQty = some true then d else d.put (updateQty key newQty d.storage)

def onPage (d : Device) (page : ℕ) (f : ProductPage → ProductPage) : Option Device :=
  (d.products[page]?).map fun p => { d with products := d.products.set page (f p) }

def add (d : Device) (page : ℕ) : Option Device :=
  (d.products[page]?).map fun p => { d with storage := p.addToCart d.storage }

def step (d : Device) : Action → Option Device
  | .openProduct => some { d with products := d.products ++ [.opened] }
  | .loadDetail page product skus => d.onPage page (ProductPage.loadDetail product skus)
  | .selectSku page id => d.onPage page (ProductPage.selectSku id)
  | .decQty page => d.onPage page ProductPage.decQty
  | .incQty page => d.onPage page ProductPage.incQty
  | .addToCart page => d.add page
  | .buyNow page => d.add page
  | .showCart => some { d with cart := loadCart d.storage }
  | .dec key => some (d.dec key)
  | .inc key => some (d.inc key)
  | .remove key => some (d.ask key)
  | .answer key confirm =>
    if key ∈ d.asked then
      let d := { d with asked := d.asked.erase key }
      some (if confirm then d.put (removeItem key d.storage) else d)
    else none
  | .showCheckout => some { d with checkout := loadData d.storage }
  | .paid => some { d with storage := clearCart }

end Device

def WithinLimit (n : JsNum) : Prop := ∃ z : ℕ, 1 ≤ z ∧ z ≤ 99 ∧ n = .ofNat z

/-- The lines of the cart are within the limit, and those of the order from it. -/
def Device.Limited (d : Device) : Prop :=
  (∀ x ∈ getCart d.storage, WithinLimit x.qty) ∧ ∀ it ∈ d.checkout, WithinLimit it.quantity

/-- How many the line with the key has. -/
def held (storage : Storage) (key : String) : JsNum :=
  match (getCart storage).find? (hasKey key) with
  | some x => x.qty
  | none => .fin 0

def Payload.key (payload : Payload) : String := (itemOf payload (.fin 0)).key

/-- What is added fits with what is there. -/
def Device.Fits (d : Device) : Action → Prop
  | .addToCart i | .buyNow i => ∀ page, d.products[i]? = some page →
      ∀ payload, page.payload = .ok (some payload) → ∃ q n : ℕ, page.qty = .ofNat q ∧
        held d.storage payload.key = .ofNat n ∧ q + n ≤ 99
  | _ => True

theorem WithinLimit.isQuantity {n : JsNum} (h : WithinLimit n) : IsQuantity n := by
  obtain ⟨z, hpos, _, rfl⟩ := h
  exact Or.inr ⟨z, hpos, rfl⟩

theorem isQuantity_ofNat {z : ℕ} (h : 0 < z) : IsQuantity (.ofNat z) := Or.inr ⟨z, h, rfl⟩

theorem isQuantity_one : IsQuantity (.fin 1) :=
  Or.inr ⟨1, Nat.one_pos, by rw [JsNum.ofNat, Nat.cast_one]⟩

theorem isQuantity_max_one (z : ℤ) : IsQuantity (JsNum.max (.fin 1) (.fin z)) := by
  unfold JsNum.max JsNum.lt?
  by_cases hz : (1 : ℚ) < z
  · have hpos : (1 : ℤ) < z := by exact_mod_cast hz
    lift z to ℕ using by omega
    simp only [hz, decide_true]
    exact Or.inr ⟨z, by omega, rfl⟩
  · simp only [hz, decide_false]
    exact isQuantity_one

theorem IsQuantity.decreased {n : JsNum} (h : IsQuantity n) :
    IsQuantity (JsNum.max (.fin 1) (n.sub (.fin 1))) := by
  rcases h with rfl | ⟨z, hz, rfl⟩
  · exact Or.inl rfl
  · have hround := rounds_sub z 1
    rw [Int.cast_one] at hround
    change IsQuantity (JsNum.max (.fin 1) ((JsNum.fin (z : ℤ)).sub (.fin 1)))
    generalize (JsNum.fin ((z : ℤ) : ℚ)).sub (.fin 1) = less at hround
    cases hround with
    | exact _ => exact isQuantity_max_one _
    | above _ _ => exact isQuantity_max_one _
    | below _ _ => exact isQuantity_max_one _
    | infAbove _ => exact Or.inl rfl
    | infBelow h => omega

theorem IsQuantity.increased {n : JsNum} (h : IsQuantity n) :
    IsQuantity (JsNum.max (.fin 1) (n.add (.fin 1))) := by
  have hsum := h.add isQuantity_one
  rw [hsum.max_one]
  exact hsum

/-- A sum is within the limit when the whole numbers it is of are. -/
theorem withinLimit_add_iff {q : JsNum} (hq : IsQuantity q) {n : ℕ} (hn : n ≤ 99) :
    WithinLimit ((JsNum.ofNat n).add q) ↔ ∃ z : ℕ, q = .ofNat z ∧ z + n ≤ 99 := by
  rcases hq with rfl | ⟨z, hz, rfl⟩
  · refine iff_of_false ?_ fun ⟨_, h, _⟩ => nomatch h
    rintro ⟨_, _, _, h⟩
    cases h
  · have hsum : (∃ y : ℕ, JsNum.ofNat z = .ofNat y ∧ y + n ≤ 99) ↔ z + n ≤ 99 := by
      constructor
      · rintro ⟨y, hy, hle⟩
        rwa [JsNum.ofNat_inj.mp hy]
      · exact fun hle => ⟨z, rfl, hle⟩
    rw [hsum]
    have hround := rounds_add n z
    change WithinLimit ((JsNum.fin (n : ℤ)).add (.fin (z : ℤ))) ↔ _
    generalize (JsNum.fin ((n : ℤ) : ℚ)).add (.fin ((z : ℤ) : ℚ)) = sum at hround
    have hwhole : ∀ w : ℤ, WithinLimit (.fin w) → 1 ≤ w ∧ w ≤ 99 := by
      rintro w ⟨y, hy1, hy99, hw⟩
      have hcast : (w : ℚ) = y := JsNum.fin.inj hw
      have hint : w = y := by exact_mod_cast hcast
      omega
    cases hround with
    | exact _ =>
      constructor
      · intro h
        have hle := (hwhole _ h).2
        omega
      · intro hle
        exact ⟨n + z, by omega, by omega, by push_cast [JsNum.ofNat]; rfl⟩
    | above h hw => exact iff_of_false (fun h => by have := (hwhole _ h).2; omega) (by omega)
    | below h _ => omega
    | infAbove h =>
      refine iff_of_false ?_ (by omega)
      rintro ⟨_, _, _, h⟩
      cases h
    | infBelow h => omega

theorem withinLimit_iff {q : JsNum} (hq : IsQuantity q) :
    WithinLimit q ↔ ∃ z : ℕ, q = .ofNat z ∧ z ≤ 99 := by
  rcases hq with rfl | ⟨z, hz, rfl⟩
  · exact iff_of_false (fun ⟨_, _, _, h⟩ => nomatch h) fun ⟨_, h, _⟩ => nomatch h
  · constructor
    · rintro ⟨y, _, hle, hy⟩
      exact ⟨y, hy, hle⟩
    · rintro ⟨y, hy, hle⟩
      exact ⟨y, by rw [← JsNum.ofNat_inj.mp hy]; exact hz, hle, hy⟩

theorem addToCart_ok {payload : Payload} {p : JsNum} (storage : Storage)
    (hwelfare : payload.is_welfare = .num (.fin 0)) (hprice : payload.price_cent = .num p) :
    ∃ item, item.key = payload.key ∧ item.qty = JsNum.max (.fin 1) (numberOr payload.qty (.fin 1)) ∧
      addToCart payload storage = .ok (some (match (getCart storage).find? (hasKey payload.key) with
        | some existing => modifyFirst (hasKey payload.key) (fun _ =>
            { item with qty := JsNum.max (.fin 1) ((numberOr existing.qty (.fin 0)).add item.qty) })
            (getCart storage)
        | none => getCart storage ++ [item])) := by
  have hzero : ((JsVal.num (.fin 0)).or (.num (.fin 0))).toNumber = .ok (.fin 0) := rfl
  have hnum : ((JsVal.num p).or (.num (.fin 0))).toNumber = .ok (numberOr p (.fin 0)) := by
    unfold JsVal.or numberOr
    split <;> split <;> first | rfl | contradiction
  have hnot : (JsNum.fin 0).strictEq (.fin 1) = false := by decide +kernel
  refine ⟨itemOf payload (numberOr p (.fin 0)), rfl, rfl, ?_⟩
  unfold addToCart
  rw [hwelfare, hprice, hzero, hnum]
  dsimp only [bind, Except.bind, pure, Except.pure]
  rw [hnot, if_neg Bool.false_ne_true]
  have hkey : (itemOf payload (numberOr p (.fin 0))).key = payload.key := rfl
  rw [hkey]
  cases (getCart storage).find? (hasKey payload.key) <;> rfl

/-- Adding keeps the lines within the limit exactly where the sum is within it. -/
theorem limit_addToCart_iff {payload : Payload} {p : JsNum} {storage : Storage}
    (hwelfare : payload.is_welfare = .num (.fin 0)) (hprice : payload.price_cent = .num p)
    (hqty : IsQuantity payload.qty) (h : ∀ x ∈ getCart storage, WithinLimit x.qty) :
    ∃ storage', addToCart payload storage = .ok storage' ∧
      ((∀ x ∈ getCart storage', WithinLimit x.qty) ↔ ∃ q n : ℕ, payload.qty = .ofNat q ∧
        held storage payload.key = .ofNat n ∧ q + n ≤ 99) := by
  obtain ⟨item, hkey, hitem, hadd⟩ := addToCart_ok storage hwelfare hprice
  rw [hqty.numberOr, hqty.max_one] at hitem
  refine ⟨_, hadd, ?_⟩
  unfold held
  cases hfind : (getCart storage).find? (hasKey payload.key) with
  | none =>
    change (∀ x ∈ getCart storage ++ [item], WithinLimit x.qty) ↔ _
    rw [List.forall_mem_append, and_iff_right h, List.forall_mem_singleton, hitem,
      withinLimit_iff hqty]
    constructor
    · rintro ⟨z, hz, hle⟩
      exact ⟨z, 0, hz, by rw [JsNum.ofNat, Nat.cast_zero], hle⟩
    · rintro ⟨q, n, hq, _, hle⟩
      exact ⟨q, hq, by omega⟩
  | some existing =>
    obtain ⟨n, hpos, hle, hn⟩ := h existing (List.mem_of_find?_eq_some hfind)
    have hold : IsQuantity existing.qty := hn ▸ isQuantity_ofNat hpos
    change (∀ x ∈ modifyFirst (hasKey payload.key) _ (getCart storage), WithinLimit x.qty) ↔ _
    have hall := forall_mem_modifyFirst_iff (P := fun x : Line => WithinLimit x.qty)
      (p := hasKey payload.key) (f := fun _ => { item with
        qty := JsNum.max (.fin 1) ((numberOr existing.qty (.fin 0)).add item.qty) }) h
    rw [hall, hfind]
    simp only [Option.some.injEq, forall_eq']
    rw [hitem, hold.numberOr, (hold.add hqty).max_one, hn, withinLimit_add_iff hqty hle]
    constructor
    · rintro ⟨z, hz, hsum⟩
      exact ⟨z, n, hz, rfl, hsum⟩
    · rintro ⟨q, n', hq, hn', hsum⟩
      rw [← JsNum.ofNat_inj.mp hn'] at hsum
      exact ⟨q, hq, hsum⟩

theorem isQuantity_changeQty (page : ProductPage) {f : JsNum → JsNum}
    (h : IsQuantity page.qty)
    (hf : ∀ {n}, IsQuantity n → IsQuantity (JsNum.max (.fin 1) (f n))) :
    IsQuantity (page.changeQty f).qty := by
  unfold ProductPage.changeQty
  split
  · exact h
  · split
    · rw [h.numberOr]
      exact hf h
    · exact h

/-- The payload of the product page. -/
theorem payload_ok {page : ProductPage} {payload : Payload}
    (h : page.payload = .ok (some payload)) :
    payload.qty = JsNum.max (.fin 1) (numberOr page.qty (.fin 1)) ∧
      payload.is_welfare = .num (.fin 0) ∧ ∃ p, payload.price_cent = .num p := by
  unfold ProductPage.payload at h
  cases hproduct : page.product with
  | none =>
    rw [hproduct] at h
    cases h
  | some product =>
    rw [hproduct] at h
    obtain ⟨welfare, _, h⟩ := bind_ok h
    cases welfare with
    | true => cases h
    | false =>
      obtain ⟨sku, _, h⟩ := bind_ok h
      obtain ⟨productId, _, h⟩ := bind_ok h
      obtain ⟨skuId, _, h⟩ := bind_ok h
      obtain ⟨price, _, h⟩ := bind_ok h
      cases h
      exact ⟨rfl, rfl, price, rfl⟩

/-- What every action keeps: the lines and what the pages show of them are within the limit, and
the quantities chosen are positive and whole. -/
structure Device.Ok (d : Device) : Prop where
  stored : ∀ x ∈ getCart d.storage, WithinLimit x.qty
  cart : ∀ it ∈ d.cart, WithinLimit it.qty
  checkout : ∀ it ∈ d.checkout, WithinLimit it.quantity
  chosen : ∀ page ∈ d.products, IsQuantity page.qty

namespace Device

variable {d d' : Device}

theorem Ok.limited (h : d.Ok) : d.Limited := ⟨h.stored, h.checkout⟩

theorem loadCart_within {storage : Storage} (h : ∀ x ∈ getCart storage, WithinLimit x.qty) :
    ∀ it ∈ loadCart storage, WithinLimit it.qty := by
  intro it hit
  obtain ⟨x, hx, rfl⟩ := List.mem_map.mp hit
  exact h x hx

theorem loadData_within {storage : Storage} (h : ∀ x ∈ getCart storage, WithinLimit x.qty) :
    ∀ it ∈ loadData storage, WithinLimit it.quantity := by
  intro it hit
  obtain ⟨x, hx, rfl⟩ := List.mem_map.mp hit
  change WithinLimit (numberOr x.qty (.fin 1))
  rw [(h x hx).isQuantity.numberOr]
  exact h x hx

theorem Ok.put (h : d.Ok) {storage : Storage} (hs : ∀ x ∈ getCart storage, WithinLimit x.qty) :
    (d.put storage).Ok :=
  ⟨hs, loadCart_within hs, h.checkout, h.chosen⟩

theorem updateQty_within {storage : Storage} (h : ∀ x ∈ getCart storage, WithinLimit x.qty)
    (key : String) {qty : JsNum} (hqty : WithinLimit qty) :
    ∀ x ∈ getCart (updateQty key qty storage), WithinLimit x.qty := by
  unfold updateQty
  dsimp only
  cases (getCart storage).find? (hasKey key) with
  | none => exact h
  | some x =>
    refine (forall_mem_modifyFirst_iff h).mpr fun _ _ => ?_
    rw [hqty.isQuantity.numberOr, hqty.isQuantity.max_one]
    dsimp only
    split
    · exact ⟨1, le_rfl, by norm_num, by rw [JsNum.ofNat, Nat.cast_one]⟩
    · exact hqty

theorem removeItem_within {storage : Storage} (h : ∀ x ∈ getCart storage, WithinLimit x.qty)
    (key : String) : ∀ x ∈ getCart (removeItem key storage), WithinLimit x.qty :=
  fun x hx => h x (List.mem_of_mem_filter hx)

/-- `dec` and `inc` start from an item of the page. -/
theorem Ok.change (h : d.Ok) (key : String) (f : JsNum → JsNum) {next : JsNum → Device}
    (hnext : ∀ n, WithinLimit n → (next (f n)).Ok) : (d.change key f next).Ok := by
  unfold Device.change
  cases hfind : d.cart.find? fun x => decide (x.key = key) with
  | none => exact h
  | some item =>
    dsimp only
    have hitem := h.cart item (List.mem_of_find?_eq_some hfind)
    split
    · exact h
    · rw [hitem.isQuantity.numberOr]
      exact hnext item.qty hitem

theorem Ok.dec (h : d.Ok) (key : String) : (d.dec key).Ok := by
  refine h.change key _ ?_
  rintro n ⟨z, hpos, hle, rfl⟩
  have hless : (JsNum.ofNat z).sub (.fin 1) = .fin ((z : ℚ) - 1) := by
    have hsum := add_int (m := z) (n := -1) (by omega)
    push_cast at hsum
    rw [sub_eq_add_neg]
    exact hsum
  rw [hless]
  split
  · exact ⟨h.stored, h.cart, h.checkout, h.chosen⟩
  · rename_i hnot
    refine h.put (updateQty_within h.stored key ⟨z - 1, ?_, by omega, ?_⟩)
    · by_contra hzero
      obtain rfl : z = 1 := by omega
      exact hnot (by norm_num [JsNum.lt?])
    · rw [JsNum.ofNat, Nat.cast_sub hpos]
      push_cast
      rfl

theorem Ok.inc (h : d.Ok) (key : String) : (d.inc key).Ok := by
  refine h.change key _ ?_
  rintro n ⟨z, hpos, hle, rfl⟩
  have hmore : (JsNum.ofNat z).add (.fin 1) = .ofNat (z + 1) := by
    have hsum := add_int (m := z) (n := 1) (by omega)
    push_cast at hsum
    rw [JsNum.ofNat, JsNum.ofNat]
    push_cast
    exact hsum
  rw [hmore]
  split
  · exact h
  · rename_i hnot
    refine h.put (updateQty_within h.stored key ⟨z + 1, by omega, ?_, rfl⟩)
    by_contra hmax
    obtain rfl : z = 99 := by omega
    exact hnot (by norm_num [JsNum.lt?, JsNum.ofNat])

theorem Ok.onPage (h : d.Ok) {page : ℕ} {f : ProductPage → ProductPage}
    (hf : ∀ p, IsQuantity p.qty → IsQuantity (f p).qty) (hd : d.onPage page f = some d') :
    d'.Ok := by
  unfold Device.onPage at hd
  obtain ⟨p, hp, rfl⟩ := Option.map_eq_some_iff.mp hd
  refine ⟨h.stored, h.cart, h.checkout, fun q hq => ?_⟩
  rcases List.mem_or_eq_of_mem_set hq with hq | rfl
  · exact h.chosen q hq
  · exact hf p (h.chosen p (List.mem_of_getElem? hp))

/-- Adding from a page is within the limit exactly where it fits. -/
theorem Ok.add_iff (h : d.Ok) (page : ℕ) :
    (∀ p, d.products[page]? = some p → ∀ payload, p.payload = .ok (some payload) →
      ∃ q n : ℕ, p.qty = .ofNat q ∧ held d.storage payload.key = .ofNat n ∧ q + n ≤ 99) ↔
      ∀ d', d.add page = some d' → ∀ x ∈ getCart d'.storage, WithinLimit x.qty := by
  unfold Device.add
  cases hpage : d.products[page]? with
  | none => simp
  | some p =>
    have hchosen := h.chosen p (List.mem_of_getElem? hpage)
    simp only [Option.map_some, Option.some.injEq, forall_eq']
    unfold ProductPage.addToCart
    cases hpayload : p.payload with
    | error e => simpa using h.stored
    | ok payload =>
      cases payload with
      | none => simpa using h.stored
      | some payload =>
        obtain ⟨hqty, hwelfare, price, hprice⟩ := payload_ok hpayload
        rw [hchosen.numberOr, hchosen.max_one] at hqty
        obtain ⟨storage', hadd, hiff⟩ :=
          limit_addToCart_iff hwelfare hprice (hqty ▸ hchosen) h.stored
        simp only [Except.ok.injEq, Option.some.injEq, forall_eq', hadd, hiff, hqty]

theorem ok_start : Device.start.Ok :=
  ⟨fun _ h => absurd h List.not_mem_nil, fun _ h => absurd h List.not_mem_nil,
    fun _ h => absurd h List.not_mem_nil, fun _ h => absurd h List.not_mem_nil⟩

theorem Ok.add (h : d.Ok) {page : ℕ}
    (hin : ∀ d', d.add page = some d' → ∀ x ∈ getCart d'.storage, WithinLimit x.qty)
    (hd : d.add page = some d') : d'.Ok := by
  have hstored := hin d' hd
  unfold Device.add at hd
  obtain ⟨p, _, rfl⟩ := Option.map_eq_some_iff.mp hd
  exact ⟨hstored, h.cart, h.checkout, h.chosen⟩

/-- An action that fits keeps the limits. -/
theorem Ok.step (h : d.Ok) {a : Action} (hfits : d.Fits a) (hstep : d.step a = some d') :
    d'.Ok := by
  cases a with
  | openProduct =>
    cases hstep
    refine ⟨h.stored, h.cart, h.checkout, fun p hp => ?_⟩
    rcases List.mem_append.mp hp with hp | hp
    · exact h.chosen p hp
    · rw [List.mem_singleton.mp hp]
      exact isQuantity_one
  | loadDetail page product skus =>
    refine h.onPage (fun p hp => ?_) hstep
    unfold ProductPage.loadDetail
    split
    · exact isQuantity_one
    · exact hp
  | selectSku page id =>
    refine h.onPage (fun p hp => ?_) hstep
    unfold ProductPage.selectSku
    split <;> exact hp
  | decQty page =>
    refine h.onPage (fun p hp => ?_) hstep
    exact isQuantity_changeQty p hp fun hp => hp.decreased
  | incQty page =>
    refine h.onPage (fun p hp => ?_) hstep
    exact isQuantity_changeQty p hp fun hp => hp.increased
  | addToCart page => exact h.add (h.add_iff page |>.mp hfits) hstep
  | buyNow page => exact h.add (h.add_iff page |>.mp hfits) hstep
  | showCart =>
    cases hstep
    exact ⟨h.stored, loadCart_within h.stored, h.checkout, h.chosen⟩
  | dec key =>
    cases hstep
    exact h.dec key
  | inc key =>
    cases hstep
    exact h.inc key
  | remove key =>
    cases hstep
    exact ⟨h.stored, h.cart, h.checkout, h.chosen⟩
  | answer key confirm =>
    change (if key ∈ d.asked then _ else none) = _ at hstep
    split at hstep
    · cases hstep
      split
      · exact Ok.put (d := { d with asked := d.asked.erase key })
          ⟨h.stored, h.cart, h.checkout, h.chosen⟩ (removeItem_within h.stored key)
      · exact ⟨h.stored, h.cart, h.checkout, h.chosen⟩
    · cases hstep
  | showCheckout =>
    cases hstep
    exact ⟨h.stored, h.cart, loadData_within h.stored, h.chosen⟩
  | paid =>
    cases hstep
    exact ⟨fun _ hx => absurd hx List.not_mem_nil, h.cart, h.checkout, h.chosen⟩

/-- Whether an action fits is whether it leaves the limits kept. -/
theorem Ok.fits_iff (h : d.Ok) (a : Action) :
    d.Fits a ↔ ∀ d', d.step a = some d' → d'.Limited := by
  have hadd : ∀ page d', d.add page = some d' →
      ((∀ x ∈ getCart d'.storage, WithinLimit x.qty) ↔ d'.Limited) := by
    intro page d' hd
    unfold Device.add at hd
    obtain ⟨p, _, rfl⟩ := Option.map_eq_some_iff.mp hd
    exact (and_iff_left h.checkout).symm
  constructor
  · exact fun hfits d' hstep => (h.step hfits hstep).limited
  · intro hall
    cases a with
    | addToCart page => exact (h.add_iff page).mpr fun d' hd => (hadd page d' hd).mpr (hall d' hd)
    | buyNow page => exact (h.add_iff page).mpr fun d' hd => (hadd page d' hd).mpr (hall d' hd)
    | _ => trivial

end Device

/-- **The limit.** Along any actions from the empty cart the lines are within the limit, wherever
one stops, exactly when everything added fits with what is there. -/
theorem limit_iff (as : List Action) : Along Device.step Device.Fits .start as ↔
    ∀ front rest d, as = front ++ rest → run Device.step .start front = some d → d.Limited :=
  along_iff_forall Device.step (fun _ h => h.limited) (fun _ a h => h.fits_iff a)
    (fun _ _ _ h hfits hstep => h.step hfits hstep) Device.ok_start as

def diapers : Product := ⟨.num (.fin 1), .str "", .str "", .num (.fin 100), .num (.fin 0)⟩

/-- Fifty on the product page, added twice. -/
def twiceFifty : List Action :=
  [.openProduct, .loadDetail 0 diapers []] ++ List.replicate 49 (.incQty 0) ++
    [.addToCart 0, .addToCart 0]

theorem twiceFifty_over : ¬ ∀ front rest d, twiceFifty = front ++ rest →
    run Device.step .start front = some d → d.Limited := by
  intro hall
  have hrun : ((run Device.step .start twiceFifty).map fun d => (getCart d.storage).map Line.qty) =
      some [.ofNat 100] := by
    decide +kernel
  obtain ⟨d, hd, hqty⟩ := Option.map_eq_some_iff.mp hrun
  obtain ⟨x, hx, hnum⟩ := List.mem_map.mp (hqty ▸ List.mem_singleton_self _)
  obtain ⟨z, _, hle, hz⟩ := (hall twiceFifty [] d (List.append_nil _).symm hd).1 x hx
  rw [hnum, JsNum.ofNat_inj] at hz
  omega

end JtfpMall.Miniapp.Cart
