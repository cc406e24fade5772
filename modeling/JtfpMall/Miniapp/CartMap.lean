import JtfpMall.Miniapp.Cart
import Mathlib.Data.List.Induction

/-!
# The cart after any number of calls

What is stored is read off the calls: which pairs are there and in which order, how many of each,
and what their lines show.
-/

namespace JtfpMall.Miniapp.Cart

open JtfpMall.Js
open JtfpMall.Lib

theorem shows_stored (cs : List Call) : Shows (recorded cs) (stored cs) := by
  have hrun : ∀ (cs : List Call) (m : Ledger Ids Entry) (storage : Storage), Shows m storage →
      Shows (cs.foldl record m) (cs.foldl perform storage) := by
    intro cs
    induction cs with
    | nil => exact fun _ _ h => h
    | cons c cs ih => exact fun m storage h => ih _ _ (shows_perform h c)
  exact hrun cs .empty none ⟨[], Ledger.lists_empty, rfl, fun _ h => absurd h List.not_mem_nil⟩

/-- The line of a pair. -/
def lineFor (storage : Storage) (k : Ids) : Option Line := (getCart storage).find? (hasKey k.key)

theorem lineFor_eq {m : Ledger Ids Entry} {storage : Storage} (h : Shows m storage) (k : Ids) :
    lineFor storage k = (m.entry k).map fun e => line (k, e.2) := by
  obtain ⟨xs, hlists, hcart, _⟩ := h
  unfold lineFor
  rw [hcart, find?_line]
  cases hfind : xs.find? fun e => decide (e.1.key = k.key) with
  | none =>
    cases hentry : m.entry k with
    | none => rfl
    | some e =>
      have hnot := List.find?_eq_none.mp hfind (k, e.2) (hlists.mem_iff.mpr ⟨e.1, hentry⟩)
      exact absurd (decide_eq_true rfl) hnot
  | some e =>
    have hkey := List.find?_some hfind
    have hids : e.1 = k := key_injective (of_decide_eq_true hkey)
    obtain ⟨n, hentry⟩ := hlists.mem_iff.mp
      (show (k, e.2) ∈ xs by rw [← hids]; exact List.mem_of_find?_eq_some hfind)
    rw [hentry, Option.map_some, Option.map_some, ← hids]

namespace Call

/-- The call takes the line of the pair out. -/
def Removes (k : Ids) : Call → Prop
  | .removeItem key => k.key = key
  | .clearCart => True
  | _ => False

def Updates (k : Ids) : Call → Prop
  | .updateQty key _ _ => k.key = key
  | _ => False

/-- The quantity the call adds to the line of the pair. -/
def adds (k : Ids) : Call → Option Count
  | .addToCart a => if a.ids = k ∧ a.shown?.isSome then some a.qty else none
  | _ => none

end Call

/-- The quantities added to the line of a pair. -/
def added (k : Ids) (cs : List Call) : List Count := cs.filterMap (Call.adds k)

/-- The pair came into the cart with the call of this number, and has not been taken out since. -/
def EnteredAt (k : Ids) (n : ℕ) (cs : List Call) : Prop :=
  ∃ front c rest, cs = front ++ c :: rest ∧ front.length = n ∧ c.adds k ≠ none ∧
    lineFor (stored front) k = none ∧ ∀ d ∈ rest, ¬ d.Removes k

/-- The call leaves this many of the pair in the cart, whatever was there: it adds the first ones or
sets the number of those there. -/
def Sets (storage : Storage) (c : Call) (k : Ids) (base : Count) : Prop :=
  c.adds k = some base ∧ lineFor storage k = none ∨
    ∃ hpos, c = .updateQty k.key base hpos ∧ lineFor storage k ≠ none

/-- What a call that does not remove it makes of an entry. -/
def Entry.after (k : Ids) (e : Entry) : Call → Entry
  | .addToCart a => match a.shown? with
    | some shown => if a.ids = k then ⟨e.qty.add a.qty.number, shown⟩ else e
    | none => e
  | .updateQty key qty _ => if k.key = key then ⟨qty.number, e.shown⟩ else e
  | _ => e

section
variable {m : Ledger Ids Entry} {k : Ids} {n : ℕ} {e : Entry}

theorem entry_addToCart (m : Ledger Ids Entry) (a : Adding) (k : Ids) :
    (record m (.addToCart a)).entry k = match a.shown? with
      | some shown => if a.ids = k then some (match m.entry k with
          | some (n, e) => (n, ⟨e.qty.add a.qty.number, shown⟩)
          | none => (m.count, ⟨a.qty.number, shown⟩))
        else m.entry k
      | none => m.entry k := by
  have hrecord : record m (.addToCart a) = match a.shown? with
    | some shown => m.enter a.ids ⟨a.qty.number, shown⟩ fun e => ⟨e.qty.add a.qty.number, shown⟩
    | none => m.skip := rfl
  rw [hrecord]
  cases a.shown? with
  | none => rfl
  | some shown =>
    unfold Ledger.enter
    dsimp only
    by_cases hk : a.ids = k
    · subst hk
      rw [Function.update_self, if_pos rfl]
      cases m.entry a.ids <;> rfl
    · rw [Function.update_of_ne (Ne.symm hk), if_neg hk]

theorem after_addToCart (k : Ids) (e : Entry) (a : Adding) : e.after k (.addToCart a) =
    match a.shown? with
    | some shown => if a.ids = k then ⟨e.qty.add a.qty.number, shown⟩ else e
    | none => e := rfl

theorem adds_addToCart (k : Ids) (a : Adding) : (Call.addToCart a).adds k =
    if a.ids = k ∧ a.shown?.isSome then some a.qty else none := rfl

theorem entry_kept (h : m.entry k = some (n, e)) {c : Call} (hc : ¬ c.Removes k) :
    (record m c).entry k = some (n, e.after k c) := by
  cases c with
  | addToCart a =>
    rw [entry_addToCart, h, after_addToCart]
    cases a.shown? with
    | none => rfl
    | some shown =>
      dsimp only
      split <;> rfl
  | updateQty key qty hpos =>
    change (if decide (k.key = key) = true then (m.entry k).map _ else m.entry k) =
      some (n, if k.key = key then ⟨qty.number, e.shown⟩ else e)
    by_cases hkey : k.key = key
    · rw [if_pos (decide_eq_true hkey), h, if_pos hkey]
      rfl
    · rw [if_neg (by simpa using hkey), h, if_neg hkey]
  | removeItem key =>
    have hkey : ¬ k.key = key := hc
    change (if decide (k.key = key) = true then none else m.entry k) = _
    rw [if_neg (by simpa using hkey), h]
    rfl
  | clearCart => exact absurd trivial hc

theorem entry_removed {c : Call} (hc : c.Removes k) : (record m c).entry k = none := by
  cases c with
  | addToCart a => exact absurd hc id
  | updateQty key qty hpos => exact absurd hc id
  | removeItem key =>
    have hkey : k.key = key := hc
    exact if_pos (decide_eq_true hkey)
  | clearCart => rfl

theorem entry_added (h : m.entry k = none) {a : Adding} (hk : a.ids = k) {shown : Shown}
    (hs : a.shown? = some shown) :
    (record m (.addToCart a)).entry k = some (m.count, ⟨a.qty.number, shown⟩) := by
  rw [entry_addToCart, hs, h]
  exact if_pos hk

/-- A pair that is not there comes in with a call that adds it, and with no other. -/
theorem of_entered (h : m.entry k = none) {c : Call} (hc : (record m c).entry k = some (n, e)) :
    ∃ a shown, c = .addToCart a ∧ a.ids = k ∧ a.shown? = some shown ∧ n = m.count := by
  cases c with
  | addToCart a =>
    rw [entry_addToCart, h] at hc
    cases hs : a.shown? with
    | none =>
      rw [hs] at hc
      cases hc
    | some shown =>
      rw [hs] at hc
      dsimp only at hc
      split at hc
      · rename_i hk
        rw [Option.some.injEq, Prod.mk.injEq] at hc
        exact ⟨a, shown, rfl, hk, hs, hc.1.symm⟩
      · cases hc
  | updateQty key qty hpos =>
    change (if decide (k.key = key) = true then (m.entry k).map _ else m.entry k) = _ at hc
    rw [h] at hc
    split at hc <;> cases hc
  | removeItem key =>
    change (if decide (k.key = key) = true then none else m.entry k) = _ at hc
    rw [h] at hc
    split at hc <;> cases hc
  | clearCart => cases hc

theorem entry_along (h : m.entry k = some (n, e)) {cs : List Call} (hcs : ∀ c ∈ cs, ¬ c.Removes k) :
    (cs.foldl record m).entry k = some (n, cs.foldl (Entry.after k) e) := by
  induction cs generalizing m e with
  | nil => exact h
  | cons c cs ih =>
    exact ih (entry_kept h (hcs c List.mem_cons_self)) fun d hd => hcs d (List.mem_cons_of_mem c hd)

end

/-- Without an update the additions sum up. -/
theorem qty_after {k : Ids} {cs : List Call} (hcs : ∀ c ∈ cs, ¬ c.Updates k) (e : Entry) :
    (cs.foldl (Entry.after k) e).qty = (added k cs).foldl (fun sum q => sum.add q.number) e.qty := by
  induction cs generalizing e with
  | nil => rfl
  | cons c cs ih =>
    have hrest := ih fun d hd => hcs d (List.mem_cons_of_mem c hd)
    have hone := hcs c List.mem_cons_self
    unfold added at hrest ⊢
    rw [List.foldl_cons, hrest, List.filterMap_cons]
    cases c with
    | addToCart a =>
      rw [after_addToCart, adds_addToCart]
      cases a.shown? with
      | none => simp
      | some shown => by_cases hk : a.ids = k <;> simp [hk]
    | updateQty key qty hpos =>
      have hkey : ¬ k.key = key := hone
      have hsame : e.after k (.updateQty key qty hpos) = e := if_neg hkey
      rw [hsame]
      rfl
    | removeItem key => rfl
    | clearCart => rfl

/-- Without an addition the line shows what it showed. -/
theorem shown_after {k : Ids} {cs : List Call} (hcs : ∀ c ∈ cs, c.adds k = none) (e : Entry) :
    (cs.foldl (Entry.after k) e).shown = e.shown := by
  induction cs generalizing e with
  | nil => rfl
  | cons c cs ih =>
    rw [List.foldl_cons, ih fun d hd => hcs d (List.mem_cons_of_mem c hd)]
    have hone := hcs c List.mem_cons_self
    cases c with
    | addToCart a =>
      rw [adds_addToCart] at hone
      rw [after_addToCart]
      cases hs : a.shown? with
      | none => rfl
      | some shown =>
        rw [hs] at hone
        by_cases hk : a.ids = k
        · simp [hk] at hone
        · simp [hk]
    | updateQty key qty hpos =>
      change (if k.key = key then Entry.mk qty.number e.shown else e).shown = e.shown
      split <;> rfl
    | removeItem key => rfl
    | clearCart => rfl

theorem recorded_append (front rest : List Call) :
    recorded (front ++ rest) = rest.foldl record (recorded front) := by
  unfold recorded
  rw [List.foldl_append]

theorem count_recorded (cs : List Call) : (recorded cs).count = cs.length := by
  have hone : ∀ (m : Ledger Ids Entry) (c : Call), (record m c).count = m.count + 1 := by
    intro m c
    cases c with
    | addToCart a =>
      change Ledger.count (match a.shown? with
        | some shown => m.enter a.ids ⟨a.qty.number, shown⟩
            fun e => ⟨e.qty.add a.qty.number, shown⟩
        | none => m.skip) = _
      cases a.shown? <;> rfl
    | _ => rfl
  induction cs using List.reverseRecOn with
  | nil => rfl
  | append_singleton cs c ih =>
    rw [recorded_append, List.length_append, List.foldl_cons, List.foldl_nil, hone, ih]
    rfl

theorem lineFor_stored (cs : List Call) (k : Ids) :
    lineFor (stored cs) k = ((recorded cs).entry k).map fun e => line (k, e.2) :=
  lineFor_eq (shows_stored cs) k

theorem lineFor_none_iff (cs : List Call) (k : Ids) :
    lineFor (stored cs) k = none ↔ (recorded cs).entry k = none := by
  rw [lineFor_stored, Option.map_eq_none_iff]

theorem adds_ne_none {k : Ids} {c : Call} : c.adds k ≠ none ↔
    ∃ a shown, c = .addToCart a ∧ a.ids = k ∧ a.shown? = some shown := by
  cases c with
  | addToCart a =>
    rw [adds_addToCart]
    cases hs : a.shown? with
    | none => simp [hs]
    | some shown =>
      by_cases hk : a.ids = k
      · simp [hk, hs]
      · simp [hk]
  | _ => exact iff_of_false (fun h => h rfl) fun ⟨_, _, h, _⟩ => nomatch h

/-- The number of an entry is the call its pair came in with. -/
theorem enteredAt_iff {k : Ids} {n : ℕ} {cs : List Call} :
    EnteredAt k n cs ↔ ∃ e, (recorded cs).entry k = some (n, e) := by
  constructor
  · rintro ⟨front, c, rest, rfl, rfl, hadds, hnone, hrest⟩
    obtain ⟨a, shown, rfl, hk, hs⟩ := adds_ne_none.mp hadds
    have hnew := entry_added ((lineFor_none_iff front k).mp hnone) hk hs
    rw [count_recorded] at hnew
    rw [recorded_append, List.foldl_cons]
    exact ⟨_, entry_along hnew hrest⟩
  · induction cs using List.reverseRecOn with
    | nil =>
      rintro ⟨e, he⟩
      cases he
    | append_singleton cs c ih =>
      rintro ⟨e, he⟩
      rw [recorded_append, List.foldl_cons, List.foldl_nil] at he
      cases hold : (recorded cs).entry k with
      | none =>
        obtain ⟨a, shown, rfl, hk, hs, rfl⟩ := of_entered hold he
        exact ⟨cs, _, [], rfl, (count_recorded cs).symm, adds_ne_none.mpr ⟨a, shown, rfl, hk, hs⟩,
          (lineFor_none_iff cs k).mpr hold, fun _ h => absurd h List.not_mem_nil⟩
      | some old =>
        by_cases hc : c.Removes k
        · rw [entry_removed hc] at he
          cases he
        · rw [entry_kept hold hc, Option.some.injEq, Prod.mk.injEq] at he
          obtain ⟨front, d, rest, rfl, hn, hadds, hnone, hrest⟩ := ih ⟨old.2, by rw [hold, ← he.1]⟩
          refine ⟨front, d, rest ++ [c], by simp, hn, hadds, hnone, fun x hx => ?_⟩
          rcases List.mem_append.mp hx with hx | hx
          · exact hrest x hx
          · rw [List.mem_singleton.mp hx]
            exact hc

/-- After a call that sets the number of a pair its entry has this number. -/
theorem entry_of_sets {front : List Call} {c : Call} {k : Ids} {base : Count}
    (h : Sets (stored front) c k base) :
    ∃ n e, (record (recorded front) c).entry k = some (n, e) ∧ e.qty = base.number := by
  rcases h with ⟨hadds, hnone⟩ | ⟨hpos, rfl, hline⟩
  · obtain ⟨a, shown, rfl, hk, hs⟩ := adds_ne_none.mp (by rw [hadds]; exact Option.some_ne_none _)
    rw [adds_addToCart, if_pos ⟨hk, by rw [hs]; rfl⟩, Option.some.injEq] at hadds
    refine ⟨_, _, entry_added ((lineFor_none_iff front k).mp hnone) hk hs, ?_⟩
    rw [hadds]
  · rw [ne_eq, lineFor_none_iff] at hline
    obtain ⟨⟨n, e⟩, he⟩ := Option.ne_none_iff_exists'.mp hline
    exact ⟨n, _, entry_kept he id, by rw [Entry.after, if_pos rfl]⟩

/-- After a call that adds a pair its entry shows what the call says. -/
theorem entry_of_adds (front : List Call) {a : Adding} {shown : Shown} (hs : a.shown? = some shown) :
    ∃ n e, (record (recorded front) (.addToCart a)).entry a.ids = some (n, e) ∧
      e.shown = shown := by
  cases hold : (recorded front).entry a.ids with
  | none => exact ⟨_, _, entry_added hold rfl hs, rfl⟩
  | some old =>
    refine ⟨old.1, _, entry_kept hold id, ?_⟩
    rw [after_addToCart, hs]
    dsimp only
    rw [if_pos rfl]

/-- The line is the one of the pair. -/
def Line.IsFor (l : Line) (k : Ids) : Prop :=
  l.key = k.key ∧ l.productId = k.1.number ∧
    l.skuId = (if k.2.number.truthy then some k.2.number else none) ∧ l.is_welfare = .fin 0

/-- What is stored after the calls. -/
structure KeyedMap (cs : List Call) : Prop where
  /-- One line for each pair that is in, in the order they came in. -/
  lines : ∃ es : List (Ids × ℕ), List.Forall₂ (fun l e => l.IsFor e.1) (getCart (stored cs)) es ∧
    (es.map Prod.fst).Nodup ∧ es.Pairwise (fun d e => d.2 < e.2) ∧
    ∀ k n, (k, n) ∈ es ↔ EnteredAt k n cs
  keys : Function.Injective Ids.key
  /-- The sum of what was added since the number was set, exact while it stays within 2^53. -/
  quantity : ∀ front c rest k base, cs = front ++ c :: rest → Sets (stored front) c k base →
    (∀ d ∈ rest, ¬ d.Removes k ∧ ¬ d.Updates k) → ∃ l, lineFor (stored cs) k = some l ∧
      l.qty = (added k rest).foldl (fun sum q => sum.add q.number) base.number ∧
      (base.val + ((added k rest).map fun q => q.val).sum ≤ 2 ^ 53 →
        l.qty = .ofNat (base.val + ((added k rest).map fun q => q.val).sum))
  /-- What the latest call that added the pair says. -/
  shown : ∀ front a rest shown, cs = front ++ .addToCart a :: rest → a.shown? = some shown →
    (∀ d ∈ rest, ¬ d.Removes a.ids ∧ d.adds a.ids = none) →
    ∃ l, lineFor (stored cs) a.ids = some l ∧ (l.title = shown.title ∧ l.skuTitle = shown.skuTitle ∧
      l.cover_url = shown.cover_url ∧ l.price_cent = shown.price_cent)
  /-- A call for other pairs leaves the line as it is. -/
  others : ∀ c k, ¬ c.Removes k → ¬ c.Updates k → c.adds k = none →
    lineFor (perform (stored cs) c) k = lineFor (stored cs) k
  /-- A welfare product is not put in. -/
  welfare : ∀ a w, (a.is_welfare.or (.num (.fin 0))).toNumber = .ok w →
    w.strictEq (.fin 1) = true → perform (stored cs) (.addToCart a) = stored cs

theorem stored_lines (cs : List Call) : ∃ es : List (Ids × ℕ),
    List.Forall₂ (fun l e => l.IsFor e.1) (getCart (stored cs)) es ∧ (es.map Prod.fst).Nodup ∧
      es.Pairwise (fun d e => d.2 < e.2) ∧ ∀ k n, (k, n) ∈ es ↔ EnteredAt k n cs := by
  obtain ⟨xs, hlists, hcart, _⟩ := shows_stored cs
  have hnodup := hlists.nodup
  obtain ⟨es, rfl, hes, hsorted, _⟩ := hlists
  refine ⟨es.map fun e => (e.1, e.2.1), ?_, ?_, ?_, ?_⟩
  · rw [hcart, List.map_map, List.forall₂_map_left_iff, List.forall₂_map_right_iff]
    exact List.forall₂_same.mpr fun e _ => ⟨rfl, rfl, rfl, rfl⟩
  · rw [List.map_map] at hnodup ⊢
    exact hnodup
  · rw [List.pairwise_map]
    exact hsorted
  · intro k n
    rw [enteredAt_iff, List.mem_map]
    constructor
    · rintro ⟨⟨k', n', v⟩, hin, heq⟩
      obtain ⟨rfl, rfl⟩ := Prod.mk.inj heq
      exact ⟨v, (hes _ _ _).mp hin⟩
    · rintro ⟨v, hv⟩
      exact ⟨(k, n, v), (hes _ _ _).mpr hv, rfl⟩

theorem stored_quantity {front rest : List Call} {c : Call} {k : Ids} {base : Count}
    (hsets : Sets (stored front) c k base)
    (hrest : ∀ d ∈ rest, ¬ d.Removes k ∧ ¬ d.Updates k) :
    ∃ l, lineFor (stored (front ++ c :: rest)) k = some l ∧
      l.qty = (added k rest).foldl (fun sum q => sum.add q.number) base.number := by
  obtain ⟨n, e, hentry, hqty⟩ := entry_of_sets hsets
  have hlast := entry_along hentry fun d hd => (hrest d hd).1
  have hsum := qty_after (fun d hd => (hrest d hd).2) e
  rw [hqty] at hsum
  refine ⟨line (k, rest.foldl (Entry.after k) e), ?_, hsum⟩
  rw [lineFor_stored, recorded_append, List.foldl_cons, hlast]
  rfl

/-- **The cart.** After any calls it is a keyed map in the order of entry. -/
theorem keyedMap (cs : List Call) : KeyedMap cs where
  lines := stored_lines cs
  keys := key_injective
  quantity := by
    rintro front c rest k base rfl hsets hrest
    obtain ⟨l, hl, hsum⟩ := stored_quantity hsets hrest
    exact ⟨l, hl, hsum, fun hsmall => hsum.trans (foldl_add hsmall)⟩
  shown := by
    rintro front a rest shown rfl hs hrest
    obtain ⟨n, e, hentry, hshown⟩ := entry_of_adds front hs
    have hlast := entry_along hentry fun d hd => (hrest d hd).1
    have hkept := shown_after (fun d hd => (hrest d hd).2) e
    rw [hshown] at hkept
    refine ⟨line (a.ids, rest.foldl (Entry.after a.ids) e), ?_, ?_⟩
    · rw [lineFor_stored, recorded_append, List.foldl_cons, hlast]
      rfl
    · unfold line
      rw [hkept]
      exact ⟨rfl, rfl, rfl, rfl⟩
  others := by
    intro c k hremoves hupdates hadds
    rw [lineFor_eq (shows_perform (shows_stored cs) c), lineFor_stored]
    cases hold : (recorded cs).entry k with
    | none =>
      cases hnew : (record (recorded cs) c).entry k with
      | none => rfl
      | some e =>
        obtain ⟨a, shown, rfl, hk, hs, _⟩ := of_entered hold hnew
        exact absurd hadds (adds_ne_none.mpr ⟨a, shown, rfl, hk, hs⟩)
    | some e =>
      have hsame : e.2.after k c = e.2 := by
        have hadds' : ∀ d ∈ [c], d.adds k = none := by simpa using hadds
        have hupdates' : ∀ d ∈ [c], ¬ d.Updates k := by simpa using hupdates
        have hshown := shown_after hadds' e.2
        have hqty := qty_after hupdates' e.2
        have hnone : added k [c] = [] := by simp [added, hadds]
        rw [hnone] at hqty
        cases h : e.2.after k c with
        | mk qty shown =>
          rw [List.foldl_cons, List.foldl_nil, h] at hshown hqty
          rw [show qty = e.2.qty from hqty, show shown = e.2.shown from hshown]
      rw [entry_kept hold hremoves, hsame]
  welfare := by
    intro a w hw hone
    rcases addToCart_cases a (stored cs) with ⟨_, hsame⟩ | ⟨shown, hshown, _⟩
    · exact hsame
    · unfold Adding.shown? at hshown
      rw [hw] at hshown
      cases hp : (a.price_cent.or (.num (.fin 0))).toNumber with
      | error e =>
        rw [hp] at hshown
        cases hshown
      | ok price =>
        rw [hp] at hshown
        have hnone := (if_pos hone).symm.trans hshown
        cases hnone

/-- So many units of one product. -/
def unitsOf (n : ℕ) (hpos : 0 < n) (h : n ≤ 2 ^ 53) : Adding where
  productId := ⟨1, isDouble_ofNat (by norm_num)⟩
  skuId := none
  qty := ⟨n, isDouble_ofNat h⟩
  qty_pos := hpos
  title := .str ""
  skuTitle := .str ""
  cover_url := .str ""
  price_cent := .num (.fin 0)
  is_welfare := .num (.fin 0)

def crate : Adding := unitsOf (2 ^ 53) (by norm_num) le_rfl

def piece : Adding := unitsOf 1 (by norm_num) (by norm_num)

/-- 2^53 units and one more stay 2^53. -/
theorem largeSum_rounds : ∃ l,
    lineFor (stored [.addToCart crate, .addToCart piece]) crate.ids = some l ∧
      l.qty ≠ .ofNat (crate.qty.val + piece.qty.val) := by
  have hsets : Sets (stored []) (.addToCart crate) crate.ids crate.qty := Or.inl ⟨rfl, rfl⟩
  have hrest : ∀ d ∈ [Call.addToCart piece], ¬ d.Removes crate.ids ∧ ¬ d.Updates crate.ids := by
    intro d hd
    rw [List.mem_singleton.mp hd]
    exact ⟨id, id⟩
  obtain ⟨l, hl, hsum⟩ := stored_quantity hsets hrest
  refine ⟨l, hl, ?_⟩
  rw [hsum]
  change (JsNum.ofNat (2 ^ 53)).add (.ofNat 1) ≠ .ofNat (2 ^ 53 + 1)
  decide +kernel

end JtfpMall.Miniapp.Cart
