import JtfpMall.Js.Coerce
import JtfpMall.Lib.TimSortOrder

/-!
# Sorting and filtering arrays

`Array.prototype.sort` is the stable merge sort of the engine. It calls the comparator with a
later element and an earlier one, and throws what the comparator throws on the pairs that it
is called with. A comparator that answers NaN does not ask for an exchange.
-/

namespace JtfpMall.Js

open JtfpMall.Lib

variable {α : Type}

/-- What the sort takes from a call of the comparator: whether `b` goes before `a`. -/
def goesBefore (cmp : α → α → Except JsError JsNum) (b a : α) : Except JsError Bool := do
  let n ← cmp b a
  return n.lt? (.fin 0) == some true

/-- The comparator does not ask for `b` before `a`. -/
def mayPrecede (cmp : α → α → Except JsError JsNum) (a b : α) : Bool :=
  match cmp b a with
  | .ok n => n.lt? (.fin 0) != some true
  | .error _ => true

/-- `rows.sort(cmp)`. -/
def arraySort (cmp : α → α → Except JsError JsNum) (l : List α) : Except JsError (List α) :=
  TimSort.sort (goesBefore cmp) l

/-- A comparator that throws on no two elements does not make the sort throw. -/
theorem exists_arraySort {cmp : α → α → Except JsError JsNum} {l : List α}
    (h : ∀ a ∈ l, ∀ b ∈ l, ∃ n, cmp a b = .ok n) : ∃ l', arraySort cmp l = .ok l' := by
  refine TimSort.exists_sort fun a ha b hb => ?_
  obtain ⟨n, hn⟩ := h b hb a ha
  rw [goesBefore, hn]
  exact ⟨_, rfl⟩

theorem arraySort_perm {cmp : α → α → Except JsError JsNum} {l l' : List α}
    (h : arraySort cmp l = .ok l') : l'.Perm l :=
  (TimSort.sort_gives (fun _ _ => TimSort.gives_true _) l).of_ok h

theorem goesBefore_eq {cmp : α → α → Except JsError JsNum} {a b : α} (h : ∃ n, cmp b a = .ok n) :
    goesBefore cmp b a = .ok (!mayPrecede cmp a b) := by
  obtain ⟨n, hn⟩ := h
  rw [goesBefore, mayPrecede, hn]
  change Except.ok (n.lt? (.fin 0) == some true) = .ok (!!(n.lt? (.fin 0) == some true))
  rw [Bool.not_not]

/-- An array in which no element is wanted before an earlier one stays as it is. -/
theorem arraySort_eq_self {cmp : α → α → Except JsError JsNum} {l : List α}
    (ht : ∀ a ∈ l, ∀ b ∈ l, ∃ n, cmp a b = .ok n)
    (h : l.Pairwise fun a b => mayPrecede cmp a b = true) : arraySort cmp l = .ok l := by
  refine TimSort.sort_of_sorted (h.imp_of_mem fun {a b} ha hb hab => ?_)
  rw [goesBefore_eq (ht b hb a ha), hab, Bool.not_true]

/-- The comparator orders the elements of `l`: it throws on none of them and is a
total preorder there. -/
structure Consistent (cmp : α → α → Except JsError JsNum) (l : List α) : Prop where
  total : ∀ a ∈ l, ∀ b ∈ l, ∃ n, cmp a b = .ok n
  orders : OrdersOn (fun a b => mayPrecede cmp a b = true) l

theorem Consistent.subset {cmp : α → α → Except JsError JsNum} {l m : List α}
    (h : Consistent cmp l) (hm : ∀ a ∈ m, a ∈ l) : Consistent cmp m where
  total a ha b hb := h.total a (hm a ha) b (hm b hb)
  orders := h.orders.subset hm

theorem Consistent.arraySort_eq {cmp : α → α → Except JsError JsNum} {l : List α}
    (h : Consistent cmp l) :
    arraySort cmp l = .ok (l.insertionSort fun a b => mayPrecede cmp a b = true) := by
  refine TimSort.sort_eq_insertionSort h.orders fun a ha b hb => ?_
  rw [goesBefore_eq (h.total b hb a ha), Bool.decide_eq_true]

/-- `rows.filter(p)` for a predicate that may throw. -/
def filterM (p : α → Except JsError Bool) : List α → Except JsError (List α)
  | [] => .ok []
  | a :: l => do
    let keep ← p a
    let rest ← filterM p l
    return if keep then a :: rest else rest

/-- One filter after another. -/
def filterAll : List (α → Except JsError Bool) → List α → Except JsError (List α)
  | [], l => .ok l
  | p :: ps, l => do
    let kept ← filterM p l
    filterAll ps kept

/-- A predicate that throws on no element filters as its Boolean part does. -/
theorem filterM_eq_filter {p : α → Except JsError Bool} {q : α → Bool} {l : List α}
    (h : ∀ a ∈ l, p a = .ok (q a)) : filterM p l = .ok (l.filter q) := by
  induction l with
  | nil => rfl
  | cons a l ih =>
    rw [filterM, h a List.mem_cons_self, ih fun b hb => h b (List.mem_cons_of_mem a hb)]
    cases hq : q a <;> simp [hq] <;> rfl

theorem mem_of_filterM {p : α → Except JsError Bool} {l m : List α} (h : filterM p l = .ok m) :
    ∀ a ∈ m, a ∈ l ∧ p a = .ok true := by
  induction l generalizing m with
  | nil =>
    cases h
    exact fun a ha => absurd ha List.not_mem_nil
  | cons b l ih =>
    rw [filterM] at h
    cases hb : p b with
    | error e =>
      rw [hb] at h
      cases h
    | ok keep =>
      cases hl : filterM p l with
      | error e =>
        rw [hb, hl] at h
        cases h
      | ok rest =>
        rw [hb, hl] at h
        cases h
        intro a ha
        cases keep with
        | true =>
          rcases List.mem_cons.mp ha with rfl | ha
          · exact ⟨List.mem_cons_self, hb⟩
          · exact ⟨List.mem_cons_of_mem b (ih hl a ha).1, (ih hl a ha).2⟩
        | false => exact ⟨List.mem_cons_of_mem b (ih hl a ha).1, (ih hl a ha).2⟩

/-- Filters that throw on no element keep some of them. -/
theorem exists_filterAll {ps : List (α → Except JsError Bool)} {l : List α}
    (h : ∀ p ∈ ps, ∀ a ∈ l, ∃ b, p a = .ok b) : ∃ m, filterAll ps l = .ok m ∧ m ⊆ l := by
  induction ps generalizing l with
  | nil => exact ⟨l, rfl, List.Subset.refl l⟩
  | cons p ps ih =>
    choose! q hq using h p List.mem_cons_self
    obtain ⟨m, hm, hsub⟩ := ih (l := l.filter q) fun p' hp' a ha =>
      h p' (List.mem_cons_of_mem p hp') a (List.mem_of_mem_filter ha)
    refine ⟨m, ?_, fun a ha => List.mem_of_mem_filter (hsub ha)⟩
    rw [filterAll, filterM_eq_filter hq]
    exact hm

theorem filterM_sublist {p : α → Except JsError Bool} {l m : List α} (h : filterM p l = .ok m) :
    m.Sublist l := by
  induction l generalizing m with
  | nil =>
    cases h
    exact .slnil
  | cons a l ih =>
    rw [filterM] at h
    obtain ⟨keep, _, h⟩ := bind_ok h
    obtain ⟨rest, hrest, h⟩ := bind_ok h
    cases h
    cases keep with
    | true => exact (ih hrest).cons_cons a
    | false => exact (ih hrest).cons a

theorem filterAll_sublist {ps : List (α → Except JsError Bool)} {l m : List α}
    (h : filterAll ps l = .ok m) : m.Sublist l := by
  induction ps generalizing l with
  | nil =>
    cases h
    exact List.Sublist.refl _
  | cons p ps ih =>
    rw [filterAll] at h
    obtain ⟨kept, hkept, h⟩ := bind_ok h
    exact (ih h).trans (filterM_sublist hkept)

/-- Sorting a sorted array changes nothing. -/
theorem arraySort_arraySort {cmp : α → α → Except JsError JsNum} {m l : List α}
    (hc : Consistent cmp l) (hs : arraySort cmp m = .ok l) : arraySort cmp l = .ok l := by
  have hm : Consistent cmp m := hc.subset fun a ha => (arraySort_perm hs).mem_iff.mpr ha
  rw [hm.arraySort_eq, Except.ok.injEq] at hs
  rw [hc.arraySort_eq, ← hs, hm.orders.insertionSort_insertionSort]

section
variable {β : Type} {R : α → β → Prop}

/-- A comparator that agrees on related elements sorts related arrays alike. -/
theorem arraySort_forall₂ {cmp : α → α → Except JsError JsNum}
    {cmp' : β → β → Except JsError JsNum}
    (hc : ∀ a a' b b', R a a' → R b b' → cmp a b = cmp' a' b') {l : List α} {l' : List β}
    (h : List.Forall₂ R l l') : ExceptRel (List.Forall₂ R) (arraySort cmp l) (arraySort cmp' l') :=
  TimSort.sort_forall₂ (fun b b' a a' hb ha => by rw [goesBefore, goesBefore, hc b b' a a' hb ha]) h

theorem filterM_forall₂ {p : α → Except JsError Bool} {q : β → Except JsError Bool}
    (hp : ∀ a b, R a b → p a = q b) {l : List α} {l' : List β} (h : List.Forall₂ R l l') :
    ExceptRel (List.Forall₂ R) (filterM p l) (filterM q l') := by
  induction h with
  | nil => exact .ok .nil
  | cons hab _ ih =>
    rename_i a b l l' _
    rw [filterM, filterM, hp a b hab]
    refine (ExceptRel.refl (q b) fun _ => rfl).bind fun keep keep' hk => ih.bind fun m m' hm => ?_
    subst hk
    cases keep with
    | true => exact .ok (.cons hab hm)
    | false => exact .ok hm

end

end JtfpMall.Js
