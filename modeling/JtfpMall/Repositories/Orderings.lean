import JtfpMall.Js.Order
import JtfpMall.Repositories.Products

/-!
# The orders of the lists

What the comparators of the lists make of rows typed as their interfaces say: weights that are
numbers and a text for the time of creation. Over such rows each of them is a total
preorder, the lexicographic one of the weights and the time, all descending.
-/

namespace JtfpMall

open JtfpMall.Js
open JtfpMall.Lib

/-- The place of a weight in the order. -/
def weightOf (v : JsVal) : WithBot (WithTop ℚ) :=
  match v with
  | .num n => n.place
  | _ => ⊥

/-- The row has a number under the weight. -/
def Weighs (read : Row → JsVal) (r : Row) : Prop := ∃ n : JsNum, read r = .num n ∧ n.IsDouble

section
variable {read : Row → JsVal} {next : Row → Row → Except JsError JsNum} {a b : Row} {rows : List Row}

theorem weightOf_eq_iff (ha : Weighs read a) (hb : Weighs read b) :
    weightOf (read a) = weightOf (read b) ↔ read a = read b := by
  obtain ⟨m, hm, dm⟩ := ha
  obtain ⟨n, hn, dn⟩ := hb
  rw [hm, hn, JsVal.num.injEq]
  exact JsNum.place_inj dm dn

theorem strictEq_iff (ha : Weighs read a) (hb : Weighs read b) :
    (read b).strictEq (read a) = true ↔ read a = read b := by
  obtain ⟨m, hm, dm⟩ := ha
  obtain ⟨n, hn, dn⟩ := hb
  constructor
  · exact fun h => (JsVal.eq_of_strictEq h).symm
  · intro h
    rw [hm, hn, JsVal.num.injEq] at h
    subst h
    rw [hm, hn]
    cases m with
    | nan => exact dm.elim
    | inf neg => simp [JsVal.strictEq, JsNum.strictEq]
    | fin q => simp [JsVal.strictEq, JsNum.strictEq]

/-- A number that is subtracted puts the heavier row first. -/
theorem mayPrecede_sub (ha : Weighs read a) (hb : Weighs read b) :
    mayPrecede (fun a b => JsVal.sub (read b) (read a)) a b = true ↔
      weightOf (read b) ≤ weightOf (read a) := by
  obtain ⟨m, hm, dm⟩ := ha
  obtain ⟨n, hn, dn⟩ := hb
  have hsub : JsVal.sub (read a) (read b) = .ok (m.sub n) := by
    rw [hm, hn]
    rfl
  unfold mayPrecede
  simp only [hsub]
  rw [hm, hn, bne_iff_ne]
  exact sub_not_neg_iff dm dn

/-- The heavier row goes first, and of two that weigh the same the next criterion decides. -/
theorem mayPrecede_descending (ha : Weighs read a) (hb : Weighs read b) :
    mayPrecede (descending read next) a b = true ↔ weightOf (read b) < weightOf (read a) ∨
      (read a = read b ∧ mayPrecede next a b = true) := by
  have hsub := mayPrecede_sub ha hb
  have hplace := weightOf_eq_iff ha hb
  have hstrict := strictEq_iff hb ha
  unfold mayPrecede at hsub ⊢
  unfold descending
  by_cases heq : read a = read b
  · rw [if_pos (hstrict.mpr heq.symm)]
    have hw := hplace.mpr heq
    simp only [heq, lt_self_iff_false, false_or, true_and]
  · rw [if_neg fun h => heq (hstrict.mp h).symm, hsub]
    have hw : weightOf (read a) ≠ weightOf (read b) := fun h => heq (hplace.mp h)
    simp only [heq, false_and, or_false]
    exact ⟨fun h => lt_of_le_of_ne h hw.symm, le_of_lt⟩

theorem exists_weight_sub (ha : Weighs read a) (hb : Weighs read b) :
    ∃ n, JsVal.sub (read b) (read a) = .ok n := by
  obtain ⟨m, hm, _⟩ := ha
  obtain ⟨n, hn, _⟩ := hb
  rw [hm, hn]
  exact ⟨_, rfl⟩

theorem consistent_sub (h : ∀ r ∈ rows, Weighs read r) :
    Consistent (fun a b => JsVal.sub (read b) (read a)) rows where
  total a ha b hb := exists_weight_sub (h a ha) (h b hb)
  orders := by
    constructor
    · intro a ha b hb
      rw [mayPrecede_sub (h a ha) (h b hb), mayPrecede_sub (h b hb) (h a ha)]
      exact le_total _ _
    · intro a ha b hb c hc hab hbc
      rw [mayPrecede_sub (h a ha) (h b hb)] at hab
      rw [mayPrecede_sub (h b hb) (h c hc)] at hbc
      rw [mayPrecede_sub (h a ha) (h c hc)]
      exact hbc.trans hab

theorem consistent_descending (h : ∀ r ∈ rows, Weighs read r) (hn : Consistent next rows) :
    Consistent (descending read next) rows where
  total a ha b hb := by
    unfold descending
    split
    · exact hn.total a ha b hb
    · exact exists_weight_sub (h a ha) (h b hb)
  orders := by
    constructor
    · intro a ha b hb
      rw [mayPrecede_descending (h a ha) (h b hb), mayPrecede_descending (h b hb) (h a ha)]
      rcases lt_trichotomy (weightOf (read b)) (weightOf (read a)) with hlt | heq | hgt
      · exact Or.inl (Or.inl hlt)
      · have heq' := (weightOf_eq_iff (h b hb) (h a ha)).mp heq
        exact (hn.orders.total a ha b hb).imp (fun hr => Or.inr ⟨heq'.symm, hr⟩)
          fun hr => Or.inr ⟨heq', hr⟩
      · exact Or.inr (Or.inl hgt)
    · intro a ha b hb c hc hab hbc
      rw [mayPrecede_descending (h a ha) (h b hb)] at hab
      rw [mayPrecede_descending (h b hb) (h c hc)] at hbc
      rw [mayPrecede_descending (h a ha) (h c hc)]
      rcases hab with hab | ⟨hab, hab'⟩
      · rcases hbc with hbc | ⟨hbc, _⟩
        · exact Or.inl (hbc.trans hab)
        · exact Or.inl (hbc ▸ hab)
      · rcases hbc with hbc | ⟨hbc, hbc'⟩
        · exact Or.inl (hab ▸ hbc)
        · exact Or.inr ⟨hab.trans hbc, hn.orders.trans a ha b hb c hc hab' hbc'⟩

end

/-- The text the comparators read. -/
def createdText (r : Row) : String :=
  match (r.get "created_at").or (.str "") with
  | .str x => x
  | _ => ""

/-- The time of creation is a text, or there is none. -/
def Dated (r : Row) : Prop := ∃ x, (r.get "created_at").or (.str "") = .str x

section
variable {env : Env} {a b : Row} {rows : List Row}

theorem byCreatedAt_eq (ha : Dated a) (hb : Dated b) : byCreatedAt env a b =
    .ok (match env.localeCompare (createdText b) (createdText a) with
      | .lt => .fin (-1)
      | .eq => .fin 0
      | .gt => .fin 1) := by
  obtain ⟨x, hx⟩ := ha
  obtain ⟨y, hy⟩ := hb
  unfold byCreatedAt createdText
  rw [hx, hy]
  rfl

theorem mayPrecede_byCreatedAt (ha : Dated a) (hb : Dated b) :
    mayPrecede (byCreatedAt env) a b = true ↔
      (env.localeCompare (createdText a) (createdText b)).isGE = true := by
  unfold mayPrecede
  rw [byCreatedAt_eq hb ha]
  cases env.localeCompare (createdText a) (createdText b) <;> simp [JsNum.lt?]

theorem consistent_byCreatedAt [Std.TransCmp env.localeCompare] (h : ∀ r ∈ rows, Dated r) :
    Consistent (byCreatedAt env) rows where
  total a ha b hb := ⟨_, byCreatedAt_eq (h a ha) (h b hb)⟩
  orders := by
    constructor
    · intro a ha b hb
      have hswap : env.localeCompare (createdText a) (createdText b) =
          (env.localeCompare (createdText b) (createdText a)).swap := Std.OrientedCmp.eq_swap
      rw [mayPrecede_byCreatedAt (h a ha) (h b hb), mayPrecede_byCreatedAt (h b hb) (h a ha), hswap]
      cases env.localeCompare (createdText b) (createdText a) <;> simp
    · intro a ha b hb c hc hab hbc
      rw [mayPrecede_byCreatedAt (h a ha) (h b hb)] at hab
      rw [mayPrecede_byCreatedAt (h b hb) (h c hc)] at hbc
      rw [mayPrecede_byCreatedAt (h a ha) (h c hc)]
      exact Std.TransCmp.isGE_trans hab hbc

end

/-- What a list sorts by before the time of creation. -/
def weights : Table → List (Row → JsVal)
  | .products => [fun r => r.get "is_featured", fun r => r.get "sort_order"]
  | .properties => [fun r => (r.get "is_featured").or (.num (.fin 0)),
      fun r => (r.get "sort_order").or (.num (.fin 0))]
  | _ => []

/-- The row can be sorted in its list. -/
structure Sortable (t : Table) (r : Row) : Prop where
  weighs : ∀ read ∈ weights t, Weighs read r
  dated : Dated r

/-- One row may stand before another: by the weights in a row, then by a last criterion. -/
def Ahead (last : Row → Row → Prop) : List (Row → JsVal) → Row → Row → Prop
  | [], a, b => last a b
  | read :: reads, a, b => weightOf (read b) < weightOf (read a) ∨
      (read a = read b ∧ Ahead last reads a b)

section
variable {env : Env} {t : Table} {a b : Row} {rows : List Row}

theorem listOrder_eq (env : Env) (ht : t ≠ .categories) :
    listOrder env t = (weights t).foldr descending (byCreatedAt env) := by
  cases t <;> first | rfl | exact absurd rfl ht

theorem consistent_listOrder [Std.TransCmp env.localeCompare] (ht : t ≠ .categories)
    (h : ∀ r ∈ rows, Sortable t r) : Consistent (listOrder env t) rows := by
  rw [listOrder_eq env ht]
  have hdated : ∀ r ∈ rows, Dated r := fun r hr => (h r hr).dated
  have hweighs : ∀ r ∈ rows, ∀ read ∈ weights t, Weighs read r := fun r hr => (h r hr).weighs
  clear h
  generalize weights t = reads at hweighs ⊢
  induction reads with
  | nil => exact consistent_byCreatedAt hdated
  | cons read reads ih =>
    exact consistent_descending (fun r hr => hweighs r hr read List.mem_cons_self)
      (ih fun r hr read' hread => hweighs r hr read' (List.mem_cons_of_mem read hread))

theorem mayPrecede_listOrder (ht : t ≠ .categories) (ha : Sortable t a) (hb : Sortable t b) :
    mayPrecede (listOrder env t) a b = true ↔
      Ahead (fun a b => (env.localeCompare (createdText a) (createdText b)).isGE = true)
        (weights t) a b := by
  rw [listOrder_eq env ht]
  have hwa := ha.weighs
  have hwb := hb.weighs
  generalize weights t = reads at hwa hwb ⊢
  induction reads with
  | nil => exact mayPrecede_byCreatedAt ha.dated hb.dated
  | cons read reads ih =>
    have hrest := ih (fun r hr => hwa r (List.mem_cons_of_mem read hr))
      fun r hr => hwb r (List.mem_cons_of_mem read hr)
    refine (mayPrecede_descending (hwa read List.mem_cons_self)
      (hwb read List.mem_cons_self)).trans ?_
    exact or_congr_right (and_congr_right fun _ => hrest)

end

end JtfpMall
