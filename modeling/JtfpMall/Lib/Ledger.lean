import Mathlib.Data.List.Nodup
import Mathlib.Data.List.Pairwise
import Mathlib.Logic.Function.Basic

/-!
# Keyed maps that remember when a key came in

Every entry has the number of the change that brought its key in. A list shows such a map when it
has each entry once, in the order of these numbers: changing an entry in its place, adding one at
the end and dropping some keep it so.
-/

namespace JtfpMall.Lib

structure Ledger (κ ν : Type) where
  /-- The changes so far. -/
  count : ℕ
  entry : κ → Option (ℕ × ν)

namespace Ledger

variable {κ ν : Type} [DecidableEq κ]

def empty : Ledger κ ν := ⟨0, fun _ => none⟩

/-- A change that changes nothing. -/
def skip (m : Ledger κ ν) : Ledger κ ν := { m with count := m.count + 1 }

/-- The entry of a key is made from the old one, or is new. -/
def enter (k : κ) (new : ν) (f : ν → ν) (m : Ledger κ ν) : Ledger κ ν :=
  ⟨m.count + 1, Function.update m.entry k (some (match m.entry k with
    | some (n, v) => (n, f v)
    | none => (m.count, new)))⟩

def alter (p : κ → Bool) (f : ν → ν) (m : Ledger κ ν) : Ledger κ ν :=
  ⟨m.count + 1, fun k => if p k then (m.entry k).map fun e => (e.1, f e.2) else m.entry k⟩

def drop (p : κ → Bool) (m : Ledger κ ν) : Ledger κ ν :=
  ⟨m.count + 1, fun k => if p k then none else m.entry k⟩

/-- The list has the entries in the order their keys came in. -/
def Lists (m : Ledger κ ν) (xs : List (κ × ν)) : Prop :=
  ∃ es : List (κ × ℕ × ν), xs = es.map (fun e => (e.1, e.2.2)) ∧
    (∀ k n v, (k, n, v) ∈ es ↔ m.entry k = some (n, v)) ∧
    es.Pairwise (fun d e => d.2.1 < e.2.1) ∧ ∀ e ∈ es, e.2.1 < m.count

section
variable {m : Ledger κ ν} {xs : List (κ × ν)}

omit [DecidableEq κ]

theorem lists_empty : Lists (empty : Ledger κ ν) [] :=
  ⟨[], rfl, fun _ _ _ => iff_of_false List.not_mem_nil (fun h => nomatch h), List.Pairwise.nil,
    fun _ h => absurd h List.not_mem_nil⟩

theorem Lists.mem_iff (h : Lists m xs) {k : κ} {v : ν} :
    (k, v) ∈ xs ↔ ∃ n, m.entry k = some (n, v) := by
  obtain ⟨es, rfl, hes, _, _⟩ := h
  constructor
  · intro hmem
    obtain ⟨⟨k', n, v'⟩, hin, heq⟩ := List.mem_map.mp hmem
    obtain ⟨rfl, rfl⟩ := Prod.mk.inj heq
    exact ⟨n, (hes _ _ _).mp hin⟩
  · rintro ⟨n, hn⟩
    exact List.mem_map.mpr ⟨(k, n, v), (hes _ _ _).mpr hn, rfl⟩

theorem Lists.mem_keys_iff (h : Lists m xs) {k : κ} : k ∈ xs.map Prod.fst ↔ m.entry k ≠ none := by
  rw [List.mem_map]
  constructor
  · rintro ⟨⟨k', v⟩, hin, rfl⟩
    obtain ⟨n, hn⟩ := h.mem_iff.mp hin
    rw [hn]
    exact Option.some_ne_none _
  · intro hne
    obtain ⟨⟨n, v⟩, hn⟩ := Option.ne_none_iff_exists'.mp hne
    exact ⟨(k, v), h.mem_iff.mpr ⟨n, hn⟩, rfl⟩

/-- No key is shown twice. -/
theorem Lists.nodup (h : Lists m xs) : (xs.map Prod.fst).Nodup := by
  obtain ⟨es, rfl, hes, hsorted, _⟩ := h
  rw [List.map_map, List.Nodup, List.pairwise_map]
  refine hsorted.imp_of_mem ?_
  rintro ⟨k, n, v⟩ ⟨k', n', v'⟩ hd he hlt heq
  obtain rfl : k = k' := heq
  have hsame := ((hes _ _ _).mp hd).symm.trans ((hes _ _ _).mp he)
  rw [Option.some.injEq, Prod.mk.injEq] at hsame
  exact absurd hlt (by rw [hsame.1]; exact Nat.lt_irrefl _)

/-- The order of the list is the order in which the keys came in. -/
theorem Lists.ordered (h : Lists m xs) : xs.Pairwise fun p q => ∀ n v n' v',
    m.entry p.1 = some (n, v) → m.entry q.1 = some (n', v') → n < n' := by
  obtain ⟨es, rfl, hes, hsorted, _⟩ := h
  rw [List.pairwise_map]
  refine hsorted.imp_of_mem ?_
  rintro ⟨k, n, v⟩ ⟨k', n', v'⟩ hd he hlt i w j w' hi hj
  have hk := ((hes _ _ _).mp hd).symm.trans hi
  have hk' := ((hes _ _ _).mp he).symm.trans hj
  rw [Option.some.injEq, Prod.mk.injEq] at hk hk'
  rw [← hk.1, ← hk'.1]
  exact hlt

theorem Lists.skip (h : Lists m xs) : Lists m.skip xs := by
  obtain ⟨es, hxs, hes, hsorted, hlt⟩ := h
  exact ⟨es, hxs, hes, hsorted, fun e he => Nat.lt_succ_of_lt (hlt e he)⟩

theorem Lists.alter (h : Lists m xs) (p : κ → Bool) (f : ν → ν) :
    Lists (m.alter p f) (xs.map fun e => if p e.1 then (e.1, f e.2) else e) := by
  obtain ⟨es, rfl, hes, hsorted, hlt⟩ := h
  have hfst : ∀ e : κ × ℕ × ν, (if p e.1 then (e.1, e.2.1, f e.2.2) else e).1 = e.1 ∧
      (if p e.1 then (e.1, e.2.1, f e.2.2) else e).2.1 = e.2.1 := by
    intro e
    split <;> exact ⟨rfl, rfl⟩
  refine ⟨es.map fun e => if p e.1 then (e.1, e.2.1, f e.2.2) else e, ?_, ?_, ?_, ?_⟩
  · rw [List.map_map, List.map_map]
    refine List.map_congr_left fun e _ => ?_
    simp only [Function.comp_apply]
    split <;> rfl
  · intro k n v
    simp only [List.mem_map]
    constructor
    · rintro ⟨e, he, heq⟩
      have hk := (hfst e).1
      rw [heq] at hk
      obtain ⟨k', n', v'⟩ := e
      obtain rfl : k = k' := hk
      have hentry := (hes _ _ _).mp he
      change (if p k then _ else _) = _
      by_cases hp : p k
      · rw [if_pos hp] at heq ⊢
        rw [hentry]
        simp only [Prod.mk.injEq, true_and] at heq
        rw [Option.map_some, heq.1, heq.2]
      · rw [if_neg hp] at heq ⊢
        rw [hentry]
        simp only [Prod.mk.injEq, true_and] at heq
        rw [heq.1, heq.2]
    · intro hentry
      change (if p k then _ else _) = _ at hentry
      by_cases hp : p k
      · rw [if_pos hp, Option.map_eq_some_iff] at hentry
        obtain ⟨⟨n', v'⟩, hold, heq⟩ := hentry
        obtain ⟨rfl, rfl⟩ := Prod.mk.inj heq
        exact ⟨(k, n', v'), (hes _ _ _).mpr hold, if_pos hp⟩
      · rw [if_neg hp] at hentry
        exact ⟨(k, n, v), (hes _ _ _).mpr hentry, if_neg hp⟩
  · rw [List.pairwise_map]
    refine hsorted.imp fun {d e} hde => ?_
    rw [(hfst d).2, (hfst e).2]
    exact hde
  · intro e he
    obtain ⟨d, hd, rfl⟩ := List.mem_map.mp he
    rw [(hfst d).2]
    exact Nat.lt_succ_of_lt (hlt d hd)

theorem Lists.drop (h : Lists m xs) (p : κ → Bool) :
    Lists (m.drop p) (xs.filter fun e => !p e.1) := by
  obtain ⟨es, rfl, hes, hsorted, hlt⟩ := h
  refine ⟨es.filter fun e => !p e.1, ?_, ?_, hsorted.sublist List.filter_sublist, ?_⟩
  · rw [List.filter_map]
    rfl
  · intro k n v
    rw [List.mem_filter, hes]
    change _ ↔ (if p k then _ else _) = _
    cases hp : p k <;> simp
  · exact fun e he => Nat.lt_succ_of_lt (hlt e (List.mem_of_mem_filter he))

end

section
variable {m : Ledger κ ν} {xs : List (κ × ν)}

/-- Where the key is there its entry changes in its place. -/
theorem Lists.enter_old (h : Lists m xs) {k : κ} {n : ℕ} {v : ν} (hk : m.entry k = some (n, v))
    (new : ν) (f : ν → ν) :
    Lists (m.enter k new f) (xs.map fun e => if e.1 = k then (e.1, f e.2) else e) := by
  have hsame : m.enter k new f = m.alter (fun x => decide (x = k)) f := by
    unfold enter Ledger.alter
    congr 1
    funext x
    by_cases hx : x = k
    · subst hx
      rw [Function.update_self, hk, if_pos (decide_eq_true rfl)]
      rfl
    · rw [Function.update_of_ne hx, if_neg (by simpa using hx)]
  rw [hsame]
  simpa only [decide_eq_true_eq] using h.alter (fun x => decide (x = k)) f

/-- Where it is not the entry comes last. -/
theorem Lists.enter_new (h : Lists m xs) {k : κ} (hk : m.entry k = none) (new : ν) (f : ν → ν) :
    Lists (m.enter k new f) (xs ++ [(k, new)]) := by
  obtain ⟨es, rfl, hes, hsorted, hlt⟩ := h
  have hentry : ∀ x, (m.enter k new f).entry x =
      if x = k then some (m.count, new) else m.entry x := by
    intro x
    unfold enter
    dsimp only
    by_cases hx : x = k
    · subst hx
      rw [Function.update_self, hk, if_pos rfl]
    · rw [Function.update_of_ne hx, if_neg hx]
  refine ⟨es ++ [(k, m.count, new)], by rw [List.map_append]; rfl, ?_, ?_, ?_⟩
  · intro x n v
    rw [List.mem_append, List.mem_singleton, hes, hentry]
    by_cases hx : x = k
    · subst hx
      rw [hk, if_pos rfl]
      simp [eq_comm]
    · rw [if_neg hx]
      simp [hx]
  · rw [List.pairwise_append]
    refine ⟨hsorted, List.pairwise_singleton _ _, fun d hd e he => ?_⟩
    rw [List.mem_singleton.mp he]
    exact hlt d hd
  · intro e he
    rcases List.mem_append.mp he with he | he
    · exact Nat.lt_succ_of_lt (hlt e he)
    · rw [List.mem_singleton.mp he]
      exact Nat.lt_succ_self _

end

end Ledger

end JtfpMall.Lib
