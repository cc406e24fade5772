import JtfpMall.Lib.StableSort
import JtfpMall.Lib.TimSortRelated
import Mathlib.Order.Defs.Unbundled

/-!
# The order a sort brings about

`T` is the order that the sorted list is to have; a comparator judges two elements by it when it
says of the later one whether it goes first. The searches then find the one place where an element
belongs, and a merge never puts an element out before one that `T` wants first.
-/

namespace JtfpMall.Lib.TimSort

variable {ε α : Type}

theorem Returns.and {Q Q' : α → Prop} {E : ε → Prop} {m : Except ε α} (h : Returns Q m)
    (h' : Gives E Q' m) : Returns (fun a => Q a ∧ Q' a) m := by
  cases h with
  | ok ha => exact .ok ⟨ha, h'.of_ok rfl⟩
  | error he => exact he.elim

theorem gives_true (m : Except ε α) : Gives (fun _ => True) (fun _ => True) m := by
  cases m with
  | ok a => exact .ok trivial
  | error e => exact .error trivial

theorem bisect_eq {past : Nat → Except ε Bool} {fuel lo hi c : Nat} (hlo : lo ≤ c) (hhi : c ≤ hi)
    (hf : hi - lo ≤ fuel) (h : ∀ i, lo ≤ i → i < hi → past i = .ok (decide (c ≤ i))) :
    bisect past fuel lo hi = .ok c := by
  induction fuel generalizing lo hi with
  | zero =>
    have hc : lo = c := by omega
    rw [bisect, hc]
  | succ fuel ih =>
    rw [bisect]
    by_cases hlt : lo < hi
    · rw [if_pos hlt]
      dsimp only
      rw [h _ (by omega) (by omega)]
      change (if decide (c ≤ lo + (hi - lo) / 2) = true then _ else _) = _
      by_cases hc : c ≤ lo + (hi - lo) / 2
      · rw [if_pos (decide_eq_true hc)]
        exact ih hlo hc (by omega) fun i h1 h2 => h i h1 (by omega)
      · rw [if_neg (by simpa using hc)]
        exact ih (by omega) hhi (by omega) fun i h1 h2 => h i (by omega) h2
    · have hc : lo = c := by omega
      rw [if_neg hlt, hc]

/-- The walk goes on below `m`: it ends with an offset it has passed below `m` and one from `m`
on. -/
theorem leap_returns {goesOn : Nat → Except ε Bool} {limit fuel last offset m : Nat}
    (hm : m ≤ limit) (hlast : last < m) (hf : limit - offset ≤ fuel) (hpos : 0 < offset)
    (h : ∀ d, d < limit → goesOn d = .ok (decide (d < m))) :
    Returns (fun r => r.1 < m ∧ m ≤ r.2 ∧ r.2 ≤ limit) (leap goesOn limit fuel last offset) := by
  induction fuel generalizing last offset with
  | zero => exact .ok ⟨hlast, by omega, Nat.min_le_right _ _⟩
  | succ fuel ih =>
    rw [leap]
    by_cases hlt : offset < limit
    · rw [if_pos hlt, h offset hlt]
      change Returns _ (if decide (offset < m) = true then _ else _)
      by_cases ho : offset < m
      · rw [if_pos (decide_eq_true ho)]
        exact ih ho (by omega) (by omega)
      · rw [if_neg (by simpa using ho)]
        exact .ok ⟨hlast, Nat.le_of_not_lt ho, Nat.le_of_lt hlt⟩
    · rw [if_neg hlt]
      exact .ok ⟨hlast, by omega, Nat.min_le_right _ _⟩

theorem gallop_eq {past : Nat → Except ε Bool} {length hint c : Nat} (hc : c ≤ length)
    (hhint : hint < length) (h : ∀ i, i < length → past i = .ok (decide (c ≤ i))) :
    gallop past length hint = .ok c := by
  rw [gallop, h hint hhint]
  change (if decide (c ≤ hint) = true then _ else _) = _
  by_cases hpast : c ≤ hint
  · rw [if_pos (decide_eq_true hpast)]
    have hleap : Returns (fun r => r.1 < hint + 1 - c ∧ hint + 1 - c ≤ r.2 ∧ r.2 ≤ hint + 1)
        (leap (fun d => past (hint - d)) (hint + 1) (hint + 1) 0 1) := by
      refine leap_returns (by omega) (by omega) (by omega) Nat.one_pos fun d hd => ?_
      rw [h _ (by omega)]
      congr 2
      exact propext (by omega)
    obtain ⟨⟨last, offset⟩, hr, h1, h2, h3⟩ := hleap.exists_ok
    dsimp only at h1 h2 h3
    rw [hr]
    exact bisect_eq (by omega) (by omega) (by omega) fun i _ hi => h i (by omega)
  · rw [if_neg (by simpa using hpast)]
    have hleap : Returns (fun r => r.1 < c - hint ∧ c - hint ≤ r.2 ∧ r.2 ≤ length - hint)
        (leap (fun d => do return !(← past (hint + d))) (length - hint) (length - hint) 0 1) := by
      refine leap_returns (by omega) (by omega) (by omega) Nat.one_pos fun d hd => ?_
      rw [h _ (by omega)]
      change Except.ok (!decide (c ≤ hint + d)) = _
      rw [← decide_not]
      congr 2
      exact propext (by omega)
    obtain ⟨⟨last, offset⟩, hr, h1, h2, h3⟩ := hleap.exists_ok
    dsimp only at h1 h2 h3
    rw [hr]
    exact bisect_eq (by omega) (by omega) (by omega) fun i _ hi => h i (by omega)

/-- The comparator, asked whether `b` goes before `a`, answers as `T` has it. -/
def Judged (below : α → α → Except ε Bool) (T : α → α → Prop) (b a : α) : Prop :=
  (below b a = .ok true ∧ T b a) ∨ (below b a = .ok false ∧ T a b)

/-- The key belongs behind the first `n` elements. -/
structure Splits (T : α → α → Prop) (key : α) (l : List α) (n : Nat) : Prop where
  le : n ≤ l.length
  front : ∀ a ∈ l.take n, T a key
  back : ∀ a ∈ l.drop n, T key a

section
variable {T : α → α → Prop} [IsStrictOrder α T] {below : α → α → Except ε Bool}

/-- Answers that place the key in a list in order change over at one index. -/
theorem exists_splits {key : α} {l : List α} (hl : l.Pairwise T) {past : Nat → Except ε Bool}
    (h : ∀ i (hi : i < l.length),
      (past i = .ok true ∧ T key l[i]) ∨ (past i = .ok false ∧ T l[i] key)) :
    ∃ c, Splits T key l c ∧ ∀ i, i < l.length → past i = .ok (decide (c ≤ i)) := by
  induction l generalizing past with
  | nil =>
    exact ⟨0, ⟨Nat.le_refl _, by simp, by simp⟩, fun i hi => absurd hi (Nat.not_lt_zero i)⟩
  | cons a l ih =>
    rw [List.pairwise_cons] at hl
    obtain ⟨_, hfirst⟩ | ⟨hpast, hfirst⟩ := h 0 (Nat.succ_pos _)
    · have hall : ∀ b ∈ a :: l, T key b := by
        intro b hb
        obtain rfl | hb := List.mem_cons.mp hb
        · exact hfirst
        · exact trans_of T hfirst (hl.1 b hb)
      refine ⟨0, ⟨Nat.zero_le _, by simp, hall⟩, fun i hi => ?_⟩
      obtain ⟨hpast, _⟩ | ⟨_, hlate⟩ := h i hi
      · rw [hpast, decide_eq_true (Nat.zero_le i)]
      · exact absurd (trans_of T (hall _ (List.getElem_mem hi)) hlate) (irrefl_of T key)
    · obtain ⟨c, hc, hrest⟩ := @ih hl.2 (fun i => past (i + 1)) fun i hi =>
        h (i + 1) (Nat.succ_lt_succ hi)
      refine ⟨c + 1, ⟨Nat.succ_le_succ hc.le, ?_, hc.back⟩, fun i hi => ?_⟩
      · rw [List.take_succ_cons]
        intro b hb
        obtain rfl | hb := List.mem_cons.mp hb
        · exact hfirst
        · exact hc.front b hb
      · cases i with
        | zero => rw [hpast, decide_eq_false (Nat.not_succ_le_zero c)]
        | succ i =>
          rw [hrest i (Nat.lt_of_succ_lt_succ hi)]
          congr 2
          exact propext Nat.succ_le_succ_iff.symm

theorem exists_keyBelow_splits {key : α} {l : List α} (hl : l.Pairwise T)
    (h : ∀ a ∈ l, Judged below T key a) : ∃ c, Splits T key l c ∧
      ∀ i, i < l.length → keyBelow below key l i = .ok (decide (c ≤ i)) := by
  refine exists_splits hl fun i hi => ?_
  rw [keyBelow, List.getElem?_eq_getElem hi]
  exact h _ (List.getElem_mem hi)

theorem exists_notBelowKey_splits {key : α} {l : List α} (hl : l.Pairwise T)
    (h : ∀ a ∈ l, Judged below T a key) : ∃ c, Splits T key l c ∧
      ∀ i, i < l.length → notBelowKey below key l i = .ok (decide (c ≤ i)) := by
  refine exists_splits hl fun i hi => ?_
  rw [notBelowKey, List.getElem?_eq_getElem hi]
  dsimp only
  obtain ⟨hb, hT⟩ | ⟨hb, hT⟩ := h _ (List.getElem_mem hi)
  · rw [hb]
    exact Or.inr ⟨rfl, hT⟩
  · rw [hb]
    exact Or.inl ⟨rfl, hT⟩

theorem gallopRight_returns {key : α} {l : List α} {hint : Nat} (hl : l.Pairwise T)
    (h : ∀ a ∈ l, Judged below T key a) (hhint : hint < l.length) :
    Returns (Splits T key l) (gallopRight below key l hint) := by
  obtain ⟨c, hc, hpast⟩ := exists_keyBelow_splits hl h
  rw [gallopRight, gallop_eq hc.le hhint hpast]
  exact .ok hc

theorem gallopLeft_returns {key : α} {l : List α} {hint : Nat} (hl : l.Pairwise T)
    (h : ∀ a ∈ l, Judged below T a key) (hhint : hint < l.length) :
    Returns (Splits T key l) (gallopLeft below key l hint) := by
  obtain ⟨c, hc, hpast⟩ := exists_notBelowKey_splits hl h
  rw [gallopLeft, gallop_eq hc.le hhint hpast]
  exact .ok hc

/-- A run in order, in front of elements that the comparator can still place. -/
structure Ready (below : α → α → Except ε Bool) (T : α → α → Prop) (run l : List α) : Prop where
  sorted : run.Pairwise T
  ahead : ∀ a ∈ run, ∀ b ∈ l, Judged below T b a
  rest : l.Pairwise fun a b => Judged below T b a

theorem pairwise_insert {key : α} {l : List α} {n : Nat} (hl : l.Pairwise T)
    (h : Splits T key l n) : (l.take n ++ key :: l.drop n).Pairwise T := by
  rw [List.pairwise_append, List.pairwise_cons]
  refine ⟨hl.sublist (List.take_sublist n l), ⟨h.back, hl.sublist (List.drop_sublist n l)⟩, ?_⟩
  intro a ha b hb
  obtain rfl | hb := List.mem_cons.mp hb
  · exact h.front a ha
  · exact trans_of T (h.front a ha) (h.back b hb)

theorem insertUpTo_returns (minRun : Nat) {run l : List α} (h : Ready below T run l) :
    Returns (fun r => Ready below T r.1 r.2) (insertUpTo below minRun run l) := by
  induction l generalizing run with
  | nil => exact .ok h
  | cons p rest ih =>
    rw [insertUpTo]
    split
    · have hrest := List.pairwise_cons.mp h.rest
      obtain ⟨c, hc, hpast⟩ := exists_keyBelow_splits h.sorted fun a ha =>
        h.ahead a ha p List.mem_cons_self
      have hk : bisect (keyBelow below p run) run.length 0 run.length = .ok c :=
        bisect_eq (Nat.zero_le c) hc.le (Nat.sub_le _ _) fun i _ hi => hpast i hi
      rw [hk]
      refine ih ⟨pairwise_insert h.sorted hc, fun a ha b hb => ?_, hrest.2⟩
      have hp : a ∈ p :: run := by
        have hperm : (run.take c ++ p :: run.drop c).Perm (p :: run) :=
          List.perm_middle.trans (.cons p (by rw [List.take_append_drop]))
        exact hperm.mem_iff.mp ha
      obtain rfl | ha := List.mem_cons.mp hp
      · exact hrest.1 b hb
      · exact h.ahead a ha b (List.mem_cons_of_mem p hb)
    · exact .ok h

/-- Elements that each stand to the one before as the first two do make up a run. -/
theorem extendRun_returns (descending : Bool) {prev : α} {l : List α}
    (h : (prev :: l).Pairwise fun a b => Judged below T b a) :
    Returns (fun r => (prev :: r.1).Pairwise fun a b => if descending then T b a else T a b)
      (extendRun below descending prev l) := by
  induction l generalizing prev with
  | nil => exact .ok (List.pairwise_singleton _ _)
  | cons c rest ih =>
    have hpairs := List.pairwise_cons.mp h
    rw [extendRun]
    have hc := hpairs.1 c List.mem_cons_self
    obtain ⟨b, hb, hT⟩ : ∃ b, below c prev = .ok b ∧ if b then T c prev else T prev c :=
      hc.elim (fun hc => ⟨true, hc⟩) fun hc => ⟨false, hc⟩
    rw [hb]
    change Returns _ (if b = descending then _ else _)
    by_cases hdesc : b = descending
    · rw [if_pos hdesc]
      subst hdesc
      refine (ih hpairs.2).bind fun r hr => .ok (List.pairwise_cons.mpr ⟨fun a ha => ?_, hr⟩)
      have hr := List.pairwise_cons.mp hr
      obtain rfl | ha := List.mem_cons.mp ha
      · exact hT
      · have hac := hr.1 a ha
        cases b with
        | true => exact trans_of T hac hT
        | false => exact trans_of T hT hac
    · rw [if_neg hdesc]
      exact .ok (List.pairwise_singleton _ _)

theorem countRun_returns {l : List α} (h : l.Pairwise fun a b => Judged below T b a) :
    Returns (fun r => r.1.Pairwise T) (countRun below l) := by
  rcases l with _ | ⟨a, _ | ⟨b, rest⟩⟩
  · exact .ok .nil
  · exact .ok (List.pairwise_singleton _ _)
  · have hpairs := List.pairwise_cons.mp h
    rw [countRun]
    obtain ⟨d, hd, hT⟩ : ∃ d, below b a = .ok d ∧ if d then T b a else T a b :=
      (hpairs.1 b List.mem_cons_self).elim (fun hc => ⟨true, hc⟩) fun hc => ⟨false, hc⟩
    rw [hd]
    refine (extendRun_returns d hpairs.2).bind fun r hr => .ok ?_
    have hrun : (a :: b :: r.1).Pairwise fun a b => if d then T b a else T a b := by
      refine List.pairwise_cons.mpr ⟨fun c hc => ?_, hr⟩
      obtain rfl | hc := List.mem_cons.mp hc
      · exact hT
      · have hbc := (List.pairwise_cons.mp hr).1 c hc
        cases d with
        | true => exact trans_of T hbc hT
        | false => exact trans_of T hT hbc
    cases d with
    | true => exact List.pairwise_reverse.mpr hrun
    | false => exact hrun

/-- The sides answer in the order `P` in which the merged elements are to come out. -/
structure Sides.Orders (S : Sides ε α) (P : α → α → Prop) (InX InY : α → Prop) : Prop where
  wins {x y : α} (hx : InX x) (hy : InY y) :
    (S.wins y x = .ok true ∧ P y x) ∨ (S.wins y x = .ok false ∧ P x y)
  countX {y x : α} {X : List α} (hy : InY y) (hX : ∀ a ∈ x :: X, InX a)
    (hs : (x :: X).Pairwise P) : Returns (Splits P y (x :: X)) (S.countX y (x :: X))
  countY {x y : α} {Y : List α} (hx : InX x) (hY : ∀ a ∈ y :: Y, InY a)
    (hs : (y :: Y).Pairwise P) : Returns (Splits P x (y :: Y)) (S.countY x (y :: Y))

end

/-- Both sides are in order, and the last element of `X` is the last of all. -/
structure Mergeable (P : α → α → Prop) (InX InY : α → Prop) (X Y : List α) : Prop where
  inX : ∀ a ∈ X, InX a
  inY : ∀ a ∈ Y, InY a
  sortedX : X.Pairwise P
  sortedY : Y.Pairwise P
  last : ∀ x ∈ X.getLast?, ∀ y ∈ Y, P y x

/-- The element in front of `l` comes before those of `m`. -/
def Leads (P : α → α → Prop) (l m : List α) : Prop := ∀ a ∈ l.head?, ∀ b ∈ m, P a b

/-- An element is taken uncounted only when it comes before all of the other side. -/
def Task.Sound (P : α → α → Prop) (xFirst : Bool) (X Y : List α) : Task → Prop
  | .takeSecond _ => if xFirst then Leads P Y X else Leads P X Y
  | .takeFirst _ _ => if xFirst then Leads P X Y else Leads P Y X
  | _ => True

/-- What the turn puts out comes before all that it leaves, and the next task is sound. -/
structure Turn.Right (P : α → α → Prop) (xFirst : Bool) (X Y : List α) (t : Turn) : Prop where
  beforeX : ∀ a ∈ t.out X Y, ∀ b ∈ t.restX X, P a b
  beforeY : ∀ a ∈ t.out X Y, ∀ b ∈ t.restY Y, P a b
  sound : t.task.Sound P xFirst (t.restX X) (t.restY Y)

section
variable {P : α → α → Prop} {xFirst : Bool} {X Y : List α} {n minGallop : Nat} {task : Task}

theorem before_drop {l : List α} (hl : l.Pairwise P) (n : Nat) :
    ∀ a ∈ l.take n, ∀ b ∈ l.drop n, P a b := by
  rw [← List.take_append_drop n l] at hl
  exact (List.pairwise_append.mp hl).2.2

theorem rightX (hX : X.Pairwise P) (hn : ∀ a ∈ X.take n, ∀ b ∈ Y, P a b)
    (ht : task.Sound P xFirst (X.drop n) Y) :
    Turn.Right P xFirst X Y ⟨true, n, task, minGallop⟩ := ⟨before_drop hX n, hn, ht⟩

theorem rightY (hY : Y.Pairwise P) (hn : ∀ a ∈ Y.take n, ∀ b ∈ X, P a b)
    (ht : task.Sound P xFirst X (Y.drop n)) :
    Turn.Right P xFirst X Y ⟨false, n, task, minGallop⟩ := ⟨hn, before_drop hY n, ht⟩

theorem leads_of_splits {y : α} {l m : List α} (h : Splits P y l n) :
    Leads P (y :: m) (l.drop n) := by
  intro a ha b hb
  obtain rfl : y = a := Option.some.inj ha
  exact h.back b hb

theorem before_of_leads {x : α} {m : List α} (h : Leads P (x :: X) m) :
    ∀ a ∈ (x :: X).take 1, ∀ b ∈ m, P a b := by
  intro a ha b hb
  rw [List.take_succ_cons, List.take_zero, List.mem_singleton] at ha
  exact h a (by rw [ha]; rfl) b hb

variable [IsStrictOrder α P]

theorem before_of_head {y : α} (hY : (y :: Y).Pairwise P) {l : List α} (hl : ∀ a ∈ l, P a y) :
    ∀ a ∈ l, ∀ b ∈ y :: Y, P a b := by
  intro a ha b hb
  obtain rfl | hb := List.mem_cons.mp hb
  · exact hl a ha
  · exact trans_of P (hl a ha) ((List.pairwise_cons.mp hY).1 b hb)

theorem before_of_rel {x y : α} (hY : (y :: Y).Pairwise P) (hxy : P x y) :
    ∀ a ∈ (x :: X).take 1, ∀ b ∈ y :: Y, P a b := by
  refine before_of_head hY fun a ha => ?_
  rw [List.take_succ_cons, List.take_zero, List.mem_singleton] at ha
  rwa [ha]

end

section
variable {P : α → α → Prop} [IsStrictOrder α P] {InX InY : α → Prop} {S : Sides ε α}
  (hS : S.Orders P InX InY)
include hS

theorem turn_returns (minGallop : Nat) {x y : α} {X Y : List α}
    (h : Mergeable P InX InY (x :: X) (y :: Y)) {task : Task}
    (ht : task.Sound P S.xFirst (x :: X) (y :: Y)) :
    Returns (Turn.Right P S.xFirst (x :: X) (y :: Y))
      (S.turn minGallop x y (x :: X) (y :: Y) task) := by
  have hx := h.inX x List.mem_cons_self
  have hy := h.inY y List.mem_cons_self
  have hcountX := hS.countX hy h.inX h.sortedX
  have hcountY := hS.countY hx h.inY h.sortedY
  cases task with
  | compare winsX winsY =>
    have hsound : ∀ (p : Prop) [Decidable p] (winsX winsY : Nat) (X Y : List α),
        (if p then Task.countFirst else .compare winsX winsY).Sound P S.xFirst X Y := by
      intro p _ winsX winsY X Y
      split <;> exact trivial
    rw [Sides.turn]
    obtain ⟨hw, hyx⟩ | ⟨hw, hxy⟩ := hS.wins hx hy
    · rw [hw]
      exact .ok (rightY h.sortedY (before_of_rel h.sortedX hyx) (hsound _ _ _ _ _))
    · rw [hw]
      exact .ok (rightX h.sortedX (before_of_rel h.sortedY hxy) (hsound _ _ _ _ _))
  | countFirst =>
    rw [Sides.turn]
    cases hfirst : S.xFirst with
    | true =>
      exact hcountX.bind fun n hn =>
        .ok (rightX h.sortedX (before_of_head h.sortedY hn.front) (leads_of_splits hn))
    | false =>
      exact hcountY.bind fun n hn =>
        .ok (rightY h.sortedY (before_of_head h.sortedX hn.front) (leads_of_splits hn))
  | takeSecond n =>
    rw [Sides.turn]
    cases hfirst : S.xFirst with
    | true =>
      rw [hfirst] at ht
      exact .ok (rightY h.sortedY (before_of_leads ht) trivial)
    | false =>
      rw [hfirst] at ht
      exact .ok (rightX h.sortedX (before_of_leads ht) trivial)
  | countSecond n =>
    rw [Sides.turn]
    cases hfirst : S.xFirst with
    | true =>
      exact hcountY.bind fun n hn =>
        .ok (rightY h.sortedY (before_of_head h.sortedX hn.front) (leads_of_splits hn))
    | false =>
      exact hcountX.bind fun n hn =>
        .ok (rightX h.sortedX (before_of_head h.sortedY hn.front) (leads_of_splits hn))
  | takeFirst n m =>
    have hturn : ∀ (task : Task) (minGallop : Nat),
        (∀ X Y : List α, task.Sound P S.xFirst X Y) →
          Turn.Right P S.xFirst (x :: X) (y :: Y) ⟨S.xFirst, 1, task, minGallop⟩ := by
      intro task minGallop htask
      cases hfirst : S.xFirst with
      | true =>
        rw [hfirst] at ht htask
        exact rightX h.sortedX (before_of_leads ht) (htask _ _)
      | false =>
        rw [hfirst] at ht htask
        exact rightY h.sortedY (before_of_leads ht) (htask _ _)
    rw [Sides.turn]
    split
    · exact .ok (hturn _ _ fun _ _ => trivial)
    · exact .ok (hturn _ _ fun _ _ => trivial)

omit hS [IsStrictOrder α P] in
theorem Mergeable.rest {X Y : List α} (h : Mergeable P InX InY X Y) (t : Turn) :
    Mergeable P InX InY (t.restX X) (t.restY Y) := by
  obtain ⟨fromX, n, task, minGallop⟩ := t
  cases fromX with
  | true =>
    refine ⟨fun a ha => h.inX a (List.mem_of_mem_drop ha), h.inY,
      h.sortedX.sublist (List.drop_sublist n X), h.sortedY, fun x hx => h.last x ?_⟩
    change x ∈ (X.drop n).getLast? at hx
    rw [List.getLast?_drop] at hx
    split at hx
    · cases hx
    · exact hx
  | false =>
    exact ⟨h.inX, fun a ha => h.inY a (List.mem_of_mem_drop ha), h.sortedX,
      h.sortedY.sublist (List.drop_sublist n Y),
      fun x hx y hy => h.last x hx y (List.mem_of_mem_drop hy)⟩

omit hS [IsStrictOrder α P] in
theorem Mergeable.pairwise_settled {X Y l : List α} (h : Mergeable P InX InY X Y)
    (hl : settled X Y = some l) : l.Pairwise P := by
  unfold settled at hl
  split at hl
  · cases hl
    exact h.sortedX
  · cases hl
    exact h.sortedY
  · cases hl
    refine List.pairwise_append.mpr ⟨h.sortedY, List.pairwise_singleton _ _, fun y hy x hx => ?_⟩
    rw [List.mem_singleton] at hx
    rw [hx]
    exact h.last _ rfl y hy
  · cases hl

omit hS [IsStrictOrder α P] in
/-- What comes out in a turn goes in front of what comes out of the rest. -/
theorem Turn.Right.pairwise_append {X Y l : List α} (h : Mergeable P InX InY X Y) {t : Turn}
    (ht : t.Right P S.xFirst X Y) (hl : l.Pairwise P) (hperm : l.Perm (t.restX X ++ t.restY Y)) :
    (t.out X Y ++ l).Pairwise P := by
  refine List.pairwise_append.mpr ⟨?_, hl, fun a ha b hb => ?_⟩
  · unfold Turn.out
    split
    · exact h.sortedX.sublist (List.take_sublist _ _)
    · exact h.sortedY.sublist (List.take_sublist _ _)
  · rcases List.mem_append.mp (hperm.mem_iff.mp hb) with hb | hb
    · exact ht.beforeX a ha b hb
    · exact ht.beforeY a ha b hb

omit hS [IsStrictOrder α P] in
theorem Sides.asks (S : Sides ε α) : S.Asks fun _ => True where
  wins _ _ := gives_true _
  countX _ _ := gives_true _
  countY _ _ := gives_true _

theorem mergeLoop_returns {fuel : Nat} {task : Task} (minGallop : Nat) {X Y : List α}
    (h : Mergeable P InX InY X Y) (ht : task.Sound P S.xFirst X Y) (hn : settled X Y = none)
    (hf : 2 * (X.length + Y.length) + task.cost ≤ fuel) :
    Returns (fun r => r.1.Pairwise P) (mergeLoop S fuel task minGallop X Y) := by
  induction fuel generalizing task minGallop X Y with
  | zero =>
    have hX := List.length_pos_of_ne_nil (ne_nil_of_settled hn).1
    omega
  | succ fuel ih =>
    obtain ⟨x, X, rfl⟩ := List.exists_cons_of_ne_nil (ne_nil_of_settled hn).1
    obtain ⟨y, Y, rfl⟩ := List.exists_cons_of_ne_nil (ne_nil_of_settled hn).2
    rw [mergeLoop]
    refine ((turn_returns hS minGallop h ht).and
      (turn_gives S.asks minGallop x y _ _ task)).bind fun t ht => ?_
    have hrest := h.rest t
    split
    · rename_i l hl
      exact .ok (ht.1.pairwise_append h (hrest.pairwise_settled hl) (perm_of_settled hl))
    · rename_i hnone
      have hleft := Turn.length_rest (List.length_pos_of_ne_nil (ne_nil_of_settled hnone).1)
        (List.length_pos_of_ne_nil (ne_nil_of_settled hnone).2)
      have hfuel : 2 * ((t.restX (x :: X)).length + (t.restY (y :: Y)).length) + t.task.cost ≤
          fuel := by omega
      refine ((ih t.minGallop hrest ht.1.sound hnone hfuel).and
        (mergeLoop_gives S.asks t.minGallop hnone hfuel)).bind fun r hr => .ok ?_
      exact ht.1.pairwise_append h hr.1 hr.2

theorem merge_returns (minGallop : Nat) {X Y : List α} (h : Mergeable P InX InY X Y)
    (hlead : Leads P Y X) : Returns (fun r => r.1.Pairwise P) (S.merge minGallop X Y) := by
  cases Y with
  | nil => exact .ok h.sortedX
  | cons y Y =>
    have hY := List.pairwise_cons.mp h.sortedY
    have hrest : Mergeable P InX InY X Y :=
      ⟨h.inX, fun a ha => h.inY a (List.mem_cons_of_mem y ha), h.sortedX, hY.2,
        fun x hx b hb => h.last x hx b (List.mem_cons_of_mem y hb)⟩
    have hcons : ∀ l : List α, l.Pairwise P → l.Perm (X ++ Y) → (y :: l).Pairwise P := by
      intro l hl hperm
      refine List.pairwise_cons.mpr ⟨fun a ha => ?_, hl⟩
      rcases List.mem_append.mp (hperm.mem_iff.mp ha) with ha | ha
      · exact hlead y rfl a ha
      · exact hY.1 a ha
    rw [Sides.merge]
    split
    · rename_i l hl
      exact .ok (hcons l (hrest.pairwise_settled hl) (perm_of_settled hl))
    · rename_i hn
      have hsound : (Task.compare 0 0).Sound P S.xFirst X Y := trivial
      have hloop : Returns (fun r => r.1.Pairwise P ∧ r.1.Perm (X ++ Y))
          (mergeLoop S (2 * (X.length + Y.length)) (.compare 0 0) minGallop X Y) :=
        (mergeLoop_returns hS minGallop hrest hsound hn (Nat.le_refl _)).and
          (mergeLoop_gives S.asks minGallop hn (Nat.le_refl _))
      exact hloop.bind fun r hr => .ok (hcons r.1 hr.1 hr.2)

end

section
variable {T : α → α → Prop} [IsStrictOrder α T] {below : α → α → Except ε Bool}

theorem lowSides_orders {A B : List α} (h : ∀ a ∈ A, ∀ b ∈ B, Judged below T b a) :
    (lowSides below).Orders T (· ∈ A) (· ∈ B) where
  wins hx hy := h _ hx _ hy
  countX {y _ X} hy hX hs :=
    gallopRight_returns hs (fun a ha => h a (hX a ha) y hy) (Nat.succ_pos X.length)
  countY {x _ Y} hx hY hs :=
    gallopLeft_returns hs (fun b hb => h x hx b (hY b hb)) (Nat.succ_pos Y.length)

omit [IsStrictOrder α T] in
/-- Seen from the other end the key goes in front of the others. -/
theorem Splits.of_reverse {key : α} {l : List α} {n : Nat} (h : Splits T key l.reverse n) :
    Splits (Function.swap T) key l (l.length - n) := by
  refine ⟨Nat.sub_le _ _, fun a ha => h.back a ?_, fun a ha => h.front a ?_⟩
  · rw [List.drop_reverse, List.mem_reverse]
    exact ha
  · rw [List.take_reverse, List.mem_reverse]
    exact ha

theorem highSides_orders {A B : List α} (h : ∀ a ∈ A, ∀ b ∈ B, Judged below T b a) :
    (highSides below).Orders (Function.swap T) (· ∈ B) (· ∈ A) where
  wins hx hy := h _ hy _ hx
  countX {y x X} hy hX hs := by
    have hcount : Returns (Splits T y (x :: X).reverse)
        (gallopLeft below y (x :: X).reverse ((x :: X).length - 1)) := by
      refine gallopLeft_returns (List.pairwise_reverse.mpr hs) (fun b hb => ?_) ?_
      · exact h y hy b (hX b (List.mem_reverse.mp hb))
      · rw [List.length_reverse, List.length_cons]
        omega
    exact hcount.bind fun n hn => .ok hn.of_reverse
  countY {x y Y} hx hY hs := by
    have hcount : Returns (Splits T x (y :: Y).reverse)
        (gallopRight below x (y :: Y).reverse ((y :: Y).length - 1)) := by
      refine gallopRight_returns (List.pairwise_reverse.mpr hs) (fun a ha => ?_) ?_
      · exact h a (hY a (List.mem_reverse.mp ha)) x hx
      · rw [List.length_reverse, List.length_cons]
        omega
    exact hcount.bind fun n hn => .ok hn.of_reverse

theorem mergeMiddle_returns (minGallop : Nat) {A B : List α} (hA : A.Pairwise T)
    (hB : B.Pairwise T) (h : ∀ a ∈ A, ∀ b ∈ B, Judged below T b a) (hlead : Leads T B A)
    (hlast : ∀ a ∈ A.getLast?, ∀ b ∈ B, T b a) :
    Returns (fun r => r.1.Pairwise T) (mergeMiddle below minGallop A B) := by
  unfold mergeMiddle
  split
  · exact merge_returns (lowSides_orders h) minGallop
      ⟨fun _ ha => ha, fun _ hb => hb, hA, hB, hlast⟩ hlead
  · have hback : Mergeable (Function.swap T) (· ∈ B) (· ∈ A) B.reverse A.reverse := by
      refine ⟨fun _ hb => List.mem_reverse.mp hb, fun _ ha => List.mem_reverse.mp ha,
        List.pairwise_reverse.mpr hB, List.pairwise_reverse.mpr hA, fun b hb a ha => ?_⟩
      rw [List.getLast?_reverse] at hb
      exact hlead b hb a (List.mem_reverse.mp ha)
    have hfirst : Leads (Function.swap T) A.reverse B.reverse := by
      intro a ha b hb
      rw [List.head?_reverse] at ha
      exact hlast a ha b (List.mem_reverse.mp hb)
    exact (merge_returns (highSides_orders h) minGallop hback hfirst).bind fun r hr =>
      .ok (List.pairwise_reverse.mpr hr)

theorem mergeRuns_returns (minGallop : Nat) {A B : List α} (hA : A.Pairwise T)
    (hB : B.Pairwise T) (hne : A ≠ []) (h : ∀ a ∈ A, ∀ b ∈ B, Judged below T b a) :
    Returns (fun r => r.1.Pairwise T) (mergeRuns below minGallop A B) := by
  cases B with
  | nil => exact .ok hA
  | cons b B =>
    unfold mergeRuns
    refine (gallopRight_returns hA (fun a ha => h a ha b List.mem_cons_self)
      (List.length_pos_of_ne_nil hne)).bind fun k hk => ?_
    have hfront := before_of_head hB hk.front
    split
    · rename_i hnone
      have hall : A.take k = A := by
        rw [← List.append_nil (A.take k), ← List.getLast?_eq_none_iff.mp hnone,
          List.take_append_drop]
      rw [hall] at hfront
      exact .ok (List.pairwise_append.mpr ⟨hA, hB, hfront⟩)
    · rename_i a hlast
      have ha := List.mem_of_mem_drop (List.mem_of_getLast? hlast)
      refine (gallopLeft_returns hB (fun b hb => h a ha b hb)
        (Nat.lt_succ_self B.length)).bind fun n hn => ?_
      have hdrop := hA.sublist (List.drop_sublist k A)
      have htake := hB.sublist (List.take_sublist n (b :: B))
      have hmiddle : Returns (fun r => r.1.Pairwise T ∧
          r.1.Perm (A.drop k ++ (b :: B).take n))
          (mergeMiddle below minGallop (A.drop k) ((b :: B).take n)) := by
        refine (mergeMiddle_returns minGallop hdrop htake (fun a ha b hb => h a
          (List.mem_of_mem_drop ha) b (List.mem_of_mem_take hb)) ?_ fun c hc d hd => ?_).and
            (mergeMiddle_gives (fun _ _ => gives_true _) minGallop _ _)
        · intro c hc d hd
          obtain rfl : b = c := by
            cases n with
            | zero => cases hc
            | succ n => exact Option.some.inj hc
          exact hk.back d hd
        · obtain rfl : a = c := Option.some.inj (hlast.symm.trans hc)
          exact hn.front d hd
      refine hmiddle.bind fun r hr => .ok ?_
      -- the last of the earlier run goes in front of what the later run keeps
      have hend : ∀ c ∈ A.drop k, ∀ d ∈ (b :: B).drop n, T c d := by
        obtain ⟨init, hinit⟩ := List.getLast?_eq_some_iff.mp hlast
        intro c hc d hd
        rw [hinit] at hc hdrop
        rcases List.mem_append.mp hc with hc | hc
        · exact trans_of T ((List.pairwise_append.mp hdrop).2.2 c hc a List.mem_cons_self)
            (hn.back d hd)
        · rw [List.mem_singleton] at hc
          rw [hc]
          exact hn.back d hd
      rw [List.append_assoc]
      refine List.pairwise_append.mpr ⟨hA.sublist (List.take_sublist k A),
        List.pairwise_append.mpr ⟨hr.1, hB.sublist (List.drop_sublist n _), fun c hc d hd => ?_⟩,
        fun c hc d hd => ?_⟩
      · rcases List.mem_append.mp (hr.2.mem_iff.mp hc) with hc | hc
        · exact hend c hc d hd
        · exact before_drop hB n c hc d hd
      · rcases List.mem_append.mp hd with hd | hd
        · rcases List.mem_append.mp (hr.2.mem_iff.mp hd) with hd | hd
          · exact before_drop hA k c hc d hd
          · exact hfront c hc d (List.mem_of_mem_take hd)
        · exact hfront c hc d (List.mem_of_mem_drop hd)

end

/-- The runs found so far, the latest first: each is in order, and the comparator judges its
elements against all earlier ones. -/
inductive Stacked (below : α → α → Except ε Bool) (T : α → α → Prop) : List (List α) → Prop where
  | nil : Stacked below T []
  | cons {run : List α} {runs : List (List α)} (hne : run ≠ []) (hsorted : run.Pairwise T)
    (hlater : ∀ a ∈ runs.flatten, ∀ b ∈ run, Judged below T b a)
    (hruns : Stacked below T runs) : Stacked below T (run :: runs)

section
variable {T : α → α → Prop} [IsStrictOrder α T] {below : α → α → Except ε Bool}

theorem mergeTop_returns (minGallop : Nat) {Z Y : List α} {rest : List (List α)}
    (h : Stacked below T (Z :: Y :: rest)) :
    Returns (fun r => Stacked below T (r.1 :: rest) ∧ r.1.Perm (Y ++ Z))
      (mergeRuns below minGallop Y Z) := by
  cases h with
  | cons hZ hsortZ hlaterZ hrest =>
    cases hrest with
    | cons hY hsortY hlaterY hrest =>
      have hYZ : ∀ a ∈ Y, ∀ b ∈ Z, Judged below T b a := fun a ha =>
        hlaterZ a (List.mem_flatten_of_mem List.mem_cons_self ha)
      refine ((mergeRuns_returns minGallop hsortY hsortZ hY hYZ).and
        (mergeRuns_gives (fun _ _ => gives_true _) minGallop Y Z)).mono fun r hr => ⟨?_, hr.2⟩
      refine .cons (fun hnil => ?_) hr.1 (fun a ha b hb => ?_) hrest
      · have hlength := hr.2.length_eq
        rw [hnil, List.length_append] at hlength
        have hpos := List.length_pos_of_ne_nil hY
        rw [List.length_nil] at hlength
        omega
      · rcases List.mem_append.mp (hr.2.mem_iff.mp hb) with hb | hb
        · exact hlaterY a ha b hb
        · refine hlaterZ a ?_ b hb
          rw [List.flatten_cons]
          exact List.mem_append_right Y ha

theorem mergeAt_returns (minGallop : Nat) (spot : Spot) {runs : List (List α)}
    (h : Stacked below T runs) :
    Returns (fun r => Stacked below T r.1) (mergeAt below minGallop spot runs) := by
  unfold mergeAt
  split
  · rename_i Z Y X rest
    cases h with
    | cons hZ hsortZ hlaterZ hrest =>
      refine (mergeTop_returns minGallop hrest).bind fun r hr => .ok ?_
      refine .cons hZ hsortZ (fun a ha => hlaterZ a ?_) hr.1
      have hperm : (r.1 :: rest).flatten.Perm (Y :: X :: rest).flatten := by
        rw [List.flatten_cons, List.flatten_cons, List.flatten_cons, ← List.append_assoc]
        exact (hr.2.trans List.perm_append_comm).append_right _
      exact hperm.mem_iff.mp ha
  · exact (mergeTop_returns minGallop h).bind fun r hr => .ok hr.1
  · exact .ok h

theorem mergeWhile_returns (spot : List (List α) → Option Spot) (fuel minGallop : Nat)
    {runs : List (List α)} (h : Stacked below T runs) :
    Returns (fun r => Stacked below T r.1) (mergeWhile below spot fuel minGallop runs) := by
  induction fuel generalizing minGallop runs with
  | zero => exact .ok h
  | succ fuel ih =>
    rw [mergeWhile]
    split
    · exact .ok h
    · exact (mergeAt_returns minGallop _ h).bind fun r hr => ih r.2 hr

theorem collectRuns_returns {minRun fuel : Nat} (minGallop : Nat) {runs : List (List α)}
    {l : List α} (hf : l.length ≤ fuel) (h : Stacked below T runs)
    (hrest : ∀ a ∈ runs.flatten, ∀ b ∈ l, Judged below T b a)
    (hl : l.Pairwise fun a b => Judged below T b a) :
    Returns (fun r => Stacked below T r.1) (collectRuns below minRun fuel minGallop runs l) := by
  have htrue : ∀ b a, Gives (fun _ => True) (fun _ => True) (below b a) := fun _ _ => gives_true _
  induction fuel generalizing minGallop runs l with
  | zero =>
    rw [List.eq_nil_of_length_eq_zero (Nat.le_zero.mp hf), collectRuns]
    exact .ok h
  | succ fuel ih =>
    cases l with
    | nil =>
      rw [collectRuns]
      exact .ok h
    | cons a l =>
      rw [collectRuns]
      refine ((countRun_returns hl).and (countRun_gives htrue a l)).bind fun r hr => ?_
      obtain ⟨hsorted, ⟨first, hfirst, happend⟩, hne⟩ := hr
      rw [← happend] at hl hrest hf
      have hparts := List.pairwise_append.mp hl
      have hready : Ready below T r.1 r.2 :=
        ⟨hsorted, fun a ha => hparts.2.2 a (hfirst.mem_iff.mp ha), hparts.2.1⟩
      refine ((insertUpTo_returns minRun hready).and
        (insertUpTo_gives htrue minRun r.1 r.2)).bind fun q hq => ?_
      obtain ⟨hrun, hperm, hlength⟩ := hq
      have hmem : ∀ b, b ∈ q.1 ++ q.2 → b ∈ first ++ r.2 := fun b hb =>
        (hperm.trans (hfirst.append_right r.2)).mem_iff.mp hb
      have hnew : Stacked below T (q.1 :: runs) := by
        refine .cons (fun hnil => ?_) hrun.sorted (fun a ha b hb => ?_) h
        · have hpos := List.length_pos_of_ne_nil hne
          rw [hnil, List.length_nil] at hlength
          omega
        · exact hrest a ha b (hmem b (List.mem_append_left q.2 hb))
      refine ((mergeWhile_returns collapseSpot (runs.length + 1) minGallop hnew).and
        (mergeWhile_gives htrue collapseSpot _ minGallop _)).bind fun s hs => ?_
      refine ih s.2 ?_ hs.1 (fun a ha b hb => ?_) hrun.rest
      · have htotal := hperm.length_eq
        have hpos := List.length_pos_of_ne_nil hne
        have hsame := hfirst.length_eq
        simp only [List.length_append] at htotal hf
        omega
      · have ha := hs.2.mem_iff.mp ha
        rw [List.flatten_cons] at ha
        rcases List.mem_append.mp ha with ha | ha
        · exact hrun.ahead a ha b hb
        · exact hrest a ha b (hmem b (List.mem_append_right q.1 hb))

/-- The last merges leave one run. -/
theorem mergeWhile_forceSpot_returns {fuel : Nat} (minGallop : Nat) {runs : List (List α)}
    (hf : runs.length ≤ fuel) (h : Stacked below T runs) :
    Returns (fun r => r.1.flatten.Pairwise T) (mergeWhile below forceSpot fuel minGallop runs) := by
  induction fuel generalizing minGallop runs with
  | zero =>
    rw [List.eq_nil_of_length_eq_zero (Nat.le_zero.mp hf)]
    exact .ok .nil
  | succ fuel ih =>
    rw [mergeWhile]
    cases hspot : forceSpot runs with
    | none =>
      refine .ok ?_
      cases h with
      | nil => exact .nil
      | cons hne hsorted hlater hruns =>
        cases hruns with
        | nil => rwa [List.flatten_cons, List.flatten_nil, List.append_nil]
        | cons _ _ _ hruns => cases hruns <;> cases hspot
    | some spot =>
      have hlength : Gives (fun _ => True) (fun r => r.1.length < runs.length)
          (mergeAt below minGallop spot runs) := by
        have hmerge : ∀ Y Z : List α, Gives (fun _ => True) (fun _ => True)
            (mergeRuns below minGallop Y Z) := fun _ _ => gives_true _
        rcases runs with _ | ⟨Z, _ | ⟨Y, rest⟩⟩
        · cases hspot
        · cases hspot
        · cases spot with
          | top => exact (hmerge Y Z).bind fun _ _ => .ok (Nat.lt_succ_self _)
          | under =>
            cases rest with
            | nil => cases hspot
            | cons X rest => exact (hmerge X Y).bind fun _ _ => .ok (Nat.lt_succ_self _)
      exact ((mergeAt_returns minGallop spot h).and hlength).bind fun r hr =>
        ih r.2 (by omega) hr.1

/-- A comparator that judges every element against the earlier ones by `T` brings the list into
that order. -/
theorem sort_returns {l : List α} (h : l.Pairwise fun a b => Judged below T b a) :
    Returns (fun l' => l'.Pairwise T) (sort below l) := by
  unfold sort
  split
  · rename_i hlength
    rcases l with _ | ⟨a, _ | ⟨b, l⟩⟩
    · exact .ok .nil
    · exact .ok (List.pairwise_singleton _ _)
    · exact absurd hlength (by simp)
  · exact (collectRuns_returns threshold (Nat.le_refl _) .nil (by simp) h).bind fun r hr =>
      (mergeWhile_forceSpot_returns r.2 (Nat.le_refl _) hr).bind fun q hq => .ok hq

end

/-- Where the comparator judges the elements, taken with their places, by `T`, the sort brings
them into the order that `T` has them in. -/
theorem sort_eq_of_places {below : α → α → Except ε Bool} {l : List α}
    {T : α × Nat → α × Nat → Prop} [IsStrictOrder (α × Nat) T] {tags : List (α × Nat)}
    (h : l.zipIdx.Pairwise fun t u => Judged (fun u t => below u.1 t.1) T u t)
    (hp : tags.Perm l.zipIdx) (hs : tags.Pairwise T) : sort below l = .ok (tags.map Prod.fst) := by
  obtain ⟨tags', htags, hsorted⟩ := (sort_returns h).exists_ok
  have hperm : tags'.Perm l.zipIdx := (sort_gives (fun _ _ => gives_true _) l.zipIdx).of_ok htags
  have heq : tags' = tags :=
    (hperm.trans hp.symm).eq_of_pairwise
      (fun t u _ _ htu hut => absurd (trans_of T htu hut) (irrefl_of T t)) hsorted hs
  have hrel : List.Forall₂ (fun (t : α × Nat) a => t.1 = a) l.zipIdx l := by
    have hfst : List.Forall₂ (fun (t : α × Nat) a => t.1 = a) l.zipIdx (l.zipIdx.map Prod.fst) :=
      List.forall₂_map_right_iff.mpr (List.forall₂_same.mpr fun _ _ => rfl)
    rwa [List.zipIdx_map_fst] at hfst
  have hboth : ExceptRel (List.Forall₂ fun (t : α × Nat) a => t.1 = a)
      (sort (fun u t : α × Nat => below u.1 t.1) l.zipIdx) (sort below l) :=
    sort_forall₂ (fun u b t a hu ht => by rw [hu, ht]) hrel
  rw [htags, heq] at hboth
  revert hboth
  generalize sort below l = result
  intro hboth
  cases hboth with
  | ok hsort => rw [← eq_of_forall₂_eq (List.forall₂_map_left_iff.mpr hsort)]

theorem pairwise_places (l : List α) : l.zipIdx.Pairwise fun t u => t.2 < u.2 := by
  rw [← List.pairwise_map (f := Prod.snd), List.zipIdx_map_snd]
  exact List.pairwise_lt_range'

/-- A list in which no element goes before an earlier one stays as it is. -/
theorem sort_of_sorted {below : α → α → Except ε Bool} {l : List α}
    (h : l.Pairwise fun a b => below b a = .ok false) : sort below l = .ok l := by
  have hstrict : IsStrictOrder (α × Nat) fun t u => t.2 < u.2 :=
    { irrefl := fun t => Nat.lt_irrefl t.2, trans := fun _ _ _ => Nat.lt_trans }
  have hbelow : l.zipIdx.Pairwise fun t u => below u.1 t.1 = .ok false := by
    rw [← List.zipIdx_map_fst 0 l, List.pairwise_map] at h
    exact h
  have hsort := sort_eq_of_places (T := fun t u : α × Nat => t.2 < u.2)
    ((hbelow.and (pairwise_places l)).imp fun htu => Or.inr htu) (.refl _) (pairwise_places l)
  rwa [List.zipIdx_map_fst] at hsort

/-- Elements by the order, and by their places where they tie. -/
theorem isStrictOrder_places {r : α → α → Prop} (htr : ∀ a b c, r a b → r b c → r a c) :
    IsStrictOrder (α × Nat) fun s t => r s.1 t.1 ∧ (r t.1 s.1 → s.2 < t.2) where
  irrefl _ h := Nat.lt_irrefl _ (h.2 h.1)
  trans _ _ _ hst htu :=
    ⟨htr _ _ _ hst.1 htu.1, fun hus =>
      Nat.lt_trans (hst.2 (htr _ _ _ htu.1 hus)) (htu.2 (htr _ _ _ hus hst.1))⟩

/-- A comparator that answers by a total preorder sorts as stable insertion does. -/
theorem sort_eq_insertionSort {r : α → α → Prop} [DecidableRel r]
    {below : α → α → Except ε Bool} {l : List α} (hr : OrdersOn r l)
    (h : ∀ a ∈ l, ∀ b ∈ l, below b a = .ok (!decide (r a b))) :
    sort below l = .ok (l.insertionSort r) := by
  classical
  obtain ⟨s, htot, htr, hs⟩ := hr.exists_order
  rw [insertionSort_congr r hs]
  have hstrict := isStrictOrder_places htr
  have hmem : ∀ t ∈ l.zipIdx, t.1 ∈ l := fun t ht => List.fst_mem_of_mem_zipIdx ht
  have hjudged : l.zipIdx.Pairwise fun t u =>
      Judged (fun u t => below u.1 t.1) (fun t u => s t.1 u.1 ∧ (s u.1 t.1 → t.2 < u.2)) u t := by
    refine (pairwise_places l).imp_of_mem fun {t u} ht hu hlt => ?_
    have hbelow := h t.1 (hmem t ht) u.1 (hmem u hu)
    by_cases htu : r t.1 u.1
    · rw [decide_eq_true htu] at hbelow
      exact Or.inr ⟨hbelow, (hs _ (hmem t ht) _ (hmem u hu)).mp htu, fun _ => hlt⟩
    · rw [decide_eq_false htu] at hbelow
      have hnot : ¬ s t.1 u.1 := fun hst => htu ((hs _ (hmem t ht) _ (hmem u hu)).mpr hst)
      exact Or.inl ⟨hbelow, (htot _ _).resolve_left hnot, fun hst => absurd hst hnot⟩
  have hsort := sort_eq_of_places hjudged (List.perm_insertionSort (fun t u => s t.1 u.1) _)
    (pairwise_insertionSort_stable (fun t u => s t.1 u.1) (fun _ _ => htot _ _)
      (fun _ _ _ => htr _ _ _) (pairwise_places l))
  rw [hsort, List.map_insertionSort (fun t u : α × Nat => s t.1 u.1) s Prod.fst _
    fun _ _ _ _ => Iff.rfl, List.zipIdx_map_fst]

end JtfpMall.Lib.TimSort
