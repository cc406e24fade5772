import JtfpMall.Lib.Relational

/-!
# Timsort

The merge sort that finds the runs already in a list, as `Array.prototype.sort` carries it
out: which comparisons are made, and in what order, is part of it, because a comparator may
throw on some pairs and not on others. `below b a` asks whether `b` goes before `a`, and it is
only ever asked of a later element and an earlier one.

A loop without fuel left would lose elements, so `sort_gives` also says that there is always
enough of it.
-/

namespace JtfpMall.Lib.TimSort

variable {ε α : Type}

/-- The first index from `lo` on that is past the cut, found by halving. -/
def bisect (past : Nat → Except ε Bool) : Nat → Nat → Nat → Except ε Nat
  | 0, lo, _ => .ok lo
  | fuel + 1, lo, hi =>
    if lo < hi then do
      let mid := lo + (hi - lo) / 2
      if ← past mid then bisect past fuel lo mid else bisect past fuel (mid + 1) hi
    else .ok lo

/-- Offsets 1, 3, 7 and so on: the last one at which the walk went on, and where it ended. -/
def leap (goesOn : Nat → Except ε Bool) (limit : Nat) : Nat → Nat → Nat → Except ε (Nat × Nat)
  | 0, last, offset => .ok (last, min offset limit)
  | fuel + 1, last, offset =>
    if offset < limit then do
      if ← goesOn offset then leap goesOn limit fuel offset (2 * offset + 1)
      else return (last, offset)
    else .ok (last, min offset limit)

/-- The first index past the cut, looked for from `hint` in growing leaps. -/
def gallop (past : Nat → Except ε Bool) (length hint : Nat) : Except ε Nat := do
  if ← past hint then
    let (last, offset) ← leap (fun d => past (hint - d)) (hint + 1) (hint + 1) 0 1
    bisect past (hint + 1) (hint + 1 - offset) (hint - last)
  else
    let goesOn := fun d => do return !(← past (hint + d))
    let (last, offset) ← leap goesOn (length - hint) (length - hint) 0 1
    bisect past (length - hint) (hint + last + 1) (hint + offset)

section
variable (below : α → α → Except ε Bool)

/-- The key goes before the element at the index. -/
def keyBelow (key : α) (l : List α) (i : Nat) : Except ε Bool :=
  match l[i]? with
  | some a => below key a
  | none => .ok true

/-- The element at the index does not go before the key. -/
def notBelowKey (key : α) (l : List α) (i : Nat) : Except ε Bool :=
  match l[i]? with
  | some a => do return !(← below a key)
  | none => .ok true

/-- Where the key goes behind the elements it ties with. -/
def gallopRight (key : α) (l : List α) (hint : Nat) : Except ε Nat :=
  gallop (keyBelow below key l) l.length hint

/-- Where the key goes in front of the elements it ties with. -/
def gallopLeft (key : α) (l : List α) (hint : Nat) : Except ε Nat :=
  gallop (notBelowKey below key l) l.length hint

/-- The elements that go on as the run began, and the others. -/
def extendRun (descending : Bool) (prev : α) : List α → Except ε (List α × List α)
  | [] => .ok ([], [])
  | c :: rest => do
    if (← below c prev) = descending then
      let (run, rest) ← extendRun descending c rest
      return (c :: run, rest)
    else return ([], c :: rest)

/-- The run at the front of a list; one that falls is turned round. -/
def countRun : List α → Except ε (List α × List α)
  | a :: b :: rest => do
    let descending ← below b a
    let (run, rest) ← extendRun below descending b rest
    return (if descending then (a :: b :: run).reverse else a :: b :: run, rest)
  | l => .ok (l, [])

/-- A short run takes the next elements in, each at its place. -/
def insertUpTo (minRun : Nat) : List α → List α → Except ε (List α × List α)
  | run, [] => .ok (run, [])
  | run, p :: rest =>
    if run.length < minRun then do
      let k ← bisect (keyBelow below p run) run.length 0 run.length
      insertUpTo minRun (run.take k ++ p :: run.drop k) rest
    else .ok (run, p :: rest)

end

/-- What the merge does next: compare the two elements in front; or, galloping, count those of
the side it counts first, take one of the other, count the other and take one of the first. -/
inductive Task where
  | compare (winsX winsY : Nat)
  | countFirst
  | takeSecond (n : Nat)
  | countSecond (n : Nat)
  | takeFirst (n m : Nat)

/-- Two runs to merge, in the order in which they are used up: `X` lies in the temporary array
and its last element comes out last. -/
structure Sides (ε α : Type) where
  /-- The element of `Y` comes out before the one of `X`. -/
  wins : α → α → Except ε Bool
  /-- How many of `X` come out before the element of `Y`. -/
  countX : α → List α → Except ε Nat
  countY : α → List α → Except ε Nat
  xFirst : Bool

/-- How many elements come out of which side, and what is next if the merge goes on. -/
structure Turn where
  fromX : Bool
  count : Nat
  task : Task
  minGallop : Nat

/-- Seven elements in a row from one side make galloping worthwhile. -/
def threshold : Nat := 7

def Sides.countSide (S : Sides ε α) (fromX : Bool) (x y : α) (X Y : List α) : Except ε Nat :=
  if fromX then S.countX y X else S.countY x Y

/-- One turn of the merge, with `x` and `y` in front. -/
def Sides.turn (S : Sides ε α) (minGallop : Nat) (x y : α) (X Y : List α) : Task → Except ε Turn
  | .compare winsX winsY => do
    if ← S.wins y x then
      return ⟨false, 1, if minGallop ≤ winsY + 1 then .countFirst else .compare 0 (winsY + 1),
        minGallop⟩
    else
      return ⟨true, 1, if minGallop ≤ winsX + 1 then .countFirst else .compare (winsX + 1) 0,
        minGallop⟩
  | .countFirst => do
    let n ← S.countSide S.xFirst x y X Y
    return ⟨S.xFirst, n, .takeSecond n, minGallop⟩
  | .takeSecond n => .ok ⟨!S.xFirst, 1, .countSecond n, minGallop⟩
  | .countSecond n => do
    let m ← S.countSide (!S.xFirst) x y X Y
    return ⟨!S.xFirst, m, .takeFirst n m, minGallop⟩
  | .takeFirst n m =>
    if threshold ≤ n ∨ threshold ≤ m then .ok ⟨S.xFirst, 1, .countFirst, max 1 (minGallop - 1)⟩
    else .ok ⟨S.xFirst, 1, .compare 0 0, minGallop + 1⟩

def Turn.out (t : Turn) (X Y : List α) : List α :=
  if t.fromX then X.take t.count else Y.take t.count

def Turn.restX (t : Turn) (X : List α) : List α := if t.fromX then X.drop t.count else X

def Turn.restY (t : Turn) (Y : List α) : List α := if t.fromX then Y else Y.drop t.count

/-- What comes out when nothing is left to compare. -/
def settled : List α → List α → Option (List α)
  | X, [] => some X
  | [], Y => some Y
  | [x], Y => some (Y ++ [x])
  | _, _ => none

/-- Turn after turn; with the merged elements the threshold that the next merge starts with. -/
def mergeLoop (S : Sides ε α) : Nat → Task → Nat → List α → List α → Except ε (List α × Nat)
  | fuel + 1, task, minGallop, x :: X, y :: Y => do
    let t ← S.turn minGallop x y (x :: X) (y :: Y) task
    match settled (t.restX (x :: X)) (t.restY (y :: Y)) with
    | some l => return (t.out (x :: X) (y :: Y) ++ l, minGallop)
    | none =>
      let (l, minGallop) ← mergeLoop S fuel t.task t.minGallop (t.restX (x :: X)) (t.restY (y :: Y))
      return (t.out (x :: X) (y :: Y) ++ l, minGallop)
  | _, _, minGallop, _, _ => .ok ([], minGallop)

/-- The first element of `Y` comes out first. -/
def Sides.merge (S : Sides ε α) (minGallop : Nat) (X : List α) : List α → Except ε (List α × Nat)
  | [] => .ok (X, minGallop)
  | y :: Y =>
    match settled X Y with
    | some l => .ok (y :: l, minGallop)
    | none => do
      let (l, minGallop) ← mergeLoop S (2 * (X.length + Y.length)) (.compare 0 0) minGallop X Y
      return (y :: l, minGallop)

section
variable (below : α → α → Except ε Bool)

/-- From the front: `X` is the earlier run. -/
def lowSides : Sides ε α where
  wins y x := below y x
  countX y X := gallopRight below y X 0
  countY x Y := gallopLeft below x Y 0
  xFirst := true

/-- From the back: `X` is the later run. -/
def highSides : Sides ε α where
  wins y x := below x y
  countX y X := do return X.length - (← gallopLeft below y X.reverse (X.length - 1))
  countY x Y := do return Y.length - (← gallopRight below x Y.reverse (Y.length - 1))
  xFirst := false

/-- The shorter run is the one copied out. -/
def mergeMiddle (minGallop : Nat) (A B : List α) : Except ε (List α × Nat) :=
  if A.length ≤ B.length then (lowSides below).merge minGallop A B
  else do
    let (l, minGallop) ← (highSides below).merge minGallop B.reverse A.reverse
    return (l.reverse, minGallop)

/-- Two neighbouring runs: what already stands in place at either end is left out. -/
def mergeRuns (minGallop : Nat) (A : List α) : List α → Except ε (List α × Nat)
  | [] => .ok (A, minGallop)
  | b :: B => do
    let k ← gallopRight below b A 0
    match (A.drop k).getLast? with
    | none => return (A ++ b :: B, minGallop)
    | some a =>
      let n ← gallopLeft below a (b :: B) B.length
      let (l, minGallop) ← mergeMiddle below minGallop (A.drop k) ((b :: B).take n)
      return (A.take k ++ l ++ (b :: B).drop n, minGallop)

end

/-- Of the runs found so far, the latest first: merge the two in front, or the two under the
first. -/
inductive Spot where
  | top
  | under

/-- The runs have to grow in length faster than the Fibonacci numbers, seen from the latest. -/
def unbalanced (z y : Nat) : List (List α) → Bool
  | [] => false
  | [X] => X.length ≤ y + z
  | X :: W :: _ => X.length ≤ y + z || W.length ≤ X.length + y

def forceSpot : List (List α) → Option Spot
  | Z :: _ :: X :: _ => some (if X.length < Z.length then .under else .top)
  | [_, _] => some .top
  | _ => none

def collapseSpot : List (List α) → Option Spot
  | Z :: Y :: rest =>
    if unbalanced Z.length Y.length rest then forceSpot (Z :: Y :: rest)
    else if Y.length ≤ Z.length then some .top else none
  | _ => none

section
variable (below : α → α → Except ε Bool)

def mergeAt (minGallop : Nat) : Spot → List (List α) → Except ε (List (List α) × Nat)
  | .under, Z :: Y :: X :: rest => do
    let (l, minGallop) ← mergeRuns below minGallop X Y
    return (Z :: l :: rest, minGallop)
  | _, Z :: Y :: rest => do
    let (l, minGallop) ← mergeRuns below minGallop Y Z
    return (l :: rest, minGallop)
  | _, runs => .ok (runs, minGallop)

/-- Merges as long as there is a spot for one. -/
def mergeWhile (spot : List (List α) → Option Spot) :
    Nat → Nat → List (List α) → Except ε (List (List α) × Nat)
  | 0, minGallop, runs => .ok (runs, minGallop)
  | fuel + 1, minGallop, runs =>
    match spot runs with
    | none => .ok (runs, minGallop)
    | some s => do
      let (runs, minGallop) ← mergeAt below minGallop s runs
      mergeWhile spot fuel minGallop runs

/-- The runs of the list, each merged with those before it while they are out of balance. -/
def collectRuns (minRun : Nat) :
    Nat → Nat → List (List α) → List α → Except ε (List (List α) × Nat)
  | _, minGallop, runs, [] => .ok (runs, minGallop)
  | 0, minGallop, _, _ => .ok ([], minGallop)
  | fuel + 1, minGallop, runs, a :: l => do
    let (run, rest) ← countRun below (a :: l)
    let (run, rest) ← insertUpTo below minRun run rest
    let (runs, minGallop) ← mergeWhile below collapseSpot (runs.length + 1) minGallop (run :: runs)
    collectRuns minRun fuel minGallop runs rest

end

/-- A length from 32 to 64 that goes into `n` a little less often than a power of two. -/
def minRunLength : Nat → Nat → Nat → Nat
  | 0, n, r => n + r
  | fuel + 1, n, r => if n < 64 then n + r else minRunLength fuel (n / 2) (max r (n % 2))

/-- The sorted list; a list of one element is not compared with anything. -/
def sort (below : α → α → Except ε Bool) (l : List α) : Except ε (List α) :=
  if l.length < 2 then .ok l
  else do
    let minRun := minRunLength l.length l.length 0
    let (runs, minGallop) ← collectRuns below minRun l.length threshold [] l
    let (runs, _) ← mergeWhile below forceSpot runs.length minGallop runs
    return runs.flatten

/-- The program returns a value with `Q` or throws an error with `E`. -/
inductive Gives (E : ε → Prop) (Q : α → Prop) : Except ε α → Prop where
  | ok {a : α} (h : Q a) : Gives E Q (.ok a)
  | error {e : ε} (h : E e) : Gives E Q (.error e)

/-- The program returns a value with `Q`. -/
abbrev Returns (Q : α → Prop) (m : Except ε α) : Prop := Gives (fun _ => False) Q m

namespace Gives

variable {β : Type} {E : ε → Prop} {Q : α → Prop}

theorem bind {Q' : β → Prop} {m : Except ε α} {f : α → Except ε β} (h : Gives E Q m)
    (hf : ∀ a, Q a → Gives E Q' (f a)) : Gives E Q' (m >>= f) := by
  cases h with
  | ok ha => exact hf _ ha
  | error he => exact .error he

theorem mono {Q' : α → Prop} {m : Except ε α} (h : Gives E Q m) (hQ : ∀ a, Q a → Q' a) :
    Gives E Q' m := by
  cases h with
  | ok ha => exact .ok (hQ _ ha)
  | error he => exact .error he

theorem of_ok {m : Except ε α} (h : Gives E Q m) {a : α} (hm : m = .ok a) : Q a := by
  cases h with
  | ok ha =>
    cases hm
    exact ha
  | error he => cases hm

theorem exists_ok {m : Except ε α} (h : Returns Q m) : ∃ a, m = .ok a ∧ Q a := by
  cases h with
  | ok ha => exact ⟨_, rfl, ha⟩
  | error he => exact he.elim

end Gives

section
variable {E : ε → Prop}

theorem bisect_gives {past : Nat → Except ε Bool} (h : ∀ i, Gives E (fun _ => True) (past i))
    (fuel lo hi : Nat) : Gives E (fun _ => True) (bisect past fuel lo hi) := by
  induction fuel generalizing lo hi with
  | zero => exact .ok trivial
  | succ fuel ih =>
    rw [bisect]
    split
    · refine (h _).bind fun b _ => ?_
      split
      · exact ih lo _
      · exact ih _ hi
    · exact .ok trivial

theorem leap_gives {goesOn : Nat → Except ε Bool} (h : ∀ i, Gives E (fun _ => True) (goesOn i))
    (limit fuel last offset : Nat) :
    Gives E (fun _ => True) (leap goesOn limit fuel last offset) := by
  induction fuel generalizing last offset with
  | zero => exact .ok trivial
  | succ fuel ih =>
    rw [leap]
    split
    · refine (h _).bind fun b _ => ?_
      split
      · exact ih _ _
      · exact .ok trivial
    · exact .ok trivial

theorem gallop_gives {past : Nat → Except ε Bool} (h : ∀ i, Gives E (fun _ => True) (past i))
    (length hint : Nat) : Gives E (fun _ => True) (gallop past length hint) := by
  unfold gallop
  refine (h hint).bind fun b _ => ?_
  split
  · exact (leap_gives (fun _ => h _) _ _ _ _).bind fun _ _ => bisect_gives h _ _ _
  · exact (leap_gives (fun _ => (h _).bind fun _ _ => .ok trivial) _ _ _ _).bind
      fun _ _ => bisect_gives h _ _ _

variable {below : α → α → Except ε Bool} (h : ∀ b a, Gives E (fun _ => True) (below b a))
include h

theorem keyBelow_gives (key : α) (l : List α) (i : Nat) :
    Gives E (fun _ => True) (keyBelow below key l i) := by
  unfold keyBelow
  split
  · exact h _ _
  · exact .ok trivial

theorem notBelowKey_gives (key : α) (l : List α) (i : Nat) :
    Gives E (fun _ => True) (notBelowKey below key l i) := by
  unfold notBelowKey
  split
  · exact (h _ _).bind fun _ _ => .ok trivial
  · exact .ok trivial

theorem gallopRight_gives (key : α) (l : List α) (hint : Nat) :
    Gives E (fun _ => True) (gallopRight below key l hint) :=
  gallop_gives (keyBelow_gives h key l) _ _

theorem gallopLeft_gives (key : α) (l : List α) (hint : Nat) :
    Gives E (fun _ => True) (gallopLeft below key l hint) :=
  gallop_gives (notBelowKey_gives h key l) _ _

theorem extendRun_gives (descending : Bool) (prev : α) (l : List α) :
    Gives E (fun r => r.1 ++ r.2 = l) (extendRun below descending prev l) := by
  induction l generalizing prev with
  | nil => exact .ok rfl
  | cons c rest ih =>
    rw [extendRun]
    refine (h c prev).bind fun b _ => ?_
    split
    · refine (ih c).bind fun r hr => .ok ?_
      rw [List.cons_append, hr]
    · exact .ok rfl

/-- The run is made of the first elements of the list, one at least. -/
theorem countRun_gives (a : α) (l : List α) :
    Gives E (fun r => (∃ run, r.1.Perm run ∧ run ++ r.2 = a :: l) ∧ r.1 ≠ [])
      (countRun below (a :: l)) := by
  cases l with
  | nil => exact .ok ⟨⟨[a], .refl _, rfl⟩, List.cons_ne_nil _ _⟩
  | cons b rest =>
    rw [countRun]
    refine (h b a).bind fun descending _ => (extendRun_gives h _ b rest).bind fun r hr => .ok ?_
    have hlist : a :: b :: r.1 ++ r.2 = a :: b :: rest := by
      rw [List.cons_append, List.cons_append, hr]
    split
    · exact ⟨⟨_, List.reverse_perm _, hlist⟩, by simp⟩
    · exact ⟨⟨_, .refl _, hlist⟩, List.cons_ne_nil _ _⟩

theorem insertUpTo_gives (minRun : Nat) (run l : List α) :
    Gives E (fun r => (r.1 ++ r.2).Perm (run ++ l) ∧ run.length ≤ r.1.length)
      (insertUpTo below minRun run l) := by
  induction l generalizing run with
  | nil => exact .ok ⟨.refl _, Nat.le_refl _⟩
  | cons p rest ih =>
    rw [insertUpTo]
    split
    · refine (bisect_gives (keyBelow_gives h p run) _ _ _).bind fun k _ => ?_
      have hp : (run.take k ++ p :: run.drop k).Perm (p :: run) :=
        List.perm_middle.trans (.cons p (by rw [List.take_append_drop]))
      refine (ih _).mono fun r hr => ⟨hr.1.trans ?_, ?_⟩
      · exact (hp.append_right rest).trans List.perm_middle.symm
      · have hlength := hp.length_eq
        rw [List.length_cons] at hlength
        omega
    · exact .ok ⟨.refl _, Nat.le_refl _⟩

end

theorem perm_of_settled {X Y l : List α} (h : settled X Y = some l) : l.Perm (X ++ Y) := by
  unfold settled at h
  split at h
  · cases h
    rw [List.append_nil]
  · cases h
    exact .refl _
  · cases h
    exact List.perm_append_comm
  · cases h

/-- The merge goes on only with an element in front of either side. -/
theorem ne_nil_of_settled {X Y : List α} (h : settled X Y = none) : X ≠ [] ∧ Y ≠ [] := by
  constructor
  · rintro rfl
    cases Y <;> cases h
  · rintro rfl
    cases h

/-- A count may let no element out. -/
def Task.cost : Task → Nat
  | .countFirst => 1
  | .countSecond _ => 1
  | _ => 0

section
variable {E : ε → Prop}

/-- The questions a merge asks throw nothing but errors with `E`. -/
structure Sides.Asks (S : Sides ε α) (E : ε → Prop) : Prop where
  wins (y x : α) : Gives E (fun _ => True) (S.wins y x)
  countX (y : α) (X : List α) : Gives E (fun _ => True) (S.countX y X)
  countY (x : α) (Y : List α) : Gives E (fun _ => True) (S.countY x Y)

variable {S : Sides ε α} (hS : S.Asks E)
include hS

theorem countSide_gives (fromX : Bool) (x y : α) (X Y : List α) :
    Gives E (fun _ => True) (S.countSide fromX x y X Y) := by
  unfold Sides.countSide
  split
  · exact hS.countX y X
  · exact hS.countY x Y

theorem turn_gives (minGallop : Nat) (x y : α) (X Y : List α) (task : Task) :
    Gives E (fun t => t.task.cost < 2 * t.count + task.cost) (S.turn minGallop x y X Y task) := by
  have hnext : ∀ (p : Prop) [Decidable p] (task : Task), task.cost = 0 →
      (if p then Task.countFirst else task).cost < 2 := by
    intro p _ task htask
    split
    · exact Nat.one_lt_two
    · omega
  cases task with
  | compare winsX winsY =>
    refine (hS.wins y x).bind fun b _ => ?_
    split
    · exact .ok (hnext _ _ rfl)
    · exact .ok (hnext _ _ rfl)
  | countFirst => exact (countSide_gives hS _ x y X Y).bind fun n _ => .ok (Nat.succ_pos _)
  | takeSecond n => exact .ok Nat.one_lt_two
  | countSecond n => exact (countSide_gives hS _ x y X Y).bind fun m _ => .ok (Nat.succ_pos _)
  | takeFirst n m =>
    rw [Sides.turn]
    split
    · exact .ok Nat.one_lt_two
    · exact .ok Nat.two_pos

omit hS in
theorem Turn.out_append_perm (t : Turn) (X Y : List α) :
    (t.out X Y ++ (t.restX X ++ t.restY Y)).Perm (X ++ Y) := by
  unfold Turn.out Turn.restX Turn.restY
  split
  · rw [← List.append_assoc, List.take_append_drop]
  · refine (List.perm_append_comm_assoc _ _ _).trans (.append_left X ?_)
    rw [List.take_append_drop]

omit hS in
theorem Turn.length_rest {t : Turn} {X Y : List α} (hX : 0 < (t.restX X).length)
    (hY : 0 < (t.restY Y).length) :
    (t.restX X).length + (t.restY Y).length + t.count = X.length + Y.length := by
  obtain ⟨fromX, count, task, minGallop⟩ := t
  cases fromX with
  | true =>
    change 0 < (X.drop count).length at hX
    change (X.drop count).length + Y.length + count = _
    rw [List.length_drop] at hX ⊢
    omega
  | false =>
    change 0 < (Y.drop count).length at hY
    change X.length + (Y.drop count).length + count = _
    rw [List.length_drop] at hY ⊢
    omega

/-- The fuel that a merge needs: two turns for an element, and one for a count. -/
theorem mergeLoop_gives {fuel : Nat} {task : Task} (minGallop : Nat) {X Y : List α}
    (hn : settled X Y = none) (hf : 2 * (X.length + Y.length) + task.cost ≤ fuel) :
    Gives E (fun r => r.1.Perm (X ++ Y)) (mergeLoop S fuel task minGallop X Y) := by
  induction fuel generalizing task minGallop X Y with
  | zero =>
    have hX := List.length_pos_of_ne_nil (ne_nil_of_settled hn).1
    omega
  | succ fuel ih =>
    obtain ⟨x, X, rfl⟩ := List.exists_cons_of_ne_nil (ne_nil_of_settled hn).1
    obtain ⟨y, Y, rfl⟩ := List.exists_cons_of_ne_nil (ne_nil_of_settled hn).2
    rw [mergeLoop]
    refine (turn_gives hS minGallop x y _ _ task).bind fun t ht => ?_
    have hperm := t.out_append_perm (x :: X) (y :: Y)
    split
    · rename_i l hl
      exact .ok (((perm_of_settled hl).append_left _).trans hperm)
    · rename_i hrest
      refine (ih t.minGallop hrest ?_).bind fun r hr => .ok ((hr.append_left _).trans hperm)
      -- what is still there has lost the whole count, since neither side has run out
      have hleft := Turn.length_rest (List.length_pos_of_ne_nil (ne_nil_of_settled hrest).1)
        (List.length_pos_of_ne_nil (ne_nil_of_settled hrest).2)
      omega

theorem merge_gives (minGallop : Nat) (X Y : List α) :
    Gives E (fun r => r.1.Perm (X ++ Y)) (S.merge minGallop X Y) := by
  cases Y with
  | nil =>
    refine .ok ?_
    rw [List.append_nil]
  | cons y Y =>
    rw [Sides.merge]
    split
    · rename_i l hl
      exact .ok (((perm_of_settled hl).cons y).trans List.perm_middle.symm)
    · rename_i hn
      have hloop : Gives E (fun r => r.1.Perm (X ++ Y))
          (mergeLoop S (2 * (X.length + Y.length)) (.compare 0 0) minGallop X Y) :=
        mergeLoop_gives hS minGallop hn (Nat.le_refl _)
      refine hloop.bind fun r hr => .ok ?_
      exact (hr.cons y).trans List.perm_middle.symm

end

section
variable {E : ε → Prop} {below : α → α → Except ε Bool}
  (h : ∀ b a, Gives E (fun _ => True) (below b a))
include h

theorem lowSides_asks : (lowSides below).Asks E where
  wins y x := h y x
  countX y X := gallopRight_gives h y X 0
  countY x Y := gallopLeft_gives h x Y 0

theorem highSides_asks : (highSides below).Asks E where
  wins y x := h x y
  countX y X := (gallopLeft_gives h y X.reverse _).bind fun _ _ => .ok trivial
  countY x Y := (gallopRight_gives h x Y.reverse _).bind fun _ _ => .ok trivial

theorem mergeMiddle_gives (minGallop : Nat) (A B : List α) :
    Gives E (fun r => r.1.Perm (A ++ B)) (mergeMiddle below minGallop A B) := by
  unfold mergeMiddle
  split
  · exact merge_gives (lowSides_asks h) minGallop A B
  · refine (merge_gives (highSides_asks h) minGallop _ _).bind fun r hr => .ok ?_
    rw [← List.reverse_append] at hr
    exact (List.reverse_perm _).trans (hr.trans (List.reverse_perm _))

theorem mergeRuns_gives (minGallop : Nat) (A B : List α) :
    Gives E (fun r => r.1.Perm (A ++ B)) (mergeRuns below minGallop A B) := by
  cases B with
  | nil =>
    refine .ok ?_
    rw [List.append_nil]
  | cons b B =>
    unfold mergeRuns
    refine (gallopRight_gives h b A 0).bind fun k _ => ?_
    split
    · exact .ok (.refl _)
    · refine (gallopLeft_gives h _ _ _).bind fun n _ =>
        (mergeMiddle_gives h minGallop _ _).bind fun r hr => .ok ?_
      have hmiddle := (hr.append_left (A.take k)).append_right ((b :: B).drop n)
      rwa [← List.append_assoc (A.take k), List.take_append_drop, List.append_assoc A,
        List.take_append_drop] at hmiddle

theorem mergeAt_gives (minGallop : Nat) (spot : Spot) (runs : List (List α)) :
    Gives E (fun r => r.1.flatten.Perm runs.flatten) (mergeAt below minGallop spot runs) := by
  unfold mergeAt
  split
  · rename_i Z Y X rest
    refine (mergeRuns_gives h minGallop X Y).bind fun r hr => .ok ?_
    rw [List.flatten_cons, List.flatten_cons, List.flatten_cons, List.flatten_cons, List.flatten_cons,
      ← List.append_assoc Y]
    exact ((hr.trans List.perm_append_comm).append_right _).append_left Z
  · rename_i _ Z Y rest _
    refine (mergeRuns_gives h minGallop Y Z).bind fun r hr => .ok ?_
    rw [List.flatten_cons, List.flatten_cons, List.flatten_cons, ← List.append_assoc]
    exact (hr.trans List.perm_append_comm).append_right _
  · exact .ok (.refl _)

theorem mergeWhile_gives (spot : List (List α) → Option Spot) (fuel minGallop : Nat)
    (runs : List (List α)) :
    Gives E (fun r => r.1.flatten.Perm runs.flatten)
      (mergeWhile below spot fuel minGallop runs) := by
  induction fuel generalizing minGallop runs with
  | zero => exact .ok (.refl _)
  | succ fuel ih =>
    rw [mergeWhile]
    split
    · exact .ok (.refl _)
    · exact (mergeAt_gives h minGallop _ runs).bind fun r hr =>
        (ih r.2 r.1).mono fun r' hr' => hr'.trans hr

theorem collectRuns_gives {minRun fuel : Nat} (minGallop : Nat) (runs : List (List α)) {l : List α}
    (hf : l.length ≤ fuel) :
    Gives E (fun r => r.1.flatten.Perm (runs.flatten ++ l))
      (collectRuns below minRun fuel minGallop runs l) := by
  induction fuel generalizing minGallop runs l with
  | zero =>
    rw [List.eq_nil_of_length_eq_zero (Nat.le_zero.mp hf), collectRuns, List.append_nil]
    exact .ok (.refl _)
  | succ fuel ih =>
    cases l with
    | nil =>
      rw [collectRuns, List.append_nil]
      exact .ok (.refl _)
    | cons a l =>
      rw [collectRuns]
      refine (countRun_gives h a l).bind fun r hr => (insertUpTo_gives h minRun r.1 r.2).bind
        fun r' hr' => (mergeWhile_gives h _ _ minGallop _).bind fun s hs => ?_
      obtain ⟨⟨run, hrun, happend⟩, hne⟩ := hr
      have hpos := List.length_pos_of_ne_nil hne
      have hperm : (r'.1 ++ r'.2).Perm (a :: l) := hr'.1.trans (happend ▸ hrun.append_right r.2)
      have hlength := hperm.length_eq
      rw [List.length_append] at hlength
      refine (ih s.2 s.1 (by omega)).mono fun q hq => hq.trans ?_
      calc
        (s.1.flatten ++ r'.2).Perm ((r'.1 ++ runs.flatten) ++ r'.2) := hs.append_right r'.2
        _ |>.Perm ((runs.flatten ++ r'.1) ++ r'.2) := List.perm_append_comm.append_right r'.2
        _ |>.Perm (runs.flatten ++ (a :: l)) := by
          rw [List.append_assoc]
          exact hperm.append_left _

/-- The sort throws nothing but errors of the comparator, and it puts the list into another
order. -/
theorem sort_gives (l : List α) : Gives E (fun l' => l'.Perm l) (sort below l) := by
  unfold sort
  split
  · exact .ok (.refl _)
  · refine (collectRuns_gives h _ [] (Nat.le_refl _)).bind fun r hr =>
      (mergeWhile_gives h _ _ r.2 r.1).bind fun r' hr' => .ok ?_
    exact hr'.trans hr

end

end JtfpMall.Lib.TimSort
