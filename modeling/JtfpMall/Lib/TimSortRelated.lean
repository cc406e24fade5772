import JtfpMall.Lib.TimSort

/-!
# Two sorts side by side

Nothing but the answers of the comparator decides what the sort does: comparators that
answer alike on related elements are asked the same questions, so that one sort throws
what the other throws, and related lists come out in one order.
-/

namespace JtfpMall.Lib.TimSort

variable {ε α : Type}

section
variable {β : Type} {R : α → β → Prop}

theorem getElem?_forall₂ {l : List α} {l' : List β} (hl : List.Forall₂ R l l') (i : Nat) :
    Option.Rel R l[i]? l'[i]? := by
  induction hl generalizing i with
  | nil => exact .none
  | cons ha _ ih =>
    cases i with
    | zero => exact .some ha
    | succ i => exact ih i

theorem getLast?_forall₂ {l : List α} {l' : List β} (hl : List.Forall₂ R l l') :
    Option.Rel R l.getLast? l'.getLast? := by
  rw [List.getLast?_eq_getElem?, List.getLast?_eq_getElem?, hl.length_eq]
  exact getElem?_forall₂ hl _

theorem settled_forall₂ {X Y : List α} {X' Y' : List β} (hX : List.Forall₂ R X X')
    (hY : List.Forall₂ R Y Y') :
    Option.Rel (List.Forall₂ R) (settled X Y) (settled X' Y') := by
  cases hY with
  | nil =>
    cases hX with
    | nil => exact .some .nil
    | cons hx hX => exact .some (.cons hx hX)
  | cons hy hY =>
    cases hX with
    | nil => exact .some (.cons hy hY)
    | cons hx hX =>
      cases hX with
      | nil => exact .some (List.rel_append (.cons hy hY) (.cons hx .nil))
      | cons _ _ => exact .none

/-- Two pairs of sides that give the same answers on related elements. -/
structure Sides.Alike (R : α → β → Prop) (S : Sides ε α) (S' : Sides ε β) : Prop where
  wins {y x : α} {y' x' : β} (hy : R y y') (hx : R x x') : S.wins y x = S'.wins y' x'
  countX {y : α} {y' : β} {X : List α} {X' : List β} (hy : R y y') (hX : List.Forall₂ R X X') :
    S.countX y X = S'.countX y' X'
  countY {x : α} {x' : β} {Y : List α} {Y' : List β} (hx : R x x') (hY : List.Forall₂ R Y Y') :
    S.countY x Y = S'.countY x' Y'
  xFirst : S.xFirst = S'.xFirst

variable {S : Sides ε α} {S' : Sides ε β} (hS : Sides.Alike R S S')
include hS

theorem turn_alike (minGallop : Nat) {x y : α} {x' y' : β} (hx : R x x') (hy : R y y')
    {X Y : List α} {X' Y' : List β} (hX : List.Forall₂ R X X') (hY : List.Forall₂ R Y Y')
    (task : Task) :
    S.turn minGallop x y X Y task = S'.turn minGallop x' y' X' Y' task := by
  cases task with
  | compare winsX winsY => rw [Sides.turn, Sides.turn, hS.wins hy hx]
  | countFirst | countSecond n =>
    rw [Sides.turn, Sides.turn, Sides.countSide, Sides.countSide, hS.xFirst, hS.countX hy hX,
      hS.countY hx hY]
  | takeSecond n | takeFirst n m => rw [Sides.turn, Sides.turn, hS.xFirst]

omit hS in
theorem Turn.rest_forall₂ (t : Turn) {X Y : List α} {X' Y' : List β} (hX : List.Forall₂ R X X')
    (hY : List.Forall₂ R Y Y') : List.Forall₂ R (t.out X Y) (t.out X' Y') ∧
      List.Forall₂ R (t.restX X) (t.restX X') ∧ List.Forall₂ R (t.restY Y) (t.restY Y') := by
  unfold Turn.out Turn.restX Turn.restY
  split
  · exact ⟨List.forall₂_take _ hX, List.forall₂_drop _ hX, hY⟩
  · exact ⟨List.forall₂_take _ hY, hX, List.forall₂_drop _ hY⟩

theorem mergeLoop_forall₂ (fuel : Nat) (task : Task) (minGallop : Nat) {X Y : List α}
    {X' Y' : List β} (hX : List.Forall₂ R X X') (hY : List.Forall₂ R Y Y') :
    ExceptRel (fun r r' => List.Forall₂ R r.1 r'.1 ∧ r.2 = r'.2)
      (mergeLoop S fuel task minGallop X Y) (mergeLoop S' fuel task minGallop X' Y') := by
  induction fuel generalizing task minGallop X Y X' Y' with
  | zero => exact .ok ⟨.nil, rfl⟩
  | succ fuel ih =>
    cases hX with
    | nil => exact .ok ⟨.nil, rfl⟩
    | cons hx hX =>
      cases hY with
      | nil => exact .ok ⟨.nil, rfl⟩
      | cons hy hY =>
        rw [mergeLoop, mergeLoop, turn_alike hS minGallop hx hy (.cons hx hX) (.cons hy hY) task]
        refine (ExceptRel.refl _ fun _ => rfl).bind fun t t' ht => ?_
        obtain rfl : t = t' := ht
        obtain ⟨hout, hrestX, hrestY⟩ := t.rest_forall₂ (.cons hx hX) (.cons hy hY)
        have hsettled := settled_forall₂ hrestX hrestY
        revert hsettled
        generalize settled _ _ = o
        generalize settled _ _ = o'
        intro hsettled
        cases hsettled with
        | some hl => exact .ok ⟨List.rel_append hout hl, rfl⟩
        | none =>
          refine (ih t.task t.minGallop hrestX hrestY).bind fun r r' hr => .ok ?_
          exact ⟨List.rel_append hout hr.1, hr.2⟩

theorem merge_forall₂ (minGallop : Nat) {X Y : List α} {X' Y' : List β}
    (hX : List.Forall₂ R X X') (hY : List.Forall₂ R Y Y') :
    ExceptRel (fun r r' => List.Forall₂ R r.1 r'.1 ∧ r.2 = r'.2) (S.merge minGallop X Y)
      (S'.merge minGallop X' Y') := by
  cases hY with
  | nil => exact .ok ⟨hX, rfl⟩
  | cons hy hY =>
    rw [Sides.merge, Sides.merge]
    have hsettled := settled_forall₂ hX hY
    rw [hX.length_eq, hY.length_eq]
    revert hsettled
    generalize settled _ _ = o
    generalize settled _ _ = o'
    intro hsettled
    cases hsettled with
    | some hl => exact .ok ⟨.cons hy hl, rfl⟩
    | none =>
      refine (mergeLoop_forall₂ hS _ _ minGallop hX hY).bind fun r r' hr => .ok ?_
      exact ⟨.cons hy hr.1, hr.2⟩

end

section
variable {β : Type} {R : α → β → Prop} {below : α → α → Except ε Bool}
  {below' : β → β → Except ε Bool}
  (h : ∀ b b' a a', R b b' → R a a' → below b a = below' b' a')
include h

theorem keyBelow_alike {key : α} {key' : β} (hk : R key key') {l : List α} {l' : List β}
    (hl : List.Forall₂ R l l') : keyBelow below key l = keyBelow below' key' l' := by
  funext i
  unfold keyBelow
  have hi := getElem?_forall₂ hl i
  revert hi
  generalize l[i]? = o
  generalize l'[i]? = o'
  intro hi
  cases hi with
  | some ha => exact h _ _ _ _ hk ha
  | none => rfl

theorem notBelowKey_alike {key : α} {key' : β} (hk : R key key') {l : List α} {l' : List β}
    (hl : List.Forall₂ R l l') : notBelowKey below key l = notBelowKey below' key' l' := by
  funext i
  unfold notBelowKey
  have hi := getElem?_forall₂ hl i
  revert hi
  generalize l[i]? = o
  generalize l'[i]? = o'
  intro hi
  cases hi with
  | some ha =>
    dsimp only
    rw [h _ _ _ _ ha hk]
  | none => rfl

theorem gallopRight_alike {key : α} {key' : β} (hk : R key key') {l : List α} {l' : List β}
    (hl : List.Forall₂ R l l') (hint : Nat) :
    gallopRight below key l hint = gallopRight below' key' l' hint := by
  unfold gallopRight
  rw [keyBelow_alike h hk hl, hl.length_eq]

theorem gallopLeft_alike {key : α} {key' : β} (hk : R key key') {l : List α} {l' : List β}
    (hl : List.Forall₂ R l l') (hint : Nat) :
    gallopLeft below key l hint = gallopLeft below' key' l' hint := by
  unfold gallopLeft
  rw [notBelowKey_alike h hk hl, hl.length_eq]

/-- Both parts are related. -/
abbrev Parts (R : α → β → Prop) (r : List α × List α) (r' : List β × List β) : Prop :=
  List.Forall₂ R r.1 r'.1 ∧ List.Forall₂ R r.2 r'.2

theorem extendRun_forall₂ (descending : Bool) {prev : α} {prev' : β} (hp : R prev prev')
    {l : List α} {l' : List β} (hl : List.Forall₂ R l l') :
    ExceptRel (Parts R) (extendRun below descending prev l)
      (extendRun below' descending prev' l') := by
  induction hl generalizing prev prev' with
  | nil => exact .ok ⟨.nil, .nil⟩
  | cons hc hl ih =>
    rw [extendRun, extendRun, h _ _ _ _ hc hp]
    refine (ExceptRel.refl _ fun _ => rfl).bind fun b b' hb => ?_
    obtain rfl : b = b' := hb
    split
    · exact (ih hc).bind fun r r' hr => .ok ⟨.cons hc hr.1, hr.2⟩
    · exact .ok ⟨.nil, .cons hc hl⟩

theorem countRun_forall₂ {l : List α} {l' : List β} (hl : List.Forall₂ R l l') :
    ExceptRel (Parts R) (countRun below l) (countRun below' l') := by
  cases hl with
  | nil => exact .ok ⟨.nil, .nil⟩
  | cons ha hl =>
    cases hl with
    | nil => exact .ok ⟨.cons ha .nil, .nil⟩
    | cons hb hl =>
      rw [countRun, countRun, h _ _ _ _ hb ha]
      refine (ExceptRel.refl _ fun _ => rfl).bind fun d d' hd => ?_
      obtain rfl : d = d' := hd
      refine (extendRun_forall₂ h d hb hl).bind fun r r' hr => .ok ⟨?_, hr.2⟩
      split
      · exact List.rel_reverse (.cons ha (.cons hb hr.1))
      · exact .cons ha (.cons hb hr.1)

theorem insertUpTo_forall₂ (minRun : Nat) {run l : List α} {run' l' : List β}
    (hr : List.Forall₂ R run run') (hl : List.Forall₂ R l l') :
    ExceptRel (Parts R) (insertUpTo below minRun run l) (insertUpTo below' minRun run' l') := by
  induction hl generalizing run run' with
  | nil => exact .ok ⟨hr, .nil⟩
  | cons hp hl ih =>
    rw [insertUpTo, insertUpTo, hr.length_eq, keyBelow_alike h hp hr]
    split
    · refine (ExceptRel.refl _ fun _ => rfl).bind fun k k' hk => ?_
      obtain rfl : k = k' := hk
      exact ih (List.rel_append (List.forall₂_take k hr) (.cons hp (List.forall₂_drop k hr)))
    · exact .ok ⟨hr, .cons hp hl⟩

theorem lowSides_alike : Sides.Alike R (lowSides below) (lowSides below') where
  wins hy hx := h _ _ _ _ hy hx
  countX hy hX := gallopRight_alike h hy hX 0
  countY hx hY := gallopLeft_alike h hx hY 0
  xFirst := rfl

theorem highSides_alike : Sides.Alike R (highSides below) (highSides below') where
  wins hy hx := h _ _ _ _ hx hy
  countX {_ _ X X'} hy hX := by
    change (do return X.length - (← gallopLeft below _ X.reverse (X.length - 1))) =
      (do return X'.length - (← gallopLeft below' _ X'.reverse (X'.length - 1)))
    rw [gallopLeft_alike h hy (List.rel_reverse hX), hX.length_eq]
  countY {_ _ Y Y'} hx hY := by
    change (do return Y.length - (← gallopRight below _ Y.reverse (Y.length - 1))) =
      (do return Y'.length - (← gallopRight below' _ Y'.reverse (Y'.length - 1)))
    rw [gallopRight_alike h hx (List.rel_reverse hY), hY.length_eq]
  xFirst := rfl

theorem mergeMiddle_forall₂ (minGallop : Nat) {A B : List α} {A' B' : List β}
    (hA : List.Forall₂ R A A') (hB : List.Forall₂ R B B') :
    ExceptRel (fun r r' => List.Forall₂ R r.1 r'.1 ∧ r.2 = r'.2)
      (mergeMiddle below minGallop A B) (mergeMiddle below' minGallop A' B') := by
  unfold mergeMiddle
  rw [hA.length_eq, hB.length_eq]
  split
  · exact merge_forall₂ (lowSides_alike h) minGallop hA hB
  · refine (merge_forall₂ (highSides_alike h) minGallop (List.rel_reverse hB)
      (List.rel_reverse hA)).bind fun r r' hr => .ok ?_
    exact ⟨List.rel_reverse hr.1, hr.2⟩

theorem mergeRuns_forall₂ (minGallop : Nat) {A B : List α} {A' B' : List β}
    (hA : List.Forall₂ R A A') (hB : List.Forall₂ R B B') :
    ExceptRel (fun r r' => List.Forall₂ R r.1 r'.1 ∧ r.2 = r'.2)
      (mergeRuns below minGallop A B) (mergeRuns below' minGallop A' B') := by
  cases hB with
  | nil => exact .ok ⟨hA, rfl⟩
  | cons hb hB =>
    rw [mergeRuns, mergeRuns, gallopRight_alike h hb hA, hB.length_eq]
    refine (ExceptRel.refl _ fun _ => rfl).bind fun k k' hk => ?_
    obtain rfl : k = k' := hk
    have hlast := getLast?_forall₂ (List.forall₂_drop k hA)
    revert hlast
    generalize (A.drop k).getLast? = o
    generalize (A'.drop k).getLast? = o'
    intro hlast
    cases hlast with
    | none => exact .ok ⟨List.rel_append hA (.cons hb hB), rfl⟩
    | some ha =>
      rename_i a a'
      dsimp only
      rw [gallopLeft_alike h ha (.cons hb hB)]
      refine (ExceptRel.refl _ fun _ => rfl).bind fun n n' hn => ?_
      obtain rfl : n = n' := hn
      refine (mergeMiddle_forall₂ h minGallop (List.forall₂_drop k hA)
        (List.forall₂_take n (.cons hb hB))).bind fun r r' hr => .ok ?_
      exact ⟨List.rel_append (List.rel_append (List.forall₂_take k hA) hr.1)
        (List.forall₂_drop n (.cons hb hB)), hr.2⟩

/-- The runs are related, and the next merge starts with the same threshold. -/
abbrev Stacks (R : α → β → Prop) (r : List (List α) × Nat) (r' : List (List β) × Nat) : Prop :=
  List.Forall₂ (List.Forall₂ R) r.1 r'.1 ∧ r.2 = r'.2

theorem mergeAt_forall₂ (minGallop : Nat) (spot : Spot) {runs : List (List α)}
    {runs' : List (List β)} (hruns : List.Forall₂ (List.Forall₂ R) runs runs') :
    ExceptRel (Stacks R) (mergeAt below minGallop spot runs)
      (mergeAt below' minGallop spot runs') := by
  cases hruns with
  | nil => cases spot <;> exact .ok ⟨.nil, rfl⟩
  | cons hZ hruns =>
    cases hruns with
    | nil => cases spot <;> exact .ok ⟨.cons hZ .nil, rfl⟩
    | cons hY hruns =>
      cases spot with
      | top =>
        refine (mergeRuns_forall₂ h minGallop hY hZ).bind fun r r' hr => .ok ?_
        exact ⟨.cons hr.1 hruns, hr.2⟩
      | under =>
        cases hruns with
        | nil =>
          refine (mergeRuns_forall₂ h minGallop hY hZ).bind fun r r' hr => .ok ?_
          exact ⟨.cons hr.1 .nil, hr.2⟩
        | cons hX hruns =>
          refine (mergeRuns_forall₂ h minGallop hX hY).bind fun r r' hr => .ok ?_
          exact ⟨.cons hZ (.cons hr.1 hruns), hr.2⟩

theorem mergeWhile_forall₂ {spot : List (List α) → Option Spot} {spot' : List (List β) → Option Spot}
    (hspot : ∀ runs runs', List.Forall₂ (List.Forall₂ R) runs runs' → spot runs = spot' runs')
    (fuel minGallop : Nat) {runs : List (List α)} {runs' : List (List β)}
    (hruns : List.Forall₂ (List.Forall₂ R) runs runs') :
    ExceptRel (Stacks R) (mergeWhile below spot fuel minGallop runs)
      (mergeWhile below' spot' fuel minGallop runs') := by
  induction fuel generalizing minGallop runs runs' with
  | zero => exact .ok ⟨hruns, rfl⟩
  | succ fuel ih =>
    rw [mergeWhile, mergeWhile, hspot runs runs' hruns]
    cases spot' runs' with
    | none => exact .ok ⟨hruns, rfl⟩
    | some s =>
      refine (mergeAt_forall₂ h minGallop s hruns).bind fun r r' hr => ?_
      dsimp only
      rw [hr.2]
      exact ih r'.2 hr.1

omit h in
theorem forceSpot_forall₂ (runs : List (List α)) (runs' : List (List β))
    (hruns : List.Forall₂ (List.Forall₂ R) runs runs') : forceSpot runs = forceSpot runs' := by
  rcases hruns with _ | ⟨hZ, _ | ⟨hY, _ | ⟨hX, _⟩⟩⟩
  · rfl
  · rfl
  · rfl
  · rw [forceSpot, forceSpot, hZ.length_eq, hX.length_eq]

omit h in
theorem unbalanced_forall₂ (z y : Nat) {rest : List (List α)} {rest' : List (List β)}
    (hrest : List.Forall₂ (List.Forall₂ R) rest rest') :
    unbalanced z y rest = unbalanced z y rest' := by
  rcases hrest with _ | ⟨hX, _ | ⟨hW, _⟩⟩
  · rfl
  · rw [unbalanced, unbalanced, hX.length_eq]
  · rw [unbalanced, unbalanced, hX.length_eq, hW.length_eq]

omit h in
theorem collapseSpot_forall₂ (runs : List (List α)) (runs' : List (List β))
    (hruns : List.Forall₂ (List.Forall₂ R) runs runs') : collapseSpot runs = collapseSpot runs' := by
  have hforce := forceSpot_forall₂ runs runs' hruns
  rcases hruns with _ | ⟨hZ, _ | ⟨hY, hrest⟩⟩
  · rfl
  · rfl
  · rw [collapseSpot, collapseSpot, hforce, hZ.length_eq, hY.length_eq, unbalanced_forall₂ _ _ hrest]

theorem collectRuns_forall₂ (minRun fuel minGallop : Nat) {runs : List (List α)}
    {runs' : List (List β)} (hruns : List.Forall₂ (List.Forall₂ R) runs runs') {l : List α}
    {l' : List β} (hl : List.Forall₂ R l l') :
    ExceptRel (Stacks R) (collectRuns below minRun fuel minGallop runs l)
      (collectRuns below' minRun fuel minGallop runs' l') := by
  induction fuel generalizing minGallop runs runs' l l' with
  | zero =>
    cases hl with
    | nil => exact .ok ⟨hruns, rfl⟩
    | cons _ _ => exact .ok ⟨.nil, rfl⟩
  | succ fuel ih =>
    cases hl with
    | nil => exact .ok ⟨hruns, rfl⟩
    | cons ha hl =>
      rw [collectRuns, collectRuns, hruns.length_eq]
      refine (countRun_forall₂ h (.cons ha hl)).bind fun r r' hr =>
        (insertUpTo_forall₂ h minRun hr.1 hr.2).bind fun q q' hq =>
          (mergeWhile_forall₂ h collapseSpot_forall₂ _ minGallop (.cons hq.1 hruns)).bind
            fun s s' hs => ?_
      dsimp only
      rw [hs.2]
      exact ih s'.2 hs.1 hq.2

/-- Comparators that give the same answers on related elements sort related lists alike. -/
theorem sort_forall₂ {l : List α} {l' : List β} (hl : List.Forall₂ R l l') :
    ExceptRel (List.Forall₂ R) (sort below l) (sort below' l') := by
  unfold sort
  rw [hl.length_eq]
  split
  · exact .ok hl
  · refine (collectRuns_forall₂ h _ _ threshold .nil hl).bind fun r r' hr => ?_
    dsimp only
    rw [hr.1.length_eq, hr.2]
    exact (mergeWhile_forall₂ h forceSpot_forall₂ _ r'.2 hr.1).bind fun q q' hq =>
      .ok (List.rel_flatten hq.1)

end

/-- A comparator that throws on no two elements of the list does not make the sort throw. -/
theorem exists_sort {below : α → α → Except ε Bool} {l : List α}
    (h : ∀ a ∈ l, ∀ b ∈ l, ∃ c, below b a = .ok c) : ∃ l', sort below l = .ok l' := by
  -- seen as elements of the list, no two make it throw
  have hown : Returns (fun _ => True) (sort (fun b a : { a // a ∈ l } => below b.1 a.1) l.attach) := by
    refine (sort_gives (fun b a => ?_) l.attach).mono fun _ _ => trivial
    obtain ⟨c, hc⟩ := h a.1 a.2 b.1 b.2
    rw [hc]
    exact .ok trivial
  have hrel : List.Forall₂ (fun (a : { a // a ∈ l }) b => a.1 = b) l.attach l := by
    have hval : List.Forall₂ (fun (a : { a // a ∈ l }) b => a.1 = b) l.attach
        (l.attach.map Subtype.val) :=
      List.forall₂_map_right_iff.mpr (List.forall₂_same.mpr fun _ _ => rfl)
    rwa [List.attach_map_subtype_val] at hval
  have hboth : ExceptRel (List.Forall₂ fun (a : { a // a ∈ l }) b => a.1 = b)
      (sort (fun b a : { a // a ∈ l } => below b.1 a.1) l.attach) (sort below l) :=
    sort_forall₂ (fun b b' a a' hb ha => by rw [hb, ha]) hrel
  obtain ⟨l', hl', _⟩ := hown.exists_ok
  rw [hl'] at hboth
  revert hboth
  generalize sort below l = result
  intro hboth
  cases hboth with
  | ok _ => exact ⟨_, rfl⟩

end JtfpMall.Lib.TimSort
