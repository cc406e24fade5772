import Mathlib.Data.List.Infix

/-!
# Patterns that backtrack

A pattern is tried at a place of a text, which is the character before it and what follows, and
yields every way in which it matches there, the preferred one first. A sequence of patterns tries
the ways of the first in their order, so that its first way is the one a backtracking matcher
finds. Replacing goes through a text once, and where the pattern matches it goes on behind the
match.
-/

namespace JtfpMall.Lib

structure Place where
  before : Option Char
  rest : List Char

/-- The ways in which a pattern matches at a place, with the place behind each. -/
def Pattern (α : Type) : Type := Place → List (α × Place)

namespace Pattern

variable {α β : Type}

instance : Monad Pattern where
  pure a := fun here => [(a, here)]
  bind m k := fun here => (m here).flatMap fun r => k r.1 r.2

/-- The way that is preferred. -/
def first (m : Pattern α) (here : Place) : Option (α × Place) := (m here).head?

/-- One character of a class. -/
def oneOf (p : Char → Bool) : Pattern Char := fun here =>
  match here.rest with
  | [] => []
  | c :: cs => if p c then [(c, ⟨some c, cs⟩)] else []

/-- The letters of a word, in either case. -/
def letters : List Char → Pattern (List Char)
  | [] => pure []
  | w :: ws => do
    let c ← oneOf fun d => decide (d.toLower = w.toLower)
    let cs ← letters ws
    return c :: cs

def isWordChar (c : Char) : Bool := c.isAlphanum || decide (c = '_')

/-- A word begins or ends here. -/
def boundary : Pattern Unit := fun here =>
  if here.before.any isWordChar = here.rest.head?.any isWordChar then [] else [((), here)]

/-- A word behind a boundary. -/
def word (ws : List Char) : Pattern (List Char) := do
  boundary
  letters ws

/-- A word and a character of a class behind it. -/
def wordAnd (ws : List Char) (p : Char → Bool) : Pattern (List Char × Char) := do
  let cs ← word ws
  let c ← oneOf p
  return (cs, c)

/-- One, or none if with one there is no match. -/
def atMostOne (m : Pattern α) : Pattern (Option α) := fun here =>
  (m here).map (fun r => (some r.1, r.2)) ++ [(none, here)]

def lazyFrom (p : Char → Bool) : Option Char → List Char → List (List Char × Place)
  | before, [] => [([], ⟨before, []⟩)]
  | before, c :: cs => ([], ⟨before, c :: cs⟩) ::
    if p c then (lazyFrom p (some c) cs).map fun r => (c :: r.1, r.2) else []

/-- As few characters of a class as will do. -/
def lazyMany (p : Char → Bool) : Pattern (List Char) := fun here =>
  lazyFrom p here.before here.rest

def greedyFrom (p : Char → Bool) : Option Char → List Char → List (List Char × Place)
  | before, [] => [([], ⟨before, []⟩)]
  | before, c :: cs =>
    (if p c then (greedyFrom p (some c) cs).map fun r => (c :: r.1, r.2) else []) ++
      [([], ⟨before, c :: cs⟩)]

/-- As many characters of a class as will do. -/
def greedyMany (p : Char → Bool) : Pattern (List Char) := fun here =>
  greedyFrom p here.before here.rest

/-- As many as will do, and one at least. -/
def greedySome (p : Char → Bool) : Pattern (List Char) := do
  let c ← oneOf p
  let cs ← greedyMany p
  return c :: cs

/-- The pattern does not match here. -/
def notHere (m : Pattern α) : Pattern Unit := fun here =>
  if (m here).isEmpty then [((), here)] else []

/-- What follows with every match replaced, but for the first characters, which are passed over:
they belong to the last match. -/
def replaceFrom (m : Pattern α) (f : α → List Char) : Option Char → ℕ → List Char → List Char
  | before, 0, [] => ((first m ⟨before, []⟩).map fun r => f r.1).getD []
  | _, _ + 1, [] => []
  | _, n + 1, c :: cs => replaceFrom m f (some c) n cs
  | before, 0, c :: cs =>
    match first m ⟨before, c :: cs⟩ with
    | none => c :: replaceFrom m f (some c) 0 cs
    | some (a, behind) =>
      let used := (c :: cs).length - behind.rest.length
      -- behind an empty match a character stays
      f a ++ (if used = 0 then [c] else []) ++ replaceFrom m f (some c) (used - 1) cs

def replaceAll (m : Pattern α) (f : α → List Char) (cs : List Char) : List Char :=
  replaceFrom m f none 0 cs

/-- Character by character. -/
theorem forall_mem_of_all {P : Char → Prop} [DecidablePred P] {cs : List Char}
    (h : (cs.all fun c => decide (P c)) = true) : ∀ c ∈ cs, P c :=
  fun c hc => of_decide_eq_true (List.all_eq_true.mp h c hc)

theorem ascii_forall {P : Char → Prop} (h : ∀ n : Fin 128, P (Char.ofNat n)) {c : Char}
    (hc : c.toNat < 128) : P c := by
  rw [← Char.ofNat_toNat c]
  exact h ⟨c.toNat, hc⟩

theorem lt_of_isUpper {c : Char} (h : c.isUpper = true) : c.toNat < 128 := by
  have hle : c.val.toNat ≤ 90 := UInt32.le_iff_toNat_le.mp (of_decide_eq_true h).2
  exact Nat.lt_of_le_of_lt hle (by decide)

theorem lt_of_isWordChar {c : Char} (h : isWordChar c = true) : c.toNat < 128 := by
  by_contra hge
  have hval : 128 ≤ c.val.toNat := Nat.le_of_not_lt hge
  unfold isWordChar Char.isAlphanum Char.isAlpha Char.isUpper Char.isLower Char.isDigit at h
  simp only [Bool.or_eq_true, Bool.and_eq_true, decide_eq_true_eq, ge_iff_le,
    UInt32.le_iff_toNat_le] at h
  rcases h with ((⟨-, h⟩ | ⟨-, h⟩) | ⟨-, h⟩) | rfl
  · have h90 : c.val.toNat ≤ 90 := h
    omega
  · have h122 : c.val.toNat ≤ 122 := h
    omega
  · have h57 : c.val.toNat ≤ 57 := h
    omega
  · exact absurd hval (by decide)

theorem toLower_of_not_isUpper {c : Char} (h : c.isUpper = false) : c.toLower = c := by
  refine dif_neg fun hupper => ?_
  rw [show c.isUpper = true from decide_eq_true hupper] at h
  cases h

theorem isLower_toLower {c : Char} (h : c.isUpper = true) : c.toLower.isLower = true := by
  exact ascii_forall (P := fun c => c.isUpper = true → c.toLower.isLower = true) (by decide)
    (lt_of_isUpper h) h

/-- What becomes no letter stays. -/
theorem eq_of_toLower_eq {c d : Char} (h : c.toLower = d) (hd : d.isLower = false) : c = d := by
  cases hc : c.isUpper with
  | false => rwa [toLower_of_not_isUpper hc] at h
  | true =>
    rw [← h, isLower_toLower hc] at hd
    cases hd

theorem isWordChar_of_toLower {c : Char} (h : isWordChar c.toLower = true) :
    isWordChar c = true := by
  cases hc : c.isUpper with
  | false => rwa [toLower_of_not_isUpper hc] at h
  | true =>
    unfold isWordChar Char.isAlphanum Char.isAlpha
    rw [hc]
    rfl

/-- The character before what stands behind a text. -/
def after : Option Char → List Char → Option Char
  | before, [] => before
  | _, c :: cs => after (some c) cs

theorem after_append (before : Option Char) (cs ds : List Char) :
    after before (cs ++ ds) = after (after before cs) ds := by
  induction cs generalizing before with
  | nil => rfl
  | cons c cs ih => exact ih (some c)

theorem after_concat (before : Option Char) (cs : List Char) (c : Char) :
    after before (cs ++ [c]) = some c := by
  rw [after_append]
  rfl

theorem bind_apply (m : Pattern α) (k : α → Pattern β) (here : Place) :
    (m >>= k) here = (m here).flatMap fun r => k r.1 r.2 := rfl

theorem mem_bind {m : Pattern α} {k : α → Pattern β} {here : Place} {r : β × Place} :
    r ∈ (m >>= k) here ↔ ∃ q ∈ m here, r ∈ k q.1 q.2 := List.mem_flatMap

theorem bind_eq_nil_of_left {m : Pattern α} {here : Place} (h : m here = [])
    (k : α → Pattern β) : (m >>= k) here = [] := by
  rw [bind_apply, h, List.flatMap_nil]

theorem bind_eq_nil_iff {m : Pattern α} {k : α → Pattern β} {here : Place} :
    (m >>= k) here = [] ↔ ∀ q ∈ m here, k q.1 q.2 = [] := List.flatMap_eq_nil_iff

theorem bind_singleton {m : Pattern α} {here behind : Place} {a : α} (h : m here = [(a, behind)])
    (k : α → Pattern β) : (m >>= k) here = k a behind := by
  rw [bind_apply, h, List.flatMap_singleton]

/-- The first way of a sequence goes through the first way of what it begins with, where that can go
on. -/
theorem first_bind {m : Pattern α} {k : α → Pattern β} {here behind : Place} {a : α}
    {r : β × Place} (h : first m here = some (a, behind)) (hk : first (k a) behind = some r) :
    first (m >>= k) here = some r := by
  unfold first at h hk ⊢
  obtain ⟨more, hmore⟩ := List.head?_eq_some_iff.mp h
  rw [bind_apply, hmore, List.flatMap_cons, List.head?_append, hk, Option.some_or]

theorem first_eq_none {m : Pattern α} {here : Place} : first m here = none ↔ m here = [] :=
  List.head?_eq_none_iff

theorem oneOf_cons_of_pos {p : Char → Bool} {c : Char} (h : p c = true) (before : Option Char)
    (cs : List Char) : oneOf p ⟨before, c :: cs⟩ = [(c, ⟨some c, cs⟩)] := if_pos h

theorem oneOf_cons_of_neg {p : Char → Bool} {c : Char} (h : p c = false) (before : Option Char)
    (cs : List Char) : oneOf p ⟨before, c :: cs⟩ = [] := if_neg (by rw [h]; exact Bool.false_ne_true)

theorem mem_oneOf {p : Char → Bool} {before : Option Char} {cs : List Char}
    {r : Char × Place} : r ∈ oneOf p ⟨before, cs⟩ ↔
      ∃ c ds, cs = c :: ds ∧ p c = true ∧ r = (c, ⟨some c, ds⟩) := by
  cases cs with
  | nil => exact iff_of_false List.not_mem_nil (by rintro ⟨_, _, h, -⟩; cases h)
  | cons c ds =>
    cases hc : p c with
    | true =>
      rw [oneOf_cons_of_pos hc, List.mem_singleton]
      constructor
      · rintro rfl
        exact ⟨c, ds, rfl, hc, rfl⟩
      · rintro ⟨_, _, h, -, rfl⟩
        cases h
        rfl
    | false =>
      rw [oneOf_cons_of_neg hc]
      refine iff_of_false List.not_mem_nil ?_
      rintro ⟨_, _, h, hp, -⟩
      cases h
      rw [hc] at hp
      cases hp

/-- The texts a word of the pattern stands for. -/
def SameWord (cs ws : List Char) : Prop := cs.map Char.toLower = ws.map Char.toLower

instance (cs ws : List Char) : Decidable (SameWord cs ws) :=
  inferInstanceAs (Decidable (_ = _))

theorem isWordChar_after (ws : List Char) {cs : List Char} {w : Char}
    (h : SameWord cs (ws ++ [w])) (hw : isWordChar w.toLower = true) (before : Option Char) :
    (after before cs).any isWordChar = true := by
  rcases List.eq_nil_or_concat cs with rfl | ⟨us, c, rfl⟩
  · have hnil := h.symm
    rw [List.map_append] at hnil
    exact absurd (List.append_eq_nil_iff.mp hnil).2 (List.cons_ne_nil _ _)
  · unfold SameWord at h
    rw [List.concat_eq_append, List.map_append, List.map_append] at h
    have hlast := (List.append_inj' h rfl).2
    rw [List.concat_eq_append, after_concat]
    exact isWordChar_of_toLower ((List.cons.inj hlast).1 ▸ hw)

theorem letters_append {cs ws : List Char} (h : SameWord cs ws) (before : Option Char)
    (ds : List Char) : letters ws ⟨before, cs ++ ds⟩ = [(cs, ⟨after before cs, ds⟩)] := by
  induction ws generalizing cs before with
  | nil =>
    obtain rfl := List.map_eq_nil_iff.mp h
    rfl
  | cons w ws ih =>
    cases cs with
    | nil => cases h
    | cons c cs =>
      obtain ⟨hc, hcs⟩ := List.cons.inj h
      rw [letters, List.cons_append, bind_singleton (oneOf_cons_of_pos (decide_eq_true hc) _ _),
        bind_singleton (ih hcs (some c))]
      rfl

theorem mem_letters {ws cs : List Char} {before : Option Char} {r : List Char × Place} :
    r ∈ letters ws ⟨before, cs⟩ ↔
      ∃ us ds, cs = us ++ ds ∧ SameWord us ws ∧ r = (us, ⟨after before us, ds⟩) := by
  constructor
  · intro hr
    induction ws generalizing cs before r with
    | nil => exact ⟨[], cs, rfl, rfl, List.mem_singleton.mp hr⟩
    | cons w ws ih =>
      obtain ⟨q, hq, hr⟩ := mem_bind.mp hr
      obtain ⟨c, es, rfl, hc, rfl⟩ := mem_oneOf.mp hq
      obtain ⟨q', hq', hr⟩ := mem_bind.mp hr
      obtain ⟨us, ds, rfl, hus, rfl⟩ := ih hq'
      rw [List.mem_singleton.mp hr]
      refine ⟨c :: us, ds, rfl, ?_, rfl⟩
      exact List.cons_eq_cons.mpr ⟨of_decide_eq_true hc, hus⟩
  · rintro ⟨us, ds, rfl, hus, rfl⟩
    rw [letters_append hus]
    exact List.mem_singleton_self _

theorem letters_eq_nil_iff {ws cs : List Char} {before : Option Char} :
    letters ws ⟨before, cs⟩ = [] ↔ ¬ ws.map Char.toLower <+: cs.map Char.toLower := by
  constructor
  · intro hnone hprefix
    obtain ⟨us, ⟨ds, rfl⟩, hword⟩ := List.prefix_map_iff.mp hprefix
    rw [letters_append hword.symm] at hnone
    cases hnone
  · intro hnot
    by_contra hsome
    obtain ⟨r, hr⟩ := List.exists_mem_of_ne_nil _ hsome
    obtain ⟨us, ds, rfl, hus, -⟩ := mem_letters.mp hr
    refine hnot ?_
    rw [List.map_append, hus]
    exact List.prefix_append _ _

theorem boundary_of {before : Option Char} {cs : List Char}
    (h : before.any isWordChar ≠ cs.head?.any isWordChar) :
    boundary ⟨before, cs⟩ = [((), ⟨before, cs⟩)] := if_neg h

theorem mem_boundary {before : Option Char} {cs : List Char} {r : Unit × Place} :
    r ∈ boundary ⟨before, cs⟩ ↔
      before.any isWordChar ≠ cs.head?.any isWordChar ∧ r = ((), ⟨before, cs⟩) := by
  by_cases h : before.any isWordChar = cs.head?.any isWordChar
  · have hnone : boundary ⟨before, cs⟩ = [] := if_pos h
    rw [hnone]
    exact iff_of_false List.not_mem_nil fun hr => hr.1 h
  · rw [boundary_of h, List.mem_singleton]
    exact (and_iff_right h).symm

theorem word_append {cs ws : List Char} (h : SameWord cs ws) {before : Option Char}
    {ds : List Char} (hboundary : before.any isWordChar ≠ (cs ++ ds).head?.any isWordChar) :
    word ws ⟨before, cs ++ ds⟩ = [(cs, ⟨after before cs, ds⟩)] := by
  unfold word
  rw [bind_singleton (boundary_of hboundary), letters_append h]

theorem mem_word {ws cs : List Char} {before : Option Char} {r : List Char × Place} :
    r ∈ word ws ⟨before, cs⟩ ↔ before.any isWordChar ≠ cs.head?.any isWordChar ∧
      ∃ us ds, cs = us ++ ds ∧ SameWord us ws ∧ r = (us, ⟨after before us, ds⟩) := by
  constructor
  · intro hr
    obtain ⟨q, hq, hr⟩ := mem_bind.mp hr
    obtain ⟨hboundary, rfl⟩ := mem_boundary.mp hq
    exact ⟨hboundary, mem_letters.mp hr⟩
  · rintro ⟨hboundary, us, ds, rfl, hus, rfl⟩
    rw [word_append hus hboundary]
    exact List.mem_singleton_self _

theorem word_eq_nil {ws cs : List Char} {before : Option Char}
    (h : ¬ ws.map Char.toLower <+: cs.map Char.toLower) : word ws ⟨before, cs⟩ = [] := by
  refine bind_eq_nil_iff.mpr fun q hq => ?_
  obtain ⟨-, rfl⟩ := mem_boundary.mp hq
  exact letters_eq_nil_iff.mpr h

/-- Of the character before it a word needs to know only what the boundary does. -/
theorem word_before {ws : List Char} (hne : ws ≠ []) {before before' : Option Char}
    (h : before.any isWordChar = before'.any isWordChar) (cs : List Char) :
    word ws ⟨before, cs⟩ = word ws ⟨before', cs⟩ := by
  cases ws with
  | nil => exact absurd rfl hne
  | cons w ws =>
    unfold word
    by_cases hboundary : before.any isWordChar = cs.head?.any isWordChar
    · rw [bind_eq_nil_of_left (if_pos hboundary), bind_eq_nil_of_left (if_pos (h ▸ hboundary))]
    · rw [bind_singleton (boundary_of hboundary), bind_singleton (boundary_of (h ▸ hboundary))]
      rfl

theorem mem_wordAnd {ws cs : List Char} {p : Char → Bool} {before : Option Char}
    {r : (List Char × Char) × Place} : r ∈ wordAnd ws p ⟨before, cs⟩ ↔
      before.any isWordChar ≠ cs.head?.any isWordChar ∧ ∃ us c ds, cs = us ++ c :: ds ∧
        SameWord us ws ∧ p c = true ∧ r = ((us, c), ⟨some c, ds⟩) := by
  constructor
  · intro hr
    obtain ⟨q, hq, hr⟩ := mem_bind.mp hr
    obtain ⟨hboundary, us, es, rfl, hus, rfl⟩ := mem_word.mp hq
    obtain ⟨q', hq', hr⟩ := mem_bind.mp hr
    obtain ⟨c, ds, rfl, hc, rfl⟩ := mem_oneOf.mp hq'
    exact ⟨hboundary, us, c, ds, rfl, hus, hc, List.mem_singleton.mp hr⟩
  · rintro ⟨hboundary, us, c, ds, rfl, hus, hc, rfl⟩
    refine mem_bind.mpr ⟨_, mem_word.mpr ⟨hboundary, us, c :: ds, rfl, hus, rfl⟩, ?_⟩
    exact mem_bind.mpr ⟨_, mem_oneOf.mpr ⟨c, ds, rfl, hc, rfl⟩, List.mem_singleton_self _⟩

/-- What does not have a character ends before it. -/
theorem append_of_avoids {us es cs ds : List Char} {c : Char} (h : us ++ es = cs ++ c :: ds)
    (hc : c ∉ us) : ∃ vs, cs = us ++ vs ∧ es = vs ++ c :: ds := by
  rcases List.append_eq_append_iff.mp h with ⟨vs, hcs, hes⟩ | ⟨vs, hus, hds⟩
  · exact ⟨vs, hcs, hes⟩
  · cases vs with
    | nil => exact ⟨[], by rw [hus, List.append_nil, List.append_nil], hds.symm⟩
    | cons v vs =>
      obtain rfl := (List.cons.inj hds).1
      exact absurd (hus ▸ List.mem_append_right cs List.mem_cons_self) hc

theorem not_mem_of_sameWord {us ws : List Char} (h : SameWord us ws) {c : Char}
    (hc : c.toLower ∉ ws.map Char.toLower) : c ∉ us :=
  fun hmem => hc (h ▸ List.mem_map_of_mem hmem)

theorem head?_append_cons (cs : List Char) (c : Char) (ds ds' : List Char) :
    (cs ++ c :: ds).head? = (cs ++ c :: ds').head? := by
  cases cs <;> rfl

section
variable {ws cs ds ds' : List Char} {before : Option Char} {c : Char}

/-- Before a character that no word has, what is behind that character does not matter. -/
theorem word_stops (hc : c.toLower ∉ ws.map Char.toLower)
    (h : word ws ⟨before, cs ++ c :: ds⟩ = []) : word ws ⟨before, cs ++ c :: ds'⟩ = [] := by
  by_contra hsome
  obtain ⟨r, hr⟩ := List.exists_mem_of_ne_nil _ hsome
  obtain ⟨hboundary, us, es, hcs, hus, -⟩ := mem_word.mp hr
  obtain ⟨vs, rfl, -⟩ := append_of_avoids hcs.symm (not_mem_of_sameWord hus hc)
  rw [head?_append_cons _ c ds' ds] at hboundary
  have hfound := mem_word.mpr ⟨hboundary, us, _, List.append_assoc us vs _, hus, rfl⟩
  rw [h] at hfound
  cases hfound

theorem wordAnd_stops {p : Char → Bool} (hc : c.toLower ∉ ws.map Char.toLower)
    (h : wordAnd ws p ⟨before, cs ++ c :: ds⟩ = []) :
    wordAnd ws p ⟨before, cs ++ c :: ds'⟩ = [] := by
  by_contra hsome
  obtain ⟨r, hr⟩ := List.exists_mem_of_ne_nil _ hsome
  obtain ⟨hboundary, us, d, es, hcs, hus, hd, -⟩ := mem_wordAnd.mp hr
  obtain ⟨vs, rfl, hes⟩ := append_of_avoids hcs.symm (not_mem_of_sameWord hus hc)
  rw [head?_append_cons _ c ds' ds] at hboundary
  obtain ⟨es', hes'⟩ : ∃ es', d :: es' = vs ++ c :: ds := by
    cases vs with
    | nil => exact ⟨ds, by rw [(List.cons.inj hes).1]; rfl⟩
    | cons v vs => exact ⟨vs ++ c :: ds, by rw [(List.cons.inj hes).1]; rfl⟩
  have hfound : ((us, d), ⟨some d, es'⟩) ∈ wordAnd ws p ⟨before, us ++ vs ++ c :: ds⟩ :=
    mem_wordAnd.mpr ⟨hboundary, us, d, es', by rw [List.append_assoc, hes'], hus, hd, rfl⟩
  rw [h] at hfound
  cases hfound

end

section
variable {p : Char → Bool}

theorem lazyMany_cons {c : Char} (h : p c = true) (before : Option Char) (cs : List Char) :
    lazyMany p ⟨before, c :: cs⟩ = ([], ⟨before, c :: cs⟩) ::
      (lazyMany p ⟨some c, cs⟩).map fun r => (c :: r.1, r.2) := by
  unfold lazyMany
  rw [lazyFrom, if_pos h]

theorem lazyMany_stop {before : Option Char} {cs : List Char} (h : ∀ c ∈ cs.head?, p c = false) :
    lazyMany p ⟨before, cs⟩ = [([], ⟨before, cs⟩)] := by
  cases cs with
  | nil => rfl
  | cons c cs =>
    unfold lazyMany
    rw [lazyFrom, if_neg (by rw [h c rfl]; exact Bool.false_ne_true)]

/-- The fewest characters will do. -/
theorem first_lazyMany {k : List Char → Pattern β} {here : Place} {r : β × Place}
    (h : first (k []) here = some r) : first (lazyMany p >>= k) here = some r := by
  refine first_bind ?_ h
  obtain ⟨before, cs⟩ := here
  cases cs <;> rfl

theorem greedyMany_cons {c : Char} (h : p c = true) (before : Option Char) (cs : List Char) :
    greedyMany p ⟨before, c :: cs⟩ =
      (greedyMany p ⟨some c, cs⟩).map (fun r => (c :: r.1, r.2)) ++ [([], ⟨before, c :: cs⟩)] := by
  unfold greedyMany
  rw [greedyFrom, if_pos h]

theorem greedyMany_stop {before : Option Char} {cs : List Char} (h : ∀ c ∈ cs.head?, p c = false) :
    greedyMany p ⟨before, cs⟩ = [([], ⟨before, cs⟩)] := by
  cases cs with
  | nil => rfl
  | cons c cs =>
    unfold greedyMany
    rw [greedyFrom, if_neg (by rw [h c rfl]; exact Bool.false_ne_true), List.nil_append]

theorem first_greedyMany {cs ds : List Char} (hcs : ∀ c ∈ cs, p c = true)
    (hds : ∀ c ∈ ds.head?, p c = false) (before : Option Char) :
    first (greedyMany p) ⟨before, cs ++ ds⟩ = some (cs, ⟨after before cs, ds⟩) := by
  induction cs generalizing before with
  | nil =>
    unfold first
    rw [List.nil_append, greedyMany_stop hds]
    rfl
  | cons c cs ih =>
    have hrest := ih (fun d hd => hcs d (List.mem_cons_of_mem c hd)) (some c)
    unfold first at hrest ⊢
    obtain ⟨more, hmore⟩ := List.head?_eq_some_iff.mp hrest
    rw [List.cons_append, greedyMany_cons (hcs c List.mem_cons_self), hmore]
    rfl

theorem mem_greedyMany {before : Option Char} {cs : List Char} {r : List Char × Place} :
    r ∈ greedyMany p ⟨before, cs⟩ ↔
      ∃ us ds, cs = us ++ ds ∧ (∀ c ∈ us, p c = true) ∧ r = (us, ⟨after before us, ds⟩) := by
  induction cs generalizing before r with
  | nil =>
    constructor
    · intro hr
      exact ⟨[], [], rfl, (fun _ hc => nomatch hc), List.mem_singleton.mp hr⟩
    · rintro ⟨us, ds, hcs, -, rfl⟩
      obtain ⟨rfl, rfl⟩ := List.append_eq_nil_iff.mp hcs.symm
      exact List.mem_singleton_self _
  | cons c cs ih =>
    cases hc : p c with
    | false =>
      rw [greedyMany_stop (by rintro d ⟨⟩; exact hc), List.mem_singleton]
      constructor
      · rintro rfl
        exact ⟨[], c :: cs, rfl, (fun _ hc => nomatch hc), rfl⟩
      · rintro ⟨us, ds, hcs, hus, rfl⟩
        cases us with
        | nil =>
          obtain rfl : c :: cs = ds := hcs
          rfl
        | cons u us =>
          obtain rfl := (List.cons.inj hcs).1
          rw [hus c List.mem_cons_self] at hc
          cases hc
    | true =>
      rw [greedyMany_cons hc, List.mem_append, List.mem_map, List.mem_singleton]
      constructor
      · rintro (⟨q, hq, rfl⟩ | rfl)
        · obtain ⟨us, ds, rfl, hus, rfl⟩ := ih.mp hq
          refine ⟨c :: us, ds, rfl, ?_, rfl⟩
          rintro d (_ | ⟨_, hd⟩)
          · exact hc
          · exact hus d hd
        · exact ⟨[], c :: cs, rfl, (fun _ hc => nomatch hc), rfl⟩
      · rintro ⟨us, ds, hcs, hus, rfl⟩
        cases us with
        | nil =>
          obtain rfl : c :: cs = ds := hcs
          exact Or.inr rfl
        | cons u us =>
          obtain ⟨rfl, rfl⟩ := List.cons.inj hcs
          refine Or.inl ⟨_, ih.mpr ⟨us, ds, rfl, fun d hd => ?_, rfl⟩, rfl⟩
          exact hus d (List.mem_cons_of_mem c hd)

/-- A run and what follows it. -/
theorem first_greedySome {cs ds : List Char} (hne : cs ≠ []) (hcs : ∀ c ∈ cs, p c = true)
    (hds : ∀ c ∈ ds.head?, p c = false) (before : Option Char) :
    first (greedySome p) ⟨before, cs ++ ds⟩ = some (cs, ⟨after before cs, ds⟩) := by
  cases cs with
  | nil => exact absurd rfl hne
  | cons c cs =>
    have hfirst : first (oneOf p) ⟨before, c :: cs ++ ds⟩ = some (c, ⟨some c, cs ++ ds⟩) := by
      unfold first
      rw [List.cons_append, oneOf_cons_of_pos (hcs c List.mem_cons_self)]
      rfl
    exact first_bind hfirst (first_bind
      (first_greedyMany (fun d hd => hcs d (List.mem_cons_of_mem c hd)) hds (some c)) rfl)

theorem mem_greedySome {before : Option Char} {cs : List Char} {r : List Char × Place} :
    r ∈ greedySome p ⟨before, cs⟩ ↔ ∃ us ds, cs = us ++ ds ∧ us ≠ [] ∧ (∀ c ∈ us, p c = true) ∧
      r = (us, ⟨after before us, ds⟩) := by
  constructor
  · intro hr
    obtain ⟨q, hq, hr⟩ := mem_bind.mp hr
    obtain ⟨c, es, rfl, hc, rfl⟩ := mem_oneOf.mp hq
    obtain ⟨q', hq', hr⟩ := mem_bind.mp hr
    obtain ⟨us, ds, rfl, hus, rfl⟩ := mem_greedyMany.mp hq'
    rw [List.mem_singleton.mp hr]
    refine ⟨c :: us, ds, rfl, List.cons_ne_nil c us, ?_, rfl⟩
    rintro d (_ | ⟨_, hd⟩)
    · exact hc
    · exact hus d hd
  · rintro ⟨us, ds, rfl, hne, hus, rfl⟩
    cases us with
    | nil => exact absurd rfl hne
    | cons c us =>
      refine mem_bind.mpr ⟨_, mem_oneOf.mpr ⟨c, us ++ ds, rfl, hus c List.mem_cons_self, rfl⟩, ?_⟩
      exact mem_bind.mpr ⟨_, mem_greedyMany.mpr
        ⟨us, ds, rfl, fun d hd => hus d (List.mem_cons_of_mem c hd), rfl⟩,
        List.mem_singleton_self _⟩

theorem mem_atMostOne {m : Pattern α} {here : Place} {r : Option α × Place} :
    r ∈ atMostOne m here ↔ (∃ q ∈ m here, r = (some q.1, q.2)) ∨ r = (none, here) := by
  unfold atMostOne
  rw [List.mem_append, List.mem_map, List.mem_singleton]
  simp only [eq_comm]

end

/-- At no place of a text, with more behind it, does the pattern match. -/
def absentIn (m : Pattern α) (ds : List Char) : Option Char → List Char → Bool
  | _, [] => true
  | before, c :: cs => (m ⟨before, c :: cs ++ ds⟩).isEmpty && absentIn m ds (some c) cs

section
variable {m : Pattern α}

theorem absentIn_cons {before : Option Char} {c : Char} {cs ds : List Char} :
    absentIn m ds before (c :: cs) = true ↔
      m ⟨before, c :: (cs ++ ds)⟩ = [] ∧ absentIn m ds (some c) cs = true := by
  rw [absentIn, Bool.and_eq_true, List.isEmpty_iff, List.cons_append]

theorem absentIn_append {before : Option Char} {cs es ds : List Char} :
    absentIn m ds before (cs ++ es) = true ↔
      absentIn m (es ++ ds) before cs = true ∧ absentIn m ds (after before cs) es = true := by
  induction cs generalizing before with
  | nil => exact (and_iff_right rfl).symm
  | cons c cs ih =>
    rw [List.cons_append, absentIn_cons, absentIn_cons, ih, List.append_assoc]
    exact and_assoc.symm

/-- A rule for texts: place by place. -/
theorem absentIn_of_forall {before : Option Char} {cs ds : List Char}
    (h : ∀ us c es, cs = us ++ c :: es → m ⟨after before us, c :: (es ++ ds)⟩ = []) :
    absentIn m ds before cs = true := by
  induction cs generalizing before with
  | nil => rfl
  | cons c cs ih =>
    refine absentIn_cons.mpr ⟨h [] c cs rfl, ih fun us d es hcs => ?_⟩
    exact h (c :: us) d es (congrArg (c :: ·) hcs)

theorem absentIn_forall {before : Option Char} {cs ds : List Char}
    (h : absentIn m ds before cs = true) {us : List Char} {c : Char} {es : List Char}
    (hcs : cs = us ++ c :: es) : m ⟨after before us, c :: (es ++ ds)⟩ = [] := by
  rw [hcs, absentIn_append] at h
  exact (absentIn_cons.mp h.2).1

theorem absentIn_before {before before' : Option Char}
    (h : ∀ cs, m ⟨before, cs⟩ = m ⟨before', cs⟩) (cs ds : List Char) :
    absentIn m ds before cs = absentIn m ds before' cs := by
  cases cs with
  | nil => rfl
  | cons c cs => rw [absentIn, absentIn, h]

/-- Before a character behind which the pattern does not look. -/
theorem absentIn_stops {before : Option Char} {cs ds ds' : List Char} {c : Char}
    (hstops : ∀ before us, m ⟨before, us ++ c :: ds⟩ = [] → m ⟨before, us ++ c :: ds'⟩ = [])
    (h : absentIn m ds before (cs ++ [c]) = true) :
    absentIn m ds' before (cs ++ [c]) = true := by
  induction cs generalizing before with
  | nil =>
    obtain ⟨hhere, -⟩ := absentIn_cons.mp h
    exact absentIn_cons.mpr ⟨hstops before [] hhere, rfl⟩
  | cons d cs ih =>
    rw [List.cons_append, absentIn_cons, List.append_assoc] at h
    rw [List.cons_append, absentIn_cons, List.append_assoc]
    exact ⟨hstops before (d :: cs) h.1, ih h.2⟩

theorem absentIn_bind {before : Option Char} {cs ds : List Char}
    (h : absentIn m ds before cs = true) (k : α → Pattern β) :
    absentIn (m >>= k) ds before cs = true :=
  absentIn_of_forall fun _ _ _ hcs => bind_eq_nil_of_left (absentIn_forall h hcs) k

/-- Where the rest of the pattern does not match it is passed over. -/
theorem lazyMany_skip {p : Char → Bool} {k : List Char → Pattern β} {before : Option Char}
    {cs ds : List Char} (hcs : ∀ c ∈ cs, p c = true)
    (habsent : ∀ us, absentIn (k us) ds before cs = true) :
    (lazyMany p >>= k) ⟨before, cs ++ ds⟩ =
      (lazyMany p >>= fun us => k (cs ++ us)) ⟨after before cs, ds⟩ := by
  induction cs generalizing before k with
  | nil => rfl
  | cons c cs ih =>
    have hrest := ih (k := fun us => k (c :: us))
      (fun d hd => hcs d (List.mem_cons_of_mem c hd))
      (fun us => (absentIn_cons.mp (habsent (c :: us))).2)
    have hhere := (absentIn_cons.mp (habsent [])).1
    rw [List.cons_append, bind_apply, lazyMany_cons (hcs c List.mem_cons_self), List.flatMap_cons,
      hhere, List.nil_append, List.flatMap_map]
    exact hrest

/-- Looking as far as a class reaches finds nothing where there is nothing. -/
theorem greedyMany_absent {p : Char → Bool} {before : Option Char} {cs ds : List Char}
    (habsent : absentIn m ds before cs = true) (hds : ∀ c ∈ ds.head?, p c = false)
    (hend : m ⟨after before cs, ds⟩ = []) :
    (greedyMany p >>= fun _ => m) ⟨before, cs ++ ds⟩ = [] := by
  induction cs generalizing before with
  | nil =>
    rw [List.nil_append, bind_singleton (greedyMany_stop hds)]
    exact hend
  | cons c cs ih =>
    obtain ⟨hhere, hrest⟩ := absentIn_cons.mp habsent
    have hlater := ih hrest hend
    cases hc : p c with
    | false =>
      rw [List.cons_append, bind_singleton (greedyMany_stop (by rintro d ⟨⟩; exact hc))]
      exact hhere
    | true =>
      rw [bind_apply] at hlater ⊢
      rw [List.cons_append, greedyMany_cons hc, List.flatMap_append, List.flatMap_map, hlater,
        List.nil_append, List.flatMap_singleton]
      exact hhere

end

section
variable {m : Pattern α} {f : α → List Char}

theorem replaceFrom_skip (before : Option Char) (cs ds : List Char) :
    replaceFrom m f before cs.length (cs ++ ds) = replaceFrom m f (after before cs) 0 ds := by
  induction cs generalizing before with
  | nil => rfl
  | cons c cs ih =>
    rw [List.length_cons, List.cons_append, replaceFrom, ih]
    rfl

/-- Where the pattern matches nowhere a text stays. -/
theorem replaceFrom_absent {before : Option Char} {cs ds : List Char}
    (h : absentIn m ds before cs = true) :
    replaceFrom m f before 0 (cs ++ ds) = cs ++ replaceFrom m f (after before cs) 0 ds := by
  induction cs generalizing before with
  | nil => rfl
  | cons c cs ih =>
    obtain ⟨hhere, hrest⟩ := absentIn_cons.mp h
    rw [List.cons_append, replaceFrom, first_eq_none.mpr hhere]
    exact congrArg (c :: ·) (ih hrest)

/-- A match is replaced. -/
theorem replaceFrom_match {before behind : Option Char} {cs ds : List Char} {a : α}
    (hne : cs ≠ []) (h : first m ⟨before, cs ++ ds⟩ = some (a, ⟨behind, ds⟩)) :
    replaceFrom m f before 0 (cs ++ ds) = f a ++ replaceFrom m f (after before cs) 0 ds := by
  cases cs with
  | nil => exact absurd rfl hne
  | cons c cs =>
    have hused : (c :: (cs ++ ds)).length - ds.length = cs.length + 1 := by
      rw [List.length_cons, List.length_append]
      omega
    rw [List.cons_append] at h ⊢
    rw [replaceFrom, h]
    dsimp only
    rw [hused, if_neg (Nat.succ_ne_zero _), List.append_nil, Nat.add_sub_cancel, replaceFrom_skip]
    rfl

end

end Pattern

end JtfpMall.Lib
