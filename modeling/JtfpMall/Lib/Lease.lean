import Mathlib.Data.List.Chain
import Mathlib.Data.List.Basic

/-!
# Leases that slide

A lease is granted for a while, and every use within the while extends it by as much again. A
use that comes too late ends the lease, as a revocation does. Clocks are read when something
begins and when it ends.
-/

namespace JtfpMall.Lib

/-- When something began and when it ended. -/
structure Span where
  start : ℕ
  finish : ℕ
deriving DecidableEq

/-- What may happen to a lease. -/
inductive Touch where
  | granted (t : Span)
  | used (t : Span)
  | revoked
  /-- Something that does not concern the lease. -/
  | elsewhere

/-- The lease, by its deadline, is still running when `t` begins. -/
def accepts (lease : Option ℕ) (t : Span) : Bool := lease.any fun deadline => decide (t.start ≤ deadline)

variable (lasts : ℕ)

def Touch.apply (lease : Option ℕ) : Touch → Option ℕ
  | granted t => some (t.finish + lasts)
  | used t => if accepts lease t then some (t.finish + lasts) else none
  | revoked => none
  | elsewhere => lease

/-- The lease after what happened to it. -/
def leaseAfter (lease : Option ℕ) (touches : List Touch) : Option ℕ :=
  touches.foldl (Touch.apply lasts) lease

/-- The use, if it is one and comes in time. -/
def Touch.accepted (lease : Option ℕ) : Touch → List Span
  | used t => if accepts lease t then [t] else []
  | _ => []

/-- The uses that came in time. -/
def usesAccepted : Option ℕ → List Touch → List Span
  | _, [] => []
  | lease, touch :: touches =>
    touch.accepted lease ++ usesAccepted (touch.apply lasts lease) touches

/-- `b` begins within the while after `a` ended. -/
def Within (a b : Span) : Prop := b.start ≤ a.finish + lasts

instance (a b : Span) : Decidable (Within lasts a b) := Nat.decLe _ _

variable {lasts} {touches : List Touch} {t : Span}

theorem leaseAfter_append (lease : Option ℕ) (l m : List Touch) :
    leaseAfter lasts lease (l ++ m) = leaseAfter lasts (leaseAfter lasts lease l) m :=
  List.foldl_append

theorem leaseAfter_cons (lease : Option ℕ) (x : Touch) (l : List Touch) :
    leaseAfter lasts lease (x :: l) = leaseAfter lasts (x.apply lasts lease) l := rfl

section
variable {a u : Span}

theorem apply_used (h : Within lasts a u) :
    Touch.apply lasts (some (a.finish + lasts)) (.used u) = some (u.finish + lasts) :=
  if_pos (decide_eq_true (p := Within lasts a u) h)

theorem apply_used_of_not (h : ¬Within lasts a u) :
    Touch.apply lasts (some (a.finish + lasts)) (.used u) = none :=
  if_neg fun hd => h (of_decide_eq_true (p := Within lasts a u) hd)

theorem usesAccepted_used (h : Within lasts a u) (l : List Touch) :
    usesAccepted lasts (some (a.finish + lasts)) (.used u :: l) =
      u :: usesAccepted lasts (some (u.finish + lasts)) l := by
  have haccept : Touch.accepted (some (a.finish + lasts)) (.used u) = [u] :=
    if_pos (decide_eq_true (p := Within lasts a u) h)
  rw [usesAccepted, apply_used h, haccept]
  rfl

theorem usesAccepted_used_of_not (h : ¬Within lasts a u) (l : List Touch) :
    usesAccepted lasts (some (a.finish + lasts)) (.used u :: l) = usesAccepted lasts none l := by
  have haccept : Touch.accepted (some (a.finish + lasts)) (.used u) = [] :=
    if_neg fun hd => h (of_decide_eq_true (p := Within lasts a u) hd)
  rw [usesAccepted, apply_used_of_not h, haccept]
  rfl

end

/-- Nothing but a grant makes a lease. -/
theorem leaseAfter_none (h : ∀ g, .granted g ∉ touches) : leaseAfter lasts none touches = none := by
  induction touches with
  | nil => rfl
  | cons x l ih =>
    have hx : x.apply lasts none = none := by
      cases x with
      | granted g => exact absurd List.mem_cons_self (h g)
      | _ => rfl
    rw [leaseAfter_cons, hx]
    exact ih fun g hg => h g (List.mem_cons_of_mem x hg)

theorem usesAccepted_none (h : ∀ g, .granted g ∉ touches) : usesAccepted lasts none touches = [] := by
  induction touches with
  | nil => rfl
  | cons x l ih =>
    have hl := ih fun g hg => h g (List.mem_cons_of_mem x hg)
    cases x with
    | granted g => exact absurd List.mem_cons_self (h g)
    | _ => exact hl

/-- What was revoked is not held again without a grant. -/
theorem leaseAfter_of_mem_revoked (h : ∀ g, .granted g ∉ touches) (hr : .revoked ∈ touches)
    (lease : Option ℕ) : leaseAfter lasts lease touches = none := by
  obtain ⟨before, after, rfl⟩ := List.append_of_mem hr
  rw [leaseAfter_append, leaseAfter_cons]
  exact leaseAfter_none fun g hg => h g (List.mem_append_right _ (List.mem_cons_of_mem _ hg))

/-- A lease last extended at `a` and not revoked runs on exactly along the chain of its uses. -/
theorem accepts_leaseAfter_iff {a : Span} (hg : ∀ g, .granted g ∉ touches)
    (hr : .revoked ∉ touches) (ht : ∀ u, .used u ∈ touches → u.start ≤ t.start) :
    accepts (leaseAfter lasts (some (a.finish + lasts)) touches) t = true ↔
      List.IsChain (Within lasts)
        (a :: usesAccepted lasts (some (a.finish + lasts)) touches ++ [t]) := by
  induction touches generalizing a with
  | nil =>
    change decide (t.start ≤ a.finish + lasts) = true ↔ _
    rw [decide_eq_true_eq]
    exact (List.isChain_pair (R := Within lasts)).symm
  | cons x l ih =>
    have hg' := fun g hm => hg g (List.mem_cons_of_mem x hm)
    have ih := fun a => ih (a := a) hg' (fun hm => hr (List.mem_cons_of_mem x hm))
      fun u hu => ht u (List.mem_cons_of_mem x hu)
    rw [leaseAfter_cons]
    cases x with
    | granted g => exact absurd List.mem_cons_self (hg g)
    | revoked => exact absurd List.mem_cons_self hr
    | elsewhere => exact ih a
    | used u =>
      by_cases hu : Within lasts a u
      · rw [apply_used hu, usesAccepted_used hu, ih u]
        exact (List.isChain_cons_cons.trans (and_iff_right hu)).symm
      · -- the use came too late: the lease is gone, and `t` is later still
        have hbreak : ¬Within lasts a t := fun h => hu ((ht u List.mem_cons_self).trans h)
        rw [apply_used_of_not hu, leaseAfter_none hg', usesAccepted_used_of_not hu,
          usesAccepted_none hg']
        refine iff_of_false Bool.false_ne_true fun h => hbreak ?_
        exact List.isChain_pair.mp h

/-- A lease that is granted at most once runs exactly when it has been granted, has not been
revoked since, and its uses form a chain without too long a gap. -/
theorem accepts_iff (hone : ∀ before g after, touches = before ++ .granted g :: after →
      ∀ g', .granted g' ∉ after)
    (ht : ∀ u, .used u ∈ touches → u.start ≤ t.start) :
    accepts (leaseAfter lasts none touches) t = true ↔
      ∃ before g after, touches = before ++ .granted g :: after ∧ .revoked ∉ after ∧
        List.IsChain (Within lasts)
          (g :: usesAccepted lasts (some (g.finish + lasts)) after ++ [t]) := by
  have hsplit : ∀ before g after, touches = before ++ .granted g :: after →
      leaseAfter lasts none touches = leaseAfter lasts (some (g.finish + lasts)) after := by
    rintro before g after rfl
    rw [leaseAfter_append, leaseAfter_cons]
    rfl
  have hlater : ∀ before g after, touches = before ++ .granted g :: after →
      ∀ u, .used u ∈ after → u.start ≤ t.start := by
    rintro before g after rfl u hu
    exact ht u (List.mem_append_right _ (List.mem_cons_of_mem _ hu))
  constructor
  · intro h
    have hgranted : ∃ g, .granted g ∈ touches := by
      by_contra hno
      rw [leaseAfter_none fun g hg => hno ⟨g, hg⟩] at h
      cases h
    obtain ⟨g, hg⟩ := hgranted
    obtain ⟨before, after, hl⟩ := List.append_of_mem hg
    have honce := hone before g after hl
    rw [hsplit before g after hl] at h
    have hr : .revoked ∉ after := by
      intro hr
      rw [leaseAfter_of_mem_revoked honce hr] at h
      cases h
    exact ⟨before, g, after, hl, hr,
      (accepts_leaseAfter_iff honce hr (hlater before g after hl)).mp h⟩
  · rintro ⟨before, g, after, hl, hr, hchain⟩
    rw [hsplit before g after hl]
    exact (accepts_leaseAfter_iff (hone before g after hl) hr (hlater before g after hl)).mpr hchain

/-- A lease that has been granted and was refused a use is refused every later one. -/
theorem not_accepts_of_refused {before after : List Touch} {u : Span}
    (hone : ∀ g, .granted g ∉ after) (hu : accepts (leaseAfter lasts none before) u = false)
    (t : Span) : accepts (leaseAfter lasts none (before ++ .used u :: after)) t = false := by
  have hgone : Touch.apply lasts (leaseAfter lasts none before) (.used u) = none := by
    unfold Touch.apply
    simp [hu]
  rw [leaseAfter_append, leaseAfter_cons, hgone, leaseAfter_none hone]
  rfl

end JtfpMall.Lib
