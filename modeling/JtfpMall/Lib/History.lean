import Mathlib.Data.List.Induction
import Mathlib.Logic.Function.Basic

/-!
# A map and the history of its changes

A key is assigned a value or removed. What a history leaves under a key is its last
assignment, if nothing came to the key after it.
-/

namespace JtfpMall.Lib

variable {κ ν : Type} [DecidableEq κ]

inductive Change (κ ν : Type) where
  | assigned (k : κ) (v : ν)
  | removed (k : κ)
deriving DecidableEq

namespace Change

def key : Change κ ν → κ
  | assigned k _ => k
  | removed k => k

def value : Change κ ν → Option ν
  | assigned _ v => some v
  | removed _ => none

def map {μ : Type} (g : ν → μ) : Change κ ν → Change κ μ
  | assigned k v => .assigned k (g v)
  | removed k => .removed k

def apply (m : κ → Option ν) (c : Change κ ν) : κ → Option ν := Function.update m c.key c.value

theorem apply_map {μ : Type} (g : ν → μ) (m : κ → Option ν) (c : Change κ ν) :
    (fun k => (c.apply m k).map g) = (c.map g).apply fun k => (m k).map g := by
  funext k
  unfold apply
  by_cases hk : k = c.key
  · cases c <;>
    · rw [hk]
      simp [map, key, value]
  · have hkey : (c.map g).key = c.key := by cases c <;> rfl
    rw [Function.update_of_ne hk, hkey, Function.update_of_ne hk]

end Change

/-- The map after the changes. -/
def replay (m : κ → Option ν) (cs : List (Change κ ν)) : κ → Option ν := cs.foldl Change.apply m

/-- The key was last assigned the value, and nothing came to it since. -/
def LastAssigned (cs : List (Change κ ν)) (k : κ) (v : ν) : Prop :=
  ∃ before after, cs = before ++ .assigned k v :: after ∧ ∀ c ∈ after, c.key ≠ k

theorem replay_append (m : κ → Option ν) (cs ds : List (Change κ ν)) :
    replay m (cs ++ ds) = replay (replay m cs) ds := List.foldl_append

theorem replay_map {μ : Type} (g : ν → μ) (m : κ → Option ν) (cs : List (Change κ ν)) :
    (fun k => (replay m cs k).map g) = replay (fun k => (m k).map g) (cs.map (Change.map g)) := by
  induction cs generalizing m with
  | nil => rfl
  | cons c cs ih =>
    change (fun k => (replay (c.apply m) cs k).map g) =
      replay ((c.map g).apply fun k => (m k).map g) (cs.map (Change.map g))
    rw [ih, Change.apply_map]

/-- Changes of other keys leave the value. -/
theorem replay_of_ne {m : κ → Option ν} {cs : List (Change κ ν)} {k : κ}
    (h : ∀ c ∈ cs, c.key ≠ k) : replay m cs k = m k := by
  induction cs generalizing m with
  | nil => rfl
  | cons c cs ih =>
    change replay (c.apply m) cs k = m k
    rw [ih fun d hd => h d (List.mem_cons_of_mem c hd)]
    exact Function.update_of_ne (h c List.mem_cons_self).symm _ _

theorem replay_concat (m : κ → Option ν) (cs : List (Change κ ν)) (c : Change κ ν) :
    replay m (cs ++ [c]) = c.apply (replay m cs) := by
  rw [replay_append]
  rfl

theorem replay_removed (m : κ → Option ν) (ks : List κ) (k : κ) :
    replay m (ks.map .removed) k = if k ∈ ks then none else m k := by
  induction ks generalizing m with
  | nil => rfl
  | cons k' ks ih =>
    change replay (Change.apply m (.removed k')) (ks.map .removed) k = _
    rw [ih]
    by_cases hmem : k ∈ ks
    · rw [if_pos hmem, if_pos (List.mem_cons_of_mem k' hmem)]
    · rw [if_neg hmem, Change.apply]
      by_cases hk : k = k'
      · rw [hk, if_pos List.mem_cons_self]
        exact Function.update_self ..
      · rw [if_neg (List.not_mem_cons_of_ne_of_not_mem hk hmem)]
        exact Function.update_of_ne hk _ _

/-- What the history leaves under a key is what it was last assigned. -/
theorem replay_eq_some_iff {cs : List (Change κ ν)} {k : κ} {v : ν} :
    replay (fun _ => none) cs k = some v ↔ LastAssigned cs k v := by
  constructor
  · intro h
    induction cs using List.reverseRecOn with
    | nil => cases h
    | append_singleton cs c ih =>
      rw [replay_concat] at h
      by_cases hk : k = c.key
      · rw [Change.apply, hk, Function.update_self] at h
        cases c with
        | assigned k' v' =>
          cases h
          subst hk
          exact ⟨cs, [], rfl, fun _ hd => (nomatch hd)⟩
        | removed k' => cases h
      · rw [Change.apply, Function.update_of_ne hk] at h
        obtain ⟨before, after, rfl, hafter⟩ := ih h
        refine ⟨before, after ++ [c], by simp, fun d hd => ?_⟩
        rcases List.mem_append.mp hd with hd | hd
        · exact hafter d hd
        · rw [List.mem_singleton.mp hd]
          exact Ne.symm hk
  · rintro ⟨before, after, rfl, hafter⟩
    rw [replay_append]
    change replay (Change.apply (replay (fun _ => none) before) (.assigned k v)) after k = some v
    rw [replay_of_ne hafter]
    exact Function.update_self ..

end JtfpMall.Lib
