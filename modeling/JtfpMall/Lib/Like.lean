import Mathlib.Data.List.Infix

/-!
# Patterns with wildcards

In a pattern `%` stands for any run of characters and `_` for any one; letters of the ASCII alphabet
match in either case. A text is searched for by the pattern that has it between two `%`, which finds
at least the texts that contain it, and these alone where it has no wildcard; a key with a wildcard
finds a text that does not contain it.
-/

namespace JtfpMall.Lib

def like : List Char → List Char → Bool
  | [], s => s.isEmpty
  | c :: p, s =>
    if c = '%' then s.tails.any (like p)
    else match s with
      | [] => false
      | d :: s => (decide (c = '_') || decide (c.toLower = d.toLower)) && like p s

/-- The text contains the key, whatever the case of its letters. -/
def Contains (key s : List Char) : Prop := key.map Char.toLower <:+: s.map Char.toLower

instance (key s : List Char) : Decidable (Contains key s) := inferInstanceAs (Decidable (_ <:+: _))

/-- The pattern that looks for the key. -/
def around (key : List Char) : List Char := '%' :: (key ++ ['%'])

/-- The key has no wildcard. -/
def Plain (key : List Char) : Prop := '%' ∉ key ∧ '_' ∉ key

theorem like_percent {p s : List Char} : like ('%' :: p) s = true ↔ ∃ t, t <:+ s ∧ like p t = true := by
  simp [like]

theorem like_percent_nil (s : List Char) : like ['%'] s = true :=
  like_percent.mpr ⟨[], List.nil_suffix, rfl⟩

theorem like_cons {c : Char} (hpercent : c ≠ '%') {p s : List Char} : like (c :: p) s = true ↔
    ∃ d t, s = d :: t ∧ (c = '_' ∨ c.toLower = d.toLower) ∧ like p t = true := by
  cases s with
  | nil => simp [like, hpercent]
  | cons d t => simp [like, hpercent]

/-- A text matches itself, its wildcards too. -/
theorem like_self_append {key s : List Char} (h : s.map Char.toLower = key.map Char.toLower)
    {p t : List Char} (ht : like p t = true) : like (key ++ p) (s ++ t) = true := by
  induction key generalizing s with
  | nil =>
    rw [List.map_nil, List.map_eq_nil_iff] at h
    rw [h]
    exact ht
  | cons c key ih =>
    cases s with
    | nil => cases h
    | cons d s =>
      obtain ⟨hd, hs⟩ := List.cons.inj h
      by_cases hpercent : c = '%'
      · rw [hpercent, List.cons_append, like_percent]
        exact ⟨s ++ t, List.suffix_cons d _, ih hs⟩
      · exact (like_cons hpercent).mpr ⟨d, s ++ t, rfl, Or.inr hd.symm, ih hs⟩

/-- Without wildcards a key matches nothing else. -/
theorem like_plain_append {key : List Char} (h : Plain key) {p s : List Char} :
    like (key ++ p) s = true ↔
      ∃ s₁ s₂, s = s₁ ++ s₂ ∧ s₁.map Char.toLower = key.map Char.toLower ∧ like p s₂ = true := by
  constructor
  · induction key generalizing s with
    | nil => exact fun hp => ⟨[], s, rfl, rfl, hp⟩
    | cons c key ih =>
      have hkey : Plain key := ⟨fun hc => h.1 (List.mem_cons_of_mem c hc),
        fun hc => h.2 (List.mem_cons_of_mem c hc)⟩
      have hpercent : c ≠ '%' := fun hc => h.1 (hc ▸ List.mem_cons_self)
      have hone : c ≠ '_' := fun hc => h.2 (hc ▸ List.mem_cons_self)
      rw [List.cons_append, like_cons hpercent]
      rintro ⟨d, t, rfl, hd, ht⟩
      obtain ⟨s₁, s₂, rfl, hs₁, hs₂⟩ := ih hkey ht
      refine ⟨d :: s₁, s₂, rfl, ?_, hs₂⟩
      rw [List.map_cons, List.map_cons, hs₁, hd.resolve_left hone]
  · rintro ⟨s₁, s₂, rfl, hs₁, hs₂⟩
    exact like_self_append hs₁ hs₂

theorem contains_iff {key s : List Char} : Contains key s ↔
    ∃ s₁ s₂ s₃, s = s₁ ++ (s₂ ++ s₃) ∧ s₂.map Char.toLower = key.map Char.toLower := by
  constructor
  · rintro ⟨a, b, hab⟩
    rw [List.append_assoc, eq_comm, List.map_eq_append_iff] at hab
    obtain ⟨s₁, rest, rfl, _, hrest⟩ := hab
    obtain ⟨s₂, s₃, rfl, hs₂, _⟩ := List.map_eq_append_iff.mp hrest
    exact ⟨s₁, s₂, s₃, rfl, hs₂⟩
  · rintro ⟨s₁, s₂, s₃, rfl, hs₂⟩
    refine ⟨s₁.map Char.toLower, s₃.map Char.toLower, ?_⟩
    rw [List.map_append, List.map_append, hs₂, List.append_assoc]

/-- What contains the key is found. -/
theorem Contains.like {key s : List Char} (h : Contains key s) : like (around key) s = true := by
  obtain ⟨s₁, s₂, s₃, rfl, hs₂⟩ := contains_iff.mp h
  exact like_percent.mpr ⟨s₂ ++ s₃, List.suffix_append _ _, like_self_append hs₂ (like_percent_nil s₃)⟩

/-- A key without wildcards finds what contains it. -/
theorem Plain.like_iff {key : List Char} (h : Plain key) {s : List Char} :
    like (around key) s = true ↔ Contains key s := by
  refine ⟨fun hlike => ?_, Contains.like⟩
  obtain ⟨t, ⟨s₁, rfl⟩, ht⟩ := like_percent.mp hlike
  obtain ⟨s₂, s₃, rfl, hs₂, _⟩ := (like_plain_append h).mp ht
  exact contains_iff.mpr ⟨s₁, s₂, s₃, rfl, hs₂⟩

/-- A text that a key finds: without its `%`, and with another character for each `_`. -/
def stretched : List Char → List Char
  | [] => []
  | c :: key => if c = '%' then stretched key else if c = '_' then '-' :: stretched key
      else c :: stretched key

theorem like_stretched (key : List Char) {p s : List Char} (h : like p s = true) :
    like (key ++ p) (stretched key ++ s) = true := by
  induction key with
  | nil => exact h
  | cons c key ih =>
    rw [stretched, List.cons_append]
    split
    · rename_i hpercent
      rw [hpercent]
      exact like_percent.mpr ⟨_, List.suffix_refl _, ih⟩
    · rename_i hpercent
      split
      · rename_i hone
        exact (like_cons hpercent).mpr ⟨'-', _, rfl, Or.inl hone, ih⟩
      · exact (like_cons hpercent).mpr ⟨c, _, rfl, Or.inr rfl, ih⟩

theorem plain_stretched (key : List Char) : Plain (stretched key) := by
  induction key with
  | nil => exact ⟨List.not_mem_nil, List.not_mem_nil⟩
  | cons c key ih =>
    obtain ⟨hpercent, hone⟩ := ih
    rw [stretched]
    split
    · exact ⟨hpercent, hone⟩
    · rename_i hc
      split
      · exact ⟨List.not_mem_cons_of_ne_of_not_mem (by decide) hpercent,
          List.not_mem_cons_of_ne_of_not_mem (by decide) hone⟩
      · rename_i hc'
        exact ⟨List.not_mem_cons_of_ne_of_not_mem (Ne.symm hc) hpercent,
          List.not_mem_cons_of_ne_of_not_mem (Ne.symm hc') hone⟩

theorem eq_of_toLower {c d : Char} (hc : c.toNat < 97) (h : d.toLower = c) : d = c := by
  unfold Char.toLower at h
  split at h
  · rename_i hd
    have hval := congrArg Char.toNat h
    simp only [Char.toNat] at hval hc
    have hlow := UInt32.le_iff_toNat_le.mp hd.1
    have hhigh := UInt32.le_iff_toNat_le.mp hd.2
    have hA : ('A' : Char).val.toNat = 65 := rfl
    have hZ : ('Z' : Char).val.toNat = 90 := rfl
    have hshift : (('a' : Char).val - ('A' : Char).val).toNat = 32 := rfl
    rw [UInt32.toNat_add, hshift] at hval
    omega
  · exact h

/-- A text without wildcards contains no key that has one. -/
theorem Plain.of_contains {key s : List Char} (hs : Plain s) (h : Contains key s) : Plain key := by
  have hsub : ∀ c ∈ key, c.toNat < 97 → c.toLower = c → c ∈ s := by
    intro c hc hlow hsame
    have hmem : c.toLower ∈ s.map Char.toLower := h.subset (List.mem_map_of_mem hc)
    obtain ⟨d, hd, hdc⟩ := List.mem_map.mp hmem
    rw [hsame] at hdc
    rwa [← eq_of_toLower hlow hdc]
  exact ⟨fun hc => hs.1 (hsub _ hc (by decide) (by decide)),
    fun hc => hs.2 (hsub _ hc (by decide) (by decide))⟩

end JtfpMall.Lib
