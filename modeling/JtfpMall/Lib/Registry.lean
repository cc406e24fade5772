import Mathlib.Data.List.Nodup

/-!
# A registry of persons

A person is known under keys, and a key may carry a tag that all keys of a person share. Who
comes under a key the registry has is the person of the key; who comes under a new key is the
person of an entry with the same tag, or a new one. So two keys have one person exactly when they
are one key or share a tag.
-/

namespace JtfpMall.Lib

structure Enrolment (κ τ : Type) where
  key : κ
  tag : Option τ
  person : ℕ

namespace Registry

variable {κ τ : Type}

/-- One entry a key, with the tag attached to it, and one person for the keys that share a tag. -/
structure Faithful (attached : κ → Option τ) (r : List (Enrolment κ τ)) : Prop where
  keys : (r.map Enrolment.key).Nodup
  tags : ∀ e ∈ r, e.tag = attached e.key
  persons : ∀ e ∈ r, ∀ e' ∈ r, e.person = e'.person ↔
    e.key = e'.key ∨ ∃ t, e.tag = some t ∧ e'.tag = some t

variable {attached : κ → Option τ} {r : List (Enrolment κ τ)} {k : κ} {tag : Option τ} {fresh : ℕ}
  {e : Enrolment κ τ}

namespace Faithful

theorem nil : Faithful attached ([] : List (Enrolment κ τ)) :=
  ⟨List.nodup_nil, fun _ he => absurd he List.not_mem_nil, fun _ he => absurd he List.not_mem_nil⟩

theorem eq_of_key (h : Faithful attached r) {e' : Enrolment κ τ} (he : e ∈ r) (he' : e' ∈ r)
    (hk : e.key = e'.key) : e = e' := List.inj_on_of_nodup_map h.keys he he' hk

end Faithful

section
variable [DecidableEq κ]

def byKey (k : κ) (r : List (Enrolment κ τ)) : Option (Enrolment κ τ) :=
  r.find? fun e => decide (e.key = k)

theorem mem_of_byKey (h : byKey k r = some e) : e ∈ r ∧ e.key = k :=
  ⟨List.mem_of_find?_eq_some h, by simpa using List.find?_some h⟩

theorem Faithful.byKey_of_mem (h : Faithful attached r) (he : e ∈ r) : byKey e.key r = some e := by
  cases hf : byKey e.key r with
  | none => exact absurd (decide_eq_true rfl) (List.find?_eq_none.mp hf e he)
  | some e' =>
    obtain ⟨he', hk⟩ := mem_of_byKey hf
    rw [h.eq_of_key he' he hk]

/-- A key that is there has one entry. -/
theorem Faithful.count_key (h : Faithful attached r) (k : κ) :
    (r.filter fun e => decide (e.key = k)).length = if k ∈ r.map Enrolment.key then 1 else 0 := by
  have hcount : (r.filter fun e => decide (e.key = k)).length = (r.map Enrolment.key).count k := by
    rw [← List.countP_eq_length_filter, List.count, List.countP_map]
    exact List.countP_congr fun e _ => by simp
  rw [hcount, h.keys.count]

theorem ne_of_byKey_none (h : byKey k r = none) (he : e ∈ r) : e.key ≠ k := by
  intro hk
  exact List.find?_eq_none.mp h e he (decide_eq_true hk)

end

section
variable [DecidableEq τ]

def byTag (tag : Option τ) (r : List (Enrolment κ τ)) : Option (Enrolment κ τ) :=
  tag.bind fun t => r.find? fun e => decide (e.tag = some t)

theorem mem_of_byTag (h : byTag tag r = some e) : e ∈ r ∧ ∃ t, tag = some t ∧ e.tag = some t := by
  obtain ⟨t, ht, hf⟩ := Option.bind_eq_some_iff.mp h
  exact ⟨List.mem_of_find?_eq_some hf, t, ht, by simpa using List.find?_some hf⟩

theorem ne_of_byTag_none (h : byTag tag r = none) (he : e ∈ r) {t : τ} (ht : tag = some t) :
    e.tag ≠ some t := by
  intro hk
  rw [byTag, ht, Option.bind_some] at h
  exact List.find?_eq_none.mp h e he (decide_eq_true hk)

/-- The person of the tag; `fresh` is the next number for a person. -/
def personFor (tag : Option τ) (fresh : ℕ) (r : List (Enrolment κ τ)) : ℕ :=
  ((byTag tag r).map Enrolment.person).getD fresh

/-- Who comes under a new key is the person of exactly the entries with its tag. -/
theorem Faithful.person_iff (h : Faithful attached r) (hfresh : ∀ e ∈ r, e.person ≠ fresh) (he : e ∈ r) :
    e.person = personFor tag fresh r ↔ ∃ t, e.tag = some t ∧ tag = some t := by
  unfold personFor
  cases hj : byTag tag r with
  | none =>
    refine iff_of_false (hfresh e he) ?_
    rintro ⟨t, het, ht⟩
    exact ne_of_byTag_none hj he ht het
  | some j =>
    obtain ⟨hmem, t, ht, hjt⟩ := mem_of_byTag hj
    change e.person = j.person ↔ _
    rw [h.persons e he j hmem]
    constructor
    · rintro (hk | ⟨t', het, hjt'⟩)
      · rw [h.eq_of_key he hmem hk]
        exact ⟨t, hjt, ht⟩
      · exact ⟨t', het, by rw [ht, ← hjt, hjt']⟩
    · rintro ⟨t', het, ht'⟩
      rw [ht, Option.some.injEq] at ht'
      exact Or.inr ⟨t, ht' ▸ het, hjt⟩

end

variable [DecidableEq κ] [DecidableEq τ]

/-- Who comes under the key and the tag. -/
def enroll (k : κ) (tag : Option τ) (fresh : ℕ) (r : List (Enrolment κ τ)) :
    ℕ × List (Enrolment κ τ) :=
  match byKey k r with
  | some e => (e.person, r)
  | none => (personFor tag fresh r, r ++ [⟨k, tag, personFor tag fresh r⟩])

namespace Faithful

theorem concat (h : Faithful attached r) (hfresh : ∀ e ∈ r, e.person ≠ fresh)
    (hk : byKey k r = none) :
    Faithful attached (r ++ [⟨k, attached k, personFor (attached k) fresh r⟩]) := by
  have hnew : ∀ e ∈ r, e.person = personFor (attached k) fresh r ↔
      ∃ t, e.tag = some t ∧ attached k = some t := fun e he => h.person_iff hfresh he
  generalize personFor (attached k) fresh r = person at hnew ⊢
  have hlink : ∀ e ∈ r, e.person = person ↔
      e.key = k ∨ ∃ t, e.tag = some t ∧ attached k = some t := by
    intro e he
    rw [hnew e he]
    exact (or_iff_right (ne_of_byKey_none hk he)).symm
  refine ⟨?_, ?_, ?_⟩
  · rw [List.map_append, List.nodup_append]
    refine ⟨h.keys, List.nodup_singleton _, fun a ha b hb => ?_⟩
    obtain ⟨e, he, rfl⟩ := List.mem_map.mp ha
    rw [List.map_singleton, List.mem_singleton] at hb
    rw [hb]
    exact ne_of_byKey_none hk he
  · intro e he
    rcases List.mem_append.mp he with he | he
    · exact h.tags e he
    · rw [List.mem_singleton.mp he]
  · intro e he e' he'
    rcases List.mem_append.mp he with he | he
    · rcases List.mem_append.mp he' with he' | he'
      · exact h.persons e he e' he'
      · rw [List.mem_singleton.mp he']
        exact hlink e he
    · rw [List.mem_singleton.mp he]
      rcases List.mem_append.mp he' with he' | he'
      · rw [eq_comm, hlink e' he']
        simp only [eq_comm, and_comm]
      · rw [List.mem_singleton.mp he']
        simp

/-- A key that comes in with the tag attached to it leaves the registry faithful. -/
theorem enroll (h : Faithful attached r) (hfresh : ∀ e ∈ r, e.person ≠ fresh) (k : κ) :
    Faithful attached (enroll k (attached k) fresh r).2 := by
  unfold Registry.enroll
  cases hk : byKey k r with
  | some e => exact h
  | none => exact h.concat hfresh hk

end Faithful

/-- The registry only grows. -/
theorem prefix_enroll (k : κ) (tag : Option τ) (fresh : ℕ) (r : List (Enrolment κ τ)) :
    r <+: (enroll k tag fresh r).2 := by
  unfold enroll
  cases byKey k r with
  | some e => exact List.prefix_refl r
  | none => exact List.prefix_append r _

/-- The key is there afterwards, with the person who came. -/
theorem mem_enroll (k : κ) (tag : Option τ) (fresh : ℕ) (r : List (Enrolment κ τ)) :
    ∃ e ∈ (enroll k tag fresh r).2, e.key = k ∧ e.person = (enroll k tag fresh r).1 := by
  unfold enroll
  cases hk : byKey k r with
  | some e => exact ⟨e, (mem_of_byKey hk).1, (mem_of_byKey hk).2, rfl⟩
  | none => exact ⟨_, List.mem_append_right _ (List.mem_singleton_self _), rfl, rfl⟩

/-- No other key comes in. -/
theorem of_mem_enroll (h : e ∈ (enroll k tag fresh r).2) : e ∈ r ∨ e.key = k := by
  unfold enroll at h
  cases hk : byKey k r with
  | some e' =>
    rw [hk] at h
    exact Or.inl h
  | none =>
    rw [hk] at h
    rcases List.mem_append.mp h with h | h
    · exact Or.inl h
    · rw [List.mem_singleton.mp h]
      exact Or.inr rfl

end Registry

end JtfpMall.Lib
