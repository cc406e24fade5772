import JtfpMall.Lib.History
import Mathlib.Data.List.Nodup

/-!
# Tables with a unique column

The rows of a table have an id that is given out once, and a column in which no two of them
agree. A statement that would make two rows agree fails and leaves the table. A table stands for
the map from the column to the rows, and a statement that succeeds is a change of the map.
-/

namespace JtfpMall.Lib

variable {ρ κ : Type}

/-- Rows with their ids, and the largest id that was given out. -/
structure UniqueTable (ρ : Type) where
  rows : List (ℕ × ρ)
  lastId : ℕ

namespace UniqueTable

/-- How many rows go. -/
def delete (p : ℕ → Bool) (t : UniqueTable ρ) : ℕ × UniqueTable ρ :=
  (t.rows.countP fun r => p r.1, { t with rows := t.rows.filter fun r => !p r.1 })

def clear (t : UniqueTable ρ) : UniqueTable ρ := { t with rows := [] }

structure WellFormed (key : ρ → κ) (t : UniqueTable ρ) : Prop where
  ids : (t.rows.map Prod.fst).Nodup
  issued : ∀ r ∈ t.rows, r.1 ≤ t.lastId
  keys : (t.rows.map fun r => key r.2).Nodup

def empty : UniqueTable ρ := ⟨[], 0⟩

theorem wellFormed_empty {key : ρ → κ} : WellFormed key (empty : UniqueTable ρ) :=
  ⟨List.nodup_nil, fun _ hr => (nomatch hr), List.nodup_nil⟩

namespace WellFormed

variable {key : ρ → κ} {t : UniqueTable ρ} {r r' : ℕ × ρ}

theorem eq_of_key (h : WellFormed key t) (hr : r ∈ t.rows) (hr' : r' ∈ t.rows)
    (hk : key r.2 = key r'.2) : r = r' := List.inj_on_of_nodup_map h.keys hr hr' hk

theorem eq_of_id (h : WellFormed key t) (hr : r ∈ t.rows) (hr' : r' ∈ t.rows)
    (hid : r.1 = r'.1) : r = r' := List.inj_on_of_nodup_map h.ids hr hr' hid

theorem delete (h : WellFormed key t) (p : ℕ → Bool) : WellFormed key (t.delete p).2 := by
  have hsub : (t.delete p).2.rows.Sublist t.rows := List.filter_sublist
  exact ⟨h.ids.sublist (hsub.map _), fun r hr => h.issued r (hsub.subset hr),
    h.keys.sublist (hsub.map _)⟩

theorem clear (t : UniqueTable ρ) : WellFormed key t.clear :=
  ⟨List.nodup_nil, fun _ hr => (nomatch hr), List.nodup_nil⟩

end WellFormed

variable [DecidableEq κ] (key : ρ → κ)

/-- The row under a value of the unique column. -/
def find (k : κ) (t : UniqueTable ρ) : Option ρ :=
  (t.rows.find? fun r => decide (key r.2 = k)).map Prod.snd

/-- Nothing when the row's key is taken. -/
def insert (row : ρ) (t : UniqueTable ρ) : Option (UniqueTable ρ) :=
  if (t.find key (key row)).isSome then none
  else some ⟨t.rows ++ [(t.lastId + 1, row)], t.lastId + 1⟩

def findId (id : ℕ) (t : UniqueTable ρ) : Option ρ :=
  (t.rows.find? fun r => decide (r.1 = id)).map Prod.snd

/-- How many rows change; nothing when another row has the new key. -/
def update (id : ℕ) (f : ρ → ρ) (t : UniqueTable ρ) : Option (ℕ × UniqueTable ρ) :=
  match t.findId id with
  | none => some (0, t)
  | some old =>
    if t.rows.any fun r => decide (r.1 ≠ id) && decide (key r.2 = key (f old)) then none
    else some (1, { t with rows := t.rows.map fun r => if r.1 = id then (r.1, f r.2) else r })

variable {key} {t t' : UniqueTable ρ} {row : ρ} {id : ℕ}

theorem find_eq_some_iff (h : WellFormed key t) {k : κ} :
    t.find key k = some row ↔ key row = k ∧ ∃ id, (id, row) ∈ t.rows := by
  unfold find
  rw [Option.map_eq_some_iff]
  constructor
  · rintro ⟨r, hr, rfl⟩
    have hk := List.find?_some hr
    exact ⟨of_decide_eq_true hk, r.1, List.mem_of_find?_eq_some hr⟩
  · rintro ⟨hk, id, hmem⟩
    cases hf : t.rows.find? fun r => decide (key r.2 = k) with
    | none =>
      have hnot := List.find?_eq_none.mp hf (id, row) hmem
      exact absurd (decide_eq_true hk) hnot
    | some r =>
      have hr := List.find?_some hf
      have he := h.eq_of_key (List.mem_of_find?_eq_some hf) hmem
        ((of_decide_eq_true hr).trans hk.symm)
      exact ⟨r, rfl, congrArg Prod.snd he⟩

theorem find_eq_none_iff {k : κ} : t.find key k = none ↔ ∀ r ∈ t.rows, key r.2 ≠ k := by
  unfold find
  rw [Option.map_eq_none_iff, List.find?_eq_none]
  exact forall₂_congr fun r _ => by simp

theorem mem_of_findId (h : t.findId id = some row) : (id, row) ∈ t.rows := by
  unfold findId at h
  rw [Option.map_eq_some_iff] at h
  obtain ⟨r, hr, rfl⟩ := h
  have hid := List.find?_some hr
  rw [← of_decide_eq_true hid]
  exact List.mem_of_find?_eq_some hr

/-- Two tables with the same rows under each key stand for the same map. -/
theorem find_ext (h : WellFormed key t') {m : κ → Option ρ}
    (hm : ∀ k row, m k = some row ↔ key row = k ∧ ∃ id, (id, row) ∈ t'.rows) :
    (fun k => t'.find key k) = m := by
  funext k
  apply Option.ext
  intro row
  rw [find_eq_some_iff h, hm]

theorem insert_cases (h : t.insert key row = some t') :
    t.find key (key row) = none ∧ t' = ⟨t.rows ++ [(t.lastId + 1, row)], t.lastId + 1⟩ := by
  unfold insert at h
  split at h
  · cases h
  · rename_i hfree
    rw [Bool.not_eq_true, Option.isSome_eq_false_iff, Option.isNone_iff_eq_none] at hfree
    exact ⟨hfree, (Option.some.inj h).symm⟩

theorem wellFormed_insert (h : WellFormed key t) (hi : t.insert key row = some t') :
    WellFormed key t' := by
  obtain ⟨hfree, rfl⟩ := insert_cases hi
  refine ⟨?_, fun r hr => ?_, ?_⟩
  · rw [List.map_append, List.map_singleton]
    refine List.nodup_append.mpr ⟨h.ids, List.nodup_singleton _, fun i hi j hj => ?_⟩
    obtain ⟨r, hr, rfl⟩ := List.mem_map.mp hi
    rw [List.mem_singleton.mp hj]
    have hle := h.issued r hr
    dsimp only
    omega
  · rcases List.mem_append.mp hr with hr | hr
    · exact Nat.le_succ_of_le (h.issued r hr)
    · obtain rfl := List.mem_singleton.mp hr
      exact Nat.le_refl _
  · rw [List.map_append, List.map_singleton]
    refine List.nodup_append.mpr ⟨h.keys, List.nodup_singleton _, fun k hk k' hk' => ?_⟩
    obtain ⟨r, hr, rfl⟩ := List.mem_map.mp hk
    rw [List.mem_singleton.mp hk']
    exact find_eq_none_iff.mp hfree r hr

/-- An insertion that succeeds assigns the key. -/
theorem find_insert (h : WellFormed key t) (hi : t.insert key row = some t') :
    (fun k => t'.find key k) = (Change.assigned (key row) row).apply fun k => t.find key k := by
  refine find_ext (wellFormed_insert h hi) fun k r => ?_
  obtain ⟨hfree, rfl⟩ := insert_cases hi
  have hmem : (∃ i, (i, r) ∈ t.rows ++ [(t.lastId + 1, row)]) ↔ (∃ i, (i, r) ∈ t.rows) ∨ r = row := by
    simp [exists_or]
  rw [hmem, Change.apply]
  dsimp only [Change.key, Change.value]
  by_cases hk : k = key row
  · rw [hk, Function.update_self, Option.some.injEq]
    constructor
    · rintro rfl
      exact ⟨rfl, Or.inr rfl⟩
    · rintro ⟨hkey, ⟨i, hold⟩ | rfl⟩
      · exact absurd hkey (find_eq_none_iff.mp hfree (i, r) hold)
      · rfl
  · rw [Function.update_of_ne hk, find_eq_some_iff h]
    constructor
    · rintro ⟨hkey, hold⟩
      exact ⟨hkey, Or.inl hold⟩
    · rintro ⟨hkey, hold | rfl⟩
      · exact ⟨hkey, hold⟩
      · exact absurd hkey.symm hk

theorem update_cases {f : ρ → ρ} {n : ℕ} (h : t.update key id f = some (n, t')) :
    (t.findId id = none ∧ n = 0 ∧ t' = t) ∨ ∃ old, t.findId id = some old ∧ n = 1 ∧
      (∀ r ∈ t.rows, r.1 ≠ id → key r.2 ≠ key (f old)) ∧
      t' = { t with rows := t.rows.map fun r => if r.1 = id then (r.1, f r.2) else r } := by
  unfold update at h
  cases hf : t.findId id with
  | none =>
    rw [hf] at h
    cases h
    exact Or.inl ⟨rfl, rfl, rfl⟩
  | some old =>
    rw [hf] at h
    dsimp only at h
    split at h
    · cases h
    · rename_i hfree
      cases h
      refine Or.inr ⟨old, rfl, rfl, fun r hr hne hk => hfree ?_, rfl⟩
      rw [List.any_eq_true]
      exact ⟨r, hr, by rw [decide_eq_true hne, decide_eq_true hk]; rfl⟩

section
variable {f : ρ → ρ} {old : ρ}

theorem wellFormed_update {n : ℕ} (h : WellFormed key t) (hu : t.update key id f = some (n, t')) :
    WellFormed key t' := by
  obtain ⟨_, _, rfl⟩ | ⟨old, hold, _, hfree, rfl⟩ := update_cases hu
  · exact h
  · have hmem := mem_of_findId hold
    have hids : (t.rows.map fun r => if r.1 = id then (r.1, f r.2) else r).map Prod.fst =
        t.rows.map Prod.fst := by
      rw [List.map_map]
      refine List.map_congr_left fun r _ => ?_
      dsimp only [Function.comp]
      split <;> rfl
    refine ⟨hids ▸ h.ids, fun r hr => ?_, ?_⟩
    · obtain ⟨r', hr', he⟩ := List.mem_map.mp (hids ▸ List.mem_map_of_mem (f := Prod.fst) hr)
      rw [← he]
      exact h.issued r' hr'
    · rw [List.map_map]
      refine List.Nodup.map_on (fun r hr r' hr' he => ?_) (List.Nodup.of_map _ h.ids)
      have hchanged : ∀ x ∈ t.rows, x.1 = id → x.2 = old := fun x hx hid =>
        congrArg Prod.snd (h.eq_of_id hx hmem hid)
      dsimp only [Function.comp] at he
      by_cases h1 : r.1 = id
      · by_cases h2 : r'.1 = id
        · exact h.eq_of_id hr hr' (h1.trans h2.symm)
        · rw [if_pos h1, if_neg h2, hchanged r hr h1] at he
          exact absurd he.symm (hfree r' hr' h2)
      · by_cases h2 : r'.1 = id
        · rw [if_neg h1, if_pos h2, hchanged r' hr' h2] at he
          exact absurd he (hfree r hr h1)
        · rw [if_neg h1, if_neg h2] at he
          exact h.eq_of_key hr hr' he

/-- An update that succeeds removes the old key and assigns the new one. -/
theorem find_update (h : WellFormed key t) (hold : t.findId id = some old) {n : ℕ}
    (hu : t.update key id f = some (n, t')) :
    (fun k => t'.find key k) = (Change.assigned (key (f old)) (f old)).apply
      ((Change.removed (key old)).apply fun k => t.find key k) := by
  have h' := wellFormed_update h hu
  obtain ⟨hnone, _, _⟩ | ⟨old', hold', _, hfree, rfl⟩ := update_cases hu
  · rw [hnone] at hold
    cases hold
  rw [hold, Option.some.injEq] at hold'
  subst hold'
  have hmem := mem_of_findId hold
  have hrows : ∀ r, (∃ i, (i, r) ∈ t.rows.map fun r => if r.1 = id then (r.1, f r.2) else r) ↔
      r = f old ∨ ∃ i, i ≠ id ∧ (i, r) ∈ t.rows := by
    intro r
    constructor
    · rintro ⟨i, hi⟩
      obtain ⟨x, hx, he⟩ := List.mem_map.mp hi
      by_cases hxid : x.1 = id
      · rw [if_pos hxid, congrArg Prod.snd (h.eq_of_id hx hmem hxid)] at he
        exact Or.inl (congrArg Prod.snd he).symm
      · rw [if_neg hxid] at he
        exact Or.inr ⟨i, fun hi => hxid (he ▸ hi), he ▸ hx⟩
    · rintro (rfl | ⟨i, hne, hi⟩)
      · exact ⟨id, List.mem_map.mpr ⟨(id, old), hmem, if_pos rfl⟩⟩
      · exact ⟨i, List.mem_map.mpr ⟨(i, r), hi, if_neg hne⟩⟩
  refine find_ext h' fun k r => ?_
  rw [hrows, Change.apply, Change.apply]
  dsimp only [Change.key, Change.value]
  by_cases hk : k = key (f old)
  · rw [hk, Function.update_self, Option.some.injEq]
    constructor
    · rintro rfl
      exact ⟨rfl, Or.inl rfl⟩
    · rintro ⟨hkey, rfl | ⟨i, hne, hi⟩⟩
      · rfl
      · exact absurd hkey (hfree (i, r) hi hne)
  · rw [Function.update_of_ne hk]
    by_cases hko : k = key old
    · rw [hko, Function.update_self]
      refine ⟨fun hn => (by cases hn), ?_⟩
      rintro ⟨hkey, rfl | ⟨i, hne, hi⟩⟩
      · exact absurd (hko.trans hkey.symm) hk
      · exact absurd (congrArg Prod.fst (h.eq_of_key hi hmem hkey)) hne
    · rw [Function.update_of_ne hko, find_eq_some_iff h]
      constructor
      · rintro ⟨hkey, i, hi⟩
        refine ⟨hkey, Or.inr ⟨i, ?_, hi⟩⟩
        rintro rfl
        have he : r = old := congrArg Prod.snd (h.eq_of_id hi hmem rfl)
        exact hko (he ▸ hkey.symm)
      · rintro ⟨hkey, rfl | ⟨i, _, hi⟩⟩
        · exact absurd hkey.symm hk
        · exact ⟨hkey, i, hi⟩

end

/-- Nothing goes when no row is counted. -/
theorem delete_of_zero {p : ℕ → Bool} (h : (t.delete p).1 = 0) : (t.delete p).2 = t := by
  have hnone := List.countP_eq_zero.mp h
  unfold delete
  dsimp only
  rw [List.filter_eq_self.mpr fun r hr => by simpa using hnone r hr]

/-- A row is counted when it is there. -/
theorem exists_of_delete {p : ℕ → Bool} (h : (t.delete p).1 ≠ 0) :
    ∃ id row, (id, row) ∈ t.rows ∧ p id = true := by
  obtain ⟨r, hr, hp⟩ := List.countP_pos_iff.mp (Nat.pos_of_ne_zero h)
  exact ⟨r.1, r.2, hr, hp⟩

/-- A deletion of one row removes its key. -/
theorem find_delete (h : WellFormed key t) {p : ℕ → Bool} (hmem : (id, row) ∈ t.rows)
    (hp : ∀ i, p i = true ↔ i = id) :
    (fun k => (t.delete p).2.find key k) = (Change.removed (key row)).apply fun k => t.find key k := by
  refine find_ext (h.delete p) fun k r => ?_
  have hrows : (∃ i, (i, r) ∈ (t.delete p).2.rows) ↔ ∃ i, i ≠ id ∧ (i, r) ∈ t.rows := by
    unfold delete
    dsimp only
    refine exists_congr fun i => ?_
    rw [List.mem_filter, Bool.not_eq_true', ← Bool.not_eq_true, hp, and_comm]
  rw [hrows, Change.apply]
  dsimp only [Change.key, Change.value]
  by_cases hk : k = key row
  · rw [hk, Function.update_self]
    refine ⟨fun hn => (by cases hn), ?_⟩
    rintro ⟨hkey, i, hne, hi⟩
    exact absurd (congrArg Prod.fst (h.eq_of_key hi hmem hkey)) hne
  · rw [Function.update_of_ne hk, find_eq_some_iff h]
    constructor
    · rintro ⟨hkey, i, hi⟩
      refine ⟨hkey, i, ?_, hi⟩
      rintro rfl
      have he : r = row := congrArg Prod.snd (h.eq_of_id hi hmem rfl)
      exact hk (he ▸ hkey.symm)
    · rintro ⟨hkey, i, _, hi⟩
      exact ⟨hkey, i, hi⟩

/-- Clearing removes every key. -/
theorem find_clear (t : UniqueTable ρ) : (fun k => t.clear.find key k) =
    replay (fun k => t.find key k) (t.rows.map fun r => .removed (key r.2)) := by
  funext k
  have hkeys : (t.rows.map fun r => Change.removed (ν := ρ) (key r.2)) =
      (t.rows.map fun r => key r.2).map .removed := by
    rw [List.map_map]
    rfl
  rw [hkeys, replay_removed]
  split
  · rfl
  · rename_i hno
    refine (find_eq_none_iff.mpr fun r hr hk => hno ?_).symm
    exact List.mem_map.mpr ⟨r, hr, hk⟩

end UniqueTable

end JtfpMall.Lib
