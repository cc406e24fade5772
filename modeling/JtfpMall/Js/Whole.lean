import JtfpMall.Js.Coerce

/-!
# Whole numbers

Arithmetic on whole numbers gives whole numbers: the exact result up to 2^53 in magnitude, and
beyond it a whole number or an infinity that is beyond it too. A slice of an array looks at
no more of them than that.
-/

namespace JtfpMall.Js

/-- A whole number, or one that is not finite. -/
inductive Whole : JsNum → Prop where
  | nan : Whole .nan
  | inf (neg : Bool) : Whole (.inf neg)
  | int (z : ℤ) : Whole (.fin z)

/-- What rounding a whole number may give. -/
inductive Rounds (z : ℤ) : JsNum → Prop where
  | exact (h : z.natAbs ≤ 2 ^ 53) : Rounds z (.fin z)
  | above {w : ℤ} (h : 2 ^ 53 < z) (hw : 2 ^ 53 ≤ w) : Rounds z (.fin w)
  | below {w : ℤ} (h : z < -2 ^ 53) (hw : w ≤ -2 ^ 53) : Rounds z (.fin w)
  | infAbove (h : 2 ^ 53 < z) : Rounds z (.inf false)
  | infBelow (h : z < -2 ^ 53) : Rounds z (.inf true)

theorem Rounds.whole {z : ℤ} {n : JsNum} (h : Rounds z n) : Whole n := by
  cases h with
  | exact _ => exact .int z
  | above _ _ => exact .int _
  | below _ _ => exact .int _
  | infAbove _ => exact .inf false
  | infBelow _ => exact .inf true

theorem floor_le_roundHalfEven (x : ℚ) : ⌊x⌋ ≤ roundHalfEven x := by
  unfold roundHalfEven
  dsimp only
  split
  · exact le_refl _
  · split
    · omega
    · split <;> omega

/-- The magnitude of a large whole number rounds to a large whole number. -/
theorem exists_rounded {x : ℚ} (hx : 2 ^ 53 ≤ x) : ∃ w : ℤ, 2 ^ 53 ≤ w ∧
    (roundHalfEven (x / 2 ^ max (Int.log 2 x - 52) (-1074)) : ℚ) *
      2 ^ max (Int.log 2 x - 52) (-1074) = w := by
  have hpos : 0 < x := lt_of_lt_of_le (by norm_num) hx
  have hlog : (53 : ℤ) ≤ Int.log 2 x := by
    rw [← Int.zpow_le_iff_le_log (by norm_num) hpos]
    exact_mod_cast hx
  obtain ⟨k, hk⟩ : ∃ k : ℕ, Int.log 2 x - 52 = k := ⟨(Int.log 2 x - 52).toNat, by omega⟩
  have hk1 : 1 ≤ k := by omega
  rw [max_eq_left (by omega), hk, zpow_natCast]
  refine ⟨roundHalfEven (x / 2 ^ k) * 2 ^ k, ?_, by push_cast; rfl⟩
  have hfloor : (2 ^ 52 : ℤ) ≤ ⌊x / 2 ^ k⌋ := by
    rw [Int.le_floor, le_div_iff₀ (by positivity)]
    have hself := Int.zpow_log_le_self (b := 2) (by norm_num) hpos
    rw [show Int.log 2 x = ((52 + k : ℕ) : ℤ) by omega, zpow_natCast, pow_add] at hself
    exact_mod_cast hself
  have hround := hfloor.trans (floor_le_roundHalfEven (x / 2 ^ k))
  calc (2 ^ 53 : ℤ) = 2 ^ 52 * 2 ^ 1 := by norm_num
    _ ≤ roundHalfEven (x / 2 ^ k) * 2 ^ k := by gcongr; norm_num

theorem rounds_toDouble (z : ℤ) : Rounds z (toDouble z) := by
  by_cases hz : z.natAbs ≤ 2 ^ 53
  · rw [toDouble_int hz]
    exact .exact hz
  · have hlarge : (2 : ℚ) ^ 53 ≤ |(z : ℚ)| := by
      have : (2 ^ 53 : ℤ) ≤ |z| := by
        rw [Int.abs_eq_natAbs]
        omega
      exact_mod_cast this
    obtain ⟨w, hw, hround⟩ := exists_rounded hlarge
    unfold toDouble
    rw [if_neg fun h => hz (by simpa using h.2)]
    simp only [hround]
    rcases lt_or_ge z 0 with hneg | hpos
    · have hq : (z : ℚ) < 0 := by exact_mod_cast hneg
      simp only [hq, decide_true, if_true]
      split
      · exact .infBelow (by omega)
      · rw [← Int.cast_neg]
        exact .below (by omega) (by omega)
    · have hq : ¬ (z : ℚ) < 0 := by exact_mod_cast not_lt.mpr hpos
      simp only [hq, decide_false, if_false]
      split
      · exact .infAbove (by omega)
      · exact .above (by omega) hw

theorem rounds_add (m n : ℤ) : Rounds (m + n) ((JsNum.fin m).add (.fin n)) := by
  have h := rounds_toDouble (m + n)
  rwa [Int.cast_add] at h

theorem rounds_sub (m n : ℤ) : Rounds (m - n) ((JsNum.fin m).sub (.fin n)) := by
  have h := rounds_toDouble (m - n)
  rw [Int.cast_sub, sub_eq_add_neg (m : ℚ)] at h
  exact h

theorem rounds_mul (m n : ℤ) : Rounds (m * n) ((JsNum.fin m).mul (.fin n)) := by
  have h := rounds_toDouble (m * n)
  rwa [Int.cast_mul] at h

theorem Whole.add {a b : JsNum} (ha : Whole a) (hb : Whole b) : Whole (a.add b) := by
  cases ha with
  | nan => exact .nan
  | inf s =>
    cases hb with
    | nan => exact .nan
    | inf t =>
      simp only [JsNum.add]
      split
      · exact .inf s
      · exact .nan
    | int z => exact .inf s
  | int y =>
    cases hb with
    | nan => exact .nan
    | inf t => exact .inf t
    | int z => exact (rounds_add y z).whole

theorem Whole.neg {a : JsNum} (ha : Whole a) : Whole a.neg := by
  cases ha with
  | nan => exact .nan
  | inf s => exact .inf _
  | int z =>
    have h := Whole.int (-z)
    rwa [Int.cast_neg] at h

theorem Whole.sub {a b : JsNum} (ha : Whole a) (hb : Whole b) : Whole (a.sub b) := ha.add hb.neg

theorem Whole.mul {a b : JsNum} (ha : Whole a) (hb : Whole b) : Whole (a.mul b) := by
  cases ha with
  | nan => exact .nan
  | inf s =>
    cases hb with
    | nan => exact .nan
    | inf t => exact .inf _
    | int z =>
      simp only [JsNum.mul]
      split
      · exact .nan
      · exact .inf _
  | int y =>
    cases hb with
    | nan => exact .nan
    | inf t =>
      simp only [JsNum.mul]
      split
      · exact .nan
      · exact .inf _
    | int z => exact (rounds_mul y z).whole

theorem lt?_int (y z : ℤ) : (JsNum.fin y).lt? (.fin z) = some (decide (y < z)) := by
  simp [JsNum.lt?]

theorem max_fin (y z : ℤ) : (JsNum.fin y).max (.fin z) = .fin (max y z : ℤ) := by
  unfold JsNum.max
  rw [lt?_int]
  by_cases hlt : y < z
  · simp only [hlt, decide_true]
    rw [max_eq_right hlt.le]
  · simp only [hlt, decide_false]
    rw [max_eq_left (not_lt.mp hlt)]

theorem min_fin (y z : ℤ) : (JsNum.fin y).min (.fin z) = .fin (min y z : ℤ) := by
  unfold JsNum.min
  rw [lt?_int]
  by_cases hlt : y < z
  · simp only [hlt, decide_true]
    rw [min_eq_left hlt.le]
  · simp only [hlt, decide_false]
    rw [min_eq_right (not_lt.mp hlt)]

theorem Whole.max {a b : JsNum} (ha : Whole a) (hb : Whole b) : Whole (a.max b) := by
  unfold JsNum.max
  split
  · exact .nan
  · exact hb
  · exact ha

theorem Whole.min {a b : JsNum} (ha : Whole a) (hb : Whole b) : Whole (a.min b) := by
  unfold JsNum.min
  split
  · exact .nan
  · exact ha
  · exact hb

theorem whole_signed (neg : Bool) {n : JsNum} (h : Whole n) :
    Whole (if neg then n.neg else n) := by
  split
  · exact h.neg
  · exact h

/-- The text of a number reads as a whole number. -/
theorem whole_parseInt (s : String) : Whole (parseInt s) := by
  have hvalue : ∀ ds, Whole (toDouble (digitsValue ds)) := fun ds => by
    have h := (rounds_toDouble (digitsValue ds)).whole
    rwa [Int.cast_natCast] at h
  unfold parseInt
  dsimp only
  split
  · exact .nan
  · exact whole_signed _ (hvalue _)

theorem whole_parseIntAny (s : String) : Whole (parseIntAny s) := by
  have hdigits : ∀ radix cs, Whole (leadingDigits radix cs) := by
    intro radix cs
    unfold leadingDigits
    generalize cs.takeWhile (fun c => (radixDigit c).any (· < radix)) = ds
    cases ds with
    | nil => exact .nan
    | cons d ds =>
      have h := (rounds_toDouble (((d :: ds).foldl
        (fun n c => radix * n + (radixDigit c).getD 0) 0 : ℕ) : ℤ)).whole
      rwa [Int.cast_natCast] at h
  unfold parseIntAny
  split
  rename_i neg cs _
  dsimp only
  refine whole_signed _ ?_
  split <;> exact hdigits _ _

/-- Where in an array of length `n` a whole number points. -/
def placeAt (z : ℤ) (n : ℕ) : ℕ := if z < 0 then ((n : ℤ) + z).toNat else min z.toNat n

theorem sliceIndex_int (z : ℤ) (n : ℕ) : sliceIndex (.fin z) n = placeAt z n := by
  unfold sliceIndex placeAt
  simp only [Int.cast_lt_zero, ← Int.cast_neg, Int.floor_intCast, sub_neg_eq_add]

theorem placeAt_le (z : ℤ) (n : ℕ) : placeAt z n ≤ n := by
  unfold placeAt
  split <;> omega

theorem Whole.sliceIndex_le {a : JsNum} (h : Whole a) (n : ℕ) : sliceIndex a n ≤ n := by
  cases h with
  | nan => exact Nat.zero_le n
  | inf s => cases s <;> simp [sliceIndex]
  | int z => exact sliceIndex_int z n ▸ placeAt_le z n

/-- An array is too short for the rounding to show. -/
theorem Rounds.sliceIndex {z : ℤ} {a : JsNum} (h : Rounds z a) {n : ℕ} (hn : n ≤ 2 ^ 53) :
    sliceIndex a n = placeAt z n := by
  cases h with
  | exact _ => exact sliceIndex_int z n
  | above hz hw =>
    rw [sliceIndex_int]
    unfold placeAt
    rw [if_neg (by omega), if_neg (by omega)]
    omega
  | below hz hw =>
    rw [sliceIndex_int]
    unfold placeAt
    rw [if_pos (by omega), if_pos (by omega)]
    omega
  | infAbove hz =>
    unfold placeAt
    rw [if_neg (by omega)]
    change n = _
    omega
  | infBelow hz =>
    unfold placeAt
    rw [if_pos (by omega)]
    change 0 = _
    omega

section
variable {α : Type} {xs : List α} {start stop : JsNum}

theorem length_slice_le {k : ℕ}
    (h : sliceIndex stop xs.length ≤ sliceIndex start xs.length + k) :
    (slice xs start stop).length ≤ k := by
  unfold slice
  rw [List.length_take]
  omega

theorem slice_eq_nil (h : sliceIndex stop xs.length ≤ sliceIndex start xs.length) :
    slice xs start stop = [] :=
  List.length_eq_zero_iff.mp (Nat.le_zero.mp (length_slice_le h))

/-- A slice is a run of the array. -/
theorem slice_prefix (xs : List α) (start stop : JsNum) :
    slice xs start stop <+: xs.drop (sliceIndex start xs.length) := List.take_prefix _ _

end

end JtfpMall.Js
