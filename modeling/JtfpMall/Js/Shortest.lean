import JtfpMall.Js.Order

/-!
# The shortest digits of a number

Rounding a decimal of 17 digits next to a binary64 value gives the value back: the decimals are
closer to each other than the values are. So the search for the shortest digits ends with digits
that read back.
-/

namespace JtfpMall.Js

theorem roundHalfEven_of_near {y : ℚ} {m : ℤ} (h : |y - m| < 1 / 2) : roundHalfEven y = m := by
  obtain ⟨hlow, hhigh⟩ := abs_lt.mp h
  unfold roundHalfEven
  dsimp only
  by_cases hge : (m : ℚ) ≤ y
  · have hfloor : ⌊y⌋ = m := by
      rw [Int.floor_eq_iff]
      exact ⟨hge, by linarith⟩
    rw [hfloor, if_pos (by linarith)]
  · have hfloor : ⌊y⌋ = m - 1 := by
      rw [Int.floor_eq_iff]
      push_cast
      exact ⟨by linarith, by linarith [not_le.mp hge]⟩
    rw [hfloor, if_neg (by push_cast; linarith), if_pos (by push_cast; linarith)]
    omega

theorem roundHalfEven_int (m : ℤ) : roundHalfEven m = m := roundHalfEven_of_near (by simp)

/-- The exponent of the last bit of a number of this size. -/
def lastBit (x : ℚ) : ℤ := max (Int.log 2 x - 52) (-1074)

/-- The rounded value of a positive number that does not overflow. -/
def rounded (x : ℚ) : ℚ := roundHalfEven (x / 2 ^ lastBit x) * 2 ^ lastBit x

theorem two_zpow_pos (e : ℤ) : (0 : ℚ) < 2 ^ e := zpow_pos (by norm_num) e

/-- A small whole number is a multiple of its last bit. -/
theorem rounded_nat {n : ℕ} (hpos : 0 < n) (hn : n ≤ 2 ^ 53) : rounded n = n := by
  have hlog : Int.log 2 (n : ℚ) = Nat.log 2 n := Int.log_natCast 2 n
  obtain ⟨m, hm⟩ : ∃ m : ℤ, (n : ℚ) / 2 ^ lastBit n = m := by
    by_cases hlarge : n = 2 ^ 53
    · refine ⟨2 ^ 52, ?_⟩
      have hbit : lastBit (n : ℚ) = 1 := by
        unfold lastBit
        rw [hlog, hlarge, Nat.log_pow (by norm_num)]
        rfl
      rw [hbit, hlarge]
      norm_num
    · have hlt : Nat.log 2 n < 53 := Nat.log_lt_of_lt_pow hpos.ne' (by omega)
      obtain ⟨k, hk⟩ : ∃ k : ℕ, lastBit (n : ℚ) = -k := by
        refine ⟨(-lastBit (n : ℚ)).toNat, ?_⟩
        unfold lastBit
        rw [hlog]
        omega
      refine ⟨n * 2 ^ k, ?_⟩
      rw [hk, zpow_neg, zpow_natCast, div_inv_eq_mul]
      push_cast
      ring
  unfold rounded
  rw [hm, roundHalfEven_int, ← hm, div_mul_cancel₀ _ (two_zpow_pos _).ne']

/-- Rounding a positive number, in one formula. -/
theorem toDouble_pos {x : ℚ} (hx : 0 < x) (hr : rounded x < 2 ^ 1024) :
    toDouble x = .fin (rounded x) := by
  unfold toDouble
  split
  · rename_i hint
    have hnum : 0 < x.num := Rat.num_pos.mpr hx
    have hnat : x = (x.num.natAbs : ℕ) := by
      rw [Nat.cast_natAbs, abs_of_pos hnum]
      exact ((Rat.den_eq_one_iff x).mp hint.1).symm
    rw [hnat, rounded_nat (Int.natAbs_pos.mpr hnum.ne') hint.2]
  · dsimp only
    rw [abs_of_pos hx]
    change (if (2 : ℚ) ^ 1024 ≤ rounded x then _ else _) = _
    rw [if_neg (not_le.mpr hr), if_neg (not_lt.mpr hx.le)]
    rfl

/-- The same for a value: it is a multiple of its last bit. -/
theorem rounded_of_isDouble {x : ℚ} (hx : 0 < x) (h : toDouble x = .fin x) :
    rounded x = x ∧ x < 2 ^ 1024 := by
  unfold toDouble at h
  split at h
  · rename_i hint
    have hnum : 0 < x.num := Rat.num_pos.mpr hx
    have hnat : x = (x.num.natAbs : ℕ) := by
      rw [Nat.cast_natAbs, abs_of_pos hnum]
      exact ((Rat.den_eq_one_iff x).mp hint.1).symm
    refine ⟨by rw [hnat, rounded_nat (Int.natAbs_pos.mpr hnum.ne') hint.2], ?_⟩
    calc x = (x.num.natAbs : ℕ) := hnat
      _ ≤ 2 ^ 53 := by exact_mod_cast hint.2
      _ < 2 ^ 1024 := pow_lt_pow_right₀ (by norm_num) (by norm_num)
  · dsimp only at h
    rw [abs_of_pos hx] at h
    change (if (2 : ℚ) ^ 1024 ≤ rounded x then _ else _) = _ at h
    split at h
    · cases h
    · rename_i hlt
      rw [if_neg (not_lt.mpr hx.le)] at h
      have hsame : rounded x = x := JsNum.fin.inj h
      exact ⟨hsame, by rw [← hsame]; exact not_le.mp hlt⟩

theorem lt_lastBit {x : ℚ} : x < 2 ^ (lastBit x + 53) := by
  calc x < 2 ^ (Int.log 2 x + 1) := by exact_mod_cast Int.lt_zpow_succ_log_self (b := 2) (by norm_num) x
    _ ≤ 2 ^ (lastBit x + 53) := by
      refine zpow_le_zpow_right₀ (by norm_num) ?_
      unfold lastBit
      omega

/-- Above the least exponent the last bit is the 53rd. -/
theorem le_of_lastBit {x : ℚ} (hx : 0 < x) (h : -1074 < lastBit x) : 2 ^ (lastBit x + 52) ≤ x := by
  have hbit : lastBit x + 52 = Int.log 2 x := by
    unfold lastBit at h ⊢
    omega
  rw [hbit]
  exact_mod_cast Int.zpow_log_le_self (b := 2) (by norm_num) hx

/-- Where the last bits of two numbers are the same, rounding goes to the multiple next to it. -/
theorem rounded_eq {v : ℚ} {m : ℤ} (h : |v - m * 2 ^ lastBit v| < 2 ^ lastBit v / 2) :
    rounded v = m * 2 ^ lastBit v := by
  have hu : (0 : ℚ) < 2 ^ lastBit v := two_zpow_pos _
  have hunits : v / 2 ^ lastBit v - m = (v - m * 2 ^ lastBit v) / 2 ^ lastBit v := by
    rw [sub_div, mul_div_assoc, div_self hu.ne', mul_one]
  unfold rounded
  rw [roundHalfEven_of_near (m := m)]
  rw [hunits, abs_div, abs_of_pos hu, div_lt_iff₀ hu]
  linarith

theorem two_zpow_add (e : ℤ) (n : ℕ) : (2 : ℚ) ^ (e + n) = 2 ^ n * 2 ^ e := by
  rw [zpow_add₀ (by norm_num), zpow_natCast, mul_comm]

/-- What is within half of 10^-16 of a value rounds to it. -/
theorem rounded_near {x v : ℚ} (hx : 0 < x) (h : toDouble x = .fin x) (hv : 0 < v)
    (hnear : |v - x| ≤ x / (2 * 10 ^ 16)) : rounded v = x := by
  obtain ⟨hsame, _⟩ := rounded_of_isDouble hx h
  obtain ⟨m, hm⟩ : ∃ m : ℤ, x = m * 2 ^ lastBit x := ⟨_, hsame.symm⟩
  have htop : x < 2 ^ 53 * 2 ^ lastBit x := by
    rw [← two_zpow_add]
    exact lt_lastBit
  have hbottom : -1074 < lastBit x → 2 ^ 52 * 2 ^ lastBit x ≤ x := by
    rw [← two_zpow_add]
    exact le_of_lastBit hx
  have hleast : -1074 ≤ lastBit v := le_max_right _ _
  have hvtop : v < 2 ^ 53 * 2 ^ lastBit v := by
    rw [← two_zpow_add]
    exact lt_lastBit
  have hvbottom : -1074 < lastBit v → 2 ^ 52 * 2 ^ lastBit v ≤ v := by
    rw [← two_zpow_add]
    exact le_of_lastBit hv
  have hleastx : -1074 ≤ lastBit x := le_max_right _ _
  generalize lastBit x = e at hm htop hbottom hleastx
  have hu : (0 : ℚ) < 2 ^ e := two_zpow_pos e
  have hhalf : |v - x| < 2 ^ e / 2 := by
    calc |v - x| ≤ x / (2 * 10 ^ 16) := hnear
      _ < 2 ^ e / 2 := by
        rw [div_lt_div_iff₀ (by norm_num) (by norm_num)]
        linarith
  obtain ⟨hlow, hhigh⟩ := abs_lt.mp hhalf
  have hmlt : m + 1 ≤ 2 ^ 53 := by
    rw [hm] at htop
    exact_mod_cast lt_of_mul_lt_mul_right htop hu.le
  rcases lt_trichotomy (lastBit v) e with hless | heq | hmore
  · -- the value is the power of two the decimal is just below
    have hxlarge := hbottom (by omega)
    have hvless : v < 2 ^ 52 * 2 ^ e := by
      calc v < 2 ^ 53 * 2 ^ lastBit v := hvtop
        _ = 2 ^ 52 * 2 ^ (lastBit v + (1 : ℕ)) := by rw [two_zpow_add]; ring
        _ ≤ 2 ^ 52 * 2 ^ e := by
          gcongr
          · norm_num
          · push_cast
            omega
    have hm52 : m = 2 ^ 52 := by
      have hge : 2 ^ 52 ≤ m := by
        rw [hm] at hxlarge
        exact_mod_cast le_of_mul_le_mul_right hxlarge hu
      have hle : m < 2 ^ 52 + 1 := by
        have hlt : (m : ℚ) * 2 ^ e < (2 ^ 52 + 1) * 2 ^ e := by linarith
        exact_mod_cast lt_of_mul_lt_mul_right hlt hu.le
      omega
    have hbelow : lastBit v = e - 1 := by
      by_contra hne
      have hfar : v < 2 ^ 51 * 2 ^ e := by
        calc v < 2 ^ 53 * 2 ^ lastBit v := hvtop
          _ = 2 ^ 51 * 2 ^ (lastBit v + (2 : ℕ)) := by rw [two_zpow_add]; ring
          _ ≤ 2 ^ 51 * 2 ^ e := by
            gcongr
            · norm_num
            · push_cast
              omega
      linarith
    have hunit : (2 : ℚ) ^ e = 2 * 2 ^ lastBit v := by
      rw [show e = lastBit v + (1 : ℕ) by push_cast; omega, two_zpow_add, pow_one]
    have hxeq : x = ((2 ^ 53 : ℤ) : ℚ) * 2 ^ lastBit v := by
      rw [hm, hm52, hunit]
      push_cast
      ring
    rw [hxeq]
    refine rounded_eq ?_
    rw [← hxeq]
    calc |v - x| ≤ x / (2 * 10 ^ 16) := hnear
      _ < 2 ^ lastBit v / 2 := by
        rw [div_lt_div_iff₀ (by norm_num) (by norm_num), hxeq]
        push_cast
        linarith [two_zpow_pos (lastBit v)]
  · rw [hm, ← heq] at hhalf ⊢
    exact rounded_eq hhalf
  · -- the decimal would be in the next binade, and further away
    exfalso
    have hvlarge : 2 ^ 53 * 2 ^ e ≤ v := by
      calc (2 : ℚ) ^ 53 * 2 ^ e = 2 ^ 52 * 2 ^ (e + (1 : ℕ)) := by rw [two_zpow_add]; ring
        _ ≤ 2 ^ 52 * 2 ^ lastBit v := by
          gcongr
          · norm_num
          · push_cast
            omega
        _ ≤ v := hvbottom (by omega)
    have hgap : x + 2 ^ e ≤ 2 ^ 53 * 2 ^ e := by
      calc x + 2 ^ e = (m + 1) * 2 ^ e := by rw [hm]; ring
        _ ≤ 2 ^ 53 * 2 ^ e := by
          gcongr
          exact_mod_cast hmlt
    linarith

theorem toDouble_near {x v : ℚ} (hx : 0 < x) (h : toDouble x = .fin x) (hv : 0 < v)
    (hnear : |v - x| ≤ x / (2 * 10 ^ 16)) : toDouble v = .fin x := by
  have hrounded := rounded_near hx h hv hnear
  rw [toDouble_pos hv (by rw [hrounded]; exact (rounded_of_isDouble hx h).2), hrounded]

section
variable {x : ℚ} {n : ℤ}

/-- The digits in front of the cut at `k`, with their fraction. -/
def scaled (x : ℚ) (n : ℤ) (k : ℕ) : ℚ := x * (10 : ℚ) ^ ((k : ℤ) - n)

theorem ten_zpow_pos (e : ℤ) : (0 : ℚ) < 10 ^ e := zpow_pos (by norm_num) e

theorem scaled_bounds (hlow : (10 : ℚ) ^ (n - 1) ≤ x) (hhigh : x < 10 ^ n) {k : ℕ} (hk : 1 ≤ k) :
    (10 : ℚ) ^ (k - 1) ≤ scaled x n k ∧ scaled x n k < 10 ^ k := by
  have hp := ten_zpow_pos ((k : ℤ) - n)
  constructor
  · calc (10 : ℚ) ^ (k - 1) = 10 ^ (n - 1) * 10 ^ ((k : ℤ) - n) := by
          rw [← zpow_add₀ (by norm_num), ← zpow_natCast]
          congr 1
          omega
      _ ≤ x * 10 ^ ((k : ℤ) - n) := by gcongr
  · calc x * 10 ^ ((k : ℤ) - n) < 10 ^ n * 10 ^ ((k : ℤ) - n) := by gcongr
      _ = 10 ^ k := by
        rw [← zpow_add₀ (by norm_num), ← zpow_natCast]
        congr 1
        omega

theorem floor_scaled (hx : 0 < x) (k : ℕ) : (⌊scaled x n k⌋.toNat : ℚ) ≤ scaled x n k ∧
    scaled x n k < ⌊scaled x n k⌋.toNat + 1 := by
  have hpos : 0 ≤ ⌊scaled x n k⌋ := Int.floor_nonneg.mpr (mul_pos hx (ten_zpow_pos _)).le
  have hcast : (⌊scaled x n k⌋.toNat : ℚ) = ⌊scaled x n k⌋ := by
    exact_mod_cast congrArg (Int.cast (R := ℚ)) (Int.toNat_of_nonneg hpos)
  rw [hcast]
  exact ⟨Int.floor_le _, Int.lt_floor_add_one _⟩

/-- What the search tries at each length. -/
def candidates (x : ℚ) (n : ℤ) : List (ℕ × ℕ) :=
  (List.range 17).flatMap fun i =>
    let y := scaled x n (i + 1)
    let f := ⌊y⌋.toNat
    if y - f < 1 / 2 ∨ (y - f = 1 / 2 ∧ f % 2 = 0) then [(f, i + 1), (f + 1, i + 1)]
    else [(f + 1, i + 1), (f, i + 1)]

theorem mem_candidates {p : ℕ × ℕ} : p ∈ candidates x n ↔ 1 ≤ p.2 ∧ p.2 ≤ 17 ∧
    (p.1 = ⌊scaled x n p.2⌋.toNat ∨ p.1 = ⌊scaled x n p.2⌋.toNat + 1) := by
  obtain ⟨s, k⟩ := p
  unfold candidates
  rw [List.mem_flatMap]
  constructor
  · rintro ⟨i, hi, hmem⟩
    rw [List.mem_range] at hi
    dsimp only at hmem
    have hpair : (s, k) = (⌊scaled x n (i + 1)⌋.toNat, i + 1) ∨
        (s, k) = (⌊scaled x n (i + 1)⌋.toNat + 1, i + 1) := by
      split at hmem
      · simpa using hmem
      · rw [or_comm]
        simpa using hmem
    rcases hpair with h | h
    · obtain ⟨rfl, rfl⟩ := Prod.mk.inj h
      exact ⟨by omega, by omega, Or.inl rfl⟩
    · obtain ⟨rfl, rfl⟩ := Prod.mk.inj h
      exact ⟨by omega, by omega, Or.inr rfl⟩
  · rintro ⟨hlow, hhigh, hs⟩
    refine ⟨k - 1, List.mem_range.mpr (by omega), ?_⟩
    dsimp only at hs ⊢
    rw [show k - 1 + 1 = k by omega]
    change _ ∈ (if _ then [(⌊scaled x n k⌋.toNat, k), (⌊scaled x n k⌋.toNat + 1, k)]
      else [(⌊scaled x n k⌋.toNat + 1, k), (⌊scaled x n k⌋.toNat, k)])
    split <;> rcases hs with rfl | rfl <;> simp

/-- One of the two neighbours with 17 digits reads back. -/
theorem seventeen_digits (hx : 0 < x) (h : toDouble x = .fin x) (hlow : (10 : ℚ) ^ (n - 1) ≤ x)
    (hhigh : x < 10 ^ n) : ∃ s, (s, 17) ∈ candidates x n ∧
      toDouble ((s : ℚ) * 10 ^ (n - (17 : ℕ))) = .fin x := by
  obtain ⟨hfloor, hceil⟩ := floor_scaled (n := n) hx 17
  obtain ⟨hbig, _⟩ := scaled_bounds hlow hhigh (k := 17) (by norm_num)
  obtain ⟨s, hs, hnear⟩ : ∃ s, (s = ⌊scaled x n 17⌋.toNat ∨ s = ⌊scaled x n 17⌋.toNat + 1) ∧
      |(s : ℚ) - scaled x n 17| ≤ 1 / 2 := by
    rcases le_total (scaled x n 17 - ⌊scaled x n 17⌋.toNat) (1 / 2) with hle | hge
    · refine ⟨_, Or.inl rfl, abs_le.mpr ⟨by linarith, by linarith⟩⟩
    · refine ⟨_, Or.inr rfl, ?_⟩
      push_cast
      exact abs_le.mpr ⟨by linarith, by linarith⟩
  refine ⟨s, mem_candidates.mpr ⟨by norm_num, le_refl _, hs⟩, toDouble_near hx h ?_ ?_⟩
  · have hspos : (0 : ℚ) < s := by
      have := (abs_le.mp hnear).1
      norm_num at hbig
      linarith
    exact mul_pos hspos (ten_zpow_pos _)
  · have hback : scaled x n 17 * 10 ^ (n - (17 : ℕ)) = x := by
      unfold scaled
      rw [mul_assoc, ← zpow_add₀ (by norm_num)]
      rw [show ((17 : ℕ) : ℤ) - n + (n - (17 : ℕ)) = 0 by ring, zpow_zero, mul_one]
    have hunit : (10 : ℚ) ^ (n - (17 : ℕ)) ≤ x / 10 ^ 16 := by
      rw [le_div_iff₀ (by norm_num)]
      calc (10 : ℚ) ^ (n - (17 : ℕ)) * 10 ^ 16 = 10 ^ (n - 1) := by
            rw [← zpow_natCast, ← zpow_add₀ (by norm_num)]
            congr 1
            push_cast
            ring
        _ ≤ x := hlow
    calc |(s : ℚ) * 10 ^ (n - (17 : ℕ)) - x|
        = |(s : ℚ) - scaled x n 17| * 10 ^ (n - (17 : ℕ)) := by
          conv_lhs => rw [← hback]
          rw [← sub_mul, abs_mul, abs_of_pos (ten_zpow_pos _)]
      _ ≤ 1 / 2 * (x / 10 ^ 16) :=
          mul_le_mul hnear hunit (ten_zpow_pos _).le (by norm_num)
      _ = x / (2 * 10 ^ 16) := by ring

/-- The digits found have the length they are found at, or carried to the next power of ten, and
read back. -/
theorem shortestDigits_spec (hx : 0 < x) (h : toDouble x = .fin x) (hlow : (10 : ℚ) ^ (n - 1) ≤ x)
    (hhigh : x < 10 ^ n) {s k : ℕ} (hsk : shortestDigits x n = (s, k)) :
    1 ≤ k ∧ 10 ^ (k - 1) ≤ s ∧ s ≤ 10 ^ k ∧ toDouble ((s : ℚ) * 10 ^ (n - k)) = .fin x := by
  have hsearch : shortestDigits x n = ((candidates x n).find? fun p =>
      decide (toDouble ((p.1 : ℚ) * (10 : ℚ) ^ (n - p.2)) = .fin x)).getD
        (⌊x * (10 : ℚ) ^ (17 - n)⌋.toNat, 17) := rfl
  obtain ⟨t, ht, hback⟩ := seventeen_digits hx h hlow hhigh
  rw [hsk] at hsearch
  cases hf : (candidates x n).find? fun p =>
      decide (toDouble ((p.1 : ℚ) * (10 : ℚ) ^ (n - p.2)) = .fin x) with
  | none =>
    have := List.find?_eq_none.mp hf _ ht
    rw [decide_eq_true_eq] at this
    exact absurd hback this
  | some p =>
    rw [hf, Option.getD_some] at hsearch
    obtain rfl := hsearch
    have hread := List.find?_some hf
    rw [decide_eq_true_eq] at hread
    obtain ⟨hk, _, hs⟩ := mem_candidates.mp (List.mem_of_find?_eq_some hf)
    obtain ⟨hfloor, hceil⟩ := floor_scaled (n := n) hx k
    obtain ⟨hbig, hsmall⟩ := scaled_bounds hlow hhigh hk
    have hflow : 10 ^ (k - 1) < ⌊scaled x n k⌋.toNat + 1 := by
      have := hbig.trans_lt hceil
      exact_mod_cast this
    have hfhigh : ⌊scaled x n k⌋.toNat < 10 ^ k := by
      have := hfloor.trans_lt hsmall
      exact_mod_cast this
    dsimp only at hs
    refine ⟨hk, ?_, ?_, hread⟩ <;> omega

end

end JtfpMall.Js
