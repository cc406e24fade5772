import JtfpMall.Js.NumberText

/-!
# What rounding gives

A rounded number is a binary64 value, so rounding it again changes nothing. A sum with a much
smaller number, and every sum well below the largest value, is finite.
-/

namespace JtfpMall.Js

theorem roundHalfEven_le (y : ℚ) : roundHalfEven y ≤ y + 1 / 2 := by
  have hfloor := Int.floor_le y
  unfold roundHalfEven
  dsimp only
  split
  · linarith
  · split
    · push_cast
      linarith
    · split
      · linarith
      · push_cast
        linarith

theorem rounded_le (x : ℚ) : rounded x ≤ x + 2 ^ lastBit x / 2 := by
  have hu : (0 : ℚ) < 2 ^ lastBit x := two_zpow_pos _
  calc rounded x ≤ (x / 2 ^ lastBit x + 1 / 2) * 2 ^ lastBit x := by
        unfold rounded
        gcongr
        exact roundHalfEven_le _
    _ = x + 2 ^ lastBit x / 2 := by
        rw [add_mul, div_mul_cancel₀ _ hu.ne']
        ring

theorem le_roundHalfEven (y : ℚ) : y - 1 / 2 ≤ roundHalfEven y := by
  have hfloor := Int.lt_floor_add_one y
  unfold roundHalfEven
  dsimp only
  split
  · linarith
  · split
    · push_cast
      linarith
    · split
      · linarith
      · push_cast
        linarith

theorem le_rounded (x : ℚ) : x - 2 ^ lastBit x / 2 ≤ rounded x := by
  have hu : (0 : ℚ) < 2 ^ lastBit x := two_zpow_pos _
  calc x - 2 ^ lastBit x / 2 = (x / 2 ^ lastBit x - 1 / 2) * 2 ^ lastBit x := by
        rw [sub_mul, div_mul_cancel₀ _ hu.ne']
        ring
    _ ≤ rounded x := by
        unfold rounded
        gcongr
        exact le_roundHalfEven _

/-- A number of 53 bits is its own rounded value. -/
theorem rounded_scaled {m : ℕ} {e : ℤ} (hm : 0 < m) (hle : m < 2 ^ 53) (he : -1074 ≤ e) :
    rounded (m * 2 ^ e) = m * 2 ^ e := by
  have hu : (0 : ℚ) < 2 ^ e := two_zpow_pos e
  have hmq : (0 : ℚ) < m := Nat.cast_pos.mpr hm
  have hbit : lastBit (m * 2 ^ e) ≤ e := by
    have htop : (m : ℚ) * 2 ^ e < 2 ^ (e + (53 : ℕ)) := by
      rw [two_zpow_add]
      gcongr
      exact_mod_cast hle
    have hlog : Int.log 2 ((m : ℚ) * 2 ^ e) < e + (53 : ℕ) := by
      rw [← Int.lt_zpow_iff_log_lt (by norm_num) (mul_pos hmq hu)]
      exact_mod_cast htop
    unfold lastBit
    push_cast at hlog
    omega
  obtain ⟨k, hk⟩ : ∃ k : ℕ, e = lastBit (m * 2 ^ e) + k :=
    ⟨(e - lastBit (m * 2 ^ e)).toNat, by omega⟩
  have hmul : (m : ℚ) * 2 ^ e = ((m * 2 ^ k : ℕ) : ℤ) * 2 ^ lastBit (m * 2 ^ e) := by
    nth_rewrite 1 [hk]
    rw [two_zpow_add]
    push_cast
    ring
  refine (rounded_eq (m := (m * 2 ^ k : ℕ)) ?_).trans hmul.symm
  rw [← hmul, sub_self, abs_zero]
  linarith [two_zpow_pos (lastBit (m * 2 ^ e))]

/-- A rounded value has 53 bits. -/
theorem exists_scaled {x : ℚ} (hx : 0 < x) : rounded x = 0 ∨
    ∃ (m : ℕ) (e : ℤ), 0 < m ∧ m < 2 ^ 53 ∧ -1074 ≤ e ∧ rounded x = m * 2 ^ e := by
  have hu : (0 : ℚ) < 2 ^ lastBit x := two_zpow_pos _
  have hnonneg : 0 ≤ roundHalfEven (x / 2 ^ lastBit x) :=
    (Int.floor_nonneg.mpr (div_nonneg hx.le hu.le)).trans (floor_le_roundHalfEven _)
  have hless : roundHalfEven (x / 2 ^ lastBit x) ≤ 2 ^ 53 := by
    have hbound : x / 2 ^ lastBit x < 2 ^ 53 := by
      rw [div_lt_iff₀ hu, ← two_zpow_add]
      exact lt_lastBit
    have h : (roundHalfEven (x / 2 ^ lastBit x) : ℚ) < 2 ^ 53 + 1 := by
      linarith [roundHalfEven_le (x / 2 ^ lastBit x)]
    have h' : roundHalfEven (x / 2 ^ lastBit x) < 2 ^ 53 + 1 := by exact_mod_cast h
    omega
  have hleast : -1074 ≤ lastBit x := le_max_right _ _
  unfold rounded
  generalize roundHalfEven (x / 2 ^ lastBit x) = m at hnonneg hless
  lift m to ℕ using hnonneg
  rcases Nat.eq_zero_or_pos m with rfl | hm
  · left
    push_cast
    ring
  · right
    by_cases htop : m = 2 ^ 53
    · refine ⟨2 ^ 52, lastBit x + (1 : ℕ), by norm_num, by norm_num, by push_cast; omega, ?_⟩
      rw [htop, two_zpow_add]
      push_cast
      ring
    · refine ⟨m, lastBit x, hm, by norm_cast at hless; omega, hleast, rfl⟩

/-- What rounding gives is a value. -/
theorem isDouble_toDouble (x : ℚ) : (toDouble x).IsDouble := by
  have hpos : ∀ x : ℚ, 0 < x → (toDouble x).IsDouble := by
    intro x hx
    by_cases hr : rounded x < 2 ^ 1024
    · rw [toDouble_pos hx hr]
      rcases exists_scaled hx with hzero | ⟨m, e, hm, hle, he, hscaled⟩
      · rw [hzero]
        exact isDouble_zero
      · have hpos : 0 < rounded x := by
          rw [hscaled]
          exact mul_pos (Nat.cast_pos.mpr hm) (two_zpow_pos e)
        have hself : rounded (rounded x) = rounded x := by
          rw [hscaled]
          exact rounded_scaled hm hle he
        change toDouble (rounded x) = _
        rw [toDouble_pos hpos (by rwa [hself]), hself]
    · unfold toDouble
      split
      · rename_i hint
        change toDouble x = _
        exact if_pos hint
      · dsimp only
        rw [abs_of_pos hx]
        change JsNum.IsDouble (if (2 : ℚ) ^ 1024 ≤ rounded x then _ else _)
        rw [if_pos (not_lt.mp hr)]
        trivial
  rcases lt_trichotomy x 0 with hneg | rfl | hx
  · have h := hpos (-x) (neg_pos.mpr hneg)
    rw [Json.toDouble_neg] at h
    cases hx : toDouble x with
    | nan =>
      rw [hx] at h
      exact h
    | inf _ => trivial
    | fin q =>
      rw [hx] at h
      change toDouble (-q) = .fin (-q) at h
      change toDouble q = .fin q
      have hback := Json.toDouble_neg (-q)
      rw [h, neg_neg] at hback
      rw [hback, JsNum.neg, neg_neg]
  · exact isDouble_ofNat (n := 0) (by norm_num)
  · exact hpos x hx

/-- Far below the largest value nothing overflows. -/
theorem isFinite_toDouble {x : ℚ} (hx : 0 < x) (hlt : x < 2 ^ 202) :
    (toDouble x).isFinite = true := by
  have hbound : rounded x < 2 ^ 1024 := by
    have hunit : (2 : ℚ) ^ lastBit x ≤ 2 ^ 202 := by
      rw [← zpow_natCast]
      refine zpow_le_zpow_right₀ (by norm_num) ?_
      have hlog : Int.log 2 x < (202 : ℕ) := by
        rw [← Int.lt_zpow_iff_log_lt (by norm_num) hx]
        exact_mod_cast hlt
      unfold lastBit
      push_cast at hlog ⊢
      omega
    calc rounded x ≤ x + 2 ^ lastBit x / 2 := rounded_le x
      _ < 2 ^ 202 + 2 ^ 202 / 2 := by linarith
      _ < 2 ^ 203 := by norm_num
      _ < 2 ^ 1024 := pow_lt_pow_right₀ (by norm_num) (by norm_num)
  rw [toDouble_pos hx hbound]
  rfl

/-- The sum of a value and a much smaller whole number is finite. -/
theorem isFinite_add {n m : ℕ} (hn : n ≤ 2 ^ 53) (hm : (JsNum.ofNat m).IsDouble) :
    ((JsNum.ofNat n).add (.ofNat m)).isFinite = true := by
  change (toDouble ((n : ℚ) + m)).isFinite = true
  rcases Nat.eq_zero_or_pos (n + m) with hzero | hpos
  · have hsum : (n : ℚ) + m = 0 := by exact_mod_cast hzero
    rw [hsum]
    rfl
  have hposq : (0 : ℚ) < (n : ℚ) + m := by exact_mod_cast hpos
  by_cases hlarge : m < 2 ^ 200
  · refine isFinite_toDouble hposq ?_
    have hsum : n + m < 2 ^ 202 := by omega
    exact_mod_cast hsum
  · have hmpos : (0 : ℚ) < m := by
      have h : 0 < m := lt_of_lt_of_le (by positivity) (not_lt.mp hlarge)
      exact_mod_cast h
    have hnear : |((n : ℚ) + m) - m| ≤ m / (2 * 10 ^ 16) := by
      rw [add_sub_cancel_right, abs_of_nonneg (Nat.cast_nonneg n), le_div_iff₀ (by norm_num)]
      have h : n * (2 * 10 ^ 16) ≤ m := by
        calc n * (2 * 10 ^ 16) ≤ 2 ^ 53 * (2 * 10 ^ 16) := Nat.mul_le_mul_right _ hn
          _ ≤ 2 ^ 200 := by norm_num
          _ ≤ m := not_lt.mp hlarge
      exact_mod_cast h
    rw [toDouble_near hmpos hm hposq hnear]
    rfl

/-- Where the last bit is below one, rounding does not go below a whole number. -/
theorem natCast_le_rounded {f : ℕ} {x : ℚ} (hf : (f : ℚ) ≤ x) (hbit : lastBit x ≤ 0) :
    (f : ℚ) ≤ rounded x := by
  obtain ⟨k, hk⟩ : ∃ k : ℕ, lastBit x = -k := ⟨(-lastBit x).toNat, by omega⟩
  unfold rounded
  rw [hk, zpow_neg, zpow_natCast, div_inv_eq_mul]
  have hmul : ((f * 2 ^ k : ℕ) : ℤ) ≤ ⌊x * 2 ^ k⌋ := by
    rw [Int.le_floor]
    push_cast
    gcongr
  have hround : ((f * 2 ^ k : ℕ) : ℚ) ≤ roundHalfEven (x * 2 ^ k) := by
    exact_mod_cast hmul.trans (floor_le_roundHalfEven _)
  rw [← div_eq_mul_inv, le_div_iff₀ (by positivity)]
  exact_mod_cast hround

/-- The whole seconds of a time in milliseconds: the rounded quotient never reaches the next. -/
theorem floor_div_thousand {n : ℕ} (hn : n ≤ 8640000000000000) :
    ((JsNum.ofNat n).div (.ofNat 1000)).floor = .ofNat (n / 1000) := by
  change (toDouble ((n : ℚ) / (1000 : ℕ))).floor = _
  rcases Nat.eq_zero_or_pos n with rfl | hpos
  · rw [Nat.cast_zero, zero_div, show toDouble 0 = .fin 0 from isDouble_zero]
    simp [JsNum.floor, JsNum.ofNat]
  have hx : (0 : ℚ) < (n : ℚ) / (1000 : ℕ) := by positivity
  have hmod : (n : ℚ) / (1000 : ℕ) ≤ (n / 1000 : ℕ) + 999 / 1000 := by
    rw [div_le_iff₀ (by norm_num)]
    have h : n ≤ n / 1000 * 1000 + 999 := by omega
    have hq : (n : ℚ) ≤ (n / 1000 : ℕ) * 1000 + 999 := by exact_mod_cast h
    push_cast at hq ⊢
    linarith
  have hfloor : ((n / 1000 : ℕ) : ℚ) ≤ (n : ℚ) / (1000 : ℕ) := by
    rw [le_div_iff₀ (by norm_num)]
    have h : n / 1000 * 1000 ≤ n := Nat.div_mul_le_self n 1000
    exact_mod_cast h
  have hbit : lastBit ((n : ℚ) / (1000 : ℕ)) ≤ -10 := by
    have hlt : (n : ℚ) / (1000 : ℕ) < 2 ^ (43 : ℤ) := by
      rw [div_lt_iff₀ (by norm_num)]
      have h : (n : ℚ) ≤ 8640000000000000 := by exact_mod_cast hn
      exact lt_of_le_of_lt h (by norm_num)
    have hlog : Int.log 2 ((n : ℚ) / (1000 : ℕ)) < 43 := by
      rw [← Int.lt_zpow_iff_log_lt (by norm_num) hx]
      exact_mod_cast hlt
    unfold lastBit
    omega
  have hunit : (2 : ℚ) ^ lastBit ((n : ℚ) / (1000 : ℕ)) ≤ 1 / 1024 := by
    calc (2 : ℚ) ^ lastBit ((n : ℚ) / (1000 : ℕ)) ≤ 2 ^ (-10 : ℤ) :=
          zpow_le_zpow_right₀ (by norm_num) hbit
      _ = 1 / 1024 := by norm_num
  have hbelow : rounded ((n : ℚ) / (1000 : ℕ)) < (n / 1000 : ℕ) + 1 := by
    linarith [rounded_le ((n : ℚ) / (1000 : ℕ))]
  have habove := natCast_le_rounded hfloor (by omega)
  have hmax : ((n / 1000 : ℕ) : ℚ) + 1 ≤ 2 ^ 53 := by
    have h : n / 1000 + 1 ≤ 2 ^ 53 := by omega
    exact_mod_cast h
  have htop : rounded ((n : ℚ) / (1000 : ℕ)) < 2 ^ 1024 :=
    lt_of_lt_of_le (lt_of_lt_of_le hbelow hmax) (pow_le_pow_right₀ (by norm_num) (by norm_num))
  rw [toDouble_pos hx htop]
  change JsNum.fin _ = JsNum.fin _
  have hwhole : ⌊rounded ((n : ℚ) / (1000 : ℕ))⌋ = (n / 1000 : ℕ) := by
    rw [Int.floor_eq_iff]
    exact ⟨by exact_mod_cast habove, by exact_mod_cast hbelow⟩
  rw [hwhole]
  rfl

/-- `Math.ceil`. -/
def JsNum.ceil : JsNum → JsNum
  | .fin q => .fin ⌈q⌉
  | n => n

/-- The rounded quotient lies between the same whole numbers as the quotient. -/
theorem ceil_div {n size : ℕ} (hn : n < 2 ^ 44) (h1 : 1 ≤ size) (h100 : size ≤ 100) :
    ((JsNum.ofNat n).div (.ofNat size)).ceil = .ofNat ((n + size - 1) / size) := by
  have hsize : (0 : ℚ) < size := by exact_mod_cast h1
  have hdiv : (JsNum.ofNat n).div (.ofNat size) = toDouble ((n : ℚ) / size) := if_neg hsize.ne'
  rw [hdiv]
  have hsplit := Nat.div_add_mod n size
  set q := n / size
  set r := n % size
  have hr : r < size := Nat.mod_lt _ h1
  have hnq : (n : ℚ) = size * q + r := by exact_mod_cast hsplit.symm
  by_cases hzero : r = 0
  · have hquotient : (n : ℚ) / size = ((q : ℤ) : ℚ) := by
      rw [hnq, hzero, div_eq_iff hsize.ne']
      push_cast
      ring
    have hq : q ≤ n := Nat.div_le_self n size
    have hwhole : (q : ℤ).natAbs ≤ 2 ^ 53 := by
      rw [Int.natAbs_natCast]
      exact hq.trans (by omega)
    have hup : (n + size - 1) / size = q := by
      rw [Nat.div_eq_iff h1, Nat.mul_comm]
      omega
    rw [hquotient, toDouble_int hwhole, hup]
    simp [JsNum.ceil, JsNum.ofNat]
  · have hx : (0 : ℚ) < (n : ℚ) / size := by
      have hpos : 0 < n := by omega
      positivity
    have hlow : (q : ℚ) + 1 / 100 ≤ (n : ℚ) / size := by
      rw [le_div_iff₀ hsize, hnq]
      have hone : (1 : ℚ) ≤ r := by
        have h : 1 ≤ r := by omega
        exact_mod_cast h
      have hhundred : (size : ℚ) ≤ 100 := by exact_mod_cast h100
      linarith
    have hhigh : (n : ℚ) / size ≤ q + 1 - 1 / 100 := by
      rw [div_le_iff₀ hsize, hnq]
      have hone : (r : ℚ) + 1 ≤ size := by exact_mod_cast hr
      have hhundred : (size : ℚ) ≤ 100 := by exact_mod_cast h100
      linarith
    have hbit : lastBit ((n : ℚ) / size) ≤ -9 := by
      have hlt : (n : ℚ) / size < 2 ^ (44 : ℤ) := by
        have hle : (n : ℚ) / size ≤ n := div_le_self (Nat.cast_nonneg n) (by exact_mod_cast h1)
        have hbound : (n : ℚ) < 2 ^ 44 := by exact_mod_cast hn
        exact lt_of_le_of_lt hle (by exact_mod_cast hbound)
      have hlog : Int.log 2 ((n : ℚ) / size) < 44 := by
        rw [← Int.lt_zpow_iff_log_lt (by norm_num) hx]
        exact_mod_cast hlt
      unfold lastBit
      omega
    have hunit : (2 : ℚ) ^ lastBit ((n : ℚ) / size) ≤ 1 / 512 := by
      calc (2 : ℚ) ^ lastBit ((n : ℚ) / size) ≤ 2 ^ (-9 : ℤ) :=
            zpow_le_zpow_right₀ (by norm_num) hbit
        _ = 1 / 512 := by norm_num
    have hbelow : rounded ((n : ℚ) / size) < q + 1 := by linarith [rounded_le ((n : ℚ) / size)]
    have habove : (q : ℚ) < rounded ((n : ℚ) / size) := by linarith [le_rounded ((n : ℚ) / size)]
    have hq : (q : ℚ) + 1 ≤ 2 ^ 53 := by
      have h : q + 1 ≤ 2 ^ 53 := by
        have hle : q ≤ n := Nat.div_le_self n size
        omega
      exact_mod_cast h
    have htop : rounded ((n : ℚ) / size) < 2 ^ 1024 :=
      lt_of_lt_of_le (lt_of_lt_of_le hbelow hq) (pow_le_pow_right₀ (by norm_num) (by norm_num))
    have hup : (n + size - 1) / size = q + 1 := by
      rw [Nat.div_eq_iff h1, Nat.add_mul, Nat.mul_comm q]
      omega
    have hceil : ⌈rounded ((n : ℚ) / size)⌉ = (q : ℤ) + 1 := by
      rw [Int.ceil_eq_iff]
      push_cast
      exact ⟨by linarith, hbelow.le⟩
    rw [toDouble_pos hx htop, hup, JsNum.ceil, hceil, JsNum.ofNat]
    push_cast
    rfl

end JtfpMall.Js
