import JtfpMall.Js.Sort
import JtfpMall.Js.Whole

/-!
# Comparators that subtract

Two different binary64 numbers differ by at least 2^-1074, so the rounded difference has the sign
of the exact one, and a comparator that subtracts puts numbers in their order.
-/

namespace JtfpMall.Js

open JtfpMall.Lib

namespace JsNum

/-- A binary64 value other than NaN. -/
def IsDouble : JsNum → Prop
  | .nan => False
  | .inf _ => True
  | .fin q => toDouble q = .fin q

/-- The place of a number in the order, NaN being nowhere. -/
def place : JsNum → WithBot (WithTop ℚ)
  | .nan => ⊥
  | .inf neg => if neg then ⊥ else (⊤ : WithTop ℚ)
  | .fin q => ((q : WithTop ℚ) : WithBot (WithTop ℚ))

theorem place_inj {m n : JsNum} (hm : m.IsDouble) (hn : n.IsDouble) : m.place = n.place ↔ m = n := by
  cases m with
  | nan => exact hm.elim
  | inf s =>
    cases n with
    | nan => exact hn.elim
    | inf t => cases s <;> cases t <;> simp [place]
    | fin q => cases s <;> simp [place]
  | fin p =>
    cases n with
    | nan => exact hn.elim
    | inf t => cases t <;> simp [place]
    | fin q => simp [place]

theorem lt?_eq {m n : JsNum} (hm : m.IsDouble) (hn : n.IsDouble) :
    m.lt? n = some (decide (m.place < n.place)) := by
  cases m with
  | nan => exact hm.elim
  | inf s =>
    cases n with
    | nan => exact hn.elim
    | inf t => cases s <;> cases t <;> simp [place, lt?]
    | fin q => cases s <;> simp [place, lt?]
  | fin p =>
    cases n with
    | nan => exact hn.elim
    | inf t =>
      cases t with
      | true => simp [place, lt?]
      | false =>
        have htop : (fin p).place < (inf false).place :=
          WithBot.coe_lt_coe.mpr (WithTop.coe_lt_top p)
        simp [lt?, htop]
    | fin q => simp [place, lt?]

end JsNum

theorem isDouble_ofNat {n : ℕ} (h : n ≤ 2 ^ 53) : (JsNum.ofNat n).IsDouble := by
  have hfinite := toDouble_int (n := (n : ℤ)) (by omega)
  rwa [Int.cast_natCast] at hfinite

theorem isDouble_zero : (JsNum.fin 0).IsDouble := by
  have h := isDouble_ofNat (n := 0) (by decide)
  rwa [JsNum.ofNat, Nat.cast_zero] at h

/-- The magnitude of a large enough number does not round to zero. -/
theorem one_le_round {x : ℚ} (hx : (2 : ℚ) ^ (-1074 : ℤ) ≤ x) :
    1 ≤ roundHalfEven (x / 2 ^ max (Int.log 2 x - 52) (-1074)) := by
  have hpos : 0 < x := lt_of_lt_of_le (zpow_pos (by norm_num) _) hx
  refine le_trans ?_ (floor_le_roundHalfEven _)
  rw [Int.le_floor, Int.cast_one, one_le_div (zpow_pos (by norm_num) _)]
  rcases le_total (Int.log 2 x - 52) (-1074) with h | h
  · rw [max_eq_right h]
    exact hx
  · rw [max_eq_left h]
    calc (2 : ℚ) ^ (Int.log 2 x - 52) ≤ 2 ^ Int.log 2 x :=
          zpow_le_zpow_right₀ (by norm_num) (by omega)
      _ ≤ x := by exact_mod_cast Int.zpow_log_le_self (b := 2) (by norm_num) hpos

/-- Rounding keeps the sign. -/
theorem toDouble_lt?_zero {x : ℚ} (hx : (2 : ℚ) ^ (-1074 : ℤ) ≤ |x|) :
    (toDouble x).lt? (.fin 0) = some (decide (x < 0)) := by
  have hne : x ≠ 0 := by
    rintro rfl
    rw [abs_zero] at hx
    exact absurd hx (not_le.mpr (zpow_pos (by norm_num) _))
  unfold toDouble
  split
  · simp [JsNum.lt?]
  · have hround := one_le_round hx
    generalize max (Int.log 2 |x| - 52) (-1074) = e at hround ⊢
    dsimp only
    have hr : 0 < (roundHalfEven (|x| / 2 ^ e) : ℚ) * 2 ^ e :=
      mul_pos (by exact_mod_cast hround) (zpow_pos (by norm_num) _)
    rcases lt_or_gt_of_ne hne with hneg | hpos
    · simp only [hneg, decide_true, if_true]
      split
      · rfl
      · simp [JsNum.lt?, hr]
    · simp only [hpos.le.not_gt, decide_false, if_false]
      split
      · rfl
      · simp [JsNum.lt?, hr.le]

/-- A binary64 value is a multiple of the least one. -/
theorem exists_multiple {q : ℚ} (h : toDouble q = .fin q) :
    ∃ k : ℤ, q = k * (2 : ℚ) ^ (-1074 : ℤ) := by
  have hscale : ∀ (z : ℤ) (n : ℕ), ∃ k : ℤ, (z : ℚ) * 2 ^ ((n : ℤ) - 1074) = k * 2 ^ (-1074 : ℤ) := by
    intro z n
    refine ⟨z * 2 ^ n, ?_⟩
    rw [sub_eq_add_neg, zpow_add₀ (by norm_num), zpow_natCast]
    rw [Int.cast_mul, Int.cast_pow, Int.cast_ofNat, mul_assoc]
  unfold toDouble at h
  split at h
  · rename_i hint
    obtain ⟨k, hk⟩ := hscale q.num 1074
    refine ⟨k, ?_⟩
    rw [← hk, show ((1074 : ℕ) : ℤ) - 1074 = 0 by norm_num, zpow_zero, mul_one]
    exact (Rat.den_eq_one_iff q).mp hint.1 |>.symm
  · obtain ⟨n, hn⟩ : ∃ n : ℕ, max (Int.log 2 |q| - 52) (-1074) = (n : ℤ) - 1074 :=
      ⟨(max (Int.log 2 |q| - 52) (-1074) + 1074).toNat, by omega⟩
    rw [hn] at h
    dsimp only at h
    split at h
    · cases h
    · have hq := JsNum.fin.inj h
      split at hq
      · obtain ⟨k, hk⟩ := hscale (-roundHalfEven (|q| / 2 ^ ((n : ℤ) - 1074))) n
        refine ⟨k, ?_⟩
        rw [← hk, Int.cast_neg, neg_mul]
        exact hq.symm
      · obtain ⟨k, hk⟩ := hscale (roundHalfEven (|q| / 2 ^ ((n : ℤ) - 1074))) n
        refine ⟨k, ?_⟩
        rw [← hk]
        exact hq.symm

/-- The difference of two numbers has the sign it should have. -/
theorem sub_lt?_zero {m n : JsNum} (hm : m.IsDouble) (hn : n.IsDouble) (hne : m ≠ n) :
    (m.sub n).lt? (.fin 0) = some (decide (m.place < n.place)) := by
  rw [← JsNum.lt?_eq hm hn]
  cases m with
  | nan => exact hm.elim
  | inf s =>
    cases n with
    | nan => exact hn.elim
    | inf t => cases s <;> cases t <;> first | rfl | exact absurd rfl hne
    | fin q => cases s <;> rfl
  | fin p =>
    cases n with
    | nan => exact hn.elim
    | inf t => cases t <;> rfl
    | fin q =>
      obtain ⟨j, hj⟩ := exists_multiple hm
      obtain ⟨k, hk⟩ := exists_multiple hn
      have hjk : j - k ≠ 0 := by
        intro h
        rw [sub_eq_zero] at h
        exact hne (by rw [hj, hk, h])
      have hleast : (0 : ℚ) < 2 ^ (-1074 : ℤ) := zpow_pos (by norm_num) _
      have hbound : (2 : ℚ) ^ (-1074 : ℤ) ≤ |p + -q| := by
        generalize (2 : ℚ) ^ (-1074 : ℤ) = least at hj hk hleast
        rw [hj, hk, ← sub_eq_add_neg, ← sub_mul, abs_mul, abs_of_pos hleast]
        refine le_mul_of_one_le_left hleast.le ?_
        rw [← Int.cast_sub, ← Int.cast_abs]
        exact_mod_cast Int.one_le_abs hjk
      change (toDouble (p + -q)).lt? (.fin 0) = some (decide (p < q))
      rw [toDouble_lt?_zero hbound]
      simp

/-- The difference is not negative exactly when the first number is not before the second. -/
theorem sub_not_neg_iff {m n : JsNum} (hm : m.IsDouble) (hn : n.IsDouble) :
    (m.sub n).lt? (.fin 0) ≠ some true ↔ n.place ≤ m.place := by
  by_cases hmn : m = n
  · subst hmn
    refine iff_of_true ?_ le_rfl
    cases m with
    | nan => exact hm.elim
    | inf neg => cases neg <;> simp [JsNum.sub, JsNum.neg, JsNum.add, JsNum.lt?]
    | fin q =>
      have hzero : (JsNum.fin q).sub (.fin q) = .fin 0 := by
        change toDouble (q + -q) = _
        rw [add_neg_cancel]
        exact_mod_cast toDouble_int (n := 0) (by decide)
      rw [hzero]
      simp [JsNum.lt?]
  · rw [sub_lt?_zero hm hn hmn]
    simp

end JtfpMall.Js
