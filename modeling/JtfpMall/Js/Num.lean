import Mathlib.Data.Rat.Floor
import Mathlib.Data.Int.Log

/-!
# Numbers of the language

A number is a binary64 value: a finite one is held as the rational it stands
for, and every operation rounds its exact result to the nearest representable
value, ties to even. The two zeros are one value here: no modelled code tells
them apart.
-/

namespace JtfpMall.Js

/-! Bounds of years, months, days, hours, minutes, seconds and milliseconds. -/

instance neZero_years : NeZero 10000 := ⟨by decide⟩
instance neZero_months : NeZero 12 := ⟨by decide⟩
instance neZero_days : NeZero 31 := ⟨by decide⟩
instance neZero_dayNumbers : NeZero 32 := ⟨by decide⟩
instance neZero_hours : NeZero 24 := ⟨by decide⟩
instance neZero_minutes : NeZero 60 := ⟨by decide⟩
instance neZero_millis : NeZero 1000 := ⟨by decide⟩

inductive JsNum where
  | nan
  | inf (neg : Bool)
  | fin (q : ℚ)
deriving DecidableEq

/-- The nearest integer, ties to even. -/
def roundHalfEven (x : ℚ) : ℤ :=
  let f := ⌊x⌋
  let r := x - f
  if r < 1 / 2 then f
  else if 1 / 2 < r then f + 1
  else if f % 2 = 0 then f else f + 1

/-- Round to binary64: 53 significant bits, exponents from -1074, overflow to an
infinity. Integers up to 2^53 in magnitude are represented exactly. -/
def toDouble (q : ℚ) : JsNum :=
  if q.den = 1 ∧ q.num.natAbs ≤ 2 ^ 53 then .fin q
  else
    let e := max (Int.log 2 |q| - 52) (-1074)
    let r := (roundHalfEven (|q| / 2 ^ e) : ℚ) * 2 ^ e
    if 2 ^ 1024 ≤ r then .inf (decide (q < 0)) else .fin (if q < 0 then -r else r)

namespace JsNum

def ofNat (n : ℕ) : JsNum := .fin n

@[simp] theorem ofNat_inj {m n : ℕ} : ofNat m = ofNat n ↔ m = n := by
  simp [ofNat]

def neg : JsNum → JsNum
  | .nan => .nan
  | .inf s => .inf !s
  | .fin q => .fin (-q)

def add : JsNum → JsNum → JsNum
  | .nan, _ => .nan
  | _, .nan => .nan
  | .inf s, .inf t => if s = t then .inf s else .nan
  | .inf s, .fin _ => .inf s
  | .fin _, .inf t => .inf t
  | .fin p, .fin q => toDouble (p + q)

def sub (a b : JsNum) : JsNum := a.add b.neg

def mul : JsNum → JsNum → JsNum
  | .nan, _ => .nan
  | _, .nan => .nan
  | .inf s, .inf t => .inf (s != t)
  | .inf s, .fin q => if q = 0 then .nan else .inf (s != decide (q < 0))
  | .fin q, .inf s => if q = 0 then .nan else .inf (s != decide (q < 0))
  | .fin p, .fin q => toDouble (p * q)

/-- With one zero, a quotient by zero has the sign of the dividend. -/
def div : JsNum → JsNum → JsNum
  | .nan, _ => .nan
  | _, .nan => .nan
  | .inf _, .inf _ => .nan
  | .inf s, .fin q => .inf (s != decide (q < 0))
  | .fin _, .inf _ => .fin 0
  | .fin p, .fin q =>
    if q = 0 then (if p = 0 then .nan else .inf (decide (p < 0))) else toDouble (p / q)

/-- The language's `<` on numbers: `none` when an operand is NaN. -/
def lt? : JsNum → JsNum → Option Bool
  | .nan, _ => none
  | _, .nan => none
  | .inf s, .inf t => some (s && !t)
  | .inf s, .fin _ => some s
  | .fin _, .inf t => some !t
  | .fin p, .fin q => some (decide (p < q))

/-- `===` on numbers: NaN equals nothing. -/
def strictEq (a b : JsNum) : Bool := decide (a = b) && decide (a ≠ .nan)

def isFinite : JsNum → Bool
  | .fin _ => true
  | _ => false

/-- Truthiness of a number: neither zero nor NaN. -/
def truthy : JsNum → Bool
  | .nan => false
  | .inf _ => true
  | .fin q => decide (q ≠ 0)

/-- `Math.min` of two numbers. -/
def min (a b : JsNum) : JsNum :=
  match lt? a b with
  | none => .nan
  | some true => a
  | some false => b

/-- `Math.max` of two numbers. -/
def max (a b : JsNum) : JsNum :=
  match lt? a b with
  | none => .nan
  | some true => b
  | some false => a

/-- `Math.round`: the nearest integer, ties towards positive infinity. -/
def round : JsNum → JsNum
  | .fin q => .fin ⌊q + 1 / 2⌋
  | n => n

/-- `Math.floor`. -/
def floor : JsNum → JsNum
  | .fin q => .fin ⌊q⌋
  | n => n

@[simp] theorem strictEq_ofNat (m n : ℕ) : strictEq (ofNat m) (ofNat n) = decide (m = n) := by
  simp [strictEq, ofNat]

theorem eq_of_strictEq {a b : JsNum} (h : strictEq a b = true) : a = b := by
  simp only [strictEq, Bool.and_eq_true, decide_eq_true_eq] at h
  exact h.1

end JsNum

/-- Small integers are represented exactly. -/
theorem toDouble_int {n : ℤ} (h : n.natAbs ≤ 2 ^ 53) : toDouble (n : ℚ) = .fin n := by
  unfold toDouble
  rw [if_pos ⟨rfl, by simpa using h⟩]

/-- The sum of two integers is exact while it stays within 2^53. -/
theorem add_int {m n : ℤ} (h : (m + n).natAbs ≤ 2 ^ 53) :
    (JsNum.fin m).add (.fin n) = .fin ((m + n : ℤ) : ℚ) := by
  change toDouble ((m : ℚ) + n) = _
  rw [← Int.cast_add, toDouble_int h]

/-- So is the product. -/
theorem mul_int {m n : ℤ} (h : (m * n).natAbs ≤ 2 ^ 53) :
    (JsNum.fin m).mul (.fin n) = .fin ((m * n : ℤ) : ℚ) := by
  change toDouble ((m : ℚ) * n) = _
  rw [← Int.cast_mul, toDouble_int h]

end JtfpMall.Js
