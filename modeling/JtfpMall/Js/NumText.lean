import JtfpMall.Js.Num
import Mathlib.Data.List.TakeWhile

/-!
# Numbers and text

`Number(text)`, `parseInt(text, 10)` and the decimal text of a number: the
shortest digits that read back as the same number, laid out as the language
does, with an exponent outside 1e-6 .. 1e21.
-/

namespace JtfpMall.Js

/-- White space and line terminators. -/
def isSpace (c : Char) : Bool :=
  let n := c.toNat
  decide (n ∈ [0x9, 0xA, 0xB, 0xC, 0xD, 0x20, 0xA0, 0x1680, 0x2028, 0x2029, 0x202F, 0x205F,
    0x3000, 0xFEFF]) || (decide (0x2000 ≤ n) && decide (n ≤ 0x200A))

def trimChars (cs : List Char) : List Char :=
  ((cs.dropWhile isSpace).reverse.dropWhile isSpace).reverse

/-- `String.prototype.trim`. -/
def trim (s : String) : String := String.ofList (trimChars s.toList)

def isDigit (c : Char) : Bool := decide ('0' ≤ c) && decide (c ≤ '9')

def digitsValue (ds : List Char) : ℕ := ds.foldl (fun n c => 10 * n + (c.toNat - 48)) 0

/-- The value of `int.frac` times ten to the power `e`. -/
def decimalValue (int frac : List Char) (e : ℤ) : ℚ :=
  (digitsValue (int ++ frac) : ℚ) * (10 : ℚ) ^ (e - frac.length)

/-- An exponent part that takes all of its input; the empty input means zero. -/
def exponentPart : List Char → Option ℤ
  | [] => some 0
  | c :: cs =>
    if c = 'e' ∨ c = 'E' then
      let (neg, ds) := match cs with
        | '-' :: ds => (true, ds)
        | '+' :: ds => (false, ds)
        | ds => (false, ds)
      if ds ≠ [] ∧ ds.all isDigit then
        some (if neg then -(digitsValue ds : ℤ) else digitsValue ds)
      else none
    else none

/-- An unsigned decimal literal that takes all of its input. -/
def decimalLiteral (cs : List Char) : Option ℚ :=
  let int := cs.takeWhile isDigit
  match cs.dropWhile isDigit with
  | '.' :: r =>
    let frac := r.takeWhile isDigit
    if int = [] ∧ frac = [] then none
    else (exponentPart (r.dropWhile isDigit)).map (decimalValue int frac)
  | r => if int = [] then none else (exponentPart r).map (decimalValue int [])

def radixDigit (c : Char) : Option ℕ :=
  let n := c.toNat
  if isDigit c then some (n - 48)
  else if 'a' ≤ c ∧ c ≤ 'f' then some (n - 87)
  else if 'A' ≤ c ∧ c ≤ 'F' then some (n - 55)
  else none

/-- The digits after `0x`, `0o` or `0b`. -/
def radixLiteral (radix : ℕ) (cs : List Char) : JsNum :=
  let value := cs.foldl (fun acc c => do
    let n ← acc
    let d ← radixDigit c
    if d < radix then some (radix * n + d) else none) (some 0)
  match cs, value with
  | _ :: _, some n => toDouble n
  | _, _ => .nan

def unsignedLiteral (cs : List Char) : JsNum :=
  if cs = "Infinity".toList then .inf false
  else match decimalLiteral cs with
    | some q => toDouble q
    | none => .nan

/-- `Number(text)`. -/
def stringToNumber (s : String) : JsNum :=
  match trimChars s.toList with
  | [] => .fin 0
  | '+' :: cs => unsignedLiteral cs
  | '-' :: cs => (unsignedLiteral cs).neg
  | '0' :: c :: cs =>
    if c = 'x' ∨ c = 'X' then radixLiteral 16 cs
    else if c = 'o' ∨ c = 'O' then radixLiteral 8 cs
    else if c = 'b' ∨ c = 'B' then radixLiteral 2 cs
    else unsignedLiteral ('0' :: c :: cs)
  | cs => unsignedLiteral cs

/-- `parseInt(text, 10)`. -/
def parseInt (s : String) : JsNum :=
  let (neg, cs) := match s.toList.dropWhile isSpace with
    | '-' :: cs => (true, cs)
    | '+' :: cs => (false, cs)
    | cs => (false, cs)
  match cs.takeWhile isDigit with
  | [] => .nan
  | ds => if neg then (toDouble (digitsValue ds)).neg else toDouble (digitsValue ds)

/-- The number in front of a text, in base ten or sixteen. -/
def leadingDigits (radix : ℕ) (cs : List Char) : JsNum :=
  match cs.takeWhile fun c => (radixDigit c).any (· < radix) with
  | [] => .nan
  | ds => toDouble (ds.foldl (fun n c => radix * n + (radixDigit c).getD 0) 0 : ℕ)

/-- `parseInt(text)`: digits behind `0x` are hexadecimal. -/
def parseIntAny (s : String) : JsNum :=
  let (neg, cs) := match s.toList.dropWhile isSpace with
    | '-' :: cs => (true, cs)
    | '+' :: cs => (false, cs)
    | cs => (false, cs)
  let n := match cs with
    | '0' :: 'x' :: ds => leadingDigits 16 ds
    | '0' :: 'X' :: ds => leadingDigits 16 ds
    | ds => leadingDigits 10 ds
  if neg then n.neg else n

/-- Ten to the power `n - 1` is at most `x`; the shortest `s` of at most 17 digits
for which `s * 10 ^ (n - k)` reads back as `x`, with its number of digits `k`. At
each length the two neighbours of `x` are tried, the nearer one first. -/
def shortestDigits (x : ℚ) (n : ℤ) : ℕ × ℕ :=
  let candidates := (List.range 17).flatMap fun i =>
    let k : ℕ := i + 1
    let y := x * (10 : ℚ) ^ ((k : ℤ) - n)
    let f := ⌊y⌋.toNat
    if y - f < 1 / 2 ∨ (y - f = 1 / 2 ∧ f % 2 = 0) then [(f, k), (f + 1, k)]
    else [(f + 1, k), (f, k)]
  let ok := fun (p : ℕ × ℕ) => decide (toDouble ((p.1 : ℚ) * (10 : ℚ) ^ (n - p.2)) = .fin x)
  (candidates.find? ok).getD (⌊x * (10 : ℚ) ^ (17 - n)⌋.toNat, 17)

/-- Lay out the digits `ds` with the decimal point after the first `n`. -/
def layOut (ds : List Char) (n : ℤ) : List Char :=
  let k := ds.length
  if (k : ℤ) ≤ n ∧ n ≤ 21 then ds ++ List.replicate (n.toNat - k) '0'
  else if 0 < n ∧ n ≤ 21 then ds.take n.toNat ++ '.' :: ds.drop n.toNat
  else if -6 < n ∧ n ≤ 0 then '0' :: '.' :: (List.replicate (-n).toNat '0' ++ ds)
  else
    let e := n - 1
    let mantissa := match ds with
      | [d] => [d]
      | d :: r => d :: '.' :: r
      | [] => []
    mantissa ++ 'e' :: (if e < 0 then '-' else '+') :: (Nat.toDigits 10 e.natAbs)

/-- The text of a positive finite number. -/
def positiveText (x : ℚ) : List Char :=
  if x.den = 1 ∧ x.num.natAbs ≤ 2 ^ 53 then Nat.toDigits 10 x.num.natAbs
  else
    let n := Int.log 10 x + 1
    let (s, k) := shortestDigits x n
    -- a candidate that carried to a further digit is that power of ten
    if s = 10 ^ k then layOut ['1'] (n + 1) else layOut (Nat.toDigits 10 s) n

/-- `String(number)`. -/
def JsNum.toText : JsNum → String
  | .nan => "NaN"
  | .inf neg => if neg then "-Infinity" else "Infinity"
  | .fin q =>
    if q = 0 then "0"
    else if q < 0 then String.ofList ('-' :: positiveText (-q))
    else String.ofList (positiveText q)

example : stringToNumber " 0x1F " = .fin 31 := by decide +kernel
example : parseInt "12abc" = .fin 12 := by decide +kernel
example : parseIntAny "-0x1Fg" = .fin (-31) := by decide +kernel
example : (JsNum.fin 1200).toText = "1200" := by decide +kernel

theorem digit_of_mem_toDigits {n : ℕ} {c : Char} (h : c ∈ Nat.toDigits 10 n) :
    isDigit c = true ∧ isSpace c = false ∧ c ≠ '-' ∧ c ≠ '+' := by
  have hdigit := Nat.isDigit_of_mem_toDigits (by decide) (by decide) h
  have hrange : 48 ≤ c.toNat ∧ c.toNat ≤ 57 := by
    simp only [Char.isDigit, Bool.and_eq_true, decide_eq_true_eq] at hdigit
    exact ⟨hdigit.1, hdigit.2⟩
  refine ⟨?_, ?_, ?_, ?_⟩
  · unfold isDigit
    rw [Bool.and_eq_true, decide_eq_true_eq, decide_eq_true_eq]
    exact ⟨hrange.1, hrange.2⟩
  · unfold isSpace
    simp
    omega
  · rintro rfl
    exact absurd hrange.1 (by decide)
  · rintro rfl
    exact absurd hrange.1 (by decide)

theorem digitsValue_toDigits (n : ℕ) : digitsValue (Nat.toDigits 10 n) = n :=
  Nat.ofDigitChars_ten_toDigits

theorem toDouble_natCast {n : ℕ} (hn : n ≤ 2 ^ 53) : toDouble (n : ℚ) = .ofNat n := by
  have h := toDouble_int (n := (n : ℤ)) (by omega)
  rwa [Int.cast_natCast] at h

/-- A whole number reads back from its text. -/
theorem parseInt_toString {n : ℕ} (hn : n ≤ 2 ^ 53) : parseInt (toString n) = .ofNat n := by
  have hvalue := digitsValue_toDigits n
  have hall := fun c (hc : c ∈ Nat.toDigits 10 n) => digit_of_mem_toDigits hc
  have hfinite := toDouble_natCast hn
  unfold parseInt
  rw [Nat.toString_eq_repr, Nat.toList_repr]
  cases hds : Nat.toDigits 10 n with
  | nil => exact absurd hds Nat.toDigits_ne_nil
  | cons d ds =>
    rw [hds] at hvalue hall
    obtain ⟨hdigit, hspace, hminus, hplus⟩ := hall d List.mem_cons_self
    rw [List.dropWhile_cons_of_neg (by simp [hspace])]
    have htake : (d :: ds).takeWhile isDigit = d :: ds := by
      have h : (d :: ds ++ []).takeWhile isDigit = _ :=
        List.takeWhile_append_of_pos fun c hc => (hall c hc).1
      simpa using h
    split
    rename_i neg cs hsign
    split at hsign
    · rename_i hd
      exact absurd (List.cons.inj hd).1 hminus
    · rename_i hd
      exact absurd (List.cons.inj hd).1 hplus
    · cases hsign
      rw [htake]
      simp only [Bool.false_eq_true, if_false]
      rw [hvalue, hfinite]

theorem radixDigit_of_isDigit {c : Char} (h : isDigit c = true) :
    radixDigit c = some (c.toNat - 48) ∧ c.toNat - 48 < 10 := by
  have hrange := h
  unfold isDigit at hrange
  rw [Bool.and_eq_true, decide_eq_true_eq, decide_eq_true_eq] at hrange
  have hhigh : c.toNat ≤ 57 := hrange.2
  unfold radixDigit
  rw [if_pos h]
  exact ⟨rfl, by omega⟩

theorem leadingDigits_ten {ds : List Char} (hne : ds ≠ []) (h : ∀ c ∈ ds, isDigit c = true) :
    leadingDigits 10 ds = toDouble (digitsValue ds) := by
  have htake : (ds.takeWhile fun c => (radixDigit c).any (· < 10)) = ds := by
    refine List.takeWhile_eq_self_iff.mpr ?_
    intro c hc
    obtain ⟨hdigit, hlt⟩ := radixDigit_of_isDigit (h c hc)
    rw [hdigit]
    exact decide_eq_true hlt
  have hfold : ∀ (cs : List Char) (n : ℕ), (∀ c ∈ cs, isDigit c = true) →
      cs.foldl (fun n c => 10 * n + (radixDigit c).getD 0) n =
        cs.foldl (fun n c => 10 * n + (c.toNat - 48)) n := by
    intro cs n hcs
    refine List.foldl_ext _ _ n fun k c hc => ?_
    rw [(radixDigit_of_isDigit (hcs c hc)).1]
    rfl
  unfold leadingDigits
  rw [htake]
  cases ds with
  | nil => exact absurd rfl hne
  | cons d ds =>
    dsimp only
    rw [hfold _ _ h]
    rfl

/-- Decimal digits are no hexadecimal literal. -/
theorem parseIntAny_toString {n : ℕ} (hn : n ≤ 2 ^ 53) : parseIntAny (toString n) = .ofNat n := by
  have hall := fun c (hc : c ∈ Nat.toDigits 10 n) => digit_of_mem_toDigits hc
  have hnumber : leadingDigits 10 (Nat.toDigits 10 n) = .ofNat n := by
    rw [leadingDigits_ten Nat.toDigits_ne_nil fun c hc => (hall c hc).1, digitsValue_toDigits,
      toDouble_natCast hn]
  unfold parseIntAny
  rw [Nat.toString_eq_repr, Nat.toList_repr]
  cases hds : Nat.toDigits 10 n with
  | nil => exact absurd hds Nat.toDigits_ne_nil
  | cons d ds =>
    rw [hds] at hall hnumber
    obtain ⟨-, hspace, hminus, hplus⟩ := hall d List.mem_cons_self
    rw [List.dropWhile_cons_of_neg (by simp [hspace])]
    split
    rename_i neg cs hsign
    split at hsign
    · rename_i hd
      exact absurd (List.cons.inj hd).1 hminus
    · rename_i hd
      exact absurd (List.cons.inj hd).1 hplus
    · cases hsign
      have hx : ∀ c, c = 'x' ∨ c = 'X' → c ∉ d :: ds := by
        rintro c (rfl | rfl) hc <;> exact absurd (hall _ hc).1 (by decide)
      split
      · rename_i rest hx'
        exact absurd (by rw [hx']; simp) (hx 'x' (Or.inl rfl))
      · rename_i rest hx'
        exact absurd (by rw [hx']; simp) (hx 'X' (Or.inr rfl))
      · exact hnumber

end JtfpMall.Js
