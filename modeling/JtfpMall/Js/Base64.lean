import Mathlib.Data.List.Basic
import Mathlib.Data.List.TakeWhile

/-!
# Base64

`buffer.toString('base64')` and `Buffer.from(text, 'base64')`, which reads both alphabets and
needs no padding. The digits of a byte sequence are read back as the sequence at every length.
-/

namespace JtfpMall.Js.Base64

/-- The groups of six bits. -/
def sixBits : List UInt8 → List ℕ
  | a :: b :: c :: bytes =>
    a.toNat / 4 :: (a.toNat % 4 * 16 + b.toNat / 16) :: (b.toNat % 16 * 4 + c.toNat / 64) ::
      c.toNat % 64 :: sixBits bytes
  | [a, b] => [a.toNat / 4, a.toNat % 4 * 16 + b.toNat / 16, b.toNat % 16 * 4]
  | [a] => [a.toNat / 4, a.toNat % 4 * 16]
  | [] => []

def digit (n : ℕ) : Char :=
  if n < 26 then Char.ofNat ('A'.toNat + n)
  else if n < 52 then Char.ofNat ('a'.toNat + (n - 26))
  else if n < 62 then Char.ofNat ('0'.toNat + (n - 52))
  else if n = 62 then '+' else '/'

/-- `buffer.toString('base64')`. -/
def encode (bytes : List UInt8) : List Char :=
  (sixBits bytes).map digit ++ List.replicate ((3 - bytes.length % 3) % 3) '='

/-- What a character stands for, in either alphabet. -/
def digitValue (c : Char) : Option ℕ :=
  if 'A' ≤ c ∧ c ≤ 'Z' then some (c.toNat - 'A'.toNat)
  else if 'a' ≤ c ∧ c ≤ 'z' then some (c.toNat - 'a'.toNat + 26)
  else if '0' ≤ c ∧ c ≤ '9' then some (c.toNat - '0'.toNat + 52)
  else if c = '+' ∨ c = '-' then some 62
  else if c = '/' ∨ c = '_' then some 63
  else none

/-- The whole bytes of the groups. -/
def joined : List ℕ → List UInt8
  | a :: b :: c :: d :: ns =>
    UInt8.ofNat (a * 4 + b / 16) :: UInt8.ofNat (b % 16 * 16 + c / 4) ::
      UInt8.ofNat (c % 4 * 64 + d) :: joined ns
  | [a, b, c] => [UInt8.ofNat (a * 4 + b / 16), UInt8.ofNat (b % 16 * 16 + c / 4)]
  | [a, b] => [UInt8.ofNat (a * 4 + b / 16)]
  | _ => []

/-- `Buffer.from(text, 'base64')`: it ends at a `=` and passes over what is no digit. -/
def decode (cs : List Char) : List UInt8 :=
  joined ((cs.takeWhile fun c => decide (c ≠ '=')).filterMap digitValue)

theorem lt_of_mem_sixBits (bytes : List UInt8) : ∀ n ∈ sixBits bytes, n < 64 := by
  induction bytes using sixBits.induct with
  | case1 a b c bytes ih =>
    have ha := a.toNat_lt
    have hb := b.toNat_lt
    have hc := c.toNat_lt
    simp only [sixBits, List.forall_mem_cons]
    exact ⟨by omega, by omega, by omega, by omega, ih⟩
  | case2 a b =>
    have ha := a.toNat_lt
    have hb := b.toNat_lt
    simp only [sixBits, List.forall_mem_cons]
    exact ⟨by omega, by omega, by omega, fun _ h => nomatch h⟩
  | case3 a =>
    have ha := a.toNat_lt
    simp only [sixBits, List.forall_mem_cons]
    exact ⟨by omega, by omega, fun _ h => nomatch h⟩
  | case4 => exact fun _ h => nomatch h

theorem ofNat_of_eq {n : ℕ} {b : UInt8} (h : n = b.toNat) : UInt8.ofNat n = b := by
  rw [h, UInt8.ofNat_toNat]

/-- The groups are joined to the bytes they come from, whole or not. -/
theorem joined_sixBits (bytes : List UInt8) : joined (sixBits bytes) = bytes := by
  induction bytes using sixBits.induct with
  | case1 a b c bytes ih =>
    have ha := a.toNat_lt
    have hb := b.toNat_lt
    have hc := c.toNat_lt
    rw [sixBits, joined, ih, ofNat_of_eq (b := a) (by omega), ofNat_of_eq (b := b) (by omega),
      ofNat_of_eq (b := c) (by omega)]
  | case2 a b =>
    have ha := a.toNat_lt
    have hb := b.toNat_lt
    rw [sixBits, joined, ofNat_of_eq (b := a) (by omega), ofNat_of_eq (b := b) (by omega)]
  | case3 a =>
    have ha := a.toNat_lt
    rw [sixBits, joined, ofNat_of_eq (b := a) (by omega)]
  | case4 => rfl

/-- A digit of the standard alphabet is one of the 64 characters, none of them the padding. -/
theorem digitValue_digit : ∀ n < 64, digitValue (digit n) = some n ∧ digit n ≠ '=' := by decide

theorem filterMap_digits {ns : List ℕ} (h : ∀ n ∈ ns, n < 64) :
    (ns.map digit).filterMap digitValue = ns := by
  rw [List.filterMap_map]
  refine Eq.trans (List.filterMap_congr fun n hn => ?_) List.filterMap_some
  exact (digitValue_digit n (h n hn)).1

/-- The text without its padding is read as the bytes. -/
theorem decode_digits (bytes : List UInt8) : decode ((sixBits bytes).map digit) = bytes := by
  have hpad : ((sixBits bytes).map digit).takeWhile (fun c => decide (c ≠ '=')) =
      (sixBits bytes).map digit := by
    rw [List.takeWhile_eq_self_iff]
    intro c hc
    obtain ⟨n, hn, rfl⟩ := List.mem_map.mp hc
    exact decide_eq_true (digitValue_digit n (lt_of_mem_sixBits bytes n hn)).2
  unfold decode
  rw [hpad, filterMap_digits (lt_of_mem_sixBits bytes), joined_sixBits]

theorem filter_encode (bytes : List UInt8) :
    (encode bytes).filter (fun c => decide (c ≠ '=')) = (sixBits bytes).map digit := by
  have hdigits : ((sixBits bytes).map digit).filter (fun c => decide (c ≠ '=')) =
      (sixBits bytes).map digit := by
    rw [List.filter_eq_self]
    intro c hc
    obtain ⟨n, hn, rfl⟩ := List.mem_map.mp hc
    exact decide_eq_true (digitValue_digit n (lt_of_mem_sixBits bytes n hn)).2
  unfold encode
  rw [List.filter_append, hdigits, List.filter_replicate_of_neg (by decide), List.append_nil]

end JtfpMall.Js.Base64
