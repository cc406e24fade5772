import Mathlib.Tactic.Common

/-!
# UTF-8

The bytes of a text, and the text of bytes as `Buffer.toString('utf8')` reads it: what is no
UTF-8 becomes U+FFFD, one for every longest start of a character that is cut short. Reading the
bytes of a text gives the text.
-/

namespace JtfpMall.Js.Utf8

/-- The bytes of a code point. -/
def encodeChar (c : Char) : List UInt8 :=
  let n := c.toNat
  (if n < 0x80 then [n]
   else if n < 0x800 then [0xC0 + n / 0x40, 0x80 + n % 0x40]
   else if n < 0x10000 then [0xE0 + n / 0x1000, 0x80 + n / 0x40 % 0x40, 0x80 + n % 0x40]
   else [0xF0 + n / 0x40000, 0x80 + n / 0x1000 % 0x40, 0x80 + n / 0x40 % 0x40,
    0x80 + n % 0x40]).map UInt8.ofNat

/-- `Buffer.from(s)`. -/
def encode (s : String) : List UInt8 := s.toList.flatMap encodeChar

/-- A character of which some bytes are read: how many are missing, where the next one may lie,
and the bits so far. -/
structure Pending where
  needed : ℕ
  low : ℕ
  high : ℕ
  point : ℕ

def replacement : Char := Char.ofNat 0xFFFD

/-- A byte where a character may begin. -/
def firstByte (b : ℕ) : List Char × Option Pending :=
  if b < 0x80 then ([Char.ofNat b], none)
  else if 0xC2 ≤ b ∧ b < 0xE0 then ([], some ⟨1, 0x80, 0xBF, b - 0xC0⟩)
  else if 0xE0 ≤ b ∧ b < 0xF0 then
    -- neither a longer form than needed nor a surrogate
    ([], some ⟨2, if b = 0xE0 then 0xA0 else 0x80, if b = 0xED then 0x9F else 0xBF, b - 0xE0⟩)
  else if 0xF0 ≤ b ∧ b < 0xF5 then
    ([], some ⟨3, if b = 0xF0 then 0x90 else 0x80, if b = 0xF4 then 0x8F else 0xBF, b - 0xF0⟩)
  else ([replacement], none)

/-- A byte that does not continue the character begins another. -/
def nextByte : Option Pending → ℕ → List Char × Option Pending
  | none, b => firstByte b
  | some p, b =>
    if p.low ≤ b ∧ b ≤ p.high then
      let point := p.point * 0x40 + (b - 0x80)
      if p.needed = 1 then ([Char.ofNat point], none)
      else ([], some ⟨p.needed - 1, 0x80, 0xBF, point⟩)
    else (replacement :: (firstByte b).1, (firstByte b).2)

def decodeFrom : Option Pending → List UInt8 → List Char
  | none, [] => []
  | some _, [] => [replacement]
  | pending, b :: bs =>
    (nextByte pending b.toNat).1 ++ decodeFrom (nextByte pending b.toNat).2 bs

/-- `buffer.toString('utf8')`. -/
def decode (bytes : List UInt8) : String := String.ofList (decodeFrom none bytes)

theorem decodeFrom_cons (pending : Option Pending) (b : UInt8) (bs : List UInt8) :
    decodeFrom pending (b :: bs) =
      (nextByte pending b.toNat).1 ++ decodeFrom (nextByte pending b.toNat).2 bs := by
  cases pending <;> rfl

theorem nextByte_more {needed low high point b : ℕ} (hn : needed ≠ 1) (hlow : low ≤ b)
    (hhigh : b ≤ high) : nextByte (some ⟨needed, low, high, point⟩) b =
      ([], some ⟨needed - 1, 0x80, 0xBF, point * 0x40 + (b - 0x80)⟩) := by
  simp [nextByte, hn, hlow, hhigh]

theorem nextByte_last {low high point b : ℕ} (hlow : low ≤ b) (hhigh : b ≤ high) :
    nextByte (some ⟨1, low, high, point⟩) b =
      ([Char.ofNat (point * 0x40 + (b - 0x80))], none) := by
  simp [nextByte, hlow, hhigh]

theorem toNat_ofNat {n : ℕ} (h : n < 256) : (UInt8.ofNat n).toNat = n := by
  rw [UInt8.toNat_ofNat']
  exact Nat.mod_eq_of_lt h

/-- The bytes of a character are read as the character, whatever follows. -/
theorem decodeFrom_encodeChar (c : Char) (bs : List UInt8) :
    decodeFrom none (encodeChar c ++ bs) = c :: decodeFrom none bs := by
  have hvalid : c.toNat < 0xD800 ∨ 0xDFFF < c.toNat ∧ c.toNat < 0x110000 := c.valid
  have hself : Char.ofNat c.toNat = c := Char.ofNat_toNat c
  generalize hn : c.toNat = n at hvalid hself
  unfold encodeChar
  rw [hn]
  dsimp only
  split_ifs with h1 h2 h3
  · rw [List.map_singleton, List.singleton_append, decodeFrom_cons, toNat_ofNat (by omega)]
    simp only [nextByte, firstByte, if_pos h1, hself]
    rfl
  · simp only [List.map_cons, List.map_nil, List.cons_append, List.nil_append]
    rw [decodeFrom_cons, toNat_ofNat (by omega)]
    have hfirst : nextByte none (0xC0 + n / 0x40) = ([], some ⟨1, 0x80, 0xBF, n / 0x40⟩) := by
      change firstByte _ = _
      unfold firstByte
      rw [if_neg (by omega), if_pos (by omega), Nat.add_sub_cancel_left]
    rw [hfirst, decodeFrom_cons, toNat_ofNat (by omega), nextByte_last (by omega) (by omega),
      Nat.add_sub_cancel_left, show n / 0x40 * 0x40 + n % 0x40 = n by omega, hself]
    rfl
  · simp only [List.map_cons, List.map_nil, List.cons_append, List.nil_append]
    rw [decodeFrom_cons, toNat_ofNat (by omega)]
    have hfirst : nextByte none (0xE0 + n / 0x1000) =
        ([], some ⟨2, if n / 0x1000 = 0 then 0xA0 else 0x80,
          if n / 0x1000 = 0xD then 0x9F else 0xBF, n / 0x1000⟩) := by
      change firstByte _ = _
      unfold firstByte
      rw [if_neg (by omega), if_neg (by omega), if_pos (by omega), Nat.add_sub_cancel_left]
      simp [show (0xE0 + n / 0x1000 = 0xED) = (n / 0x1000 = 0xD) by rw [eq_iff_iff]; omega]
    have hlow : (if n / 0x1000 = 0 then 0xA0 else 0x80) ≤ 0x80 + n / 0x40 % 0x40 := by
      split <;> omega
    have hhigh : 0x80 + n / 0x40 % 0x40 ≤ if n / 0x1000 = 0xD then 0x9F else 0xBF := by
      split <;> omega
    rw [hfirst, decodeFrom_cons, toNat_ofNat (by omega), nextByte_more (by decide) hlow hhigh,
      decodeFrom_cons,
      toNat_ofNat (by omega), nextByte_last (by omega) (by omega), Nat.add_sub_cancel_left,
      Nat.add_sub_cancel_left,
      show (n / 0x1000 * 0x40 + n / 0x40 % 0x40) * 0x40 + n % 0x40 = n by omega, hself]
    rfl
  · simp only [List.map_cons, List.map_nil, List.cons_append, List.nil_append]
    rw [decodeFrom_cons, toNat_ofNat (by omega)]
    have hfirst : nextByte none (0xF0 + n / 0x40000) =
        ([], some ⟨3, if n / 0x40000 = 0 then 0x90 else 0x80,
          if n / 0x40000 = 4 then 0x8F else 0xBF, n / 0x40000⟩) := by
      change firstByte _ = _
      unfold firstByte
      rw [if_neg (by omega), if_neg (by omega), if_neg (by omega), if_pos (by omega),
        Nat.add_sub_cancel_left]
      simp [show (0xF0 + n / 0x40000 = 0xF4) = (n / 0x40000 = 4) by rw [eq_iff_iff]; omega]
    have hlow : (if n / 0x40000 = 0 then 0x90 else 0x80) ≤ 0x80 + n / 0x1000 % 0x40 := by
      split <;> omega
    have hhigh : 0x80 + n / 0x1000 % 0x40 ≤ if n / 0x40000 = 4 then 0x8F else 0xBF := by
      split <;> omega
    rw [hfirst, decodeFrom_cons, toNat_ofNat (by omega), nextByte_more (by decide) hlow hhigh,
      decodeFrom_cons,
      toNat_ofNat (by omega), nextByte_more (by decide) (by omega) (by omega), decodeFrom_cons,
      toNat_ofNat (by omega), nextByte_last (by omega) (by omega), Nat.add_sub_cancel_left,
      Nat.add_sub_cancel_left, Nat.add_sub_cancel_left,
      show ((n / 0x40000 * 0x40 + n / 0x1000 % 0x40) * 0x40 + n / 0x40 % 0x40) * 0x40 +
        n % 0x40 = n by omega, hself]
    rfl

/-- Every text is read back from its bytes. -/
theorem decode_encode (s : String) : decode (encode s) = s := by
  have hchars : ∀ cs : List Char, decodeFrom none (cs.flatMap encodeChar) = cs := by
    intro cs
    induction cs with
    | nil => rfl
    | cons c cs ih => rw [List.flatMap_cons, decodeFrom_encodeChar, ih]
  unfold decode encode
  rw [hchars, String.ofList_toList]

end JtfpMall.Js.Utf8
