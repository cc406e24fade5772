import JtfpMall.Js.Coerce
import JtfpMall.Js.Utf8

/-!
# Percent-encoded texts

`decodeURIComponent`: every escape is a byte, and the bytes between two plain characters are
UTF-8. What is neither makes it throw. `encodeURIComponent` writes the bytes of every character
that is not plain, and what it writes is read back.
-/

namespace JtfpMall.Js

def hexDigit (c : Char) : Option ℕ :=
  if '0' ≤ c ∧ c ≤ '9' then some (c.toNat - '0'.toNat)
  else if 'a' ≤ c ∧ c ≤ 'f' then some (c.toNat - 'a'.toNat + 10)
  else if 'A' ≤ c ∧ c ≤ 'F' then some (c.toNat - 'A'.toNat + 10)
  else none

/-- The plain characters and the bytes of the escapes. -/
def unescape : List Char → Option (List (Char ⊕ ℕ))
  | [] => some []
  | '%' :: a :: b :: cs => do
    let x ← hexDigit a
    let y ← hexDigit b
    return .inr (16 * x + y) :: (← unescape cs)
  | c :: cs => if c = '%' then none else (unescape cs).map (.inl c :: ·)

/-- The six bits of a byte that continues a character. -/
def continuation (b : ℕ) : Option ℕ := if 0x80 ≤ b ∧ b < 0xC0 then some (b - 0x80) else none

/-- The character of a code point that needs as many bytes as it has. -/
def scalar (least n : ℕ) : Option Char :=
  if least ≤ n ∧ n.isValidChar then some (Char.ofNat n) else none

/-- The characters the bytes stand for. -/
def utf8 : List (Char ⊕ ℕ) → Option (List Char)
  | [] => some []
  | .inl c :: r => (utf8 r).map (c :: ·)
  | .inr b :: r =>
    if b < 0x80 then (utf8 r).map (Char.ofNat b :: ·)
    else match r with
      | .inr b1 :: r1 =>
        if 0xC0 ≤ b ∧ b < 0xE0 then do
          let x1 ← continuation b1
          let c ← scalar 0x80 ((b - 0xC0) * 0x40 + x1)
          return c :: (← utf8 r1)
        else match r1 with
          | .inr b2 :: r2 =>
            if 0xE0 ≤ b ∧ b < 0xF0 then do
              let x1 ← continuation b1
              let x2 ← continuation b2
              let c ← scalar 0x800 (((b - 0xE0) * 0x40 + x1) * 0x40 + x2)
              return c :: (← utf8 r2)
            else match r2 with
              | .inr b3 :: r3 =>
                if 0xF0 ≤ b ∧ b < 0xF8 then do
                  let x1 ← continuation b1
                  let x2 ← continuation b2
                  let x3 ← continuation b3
                  let c ← scalar 0x10000 ((((b - 0xF0) * 0x40 + x1) * 0x40 + x2) * 0x40 + x3)
                  return c :: (← utf8 r3)
                else none
              | _ => none
          | _ => none
      | _ => none

def decodeURIComponent (s : String) : Except JsError String :=
  match (unescape s.toList).bind utf8 with
  | some cs => .ok (.ofList cs)
  | none => .error ⟨"URIError", "URI malformed"⟩

example : decodeURIComponent "%E4%BD%A0/a" = .ok "你/a" := by decide +kernel

/-- A character that stands for itself. -/
def unreserved (c : Char) : Bool := c.isAlphanum || decide (c ∈ "-_.!~*'()".toList)

def hexChar (n : ℕ) : Char := if n < 10 then Char.ofNat (48 + n) else Char.ofNat (55 + n)

def escapeByte (b : UInt8) : List Char := ['%', hexChar (b.toNat / 16), hexChar (b.toNat % 16)]

def escapeChar (c : Char) : List Char :=
  if unreserved c then [c] else (Utf8.encodeChar c).flatMap escapeByte

/-- `encodeURIComponent`; a text has no lone surrogates, which would make it throw. -/
def encodeURIComponent (s : String) : String := .ofList (s.toList.flatMap escapeChar)

theorem unreserved_ne {c d : Char} (h : unreserved c = true) (hd : unreserved d = false) :
    c ≠ d := by
  rintro rfl
  rw [h] at hd
  cases hd

theorem hexDigit_hexChar {n : ℕ} (h : n < 16) : hexDigit (hexChar n) = some n := by
  have hall : ∀ m : Fin 16, hexDigit (hexChar m) = some m.val := by decide
  exact hall ⟨n, h⟩

theorem unreserved_hexChar {n : ℕ} (h : n < 16) : unreserved (hexChar n) = true := by
  have hall : ∀ m : Fin 16, unreserved (hexChar m) = true := by decide
  exact hall ⟨n, h⟩

theorem unescape_plain {c : Char} (h : c ≠ '%') (cs : List Char) :
    unescape (c :: cs) = (unescape cs).map (.inl c :: ·) := by
  rw [unescape.eq_3 _ _ fun _ _ _ hc _ => h hc, if_neg h]

theorem unescape_escapeByte (b : UInt8) (cs : List Char) :
    unescape (escapeByte b ++ cs) = (unescape cs).map (.inr b.toNat :: ·) := by
  have hlt := b.toNat_lt
  unfold escapeByte
  have hbyte : 16 * (b.toNat / 16) + b.toNat % 16 = b.toNat := Nat.div_add_mod _ 16
  simp only [List.cons_append, List.nil_append, unescape,
    hexDigit_hexChar (show b.toNat / 16 < 16 by omega),
    hexDigit_hexChar (show b.toNat % 16 < 16 by omega)]
  dsimp only [bind, Option.bind, pure]
  rw [hbyte]
  cases unescape cs <;> rfl

theorem unescape_escapeBytes (bs : List UInt8) (cs : List Char) :
    unescape (bs.flatMap escapeByte ++ cs) =
      (unescape cs).map (bs.map (fun b => .inr b.toNat) ++ ·) := by
  induction bs with
  | nil =>
    rw [List.flatMap_nil, List.nil_append]
    cases unescape cs <;> rfl
  | cons b bs ih =>
    rw [List.flatMap_cons, List.append_assoc, unescape_escapeByte, ih, Option.map_map]
    rfl

theorem continuation_of_lt {x : ℕ} (h : x < 0x40) : continuation (0x80 + x) = some x := by
  unfold continuation
  rw [if_pos (by omega), Nat.add_sub_cancel_left]

theorem scalar_of_le {c : Char} {least : ℕ} (h : least ≤ c.toNat) :
    scalar least c.toNat = some c := by
  unfold scalar
  rw [if_pos ⟨h, c.valid⟩, Char.ofNat_toNat]

/-- The bytes of a character stand for it, whatever follows. -/
theorem utf8_encodeChar (c : Char) (r : List (Char ⊕ ℕ)) :
    utf8 ((Utf8.encodeChar c).map (fun b => .inr b.toNat) ++ r) = (utf8 r).map (c :: ·) := by
  have hvalid : c.toNat < 0xD800 ∨ 0xDFFF < c.toNat ∧ c.toNat < 0x110000 := c.valid
  have hself : Char.ofNat c.toNat = c := Char.ofNat_toNat c
  have hscalar : ∀ least, least ≤ c.toNat → scalar least c.toNat = some c :=
    fun _ => scalar_of_le
  generalize hn : c.toNat = n at hvalid hself hscalar
  unfold Utf8.encodeChar
  rw [hn]
  dsimp only
  split_ifs with h1 h2 h3
  · simp only [List.map_cons, List.map_nil, List.cons_append, List.nil_append]
    rw [Utf8.toNat_ofNat (by omega), utf8.eq_def]
    dsimp only
    rw [if_pos h1, hself]
  · simp only [List.map_cons, List.map_nil, List.cons_append, List.nil_append]
    rw [Utf8.toNat_ofNat (by omega), Utf8.toNat_ofNat (by omega), utf8.eq_def]
    dsimp only
    rw [if_neg (by omega), if_pos (by omega), continuation_of_lt (by omega), Nat.add_sub_cancel_left]
    dsimp only [bind, Option.bind]
    rw [show n / 0x40 * 0x40 + n % 0x40 = n by omega, hscalar _ (by omega)]
    dsimp only
    cases utf8 r <;> rfl
  · simp only [List.map_cons, List.map_nil, List.cons_append, List.nil_append]
    rw [Utf8.toNat_ofNat (by omega), Utf8.toNat_ofNat (by omega), Utf8.toNat_ofNat (by omega),
      utf8.eq_def]
    dsimp only
    rw [if_neg (by omega), if_neg (by omega), if_pos (by omega), continuation_of_lt (by omega),
      continuation_of_lt (by omega), Nat.add_sub_cancel_left]
    dsimp only [bind, Option.bind]
    rw [show (n / 0x1000 * 0x40 + n / 0x40 % 0x40) * 0x40 + n % 0x40 = n by omega,
      hscalar _ (by omega)]
    dsimp only
    cases utf8 r <;> rfl
  · simp only [List.map_cons, List.map_nil, List.cons_append, List.nil_append]
    rw [Utf8.toNat_ofNat (by omega), Utf8.toNat_ofNat (by omega), Utf8.toNat_ofNat (by omega),
      Utf8.toNat_ofNat (by omega), utf8.eq_def]
    dsimp only
    rw [if_neg (by omega), if_neg (by omega), if_neg (by omega), if_pos (by omega), continuation_of_lt (by omega),
      continuation_of_lt (by omega), continuation_of_lt (by omega), Nat.add_sub_cancel_left]
    dsimp only [bind, Option.bind]
    rw [show ((n / 0x40000 * 0x40 + n / 0x1000 % 0x40) * 0x40 + n / 0x40 % 0x40) * 0x40 +
      n % 0x40 = n by omega, hscalar _ (by omega)]
    dsimp only
    cases utf8 r <;> rfl

theorem unescape_escapeChar (c : Char) (cs : List Char) :
    (unescape (escapeChar c ++ cs)).bind utf8 = ((unescape cs).bind utf8).map (c :: ·) := by
  unfold escapeChar
  split
  · rename_i hplain
    rw [List.singleton_append, unescape_plain (unreserved_ne hplain (by decide))]
    cases unescape cs <;> rfl
  · rw [unescape_escapeBytes]
    cases unescape cs with
    | none => rfl
    | some r => exact utf8_encodeChar c r

/-- What is encoded is read back. -/
theorem decodeURIComponent_encodeURIComponent (s : String) :
    decodeURIComponent (encodeURIComponent s) = .ok s := by
  have hchars : ∀ cs : List Char, (unescape (cs.flatMap escapeChar)).bind utf8 = some cs := by
    intro cs
    induction cs with
    | nil => rfl
    | cons c cs ih => rw [List.flatMap_cons, unescape_escapeChar, ih, Option.map_some]
  unfold decodeURIComponent encodeURIComponent
  rw [String.toList_ofList, hchars]
  dsimp only
  rw [String.ofList_toList]

/-- Nothing but plain characters and `%` is written. -/
theorem mem_encodeURIComponent {s : String} {c : Char} (h : c ∈ (encodeURIComponent s).toList) :
    unreserved c = true ∨ c = '%' := by
  unfold encodeURIComponent at h
  rw [String.toList_ofList, List.mem_flatMap] at h
  obtain ⟨d, -, hc⟩ := h
  unfold escapeChar at hc
  split at hc
  · rename_i hplain
    rw [List.mem_singleton.mp hc]
    exact Or.inl hplain
  · obtain ⟨b, -, hc⟩ := List.mem_flatMap.mp hc
    have hlt := b.toNat_lt
    unfold escapeByte at hc
    simp only [List.mem_cons, List.not_mem_nil, or_false] at hc
    rcases hc with rfl | rfl | rfl
    · exact Or.inr rfl
    · exact Or.inl (unreserved_hexChar (by omega))
    · exact Or.inl (unreserved_hexChar (by omega))

theorem encodeURIComponent_eq_nil {s : String} (h : (encodeURIComponent s).toList = []) :
    s = "" := by
  have hdecode := decodeURIComponent_encodeURIComponent s
  rw [String.toList_eq_nil_iff.mp h] at hdecode
  exact (Except.ok.inj hdecode).symm

end JtfpMall.Js
