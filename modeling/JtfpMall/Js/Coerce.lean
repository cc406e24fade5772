import Mathlib.Data.List.Infix
import JtfpMall.Js.Value
import JtfpMall.Js.NumText

/-!
# Conversions and operators

The conversions the language makes on its own (to a primitive, to text, to a
number), the operators and methods built on them, and the errors they throw. An
object that came out of JSON inherits `toString` unless it has a field of that
name, which is not callable and makes every conversion of it throw.
-/

namespace JtfpMall.Js

open JtfpMall.Lib (Dict)

structure JsError where
  name : String
  message : String
deriving DecidableEq

def typeError (message : String) : JsError := ⟨"TypeError", message⟩

/-- Calling something that is not a function, with the callee as the engine prints it. -/
def notAFunction (callee : String) : JsError := typeError (callee ++ " is not a function")

namespace JsVal

mutual
/-- `String(v)`. -/
def toText : JsVal → Except JsError String
  | .undefined => .ok "undefined"
  | .null => .ok "null"
  | .bool b => .ok (if b then "true" else "false")
  | .num n => .ok n.toText
  | .str s => .ok s
  | .arr xs => do
    let parts ← elementTexts xs
    return ",".intercalate parts
  | .obj fs =>
    if "toString" ∈ fs.map Prod.fst then
      .error (typeError "Cannot convert object to primitive value")
    else .ok "[object Object]"

/-- The texts `Array.prototype.join` puts together. -/
def elementTexts : List JsVal → Except JsError (List String)
  | [] => .ok []
  | x :: xs => do
    let t ← match x with
      | .undefined => .ok ""
      | .null => .ok ""
      | v => toText v
    let ts ← elementTexts xs
    return t :: ts
end

def isObject : JsVal → Bool
  | .arr _ => true
  | .obj _ => true
  | _ => false

def toPrimitive (v : JsVal) : Except JsError JsVal :=
  if v.isObject then (toText v).map .str else .ok v

/-- `Number` of a primitive. -/
def primitiveToNumber : JsVal → JsNum
  | .undefined => .nan
  | .null => .fin 0
  | .bool b => .fin (if b then 1 else 0)
  | .num n => n
  | .str s => stringToNumber s
  | .arr _ => .nan
  | .obj _ => .nan

/-- `Number(v)`. -/
def toNumber (v : JsVal) : Except JsError JsNum := (toPrimitive v).map primitiveToNumber

/-- `a + b`. -/
def add (a b : JsVal) : Except JsError JsVal := do
  let p ← toPrimitive a
  let q ← toPrimitive b
  match p, q with
  | .str s, _ => return .str (s ++ (← toText q))
  | _, .str t => return .str ((← toText p) ++ t)
  | _, _ => return .num (p.primitiveToNumber.add q.primitiveToNumber)

/-- `a - b`. -/
def sub (a b : JsVal) : Except JsError JsNum := do
  let m ← toNumber a
  let n ← toNumber b
  return m.sub n

end JsVal

/-- The code units of a character. -/
def codeUnits (c : Char) : List ℕ :=
  let n := c.toNat
  if n < 0x10000 then [n] else [0xD800 + (n - 0x10000) / 0x400, 0xDC00 + (n - 0x10000) % 0x400]

def utf16 (s : String) : List ℕ := s.toList.flatMap codeUnits

/-- The language's order on texts: by code units. -/
def textLt (s t : String) : Bool := decide (utf16 s < utf16 t)

namespace JsVal

/-- `a < b`: `none` when a number in it is NaN. -/
def lt? (a b : JsVal) : Except JsError (Option Bool) := do
  let p ← toPrimitive a
  let q ← toPrimitive b
  match p, q with
  | .str s, .str t => return some (textLt s t)
  | _, _ => return p.primitiveToNumber.lt? q.primitiveToNumber

def lt (a b : JsVal) : Except JsError Bool := return (← lt? a b).getD false

def gt (a b : JsVal) : Except JsError Bool := lt b a

/-- `a >= b`. -/
def ge (a b : JsVal) : Except JsError Bool := return (← lt? a b) == some false

/-- `a <= b`. -/
def le (a b : JsVal) : Except JsError Bool := ge b a

/-- Reading `name` off `undefined` or `null`. -/
def noProperties (v : String) (name : String) : JsError :=
  typeError ("Cannot read properties of " ++ v ++ " (reading '" ++ name ++ "')")

/-- `v.includes(kw)`: of a text or of an array; anything else has no such method. -/
def includes (callee : String) (v kw : JsVal) : Except JsError Bool :=
  match v with
  | .str s => (toText kw).map fun k => decide (k.toList <:+: s.toList)
  | .arr xs => .ok (xs.any fun x => x.strictEq kw)
  | .undefined => .error (noProperties "undefined" "includes")
  | .null => .error (noProperties "null" "includes")
  | _ => .error (notAFunction callee)

/-- `v.toLowerCase()`, with the language's table of lower-case letters. -/
def toLowerCase (table : String → String) (callee : String) (v : JsVal) : Except JsError String :=
  match v with
  | .str s => .ok (table s)
  | .undefined => .error (noProperties "undefined" "toLowerCase")
  | .null => .error (noProperties "null" "toLowerCase")
  | _ => .error (notAFunction callee)

/-- `v.name`, for a name no built-in prototype has. -/
def prop (name : String) (v : JsVal) : Except JsError JsVal :=
  match v with
  | .obj fs => .ok (Dict.get (Dict.ofList fs) name)
  | .undefined => .error (noProperties "undefined" name)
  | .null => .error (noProperties "null" name)
  | _ => .ok .undefined

/-- `v == null`. -/
def isNullish : JsVal → Bool
  | .undefined => true
  | .null => true
  | _ => false

/-- `v?.name`. -/
def optionalProp (name : String) (v : JsVal) : Except JsError JsVal :=
  if v.isNullish then .ok .undefined else v.prop name

end JsVal

/-- The position `Array.prototype.slice` takes a number to mean. -/
def sliceIndex (n : JsNum) (len : ℕ) : ℕ :=
  match n with
  | .nan => 0
  | .inf neg => if neg then 0 else len
  | .fin q =>
    if q < 0 then ((len : ℤ) - ⌊-q⌋).toNat else min ⌊q⌋.toNat len

/-- `xs.slice(start, stop)`. -/
def slice {α : Type} (xs : List α) (start stop : JsNum) : List α :=
  let i := sliceIndex start xs.length
  let j := sliceIndex stop xs.length
  (xs.drop i).take (j - i)

theorem sliceIndex_natCast (k len : ℕ) : sliceIndex (.fin k) len = min k len := by
  unfold sliceIndex
  simp only [not_lt.mpr (Nat.cast_nonneg (α := ℚ) k), if_false, Int.floor_natCast, Int.toNat_natCast]

/-- A slice from one place to another that is not before it. -/
theorem slice_natCast {α : Type} (xs : List α) (i k : ℕ) :
    slice xs (.fin i) (.fin (i + k : ℕ)) = (xs.drop i).take k := by
  unfold slice
  rw [sliceIndex_natCast, sliceIndex_natCast]
  dsimp only
  rcases Nat.le_total i xs.length with hi | hi
  · rw [Nat.min_eq_left hi, List.take_eq_take_iff, List.length_drop]
    omega
  · rw [Nat.min_eq_right hi, List.drop_length, List.take_nil, List.drop_eq_nil_of_le hi,
      List.take_nil]

theorem slice_forall₂ {α β : Type} {R : α → β → Prop} {xs : List α} {ys : List β}
    (h : List.Forall₂ R xs ys) (start stop : JsNum) :
    List.Forall₂ R (slice xs start stop) (slice ys start stop) := by
  unfold slice
  rw [h.length_eq]
  exact List.forall₂_take _ (List.forall₂_drop _ h)

end JtfpMall.Js
