import JtfpMall.Js.Coerce

/-!
# JSON text

`JSON.stringify` without indentation and `JSON.parse`, on texts. The reader
works on the characters with a bound on its recursion that no text reaches: twice its
length. A lone surrogate escape has no character of its own and reads as the
replacement character.
-/

namespace JtfpMall.Js.Json

def hexDigit (n : ℕ) : Char := (Nat.toDigits 16 n).headD '0'

def escapeChar (c : Char) : List Char :=
  if c = '"' then ['\\', '"']
  else if c = '\\' then ['\\', '\\']
  else if c.toNat = 8 then ['\\', 'b']
  else if c.toNat = 12 then ['\\', 'f']
  else if c.toNat = 10 then ['\\', 'n']
  else if c.toNat = 13 then ['\\', 'r']
  else if c.toNat = 9 then ['\\', 't']
  else if c.toNat < 32 then ['\\', 'u', '0', '0', hexDigit (c.toNat / 16), hexDigit (c.toNat % 16)]
  else [c]

def quote (s : String) : List Char := '"' :: s.toList.flatMap escapeChar ++ ['"']

mutual
def chars : JsVal → List Char
  | .undefined => []
  | .null => "null".toList
  | .bool b => if b then "true".toList else "false".toList
  | .num n => if n.isFinite then n.toText.toList else "null".toList
  | .str s => quote s
  | .arr xs => '[' :: elements xs ++ [']']
  | .obj fs => '{' :: members fs ++ ['}']

/-- An element without a text of its own prints as null. -/
def elements : List JsVal → List Char
  | [] => []
  | x :: xs =>
    let t := if chars x = [] then "null".toList else chars x
    match xs with
    | [] => t
    | _ => t ++ ',' :: elements xs

def members : List (String × JsVal) → List Char
  | [] => []
  | (k, v) :: fs =>
    if v = .undefined then members fs
    else match members fs with
      | [] => quote k ++ ':' :: chars v
      | rest => quote k ++ ':' :: chars v ++ ',' :: rest
end

/-- `JSON.stringify(v)`: `undefined` has no text. -/
def stringify (v : JsVal) : JsVal :=
  if v = .undefined then .undefined else .str (String.ofList (chars v))

def skipSpace (cs : List Char) : List Char :=
  cs.dropWhile fun c => c = ' ' || c = '\t' || c = '\n' || c = '\r'

def hexValue : List Char → Option ℕ
  | [] => some 0
  | cs => cs.foldl (fun acc c => do return 16 * (← acc) + (← radixDigit c)) (some 0)

def simpleEscape (c : Char) : Option ℕ :=
  if c = '"' then some 34
  else if c = '\\' then some 92
  else if c = '/' then some 47
  else if c = 'b' then some 8
  else if c = 'f' then some 12
  else if c = 'n' then some 10
  else if c = 'r' then some 13
  else if c = 't' then some 9
  else none

/-- The rest of a quoted text: its code points and unpaired code units, then the
input behind the closing quote. -/
def quoted : ℕ → List Char → Option (List ℕ × List Char)
  | fuel + 1, c :: r =>
    if c = '"' then some ([], r)
    else if c = '\\' then
      match r with
      | [] => none
      | e :: r =>
        if e = 'u' then do
          let n ← if (r.take 4).length = 4 then hexValue (r.take 4) else none
          let (ns, r') ← quoted fuel (r.drop 4)
          return (n :: ns, r')
        else do
          let n ← simpleEscape e
          let (ns, r') ← quoted fuel r
          return (n :: ns, r')
    else if c.toNat < 32 then none
    else do
      let (ns, r') ← quoted fuel r
      return (c.toNat :: ns, r')
  | _, _ => none

/-- Join surrogate pairs. -/
def joinUnits : List ℕ → List Char
  | [] => []
  | [n] => [if 0xD800 ≤ n ∧ n < 0xE000 then Char.ofNat 0xFFFD else Char.ofNat n]
  | n :: m :: ns =>
    if 0xD800 ≤ n ∧ n < 0xDC00 ∧ 0xDC00 ≤ m ∧ m < 0xE000 then
      Char.ofNat (0x10000 + (n - 0xD800) * 0x400 + (m - 0xDC00)) :: joinUnits ns
    else
      (if 0xD800 ≤ n ∧ n < 0xE000 then Char.ofNat 0xFFFD else Char.ofNat n) :: joinUnits (m :: ns)

def text (fuel : ℕ) (cs : List Char) : Option (String × List Char) :=
  (quoted fuel cs).map fun p => (String.ofList (joinUnits p.1), p.2)

/-- Drop the given first character. -/
def char? (c : Char) : List Char → Option (List Char)
  | [] => none
  | d :: r => if d = c then some r else none

def fraction (cs : List Char) : Option (List Char × List Char) :=
  match char? '.' cs with
  | none => some ([], cs)
  | some r =>
    if r.takeWhile isDigit = [] then none
    else some (r.takeWhile isDigit, r.dropWhile isDigit)

def exponent (cs : List Char) : Option (ℤ × List Char) :=
  match (char? 'e' cs).or (char? 'E' cs) with
  | none => some (0, cs)
  | some r =>
    let (sign, r) : ℤ × List Char := match char? '-' r with
      | some r => (-1, r)
      | none => (1, (char? '+' r).getD r)
    if r.takeWhile isDigit = [] then none
    else some (sign * digitsValue (r.takeWhile isDigit), r.dropWhile isDigit)

def number (cs : List Char) : Option (JsNum × List Char) := do
  let neg := (char? '-' cs).isSome
  let cs := (char? '-' cs).getD cs
  let int := cs.takeWhile isDigit
  if int = [] ∨ (int.length ≠ 1 ∧ int.head? = some '0') then none
  else
    let (frac, r) ← fraction (cs.dropWhile isDigit)
    let (e, r) ← exponent r
    let n := toDouble (decimalValue int frac e)
    return (if neg then n.neg else n, r)

/-- Drop a keyword. -/
def keyword (w : String) (cs : List Char) : Option (List Char) :=
  if w.toList <+: cs then some (cs.drop w.length) else none

/-- A value that is neither an array nor an object. -/
def scalar (fuel : ℕ) (cs : List Char) : Option (JsVal × List Char) :=
  match char? '"' cs with
  | some r => (text fuel r).map fun p => (.str p.1, p.2)
  | none =>
    match keyword "null" cs with
    | some r => some (.null, r)
    | none =>
      match keyword "true" cs with
      | some r => some (.bool true, r)
      | none =>
        match keyword "false" cs with
        | some r => some (.bool false, r)
        | none => (number cs).map fun p => (.num p.1, p.2)

mutual
def value : ℕ → List Char → Option (JsVal × List Char)
  | 0, _ => none
  | fuel + 1, cs =>
    let cs := skipSpace cs
    match char? '[' cs with
    | some r =>
      match char? ']' (skipSpace r) with
      | some r => some (.arr [], r)
      | none => (items fuel r).map fun p => (.arr p.1, p.2)
    | none =>
      match char? '{' cs with
      | some r =>
        match char? '}' (skipSpace r) with
        | some r => some (.obj [], r)
        -- a later member of the same name replaces the earlier one
        | none => (fields fuel r).map fun p => (.obj (Lib.Dict.ofList p.1).entries, p.2)
      | none => scalar fuel cs

def items : ℕ → List Char → Option (List JsVal × List Char)
  | 0, _ => none
  | fuel + 1, cs => do
    let (v, r) ← value fuel cs
    let r := skipSpace r
    match char? ',' r with
    | some r =>
      let (vs, r) ← items fuel r
      return (v :: vs, r)
    | none => return ([v], ← char? ']' r)

def fields : ℕ → List Char → Option (List (String × JsVal) × List Char)
  | 0, _ => none
  | fuel + 1, cs => do
    let r ← char? '"' (skipSpace cs)
    let (k, r) ← text fuel r
    let r ← char? ':' (skipSpace r)
    let (v, r) ← value fuel r
    let r := skipSpace r
    match char? ',' r with
    | some r =>
      let (fs, r) ← fields fuel r
      return ((k, v) :: fs, r)
    | none => return ([(k, v)], ← char? '}' r)
end

/-- `JSON.parse(text)`. -/
def parse (s : String) : Except JsError JsVal :=
  match value (2 * s.length + 2) s.toList with
  | some (v, r) =>
    if skipSpace r = [] then .ok v
    else .error ⟨"SyntaxError", "Unexpected non-whitespace character after JSON"⟩
  | none => .error ⟨"SyntaxError", "Unexpected token in JSON"⟩

example : parse "\x7b\"a\": [1, true, null]\x7d" =
    .ok (.obj [("a", .arr [.num (.fin 1), .bool true, .null])]) := by decide +kernel

end JtfpMall.Js.Json
