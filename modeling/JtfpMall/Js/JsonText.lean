import JtfpMall.Js.NumberText

/-!
# JSON text reads back

What `stringify` writes of a JSON value, `parse` reads as the same value: numbers by their
shortest digits, texts with every escape, arrays and objects to any depth.
-/

namespace JtfpMall.Js

open JtfpMall.Lib (Dict)

namespace JsVal

mutual
/-- A value that JSON text can have: numbers are finite binary64 values, and no object has a key
twice. -/
def IsJson : JsVal → Prop
  | .undefined => False
  | .null => True
  | .bool _ => True
  | .num n => n.isFinite = true ∧ n.IsDouble
  | .str _ => True
  | .arr xs => AllJson xs
  | .obj fs => (fs.map Prod.fst).Nodup ∧ FieldsJson fs

def AllJson : List JsVal → Prop
  | [] => True
  | x :: xs => IsJson x ∧ AllJson xs

def FieldsJson : List (String × JsVal) → Prop
  | [] => True
  | (_, v) :: fs => IsJson v ∧ FieldsJson fs
end

theorem IsJson.ne_undefined {v : JsVal} (h : v.IsJson) : v ≠ .undefined := by
  rintro rfl
  exact h

theorem allJson_strings (ss : List String) : AllJson (ss.map .str) := by
  induction ss with
  | nil => trivial
  | cons s ss ih => exact ⟨trivial, ih⟩

mutual
theorem IsJson.isPlain : ∀ v : JsVal, v.IsJson → v.isPlain = true
  | .undefined, h => h.elim
  | .null, _ => rfl
  | .bool _, _ => rfl
  | .num _, h => h.1
  | .str _, _ => rfl
  | .arr xs, h => AllJson.isPlain xs h
  | .obj fs, h => FieldsJson.isPlain fs h.2

theorem AllJson.isPlain : ∀ xs : List JsVal, AllJson xs → isPlainList xs = true
  | [], _ => rfl
  | x :: xs, h => by rw [isPlainList, IsJson.isPlain x h.1, AllJson.isPlain xs h.2]; rfl

theorem FieldsJson.isPlain : ∀ fs : List (String × JsVal), FieldsJson fs → isPlainFields fs = true
  | [], _ => rfl
  | (_, v) :: fs, h => by rw [isPlainFields, IsJson.isPlain v h.1, FieldsJson.isPlain fs h.2]; rfl
end

theorem AllJson.mem {xs : List JsVal} (h : AllJson xs) {x : JsVal} (hx : x ∈ xs) : x.IsJson := by
  induction xs with
  | nil => cases hx
  | cons y ys ih =>
    rcases List.mem_cons.mp hx with rfl | hx
    · exact h.1
    · exact ih h.2 hx

theorem FieldsJson.mem {fs : List (String × JsVal)} (h : FieldsJson fs) {k : String} {v : JsVal}
    (hv : (k, v) ∈ fs) : v.IsJson := by
  induction fs with
  | nil => cases hv
  | cons f fs ih =>
    rcases List.mem_cons.mp hv with rfl | hv
    · exact h.1
    · exact ih h.2 hv

/-- What a JSON value has under a name is JSON. -/
theorem IsJson.prop {v w : JsVal} (hv : v.IsJson) {name : String} (h : v.prop name = .ok w) :
    w = .undefined ∨ w.IsJson := by
  cases v with
  | undefined => exact hv.elim
  | null => cases h
  | bool b | num n | str s | arr xs => exact Or.inl (Except.ok.inj h).symm
  | obj fs =>
    have hw : Dict.get (Dict.ofList fs) name = w := Except.ok.inj h
    by_cases hname : name ∈ fs.map Prod.fst
    · obtain ⟨⟨_, x⟩, hx, rfl⟩ := List.mem_map.mp hname
      rw [Dict.get_ofList_of_mem hv.1 hx] at hw
      exact Or.inr (hw ▸ hv.2.mem hx)
    · rw [Dict.get_ofList_of_not_mem hname] at hw
      exact Or.inl hw.symm

theorem IsJson.viaJson_eq {v : JsVal} (h : v.IsJson) : v.viaJson = v :=
  viaJson_of_isPlain v (IsJson.isPlain v h)

end JsVal

namespace Json

theorem hexValue_hexDigit : ∀ m < 16, ∀ n < 16,
    hexValue ['0', '0', hexDigit m, hexDigit n] = some (16 * m + n) := by decide

/-- One character of a quoted text, escaped or not. -/
theorem quoted_escapeChar (c : Char) (rest : List Char) (fuel : ℕ) :
    quoted (fuel + 1) (escapeChar c ++ rest) =
      (quoted fuel rest).map fun p => (c.toNat :: p.1, p.2) := by
  have hsimple : ∀ (e : Char) (n : ℕ), e ≠ 'u' → simpleEscape e = some n →
      quoted (fuel + 1) ('\\' :: e :: rest) = (quoted fuel rest).map fun p => (n :: p.1, p.2) := by
    intro e n hu he
    rw [quoted, if_neg (by decide), if_pos rfl]
    dsimp only
    rw [if_neg hu, he]
    cases quoted fuel rest <;> rfl
  unfold escapeChar
  by_cases hquote : c = '"'
  · rw [if_pos hquote, hquote]
    exact hsimple '"' 34 (by decide) rfl
  rw [if_neg hquote]
  by_cases hslash : c = '\\'
  · rw [if_pos hslash, hslash]
    exact hsimple '\\' 92 (by decide) rfl
  rw [if_neg hslash]
  by_cases h8 : c.toNat = 8
  · rw [if_pos h8, h8]
    exact hsimple 'b' 8 (by decide) rfl
  rw [if_neg h8]
  by_cases h12 : c.toNat = 12
  · rw [if_pos h12, h12]
    exact hsimple 'f' 12 (by decide) rfl
  rw [if_neg h12]
  by_cases h10 : c.toNat = 10
  · rw [if_pos h10, h10]
    exact hsimple 'n' 10 (by decide) rfl
  rw [if_neg h10]
  by_cases h13 : c.toNat = 13
  · rw [if_pos h13, h13]
    exact hsimple 'r' 13 (by decide) rfl
  rw [if_neg h13]
  by_cases h9 : c.toNat = 9
  · rw [if_pos h9, h9]
    exact hsimple 't' 9 (by decide) rfl
  rw [if_neg h9]
  by_cases hcontrol : c.toNat < 32
  · -- the other control characters are four hexadecimal digits
    have hhex := hexValue_hexDigit (c.toNat / 16) (by omega) (c.toNat % 16) (by omega)
    rw [if_pos hcontrol]
    simp only [List.cons_append, List.nil_append]
    generalize hexDigit (c.toNat / 16) = a at hhex ⊢
    generalize hexDigit (c.toNat % 16) = b at hhex ⊢
    have htake : ('0' :: '0' :: a :: b :: rest).take 4 = ['0', '0', a, b] := rfl
    have hdrop : ('0' :: '0' :: a :: b :: rest).drop 4 = rest := rfl
    rw [quoted, if_neg (by decide), if_pos rfl]
    dsimp only
    rw [if_pos rfl, htake, hdrop, if_pos (by rfl), hhex,
      show 16 * (c.toNat / 16) + c.toNat % 16 = c.toNat by omega]
    cases quoted fuel rest <;> rfl
  · rw [if_neg hcontrol, List.singleton_append]
    change (if c = '"' then _ else if c = '\\' then _ else if c.toNat < 32 then none else _) = _
    rw [if_neg hquote, if_neg hslash, if_neg hcontrol]
    cases quoted fuel rest <;> rfl

theorem quoted_escaped (cs : List Char) (r : List Char) {fuel : ℕ} (hfuel : cs.length < fuel) :
    quoted fuel (cs.flatMap escapeChar ++ '"' :: r) = some (cs.map Char.toNat, r) := by
  induction cs generalizing fuel with
  | nil =>
    obtain ⟨m, rfl⟩ : ∃ m, fuel = m + 1 := ⟨fuel - 1, by omega⟩
    rfl
  | cons c cs ih =>
    rw [List.length_cons] at hfuel
    obtain ⟨m, rfl⟩ : ∃ m, fuel = m + 1 := ⟨fuel - 1, by omega⟩
    rw [List.flatMap_cons, List.append_assoc, quoted_escapeChar, ih (by omega)]
    rfl

/-- No character is a surrogate. -/
theorem not_surrogate (c : Char) : ¬(0xD800 ≤ c.toNat ∧ c.toNat < 0xE000) := by
  have := c.valid
  simp only [UInt32.isValidChar, Nat.isValidChar] at this
  change c.toNat < 0xD800 ∨ 0xDFFF < c.toNat ∧ c.toNat < 0x110000 at this
  omega

theorem joinUnits_toNat (cs : List Char) : joinUnits (cs.map Char.toNat) = cs := by
  induction cs with
  | nil => rfl
  | cons c cs ih =>
    have hself : (if 0xD800 ≤ c.toNat ∧ c.toNat < 0xE000 then Char.ofNat 0xFFFD
        else Char.ofNat c.toNat) = c := by
      rw [if_neg (not_surrogate c), Char.ofNat_toNat]
    cases cs with
    | nil =>
      rw [List.map_cons, List.map_nil, joinUnits, hself]
    | cons d cs =>
      have hnot : ¬(0xD800 ≤ c.toNat ∧ c.toNat < 0xDC00 ∧ 0xDC00 ≤ d.toNat ∧ d.toNat < 0xE000) :=
        fun h => not_surrogate c ⟨h.1, by omega⟩
      rw [List.map_cons, List.map_cons, joinUnits, if_neg hnot, hself]
      rw [List.map_cons] at ih
      rw [ih]

/-- A text reads back behind its opening quote. -/
theorem text_quote (s : String) (r : List Char) {fuel : ℕ} (hfuel : s.toList.length < fuel) :
    text fuel (s.toList.flatMap escapeChar ++ '"' :: r) = some (s, r) := by
  unfold text
  rw [quoted_escaped _ _ hfuel, Option.map_some, joinUnits_toNat, String.ofList_toList]

theorem length_quote (s : String) : s.toList.length + 2 ≤ (quote s).length := by
  have hone : ∀ c : Char, 1 ≤ (escapeChar c).length := by
    intro c
    unfold escapeChar
    split_ifs <;> simp
  have hall : ∀ cs : List Char, cs.length ≤ (cs.flatMap escapeChar).length := by
    intro cs
    induction cs with
    | nil => exact le_refl 0
    | cons c cs ih =>
      rw [List.flatMap_cons, List.length_append, List.length_cons]
      have := hone c
      omega
  unfold quote
  rw [List.length_append, List.length_cons, List.length_singleton]
  have := hall s.toList
  omega

/-- The first character of a value: no white space, and nothing that ends an array or an object. -/
def Opening (c : Char) : Prop :=
  c ≠ ' ' ∧ c ≠ '\t' ∧ c ≠ '\n' ∧ c ≠ '\r' ∧ c ≠ ']' ∧ c ≠ '}'

instance (c : Char) : Decidable (Opening c) := inferInstanceAs (Decidable (_ ∧ _))

theorem opening_digit {c : Char} (h : isDigit c = true) : Opening c := by
  refine ⟨?_, ?_, ?_, ?_, ?_, ?_⟩ <;>
    · rintro rfl
      exact absurd h (by decide)

theorem skipSpace_opening {c : Char} (h : Opening c) (r : List Char) :
    skipSpace (c :: r) = c :: r := by
  refine List.dropWhile_cons_of_neg ?_
  simp [h.1, h.2.1, h.2.2.1, h.2.2.2.1]

theorem head_toText {q : ℚ} : ∃ c cs, (JsNum.fin q).toText.toList = c :: cs ∧
    (isDigit c = true ∨ c = '-') := by
  unfold JsNum.toText
  dsimp only
  split
  · exact ⟨'0', [], rfl, Or.inl (by decide)⟩
  · split
    · exact ⟨'-', positiveText (-q), by rw [String.toList_ofList], Or.inr rfl⟩
    · obtain ⟨c, cs, hhead, hc⟩ := head_positiveText q
      exact ⟨c, cs, by rw [String.toList_ofList, hhead], Or.inl hc⟩

theorem chars_num {q : ℚ} : chars (.num (.fin q)) = (JsNum.fin q).toText.toList := rfl

theorem exists_opening : ∀ v : JsVal, v.IsJson → ∃ c cs, chars v = c :: cs ∧ Opening c
  | .undefined, h => absurd h id
  | .null, _ => ⟨'n', _, rfl, by decide⟩
  | .bool true, _ => ⟨'t', _, rfl, by decide⟩
  | .bool false, _ => ⟨'f', _, rfl, by decide⟩
  | .num (.fin q), _ => by
    obtain ⟨c, cs, hhead, hc⟩ := head_toText (q := q)
    refine ⟨c, cs, hhead, ?_⟩
    rcases hc with hc | rfl
    · exact opening_digit hc
    · decide
  | .num .nan, h => absurd h.1 (by decide)
  | .num (.inf _), h => absurd h.1 (by simp [JsNum.isFinite])
  | .str s, _ => ⟨'"', _, rfl, by decide⟩
  | .arr xs, _ => ⟨'[', _, rfl, by decide⟩
  | .obj fs, _ => ⟨'{', _, rfl, by decide⟩

theorem chars_ne_nil {v : JsVal} (h : v.IsJson) : chars v ≠ [] := by
  obtain ⟨c, cs, hhead, _⟩ := exists_opening v h
  rw [hhead]
  exact List.cons_ne_nil _ _

theorem elements_one {x : JsVal} (h : x.IsJson) : elements [x] = chars x := by
  rw [elements, if_neg (chars_ne_nil h)]

theorem elements_more {x y : JsVal} {ys : List JsVal} (h : x.IsJson) :
    elements (x :: y :: ys) = chars x ++ ',' :: elements (y :: ys) := by
  rw [elements, if_neg (chars_ne_nil h)]
  exact List.cons_ne_nil y ys

theorem members_one {k : String} {v : JsVal} (h : v.IsJson) :
    members [(k, v)] = quote k ++ ':' :: chars v := by
  rw [members, if_neg h.ne_undefined]
  rfl

theorem exists_members (k : String) {v : JsVal} (h : v.IsJson) (fs : List (String × JsVal)) :
    ∃ cs, members ((k, v) :: fs) = '"' :: cs := by
  rw [members, if_neg h.ne_undefined]
  cases members fs with
  | nil => exact ⟨_, rfl⟩
  | cons c cs => exact ⟨_, rfl⟩

theorem members_more {k : String} {v : JsVal} (h : v.IsJson) {k' : String} {w : JsVal}
    (hw : w.IsJson) (fs : List (String × JsVal)) :
    members ((k, v) :: (k', w) :: fs) = quote k ++ ':' :: (chars v ++ ',' :: members ((k', w) :: fs)) := by
  obtain ⟨cs, hrest⟩ := exists_members k' hw fs
  rw [members, if_neg h.ne_undefined, hrest]
  simp

/-- A value that is neither an array nor an object is read as such. -/
theorem value_scalar {c : Char} (h : Opening c) (harr : c ≠ '[') (hobj : c ≠ '{')
    (r : List Char) (fuel : ℕ) : value (fuel + 1) (c :: r) = scalar fuel (c :: r) := by
  rw [value, skipSpace_opening h, char?_of_ne harr]
  dsimp only
  rw [char?_of_ne hobj]

theorem keyword_of_ne {w : String} {c d : Char} {cs : List Char} (hw : w.toList = d :: cs)
    (h : c ≠ d) (r : List Char) : keyword w (c :: r) = none := by
  unfold keyword
  rw [if_neg]
  rw [hw, List.cons_prefix_cons]
  exact fun hp => h hp.1.symm

theorem scalar_number {q : ℚ} (h : toDouble q = .fin q) {r : List Char} (hr : Stops r) (fuel : ℕ) :
    scalar fuel ((JsNum.fin q).toText.toList ++ r) = some (.num (.fin q), r) := by
  have hread := number_toText h hr
  obtain ⟨c, cs, hhead, hc⟩ := head_toText (q := q)
  have hnot : ∀ d : Char, isDigit d = false → d ≠ '-' → c ≠ d := by
    rintro d hd hminus rfl
    exact hc.elim (fun hdigit => by rw [hd] at hdigit; cases hdigit) hminus
  rw [hhead] at hread ⊢
  rw [List.cons_append] at hread ⊢
  unfold scalar
  rw [char?_of_ne (hnot '"' (by decide) (by decide)),
    keyword_of_ne (w := "null") rfl (hnot 'n' (by decide) (by decide)),
    keyword_of_ne (w := "true") rfl (hnot 't' (by decide) (by decide)),
    keyword_of_ne (w := "false") rfl (hnot 'f' (by decide) (by decide)), hread]
  rfl

theorem scalar_quote (s : String) (r : List Char) {fuel : ℕ} (hfuel : s.toList.length < fuel) :
    scalar fuel (quote s ++ r) = some (.str s, r) := by
  have hread := text_quote s r hfuel
  unfold scalar quote
  rw [List.append_assoc, List.cons_append, char?_self]
  dsimp only [List.singleton_append]
  rw [hread]
  rfl

theorem stops_comma (r : List Char) : Stops (',' :: r) := stops_cons (by decide)

theorem stops_bracket (r : List Char) : Stops (']' :: r) := stops_cons (by decide)

theorem stops_brace (r : List Char) : Stops ('}' :: r) := stops_cons (by decide)

theorem skipSpace_comma (r : List Char) : skipSpace (',' :: r) = ',' :: r := rfl

theorem skipSpace_colon (r : List Char) : skipSpace (':' :: r) = ':' :: r := rfl

theorem skipSpace_bracket (r : List Char) : skipSpace (']' :: r) = ']' :: r := rfl

theorem skipSpace_brace (r : List Char) : skipSpace ('}' :: r) = '}' :: r := rfl

/-- A key begins with a quote. -/
theorem char?_quote (k : String) (r : List Char) :
    char? '"' (skipSpace (quote k ++ r)) = some (k.toList.flatMap escapeChar ++ '"' :: r) := by
  unfold quote
  rw [List.append_assoc, List.cons_append, skipSpace_opening (by decide), char?_self]
  rfl

theorem exists_fuel {n fuel : ℕ} (h : n + 1 ≤ fuel) : ∃ m, fuel = m + 1 ∧ n ≤ m :=
  ⟨fuel - 1, by omega, by omega⟩

theorem length_chars_pos {v : JsVal} (h : v.IsJson) : 1 ≤ (chars v).length :=
  List.length_pos_iff.mpr (chars_ne_nil h)

/-- The text of a value is not the end of an array. -/
theorem char?_chars {v : JsVal} (h : v.IsJson) (r : List Char) :
    char? ']' (skipSpace (chars v ++ r)) = none := by
  obtain ⟨c, cs, hhead, hc⟩ := exists_opening v h
  rw [hhead, List.cons_append, skipSpace_opening hc, char?_of_ne hc.2.2.2.2.1]

mutual
/-- A JSON value reads back from its text, with fuel for twice its length. -/
theorem value_chars : ∀ v : JsVal, v.IsJson → ∀ (fuel : ℕ) (r : List Char),
    2 * (chars v).length ≤ fuel → Stops r → value fuel (chars v ++ r) = some (v, r)
  | .undefined, h, _, _, _, _ => absurd h id
  | .null, h, fuel, r, hfuel, _ => by
    have hlen := length_chars_pos h
    obtain ⟨m, rfl, _⟩ := @exists_fuel 0 fuel (by omega)
    exact value_scalar (c := 'n') (by decide) (by decide) (by decide) _ m
  | .bool true, h, fuel, r, hfuel, _ => by
    have hlen := length_chars_pos h
    obtain ⟨m, rfl, _⟩ := @exists_fuel 0 fuel (by omega)
    exact value_scalar (c := 't') (by decide) (by decide) (by decide) _ m
  | .bool false, h, fuel, r, hfuel, _ => by
    have hlen := length_chars_pos h
    obtain ⟨m, rfl, _⟩ := @exists_fuel 0 fuel (by omega)
    exact value_scalar (c := 'f') (by decide) (by decide) (by decide) _ m
  | .num (.fin q), h, fuel, r, hfuel, hr => by
    have hlen := length_chars_pos h
    obtain ⟨m, rfl, _⟩ := @exists_fuel 0 fuel (by omega)
    have hread := scalar_number h.2 hr m
    obtain ⟨c, cs, hhead, hc⟩ := head_toText (q := q)
    rw [chars_num]
    rw [hhead, List.cons_append] at hread ⊢
    have hopen : Opening c ∧ c ≠ '[' ∧ c ≠ '{' := by
      rcases hc with hc | rfl
      · refine ⟨opening_digit hc, ?_, ?_⟩ <;>
          · rintro rfl
            exact absurd hc (by decide)
      · decide
    rw [value_scalar hopen.1 hopen.2.1 hopen.2.2, hread]
  | .num .nan, h, _, _, _, _ => absurd h.1 (by decide)
  | .num (.inf _), h, _, _, _, _ => absurd h.1 (by simp [JsNum.isFinite])
  | .str s, h, fuel, r, hfuel, _ => by
    have hlen := length_quote s
    have hchars : (chars (.str s)).length = (quote s).length := rfl
    obtain ⟨m, rfl, _⟩ := @exists_fuel 0 fuel (by omega)
    have hscalar : value (m + 1) (chars (.str s) ++ r) = scalar m (quote s ++ r) :=
      value_scalar (c := '"') (by decide) (by decide) (by decide) _ m
    rw [hscalar, scalar_quote s r (by omega)]
  | .arr [], h, fuel, r, hfuel, _ => by
    have hlen := length_chars_pos h
    obtain ⟨m, rfl, _⟩ := @exists_fuel 0 fuel (by omega)
    rfl
  | .arr (x :: xs), h, fuel, r, hfuel, _ => by
    have hchars : chars (.arr (x :: xs)) = '[' :: elements (x :: xs) ++ [']'] := rfl
    rw [hchars, List.length_append, List.length_cons, List.length_singleton] at hfuel
    obtain ⟨m, rfl, hm⟩ := @exists_fuel (2 * (elements (x :: xs)).length + 1) fuel (by omega)
    have hitems := items_elements (x :: xs) (List.cons_ne_nil _ _) h m r hm
    have hfirst : char? ']' (skipSpace (elements (x :: xs) ++ ']' :: r)) = none := by
      cases xs with
      | nil =>
        rw [elements_one h.1]
        exact char?_chars h.1 _
      | cons y ys =>
        rw [elements_more h.1, List.append_assoc]
        exact char?_chars h.1 _
    rw [hchars, List.append_assoc, List.cons_append, List.singleton_append, value,
      skipSpace_opening (c := '[') (by decide), char?_self]
    dsimp only
    rw [hfirst]
    dsimp only
    rw [hitems]
    rfl
  | .obj [], h, fuel, r, hfuel, _ => by
    have hlen := length_chars_pos h
    obtain ⟨m, rfl, _⟩ := @exists_fuel 0 fuel (by omega)
    rfl
  | .obj ((k, v) :: fs), h, fuel, r, hfuel, _ => by
    have hchars : chars (.obj ((k, v) :: fs)) = '{' :: members ((k, v) :: fs) ++ ['}'] := rfl
    rw [hchars, List.length_append, List.length_cons, List.length_singleton] at hfuel
    obtain ⟨m, rfl, hm⟩ := @exists_fuel (2 * (members ((k, v) :: fs)).length + 1) fuel (by omega)
    have hfields := fields_members ((k, v) :: fs) (List.cons_ne_nil _ _) h.2 m r hm
    obtain ⟨cs, hhead⟩ := exists_members k h.2.1 fs
    rw [hchars, List.append_assoc, List.cons_append, List.singleton_append, value,
      skipSpace_opening (c := '{') (by decide), char?_of_ne (by decide)]
    dsimp only
    rw [char?_self]
    dsimp only
    rw [hhead, List.cons_append, skipSpace_opening (by decide), char?_of_ne (by decide),
      ← List.cons_append, ← hhead]
    dsimp only
    rw [hfields, Option.map_some, Dict.entries_ofList h.1]

theorem items_elements : ∀ xs : List JsVal, xs ≠ [] → JsVal.AllJson xs →
    ∀ (fuel : ℕ) (r : List Char), 2 * (elements xs).length + 1 ≤ fuel →
    items fuel (elements xs ++ ']' :: r) = some (xs, r)
  | [], hne, _, _, _, _ => absurd rfl hne
  | [x], _, h, fuel, r, hfuel => by
    rw [elements_one h.1] at hfuel ⊢
    obtain ⟨m, rfl, hm⟩ := exists_fuel hfuel
    rw [items, value_chars x h.1 m _ hm (stops_bracket r)]
    dsimp only [bind, Option.bind]
    rw [skipSpace_bracket, char?_of_ne (by decide), char?_self]
    rfl
  | x :: y :: ys, _, h, fuel, r, hfuel => by
    have hpos := length_chars_pos h.1
    rw [elements_more h.1] at hfuel ⊢
    rw [List.length_append, List.length_cons] at hfuel
    obtain ⟨m, rfl, hm⟩ := exists_fuel hfuel
    rw [items, List.append_assoc, List.cons_append,
      value_chars x h.1 m _ (by omega) (stops_comma _)]
    dsimp only [bind, Option.bind]
    rw [skipSpace_comma, char?_self]
    dsimp only
    rw [items_elements (y :: ys) (List.cons_ne_nil _ _) h.2 m r (by omega)]
    rfl

theorem fields_members : ∀ fs : List (String × JsVal), fs ≠ [] → JsVal.FieldsJson fs →
    ∀ (fuel : ℕ) (r : List Char), 2 * (members fs).length + 1 ≤ fuel →
    fields fuel (members fs ++ '}' :: r) = some (fs, r)
  | [], hne, _, _, _, _ => absurd rfl hne
  | [(k, v)], _, h, fuel, r, hfuel => by
    have hquote := length_quote k
    rw [members_one h.1] at hfuel ⊢
    rw [List.length_append, List.length_cons] at hfuel
    obtain ⟨m, rfl, hm⟩ := exists_fuel hfuel
    rw [fields, List.append_assoc, char?_quote]
    dsimp only [bind, Option.bind]
    rw [text_quote k _ (by omega)]
    dsimp only
    rw [List.cons_append, skipSpace_colon, char?_self]
    dsimp only
    rw [value_chars v h.1 m _ (by omega) (stops_brace r)]
    dsimp only
    rw [skipSpace_brace, char?_of_ne (by decide), char?_self]
    rfl
  | (k, v) :: (k', w) :: fs, _, h, fuel, r, hfuel => by
    have hquote := length_quote k
    rw [members_more h.1 h.2.1] at hfuel ⊢
    rw [List.length_append, List.length_cons, List.length_append, List.length_cons] at hfuel
    obtain ⟨m, rfl, hm⟩ := exists_fuel hfuel
    rw [fields, List.append_assoc, char?_quote]
    dsimp only [bind, Option.bind]
    rw [text_quote k _ (by omega)]
    dsimp only
    rw [List.cons_append, skipSpace_colon, char?_self]
    dsimp only
    rw [List.append_assoc, List.cons_append, value_chars v h.1 m _ (by omega) (stops_comma _)]
    dsimp only
    rw [skipSpace_comma, char?_self]
    dsimp only
    rw [fields_members ((k', w) :: fs) (List.cons_ne_nil _ _) h.2 m r (by omega)]
    rfl
end

/-- `JSON.parse (JSON.stringify v)` is `v`, for every JSON value. -/
theorem parse_chars {v : JsVal} (h : v.IsJson) : parse (String.ofList (chars v)) = .ok v := by
  unfold parse
  have hread := value_chars v h (2 * (String.ofList (chars v)).length + 2) [] (by
    rw [← String.length_toList, String.toList_ofList]
    omega) stops_nil
  rw [List.append_nil] at hread
  rw [String.toList_ofList, hread]
  rfl

end Json

end JtfpMall.Js
