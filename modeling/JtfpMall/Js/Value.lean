import JtfpMall.Lib.Dict
import JtfpMall.Js.Num

/-!
# Values of the language

A value as the modelled code can meet it: what `JSON.parse` returns, plus
`undefined`, which code writes into the fields of a row. A record with text keys
(a table row, a request body) is a dictionary of values, so its keys are
distinct. Nested objects keep their fields as a plain list.
-/

namespace JtfpMall.Js

open JtfpMall.Lib (Dict)

inductive JsVal where
  | undefined
  | null
  | bool (b : Bool)
  | num (n : JsNum)
  | str (s : String)
  | arr (xs : List JsVal)
  | obj (fs : List (String × JsVal))

namespace JsVal

mutual
def beq : JsVal → JsVal → Bool
  | .undefined, .undefined => true
  | .null, .null => true
  | .bool a, .bool b => decide (a = b)
  | .num a, .num b => decide (a = b)
  | .str a, .str b => decide (a = b)
  | .arr a, .arr b => beqList a b
  | .obj a, .obj b => beqFields a b
  | _, _ => false

def beqList : List JsVal → List JsVal → Bool
  | [], [] => true
  | a :: as, b :: bs => beq a b && beqList as bs
  | _, _ => false

def beqFields : List (String × JsVal) → List (String × JsVal) → Bool
  | [], [] => true
  | (k, a) :: as, (l, b) :: bs => decide (k = l) && beq a b && beqFields as bs
  | _, _ => false
end

mutual
theorem beq_refl : ∀ a : JsVal, beq a a = true
  | .undefined => rfl
  | .null => rfl
  | .bool _ => by simp [beq]
  | .num _ => by simp [beq]
  | .str _ => by simp [beq]
  | .arr xs => by simpa [beq] using beqList_refl xs
  | .obj fs => by simpa [beq] using beqFields_refl fs

theorem beqList_refl : ∀ xs : List JsVal, beqList xs xs = true
  | [] => rfl
  | x :: xs => by simp [beqList, beq_refl x, beqList_refl xs]

theorem beqFields_refl : ∀ fs : List (String × JsVal), beqFields fs fs = true
  | [] => rfl
  | (_, v) :: fs => by simp [beqFields, beq_refl v, beqFields_refl fs]
end

mutual
theorem eq_of_beq : ∀ a b : JsVal, beq a b = true → a = b
  | .undefined, b, h => by cases b <;> simp_all [beq]
  | .null, b, h => by cases b <;> simp_all [beq]
  | .bool _, b, h => by cases b <;> simp_all [beq]
  | .num _, b, h => by cases b <;> simp_all [beq]
  | .str _, b, h => by cases b <;> simp_all [beq]
  | .arr xs, b, h => by
    cases b with
    | arr ys =>
      simp only [beq] at h
      rw [eq_of_beqList xs ys h]
    | _ => simp [beq] at h
  | .obj fs, b, h => by
    cases b with
    | obj gs =>
      simp only [beq] at h
      rw [eq_of_beqFields fs gs h]
    | _ => simp [beq] at h

theorem eq_of_beqList : ∀ xs ys : List JsVal, beqList xs ys = true → xs = ys
  | [], [], _ => rfl
  | [], _ :: _, h => by simp [beqList] at h
  | _ :: _, [], h => by simp [beqList] at h
  | x :: xs, y :: ys, h => by
    simp only [beqList, Bool.and_eq_true] at h
    rw [eq_of_beq x y h.1, eq_of_beqList xs ys h.2]

theorem eq_of_beqFields : ∀ fs gs : List (String × JsVal), beqFields fs gs = true → fs = gs
  | [], [], _ => rfl
  | [], _ :: _, h => by simp [beqFields] at h
  | _ :: _, [], h => by simp [beqFields] at h
  | (k, v) :: fs, (l, w) :: gs, h => by
    simp only [beqFields, Bool.and_eq_true, decide_eq_true_eq] at h
    rw [h.1.1, eq_of_beq v w h.1.2, eq_of_beqFields fs gs h.2]
end

instance : DecidableEq JsVal := fun a b =>
  decidable_of_iff (beq a b = true) ⟨eq_of_beq a b, fun h => h ▸ beq_refl a⟩

instance : Inhabited JsVal := ⟨.undefined⟩

/-- The condition of an `if`, a `||`, a `&&`. -/
def truthy : JsVal → Bool
  | .undefined => false
  | .null => false
  | .bool b => b
  | .num n => n.truthy
  | .str s => decide (s ≠ "")
  | .arr _ => true
  | .obj _ => true

/-- `a || b`. -/
def or (a b : JsVal) : JsVal := if a.truthy then a else b

/-- `a ?? b`. -/
def orNullish : JsVal → JsVal → JsVal
  | .undefined, b => b
  | .null, b => b
  | a, _ => a

/-- `===`. Two objects are never the same one here: every comparison in the
modelled code has a number, a text or a boolean on one side. -/
def strictEq : JsVal → JsVal → Bool
  | .undefined, .undefined => true
  | .null, .null => true
  | .bool a, .bool b => decide (a = b)
  | .num a, .num b => a.strictEq b
  | .str a, .str b => decide (a = b)
  | _, _ => false

theorem eq_of_strictEq {a b : JsVal} (h : strictEq a b = true) : a = b := by
  cases a <;> cases b <;> simp_all [strictEq]
  exact JsNum.eq_of_strictEq h

mutual
/-- `JSON.parse (JSON.stringify v)`: numbers that are not finite become null,
`undefined` becomes null in an array and is dropped with its key in an object. -/
def viaJson : JsVal → JsVal
  | .num n => if n.isFinite then .num n else .null
  | .arr xs => .arr (viaJsonList xs)
  | .obj fs => .obj (viaJsonFields fs)
  | .undefined => .undefined
  | .null => .null
  | .bool b => .bool b
  | .str s => .str s

def viaJsonList : List JsVal → List JsVal
  | [] => []
  | x :: xs => (viaJson x).orNullish .null :: viaJsonList xs

def viaJsonFields : List (String × JsVal) → List (String × JsVal)
  | [] => []
  | (k, v) :: fs =>
    if viaJson v = .undefined then viaJsonFields fs else (k, viaJson v) :: viaJsonFields fs
end

mutual
/-- A value JSON text represents faithfully: no `undefined` anywhere and every
number finite. -/
def isPlain : JsVal → Bool
  | .undefined => false
  | .num n => n.isFinite
  | .arr xs => isPlainList xs
  | .obj fs => isPlainFields fs
  | .null => true
  | .bool _ => true
  | .str _ => true

def isPlainList : List JsVal → Bool
  | [] => true
  | x :: xs => isPlain x && isPlainList xs

def isPlainFields : List (String × JsVal) → Bool
  | [] => true
  | (_, v) :: fs => isPlain v && isPlainFields fs
end

theorem isPlain_ne_undefined {v : JsVal} (h : v.isPlain = true) : v ≠ .undefined := by
  rintro rfl
  simp [isPlain] at h

theorem orNullish_null_of_isPlain {v : JsVal} (h : v.isPlain = true) : v.orNullish .null = v := by
  cases v <;> first | rfl | simp [isPlain] at h

mutual
theorem viaJson_of_isPlain : ∀ v : JsVal, v.isPlain = true → v.viaJson = v
  | .undefined, h => by simp [isPlain] at h
  | .null, _ => rfl
  | .bool _, _ => rfl
  | .str _, _ => rfl
  | .num n, h => by
    simp only [isPlain] at h
    simp [viaJson, h]
  | .arr xs, h => by
    simp only [isPlain] at h
    simp [viaJson, viaJsonList_of_isPlain xs h]
  | .obj fs, h => by
    simp only [isPlain] at h
    simp [viaJson, viaJsonFields_of_isPlain fs h]

theorem viaJsonList_of_isPlain : ∀ xs : List JsVal, isPlainList xs = true → viaJsonList xs = xs
  | [], _ => rfl
  | x :: xs, h => by
    simp only [isPlainList, Bool.and_eq_true] at h
    rw [viaJsonList, viaJson_of_isPlain x h.1, viaJsonList_of_isPlain xs h.2,
      orNullish_null_of_isPlain h.1]

theorem viaJsonFields_of_isPlain :
    ∀ fs : List (String × JsVal), isPlainFields fs = true → viaJsonFields fs = fs
  | [], _ => rfl
  | (k, v) :: fs, h => by
    simp only [isPlainFields, Bool.and_eq_true] at h
    rw [viaJsonFields, viaJson_of_isPlain v h.1, viaJsonFields_of_isPlain fs h.2,
      if_neg (isPlain_ne_undefined h.1)]
end

theorem viaJson_eq_undefined {v : JsVal} : v.viaJson = .undefined ↔ v = .undefined := by
  constructor
  · intro h
    cases v with
    | num n =>
      simp only [viaJson] at h
      split at h <;> cases h
    | _ => simp_all [viaJson]
  · rintro rfl
    rfl

mutual
/-- What JSON text keeps is plain, unless nothing is kept. -/
theorem isPlain_viaJson : ∀ v : JsVal, v ≠ .undefined → v.viaJson.isPlain = true
  | .undefined, h => absurd rfl h
  | .null, _ => rfl
  | .bool _, _ => rfl
  | .str _, _ => rfl
  | .num n, _ => by
    by_cases hn : n.isFinite = true
    · simp [viaJson, hn, isPlain]
    · simp [viaJson, hn, isPlain]
  | .arr xs, _ => by simpa [viaJson, isPlain] using isPlainList_viaJson xs
  | .obj fs, _ => by simpa [viaJson, isPlain] using isPlainFields_viaJson fs

theorem isPlainList_viaJson : ∀ xs : List JsVal, isPlainList (viaJsonList xs) = true
  | [] => rfl
  | x :: xs => by
    rw [viaJsonList, isPlainList, isPlainList_viaJson xs, Bool.and_true]
    by_cases hx : x = .undefined
    · subst hx
      rfl
    · have h := isPlain_viaJson x hx
      rw [orNullish_null_of_isPlain h, h]

theorem isPlainFields_viaJson :
    ∀ fs : List (String × JsVal), isPlainFields (viaJsonFields fs) = true
  | [] => rfl
  | (k, v) :: fs => by
    rw [viaJsonFields]
    split
    · exact isPlainFields_viaJson fs
    · rename_i hv
      have h := isPlain_viaJson v fun he => hv (viaJson_eq_undefined.mpr he)
      simp [isPlainFields, h, isPlainFields_viaJson fs]
end

/-- A second passage through JSON text changes nothing more. -/
theorem viaJson_viaJson (v : JsVal) : v.viaJson.viaJson = v.viaJson := by
  by_cases hv : v = .undefined
  · subst hv
    rfl
  · exact viaJson_of_isPlain _ (isPlain_viaJson v hv)

/-- A comparison with a text reads the same through JSON text. -/
theorem strictEq_viaJson_str (v : JsVal) (t : String) :
    v.viaJson.strictEq (.str t) = v.strictEq (.str t) := by
  cases v with
  | num n =>
    rw [viaJson]
    split <;> rfl
  | _ => rfl

/-- `undefined`, which a file leaves out, or a value JSON text represents faithfully. -/
def Storable (v : JsVal) : Prop := v = .undefined ∨ v.isPlain = true

theorem storable_str (s : String) : Storable (.str s) := Or.inr rfl

theorem storable_null : Storable .null := Or.inr rfl

theorem storable_fin (q : ℚ) : Storable (.num (.fin q)) := Or.inr rfl

theorem Storable.viaJson_eq {v : JsVal} (h : v.Storable) : v.viaJson = v := by
  rcases h with rfl | h
  · rfl
  · exact viaJson_of_isPlain v h

theorem Storable.or {a b : JsVal} (ha : a.Storable) (hb : b.Storable) : (a.or b).Storable := by
  unfold JsVal.or
  split
  · exact ha
  · exact hb

theorem Storable.orNullish {a b : JsVal} (ha : a.Storable) (hb : b.Storable) :
    (a.orNullish b).Storable := by
  cases a <;> first | exact hb | exact ha

/-- Fields of an object that JSON text keeps. -/
def kept (v : JsVal) : Option JsVal := if v = .undefined then none else some v.viaJson

end JsVal

end JtfpMall.Js

namespace JtfpMall.Lib.Dict

open JtfpMall.Js (JsVal)

/-- `r.k`: an absent key reads as `undefined`. -/
def get (r : Dict JsVal) (k : String) : JsVal := (r.get? k).getD .undefined

/-- `'k' in r`. -/
def has (r : Dict JsVal) (k : String) : Bool := (r.get? k).isSome

def viaJson (r : Dict JsVal) : Dict JsVal := r.filterMap JsVal.kept

/-- The row without its keys that hold `undefined`. -/
def defined (r : Dict JsVal) : Dict JsVal := r.filterMap fun v => if v = .undefined then none else some v

/-- Every field is `undefined` or a value JSON text represents faithfully. -/
def IsPlain (r : Dict JsVal) : Prop := ∀ k, (r.get k).Storable

@[simp] theorem get_empty (k : String) : (empty : Dict JsVal).get k = .undefined := rfl

theorem get_set (r : Dict JsVal) (k : String) (v : JsVal) (x : String) :
    (r.set k v).get x = if x = k then v else r.get x := by
  unfold get
  rw [get?_set]
  split <;> rfl

@[simp] theorem get_set_self (r : Dict JsVal) (k : String) (v : JsVal) : (r.set k v).get k = v := by
  simp [get_set]

theorem get_set_of_ne (r : Dict JsVal) {k x : String} (v : JsVal) (h : x ≠ k) :
    (r.set k v).get x = r.get x := by
  simp [get_set, h]

theorem get_spread (r u : Dict JsVal) (x : String) :
    (r.spread u).get x = if u.has x then u.get x else r.get x := by
  unfold get has
  rw [get?_spread]
  cases u.get? x <;> rfl

theorem get_of_not_has {r : Dict JsVal} {k : String} (h : r.has k = false) :
    r.get k = .undefined := by
  unfold has at h
  rw [Option.isSome_eq_false_iff, Option.isNone_iff_eq_none] at h
  rw [get, h]
  rfl

theorem has_set (r : Dict JsVal) (k : String) (v : JsVal) (x : String) :
    (r.set k v).has x = (decide (x = k) || r.has x) := by
  unfold has
  rw [get?_set]
  by_cases h : x = k <;> simp [h]

theorem has_spread (r u : Dict JsVal) (x : String) :
    (r.spread u).has x = (u.has x || r.has x) := by
  unfold has
  rw [get?_spread]
  cases u.get? x <;> simp

theorem has_ofList (es : List (String × JsVal)) (x : String) :
    (ofList es).has x = decide (x ∈ es.map Prod.fst) := by
  have step : ∀ (es : List (String × JsVal)) (r : Dict JsVal),
      has (es.foldl (fun a p => a.set p.1 p.2) r) x = (decide (x ∈ es.map Prod.fst) || r.has x) := by
    intro es
    induction es with
    | nil => exact fun r => by simp
    | cons p es ih =>
      intro r
      rw [List.foldl_cons, ih, has_set]
      by_cases h1 : x = p.1 <;> by_cases h2 : x ∈ es.map Prod.fst <;> simp [h1, h2]
  exact (step es empty).trans (Bool.or_false _)

/-- A record written out with distinct keys reads as it is written. -/
theorem get_ofList_of_mem {es : List (String × JsVal)} (hn : (es.map Prod.fst).Nodup) {k : String}
    {v : JsVal} (h : (k, v) ∈ es) : (ofList es).get k = v := by
  unfold get ofList
  rw [get?_foldl_set es hn, lookup_of_mem hn h]
  rfl

theorem get_ofList_of_not_mem {es : List (String × JsVal)} {k : String}
    (h : k ∉ es.map Prod.fst) : (ofList es).get k = .undefined :=
  get_of_not_has (by rw [has_ofList, decide_eq_false h])

theorem get_viaJson (r : Dict JsVal) (x : String) : (viaJson r).get x = (r.get x).viaJson := by
  unfold get viaJson
  rw [get?_filterMap]
  cases h : r.get? x with
  | none => rfl
  | some v =>
    by_cases hv : v = .undefined
    · simp [hv, JsVal.kept, JsVal.viaJson]
    · simp [hv, JsVal.kept]

theorem get_defined (r : Dict JsVal) (x : String) : (defined r).get x = r.get x := by
  unfold get defined
  rw [get?_filterMap]
  cases h : r.get? x with
  | none => rfl
  | some v =>
    by_cases hv : v = .undefined <;> simp [hv]

theorem viaJson_of_isPlain {r : Dict JsVal} (h : r.IsPlain) : r.viaJson = r.defined := by
  apply filterMap_congr
  intro k v hv
  unfold JsVal.kept
  have hk := h k
  rw [get, get?_of_mem hv, Option.getD_some] at hk
  rcases hk with rfl | hp
  · rfl
  · rw [JsVal.viaJson_of_isPlain v hp]

theorem viaJson_viaJson (r : Dict JsVal) : r.viaJson.viaJson = r.viaJson := by
  unfold viaJson
  rw [filterMap_filterMap]
  apply filterMap_congr
  intro k v _
  unfold JsVal.kept
  by_cases hv : v = .undefined
  · simp [hv]
  · simp [hv, JsVal.viaJson_eq_undefined, JsVal.viaJson_viaJson]

theorem isPlain_viaJson (r : Dict JsVal) : r.viaJson.IsPlain := by
  intro k
  rw [get_viaJson]
  by_cases hk : r.get k = .undefined
  · exact Or.inl (by rw [hk]; rfl)
  · exact Or.inr (JsVal.isPlain_viaJson _ hk)

theorem IsPlain.set {r : Dict JsVal} (h : r.IsPlain) (k : String) {v : JsVal}
    (hv : v.Storable) : IsPlain (r.set k v) := by
  intro x
  rw [get_set]
  split
  · exact hv
  · exact h x

theorem IsPlain.spread {r u : Dict JsVal} (h : r.IsPlain) (hu : u.IsPlain) :
    IsPlain (r.spread u) := by
  intro x
  rw [get_spread]
  split
  · exact hu x
  · exact h x

theorem isPlain_empty : IsPlain (empty : Dict JsVal) := fun _ => Or.inl rfl

theorem isPlain_ofList {es : List (String × JsVal)} (h : ∀ p ∈ es, p.2.Storable) :
    IsPlain (ofList es) := by
  have step : ∀ (es : List (String × JsVal)) (r : Dict JsVal), r.IsPlain →
      (∀ p ∈ es, p.2.Storable) → IsPlain (es.foldl (fun a p => a.set p.1 p.2) r) := by
    intro es
    induction es with
    | nil => exact fun r hr _ => hr
    | cons p es ih =>
      exact fun r hr hes => ih (r.set p.1 p.2) (hr.set p.1 (hes p List.mem_cons_self))
        fun q hq => hes q (List.mem_cons_of_mem p hq)
  exact step es empty isPlain_empty h

theorem defined_defined (r : Dict JsVal) : r.defined.defined = r.defined := by
  unfold defined
  rw [filterMap_filterMap]
  apply filterMap_congr
  intro k v _
  by_cases hv : v = .undefined <;> simp [hv]

end JtfpMall.Lib.Dict
