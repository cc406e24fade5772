import Mathlib.Data.String.Basic
import Mathlib.Tactic.IntervalCases
import JtfpMall.Js.Coerce

/-!
# Times as texts

`toISOString` writes every field of a time in a fixed number of digits, the year first, so texts
in one format are ordered as the times are. Where two formats meet, the first character in
which they differ decides.
-/

namespace JtfpMall.Js

/-- Every character is one code unit. -/
def OneUnit (cs : List Char) : Prop := ∀ c ∈ cs, c.toNat < 0x10000

theorem flatMap_codeUnits {cs : List Char} (h : OneUnit cs) :
    cs.flatMap codeUnits = cs.map Char.toNat := by
  induction cs with
  | nil => rfl
  | cons c cs ih =>
    have hc : codeUnits c = [c.toNat] := if_pos (h c List.mem_cons_self)
    rw [List.flatMap_cons, hc, ih fun d hd => h d (List.mem_cons_of_mem c hd)]
    rfl

theorem map_toNat_lt (cs ds : List Char) : cs.map Char.toNat < ds.map Char.toNat ↔ cs < ds := by
  induction cs generalizing ds with
  | nil => cases ds <;> simp
  | cons c cs ih =>
    cases ds with
    | nil => simp
    | cons d ds =>
      rw [List.map_cons, List.map_cons, List.cons_lt_cons_iff, List.cons_lt_cons_iff, ih]
      exact or_congr Iff.rfl (and_congr_left fun _ => Char.toNat_inj)

/-- Such texts are ordered by their characters. -/
theorem textLt_ofList {cs ds : List Char} (hc : OneUnit cs) (hd : OneUnit ds) :
    textLt (.ofList cs) (.ofList ds) = decide (cs < ds) := by
  unfold textLt utf16
  rw [String.toList_ofList, String.toList_ofList, flatMap_codeUnits hc, flatMap_codeUnits hd]
  exact decide_eq_decide.mpr (map_toNat_lt cs ds)

/-- A number in `w` decimal digits. -/
def digits : ℕ → ℕ → List Char
  | 0, _ => []
  | w + 1, n => digits w (n / 10) ++ [Nat.digitChar (n % 10)]

theorem digitChar_lt {m n : ℕ} (hm : m < 10) (hn : n < 10) :
    Nat.digitChar m < Nat.digitChar n ↔ m < n := by
  interval_cases m <;> interval_cases n <;> decide

theorem digitChar_inj {m n : ℕ} (hm : m < 10) (hn : n < 10) :
    Nat.digitChar m = Nat.digitChar n ↔ m = n := by
  interval_cases m <;> interval_cases n <;> decide

theorem oneUnit_digits (w n : ℕ) : OneUnit (digits w n) := by
  induction w generalizing n with
  | zero => exact fun c hc => absurd hc List.not_mem_nil
  | succ w ih =>
    intro c hc
    rcases List.mem_append.mp hc with hc | hc
    · exact ih (n / 10) c hc
    · rw [List.mem_singleton.mp hc]
      have hlt := Nat.mod_lt n (y := 10) (by decide)
      interval_cases n % 10 <;> decide

/-- Numbers in as many digits are ordered as the numbers; after equal ones the rest decides. -/
theorem digits_append_lt {w m n : ℕ} (hm : m < 10 ^ w) (hn : n < 10 ^ w) (x y : List Char) :
    digits w m ++ x < digits w n ++ y ↔ m < n ∨ (m = n ∧ x < y) := by
  induction w generalizing m n x y with
  | zero =>
    rw [pow_zero, Nat.lt_one_iff] at hm hn
    subst hm
    subst hn
    simp [digits]
  | succ w ih =>
    have hdigit := digitChar_lt (Nat.mod_lt m (y := 10) (by decide))
      (Nat.mod_lt n (y := 10) (by decide))
    have heq := digitChar_inj (Nat.mod_lt m (y := 10) (by decide))
      (Nat.mod_lt n (y := 10) (by decide))
    rw [pow_succ] at hm hn
    simp only [digits, List.append_assoc, List.singleton_append]
    rw [ih (Nat.div_lt_of_lt_mul (by omega)) (Nat.div_lt_of_lt_mul (by omega)),
      List.cons_lt_cons_iff, hdigit, heq]
    have hm' := Nat.div_add_mod m 10
    have hn' := Nat.div_add_mod n 10
    constructor
    · rintro (hlt | ⟨hdiv, hlt | ⟨hmod, hrest⟩⟩)
      · exact Or.inl (by omega)
      · exact Or.inl (by omega)
      · exact Or.inr ⟨by omega, hrest⟩
    · rintro (hlt | ⟨rfl, hrest⟩)
      · rcases Nat.lt_or_ge (m / 10) (n / 10) with hdiv | hdiv
        · exact Or.inl hdiv
        · exact Or.inr ⟨by omega, Or.inl (by omega)⟩
      · exact Or.inr ⟨rfl, Or.inr ⟨rfl, hrest⟩⟩

/-- Three numbers in digits, with a character between them. -/
def fields (sep : Char) (w l m n : ℕ) : List Char :=
  digits w l ++ sep :: (digits 2 m ++ sep :: digits 2 n)

theorem fields_append_lt (sep : Char) {w l m n l' m' n' : ℕ} (hl : l < 10 ^ w) (hl' : l' < 10 ^ w)
    (hm : m < 100) (hm' : m' < 100) (hn : n < 100) (hn' : n' < 100) (x y : List Char) :
    fields sep w l m n ++ x < fields sep w l' m' n' ++ y ↔
      l < l' ∨ (l = l' ∧ (m < m' ∨ (m = m' ∧ (n < n' ∨ (n = n' ∧ x < y))))) := by
  simp only [fields, List.append_assoc, List.cons_append]
  rw [digits_append_lt hl hl', List.cons_lt_cons_iff, digits_append_lt (by omega) (by omega),
    List.cons_lt_cons_iff, digits_append_lt (by omega) (by omega)]
  simp only [Char.lt_irrefl, false_or, true_and]

theorem oneUnit_append {cs ds : List Char} (hc : OneUnit cs) (hd : OneUnit ds) :
    OneUnit (cs ++ ds) := fun c h => (List.mem_append.mp h).elim (hc c) (hd c)

theorem oneUnit_cons {c : Char} {cs : List Char} (hc : c.toNat < 0x10000) (h : OneUnit cs) :
    OneUnit (c :: cs) := fun d hd => (List.mem_cons.mp hd).elim (fun he => he ▸ hc) (h d)

theorem oneUnit_nil : OneUnit [] := fun _ hc => absurd hc List.not_mem_nil

theorem oneUnit_fields {sep : Char} (hs : sep.toNat < 0x10000) (w l m n : ℕ) :
    OneUnit (fields sep w l m n) :=
  oneUnit_append (oneUnit_digits _ _) <| oneUnit_cons hs <|
    oneUnit_append (oneUnit_digits _ _) (oneUnit_cons hs (oneUnit_digits _ _))

/-- A day of the calendar; month and date are counted from zero. -/
structure Day where
  year : Fin 10000
  month : Fin 12
  date : Fin 31
deriving DecidableEq

/-- A time of day. -/
structure DayTime where
  hours : Fin 24
  minutes : Fin 60
  seconds : Fin 60
deriving DecidableEq

namespace Day

/-- A number for the day; a later day has a greater one. -/
def number (d : Day) : ℕ := (d.year * 12 + d.month) * 31 + d.date

/-- `YYYY-MM-DD`. -/
def chars (d : Day) : List Char := fields '-' 4 d.year (d.month + 1) (d.date + 1)

def text (d : Day) : String := .ofList d.chars

theorem number_injective : Function.Injective number := by
  rintro ⟨⟨y, hy⟩, ⟨m, hm⟩, ⟨n, hn⟩⟩ ⟨⟨y', hy'⟩, ⟨m', hm'⟩, ⟨n', hn'⟩⟩ h
  simp only [number] at h
  obtain rfl : y = y' := by omega
  obtain rfl : m = m' := by omega
  obtain rfl : n = n' := by omega
  rfl

instance : LinearOrder Day := LinearOrder.lift' number number_injective

theorem lt_def {d e : Day} : d < e ↔ d.number < e.number := Iff.rfl

theorem le_def {d e : Day} : d ≤ e ↔ d.number ≤ e.number := Iff.rfl

/-- Days in front of other text are ordered as the days. -/
theorem chars_append_lt (d e : Day) (x y : List Char) :
    d.chars ++ x < e.chars ++ y ↔ d < e ∨ (d = e ∧ x < y) := by
  have hinj : d = e ↔ d.number = e.number := number_injective.eq_iff.symm
  obtain ⟨⟨p, hp⟩, ⟨m, hm⟩, ⟨n, hn⟩⟩ := d
  obtain ⟨⟨p', hp'⟩, ⟨m', hm'⟩, ⟨n', hn'⟩⟩ := e
  unfold chars
  rw [hinj, lt_def, fields_append_lt '-' (by omega) (by omega) (by omega) (by omega) (by omega)
    (by omega)]
  by_cases hrest : x < y
  · simp only [number, hrest, and_true]
    omega
  · simp only [number, hrest, and_false, or_false]
    omega

theorem oneUnit_chars (d : Day) : OneUnit d.chars := oneUnit_fields (by decide) _ _ _ _

end Day

namespace DayTime

/-- The seconds since midnight. -/
def number (t : DayTime) : ℕ := (t.hours * 60 + t.minutes) * 60 + t.seconds

/-- `HH:MM:SS`. -/
def chars (t : DayTime) : List Char := fields ':' 2 t.hours t.minutes t.seconds

def text (t : DayTime) : String := .ofList t.chars

theorem number_lt (t : DayTime) : t.number < 86400 := by
  obtain ⟨⟨h, hh⟩, ⟨m, hm⟩, ⟨n, hn⟩⟩ := t
  simp only [number]
  omega

theorem number_injective : Function.Injective number := by
  rintro ⟨⟨h, hh⟩, ⟨m, hm⟩, ⟨n, hn⟩⟩ ⟨⟨h', hh'⟩, ⟨m', hm'⟩, ⟨n', hn'⟩⟩ heq
  simp only [number] at heq
  obtain rfl : h = h' := by omega
  obtain rfl : m = m' := by omega
  obtain rfl : n = n' := by omega
  rfl

theorem chars_append_lt (t u : DayTime) (x y : List Char) :
    t.chars ++ x < u.chars ++ y ↔ t.number < u.number ∨ (t = u ∧ x < y) := by
  have hinj : t = u ↔ t.number = u.number := number_injective.eq_iff.symm
  obtain ⟨⟨p, hp⟩, ⟨m, hm⟩, ⟨n, hn⟩⟩ := t
  obtain ⟨⟨p', hp'⟩, ⟨m', hm'⟩, ⟨n', hn'⟩⟩ := u
  unfold chars
  rw [hinj, fields_append_lt ':' (by omega) (by omega) (by omega) (by omega) (by omega) (by omega)]
  by_cases hrest : x < y
  · simp only [number, hrest, and_true]
    omega
  · simp only [number, hrest, and_false, or_false]
    omega

theorem oneUnit_chars (t : DayTime) : OneUnit t.chars := oneUnit_fields (by decide) _ _ _ _

end DayTime

/-- A time to the millisecond, in UTC. -/
structure Stamp where
  day : Day
  time : DayTime
  millis : Fin 1000
deriving DecidableEq

namespace Stamp

/-- A number for the time; a later time has a greater one. -/
def number (s : Stamp) : ℕ := (s.day.number * 86400 + s.time.number) * 1000 + s.millis

theorem number_injective : Function.Injective number := by
  rintro ⟨d, t, ⟨m, hm⟩⟩ ⟨d', t', ⟨m', hm'⟩⟩ h
  have ht := t.number_lt
  have ht' := t'.number_lt
  simp only [number] at h
  obtain rfl : d = d' := Day.number_injective (by omega)
  obtain rfl : t = t' := DayTime.number_injective (by omega)
  obtain rfl : m = m' := by omega
  rfl

instance : LinearOrder Stamp := LinearOrder.lift' number number_injective

theorem lt_def {s t : Stamp} : s < t ↔ s.number < t.number := Iff.rfl

theorem le_def {s t : Stamp} : s ≤ t ↔ s.number ≤ t.number := Iff.rfl

theorem day_le_of_le {s t : Stamp} (h : s ≤ t) : s.day ≤ t.day := by
  have hs := s.time.number_lt
  have ht := t.time.number_lt
  rw [le_def, number, number] at h
  rw [Day.le_def]
  omega

theorem lt_of_day_lt {s t : Stamp} (h : s.day < t.day) : s < t :=
  not_le.mp fun hle => absurd h (not_lt.mpr (day_le_of_le hle))

/-- The first and the last time of a day. -/
def dayBegin (d : Day) : Stamp := ⟨d, ⟨0, 0, 0⟩, 0⟩

def dayEnd (d : Day) : Stamp := ⟨d, ⟨23, 59, 59⟩, 999⟩

theorem dayBegin_le (d : Day) (s : Stamp) : dayBegin d ≤ s ↔ d ≤ s.day := by
  have hmidnight : (⟨0, 0, 0⟩ : DayTime).number = 0 := by decide
  refine ⟨day_le_of_le, fun h => ?_⟩
  rw [Day.le_def] at h
  rw [le_def, number, number, dayBegin, hmidnight]
  dsimp only [Fin.val_zero]
  omega

theorem le_dayEnd (d : Day) (s : Stamp) : s ≤ dayEnd d ↔ s.day ≤ d := by
  have hlast : (⟨23, 59, 59⟩ : DayTime).number = 86399 := by decide
  have htime := s.time.number_lt
  have hmillis := s.millis.isLt
  refine ⟨day_le_of_le, fun h => ?_⟩
  rw [Day.le_def] at h
  have hval : ((999 : Fin 1000) : ℕ) = 999 := by decide
  rw [le_def, number, number, dayEnd, hlast, hval]
  dsimp only
  omega

/-- What follows the day. -/
def afterDay (s : Stamp) : List Char := 'T' :: (s.time.chars ++ '.' :: (digits 3 s.millis ++ ['Z']))

/-- `YYYY-MM-DDTHH:MM:SS.sssZ`. -/
def chars (s : Stamp) : List Char := s.day.chars ++ s.afterDay

/-- `toISOString()` of a time in the years 0 to 9999. -/
def text (s : Stamp) : String := .ofList s.chars

theorem oneUnit_chars (s : Stamp) : OneUnit s.chars :=
  oneUnit_append s.day.oneUnit_chars <| oneUnit_cons (by decide) <|
    oneUnit_append s.time.oneUnit_chars <| oneUnit_cons (by decide) <|
      oneUnit_append (oneUnit_digits _ _) (oneUnit_cons (by decide) oneUnit_nil)

/-- Stamps are ordered as the times. -/
theorem chars_lt (s t : Stamp) : s.chars < t.chars ↔ s < t := by
  obtain ⟨d, u, ⟨m, hm⟩⟩ := s
  obtain ⟨d', u', ⟨m', hm'⟩⟩ := t
  have hu := u.number_lt
  have hu' := u'.number_lt
  have hday : d = d' ↔ d.number = d'.number := Day.number_injective.eq_iff.symm
  have htime : u = u' ↔ u.number = u'.number := DayTime.number_injective.eq_iff.symm
  unfold chars afterDay
  rw [Day.chars_append_lt, List.cons_lt_cons_iff, DayTime.chars_append_lt, List.cons_lt_cons_iff,
    digits_append_lt (by omega) (by omega), lt_def, Day.lt_def, hday, htime]
  simp only [number, Char.lt_irrefl, List.lt_irrefl, false_or, true_and, and_false, or_false]
  omega

theorem text_lt (s t : Stamp) : s.text < t.text ↔ s < t := by
  rw [String.lt_iff_toList_lt]
  unfold text
  rw [String.toList_ofList, String.toList_ofList]
  exact chars_lt s t

theorem text_injective : Function.Injective text := by
  intro s t h
  rcases lt_trichotomy s t with hlt | heq | hgt
  · exact absurd h ((text_lt s t).mpr hlt).ne
  · exact heq
  · exact absurd h ((text_lt t s).mpr hgt).ne'

/-- The order of characters puts stamps in the order of time. -/
theorem compare_text (s t : Stamp) : compare s.text t.text = compare s t := by
  rcases lt_trichotomy s t with hlt | rfl | hgt
  · rw [compare_lt_iff_lt.mpr hlt, compare_lt_iff_lt.mpr ((text_lt s t).mpr hlt)]
  · rw [compare_eq_iff_eq.mpr rfl, compare_eq_iff_eq.mpr rfl]
  · rw [compare_gt_iff_gt.mpr hgt, compare_gt_iff_gt.mpr ((text_lt t s).mpr hgt)]

theorem textLt_text (s t : Stamp) : textLt s.text t.text = decide (s < t) := by
  unfold text
  rw [textLt_ofList s.oneUnit_chars t.oneUnit_chars]
  exact decide_eq_decide.mpr (chars_lt s t)

/-- Text that stands before a `T`: nothing, a blank. -/
def BeforeT (rest : List Char) : Prop := OneUnit rest ∧ ∀ cs, rest < 'T' :: cs

theorem beforeT_nil : BeforeT [] := ⟨oneUnit_nil, fun _ => List.nil_lt_cons _ _⟩

theorem beforeT_blank {cs : List Char} (h : OneUnit cs) : BeforeT (' ' :: cs) :=
  ⟨oneUnit_cons (by decide) h, fun _ => List.cons_lt_cons_iff.mpr (Or.inl (by decide))⟩

section
variable {d : Day} {rest : List Char}

/-- A day with such text after it stands before every stamp of the day. -/
theorem textLt_of_beforeT (s : Stamp) (h : BeforeT rest) :
    textLt s.text (.ofList (d.chars ++ rest)) = decide (s.day < d) := by
  unfold text
  rw [textLt_ofList s.oneUnit_chars (oneUnit_append d.oneUnit_chars h.1)]
  refine decide_eq_decide.mpr ((Day.chars_append_lt _ _ _ _).trans ?_)
  exact or_iff_left fun hlt => List.lt_asymm hlt.2 (h.2 _)

theorem textLt_beforeT (s : Stamp) (h : BeforeT rest) :
    textLt (.ofList (d.chars ++ rest)) s.text = decide (d ≤ s.day) := by
  unfold text
  rw [textLt_ofList (oneUnit_append d.oneUnit_chars h.1) s.oneUnit_chars]
  refine decide_eq_decide.mpr ((Day.chars_append_lt _ _ _ _).trans ?_)
  rw [le_iff_lt_or_eq]
  exact or_congr Iff.rfl (and_iff_left (h.2 _))

end

theorem text_ne_empty (s : Stamp) : s.text ≠ "" := by
  intro h
  have hchars : s.chars = [] := by
    rw [← String.toList_ofList (l := s.chars)]
    exact congrArg String.toList h
  have hlen := congrArg List.length hchars
  simp [chars, afterDay] at hlen

end Stamp

end JtfpMall.Js
