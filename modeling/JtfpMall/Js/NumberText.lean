import JtfpMall.Js.Json
import JtfpMall.Js.Shortest
import JtfpMall.Js.Trim

/-!
# Numbers read back

The text of a binary64 value, however its digits are laid out, reads as the same value.
-/

namespace JtfpMall.Js.Json

open JtfpMall.Lib

/-- The input goes on with nothing that belongs to a number. -/
def Stops (r : List Char) : Prop :=
  ∀ c, r.head? = some c → isDigit c = false ∧ c ≠ '.' ∧ c ≠ 'e' ∧ c ≠ 'E'

theorem stops_nil : Stops [] := fun _ h => nomatch h

theorem stops_cons {c : Char} {r : List Char}
    (h : isDigit c = false ∧ c ≠ '.' ∧ c ≠ 'e' ∧ c ≠ 'E') : Stops (c :: r) := by
  intro d hd
  rw [List.head?_cons, Option.some.injEq] at hd
  rw [← hd]
  exact h

/-- The input does not go on with a digit. -/
def NoDigit (r : List Char) : Prop := ∀ c, r.head? = some c → isDigit c = false

theorem Stops.noDigit {r : List Char} (h : Stops r) : NoDigit r := fun c hc => (h c hc).1

theorem noDigit_cons {c : Char} {r : List Char} (h : isDigit c = false) : NoDigit (c :: r) := by
  intro d hd
  rw [List.head?_cons, Option.some.injEq] at hd
  rwa [← hd]

theorem span_digits {ds r : List Char} (hd : ∀ c ∈ ds, isDigit c = true) (hr : NoDigit r) :
    (ds ++ r).takeWhile isDigit = ds ∧ (ds ++ r).dropWhile isDigit = r := by
  induction ds with
  | nil =>
    cases r with
    | nil => exact ⟨rfl, rfl⟩
    | cons c r =>
      have hc : isDigit c = false := hr c rfl
      exact ⟨List.takeWhile_cons_of_neg (by simp [hc]), List.dropWhile_cons_of_neg (by simp [hc])⟩
  | cons d ds ih =>
    obtain ⟨htake, hdrop⟩ := ih fun c hc => hd c (List.mem_cons_of_mem d hc)
    have hfirst := hd d List.mem_cons_self
    rw [List.cons_append]
    exact ⟨by rw [List.takeWhile_cons_of_pos hfirst, htake],
      by rw [List.dropWhile_cons_of_pos hfirst, hdrop]⟩

theorem char?_self (c : Char) (r : List Char) : char? c (c :: r) = some r := if_pos rfl

theorem char?_of_ne {c d : Char} (h : d ≠ c) (r : List Char) : char? c (d :: r) = none := if_neg h

theorem char?_of_head {c : Char} {r : List Char} (h : r.head? ≠ some c) : char? c r = none := by
  cases r with
  | nil => rfl
  | cons d r => exact char?_of_ne (fun hd => h (by rw [hd]; rfl)) r

theorem fraction_none {r : List Char} (h : r.head? ≠ some '.') : fraction r = some ([], r) := by
  unfold fraction
  rw [char?_of_head h]

theorem fraction_some {ds r : List Char} (hne : ds ≠ []) (hd : ∀ c ∈ ds, isDigit c = true)
    (hr : NoDigit r) : fraction ('.' :: (ds ++ r)) = some (ds, r) := by
  obtain ⟨htake, hdrop⟩ := span_digits hd hr
  unfold fraction
  rw [char?_self]
  dsimp only
  rw [htake, hdrop, if_neg hne]

theorem exponent_none {r : List Char} (he : r.head? ≠ some 'e') (hE : r.head? ≠ some 'E') :
    exponent r = some (0, r) := by
  unfold exponent
  rw [char?_of_head he, char?_of_head hE]
  rfl

/-- A signed exponent reads back. -/
theorem exponent_some (e : ℤ) {r : List Char} (hr : NoDigit r) :
    exponent ('e' :: (if e < 0 then '-' else '+') :: (Nat.toDigits 10 e.natAbs ++ r)) =
      some (e, r) := by
  obtain ⟨htake, hdrop⟩ := span_digits
    (fun c (hc : c ∈ Nat.toDigits 10 e.natAbs) => (digit_of_mem_toDigits hc).1) hr
  have hvalue := digitsValue_toDigits e.natAbs
  by_cases he : e < 0
  · rw [if_pos he]
    unfold exponent
    rw [char?_self, Option.some_or]
    dsimp only
    rw [char?_self]
    dsimp only
    rw [htake, hdrop, if_neg Nat.toDigits_ne_nil, hvalue, show (-1) * (e.natAbs : ℤ) = e by omega]
  · rw [if_neg he]
    unfold exponent
    rw [char?_self, Option.some_or]
    dsimp only
    rw [char?_of_ne (by decide), char?_self]
    change (if (Nat.toDigits 10 e.natAbs ++ r).takeWhile isDigit = [] then none else _) = _
    dsimp only [Option.getD_some]
    rw [htake, hdrop, if_neg Nat.toDigits_ne_nil, hvalue, show 1 * (e.natAbs : ℤ) = e by omega]

/-- A number in parts: the digits in front of the point, what a fraction gives, what an exponent
gives. -/
theorem number_of_parts (int : List Char) {frac rest₁ rest₂ r : List Char} {e : ℤ} (hne : int ≠ [])
    (hzero : int.length = 1 ∨ int.head? ≠ some '0') (hd : ∀ c ∈ int, isDigit c = true)
    (hrest : NoDigit rest₁) (hfrac : fraction rest₁ = some (frac, rest₂))
    (hexp : exponent rest₂ = some (e, r)) :
    number (int ++ rest₁) = some (toDouble (decimalValue int frac e), r) := by
  obtain ⟨htake, hdrop⟩ := span_digits hd hrest
  have hsign : char? '-' (int ++ rest₁) = none := by
    refine char?_of_head ?_
    rw [List.head?_append_of_ne_nil _ hne]
    intro h
    exact absurd (hd '-' (List.mem_of_mem_head? h)) (by decide)
  unfold number
  rw [hsign]
  dsimp only [Option.isSome_none, Option.getD_none]
  rw [htake, hdrop, hfrac, if_neg]
  · dsimp only [bind, Option.bind]
    rw [hexp]
    rfl
  · rintro (h | ⟨hlen, hhead⟩)
    · exact hne h
    · exact hzero.elim hlen fun h => h hhead

theorem digitsValue_append (ds es : List Char) :
    digitsValue (ds ++ es) = digitsValue ds * 10 ^ es.length + digitsValue es := by
  have hfold : ∀ (es : List Char) (n : ℕ), es.foldl (fun n c => 10 * n + (c.toNat - 48)) n =
      n * 10 ^ es.length + digitsValue es := by
    intro es
    induction es with
    | nil => intro n; simp [digitsValue]
    | cons c es ih =>
      intro n
      unfold digitsValue
      rw [List.foldl_cons, ih, List.foldl_cons, ih, List.length_cons, pow_succ]
      ring
  unfold digitsValue
  rw [List.foldl_append, hfold]
  rfl

theorem digitsValue_zeros (n : ℕ) : digitsValue (List.replicate n '0') = 0 := by
  induction n with
  | zero => rfl
  | succ n ih =>
    rw [List.replicate_succ, show '0' :: List.replicate n '0' = ['0'] ++ List.replicate n '0' from rfl,
      digitsValue_append, ih]
    simp [digitsValue]

theorem decimalValue_of (ds : List Char) {int frac : List Char} {e n : ℤ}
    (hdigits : digitsValue (int ++ frac) = digitsValue ds) (he : e - frac.length = n - ds.length) :
    decimalValue int frac e = (digitsValue ds : ℚ) * 10 ^ (n - ds.length) := by
  unfold decimalValue
  rw [hdigits, he]

theorem isDigit_singleton {d : Char} (hd : isDigit d = true) : ∀ c ∈ [d], isDigit c = true :=
  fun _ hc => List.mem_singleton.mp hc ▸ hd

theorem isDigit_zeros {n : ℕ} {c : Char} (h : c ∈ List.replicate n '0') : isDigit c = true := by
  rw [(List.mem_replicate.mp h).2]
  decide

section
variable {ds r : List Char}

theorem Stops.fraction_none (hr : Stops r) : fraction r = some ([], r) :=
  Json.fraction_none fun h => (hr '.' h).2.1 rfl

theorem Stops.exponent_none (hr : Stops r) : exponent r = some (0, r) :=
  Json.exponent_none (fun h => (hr 'e' h).2.2.1 rfl) fun h => (hr 'E' h).2.2.2 rfl

/-- Digits with zeros behind them. -/
theorem number_zeros (hne : ds ≠ []) (hd : ∀ c ∈ ds, isDigit c = true)
    (hzero : ds.head? ≠ some '0') (hr : Stops r) (z : ℕ) : number (ds ++ List.replicate z '0' ++ r) =
    some (toDouble ((digitsValue ds : ℚ) * 10 ^ (z : ℤ)), r) := by
  rw [number_of_parts _ (by simp [hne]) (Or.inr (by rwa [List.head?_append_of_ne_nil _ hne]))
    (fun c hc => (List.mem_append.mp hc).elim (hd c) isDigit_zeros) hr.noDigit hr.fraction_none
    hr.exponent_none]
  congr 3
  unfold decimalValue
  rw [List.append_nil, digitsValue_append, digitsValue_zeros, List.length_replicate]
  simp

/-- Digits with the point among them. -/
theorem number_pointed (hd : ∀ c ∈ ds, isDigit c = true) (hzero : ds.head? ≠ some '0')
    (hr : Stops r) {m : ℕ} (hm : 0 < m) (hlen : m < ds.length) :
    number (ds.take m ++ '.' :: ds.drop m ++ r) =
      some (toDouble ((digitsValue ds : ℚ) * 10 ^ ((m : ℤ) - ds.length)), r) := by
  have hfront : ds.take m ≠ [] := by
    intro h
    have := congrArg List.length h
    rw [List.length_take, List.length_nil] at this
    omega
  have hback : ds.drop m ≠ [] := by
    intro h
    have := congrArg List.length h
    rw [List.length_drop, List.length_nil] at this
    omega
  rw [List.append_assoc, List.cons_append, number_of_parts _ hfront ?_
    (fun c hc => hd c (List.mem_of_mem_take hc)) (noDigit_cons (by decide))
    (fraction_some hback (fun c hc => hd c (List.mem_of_mem_drop hc)) hr.noDigit) hr.exponent_none]
  · rw [decimalValue_of ds (n := m) (by rw [List.take_append_drop])]
    rw [List.length_drop]
    omega
  · right
    rwa [List.head?_take, if_neg hm.ne']

/-- Digits behind a zero, the point and more zeros. -/
theorem number_small (hne : ds ≠ []) (hd : ∀ c ∈ ds, isDigit c = true) (hr : Stops r) (z : ℕ) :
    number ('0' :: '.' :: (List.replicate z '0' ++ ds) ++ r) =
      some (toDouble ((digitsValue ds : ℚ) * 10 ^ (-(z : ℤ) - ds.length)), r) := by
  have hdigits : ∀ c ∈ List.replicate z '0' ++ ds, isDigit c = true :=
    fun c hc => (List.mem_append.mp hc).elim isDigit_zeros (hd c)
  have hparts := number_of_parts ['0'] (List.cons_ne_nil _ _) (Or.inl rfl)
    (isDigit_singleton (by decide))
    (noDigit_cons (r := List.replicate z '0' ++ ds ++ r) (by decide))
    (fraction_some (by simp [hne]) hdigits hr.noDigit) hr.exponent_none
  rw [decimalValue_of ds (n := -z) ?_ ?_] at hparts
  · exact hparts
  · rw [digitsValue_append, digitsValue_append, digitsValue_zeros]
    simp [digitsValue]
  · rw [List.length_append, List.length_replicate]
    push_cast
    ring

/-- Digits with the point behind the first of them, and an exponent. -/
theorem number_scientific (ds : List Char) (hr : Stops r) (e : ℤ) : ds ≠ [] →
    (∀ c ∈ ds, isDigit c = true) →
    number ((match ds with
      | [d] => [d]
      | d :: r => d :: '.' :: r
      | [] => []) ++ 'e' :: (if e < 0 then '-' else '+') :: Nat.toDigits 10 e.natAbs ++ r) =
      some (toDouble ((digitsValue ds : ℚ) * 10 ^ (e + 1 - ds.length)), r) := by
  intro hne hd
  match ds with
  | [] => exact absurd rfl hne
  | [d] =>
    have hparts := number_of_parts [d] (List.cons_ne_nil _ _) (Or.inl rfl) hd
      (noDigit_cons (by decide)) (Json.fraction_none (by simp)) (exponent_some e hr.noDigit)
    rw [decimalValue_of [d] (n := e + 1) rfl (by simp)] at hparts
    simpa using hparts
  | d :: d' :: ds =>
    have hrest : ∀ c ∈ d' :: ds, isDigit c = true := fun c hc => hd c (List.mem_cons_of_mem d hc)
    have hparts := number_of_parts [d] (List.cons_ne_nil _ _) (Or.inl rfl)
      (fun c hc => hd c (by simp [List.mem_singleton.mp hc]))
      (noDigit_cons (by decide))
      (fraction_some (List.cons_ne_nil _ _) hrest (noDigit_cons (by decide)))
      (exponent_some e hr.noDigit)
    rw [decimalValue_of (d :: d' :: ds) (n := e + 1) rfl (by simp)] at hparts
    simpa using hparts

/-- However the digits are laid out, they read back as themselves. -/
theorem number_layOut (hne : ds ≠ []) (hd : ∀ c ∈ ds, isDigit c = true)
    (hzero : ds.head? ≠ some '0') (hr : Stops r) (n : ℤ) : number (layOut ds n ++ r) =
      some (toDouble ((digitsValue ds : ℚ) * 10 ^ (n - ds.length)), r) := by
  unfold layOut
  dsimp only
  by_cases hint : (ds.length : ℤ) ≤ n ∧ n ≤ 21
  · rw [if_pos hint, number_zeros hne hd hzero hr, show ((n.toNat - ds.length : ℕ) : ℤ) =
      n - ds.length by omega]
  rw [if_neg hint]
  by_cases hpointed : 0 < n ∧ n ≤ 21
  · rw [if_pos hpointed, number_pointed hd hzero hr (by omega) (by omega),
      Int.toNat_of_nonneg hpointed.1.le]
  rw [if_neg hpointed]
  by_cases hsmall : -6 < n ∧ n ≤ 0
  · rw [if_pos hsmall, number_small hne hd hr, Int.toNat_of_nonneg (by omega), neg_neg]
  rw [if_neg hsmall]
  have hscientific := number_scientific ds hr (n - 1) hne hd
  rwa [sub_add_cancel] at hscientific

end

theorem head_toDigits {n : ℕ} (hn : 0 < n) : (Nat.toDigits 10 n).head? ≠ some '0' := by
  induction n using Nat.strong_induction_on with
  | _ n ih =>
    by_cases hsmall : n < 10
    · rw [Nat.toDigits_of_lt_base hsmall]
      have hdigit : ∀ m < 10, 0 < m → [Nat.digitChar m].head? ≠ some '0' := by decide
      exact hdigit n hsmall hn
    · rw [Nat.toDigits_of_base_le (by norm_num) (by omega),
        List.head?_append_of_ne_nil _ Nat.toDigits_ne_nil]
      exact ih (n / 10) (by omega) (by omega)

theorem length_toDigits {s k : ℕ} (hk : 1 ≤ k) (hlow : 10 ^ (k - 1) ≤ s) (hhigh : s < 10 ^ k) :
    (Nat.toDigits 10 s).length = k := by
  have hle : (Nat.toDigits 10 s).length ≤ k :=
    (Nat.length_toDigits_le_iff (by norm_num) hk).mpr hhigh
  have hge : ¬(Nat.toDigits 10 s).length ≤ k - 1 := by
    intro h
    by_cases hone : k - 1 = 0
    · have := Nat.length_toDigits_pos (b := 10) (n := s)
      omega
    · have := (Nat.length_toDigits_le_iff (by norm_num) (Nat.pos_of_ne_zero hone)).mp h
      omega
  omega

/-- A positive number reads back from its text. -/
theorem number_positiveText {x : ℚ} (hx : 0 < x) (h : toDouble x = .fin x) {r : List Char}
    (hr : Stops r) : number (positiveText x ++ r) = some (.fin x, r) := by
  have hdigits : ∀ n : ℕ, ∀ c ∈ Nat.toDigits 10 n, isDigit c = true :=
    fun n c hc => (digit_of_mem_toDigits hc).1
  unfold positiveText
  by_cases hint : x.den = 1 ∧ x.num.natAbs ≤ 2 ^ 53
  · have hnum : 0 < x.num := Rat.num_pos.mpr hx
    have hread := number_zeros Nat.toDigits_ne_nil (hdigits x.num.natAbs)
      (head_toDigits (Int.natAbs_pos.mpr hnum.ne')) hr 0
    rw [if_pos hint]
    rw [digitsValue_toDigits, List.replicate_zero, List.append_nil] at hread
    rw [hread, Nat.cast_natAbs, abs_of_pos hnum, (Rat.den_eq_one_iff x).mp hint.1]
    simp [h]
  · rw [if_neg hint]
    dsimp only
    have hlow : (10 : ℚ) ^ (Int.log 10 x + 1 - 1) ≤ x := by
      rw [add_sub_cancel_right]
      exact_mod_cast Int.zpow_log_le_self (b := 10) (by norm_num) hx
    have hhigh : x < 10 ^ (Int.log 10 x + 1) := by
      exact_mod_cast Int.lt_zpow_succ_log_self (b := 10) (by norm_num) x
    generalize Int.log 10 x + 1 = n at hlow hhigh
    cases hsk : shortestDigits x n with
    | mk s k =>
      obtain ⟨hk, hslow, hshigh, hback⟩ := shortestDigits_spec hx h hlow hhigh hsk
      dsimp only
      by_cases hcarry : s = 10 ^ k
      · rw [if_pos hcarry, number_layOut (List.cons_ne_nil _ _) (isDigit_singleton (by decide))
          (by decide) hr, ← hback, hcarry]
        congr 3
        rw [show digitsValue ['1'] = 1 from rfl, List.length_singleton]
        push_cast
        rw [one_mul, add_sub_cancel_right, ← zpow_natCast, ← zpow_add₀ (by norm_num)]
        congr 1
        ring
      · have hspos : 0 < s := lt_of_lt_of_le (by positivity) hslow
        rw [if_neg hcarry, number_layOut Nat.toDigits_ne_nil (hdigits s) (head_toDigits hspos) hr,
          digitsValue_toDigits, length_toDigits hk hslow (lt_of_le_of_ne hshigh hcarry), hback]

/-- Rounding does not look at the sign. -/
theorem toDouble_neg (q : ℚ) : toDouble (-q) = (toDouble q).neg := by
  have hpos : ∀ q : ℚ, 0 < q → toDouble (-q) = (toDouble q).neg := by
    intro q hq
    unfold toDouble
    rw [Rat.neg_den, Rat.neg_num, Int.natAbs_neg, abs_neg]
    split
    · rfl
    · dsimp only
      rw [decide_eq_true (neg_lt_zero.mpr hq), decide_eq_false (not_lt.mpr hq.le),
        if_pos (neg_lt_zero.mpr hq), if_neg (not_lt.mpr hq.le)]
      split <;> rfl
  rcases lt_trichotomy q 0 with hneg | rfl | hq
  · have h := hpos (-q) (neg_pos.mpr hneg)
    rw [neg_neg] at h
    rw [h]
    cases toDouble (-q) <;> simp [JsNum.neg]
  · rw [neg_zero, show toDouble 0 = .fin 0 from isDouble_zero]
    simp [JsNum.neg]
  · exact hpos q hq

theorem head_layOut {ds : List Char} (hne : ds ≠ []) (hd : ∀ c ∈ ds, isDigit c = true) (n : ℤ) :
    ∃ c cs, layOut ds n = c :: cs ∧ isDigit c = true := by
  obtain ⟨d, ds, rfl⟩ := List.exists_cons_of_ne_nil hne
  have hfirst := hd d List.mem_cons_self
  unfold layOut
  dsimp only
  split
  · exact ⟨d, _, rfl, hfirst⟩
  · split
    · rename_i h
      obtain ⟨m, hm⟩ : ∃ m : ℕ, n.toNat = m + 1 := ⟨n.toNat - 1, by omega⟩
      rw [hm, List.take_succ_cons]
      exact ⟨d, _, rfl, hfirst⟩
    · split
      · exact ⟨'0', _, rfl, by decide⟩
      · cases ds with
        | nil => exact ⟨d, _, rfl, hfirst⟩
        | cons d' ds => exact ⟨d, _, rfl, hfirst⟩

theorem head_positiveText (x : ℚ) : ∃ c cs, positiveText x = c :: cs ∧ isDigit c = true := by
  have hdigits : ∀ n : ℕ, ∀ c ∈ Nat.toDigits 10 n, isDigit c = true :=
    fun n c hc => (digit_of_mem_toDigits hc).1
  unfold positiveText
  split
  · obtain ⟨d, ds, hds⟩ := List.exists_cons_of_ne_nil
      (Nat.toDigits_ne_nil (n := x.num.natAbs) (b := 10))
    rw [hds]
    exact ⟨d, ds, rfl, hdigits x.num.natAbs d (by rw [hds]; exact List.mem_cons_self)⟩
  · dsimp only
    split
    · exact head_layOut (List.cons_ne_nil _ _) (isDigit_singleton (by decide)) _
    · exact head_layOut Nat.toDigits_ne_nil (hdigits _) _

/-- A sign in front of a number that has none. -/
theorem number_minus {c : Char} (hc : isDigit c = true) (cs : List Char) :
    number ('-' :: c :: cs) = (number (c :: cs)).map fun p => (p.1.neg, p.2) := by
  have hsign : char? '-' (c :: cs) = none := by
    refine char?_of_ne ?_ cs
    rintro rfl
    exact absurd hc (by decide)
  unfold number
  rw [char?_self, hsign]
  dsimp only [Option.isSome_some, Option.isSome_none, Option.getD_some, Option.getD_none]
  split
  · rfl
  · cases fraction ((c :: cs).dropWhile isDigit) with
    | none => rfl
    | some p =>
      dsimp only [bind, Option.bind]
      cases exponent p.2 with
      | none => rfl
      | some q => rfl

/-- A number reads back from its text. -/
theorem number_toText {q : ℚ} (h : toDouble q = .fin q) {r : List Char} (hr : Stops r) :
    number ((JsNum.fin q).toText.toList ++ r) = some (.fin q, r) := by
  unfold JsNum.toText
  dsimp only
  by_cases hzero : q = 0
  · have hread := number_of_parts ['0'] (List.cons_ne_nil _ _) (Or.inl rfl)
      (isDigit_singleton (by decide)) hr.noDigit hr.fraction_none hr.exponent_none
    have hvalue : decimalValue ['0'] [] 0 = 0 := by simp [decimalValue, digitsValue]
    rw [hvalue, show toDouble 0 = .fin 0 from isDouble_zero] at hread
    rw [if_pos hzero, hzero]
    exact hread
  rw [if_neg hzero]
  by_cases hneg : q < 0
  · have hdouble : toDouble (-q) = .fin (-q) := by
      rw [toDouble_neg, h]
      rfl
    have hread := number_positiveText (neg_pos.mpr hneg) hdouble hr
    obtain ⟨c, cs, hhead, hc⟩ := head_positiveText (-q)
    rw [hhead, List.cons_append] at hread
    rw [if_pos hneg, String.toList_ofList, hhead, List.cons_append, List.cons_append,
      number_minus hc, hread]
    simp [JsNum.neg]
  · rw [if_neg hneg, String.toList_ofList]
    exact number_positiveText (lt_of_le_of_ne (not_lt.mp hneg) (Ne.symm hzero)) h hr

end JtfpMall.Js.Json

namespace JtfpMall.Js

theorem toList_toText_ofNat {n : ℕ} (hpos : 0 < n) (hn : n ≤ 2 ^ 53) :
    (JsNum.ofNat n).toText.toList = Nat.toDigits 10 n := by
  unfold JsNum.ofNat JsNum.toText
  dsimp only
  have hpos' : (0 : ℚ) < (n : ℚ) := by exact_mod_cast hpos
  rw [if_neg hpos'.ne', if_neg (not_lt.mpr hpos'.le), String.toList_ofList]
  unfold positiveText
  rw [if_pos ⟨Rat.den_natCast n, by simpa using hn⟩, Rat.num_natCast, Int.natAbs_natCast]

theorem trimmed_toDigits (n : ℕ) : Trimmed (Nat.toDigits 10 n) := by
  constructor
  · intro c hc
    exact (digit_of_mem_toDigits (List.mem_of_mem_head? hc)).2.1
  · intro c hc
    exact (digit_of_mem_toDigits (List.mem_of_mem_getLast? hc)).2.1

theorem decimalLiteral_toDigits (n : ℕ) : decimalLiteral (Nat.toDigits 10 n) = some (n : ℚ) := by
  have hall : ∀ c ∈ Nat.toDigits 10 n, isDigit c = true := fun c hc => (digit_of_mem_toDigits hc).1
  unfold decimalLiteral
  rw [List.takeWhile_eq_self_iff.mpr hall, List.dropWhile_eq_nil_iff.mpr hall]
  dsimp only
  rw [if_neg Nat.toDigits_ne_nil, exponentPart, Option.map_some, decimalValue, List.append_nil,
    digitsValue_toDigits]
  simp

/-- `Number(String(n))`. -/
theorem stringToNumber_toText {n : ℕ} (hpos : 0 < n) (hn : n ≤ 2 ^ 53) :
    stringToNumber (JsNum.ofNat n).toText = .ofNat n := by
  have hlit : unsignedLiteral (Nat.toDigits 10 n) = .ofNat n := by
    unfold unsignedLiteral
    rw [if_neg, decimalLiteral_toDigits]
    · exact toDouble_natCast hn
    · intro he
      have hI : 'I' ∈ Nat.toDigits 10 n := he ▸ by decide
      exact absurd (digit_of_mem_toDigits hI).1 (by decide)
  unfold stringToNumber
  rw [toList_toText_ofNat hpos hn, (trimmed_toDigits n).trimChars_eq]
  have hhead := Json.head_toDigits hpos
  have hall : ∀ c ∈ Nat.toDigits 10 n, c ≠ '-' ∧ c ≠ '+' := fun c hc =>
    (digit_of_mem_toDigits hc).2.2
  split
  · rename_i h
    exact absurd h Nat.toDigits_ne_nil
  · rename_i h
    exact absurd rfl (hall '+' (h ▸ List.mem_cons_self)).2
  · rename_i h
    exact absurd rfl (hall '-' (h ▸ List.mem_cons_self)).1
  · rename_i h
    rw [h] at hhead
    exact absurd rfl hhead
  · exact hlit

end JtfpMall.Js
