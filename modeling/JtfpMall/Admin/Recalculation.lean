import JtfpMall.Admin.ModuleTabs
import JtfpMall.Lib.Rules

/-!
# What the property form calculates

Loading a property assigns its fields to the form, and that sets off the watchers of the prices, the
area and the rates: each calculates other fields of the form when its numbers are positive. The form is
then saved as a whole. The arithmetic here is exact, with two places behind the point.
-/

namespace JtfpMall.Admin

open JtfpMall.Js
open JtfpMall.Lib

/-- The exponent behind a decimal, zero when it is none. -/
def exponentPrefix : List Char → ℤ
  | [] => 0
  | c :: cs =>
    if c = 'e' ∨ c = 'E' then
      let (neg, ds) := match cs with
        | '-' :: ds => (true, ds)
        | '+' :: ds => (false, ds)
        | ds => (false, ds)
      let value : ℤ := digitsValue (ds.takeWhile isDigit)
      if neg then -value else value
    else 0

/-- The longest unsigned decimal in front of a text. -/
def decimalPrefix (cs : List Char) : JsNum :=
  if "Infinity".toList <+: cs then .inf false
  else
    let int := cs.takeWhile isDigit
    match cs.dropWhile isDigit with
    | '.' :: r =>
      if int = [] ∧ r.takeWhile isDigit = [] then .nan
      else .fin (decimalValue int (r.takeWhile isDigit) (exponentPrefix (r.dropWhile isDigit)))
    | r => if int = [] then .nan else .fin (decimalValue int [] (exponentPrefix r))

def parseFloat (s : String) : JsNum :=
  match s.toList.dropWhile isSpace with
  | '-' :: cs => (decimalPrefix cs).neg
  | '+' :: cs => decimalPrefix cs
  | cs => decimalPrefix cs

/-- `isNaN(num) ? 0 : num`. -/
def orZero : JsNum → JsNum
  | .nan => .fin 0
  | n => n

def quotient : JsNum → JsNum → JsNum
  | .fin p, .fin q => .fin (p / q)
  | m, n => m.div n

def product : JsNum → JsNum → JsNum
  | .fin p, .fin q => .fin (p * q)
  | m, n => m.mul n

def difference : JsNum → JsNum → JsNum
  | .fin p, .fin q => .fin (p - q)
  | m, n => m.sub n

def positive (n : JsNum) : Bool := (JsNum.fin 0).lt? n == some true

def parseNum (val : JsVal) : Except JsError JsNum :=
  if val.truthy then val.toText.map fun s => orZero (parseFloat s) else .ok (.fin 0)

def parsePercent (val : JsVal) : Except JsError JsNum :=
  if val.truthy then
    match val with
    | .str s => .ok (quotient (orZero (parseFloat (String.ofList (s.toList.erase '%')))) (.fin 100))
    | _ => .error (notAFunction "val.replace")
  else .ok (.fin 0)

/-- Two places behind the point, without the zeros at the end. -/
def hundredths (n : ℕ) : String :=
  toString (n / 100) ++
    if n % 100 = 0 then ""
    else if n % 10 = 0 then "." ++ toString (n % 100 / 10)
    else "." ++ toString (n % 100 / 10) ++ toString (n % 10)

/-- `parseFloat(val.toFixed(2)).toString()`, and nothing for zero. -/
def formatResult : JsNum → String
  | .fin q =>
    let n := ⌊|q| * 100 + 1 / 2⌋.toNat
    if q = 0 then ""
    else if q < 0 ∧ n ≠ 0 then "-" ++ hundredths n
    else hundredths n
  | n => n.toText

example : formatResult (.fin (100 / 3)) = "33.33" := by decide +kernel

/-- A field and what it is calculated as from two numbers, when they allow it. -/
structure Target where
  field : String
  formula : JsNum → JsNum → Option JsNum

structure Watcher where
  first : String
  second : String
  readSecond : JsVal → Except JsError JsNum
  targets : List Target

/-- `if (price > 0 && area > 0)`. -/
def whenBoth (formula : JsNum → JsNum → JsNum) (m n : JsNum) : Option JsNum :=
  if positive m && positive n then some (formula m n) else none

/-- `if (price > 0)`. -/
def share (percent : ℚ) (m _n : JsNum) : Option JsNum :=
  if positive m then some (product m (.fin (percent / 100))) else none

def startingUnitPrice : Watcher :=
  ⟨"starting_price", "building_area", parseNum, [⟨"starting_unit_price", whenBoth quotient⟩]⟩

def evaluation : Watcher :=
  ⟨"evaluation_total_price", "building_area", parseNum,
    [⟨"evaluation_unit_price", whenBoth quotient⟩, ⟨"loan_70_percent", share 70⟩,
      ⟨"loan_80_percent", share 80⟩, ⟨"loan_90_percent", share 90⟩]⟩

def marketUnitPrice : Watcher :=
  ⟨"market_total_price", "building_area", parseNum, [⟨"market_unit_price", whenBoth quotient⟩]⟩

/-- A tax of the starting price. -/
def tax (rate amount : String) : Watcher :=
  ⟨"starting_price", rate, parsePercent, [⟨amount, whenBoth product⟩]⟩

def deedTax : Watcher := tax "deed_tax_rate" "deed_tax_amount"

def vat : Watcher := tax "vat_rate" "vat_amount"

def incomeTax : Watcher := tax "income_tax_rate" "income_tax_amount"

def profitSpace : Watcher :=
  ⟨"market_total_price", "starting_price", parseNum, [⟨"profit_space", whenBoth difference⟩]⟩

/-- The watchers in the order they run in. -/
def watchers : List Watcher :=
  [startingUnitPrice, evaluation, marketUnitPrice, deedTax, vat, incomeTax, profitSpace]

namespace Watcher

def assign (m n : JsNum) (form : Row) (target : Target) : Row :=
  match target.formula m n with
  | some v => form.set target.field (.str (formatResult v))
  | none => form

/-- The callback. What it throws goes to the console. -/
def run (w : Watcher) (form : Row) : Row :=
  match parseNum (form.get w.first), w.readSecond (form.get w.second) with
  | .ok m, .ok n => w.targets.foldl (assign m n) form
  | _, _ => form

/-- A watcher runs when one of its two values is another than before. -/
def watch (before : Row) (form : Row) (w : Watcher) : Row :=
  if form.get w.first = before.get w.first ∧ form.get w.second = before.get w.second then form
  else w.run form

/-- The text calculated for a field from the values of the watched pair. -/
def calculated (w : Watcher) (first second : JsVal) (k : String) : Option JsVal :=
  match parseNum first, w.readSecond second with
  | .ok m, .ok n => (w.targets.find? fun t => t.field = k).bind fun t =>
      (t.formula m n).map fun v => .str (formatResult v)
  | _, _ => none

end Watcher

/-- The texts of an empty form. -/
def textFields : List String :=
  ["community_name", "detail_address", "building_area", "house_type", "floor_info", "building_year",
    "decoration_status", "property_status", "holding_years", "property_type", "auction_time",
    "bidding_phase", "auction_platform", "auction_deposit", "price_increment", "starting_price",
    "starting_unit_price", "evaluation_total_price", "evaluation_unit_price", "loan_70_percent",
    "loan_80_percent", "loan_90_percent", "market_total_price", "market_unit_price",
    "school_district", "business_circle", "profit_space", "auth_code", "deed_tax_rate",
    "deed_tax_amount", "vat_rate", "vat_amount", "income_tax_rate", "income_tax_amount",
    "customer_name", "customer_phone", "customer_survey_brief", "assigned_salesman", "unionID",
    "openID", "cover_url"]

def emptyFields : List (String × JsVal) :=
  textFields.map (fun k => (k, .str "")) ++
    [("status", .num (.fin 0)), ("is_featured", .num (.fin 0)), ("category_id", .null),
      ("images", .arr []), ("sort_order", .num (.fin 0))]

/-- `form` as it is set up. -/
def emptyForm : Row := Dict.ofList emptyFields

/-- The form after `Object.assign(form, data)`. -/
def loaded (row : Row) : Row := emptyForm.spread row.viaJson

/-- The form after the watchers. -/
def recalculated (row : Row) : Row :=
  watchers.foldl (fun form w => w.watch emptyForm form) (loaded row)

/-- `v.length`. -/
def lengthOf : JsVal → Except JsError JsVal
  | .arr xs => .ok (.num (.ofNat xs.length))
  | .str s => .ok (.num (.ofNat (utf16 s).length))
  | v => v.prop "length"

/-- `v[0]`. -/
def item0 : JsVal → Except JsError JsVal
  | .arr xs => .ok (xs.headD .undefined)
  | .str s => .ok (.str (String.ofList (s.toList.take 1)))
  | v => v.prop "0"

/-- `imageList` after `initImageList`: its errors leave the list empty. -/
def openedImages (row : Row) : JsVal :=
  match lengthOf (initImageList (row.get "images").viaJson) with
  | .ok length =>
    if length.strictEq (.num (.fin 0)) && (row.get "cover_url").viaJson.truthy then
      .arr [(row.get "cover_url").viaJson]
    else initImageList (row.get "images").viaJson
  | .error _ => .arr []

/-- The first of a list that is not empty. -/
def firstItem (images : JsVal) : Except JsError (Option JsVal) := do
  let length ← lengthOf images
  if ← length.gt (.num (.fin 0)) then return some (← item0 images) else return none

/-- `submitData` of a form that was only opened, with the configuration of its tabs. -/
def submitData (moduleConfig : JsVal) (row : Row) : Except JsError Row := do
  let first ← firstItem (openedImages row)
  return (((recalculated row).set "images" (Json.stringify (openedImages row))).set "cover_url"
    (first.getD ((recalculated row).get "cover_url"))).set "module_config" moduleConfig

/-- The row after the property was opened and saved. -/
def OpenedAndSaved (row saved : Row) : Prop :=
  ∃ (form : ModuleForm) (data updates : Row) (now : String),
    submitData form.savedConfig row = .ok data ∧
      PropertyRoutes.withShopFields data.viaJson = .ok updates ∧ saved = Store.merged updates now row

/-- Absent and empty count as equal. -/
def SameText (a b : JsVal) : Prop :=
  a.orNullish (.str "") = b.orNullish (.str "")

/-- The columns of a property that are no texts, and the time of the last change. -/
def notTexts : List String :=
  ["status", "is_featured", "category_id", "sort_order", "price_cent", "images", "module_config",
    "updated_at"]

def Kept (row saved : Row) : Prop := ∀ k, k ∉ notTexts → SameText (row.get k) (saved.get k)

/-- The text the form calculates for a field from the stored ones. -/
def calculatedText (row : Row) (k : String) : Option JsVal :=
  watchers.findSome? fun w => w.calculated (row.get w.first) (row.get w.second) k

/-- Every field that is calculated has the calculated text. -/
def Calculated (row : Row) : Prop := ∀ k v, calculatedText row k = some v → SameText (row.get k) v

/-- The cover is the first image; a `coverUrl` of the row is the cover. -/
def CoverIsFirst (row : Row) : Prop :=
  if row.get "coverUrl" = .undefined then
    ∀ u, firstItem (initImageList (row.get "images")) = .ok (some u) → u ≠ .undefined →
      SameText (row.get "cover_url") u.viaJson
  else SameText (row.get "cover_url") (row.get "coverUrl")

namespace Watcher

theorem get_assign (m n : JsNum) (form : Row) (target : Target) (k : String) :
    (assign m n form target).get k =
      if target.field = k then
        ((target.formula m n).map fun v => .str (formatResult v)).getD (form.get k)
      else form.get k := by
  unfold assign
  cases target.formula m n with
  | none => simp
  | some v =>
    dsimp only
    rw [Dict.get_set]
    by_cases hk : target.field = k
    · rw [if_pos hk, if_pos hk.symm]
      rfl
    · rw [if_neg hk, if_neg (Ne.symm hk)]

theorem get_foldl_assign (m n : JsNum) {targets : List Target}
    (hnodup : (targets.map Target.field).Nodup) (form : Row) (k : String) :
    (targets.foldl (assign m n) form).get k =
      ((targets.find? fun t => t.field = k).bind fun t =>
        (t.formula m n).map fun v => JsVal.str (formatResult v)).getD (form.get k) := by
  induction targets generalizing form with
  | nil => rfl
  | cons target targets ih =>
    rw [List.map_cons, List.nodup_cons] at hnodup
    rw [List.foldl_cons, ih hnodup.2, get_assign, List.find?_cons]
    by_cases hk : target.field = k
    · have hnone : targets.find? (fun t => t.field = k) = none := by
        refine List.find?_eq_none.mpr fun t ht heq => hnodup.1 ?_
        rw [hk, ← of_decide_eq_true heq]
        exact List.mem_map_of_mem ht
      rw [hnone, if_pos hk, decide_eq_true hk]
      rfl
    · rw [if_neg hk, decide_eq_false hk]

/-- What a callback leaves of each field. -/
theorem get_run {w : Watcher} (hnodup : (w.targets.map Target.field).Nodup) (form : Row)
    (k : String) : (w.run form).get k =
      (w.calculated (form.get w.first) (form.get w.second) k).getD (form.get k) := by
  unfold run calculated
  cases parseNum (form.get w.first) with
  | error e => rfl
  | ok m =>
    cases w.readSecond (form.get w.second) with
    | error e => rfl
    | ok n => exact get_foldl_assign m n hnodup form k

theorem calculated_of_not_mem {w : Watcher} {k : String} (h : k ∉ w.targets.map Target.field)
    (first second : JsVal) : w.calculated first second k = none := by
  have hnone : w.targets.find? (fun t => t.field = k) = none := by
    refine List.find?_eq_none.mpr fun t ht heq => h ?_
    rw [← of_decide_eq_true heq]
    exact List.mem_map_of_mem ht
  unfold calculated
  rw [hnone]
  split <;> rfl

/-- The watcher of the form as a rule. -/
def rule (w : Watcher) : Rule String JsVal where
  watched := [w.first, w.second]
  targets := w.targets.map Target.field
  value f k :=
    if f w.first = emptyForm.get w.first ∧ f w.second = emptyForm.get w.second then none
    else w.calculated (f w.first) (f w.second) k
  value_congr f g h := by
    rw [h w.first (by simp), h w.second (by simp)]
  value_eq_none f k h := by rw [calculated_of_not_mem h, ite_self]

theorem get_watch {w : Watcher} (hnodup : (w.targets.map Target.field).Nodup) (form : Row) :
    (w.watch emptyForm form).get = w.rule.apply form.get := by
  funext k
  unfold watch Rule.apply rule
  dsimp only
  split
  · rfl
  · exact get_run hnodup form k

theorem get_foldl_watch {ws : List Watcher} (h : ∀ w ∈ ws, (w.targets.map Target.field).Nodup)
    (form : Row) : (ws.foldl (fun form w => w.watch emptyForm form) form).get =
      Rule.applyAll (ws.map rule) form.get := by
  induction ws generalizing form with
  | nil => rfl
  | cons w ws ih =>
    rw [List.foldl_cons, ih fun w' hw' => h w' (List.mem_cons_of_mem w hw'),
      get_watch (h w List.mem_cons_self)]
    rfl

end Watcher

theorem nodup_targets : ∀ w ∈ watchers, (w.targets.map Target.field).Nodup := by
  decide

theorem separate_watchers : Rule.Separate (watchers.map Watcher.rule) := by
  have hwatched : ∀ w ∈ watchers, ∀ w' ∈ watchers, ∀ k ∈ w.targets.map Target.field,
      k ∉ [w'.first, w'.second] := by
    decide
  have htargets : watchers.Pairwise fun w w' => ∀ k ∈ w.targets.map Target.field,
      k ∉ w'.targets.map Target.field := by
    decide
  constructor
  · intro r hr r' hr'
    obtain ⟨w, hw, rfl⟩ := List.mem_map.mp hr
    obtain ⟨w', hw', rfl⟩ := List.mem_map.mp hr'
    exact hwatched w hw w' hw'
  · exact List.pairwise_map.mpr htargets

/-- Without a value there is nothing to calculate. -/
theorem formula_zero : ∀ w ∈ watchers, ∀ t ∈ w.targets,
    t.formula (.fin 0) (.fin 0) = none := by
  decide

theorem read_empty : ∀ w ∈ watchers, w.readSecond (.str "") = .ok (.fin 0) ∧
    w.readSecond .undefined = .ok (.fin 0) := by
  decide

theorem watched_empty : ∀ w ∈ watchers, emptyForm.get w.first = .str "" ∧
    emptyForm.get w.second = .str "" := by
  decide

theorem has_viaJson (r : Row) (x : String) :
    r.viaJson.has x = decide (r.get x ≠ .undefined) := by
  unfold Dict.has Dict.viaJson Dict.get
  rw [Dict.get?_filterMap]
  cases r.get? x with
  | none => rfl
  | some v =>
    rw [Option.bind_some, Option.getD_some]
    unfold JsVal.kept
    by_cases hv : v = .undefined
    · rw [if_pos hv, decide_eq_false (not_not.mpr hv)]
      rfl
    · rw [if_neg hv, decide_eq_true hv]
      rfl

section
variable {row : Row}

theorem get_loaded (h : row.IsPlain) (k : String) : (loaded row).get k =
    if row.get k = .undefined then emptyForm.get k else row.get k := by
  unfold loaded
  rw [Dict.get_spread, Dict.get_viaJson, has_viaJson, (h k).viaJson_eq]
  by_cases hk : row.get k = .undefined
  · rw [if_pos hk, decide_eq_false (not_not.mpr hk), if_neg Bool.false_ne_true]
  · rw [if_neg hk, decide_eq_true hk, if_pos rfl]

/-- A watcher calculates from the form what it would from the stored row. -/
theorem value_loaded (h : row.IsPlain) {w : Watcher} (hw : w ∈ watchers) (k : String) :
    w.rule.value (loaded row).get k = w.calculated (row.get w.first) (row.get w.second) k := by
  obtain ⟨hfirst, hsecond⟩ := watched_empty w hw
  obtain ⟨hempty, hmissing⟩ := read_empty w hw
  have hread1 : parseNum ((loaded row).get w.first) = parseNum (row.get w.first) := by
    rw [get_loaded h, hfirst]
    split
    · rename_i hnone
      rw [hnone]
      rfl
    · rfl
  have hread2 : w.readSecond ((loaded row).get w.second) = w.readSecond (row.get w.second) := by
    rw [get_loaded h, hsecond]
    split
    · rename_i hnone
      rw [hnone, hempty, hmissing]
    · rfl
  have hsame : w.calculated ((loaded row).get w.first) ((loaded row).get w.second) k =
      w.calculated (row.get w.first) (row.get w.second) k := by
    unfold Watcher.calculated
    rw [hread1, hread2]
  change (if _ then none else _) = _
  rw [hsame]
  refine ite_eq_right_iff.mpr fun hblank => ?_
  rw [← hsame, hblank.1, hblank.2, hfirst, hsecond]
  unfold Watcher.calculated
  rw [hempty]
  change none = (w.targets.find? fun t => t.field = k).bind _
  cases hfind : w.targets.find? fun t => t.field = k with
  | none => rfl
  | some t =>
    rw [Option.bind_some, formula_zero w hw t (List.mem_of_find?_eq_some hfind)]
    rfl

theorem get_recalculated (h : row.IsPlain) (k : String) : (recalculated row).get k =
    (calculatedText row k).getD ((loaded row).get k) := by
  unfold recalculated
  rw [Watcher.get_foldl_watch nodup_targets, Rule.applyAll_eq separate_watchers]
  congr 1
  unfold Rule.valueOf calculatedText
  rw [List.findSome?_map]
  have hvalues : ∀ ws ⊆ watchers, ws.findSome? ((fun r : Rule String JsVal =>
      r.value (loaded row).get k) ∘ Watcher.rule) =
        ws.findSome? fun w => w.calculated (row.get w.first) (row.get w.second) k := by
    intro ws hws
    induction ws with
    | nil => rfl
    | cons w ws ih =>
      rw [List.findSome?_cons, List.findSome?_cons, ih (List.subset_of_cons_subset hws)]
      rw [Function.comp_apply, value_loaded h (hws List.mem_cons_self)]
  exact hvalues watchers (List.Subset.refl _)

theorem calculatedText_str {k : String} {v : JsVal} (h : calculatedText row k = some v) :
    ∃ s, v = .str s := by
  obtain ⟨w, _, hw⟩ := List.exists_of_findSome?_eq_some h
  unfold Watcher.calculated at hw
  split at hw
  · obtain ⟨t, _, ht⟩ := Option.bind_eq_some_iff.mp hw
    obtain ⟨n, _, rfl⟩ := Option.map_eq_some_iff.mp ht
    exact ⟨_, rfl⟩
  · cases hw

theorem calculatedText_none {k : String} (h : ∀ w ∈ watchers, k ∉ w.targets.map Target.field) :
    calculatedText row k = none :=
  List.findSome?_eq_none_iff.mpr fun w hw => Watcher.calculated_of_not_mem (h w hw) _ _

/-- A text the form sets up is empty. -/
theorem emptyForm_text {k : String} (h : k ∉ notTexts) :
    emptyForm.get k = .str "" ∨ emptyForm.get k = .undefined := by
  have hkeys : (emptyFields.map Prod.fst).Nodup := by decide
  by_cases hk : k ∈ textFields
  · refine Or.inl (Dict.get_ofList_of_mem hkeys (List.mem_append_left _ ?_))
    exact List.mem_map.mpr ⟨k, hk, rfl⟩
  · refine Or.inr (Dict.get_ofList_of_not_mem fun hmem => ?_)
    unfold emptyFields at hmem
    rw [List.map_append, List.map_map, List.mem_append] at hmem
    rcases hmem with hmem | hmem
    · obtain ⟨x, hx, rfl⟩ := List.mem_map.mp hmem
      exact hk hx
    · refine h ?_
      simp only [List.map_cons, List.map_nil, List.mem_cons, List.not_mem_nil, or_false] at hmem
      unfold notTexts
      simp only [List.mem_cons, List.not_mem_nil, or_false]
      tauto

/-- Loading changes a missing text to the empty one at most. -/
theorem sameText_loaded (h : row.IsPlain) {k : String} (hk : k ∉ notTexts) :
    SameText (row.get k) ((loaded row).get k) := by
  rw [get_loaded h]
  split
  · rename_i hnone
    rw [hnone]
    rcases emptyForm_text hk with hempty | hempty <;> rw [hempty]
    · exact rfl
    · exact rfl
  · exact rfl

/-- The fields of the shop page are set from names no column has but for four of them. -/
theorem get_withShopFields {body updates : Row}
    (h : PropertyRoutes.withShopFields body = .ok updates) {k : String}
    (hk : k ∉ ["price_cent", "cover_url", "images", "is_featured", "sort_order", "module_config"]) :
    updates.get k = body.get k ∧ updates.has k = body.has k := by
  simp only [List.mem_cons, List.not_mem_nil, or_false, not_or] at hk
  obtain ⟨k1, k2, k3, k4, k5, k6⟩ := hk
  obtain ⟨r1, r2, r3, r4, r5, h1, h2, h3, h4, h5, h6⟩ := withShopFields_steps h
  obtain ⟨g1, e1⟩ := get_setWhenGiven_of_ne k1 h1
  obtain ⟨g2, e2⟩ := get_setWhenGiven_of_ne k2 h2
  obtain ⟨g3, e3⟩ := get_setWhenGiven_of_ne k3 h3
  obtain ⟨g4, e4⟩ := get_setWhenGiven_of_ne k4 h4
  obtain ⟨g5, e5⟩ := get_setWhenGiven_of_ne k5 h5
  obtain ⟨g6, e6⟩ := get_setWhenGiven_of_ne k6 h6
  exact ⟨by rw [g6, g5, g4, g3, g2, g1], by rw [e6, e5, e4, e3, e2, e1]⟩

/-- The cover of the body, unless the body has a `coverUrl`. -/
theorem cover_withShopFields {body updates : Row}
    (h : PropertyRoutes.withShopFields body = .ok updates) :
    if body.get "coverUrl" = .undefined then
      updates.get "cover_url" = body.get "cover_url" ∧
        updates.has "cover_url" = body.has "cover_url"
    else updates.get "cover_url" = body.get "coverUrl" ∧ updates.has "cover_url" = true := by
  obtain ⟨r1, r2, r3, r4, r5, h1, h2, h3, h4, h5, h6⟩ := withShopFields_steps h
  obtain ⟨g1, e1⟩ := get_setWhenGiven_of_ne (k := "cover_url") (by decide) h1
  obtain ⟨g3, e3⟩ := get_setWhenGiven_of_ne (k := "cover_url") (by decide) h3
  obtain ⟨g4, e4⟩ := get_setWhenGiven_of_ne (k := "cover_url") (by decide) h4
  obtain ⟨g5, e5⟩ := get_setWhenGiven_of_ne (k := "cover_url") (by decide) h5
  obtain ⟨g6, e6⟩ := get_setWhenGiven_of_ne (k := "cover_url") (by decide) h6
  rw [g6, g5, g4, g3, e6, e5, e4, e3]
  unfold PropertyRoutes.setWhenGiven at h2
  split
  · rename_i hnone
    rw [if_pos hnone, Except.ok.injEq] at h2
    rw [← h2]
    exact ⟨g1, e1⟩
  · rename_i hsome
    rw [if_neg hsome] at h2
    rw [← Except.ok.inj h2]
    exact ⟨Dict.get_set_self _ _ _, by simp [Dict.has_set]⟩

/-- A field keeps its text exactly when what is calculated for it is that text. -/
theorem sameText_saved_iff (h : row.IsPlain) {config : JsVal} {data updates : Row}
    (hdata : submitData config row = .ok data)
    (hupdates : PropertyRoutes.withShopFields data.viaJson = .ok updates) (now : String) {k : String}
    (hk : k ∉ notTexts) (hcover : k ≠ "cover_url") :
    SameText (row.get k) ((Store.merged updates now row).get k) ↔
      ∀ v, calculatedText row k = some v → SameText (row.get k) v := by
  have hnot : k ≠ "status" ∧ k ≠ "is_featured" ∧ k ≠ "category_id" ∧ k ≠ "sort_order" ∧
      k ≠ "price_cent" ∧ k ≠ "images" ∧ k ≠ "module_config" ∧ k ≠ "updated_at" := by
    simpa [notTexts] using hk
  obtain ⟨_, k2, _, k4, k5, k6, k7, k8⟩ := hnot
  have hget : data.get k = (recalculated row).get k := by
    unfold submitData at hdata
    obtain ⟨first, _, hdata⟩ := bind_ok hdata
    rw [← Except.ok.inj hdata, Dict.get_set_of_ne _ _ k7, Dict.get_set_of_ne _ _ hcover,
      Dict.get_set_of_ne _ _ k6]
  obtain ⟨hvalue, hhas⟩ := get_withShopFields hupdates (k := k) (by simp [*])
  rw [get_merged_of_ne k8, hvalue, hhas, has_viaJson, Dict.get_viaJson, hget, get_recalculated h]
  cases hcalc : calculatedText row k with
  | some v =>
    obtain ⟨s, rfl⟩ := calculatedText_str hcalc
    rw [Option.getD_some, if_pos (by rw [decide_eq_true_eq]; exact JsVal.noConfusion)]
    simp only [Option.some.injEq, forall_eq']
    rfl
  | none =>
    refine iff_of_true ?_ fun v hv => nomatch hv
    rw [Option.getD_none]
    split
    · have hplain : ((loaded row).get k).Storable := by
        rw [get_loaded h]
        split
        · rcases emptyForm_text hk with hempty | hempty <;> rw [hempty]
          · exact JsVal.storable_str _
          · exact Or.inl rfl
        · exact h k
      rw [hplain.viaJson_eq]
      exact sameText_loaded h hk
    · exact rfl

theorem firstItem_nil : firstItem (.arr []) = .ok none := by decide

theorem firstItem_singleton (v : JsVal) : firstItem (.arr [v]) = .ok (some v) := by
  have hlong : (JsVal.num (.ofNat 1)).gt (.num (.fin 0)) = .ok true := by decide
  unfold firstItem
  dsimp only [bind, Except.bind, lengthOf]
  rw [show (JsVal.num (.ofNat [v].length)).gt (.num (.fin 0)) = .ok true from hlong]
  rfl

/-- The images that open are those of the row, or its cover alone, or none; the cover of the form
stands where there is no first image. -/
theorem firstItem_openedImages (h : row.IsPlain) {first : Option JsVal}
    (hfirst : firstItem (openedImages row) = .ok first) :
    (∃ u, first = some u ∧ firstItem (initImageList (row.get "images")) = .ok (some u)) ∨
      (∀ u, firstItem (initImageList (row.get "images")) ≠ .ok (some u)) ∧
        (first = none ∨ first = some (row.get "cover_url")) := by
  unfold openedImages at hfirst
  rw [(h "images").viaJson_eq, (h "cover_url").viaJson_eq] at hfirst
  cases hlength : lengthOf (initImageList (row.get "images")) with
  | error e =>
    rw [hlength] at hfirst
    dsimp only at hfirst
    rw [firstItem_nil, Except.ok.injEq] at hfirst
    refine Or.inr ⟨fun u hu => ?_, Or.inl hfirst.symm⟩
    unfold firstItem at hu
    rw [hlength] at hu
    cases hu
  | ok length =>
    rw [hlength] at hfirst
    dsimp only at hfirst
    split at hfirst
    · rename_i hempty
      rw [Bool.and_eq_true] at hempty
      rw [firstItem_singleton, Except.ok.injEq] at hfirst
      refine Or.inr ⟨fun u hu => ?_, Or.inr hfirst.symm⟩
      have hshort : (JsVal.num (.fin 0)).gt (.num (.fin 0)) = .ok false := by decide
      unfold firstItem at hu
      rw [hlength, JsVal.eq_of_strictEq hempty.1] at hu
      dsimp only [bind, Except.bind] at hu
      rw [hshort] at hu
      cases hu
    · cases first with
      | some u => exact Or.inl ⟨u, rfl, hfirst⟩
      | none =>
        refine Or.inr ⟨fun u hu => ?_, Or.inl rfl⟩
        rw [hfirst] at hu
        cases hu

theorem recalculated_of_not_target (h : row.IsPlain) {k : String}
    (hk : ∀ w ∈ watchers, k ∉ w.targets.map Target.field) :
    (recalculated row).get k = (loaded row).get k := by
  rw [get_recalculated h, calculatedText_none hk]
  rfl

/-- The cover stays exactly when it is the first image. -/
theorem sameText_cover_iff (h : row.IsPlain) {config : JsVal} {data updates : Row}
    (hdata : submitData config row = .ok data)
    (hupdates : PropertyRoutes.withShopFields data.viaJson = .ok updates) (now : String) :
    SameText (row.get "cover_url") ((Store.merged updates now row).get "cover_url") ↔
      CoverIsFirst row := by
  have hloaded := sameText_loaded h (k := "cover_url") (by decide)
  have hplain : ((loaded row).get "cover_url").Storable := by
    rw [get_loaded h]
    split
    · rcases emptyForm_text (k := "cover_url") (by decide) with hempty | hempty <;>
        rw [hempty]
      · exact JsVal.storable_str _
      · exact Or.inl rfl
    · exact h _
  unfold submitData at hdata
  obtain ⟨first, hfirst, hdata⟩ := bind_ok hdata
  have hcover : data.get "cover_url" = first.getD ((loaded row).get "cover_url") := by
    rw [← Except.ok.inj hdata, Dict.get_set_of_ne _ _ (by decide), Dict.get_set_self,
      recalculated_of_not_target h (by decide)]
  have hown : data.get "coverUrl" = row.get "coverUrl" := by
    rw [← Except.ok.inj hdata, Dict.get_set_of_ne _ _ (by decide),
      Dict.get_set_of_ne _ _ (by decide), Dict.get_set_of_ne _ _ (by decide),
      recalculated_of_not_target h (by decide), get_loaded h]
    refine ite_eq_right_iff.mpr fun hnone => ?_
    rw [hnone]
    decide
  have hsaved := cover_withShopFields hupdates
  rw [Dict.get_viaJson, hown, (h _).viaJson_eq, Dict.get_viaJson, has_viaJson, hcover] at hsaved
  unfold CoverIsFirst
  rw [get_merged_of_ne (by decide)]
  by_cases hnone : row.get "coverUrl" = .undefined
  · rw [if_pos hnone] at hsaved ⊢
    rw [hsaved.1, hsaved.2]
    rcases firstItem_openedImages h hfirst with ⟨u, rfl, hu⟩ | ⟨hnot, hno⟩
    · simp only [hu, Except.ok.injEq, Option.some.injEq, forall_eq', Option.getD_some]
      by_cases hmissing : u = .undefined
      · rw [decide_eq_false (not_not.mpr hmissing), if_neg Bool.false_ne_true]
        exact iff_of_true rfl fun hne => absurd hmissing hne
      · rw [decide_eq_true hmissing, if_pos rfl]
        exact ⟨fun hsame _ => hsame, fun hsame => hsame hmissing⟩
    · refine iff_of_true ?_ fun u hu => absurd hu (hnot u)
      rcases hno with rfl | rfl
      · rw [Option.getD_none, hplain.viaJson_eq]
        split
        · exact hloaded
        · exact rfl
      · rw [Option.getD_some, (h _).viaJson_eq]
        split <;> exact rfl
  · rw [if_neg hnone] at hsaved ⊢
    rw [hsaved.1, hsaved.2, if_pos rfl]

/-- What is calculated are texts other than the cover. -/
theorem text_of_calculated {k : String} {v : JsVal} (h : calculatedText row k = some v) :
    k ∉ notTexts ∧ k ≠ "cover_url" := by
  have htargets : ∀ w ∈ watchers, ∀ k ∈ w.targets.map Target.field,
      k ∉ notTexts ∧ k ≠ "cover_url" := by
    decide
  by_contra hnot
  rw [calculatedText_none fun w hw hmem => hnot (htargets w hw k hmem)] at h
  cases h

/-- Opened and saved, a property keeps its texts and its cover exactly when every calculated field
has the calculated text and the cover is the first image. -/
theorem calculated_kept_iff (row saved : Row) (hplain : row.IsPlain)
    (hsaved : OpenedAndSaved row saved) : Kept row saved ↔ Calculated row ∧ CoverIsFirst row := by
  obtain ⟨form, data, updates, now, hdata, hupdates, rfl⟩ := hsaved
  constructor
  · intro hkept
    refine ⟨fun k v hv => ?_, ?_⟩
    · have htarget := text_of_calculated hv
      exact (sameText_saved_iff hplain hdata hupdates now htarget.1 htarget.2).mp
        (hkept k htarget.1) v hv
    · exact (sameText_cover_iff hplain hdata hupdates now).mp (hkept _ (by decide))
  · rintro ⟨hcalculated, hcover⟩ k hk
    by_cases hname : k = "cover_url"
    · rw [hname]
      exact (sameText_cover_iff hplain hdata hupdates now).mpr hcover
    · exact (sameText_saved_iff hplain hdata hupdates now hk hname).mpr (hcalculated k)

end

/-- A property of fifty square metres for a hundred, with a unit price. -/
def handPriced (price : String) : Row :=
  Dict.ofList [("id", .num (.fin 1)), ("community_name", .str "城南"), ("building_area", .str "50"),
    ("starting_price", .str "100"), ("starting_unit_price", .str price)]

theorem plain_handPriced (price : String) : (handPriced price).IsPlain :=
  Dict.isPlain_ofList fun p hp => by
    simp only [List.mem_cons, List.not_mem_nil, or_false] at hp
    rcases hp with rfl | rfl | rfl | rfl | rfl
    · exact JsVal.storable_fin 1
    all_goals exact JsVal.storable_str _

theorem exists_saved (row : Row) (h : ((submitData (ModuleForm.mk [] []).savedConfig row).bind
      fun data => PropertyRoutes.withShopFields data.viaJson).toOption.isSome = true) :
    ∃ saved, OpenedAndSaved row saved := by
  cases hdata : submitData (ModuleForm.mk [] []).savedConfig row with
  | error e =>
    rw [hdata] at h
    cases h
  | ok data =>
    rw [hdata] at h
    cases hupdates : PropertyRoutes.withShopFields data.viaJson with
    | error e =>
      simp only [Except.bind, hupdates] at h
      cases h
    | ok updates => exact ⟨_, ⟨[], []⟩, data, updates, "", hdata, hupdates, rfl⟩

/-- With the calculated price the property is kept. -/
theorem calculatedPrice_kept : ∃ saved, OpenedAndSaved (handPriced "2") saved ∧
    (Kept (handPriced "2") saved ↔ Calculated (handPriced "2") ∧ CoverIsFirst (handPriced "2")) := by
  obtain ⟨saved, hsaved⟩ := exists_saved (handPriced "2") (by decide +kernel)
  exact ⟨saved, hsaved, calculated_kept_iff (handPriced "2") saved (plain_handPriced "2") hsaved⟩

/-- A price set by hand is gone after the property was opened and saved. -/
theorem handPrice_lost : ∃ saved, OpenedAndSaved (handPriced "1.8") saved ∧
    ¬ Kept (handPriced "1.8") saved := by
  obtain ⟨saved, form, data, updates, now, hdata, hupdates, rfl⟩ :=
    exists_saved (handPriced "1.8") (by decide +kernel)
  refine ⟨_, ⟨form, data, updates, now, hdata, hupdates, rfl⟩, fun hkept => ?_⟩
  have hsame := (sameText_saved_iff (plain_handPriced "1.8") hdata hupdates now
    (k := "starting_unit_price") (by decide) (by decide)).mp (hkept _ (by decide))
    (.str "2") (by decide +kernel)
  exact absurd hsame (by unfold SameText; decide)

end JtfpMall.Admin
