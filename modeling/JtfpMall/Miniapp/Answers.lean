import JtfpMall.Miniapp.Checkout

/-!
# What a client reads of an answer

An answer is sent as JSON text. The rows in it lose what is not there and keep the rest, and the
list of a page comes with its total.
-/

namespace JtfpMall.Miniapp

open JtfpMall.Js
open JtfpMall.Lib

theorem viaJsonFields_entries (fs : List (String × JsVal)) : JsVal.viaJsonFields fs =
    fs.filterMap fun p => (JsVal.kept p.2).map fun w => (p.1, w) := by
  induction fs with
  | nil => rfl
  | cons p fs ih =>
    rw [JsVal.viaJsonFields, List.filterMap_cons, ← ih]
    by_cases hp : p.2 = .undefined
    · rw [if_pos (JsVal.viaJson_eq_undefined.mpr hp), JsVal.kept, if_pos hp]
      rfl
    · rw [if_neg fun h => hp (JsVal.viaJson_eq_undefined.mp h), JsVal.kept, if_neg hp]
      rfl

theorem viaJson_row (r : Row) : (JsVal.obj r.entries).viaJson = .obj r.viaJson.entries := by
  rw [JsVal.viaJson, viaJsonFields_entries]
  rfl

theorem viaJsonList_rows (rs : List Row) :
    JsVal.viaJsonList (rs.map fun r => .obj r.entries) = rs.map fun r => .obj r.viaJson.entries := by
  induction rs with
  | nil => rfl
  | cons r rs ih =>
    rw [List.map_cons, JsVal.viaJsonList, viaJson_row, ih]
    rfl

/-- A row that was sent is read as it was. -/
theorem ofList_entries (r : Row) : Dict.ofList r.entries = r := Dict.ext (Dict.entries_ofList r.nodup)

theorem dataOf_eq (res : Response) : dataOf res =
    .obj (res.body.filterMap fun p => (JsVal.kept (fieldOf p.2)).map fun w => (p.1, w)) := by
  rw [dataOf, JsVal.viaJson, viaJsonFields_entries, List.filterMap_map]
  rfl

theorem kept_number (n : ℕ) : JsVal.kept (fieldOf (.number n)) = some (.num (.ofNat n)) := by
  change JsVal.kept (.num (.ofNat n)) = _
  rw [JsVal.kept, if_neg JsVal.noConfusion, JsVal.viaJson, if_pos]
  rfl

theorem kept_rows (rs : List Row) :
    JsVal.kept (fieldOf (.rows rs)) = some (.arr (rs.map fun r => .obj r.viaJson.entries)) := by
  change JsVal.kept (.arr (rs.map fun r => .obj r.entries)) = _
  rw [JsVal.kept, if_neg JsVal.noConfusion, JsVal.viaJson, viaJsonList_rows]

section
variable (total : ℕ) (page size : JsNum) (names : List String) (rs : List Row)

/-- An answer with a page, which it has under each of the names. -/
theorem dataOf_listPage : ∃ p n,
    dataOf (listPage total page size (names.map fun name => (name, .rows rs))) =
      .obj ([("total", .num (.ofNat total)), ("page", p), ("pageSize", n)] ++
        names.map fun name => (name, .arr (rs.map fun r => .obj r.viaJson.entries))) := by
  have hnames : (names.map fun name => (name, Reply.rows rs)).filterMap (fun p =>
      (JsVal.kept (fieldOf p.2)).map fun w => (p.1, w)) =
        names.map fun name => (name, .arr (rs.map fun r => .obj r.viaJson.entries)) := by
    rw [List.filterMap_map]
    simp only [Function.comp_def, kept_rows, Option.map_some]
    exact congrFun List.filterMap_eq_map' names
  have hnum : ∀ n : JsNum, JsVal.kept (fieldOf (.val (.num n))) = some (JsVal.num n).viaJson := by
    intro n
    change JsVal.kept (.num n) = _
    rw [JsVal.kept, if_neg JsVal.noConfusion]
  refine ⟨(JsVal.num page).viaJson, (JsVal.num size).viaJson, ?_⟩
  rw [dataOf_eq]
  change JsVal.obj (([("total", Reply.number total), ("page", .val (.num page)),
    ("pageSize", .val (.num size))] ++ _).filterMap _) = _
  rw [List.filterMap_append, hnames]
  simp [kept_number, hnum]

theorem resolved_listPage (fields : List (String × Reply)) :
    resolved (listPage total page size fields) = some (dataOf (listPage total page size fields)) :=
  if_pos ⟨Nat.le_refl 200, Nat.lt_of_sub_pos (Nat.succ_pos _)⟩

end

end JtfpMall.Miniapp
