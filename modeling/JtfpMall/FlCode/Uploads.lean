import JtfpMall.FlCode.Routes
import Mathlib.Data.List.Forall2

/-!
# What an upload answers for

Every row of the sheet is inserted, a duplicate or badly written. A row is a duplicate when the
table or an earlier row has its phone; the answer counts the rows and names the others.
-/

namespace JtfpMall.FlCode

open JtfpMall.Js
open JtfpMall.Lib

/-- The elements with the ones before them. -/
def withBefore {α : Type} : List α → List α → List (List α × α)
  | _, [] => []
  | before, a :: l => (before, a) :: withBefore (before ++ [a]) l

namespace SheetRow

def valid (row : SheetRow) : Bool := isPhone (cellText row.phone) && isCode (cellText row.code)

/-- The row is stored with its code and note. -/
def StoredAs (row : SheetRow) (r : CodeRow) : Prop :=
  r.phone = cellText row.phone ∧ r.code = cellText row.code ∧
    r.note = if cellText row.note = "" then none else some (cellText row.note)

end SheetRow

def dataRows (rows : List SheetRow) : List SheetRow := rows.filter fun row => decide (row.number ≠ 1)

/-- The rows with a phone and a code, each with the ones before it. -/
def validRows (rows : List SheetRow) : List (List SheetRow × SheetRow) :=
  withBefore [] ((dataRows rows).filter SheetRow.valid)

def invalidRows (rows : List SheetRow) : List SheetRow :=
  (dataRows rows).filter fun row => !row.valid

/-- Neither the table nor an earlier row has the phone. -/
def Fresh (db : Db) (o : List SheetRow × SheetRow) : Prop :=
  (∀ r ∈ db.codes.rows, r.2.phone ≠ cellText o.2.phone) ∧
    ∀ earlier ∈ o.1, cellText earlier.phone ≠ cellText o.2.phone

instance (db : Db) (o : List SheetRow × SheetRow) : Decidable (Fresh db o) :=
  inferInstanceAs (Decidable (_ ∧ _))

/-- The counts and the errors answer for every row. -/
structure Accounted (rows : List SheetRow) (db db' : Db) (success failed : ℕ)
    (formatErrors duplicateErrors : List String) : Prop where
  grown : db'.codes.rows.length = db.codes.rows.length + success
  total : success + failed = (validRows rows).length
  inserted : ∃ new, db'.codes.rows = db.codes.rows ++ new ∧
    List.Forall₂ (fun o (r : ℕ × CodeRow) => SheetRow.StoredAs o.2 r.2)
      ((validRows rows).filter fun o => decide (Fresh db o)) new
  duplicates : List.Forall₂ (fun o message =>
      message = "手机号 " ++ cellText (Prod.snd o).phone ++ " 已存在")
    ((validRows rows).filter fun o => !decide (Fresh db o)) duplicateErrors
  formats : List.Forall₂ (fun row message =>
      ∃ reason, message = "第 " ++ toString (SheetRow.number row) ++ " 行：" ++ reason)
    (invalidRows rows) formatErrors
  config : db'.config = db.config

/-- The item of a valid row. -/
def SheetRow.item (row : SheetRow) : Item :=
  ⟨cellText row.phone, cellText row.code,
    if cellText row.note = "" then none else some (cellText row.note)⟩

theorem parseRow_valid {row : SheetRow} (h : row.valid = true) : parseRow row = .ok row.item := by
  unfold SheetRow.valid at h
  rw [Bool.and_eq_true] at h
  unfold parseRow
  dsimp only
  rw [h.1, h.2]
  rfl

theorem parseRow_invalid {row : SheetRow} (h : row.valid = false) :
    ∃ reason, parseRow row = .error ("第 " ++ toString row.number ++ " 行：" ++ reason) := by
  have hphone : " 行：手机号格式无效 (" = " 行：" ++ "手机号格式无效 (" := by decide +kernel
  have hcode : " 行：码格式无效，需要6位数字 (" = " 行：" ++ "码格式无效，需要6位数字 (" := by decide +kernel
  unfold SheetRow.valid at h
  unfold parseRow
  dsimp only
  cases hp : isPhone (cellText row.phone) with
  | false =>
    refine ⟨"手机号格式无效 (" ++ cellText row.phone ++ ")", ?_⟩
    rw [hphone]
    simp only [Bool.not_false, if_true, String.append_assoc]
  | true =>
    rw [hp, Bool.true_and] at h
    refine ⟨"码格式无效，需要6位数字 (" ++ cellText row.code ++ ")", ?_⟩
    rw [h, hcode]
    simp only [Bool.not_true, Bool.not_false, if_true, Bool.false_eq_true, if_false,
      String.append_assoc]

theorem itemsOf_eq (rows : List SheetRow) :
    itemsOf rows = ((dataRows rows).filter SheetRow.valid).map SheetRow.item := by
  unfold itemsOf parsed
  change ((dataRows rows).map parseRow).filterMap _ = _
  induction dataRows rows with
  | nil => rfl
  | cons row rest ih =>
    rw [List.map_cons, List.filterMap_cons, ih, List.filter_cons]
    cases h : row.valid with
    | true =>
      rw [parseRow_valid h]
      rfl
    | false =>
      obtain ⟨reason, hreason⟩ := parseRow_invalid h
      rw [hreason]
      rfl

theorem parseErrors_eq (rows : List SheetRow) : List.Forall₂ (fun row message =>
      ∃ reason, message = "第 " ++ toString (SheetRow.number row) ++ " 行：" ++ reason)
    (invalidRows rows) (parseErrors rows) := by
  unfold invalidRows parseErrors parsed
  change List.Forall₂ _ _ (((dataRows rows).map parseRow).filterMap _)
  induction dataRows rows with
  | nil => exact .nil
  | cons row rest ih =>
    rw [List.map_cons, List.filterMap_cons, List.filter_cons]
    cases h : row.valid with
    | true =>
      rw [parseRow_valid h]
      exact ih
    | false =>
      obtain ⟨reason, hreason⟩ := parseRow_invalid h
      rw [hreason]
      exact .cons ⟨reason, rfl⟩ ih

theorem insertCode_eq_none_iff {db : Db} {item : Item} {now : String} :
    db.insertCode item now = none ↔ ∃ r ∈ db.codes.rows, r.2.phone = item.phone := by
  unfold Db.insertCode UniqueTable.insert
  rw [Option.map_eq_none_iff]
  cases hfind : db.codes.find CodeRow.phone item.phone with
  | none =>
    rw [if_neg (by exact Bool.false_ne_true)]
    refine iff_of_false (Option.some_ne_none _) ?_
    rintro ⟨r, hr, hphone⟩
    exact UniqueTable.find_eq_none_iff.mp hfind r hr hphone
  | some row =>
    rw [if_pos (by exact rfl)]
    refine iff_of_true rfl ?_
    by_contra hnone
    have hfree := UniqueTable.find_eq_none_iff.mpr fun r hr hphone => hnone ⟨r, hr, hphone⟩
    rw [hfind] at hfree
    cases hfree

theorem insertCode_rows {db db' : Db} {item : Item} {now : String}
    (h : db.insertCode item now = some db') : ∃ r : ℕ × CodeRow,
      db'.codes.rows = db.codes.rows ++ [r] ∧ db'.config = db.config ∧ r.2.phone = item.phone ∧
        r.2.code = item.code ∧ r.2.note = noteOrNull item.note := by
  unfold Db.insertCode at h
  obtain ⟨codes, hcodes, rfl⟩ := Option.map_eq_some_iff.mp h
  obtain ⟨_, rfl⟩ := UniqueTable.insert_cases hcodes
  exact ⟨_, rfl, rfl, rfl, rfl, rfl⟩

theorem fresh_iff {db : Db} {before : List SheetRow} {row : SheetRow} : Fresh db (before, row) ↔
    ¬ ((∃ r ∈ db.codes.rows, r.2.phone = cellText row.phone) ∨
      ∃ earlier ∈ before, cellText earlier.phone = cellText row.phone) := by
  unfold Fresh
  push Not
  exact Iff.rfl

theorem noteOrNull_item (row : SheetRow) : noteOrNull row.item.note =
    if cellText row.note = "" then none else some (cellText row.note) := by
  unfold SheetRow.item noteOrNull
  dsimp only
  split
  · rfl
  · rename_i hne
    rw [Option.filter_some, if_pos (decide_eq_true hne)]

/-- The rows behind the ones before them go in one by one. The phones of the table are those of
`db₀` and of the rows before. -/
theorem insertItems_eq (db₀ : Db) (now : String) (before rest : List SheetRow) (db : Db)
    (result : BatchResult)
    (hphones : ∀ phone, (∃ r ∈ db.codes.rows, r.2.phone = phone) ↔
      (∃ r ∈ db₀.codes.rows, r.2.phone = phone) ∨ ∃ row ∈ before, cellText row.phone = phone) :
    ∃ new errors, (db.insertItems (rest.map SheetRow.item) now result).2.codes.rows =
        db.codes.rows ++ new ∧
      (db.insertItems (rest.map SheetRow.item) now result).2.config = db.config ∧
      List.Forall₂ (fun o (r : ℕ × CodeRow) => SheetRow.StoredAs o.2 r.2)
        ((withBefore before rest).filter fun o => decide (Fresh db₀ o)) new ∧
      List.Forall₂ (fun o message =>
          message = "手机号 " ++ cellText (Prod.snd o).phone ++ " 已存在")
        ((withBefore before rest).filter fun o => !decide (Fresh db₀ o)) errors ∧
      (db.insertItems (rest.map SheetRow.item) now result).1 =
        ⟨result.success + new.length, result.failed + errors.length, result.errors ++ errors⟩ := by
  induction rest generalizing before db result with
  | nil => exact ⟨[], [], (List.append_nil _).symm, rfl, .nil, .nil, by simp [Db.insertItems]⟩
  | cons row rest ih =>
    have hfresh : Fresh db₀ (before, row) ↔ db.insertCode row.item now ≠ none := by
      rw [fresh_iff, ← hphones, ne_eq, insertCode_eq_none_iff]
      rfl
    unfold withBefore
    rw [List.map_cons, Db.insertItems, List.filter_cons, List.filter_cons]
    cases hinsert : db.insertCode row.item now with
    | none =>
      -- a duplicate: the phones stay
      have hold : ¬ Fresh db₀ (before, row) := fun h => hfresh.mp h hinsert
      rw [if_neg (by simpa using hold), if_pos (by simpa using hold)]
      have hphones' : ∀ phone, (∃ r ∈ db.codes.rows, r.2.phone = phone) ↔
          (∃ r ∈ db₀.codes.rows, r.2.phone = phone) ∨
            ∃ earlier ∈ before ++ [row], cellText earlier.phone = phone := by
        intro phone
        rw [hphones]
        simp only [List.mem_append, List.mem_singleton, or_and_right, exists_or, exists_eq_left]
        rw [← or_assoc, iff_self_or]
        rintro rfl
        exact (hphones _).mp (insertCode_eq_none_iff.mp hinsert)
      obtain ⟨new, errors, hrows, hconfig, hnew, herrors, hresult⟩ := ih (before ++ [row]) db _ hphones'
      refine ⟨new, _ :: errors, hrows, hconfig, hnew, .cons rfl herrors, ?_⟩
      rw [hresult]
      simp only [List.length_cons, List.append_assoc, List.singleton_append]
      congr 1
      omega
    | some db₁ =>
      have hnew : Fresh db₀ (before, row) := hfresh.mpr (by rw [hinsert]; exact Option.some_ne_none _)
      rw [if_pos (by simpa using hnew), if_neg (by simpa using hnew)]
      obtain ⟨r, hrows₁, hconfig₁, hphone, hcode, hnote⟩ := insertCode_rows hinsert
      have hphones' : ∀ phone, (∃ r ∈ db₁.codes.rows, r.2.phone = phone) ↔
          (∃ r ∈ db₀.codes.rows, r.2.phone = phone) ∨
            ∃ earlier ∈ before ++ [row], cellText earlier.phone = phone := by
        intro phone
        rw [hrows₁]
        simp only [List.mem_append, List.mem_singleton, or_and_right, exists_or, exists_eq_left]
        rw [hphones, hphone, or_assoc]
        rfl
      obtain ⟨new, errors, hrows, hconfig, hstored, herrors, hresult⟩ :=
        ih (before ++ [row]) db₁ { result with success := result.success + 1 } hphones'
      refine ⟨r :: new, errors, ?_, hconfig.trans hconfig₁, .cons ⟨hphone, hcode, ?_⟩ hstored, herrors, ?_⟩
      · rw [hrows, hrows₁, List.append_assoc]
        rfl
      · rw [hnote, noteOrNull_item]
      · rw [hresult, List.length_cons]
        congr 1
        dsimp only
        omega

/-- **The upload.** The answer accounts for every row of the sheet. -/
theorem upload_accounts (db : Db) (rows : List SheetRow) (now : String)
    (hvalid : ∃ row ∈ dataRows rows, row.valid = true) :
    ∃ success failed duplicateErrors,
      (upload (.sheet rows) now db).1 = .ok [("ok", .val (.bool true)),
        ("message", .text ("导入完成：成功 " ++ toString success ++ " 条，失败 " ++
          toString failed ++ " 条")),
        ("success", .number success), ("failed", .number failed),
        ("errors", texts ((parseErrors rows ++ duplicateErrors).take 50))] ∧
      Accounted rows db (upload (.sheet rows) now db).2 success failed (parseErrors rows)
        duplicateErrors := by
  obtain ⟨row, hrow, hrowvalid⟩ := hvalid
  have hitems : itemsOf rows ≠ [] := by
    rw [itemsOf_eq, ne_eq, List.map_eq_nil_iff]
    exact List.ne_nil_of_mem (List.mem_filter.mpr ⟨hrow, hrowvalid⟩)
  obtain ⟨new, errors, hrows, hconfig, hstored, herrors, hresult⟩ := insertItems_eq db now []
    ((dataRows rows).filter SheetRow.valid) db ⟨0, 0, []⟩ (fun phone => by simp)
  rw [← itemsOf_eq] at hrows hconfig hresult
  have hupload : upload (.sheet rows) now db =
      (.ok [("ok", .val (.bool true)),
        ("message", .text ("导入完成：成功 " ++ toString new.length ++ " 条，失败 " ++
          toString errors.length ++ " 条")),
        ("success", .number new.length), ("failed", .number errors.length),
        ("errors", texts ((parseErrors rows ++ errors).take 50))],
        (db.insertItems (itemsOf rows) now ⟨0, 0, []⟩).2) := by
    unfold upload Db.addCodesBatch
    dsimp only
    rw [if_neg hitems, hresult, Nat.zero_add, Nat.zero_add, List.nil_append]
  have hcounts : new.length + errors.length = (validRows rows).length := by
    rw [← hstored.length_eq, ← herrors.length_eq]
    exact (List.length_eq_length_filter_add _).symm
  refine ⟨new.length, errors.length, errors, by rw [hupload], ?_⟩
  rw [hupload]
  exact
    { grown := by rw [hrows, List.length_append]
      total := hcounts
      inserted := ⟨new, hrows, hstored⟩
      duplicates := herrors
      formats := parseErrors_eq rows
      config := hconfig }

/-- A phone twice, and a row without a code. -/
def threeRows : List SheetRow :=
  [⟨2, .plain (.text "13800000000"), .plain (.number (.fin 123456)), .plain (.text "a")⟩,
    ⟨3, .plain (.text "13800000000"), .plain (.text "654321"), .plain (.text "b")⟩,
    ⟨4, .plain (.text "13900000000"), .plain (.text ""), .plain (.text "")⟩]

theorem threeRows_accounted : ∃ success failed duplicateErrors,
    Accounted threeRows start (upload (.sheet threeRows) "now" start).2 success failed
      (parseErrors threeRows) duplicateErrors := by
  have hvalid : ∃ row ∈ dataRows threeRows, row.valid = true := by decide +kernel
  obtain ⟨success, failed, errors, _, h⟩ := upload_accounts start threeRows "now" hvalid
  exact ⟨success, failed, errors, h⟩

end JtfpMall.FlCode
