import JtfpMall.Js.Trim
import JtfpMall.Server.FaultyRuns
import JtfpMall.Server.Orphans

/-!
# What an import makes of a sheet

One property per row with a name, each mapped column with the text its cell shows. A rich text
comes out as `[object Object]` in every column but the auction time. That column keeps a blank
text as a text, and takes a zero for nothing. A row that ends early has no value at all in the
columns behind its end.
-/

namespace JtfpMall.PropertyRoutes

open JtfpMall.Js
open JtfpMall.Lib

namespace CellContent

/-- Empty, a text, a number, a rich text, or a formula that gave a text or a number. -/
def Documented : CellContent → Prop
  | .plain .null => True
  | .plain (.text _) => True
  | .plain (.number _) => True
  | .richText _ => True
  | .formula (.text _) => True
  | .formula (.number _) => True
  | _ => False

/-- The text the cell shows. -/
def shown : CellContent → String
  | .plain v => v.toText.getD ""
  | .richText parts => "".intercalate parts
  | .formula result => result.toText.getD ""

/-- The trimmed text of the cell, null when it is blank. -/
def value (content : CellContent) : JsVal := (JsVal.str (trim content.shown)).or .null

/-- Neither rich text nor a formula. -/
def IsPlain : CellContent → Prop
  | .plain _ => True
  | _ => False

end CellContent

/-- The column of the store for the text the header shows. -/
def fieldOf (header : Cell) : Option String := headerMap.lookup (trim header.content.shown)

/-- A sheet with documented cells: one cell for each column of a row, and no header twice. -/
structure SheetOf (headers : List Cell) (rows : List (List Cell)) : Prop where
  header : ∀ header ∈ headers, header.content.Documented
  cell : ∀ cells ∈ rows, ∀ cell ∈ cells, cell.content.Documented
  headerColumns : (headers.map Cell.column).Nodup
  columns : ∀ cells ∈ rows, (cells.map Cell.column).Nodup
  fields : (headers.filterMap fieldOf).Nodup

/-- The content of the row in a column: nothing behind its last cell. -/
def contentAt (cells : List Cell) (column : ℕ) : CellContent :=
  (cells.find? fun c => decide (c.column = column)).elim (.plain .null) Cell.content

/-- The cell with the name shows a text that is not blank. -/
def named (headers cells : List Cell) : Bool :=
  headers.any fun header => decide (fieldOf header = some "community_name") &&
    decide (trim (contentAt cells header.column).shown ≠ "")

/-- The property has the value of the row in each mapped column. -/
def Carries (headers cells : List Cell) (r : Row) : Prop :=
  ∀ header ∈ headers, ∀ field, fieldOf header = some field →
    r.get field = (contentAt cells header.column).value

/-- The answer gives the count; none at all is answered by the error for it. -/
def Reports (res : Response) (n : ℕ) : Prop :=
  if n = 0 then res = .error 400 "未找到有效数据（小区名称不能为空）"
  else res.status = 200 ∧ res.body.lookup "count" = some (.number n)

/-- One property for each row with a name, in their order and with their values, and no other
change of a table. -/
def ImportFaithful (headers : List Cell) (rows : List (List Cell)) (at_ : Moment) (s : Store) :
    Prop :=
  ∃ res s' added, (importSheet (.sheet headers rows) at_).run s = (.ok res, s') ∧
    s'.getTable .properties = s.getTable .properties ++ added ∧
    (∀ t, t ≠ .properties → s'.getTable t = s.getTable t) ∧
    List.Forall₂ (Carries headers) (rows.filter (named headers)) added ∧
    Reports res added.length

/-- The import reads the cell as another value than the one it shows. -/
def Misread (field : String) (content : CellContent) : Prop :=
  if field = "auction_time" then
    match content with
    | .plain (.text s) => trim s = ""
    | .plain (.number n) => n.truthy = false
    | .richText parts => trim ("".intercalate parts) = ""
    | .formula (.text s) => trim s = ""
    | _ => False
  else
    match content with
    | .richText parts => trim ("".intercalate parts) ≠ "[object Object]"
    | _ => False

/-- In a row with a name every mapped header is plain and has a cell that is not misread; in
any other the name is not misread. -/
def RowRead (headers cells : List Cell) : Prop :=
  if named headers cells then
    ∀ header ∈ headers, ∀ field, fieldOf header = some field →
      header.content.IsPlain ∧ (∃ cell ∈ cells, cell.column = header.column) ∧
        ¬Misread field (contentAt cells header.column)
  else
    ∀ header ∈ headers, fieldOf header = some "community_name" → header.content.IsPlain →
      ¬Misread "community_name" (contentAt cells header.column)

/-- What the import writes for a cell under a header. -/
def readCell (field : String) (cell : Cell) : JsVal :=
  if field = "auction_time" then auctionTime cell else cellText cell.content

theorem value_eq_null {content : CellContent} (h : trim content.shown = "") :
    content.value = .null := by
  unfold CellContent.value
  rw [h]
  rfl

theorem value_eq_str {content : CellContent} (h : trim content.shown ≠ "") :
    content.value = .str (trim content.shown) := by
  unfold CellContent.value JsVal.or
  rw [if_pos]
  exact decide_eq_true h

theorem truthy_value {content : CellContent} :
    content.value.truthy = true ↔ trim content.shown ≠ "" := by
  by_cases h : trim content.shown = ""
  · simp [value_eq_null h, h, JsVal.truthy]
  · simp [value_eq_str h, h, JsVal.truthy]

theorem value_ne_undefined (content : CellContent) : content.value ≠ .undefined := by
  by_cases h : trim content.shown = ""
  · simp [value_eq_null h]
  · simp [value_eq_str h]

/-- A text that is always written as one is right when it is not blank. -/
theorem str_eq_value_iff (content : CellContent) :
    JsVal.str (trim content.shown) = content.value ↔ trim content.shown ≠ "" := by
  by_cases h : trim content.shown = ""
  · simp [value_eq_null h, h]
  · simp [value_eq_str h, h]

theorem auctionTime_eq_iff {cell : Cell} (h : cell.content.Documented) :
    auctionTime cell = cell.content.value ↔ ¬Misread "auction_time" cell.content := by
  unfold auctionTime Misread
  rw [if_pos rfl]
  match hc : cell.content with
  | .plain .null =>
    have hvalue : CellContent.value (.plain .null) = .null := by decide
    rw [hvalue]
    exact iff_of_true rfl id
  | .plain (.text s) => exact str_eq_value_iff (.plain (.text s))
  | .plain (.number n) =>
    have hvalue : CellContent.value (.plain (.number n)) = .str (trim n.toText) :=
      value_eq_str (trim_toText_ne_empty n)
    dsimp only
    rw [hvalue]
    cases n.truthy <;> simp
  | .richText parts => exact str_eq_value_iff (.richText parts)
  | .formula (.text s) => exact str_eq_value_iff (.formula (.text s))
  | .formula (.number n) =>
    have hvalue : CellContent.value (.formula (.number n)) = .str (trim n.toText) :=
      value_eq_str (trim_toText_ne_empty n)
    rw [hvalue]
    exact iff_of_true rfl id
  | .plain .undefined => exact absurd h (by simp [hc, CellContent.Documented])
  | .plain (.bool _) => exact absurd h (by simp [hc, CellContent.Documented])
  | .plain (.date _) => exact absurd h (by simp [hc, CellContent.Documented])
  | .plain (.object _) => exact absurd h (by simp [hc, CellContent.Documented])
  | .formula .undefined => exact absurd h (by simp [hc, CellContent.Documented])
  | .formula .null => exact absurd h (by simp [hc, CellContent.Documented])
  | .formula (.bool _) => exact absurd h (by simp [hc, CellContent.Documented])
  | .formula (.date _) => exact absurd h (by simp [hc, CellContent.Documented])
  | .formula (.object _) => exact absurd h (by simp [hc, CellContent.Documented])

theorem trim_objectText : trim "[object Object]" = "[object Object]" := by decide

theorem cellText_richText (parts : List String) :
    cellText (.richText parts) = .str "[object Object]" := by
  unfold cellText
  dsimp only [CellContent.toText, Option.map_some, absent, Option.elim_some]
  rw [trim_objectText]
  rfl

/-- A cell that has a text gives it, or null when it is blank. -/
theorem cellText_eq_value {content : CellContent} {v : CellValue}
    (h : content = .plain v ∨ content = .formula v) : cellText content = content.value := by
  obtain ⟨hread, hshown⟩ : cellText content = (absent (v.toText.map trim)).or .null ∧
      content.shown = v.toText.getD "" := by
    rcases h with rfl | rfl <;> exact ⟨rfl, rfl⟩
  rw [hread, CellContent.value, hshown]
  cases v.toText <;> rfl

theorem cellText_eq_iff {field : String} {content : CellContent} (hf : field ≠ "auction_time") :
    cellText content = content.value ↔ ¬Misread field content := by
  unfold Misread
  rw [if_neg hf]
  cases content with
  | plain v => exact iff_of_true (cellText_eq_value (Or.inl rfl)) id
  | formula v => exact iff_of_true (cellText_eq_value (Or.inr rfl)) id
  | richText parts =>
    dsimp only
    rw [cellText_richText, not_not]
    by_cases hblank : trim (CellContent.richText parts).shown = ""
    · rw [value_eq_null hblank, show trim ("".intercalate parts) = "" from hblank]
      simp
    · rw [value_eq_str hblank, JsVal.str.injEq]
      exact eq_comm

theorem readCell_eq_iff {field : String} {cell : Cell} (h : cell.content.Documented) :
    readCell field cell = cell.content.value ↔ ¬Misread field cell.content := by
  unfold readCell
  split
  · rename_i hf
    rw [hf]
    exact auctionTime_eq_iff h
  · rename_i hf
    exact cellText_eq_iff hf

/-- The name is not blank where the import finds one, except for a rich text. -/
theorem truthy_readName {cell : Cell} : (readCell "community_name" cell).truthy = true ↔
    Misread "community_name" cell.content ∨ trim cell.content.shown ≠ "" := by
  have hread : readCell "community_name" cell = cellText cell.content := rfl
  rw [hread]
  by_cases h : Misread "community_name" cell.content
  · refine iff_of_true ?_ (Or.inl h)
    cases hc : cell.content with
    | plain v => exact absurd h (by simp [hc, Misread])
    | formula v => exact absurd h (by simp [hc, Misread])
    | richText parts =>
      rw [cellText_richText]
      rfl
  · rw [(cellText_eq_iff (by decide)).mpr h, truthy_value, or_iff_right h]

/-- The column of the store a cell of this column goes to. -/
def target (headers : List Cell) (column : ℕ) : Option String :=
  (headerAt headers column).bind fun header => headerMap.lookup header

theorem importRow_append (headers : List Cell) (cells : List Cell) (cell : Cell) :
    importRow (headerAt headers) (cells ++ [cell]) =
      (target headers cell.column).elim (importRow (headerAt headers) cells) fun field =>
        (importRow (headerAt headers) cells).set field (readCell field cell) := by
  unfold importRow
  rw [List.foldl_append, List.foldl_cons, List.foldl_nil, setCell]
  unfold target
  cases (headerAt headers cell.column).bind fun header => headerMap.lookup header <;> rfl

/-- The row has the value of the only cell that goes to a column. -/
theorem get_importRow {headers : List Cell} {field : String} {cell : Cell} {cells : List Cell}
    (hmem : cell ∈ cells) (htarget : target headers cell.column = some field)
    (honly : ∀ c ∈ cells, target headers c.column = some field → c = cell) :
    (importRow (headerAt headers) cells).get field = readCell field cell := by
  induction cells using List.reverseRecOn with
  | nil => cases hmem
  | append_singleton cells last ih =>
    rw [importRow_append]
    by_cases hlast : target headers last.column = some field
    · rw [honly last (by simp) hlast, htarget]
      exact Dict.get_set_self _ _ _
    · have hbefore : cell ∈ cells := by
        rcases List.mem_append.mp hmem with h | h
        · exact h
        · rw [List.mem_singleton.mp h] at htarget
          exact absurd htarget hlast
      have hrest := ih hbefore fun c hc => honly c (List.mem_append_left _ hc)
      cases hother : target headers last.column with
      | none => exact hrest
      | some other =>
        have hne : field ≠ other := by
          rintro rfl
          exact hlast hother
        exact (Dict.get_set_of_ne _ _ hne).trans hrest

/-- A column no cell goes to stays without a value. -/
theorem get_importRow_of_none {headers : List Cell} {field : String} {cells : List Cell}
    (h : ∀ c ∈ cells, target headers c.column ≠ some field) :
    (importRow (headerAt headers) cells).get field = .undefined := by
  induction cells using List.reverseRecOn with
  | nil => rfl
  | append_singleton cells last ih =>
    rw [importRow_append]
    have hrest := ih fun c hc => h c (List.mem_append_left _ hc)
    cases hother : target headers last.column with
    | none => exact hrest
    | some other =>
      have hne : field ≠ other := by
        rintro rfl
        exact h last (by simp) hother
      exact (Dict.get_set_of_ne _ _ hne).trans hrest

section
variable {headers : List Cell} {rows : List (List Cell)} {cells : List Cell}

theorem eq_of_column {l : List Cell} (h : (l.map Cell.column).Nodup) {a b : Cell} (ha : a ∈ l)
    (hb : b ∈ l) (hab : a.column = b.column) : a = b := List.inj_on_of_nodup_map h ha hb hab

theorem find_column {l : List Cell} (h : (l.map Cell.column).Nodup) {cell : Cell}
    (hc : cell ∈ l) : (l.find? fun c => decide (c.column = cell.column)) = some cell := by
  cases hf : l.find? fun c => decide (c.column = cell.column) with
  | none => simpa using List.find?_eq_none.mp hf cell hc
  | some found =>
    have hsame := List.find?_some hf
    rw [decide_eq_true_eq] at hsame
    rw [eq_of_column h (List.mem_of_find?_eq_some hf) hc hsame]

theorem contentAt_column (h : (cells.map Cell.column).Nodup) {cell : Cell} (hc : cell ∈ cells) :
    contentAt cells cell.column = cell.content := by
  unfold contentAt
  rw [find_column h hc]
  rfl

theorem contentAt_of_not_mem {column : ℕ} (h : ∀ cell ∈ cells, cell.column ≠ column) :
    contentAt cells column = .plain .null := by
  unfold contentAt
  rw [List.find?_eq_none.mpr fun c hc => by simpa using h c hc]
  rfl

theorem not_mem_headerMap : headerMap.lookup "[object Object]" = none := by decide

theorem lookup_blank : headerMap.lookup (trim "") = none := by decide

/-- A plain header leads to the column its text stands for, any other to none. -/
theorem target_of_header (h : SheetOf headers rows) {header : Cell} (hm : header ∈ headers)
    (field : String) : target headers header.column = some field ↔
      header.content.IsPlain ∧ fieldOf header = some field := by
  unfold target headerAt
  rw [find_column h.headerColumns hm, Option.bind_some]
  unfold fieldOf
  cases hc : header.content with
  | richText parts =>
    dsimp only [CellContent.toText, Option.map_some, Option.bind_some]
    rw [trim_objectText, not_mem_headerMap]
    exact iff_of_false (fun h => nomatch h) fun h => h.1
  | formula v =>
    dsimp only [CellContent.toText, Option.map_some, Option.bind_some]
    rw [trim_objectText, not_mem_headerMap]
    exact iff_of_false (fun h => nomatch h) fun h => h.1
  | plain v =>
    rw [and_iff_right (show CellContent.IsPlain (.plain v) from trivial)]
    dsimp only [CellContent.toText, CellContent.shown]
    cases v.toText with
    | some s => rfl
    | none =>
      rw [Option.getD_none, lookup_blank]
      rfl

theorem exists_header {column : ℕ} {field : String} (h : target headers column = some field) :
    ∃ header ∈ headers, header.column = column := by
  unfold target headerAt at h
  cases hf : headers.find? fun c => decide (c.column = column) with
  | none =>
    rw [hf] at h
    cases h
  | some header =>
    have hsame := List.find?_some hf
    exact ⟨header, List.mem_of_find?_eq_some hf, by simpa using hsame⟩

theorem eq_of_fieldOf (h : SheetOf headers rows) {a b : Cell} (ha : a ∈ headers) (hb : b ∈ headers)
    {field : String} (hfa : fieldOf a = some field) (hfb : fieldOf b = some field) : a = b := by
  by_contra hne
  have hpair := List.pairwise_filterMap.mp h.fields
  have hsymm : Std.Symm fun x y : Cell => ∀ u, fieldOf x = some u → ∀ v, fieldOf y = some v →
      u ≠ v := ⟨fun x y hxy u hu v hv huv => hxy v hv u hu huv.symm⟩
  exact hpair.forall ha hb hne field hfa field hfb rfl

/-- What the import reads under a header. -/
theorem get_importRow_header (h : SheetOf headers rows) (hrow : cells ∈ rows) {header : Cell}
    (hm : header ∈ headers) {field : String} (hf : fieldOf header = some field) :
    (∃ cell ∈ cells, header.content.IsPlain ∧ cell.column = header.column ∧
        (importRow (headerAt headers) cells).get field = readCell field cell) ∨
      (importRow (headerAt headers) cells).get field = .undefined ∧
        (header.content.IsPlain → ∀ cell ∈ cells, cell.column ≠ header.column) := by
  -- only this header leads to the field
  have honly : ∀ column, target headers column = some field → column = header.column := by
    intro column htarget
    obtain ⟨other, hother, rfl⟩ := exists_header htarget
    obtain ⟨_, hfield⟩ := (target_of_header h hother field).mp htarget
    rw [eq_of_fieldOf h hother hm hfield hf]
  by_cases hread : header.content.IsPlain ∧ ∃ cell ∈ cells, cell.column = header.column
  · obtain ⟨hplain, cell, hcell, hcolumn⟩ := hread
    refine Or.inl ⟨cell, hcell, hplain, hcolumn, get_importRow hcell ?_ ?_⟩
    · rw [hcolumn]
      exact (target_of_header h hm field).mpr ⟨hplain, hf⟩
    · intro c hc htarget
      exact eq_of_column (h.columns cells hrow) hc hcell ((honly _ htarget).trans hcolumn.symm)
  · refine Or.inr ⟨get_importRow_of_none fun c hc htarget => hread ?_, fun hplain c hc hcolumn =>
      hread ⟨hplain, c, hc, hcolumn⟩⟩
    have hcolumn := honly _ htarget
    rw [hcolumn] at htarget
    exact ⟨((target_of_header h hm field).mp htarget).1, c, hc, hcolumn⟩

/-- The import gives the value shown when the header is plain and the cell is not misread. -/
theorem get_importRow_eq_iff (h : SheetOf headers rows) (hrow : cells ∈ rows) {header : Cell}
    (hm : header ∈ headers) {field : String} (hf : fieldOf header = some field) :
    (importRow (headerAt headers) cells).get field = (contentAt cells header.column).value ↔
      header.content.IsPlain ∧ (∃ cell ∈ cells, cell.column = header.column) ∧
        ¬Misread field (contentAt cells header.column) := by
  obtain ⟨cell, hcell, hplain, hcolumn, hget⟩ | ⟨hget, hnone⟩ :=
    get_importRow_header h hrow hm hf
  · rw [hget, ← hcolumn, contentAt_column (h.columns cells hrow) hcell,
      readCell_eq_iff (h.cell cells hrow cell hcell)]
    exact ⟨fun hread => ⟨hplain, ⟨cell, hcell, rfl⟩, hread⟩, fun hread => hread.2.2⟩
  · rw [hget]
    refine iff_of_false (value_ne_undefined _).symm ?_
    rintro ⟨hplain, ⟨cell, hcell, hcolumn⟩, _⟩
    exact hnone hplain cell hcell hcolumn

/-- The import takes the row for one with a name. -/
def taken (headers cells : List Cell) : Bool :=
  ((importRow (headerAt headers) cells).get "community_name").truthy

theorem named_iff : named headers cells = true ↔ ∃ header ∈ headers,
    fieldOf header = some "community_name" ∧ trim (contentAt cells header.column).shown ≠ "" := by
  unfold named
  simp only [List.any_eq_true, Bool.and_eq_true, decide_eq_true_eq]

/-- The import takes the rows whose name it finds blank for rows without one. -/
theorem taken_iff (h : SheetOf headers rows) (hrow : cells ∈ rows) : taken headers cells = true ↔
    ∃ header ∈ headers, fieldOf header = some "community_name" ∧ header.content.IsPlain ∧
      (Misread "community_name" (contentAt cells header.column) ∨
        trim (contentAt cells header.column).shown ≠ "") := by
  have hblank : trim (CellContent.shown (.plain .null)) = "" := by decide
  have hnull : ¬Misread "community_name" (.plain .null) := fun hmis => by simp [Misread] at hmis
  unfold taken
  constructor
  · intro htaken
    by_cases hheader : ∃ header ∈ headers, fieldOf header = some "community_name"
    · obtain ⟨header, hm, hf⟩ := hheader
      obtain ⟨cell, hcell, hplain, hcolumn, hget⟩ | ⟨hget, _⟩ :=
        get_importRow_header h hrow hm hf
      · refine ⟨header, hm, hf, hplain, ?_⟩
        rw [hget, truthy_readName] at htaken
        rwa [← hcolumn, contentAt_column (h.columns cells hrow) hcell]
      · rw [hget] at htaken
        cases htaken
    · rw [get_importRow_of_none fun cell _ htarget => ?_] at htaken
      · cases htaken
      · obtain ⟨header, hm, hcolumn⟩ := exists_header htarget
        rw [← hcolumn] at htarget
        exact hheader ⟨header, hm, ((target_of_header h hm _).mp htarget).2⟩
  · rintro ⟨header, hm, hf, hplain, hname⟩
    obtain ⟨cell, hcell, _, hcolumn, hget⟩ | ⟨_, hnone⟩ := get_importRow_header h hrow hm hf
    · rw [← hcolumn, contentAt_column (h.columns cells hrow) hcell] at hname
      rw [hget]
      exact truthy_readName.mpr hname
    · rw [contentAt_of_not_mem (hnone hplain)] at hname
      exact hname.elim (fun hmis => absurd hmis hnull) fun hne => absurd hblank hne

/-- A row is read as it shows when it is taken for one with a name exactly if it is one, and then
carried over. -/
theorem rowRead_iff (h : SheetOf headers rows) (hrow : cells ∈ rows) :
    RowRead headers cells ↔ named headers cells = taken headers cells ∧
      (named headers cells = true → Carries headers cells (importRow (headerAt headers) cells)) := by
  unfold RowRead
  by_cases hnamed : named headers cells = true
  · rw [if_pos hnamed]
    constructor
    · intro hread
      obtain ⟨header, hm, hf, hname⟩ := named_iff.mp hnamed
      have htaken : taken headers cells = true :=
        (taken_iff h hrow).mpr ⟨header, hm, hf, (hread header hm _ hf).1, Or.inr hname⟩
      exact ⟨hnamed.trans htaken.symm, fun _ header hm field hf =>
        (get_importRow_eq_iff h hrow hm hf).mpr (hread header hm field hf)⟩
    · intro ⟨_, hcarries⟩ header hm field hf
      exact (get_importRow_eq_iff h hrow hm hf).mp (hcarries hnamed header hm field hf)
  · rw [if_neg hnamed, (Bool.not_eq_true _).mp hnamed]
    constructor
    · intro hread
      refine ⟨?_, fun hf => nomatch hf⟩
      rw [eq_comm, ← Bool.not_eq_true, taken_iff h hrow]
      rintro ⟨header, hm, hf, hplain, hmis | hname⟩
      · exact hread header hm hf hplain hmis
      · exact hnamed (named_iff.mpr ⟨header, hm, hf, hname⟩)
    · intro ⟨htaken, _⟩ header hm hf hplain hmis
      have htrue := (taken_iff h hrow).mpr ⟨header, hm, hf, hplain, Or.inl hmis⟩
      rw [← htaken] at htrue
      cases htrue

end

theorem importRows_eq (headers : List Cell) (rows : List (List Cell)) :
    importRows headers rows =
      (rows.filter (taken headers)).map (importRow (headerAt headers)) := by
  unfold importRows
  rw [List.filter_map]
  rfl

/-- A mapped column keeps its value on the way into the store. -/
theorem get_stored {field : String} (h : field ∈ headerMap.map Prod.snd) (data : Row) (id : ℕ)
    (now : String) :
    (Store.newRow (Properties.newProperty data) id now).get field = data.get field := by
  have hfree : ∀ f ∈ headerMap.map Prod.snd, f ∉ ["id", "created_at", "updated_at"] ∧
      f ∉ ["status", "is_featured", "sort_order", "stock", "price_cent"] := by decide
  obtain ⟨hstamp, hdefault⟩ := hfree field h
  rw [get_newRow_of_ne hstamp]
  simp only [List.mem_cons, List.not_mem_nil, or_false, not_or] at hdefault
  simp [Properties.newProperty, Dict.get_set, hdefault]

theorem carries_stored (headers cells : List Cell) (data : Row) (id : ℕ) (now : String) :
    Carries headers cells (Store.newRow (Properties.newProperty data) id now) ↔
      Carries headers cells data := by
  have hmap : ∀ header : Cell, ∀ field, fieldOf header = some field →
      field ∈ headerMap.map Prod.snd := by
    intro header field hf
    obtain ⟨l₁, l₂, hsplit, _⟩ := List.lookup_eq_some_iff.mp hf
    rw [hsplit]
    simp
  refine forall_congr' fun header => forall_congr' fun _ => forall_congr' fun field =>
    forall_congr' fun hf => ?_
  rw [get_stored (hmap header field hf)]

/-- The rows are stored one after another behind those that are there. -/
theorem run_createAll_rows (datas : List Row) (clock : ℕ → String) (s : Store) :
    ∃ t added, (Properties.createAll datas clock).run s = (.ok (), t) ∧
      t.getTable .properties = s.getTable .properties ++ added ∧
      (∀ u, u ≠ .properties → t.getTable u = s.getTable u) ∧
      List.Forall₂ (fun data r => ∃ id now, r = Store.newRow (Properties.newProperty data) id now)
        datas added := by
  induction datas generalizing clock s with
  | nil => exact ⟨s, [], rfl, (List.append_nil _).symm, fun _ _ => rfl, .nil⟩
  | cons data datas ih =>
    obtain ⟨t, added, hrun, hrows, hothers, hadded⟩ := ih (fun i => clock (i + 1))
      (s.insert .properties (Properties.newProperty data) (clock 0)).2
    refine ⟨t, Store.newRow (Properties.newProperty data) (s.cache.next .properties) (clock 0) ::
      added, hrun, ?_, fun u hu => ?_, .cons ⟨_, _, rfl⟩ hadded⟩
    · rw [hrows]
      unfold Store.getTable
      rw [Store.rows_insert, if_pos rfl, List.append_assoc]
      rfl
    · rw [hothers u hu]
      unfold Store.getTable
      rw [Store.rows_insert, if_neg hu]

/-- An import stores the rows it takes and reports their number. -/
theorem run_importSheet (headers : List Cell) (rows : List (List Cell)) (at_ : Moment) (s : Store) :
    ∃ res s' added, (importSheet (.sheet headers rows) at_).run s = (.ok res, s') ∧
      s'.getTable .properties = s.getTable .properties ++ added ∧
      (∀ t, t ≠ .properties → s'.getTable t = s.getTable t) ∧
      List.Forall₂ (fun cells r => ∃ id now, r = Store.newRow
          (Properties.newProperty (importRow (headerAt headers) cells)) id now)
        (rows.filter (taken headers)) added ∧
      Reports res added.length := by
  unfold importSheet adminGuarded
  rw [Action.run_attempt]
  dsimp only
  by_cases hnone : importRows headers rows = []
  · rw [if_pos hnone]
    rw [importRows_eq, List.map_eq_nil_iff] at hnone
    rw [hnone]
    exact ⟨_, s, [], rfl, (List.append_nil _).symm, fun _ _ => rfl, .nil, rfl⟩
  · rw [if_neg hnone]
    obtain ⟨t, added, hrun, hrows, hothers, hadded⟩ :=
      run_createAll_rows (importRows headers rows) at_.clock s
    have hlength : added.length = (importRows headers rows).length := hadded.length_eq.symm
    unfold Properties.bulkInsert
    rw [Action.run_bind, Action.run_bind, hrun]
    dsimp only
    refine ⟨_, t.flushNow (at_.clock (importRows headers rows).length), added, rfl, ?_,
      fun u hu => ?_, ?_, ?_⟩
    · exact (Store.rows_flushNow _ _ _).trans hrows
    · exact (Store.rows_flushNow _ _ _).trans (hothers u hu)
    · rw [importRows_eq, List.forall₂_map_left_iff] at hadded
      exact hadded
    · unfold Reports
      rw [hlength, if_neg (by simpa using hnone)]
      exact ⟨rfl, rfl⟩

/-- Where the elements of two lists stand for each other, so do the relations to them. -/
theorem forall₂_iff_of_forall₂ {α β γ : Type} {R : α → γ → Prop} {Q : α → β → Prop}
    {S : β → γ → Prop} (hS : ∀ a b c, S b c → (R a c ↔ Q a b)) {bs : List β} {cs : List γ}
    (h : List.Forall₂ S bs cs) (as : List α) : List.Forall₂ R as cs ↔ List.Forall₂ Q as bs := by
  induction h generalizing as with
  | nil => simp only [List.forall₂_nil_right_iff]
  | cons hbc _ ih =>
    cases as with
    | nil => exact iff_of_false (fun h => nomatch h) fun h => nomatch h
    | cons a as => rw [List.forall₂_cons, List.forall₂_cons, hS a _ _ hbc, ih]

/-- The import is faithful when the rows it takes carry what those with a name show. -/
theorem importFaithful_iff_forall₂ (headers : List Cell) (rows : List (List Cell)) (at_ : Moment)
    (s : Store) : ImportFaithful headers rows at_ s ↔
      List.Forall₂ (fun cells cells' => Carries headers cells (importRow (headerAt headers) cells'))
        (rows.filter (named headers)) (rows.filter (taken headers)) := by
  obtain ⟨res, s', added, hrun, hrows, hothers, hadded, hreports⟩ :=
    run_importSheet headers rows at_ s
  have hcarries := forall₂_iff_of_forall₂ (R := Carries headers)
    (Q := fun cells cells' => Carries headers cells (importRow (headerAt headers) cells'))
    (by
      rintro cells _ _ ⟨id, now, rfl⟩
      exact carries_stored headers cells _ id now) hadded (rows.filter (named headers))
  rw [← hcarries]
  constructor
  · rintro ⟨res', t, added', hrun', hrows', _, hcarries', _⟩
    rw [hrun] at hrun'
    obtain ⟨_, rfl⟩ := Prod.mk.inj hrun'
    rwa [List.append_cancel_left (hrows.symm.trans hrows')]
  · exact fun h => ⟨res, s', added, hrun, hrows, hothers, h, hreports⟩

/-- Where as many rows are taken as have a name, the rows with a name are taken: otherwise the
header of the name is not plain, and none is taken. -/
theorem taken_of_named {headers : List Cell} {rows : List (List Cell)} (h : SheetOf headers rows)
    (hlength : (rows.filter (named headers)).length = (rows.filter (taken headers)).length)
    {cells : List Cell} (hrow : cells ∈ rows) (hnamed : named headers cells = true) :
    taken headers cells = true := by
  obtain ⟨header, hm, hf, hname⟩ := named_iff.mp hnamed
  by_cases hplain : header.content.IsPlain
  · exact (taken_iff h hrow).mpr ⟨header, hm, hf, hplain, Or.inr hname⟩
  · have hnone : rows.filter (taken headers) = [] := by
      refine List.filter_eq_nil_iff.mpr fun other hother htaken => ?_
      obtain ⟨header', hm', hf', hplain', _⟩ := (taken_iff h hother).mp htaken
      rw [eq_of_fieldOf h hm' hm hf' hf] at hplain'
      exact hplain hplain'
    rw [hnone, List.length_nil, List.length_eq_zero_iff] at hlength
    exact absurd hnamed (List.filter_eq_nil_iff.mp hlength cells hrow)

/-- The import is faithful when each row is read as it shows. -/
theorem importFaithful_iff (headers : List Cell) (rows : List (List Cell)) (at_ : Moment)
    (s : Store) (h : SheetOf headers rows) :
    ImportFaithful headers rows at_ s ↔ ∀ cells ∈ rows, RowRead headers cells := by
  rw [importFaithful_iff_forall₂]
  constructor
  · intro hall cells hrow
    have hlength := hall.length_eq
    have hsub : rows.filter (named headers) = (rows.filter (taken headers)).filter (named headers) := by
      rw [List.filter_filter]
      refine List.filter_congr fun other hother => ?_
      cases hnamed : named headers other with
      | false => rfl
      | true => rw [taken_of_named h hlength hother hnamed, Bool.and_self]
    have hsame : rows.filter (named headers) = rows.filter (taken headers) := by
      rw [hsub] at hlength ⊢
      exact List.filter_sublist.eq_of_length hlength
    have hmem : cells ∈ rows.filter (named headers) ↔ cells ∈ rows.filter (taken headers) := by
      rw [hsame]
    rw [List.mem_filter, List.mem_filter, and_iff_right hrow, and_iff_right hrow] at hmem
    refine (rowRead_iff h hrow).mpr ⟨Bool.eq_iff_iff.mpr hmem, fun hnamed => ?_⟩
    rw [← hsame, List.forall₂_same] at hall
    exact hall cells (List.mem_filter.mpr ⟨hrow, hnamed⟩)
  · intro hread
    have hsame : rows.filter (named headers) = rows.filter (taken headers) :=
      List.filter_congr fun cells hrow => ((rowRead_iff h hrow).mp (hread cells hrow)).1
    rw [← hsame, List.forall₂_same]
    intro cells hmem
    obtain ⟨hrow, hnamed⟩ := List.mem_filter.mp hmem
    exact ((rowRead_iff h hrow).mp (hread cells hrow)).2 hnamed

/-- The headers of the name and the address. -/
def addressHeaders : List Cell :=
  [⟨1, .plain (.text "小区名称"), ""⟩, ⟨2, .plain (.text "详细地址"), ""⟩]

/-- A row whose address is a rich text. -/
def addressRow : List Cell := [⟨1, .plain (.text "a"), ""⟩, ⟨2, .richText ["b"], ""⟩]

theorem addressSheet : SheetOf addressHeaders [addressRow] where
  header := by simp [addressHeaders, CellContent.Documented]
  cell := by simp [addressRow, CellContent.Documented]
  headerColumns := by decide
  columns := by decide
  fields := by decide

theorem addressSheet_faithful_iff :
    ImportFaithful addressHeaders [addressRow] (Server.moment "t2")
        (Server.start "t0" (fun _ => "t1") .empty) ↔
      ∀ cells ∈ [addressRow], RowRead addressHeaders cells :=
  importFaithful_iff addressHeaders [addressRow] _ _ addressSheet

/-- The address of the property is `[object Object]`. -/
theorem addressSheet_not_faithful : ¬ImportFaithful addressHeaders [addressRow]
    (Server.moment "t2") (Server.start "t0" (fun _ => "t1") .empty) := by
  intro h
  rw [importFaithful_iff_forall₂,
    List.filter_cons_of_pos (show named addressHeaders addressRow = true by decide),
    List.filter_cons_of_pos (show taken addressHeaders addressRow = true by decide)] at h
  have hcarries := (List.forall₂_cons.mp h).1 ⟨2, .plain (.text "详细地址"), ""⟩
    (by simp [addressHeaders]) "detail_address" (by decide)
  revert hcarries
  decide

end JtfpMall.PropertyRoutes
