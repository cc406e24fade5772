import JtfpMall.Server.Exports
import JtfpMall.Server.SheetImport

/-!
# An exported sheet, imported again

The export of the properties writes eight columns, and the import knows three of their headers. What
comes back of a property with a name is a new one with its name, address and starting price, that is
not on sale and has nothing else of it.
-/

namespace JtfpMall.PropertyRoutes

open JtfpMall.Js
open JtfpMall.Lib

/-- `worksheet.columns` of the export: each header with its key. -/
def exportColumns : List (String × String) :=
  [("ID", "id"), ("小区名称", "community_name"), ("详细地址", "detail_address"), ("户型", "house_type"),
    ("面积", "building_area"), ("起拍价", "starting_price"), ("状态", "status"),
    ("创建时间", "created_at")]

/-- The first row of the exported sheet. -/
def exportHeaders : List Cell :=
  exportColumns.zipIdx.map fun c => ⟨c.2 + 1, .plain (.text c.1.1), ""⟩

/-- A line of the exported sheet, with what the workbook library reads of a value it has written. -/
def exportCells (readBack : JsVal → CellContent) (line : Row) : List Cell :=
  exportColumns.zipIdx.map fun c => ⟨c.2 + 1, readBack (line.get c.1.2), ""⟩

/-- The text of a value in a sheet. -/
def sheetText : JsVal → Option String
  | .str s => some s
  | .num n => some n.toText
  | _ => none

/-- The value comes back as a plain cell with its text. -/
def Returns (readBack : JsVal → CellContent) (v : JsVal) : Prop :=
  ∃ w, readBack v = .plain w ∧ w.toText = sheetText v

/-- The columns that the import knows. -/
def keptColumns : List String := ["community_name", "detail_address", "starting_price"]

/-- What the import makes of a value: its trimmed text, null where that is blank. -/
def reread (v : JsVal) : JsVal := (absent ((sheetText v).map trim)).or .null

structure IsCopy (property copy : Row) : Prop where
  kept : ∀ key ∈ keptColumns, copy.get key = reread (property.get key)
  lost : ∀ key ∈ headerMap.map Prod.snd, key ∉ keptColumns → copy.get key = .undefined
  offSale : copy.get "status" = .num (.fin 0)

def hasName (property : Row) : Bool := (reread (property.get "community_name")).truthy

theorem target_column : ∀ c ∈ exportColumns.zipIdx, target exportHeaders (c.2 + 1) =
    if c.1.2 ∈ keptColumns then some c.1.2 else none := by decide

theorem eq_of_key : ∀ c ∈ exportColumns.zipIdx, ∀ d ∈ exportColumns.zipIdx, c.1.2 = d.1.2 →
    c = d := by decide

theorem exists_column : ∀ key ∈ keptColumns, ∃ c ∈ exportColumns.zipIdx, c.1.2 = key := by decide

section
variable {readBack : JsVal → CellContent} {line : Row} {key : String}

/-- Only the cell of a known column goes to it. -/
theorem of_target {cell : Cell} (hcell : cell ∈ exportCells readBack line)
    (htarget : target exportHeaders cell.column = some key) : key ∈ keptColumns ∧
      ∃ c ∈ exportColumns.zipIdx, c.1.2 = key ∧ cell = ⟨c.2 + 1, readBack (line.get key), ""⟩ := by
  obtain ⟨c, hc, rfl⟩ := List.mem_map.mp hcell
  rw [target_column c hc] at htarget
  by_cases hkept : c.1.2 ∈ keptColumns
  · rw [if_pos hkept, Option.some.injEq] at htarget
    subst htarget
    exact ⟨hkept, c, hc, rfl, rfl⟩
  · rw [if_neg hkept] at htarget
    cases htarget

theorem get_kept (hkey : key ∈ keptColumns) (hback : Returns readBack (line.get key)) :
    (importRow (headerAt exportHeaders) (exportCells readBack line)).get key =
      reread (line.get key) := by
  obtain ⟨c, hc, rfl⟩ := exists_column key hkey
  have htarget := (target_column c hc).trans (if_pos hkey)
  have hcell : ⟨c.2 + 1, readBack (line.get c.1.2), ""⟩ ∈ exportCells readBack line :=
    List.mem_map_of_mem hc
  have honly : ∀ cell ∈ exportCells readBack line,
      target exportHeaders cell.column = some c.1.2 →
        cell = ⟨c.2 + 1, readBack (line.get c.1.2), ""⟩ := by
    intro cell hmem hother
    obtain ⟨_, d, hd, hsame, rfl⟩ := of_target hmem hother
    rw [eq_of_key d hd c hc hsame]
  have hne : c.1.2 ≠ "auction_time" := fun h => absurd (h ▸ hkey) (by decide)
  obtain ⟨w, hw, htext⟩ := hback
  rw [get_importRow hcell htarget honly]
  unfold readCell reread
  rw [if_neg hne, hw, ← htext]
  rfl

theorem get_lost (hkey : key ∉ keptColumns) :
    (importRow (headerAt exportHeaders) (exportCells readBack line)).get key = .undefined :=
  get_importRow_of_none fun _ hcell htarget => hkey (of_target hcell htarget).1

end

/-- The line of a property has its values in the known columns. -/
theorem get_exportRow {property : Row} {key : String} (hkey : key ∈ keptColumns) :
    (exportRow property).get key = property.get key := by
  have hcolumn : key ∈ ["id", "community_name", "detail_address", "house_type", "building_area",
      "starting_price", "created_at"] := by
    revert key
    decide
  exact (propertyLine property).columns key hcolumn

section
variable {readBack : JsVal → CellContent} {property : Row}

theorem taken_exportRow (h : ∀ key ∈ keptColumns, Returns readBack (property.get key)) :
    taken exportHeaders (exportCells readBack (exportRow property)) = hasName property := by
  have hkey : "community_name" ∈ keptColumns := List.mem_cons_self
  unfold taken hasName
  rw [get_kept hkey ((get_exportRow hkey).symm ▸ h _ hkey), get_exportRow hkey]

/-- What the import stores for the line of a property. -/
theorem isCopy_stored (h : ∀ key ∈ keptColumns, Returns readBack (property.get key)) (id : ℕ)
    (now : String) : IsCopy property (Store.newRow (Properties.newProperty
      (importRow (headerAt exportHeaders) (exportCells readBack (exportRow property)))) id now) where
  kept := by
    intro key hkey
    have hmapped : key ∈ headerMap.map Prod.snd := by
      revert key
      decide
    rw [get_stored hmapped, get_kept hkey ((get_exportRow hkey).symm ▸ h key hkey),
      get_exportRow hkey]
  lost := by
    intro key hmapped hkey
    rw [get_stored hmapped, get_lost hkey]
  offSale := by
    have hstatus : (importRow (headerAt exportHeaders) (exportCells readBack (exportRow property))).get
        "status" = .undefined := get_lost (by decide)
    rw [get_newRow_of_ne (by decide)]
    simp [Properties.newProperty, Dict.get_set, hstatus, JsVal.orNullish]

end

/-- The sheet of the first hundred properties. -/
theorem sheet_properties {env : Env} {s : Store} {rows : List Row}
    (hrows : Export.properties.matching env s = .ok rows) :
    Export.properties.sheet env s = some ((rows.take 100).map exportRow) := by
  rw [Export.sheet_eq, hrows]
  exact congrArg Except.toOption (List.mapM_pure (m := Except JsError))

/-- The sheet of an export is imported again, whatever has happened to the store: each of the first
hundred properties that has a name is there once more, as a copy that is not on sale and has kept
three of its columns. Nothing else changes. -/
theorem reimport {env : Env} {s : Store} {rows : List Row} {readBack : JsVal → CellContent}
    (hrows : Export.properties.matching env s = .ok rows)
    (hback : ∀ property ∈ rows, ∀ key ∈ keptColumns, Returns readBack (property.get key))
    (at_ : Moment) (t : Store) :
    ∃ lines res t' added, Export.properties.sheet env s = some lines ∧
      (importSheet (.sheet exportHeaders (lines.map (exportCells readBack))) at_).run t =
        (.ok res, t') ∧
      t'.getTable .properties = t.getTable .properties ++ added ∧
      (∀ u, u ≠ .properties → t'.getTable u = t.getTable u) ∧
      List.Forall₂ IsCopy ((rows.take 100).filter hasName) added ∧ Reports res added.length := by
  obtain ⟨res, t', added, hrun, hadded, hothers, hstored, hreports⟩ := run_importSheet exportHeaders
    (((rows.take 100).map exportRow).map (exportCells readBack)) at_ t
  refine ⟨_, res, t', added, sheet_properties hrows, hrun, hadded, hothers, ?_, hreports⟩
  have htaken : (((rows.take 100).map exportRow).map (exportCells readBack)).filter
      (taken exportHeaders) = ((rows.take 100).filter hasName).map fun property =>
        exportCells readBack (exportRow property) := by
    rw [List.map_map, List.filter_map]
    refine congrArg _ (List.filter_congr fun property hmem => ?_)
    exact taken_exportRow (hback property (List.mem_of_mem_take hmem))
  rw [htaken, List.forall₂_map_left_iff] at hstored
  have hreturns : ∀ property ∈ (rows.take 100).filter hasName, ∀ key ∈ keptColumns,
      Returns readBack (property.get key) := fun property hmem =>
    hback property (List.mem_of_mem_take (List.mem_of_mem_filter hmem))
  refine (List.forall₂_and_left _ _ |>.mpr ⟨hreturns, hstored⟩).imp ?_
  rintro property _ ⟨hproperty, id, now, rfl⟩
  exact isCopy_stored hproperty id now

/-- A workbook that gives texts and numbers back as they were written. -/
def sameValue : JsVal → CellContent
  | .str s => .plain (.text s)
  | .num n => .plain (.number n)
  | _ => .plain .null

/-- A property with a blank in its name, a price that is a number and a house type. -/
def onSale : Row := .ofList [("id", .num (.fin 1)), ("community_name", .str " 甲"),
  ("starting_price", .num (.fin 200)), ("house_type", .str "3室2厅"), ("status", .num (.fin 1))]

/-- The property on sale comes back off sale and without its house type, beside the original. -/
theorem reimport_onSale :
    ∃ lines res t' copy, Export.properties.sheet .plain (shopWith .properties [onSale]) = some lines ∧
      (importSheet (.sheet exportHeaders (lines.map (exportCells sameValue)))
        (Server.moment "t2")).run (shopWith .properties [onSale]) = (.ok res, t') ∧
      t'.getTable .properties = [onSale, copy] ∧ copy.get "community_name" = .str "甲" ∧
      copy.get "starting_price" = .str "200" ∧ copy.get "house_type" = .undefined ∧
      copy.get "status" = .num (.fin 0) := by
  have hrows : Export.properties.matching .plain (shopWith .properties [onSale]) = .ok [onSale] := rfl
  have hback : ∀ property ∈ [onSale], ∀ key ∈ keptColumns, Returns sameValue (property.get key) := by
    intro property hproperty key hkey
    rw [List.mem_singleton.mp hproperty]
    simp only [keptColumns, List.mem_cons, List.not_mem_nil, or_false] at hkey
    rcases hkey with rfl | rfl | rfl
    · exact ⟨.text " 甲", rfl, rfl⟩
    · exact ⟨.null, rfl, rfl⟩
    · exact ⟨.number (.fin 200), rfl, rfl⟩
  obtain ⟨lines, res, t', added, hsheet, hrun, hadded, _, hcopies, _⟩ :=
    reimport hrows hback (Server.moment "t2") (shopWith .properties [onSale])
  have hnamed : ([onSale].take 100).filter hasName = [onSale] := by decide
  rw [hnamed] at hcopies
  obtain ⟨copy, _, hcopy, hnil, rfl⟩ := List.forall₂_cons_left_iff.mp hcopies
  rw [List.forall₂_nil_left_iff.mp hnil] at hadded
  refine ⟨lines, res, t', copy, hsheet, hrun, hadded, ?_, ?_, ?_, hcopy.offSale⟩
  · rw [hcopy.kept "community_name" (by decide)]
    decide
  · rw [hcopy.kept "starting_price" (by decide)]
    decide
  · exact hcopy.lost "house_type" (by decide) (by decide)

end JtfpMall.PropertyRoutes
