import JtfpMall.FlCode.Routes
import JtfpMall.Lib.Like
import JtfpMall.Lib.Paging
import JtfpMall.Js.Rounding

/-!
# The search for codes

The keyword goes into a pattern between two `%`, and the pages of the list are cut from what the
pattern finds. They have every row that contains the keyword; that they have no other row depends
on the wildcards of the keyword.
-/

namespace JtfpMall.FlCode

open JtfpMall.Js
open JtfpMall.Lib

/-- The integer a statement reads from a bound number. -/
def sqlInteger : JsNum → Option ℤ
  | .fin q => if q.den = 1 ∧ -2 ^ 63 ≤ q.num ∧ q.num < 2 ^ 63 then some q.num else none
  | _ => none

/-- `LIMIT ? OFFSET ?`. A negative limit is none. -/
def window {α : Type} (limit offset : JsNum) (rows : List α) : Option (List α) := do
  let limit ← sqlInteger limit
  let offset ← sqlInteger offset
  let rest := rows.drop offset.toNat
  return if limit < 0 then rest else rest.take limit.toNat

/-- `ORDER BY id DESC`. -/
def newestFirst (rows : List (ℕ × CodeRow)) : List (ℕ × CodeRow) :=
  rows.mergeSort fun a b => decide (b.1 ≤ a.1)

namespace CodeRow

/-- The columns that are searched. -/
def searched (row : CodeRow) : List String := [row.phone, row.code] ++ row.note.toList

/-- `phone LIKE ? OR code LIKE ? OR note LIKE ?`. A note that is `NULL` is not found. -/
def isLike (pattern : List Char) (row : CodeRow) : Bool :=
  row.searched.any fun s => like pattern s.toList

/-- The row has the keyword in a column. -/
def Has (keyword : String) (row : CodeRow) : Prop :=
  ∃ s ∈ row.searched, Contains keyword.toList s.toList

instance (keyword : String) (row : CodeRow) : Decidable (row.Has keyword) :=
  inferInstanceAs (Decidable (∃ s ∈ row.searched, Contains keyword.toList s.toList))

end CodeRow

/-- The rows of a page, and how many there are. -/
structure Found where
  data : List (ℕ × CodeRow)
  total : ℕ

/-- `getAllCodes(page, pageSize)`. -/
def Db.getAllCodes (page pageSize : JsNum) (db : Db) : Option Found := do
  let offset := (page.sub (.fin 1)).mul pageSize
  let data ← window pageSize offset (newestFirst db.codes.rows)
  return ⟨data, db.codes.rows.length⟩

/-- `searchCodes(keyword, page, pageSize)`. -/
def Db.searchCodes (keyword : String) (page pageSize : JsNum) (db : Db) : Option Found := do
  let offset := (page.sub (.fin 1)).mul pageSize
  let like := around keyword.toList
  let data ← window pageSize offset
    (newestFirst (db.codes.rows.filter fun r => r.2.isLike like))
  return ⟨data, (db.codes.rows.filter fun r => r.2.isLike like).length⟩

/-- The texts of the query. -/
structure CodesQuery where
  page : Option String
  pageSize : Option String
  keyword : Option String

structure CodesAnswer where
  data : List (ℕ × CodeRow)
  page : JsNum
  pageSize : JsNum
  total : ℕ
  totalPages : JsNum

/-- `Math.max(1, parseInt(text) || d)`. -/
def atLeastOne (text : Option String) (d : JsNum) : JsNum :=
  (JsNum.fin 1).max (orDefault (text.map parseIntAny) d)

/-- `Math.min(100, ..)` of it. -/
def sizeOf (text : Option String) : JsNum := (JsNum.fin 100).min (atLeastOne text (.fin 20))

/-- GET /api/admin/codes; nothing when a statement fails. -/
def listCodes (query : CodesQuery) (db : Db) : Option CodesAnswer := do
  let page := atLeastOne query.page (.fin 1)
  let pageSize := sizeOf query.pageSize
  let keyword := query.keyword.getD ""
  let result ← if keyword ≠ "" then db.searchCodes keyword page pageSize
    else db.getAllCodes page pageSize
  return ⟨result.data, page, pageSize, result.total,
    ((JsNum.ofNat result.total).div pageSize).ceil⟩

/-- A database as a file has it: the format has room for 2^48 bytes, and a row takes more than
sixteen. -/
structure DbFile where
  db : Db
  rows_fit : db.codes.rows.length < 2 ^ 44

def searchPage (db : Db) (keyword : String) (pageSize : Option String) (n : ℕ) :
    Option CodesAnswer :=
  listCodes ⟨some (toString n), pageSize, some keyword⟩ db

/-- The pages `1` to `totalPages`, one after the other. -/
structure FoundBySearch (db : Db) (keyword : String) (pageSize : Option String)
    (first : CodesAnswer) (pages : List CodesAnswer) : Prop where
  answered : searchPage db keyword pageSize 1 = some first
  count : first.totalPages = .ofNat pages.length
  inTurn : (List.range pages.length).map (fun i => searchPage db keyword pageSize (i + 1)) =
    pages.map some
  each : (pages.flatMap CodesAnswer.data).Perm
    (db.codes.rows.filter fun r => decide (r.2.Has keyword))
  newest : (pages.flatMap CodesAnswer.data).Pairwise fun a b => b.1 ≤ a.1
  total : ∀ answer ∈ first :: pages,
    answer.total = (db.codes.rows.filter fun r => decide (r.2.Has keyword)).length

/-- The search is a search for the rows that have the keyword. -/
def Searches (db : Db) (keyword : String) (pageSize : Option String) : Prop :=
  ∃ first pages, FoundBySearch db keyword pageSize first pages

theorem whole_queryNumber (text : Option String) (d : ℤ) :
    Whole (orDefault (text.map parseIntAny) (.fin d)) := by
  unfold orDefault
  cases text with
  | none => exact .int d
  | some s =>
    dsimp only [Option.map_some]
    split
    · exact whole_parseIntAny s
    · exact .int d

theorem queryNumber_ne_nan (text : Option String) (q : ℚ) :
    orDefault (text.map parseIntAny) (.fin q) ≠ .nan := by
  unfold orDefault
  cases text with
  | none => exact JsNum.noConfusion
  | some s =>
    dsimp only [Option.map_some]
    split
    · rename_i htruthy
      intro h
      rw [h] at htruthy
      cases htruthy
    · exact JsNum.noConfusion

theorem capped_int (z : ℤ) : ∃ size : ℕ, 1 ≤ size ∧ size ≤ 100 ∧
    (JsNum.fin 100).min ((JsNum.fin 1).max (.fin z)) = .ofNat size := by
  refine ⟨(min 100 (max 1 z)).toNat, by omega, by omega, ?_⟩
  have hmax := max_fin 1 z
  have hmin := min_fin 100 (max 1 z)
  rw [Int.cast_one] at hmax
  rw [Int.cast_ofNat] at hmin
  have hnat : ((min 100 (max 1 z)).toNat : ℤ) = min 100 (max 1 z) := by omega
  rw [hmax, hmin, ← hnat, Int.cast_natCast]
  rfl

/-- The size of a page is from 1 to 100. -/
theorem sizeOf_eq (text : Option String) :
    ∃ size : ℕ, 1 ≤ size ∧ size ≤ 100 ∧ sizeOf text = .ofNat size := by
  have hwhole := whole_queryNumber text 20
  have hnumber := queryNumber_ne_nan text 20
  unfold sizeOf atLeastOne
  rw [Int.cast_ofNat] at hwhole
  cases hn : orDefault (text.map parseIntAny) (.fin 20) with
  | nan => exact absurd hn hnumber
  | inf neg =>
    cases neg with
    | true => exact ⟨1, le_refl 1, by omega, by decide +kernel⟩
    | false => exact ⟨100, by omega, le_refl 100, by decide +kernel⟩
  | fin q =>
    rw [hn] at hwhole
    obtain ⟨z, rfl⟩ : ∃ z : ℤ, q = z := by
      cases hwhole with
      | int z => exact ⟨z, rfl⟩
    exact capped_int z

theorem pageNumber_eq {n : ℕ} (h1 : 1 ≤ n) (hn : n ≤ 2 ^ 53) :
    atLeastOne (some (toString n)) (.fin 1) = .ofNat n := by
  have hdefault : orDefault (some (JsNum.ofNat n)) (.fin 1) = .ofNat n :=
    if_pos (decide_eq_true (by exact_mod_cast (by omega : n ≠ 0)))
  have hmax := max_fin 1 n
  rw [Int.cast_one, Int.cast_natCast] at hmax
  unfold atLeastOne
  rw [Option.map_some, parseIntAny_toString hn, hdefault]
  change (JsNum.fin 1).max (.fin n) = .fin n
  rw [hmax, max_eq_right (by omega), Int.cast_natCast]

theorem offset_eq {i size : ℕ} (hi : i + 1 ≤ 2 ^ 53) (h : i * size ≤ 2 ^ 53) :
    ((JsNum.ofNat (i + 1)).sub (.fin 1)).mul (.ofNat size) = .ofNat (i * size) := by
  have hsub : (JsNum.ofNat (i + 1)).sub (.fin 1) = .ofNat i := by
    have hdifference : ((i + 1 : ℕ) : ℚ) + -1 = (i : ℕ) := by
      push_cast
      ring
    change toDouble (((i + 1 : ℕ) : ℚ) + -1) = _
    rw [hdifference, toDouble_natCast (by omega)]
  rw [hsub]
  change toDouble ((i : ℚ) * (size : ℚ)) = _
  rw [← Nat.cast_mul, toDouble_natCast h]

theorem sqlInteger_ofNat {n : ℕ} (h : n ≤ 2 ^ 53) : sqlInteger (.ofNat n) = some (n : ℤ) := by
  unfold sqlInteger JsNum.ofNat
  dsimp only
  rw [Rat.den_natCast, Rat.num_natCast, if_pos ⟨rfl, by omega, by omega⟩]

theorem window_eq {α : Type} {i size : ℕ} (hsize : size ≤ 100) (h : i * size ≤ 2 ^ 53)
    (rows : List α) : window (.ofNat size) (.ofNat (i * size)) rows = some (pageOf size i rows) := by
  unfold window
  rw [sqlInteger_ofNat (by omega), sqlInteger_ofNat h]
  rfl

/-- The rows the pattern finds. -/
def found (db : Db) (keyword : String) : List (ℕ × CodeRow) :=
  db.codes.rows.filter fun r => r.2.isLike (around keyword.toList)

/-- The answer to page `i + 1`. -/
def pageAnswer (db : Db) (keyword : String) (size i : ℕ) : CodesAnswer :=
  ⟨pageOf size i (newestFirst (found db keyword)), .ofNat (i + 1), .ofNat size,
    (found db keyword).length, .ofNat (pageCount (found db keyword).length size)⟩

theorem searchPage_eq (file : DbFile) {keyword : String} (hkeyword : keyword ≠ "")
    {pageSize : Option String} {i size : ℕ} (h1 : 1 ≤ size) (h100 : size ≤ 100)
    (hsize : sizeOf pageSize = .ofNat size) (hi : i * size ≤ 2 ^ 53) (hi' : i + 1 ≤ 2 ^ 53) :
    searchPage file.db keyword pageSize (i + 1) = some (pageAnswer file.db keyword size i) := by
  have hlength : (found file.db keyword).length < 2 ^ 44 :=
    lt_of_le_of_lt (List.length_filter_le _ _) file.rows_fit
  have hceil := ceil_div hlength h1 h100
  unfold searchPage listCodes
  dsimp only
  rw [pageNumber_eq (by omega) hi', hsize, Option.getD_some, if_pos hkeyword]
  unfold Db.searchCodes
  dsimp only
  rw [offset_eq hi' hi]
  change ((window _ _ (newestFirst (found file.db keyword))).bind _).bind _ = _
  rw [window_eq h100 hi]
  change some _ = some _
  unfold pageAnswer pageCount
  rw [← hceil]
  rfl

theorem CodeRow.Has.isLike {keyword : String} {row : CodeRow} (h : row.Has keyword) :
    row.isLike (around keyword.toList) = true := by
  obtain ⟨s, hs, hcontains⟩ := h
  exact List.any_eq_true.mpr ⟨s, hs, hcontains.like⟩

theorem perm_newestFirst (rows : List (ℕ × CodeRow)) : (newestFirst rows).Perm rows :=
  List.mergeSort_perm rows _

theorem pairwise_newestFirst (rows : List (ℕ × CodeRow)) :
    (newestFirst rows).Pairwise fun a b => b.1 ≤ a.1 := by
  have h : (newestFirst rows).Pairwise fun a b => decide (b.1 ≤ a.1) = true :=
    List.pairwise_mergeSort
      (fun a b c hab hbc => decide_eq_true ((of_decide_eq_true hbc).trans (of_decide_eq_true hab)))
      (fun a b => by simpa using le_total b.1 a.1) rows
  exact h.imp of_decide_eq_true

theorem searchPages_eq (file : DbFile) {keyword : String} (hkeyword : keyword ≠ "")
    {pageSize : Option String} {size : ℕ} (h1 : 1 ≤ size) (h100 : size ≤ 100)
    (hsize : sizeOf pageSize = .ofNat size) :
    (List.range (pageCount (found file.db keyword).length size)).map
        (fun i => searchPage file.db keyword pageSize (i + 1)) =
      ((List.range (pageCount (found file.db keyword).length size)).map
        (pageAnswer file.db keyword size)).map some := by
  have hrows : (found file.db keyword).length < 2 ^ 44 :=
    lt_of_le_of_lt (List.length_filter_le _ _) file.rows_fit
  rw [List.map_map]
  refine List.map_congr_left fun i hi => ?_
  have hbefore : i * size < (found file.db keyword).length :=
    mul_lt_of_lt_pageCount (List.mem_range.mp hi)
  have hle : i ≤ i * size := Nat.le_mul_of_pos_right i h1
  exact searchPage_eq file hkeyword h1 h100 hsize (by omega) (by omega)

/-- The pages in a row are what the pattern finds. -/
theorem flatMap_pageAnswer (db : Db) (keyword : String) {size : ℕ} (h1 : 1 ≤ size) :
    ((List.range (pageCount (found db keyword).length size)).map
      (pageAnswer db keyword size)).flatMap CodesAnswer.data = newestFirst (found db keyword) := by
  rw [List.flatMap_map, ← (perm_newestFirst (found db keyword)).length_eq]
  exact flatMap_pages h1 (newestFirst (found db keyword))

theorem filter_perm_iff {α : Type} {p q : α → Bool} {l : List α} (h : ∀ a, q a = true → p a = true) :
    (l.filter p).Perm (l.filter q) ↔ ∀ a ∈ l, p a = true → q a = true := by
  constructor
  · intro hperm a ha hp
    have hmem := hperm.subset (List.mem_filter.mpr ⟨ha, hp⟩)
    exact (List.mem_filter.mp hmem).2
  · intro hall
    refine List.Perm.of_eq (List.filter_congr fun a ha => ?_)
    exact Bool.eq_iff_iff.mpr ⟨hall a ha, h a⟩

/-- The search is right about a table when the pattern finds no other row in it. -/
theorem searches_iff (file : DbFile) (pageSize : Option String) {keyword : String}
    (hkeyword : keyword ≠ "") : Searches file.db keyword pageSize ↔
      ∀ r ∈ file.db.codes.rows, r.2.isLike (around keyword.toList) = true → r.2.Has keyword := by
  have hperm : (found file.db keyword).Perm
        (file.db.codes.rows.filter fun r => decide (r.2.Has keyword)) ↔
      ∀ r ∈ file.db.codes.rows, r.2.isLike (around keyword.toList) = true → r.2.Has keyword := by
    unfold found
    rw [filter_perm_iff fun r hr => (of_decide_eq_true hr).isLike]
    simp only [decide_eq_true_eq]
  obtain ⟨size, h1, h100, hsize⟩ := sizeOf_eq pageSize
  have hfirst := searchPage_eq file (i := 0) hkeyword h1 h100 hsize (by omega) (by omega)
  have hpages := searchPages_eq file hkeyword h1 h100 hsize
  have hdata := flatMap_pageAnswer file.db keyword h1
  rw [← hperm]
  constructor
  · rintro ⟨first, pages, h⟩
    have heq : first = pageAnswer file.db keyword size 0 :=
      Option.some.inj (h.answered.symm.trans hfirst)
    have hlength : pageCount (found file.db keyword).length size = pages.length := by
      have hcount := h.count
      rw [heq] at hcount
      exact JsNum.ofNat_inj.mp hcount
    rw [hlength] at hpages hdata
    have hsame := List.map_injective_iff.mpr (Option.some_injective _) (h.inTurn.symm.trans hpages)
    rw [← hsame] at hdata
    have heach := h.each
    rw [hdata] at heach
    exact (perm_newestFirst _).symm.trans heach
  · intro hfound
    have hlength : ((List.range (pageCount (found file.db keyword).length size)).map
        (pageAnswer file.db keyword size)).length =
        pageCount (found file.db keyword).length size := by
      rw [List.length_map, List.length_range]
    refine ⟨pageAnswer file.db keyword size 0,
      (List.range (pageCount (found file.db keyword).length size)).map
        (pageAnswer file.db keyword size), ?_⟩
    exact
      { answered := hfirst
        count := congrArg JsNum.ofNat hlength.symm
        inTurn := by rw [hlength, hpages]
        each := by
          rw [hdata]
          exact (perm_newestFirst _).trans hfound
        newest := by
          rw [hdata]
          exact pairwise_newestFirst _
        total := by
          intro answer hanswer
          rw [← hfound.length_eq]
          rcases List.mem_cons.mp hanswer with rfl | hmem
          · rfl
          · obtain ⟨i, -, rfl⟩ := List.mem_map.mp hmem
            rfl }

/-- A keyword without wildcards finds the rows that have it. -/
theorem has_of_plain {keyword : String} (h : Plain keyword.toList) {row : CodeRow}
    (hlike : row.isLike (around keyword.toList) = true) : row.Has keyword := by
  obtain ⟨s, hs, hs'⟩ := List.any_eq_true.mp hlike
  exact ⟨s, hs, h.like_iff.mp hs'⟩

/-- A row with the note. -/
def noted (note : List Char) : CodeRow :=
  ⟨"13800000000", "123456", some (String.ofList note), "2025-01-01 00:00:00", "2025-01-01 00:00:00"⟩

/-- A table of one row. -/
def oneRow (row : CodeRow) : DbFile :=
  ⟨{ start with codes := ⟨[(1, row)], 1⟩ }, (by decide : 1 < 2 ^ 44)⟩

/-- A keyword with a wildcard finds a row that does not have it. -/
theorem plain_of_all {keyword : String} (h : ∀ note,
    (noted note).isLike (around keyword.toList) = true → (noted note).Has keyword) :
    Plain keyword.toList := by
  have hfound : (noted ('-' :: stretched keyword.toList)).isLike (around keyword.toList) = true := by
    refine List.any_eq_true.mpr ⟨String.ofList ('-' :: stretched keyword.toList), by simp [noted,
      CodeRow.searched], ?_⟩
    rw [String.toList_ofList]
    have hlike := like_stretched keyword.toList (like_percent_nil [])
    rw [List.append_nil] at hlike
    exact like_percent.mpr ⟨_, List.suffix_cons _ _, hlike⟩
  obtain ⟨s, hs, hcontains⟩ := h _ hfound
  refine Plain.of_contains ?_ hcontains
  have hcases : s = "13800000000" ∨ s = "123456" ∨
      s = String.ofList ('-' :: stretched keyword.toList) := by
    simpa [noted, CodeRow.searched] using hs
  rcases hcases with rfl | rfl | rfl
  · exact ⟨by decide, by decide⟩
  · exact ⟨by decide, by decide⟩
  · obtain ⟨hpercent, hone⟩ := plain_stretched keyword.toList
    rw [String.toList_ofList]
    exact ⟨List.not_mem_cons_of_ne_of_not_mem (by decide) hpercent,
      List.not_mem_cons_of_ne_of_not_mem (by decide) hone⟩

/-- **The search.** In a table it finds the rows that have the keyword when the pattern finds no
other row there; in every table, when the keyword has no wildcard. -/
theorem search_right {keyword : String} (hkeyword : keyword ≠ "") :
    (∀ (file : DbFile) (pageSize : Option String), Searches file.db keyword pageSize ↔
      ∀ r ∈ file.db.codes.rows, r.2.isLike (around keyword.toList) = true → r.2.Has keyword) ∧
    ((∀ (file : DbFile) (pageSize : Option String), Searches file.db keyword pageSize) ↔
      Plain keyword.toList) := by
  refine ⟨fun file pageSize => searches_iff file pageSize hkeyword, ?_, ?_⟩
  · intro hall
    refine plain_of_all fun note hlike => ?_
    exact (searches_iff (oneRow (noted note)) none hkeyword).mp (hall _ _) (1, noted note)
      (List.mem_singleton.mpr rfl) hlike
  · intro hplain file pageSize
    exact (searches_iff file pageSize hkeyword).mpr fun r _ hlike => has_of_plain hplain hlike

theorem search_right_digits : "138" ≠ "" ∧ ∀ (file : DbFile) (pageSize : Option String),
    Searches file.db "138" pageSize :=
  ⟨by decide, (search_right (by decide)).2.mpr ⟨by decide, by decide⟩⟩

/-- `_` finds a row that does not have it. -/
theorem underscore_finds : "_" ≠ "" ∧ ¬ Searches (oneRow (noted ['a'])).db "_" none := by
  refine ⟨by decide, fun h => ?_⟩
  have hhas := (searches_iff _ none (by decide)).mp h (1, noted ['a'])
    (List.mem_singleton.mpr rfl) (by decide)
  exact absurd hhas (by decide)

end JtfpMall.FlCode
