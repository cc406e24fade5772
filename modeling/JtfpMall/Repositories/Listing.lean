import JtfpMall.Lib.Action
import JtfpMall.Lib.Paging
import JtfpMall.Js.Sort
import JtfpMall.Js.Json
import JtfpMall.Store.FileStore

/-!
# Listings

What the repositories share: programs over the store, and the list function that
every repository writes out for itself. A list takes the live table, filters it,
sorts the result and cuts a page. With no filter the sorted array is the live table itself, so the
table is reordered in memory, and the store does not learn of it.
-/

namespace JtfpMall

open JtfpMall.Js
open JtfpMall.Lib

/-- A program over the store. -/
abbrev Act (α : Type) := Action Store JsError α

/-- A failed check of a request body. -/
structure ZodIssue where
  path : List String
  message : String

/-- `CreateOrderReq`, as far as the handlers read it. -/
structure CreateOrderReq where
  propertyId : Option JsNum
  addressSnapshot : JsVal
  buyerNote : Option String
  inviteCode : Option String

/-- What the code takes from outside the repository: the collation and the table of
lower-case letters of the host, and the checks of the two request schemas. -/
structure Env where
  localeCompare : String → String → Ordering
  lower : String → String
  createOrderReq : JsVal → Except ZodIssue CreateOrderReq
  validateReq : JsVal → Except ZodIssue String

def absent (s : Option String) : JsVal := s.elim .undefined .str

theorem truthy_absent {v : Option String} : (absent v).truthy = true ↔ ∃ w, v = some w ∧ w ≠ "" := by
  cases v with
  | none => simp [absent, JsVal.truthy]
  | some w => simp [absent, JsVal.truthy]

namespace Act

def getTable (t : Table) : Act (List Row) := .reads (Store.getTable t)
def findOne (t : Table) (p : Row → Bool) : Act (Option Row) := .reads (Store.findOne t p)
def findById (t : Table) (id : JsVal) : Act (Option Row) := .reads (Store.findById t id)
def findAll (t : Table) (p : Row → Bool) : Act (List Row) := .reads (Store.findAll t p)
def count (t : Table) (p : Row → Bool) : Act ℕ := .reads (Store.count t p)

def insert (t : Table) (row : Row) (now : String) : Act Row := .does (Store.insert t row now)
def update (t : Table) (id : JsVal) (updates : Row) (now : String) : Act Bool :=
  .does (Store.update t id updates now)
def remove (t : Table) (id : JsVal) : Act Bool := .does (Store.remove t id)
def removeWhere (t : Table) (p : Row → Bool) : Act ℕ := .does (Store.removeWhere t p)
def flushNow (now : String) : Act Unit := .does fun s => ((), s.flushNow now)

end Act

/-- `a.localeCompare(b)`. -/
def localeCompare (env : Env) (callee : String) (a b : JsVal) : Except JsError JsNum :=
  match a with
  | .str s => b.toText.map fun t =>
      match env.localeCompare s t with
      | .lt => .fin (-1)
      | .eq => .fin 0
      | .gt => .fin 1
  | _ => .error (notAFunction callee)

/-- created_at DESC. -/
def byCreatedAt (env : Env) (a b : Row) : Except JsError JsNum :=
  localeCompare env "(b.created_at || \"\").localeCompare" ((b.get "created_at").or (.str ""))
    ((a.get "created_at").or (.str ""))

/-- `b.column - a.column` where the two differ, the next criterion where they do not. -/
def descending (read : Row → JsVal) (next : Row → Row → Except JsError JsNum) (a b : Row) :
    Except JsError JsNum :=
  if (read b).strictEq (read a) then next a b else JsVal.sub (read b) (read a)

/-- is_featured DESC, sort_order DESC, created_at DESC. -/
def productOrder (env : Env) : Row → Row → Except JsError JsNum :=
  descending (fun r => r.get "is_featured")
    (descending (fun r => r.get "sort_order") (byCreatedAt env))

/-- The same order, with 0 for a missing or falsy column. -/
def propertyOrder (env : Env) : Row → Row → Except JsError JsNum :=
  descending (fun r => (r.get "is_featured").or (.num (.fin 0)))
    (descending (fun r => (r.get "sort_order").or (.num (.fin 0))) (byCreatedAt env))

/-- sort_order DESC, id ASC. -/
def categoryOrder : Row → Row → Except JsError JsNum :=
  descending (fun r => r.get "sort_order") fun a b => JsVal.sub (a.get "id") (b.get "id")

/-- The order in which the list of a table sorts it. -/
def listOrder (env : Env) : Table → Row → Row → Except JsError JsNum
  | .products => productOrder env
  | .properties => propertyOrder env
  | .categories => categoryOrder
  | _ => byCreatedAt env

/-- The columns the orders read. -/
def orderColumns : List String := ["is_featured", "sort_order", "created_at", "id"]

theorem descending_congr {read : Row → JsVal} {next : Row → Row → Except JsError JsNum}
    {a a' b b' : Row} (ha : read a = read a') (hb : read b = read b')
    (hn : next a b = next a' b') : descending read next a b = descending read next a' b' := by
  unfold descending
  rw [ha, hb, hn]

/-- Rows that agree in these columns are ordered alike. -/
theorem listOrder_congr (env : Env) (t : Table) {a a' b b' : Row}
    (ha : ∀ k ∈ orderColumns, a.get k = a'.get k) (hb : ∀ k ∈ orderColumns, b.get k = b'.get k) :
    listOrder env t a b = listOrder env t a' b' := by
  have hcreated : byCreatedAt env a b = byCreatedAt env a' b' := by
    unfold byCreatedAt
    rw [ha "created_at" (by decide), hb "created_at" (by decide)]
  have hfeatured := ha "is_featured" (by decide)
  have hfeatured' := hb "is_featured" (by decide)
  have hsort := ha "sort_order" (by decide)
  have hsort' := hb "sort_order" (by decide)
  unfold listOrder
  split
  · exact descending_congr hfeatured hfeatured' (descending_congr hsort hsort' hcreated)
  · refine descending_congr ?_ ?_ (descending_congr ?_ ?_ hcreated)
    · rw [hfeatured]
    · rw [hfeatured']
    · rw [hsort]
    · rw [hsort']
  · refine descending_congr hsort hsort' ?_
    rw [ha "id" (by decide), hb "id" (by decide)]
  · exact hcreated

/-- `rows.sort(..)` on the live table. -/
def sortTable (env : Env) (t : Table) : Act (List Row) := fun s =>
  match arraySort (listOrder env t) (s.getTable t) with
  | .ok rows => (.ok rows, s.putRows t rows)
  | .error e => (.error e, s)

/-- The filters, then the sort; without filters it is the live table that is sorted. -/
def listed (env : Env) (t : Table) (filters : List (Row → Except JsError Bool)) :
    Act (List Row) :=
  match filters with
  | [] => sortTable env t
  | ps => do
    let rows ← Act.getTable t
    let kept ← Action.lift (filterAll ps rows)
    Action.lift (arraySort (listOrder env t) kept)

/-- With a filter the list works on a copy. -/
theorem listed_of_ne (env : Env) (t : Table) {filters : List (Row → Except JsError Bool)}
    (h : filters ≠ []) : listed env t filters = (do
      let rows ← Act.getTable t
      let kept ← Action.lift (filterAll filters rows)
      Action.lift (arraySort (listOrder env t) kept)) := by
  cases filters with
  | nil => exact absurd rfl h
  | cons p ps => rfl

/-- With a filter the list leaves the store as it is. -/
theorem run_listed {env : Env} {t : Table} {filters : List (Row → Except JsError Bool)} {s : Store}
    {kept rows : List Row} (h : filters ≠ []) (hk : filterAll filters (s.getTable t) = .ok kept)
    (hs : arraySort (listOrder env t) kept = .ok rows) :
    (listed env t filters).run s = (.ok rows, s) := by
  rw [listed_of_ne env t h]
  change (Action.lift (filterAll filters (s.getTable t)) >>= fun kept =>
    Action.lift (arraySort (listOrder env t) kept)).run s = _
  rw [hk, Action.lift_ok_bind, hs]
  rfl

/-- With a filter the list is that of the rows kept, whether it comes about or not. -/
theorem run_listed_of_ne (env : Env) (t : Table) {filters : List (Row → Except JsError Bool)}
    (h : filters ≠ []) (s : Store) : (listed env t filters).run s =
      (filterAll filters (s.getTable t) >>= arraySort (listOrder env t), s) := by
  rw [listed_of_ne env t h]
  change (Action.lift (filterAll filters (s.getTable t)) >>= fun kept =>
    Action.lift (arraySort (listOrder env t) kept)).run s = _
  cases filterAll filters (s.getTable t) <;> rfl

/-- Without filters the sorted table stays in its place. -/
theorem run_listed_nil {env : Env} {t : Table} {s : Store} {rows : List Row}
    (hs : arraySort (listOrder env t) (s.getTable t) = .ok rows) :
    (listed env t []).run s = (.ok rows, s.putRows t rows) := by
  change sortTable env t s = _
  unfold sortTable
  rw [hs]

/-- What a list returns. -/
theorem fst_run_listed (env : Env) (t : Table) (filters : List (Row → Except JsError Bool))
    (s : Store) : ((listed env t filters).run s).1 =
      (filterAll filters (s.getTable t) >>= arraySort (listOrder env t)) := by
  cases filters with
  | nil =>
    change (sortTable env t s).1 = arraySort (listOrder env t) (s.getTable t)
    unfold sortTable
    split <;> rename_i h <;> rw [h]
  | cons p ps =>
    change ((Action.lift (filterAll (p :: ps) (s.getTable t)) >>= fun kept =>
      Action.lift (arraySort (listOrder env t) kept)).run s).1 = _
    cases filterAll (p :: ps) (s.getTable t) <;> rfl

/-- A list leaves the other tables alone. -/
theorem getTable_run_listed (env : Env) {t u : Table} (filters : List (Row → Except JsError Bool))
    (s : Store) (h : u ≠ t) : ((listed env t filters).run s).2.getTable u = s.getTable u := by
  cases filters with
  | nil =>
    change (sortTable env t s).2.getTable u = _
    unfold sortTable
    split
    · exact StoreData.rows_setRows_of_ne _ _ h
    · rfl
  | cons p ps =>
    change ((Action.lift (filterAll (p :: ps) (s.getTable t)) >>= fun kept =>
      Action.lift (arraySort (listOrder env t) kept)).run s).2.getTable u = _
    cases filterAll (p :: ps) (s.getTable t) <;> rfl

/-- A list holds some of the rows of its table, each once. -/
theorem listed_perm {env : Env} {t : Table} {filters : List (Row → Except JsError Bool)}
    {s s' : Store} {rows : List Row} (h : (listed env t filters).run s = (.ok rows, s')) :
    ∃ kept, kept.Sublist (s.getTable t) ∧ rows.Perm kept := by
  cases filters with
  | nil =>
    change sortTable env t s = _ at h
    unfold sortTable at h
    cases hs : arraySort (listOrder env t) (s.getTable t) with
    | error e =>
      rw [hs] at h
      cases h
    | ok sorted =>
      rw [hs] at h
      cases h
      exact ⟨_, List.Sublist.refl _, arraySort_perm hs⟩
  | cons p ps =>
    change (Action.lift (filterAll (p :: ps) (s.getTable t)) >>= fun kept =>
      Action.lift (arraySort (listOrder env t) kept)).run s = _ at h
    obtain ⟨kept, s₁, hkept, hrest⟩ := Action.run_bind_ok h
    exact ⟨kept, filterAll_sublist (Action.run_lift_ok hkept).1,
      arraySort_perm (Action.run_lift_ok hrest).1⟩

/-- A filter the query asks for. -/
def onlyIf (asked : Bool) (p : Row → Except JsError Bool) : List (Row → Except JsError Bool) :=
  if asked then [p] else []

/-- A filter that throws on no row, in front of others. -/
theorem filterAll_onlyIf {asked : Bool} {p : Row → Except JsError Bool} {q : Row → Bool}
    {rows : List Row} (h : ∀ r ∈ rows, p r = .ok (q r)) (ps : List (Row → Except JsError Bool)) :
    filterAll (onlyIf asked p ++ ps) rows = filterAll ps (rows.filter fun r => !asked || q r) := by
  cases asked with
  | false => simp [onlyIf]
  | true =>
    change (filterM p rows >>= fun kept => filterAll ps kept) = _
    rw [filterM_eq_filter h]
    simp only [Bool.not_true, Bool.false_or]
    rfl

/-- `r.column === v`. -/
def columnIs (column : String) (v : JsVal) (r : Row) : Except JsError Bool :=
  .ok ((r.get column).strictEq v)

/-- `r.created_at && r.created_at >= startAt`. -/
def createdFrom (startAt : JsVal) (r : Row) : Except JsError Bool :=
  if (r.get "created_at").truthy then (r.get "created_at").ge startAt else .ok false

/-- `r.created_at && r.created_at <= endAt`. -/
def createdTo (endAt : JsVal) (r : Row) : Except JsError Bool :=
  if (r.get "created_at").truthy then (r.get "created_at").le endAt else .ok false

/-- `r.column?.includes(kw)`. -/
def columnIncludes (column : String) (kw : JsVal) (r : Row) : Except JsError Bool :=
  if (r.get column).isNullish then .ok false
  else (r.get column).includes ("r." ++ column ++ "?.includes") kw

/-- `r.column?.toLowerCase().includes(kw)`. -/
def columnMatches (env : Env) (column : String) (kw : JsVal) (r : Row) : Except JsError Bool :=
  if (r.get column).isNullish then .ok false
  else do
    let text ← (r.get column).toLowerCase env.lower ("r." ++ column ++ "?.toLowerCase")
    (JsVal.str text).includes "includes" kw

/-- `p(r) || q(r)`. -/
def either (p q : Row → Except JsError Bool) (r : Row) : Except JsError Bool := do
  if (← p r) then return true else q r

/-- `query.keyword.toLowerCase()`, when the query has one. -/
def lowered (env : Env) (name : String) (v : JsVal) : Except JsError JsVal :=
  if v.truthy then (v.toLowerCase env.lower ("query." ++ name ++ ".toLowerCase")).map .str
  else .ok .undefined

/-- `n || d`. -/
def orDefault (n : Option JsNum) (d : JsNum) : JsNum :=
  match n with
  | some n => if n.truthy then n else d
  | none => d

/-- The page of a list: at most 100 rows. -/
def paginate (page pageSize : Option JsNum) (rows : List Row) : List Row :=
  let page := orDefault page (.fin 1)
  let pageSize := (orDefault pageSize (.fin 20)).min (.fin 100)
  let offset := (page.sub (.fin 1)).mul pageSize
  slice rows offset (offset.add pageSize)

/-- The slice behind `i` pages of size `k`. -/
theorem slice_page {i k : ℕ} (hk : 1 ≤ k) (hi : i * k + k ≤ 2 ^ 53) (rows : List Row) :
    slice rows (((JsNum.fin (i + 1 : ℕ)).sub (.fin 1)).mul (.fin k))
      ((((JsNum.fin (i + 1 : ℕ)).sub (.fin 1)).mul (.fin k)).add (.fin k)) = pageOf k i rows := by
  have hle : i ≤ 2 ^ 53 := by nlinarith
  have hpages : (JsNum.fin (i + 1 : ℕ)).sub (.fin 1) = .fin i := by
    have h := add_int (m := ((i + 1 : ℕ) : ℤ)) (n := -1) (by omega)
    push_cast at h ⊢
    simpa [JsNum.sub, JsNum.neg] using h
  have hoffset : (JsNum.fin i).mul (.fin k) = .fin (i * k : ℕ) := by
    have h := mul_int (m := (i : ℤ)) (n := (k : ℤ)) (by
      rw [← Nat.cast_mul, Int.natAbs_natCast]
      omega)
    push_cast at h ⊢
    exact h
  have hstop : (JsNum.fin (i * k : ℕ)).add (.fin k) = .fin (i * k + k : ℕ) := by
    have h := add_int (m := ((i * k : ℕ) : ℤ)) (n := (k : ℤ)) (by
      rw [← Nat.cast_add, Int.natAbs_natCast]
      exact hi)
    push_cast at h ⊢
    exact h
  rw [hpages, hoffset, hstop]
  exact slice_natCast rows (i * k) k

/-- The page behind `i` pages of size `k`. -/
theorem paginate_eq {page pageSize : Option JsNum} {i k : ℕ}
    (hp : orDefault page (.fin 1) = .fin (i + 1 : ℕ)) (hk : 1 ≤ k)
    (hz : (orDefault pageSize (.fin 20)).min (.fin 100) = .fin k) (hi : i * k + k ≤ 2 ^ 53)
    (rows : List Row) : paginate page pageSize rows = pageOf k i rows := by
  unfold paginate
  simp only [hp, hz]
  exact slice_page hk hi rows

/-- A size from 1 to 100 is not capped. -/
theorem min_of_le_hundred {k : ℕ} (hk : k ≤ 100) : (JsNum.fin k).min (.fin 100) = .fin k := by
  have hle : (k : ℚ) ≤ 100 := by exact_mod_cast hk
  unfold JsNum.min JsNum.lt?
  rcases lt_or_eq_of_le hle with hlt | heq
  · simp [hlt]
  · simp [heq]

theorem orDefault_natCast {k : ℕ} (hk : 1 ≤ k) (d : JsNum) :
    orDefault (some (.fin k)) d = .fin k := by
  have hne : (k : ℚ) ≠ 0 := by exact_mod_cast (show k ≠ 0 by omega)
  simp [orDefault, JsNum.truthy, hne]

/-- A first page of 10000 rows has 100. -/
theorem paginate_capped (rows : List Row) :
    paginate none (some (.fin 10000)) rows = rows.take 100 := by
  rw [paginate_eq (i := 0) (k := 100) (by rfl) (by omega) (by rfl) (by omega)]
  unfold pageOf
  rw [Nat.zero_mul, List.drop_zero]

theorem paginate_forall₂ {R : Row → Row → Prop} (page pageSize : Option JsNum)
    {rows rows' : List Row} (h : List.Forall₂ R rows rows') :
    List.Forall₂ R (paginate page pageSize rows) (paginate page pageSize rows') :=
  slice_forall₂ h _ _

end JtfpMall
