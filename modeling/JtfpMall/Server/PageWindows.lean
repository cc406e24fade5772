import JtfpMall.Js.Whole
import JtfpMall.Lib.Growing
import JtfpMall.Server.Requests

/-!
# What a page may hold

The routers read the page and its size from the query, each in its own way, and the repositories
cap the size at 100. Nothing but the mall list keeps the size from being negative: a
negative size cuts that many rows off the end of the list instead of taking some from its front.
-/

namespace JtfpMall

open JtfpMall.Js
open JtfpMall.Lib

/-- The first page is asked for, with a size below zero: all but the last `m` rows. -/
def AllBut (page size : JsNum) (m : ℕ) : Prop :=
  orDefault (some page) (.fin 1) = .fin 1 ∧ 0 < m ∧ size = .fin (-(m : ℤ) : ℤ)

section
variable {page size : JsNum} {rows : List Row}

theorem whole_orDefault {n : JsNum} (hn : Whole n) (d : ℤ) :
    Whole (orDefault (some n) (.fin d)) := by
  unfold orDefault
  dsimp only
  split
  · exact hn
  · exact .int d

theorem max_one (z : ℤ) : (JsNum.fin z).max (.fin 1) = .fin (max z 1 : ℤ) := by
  have h := max_fin z 1
  rwa [Int.cast_one] at h

theorem min_hundred (z : ℤ) : (JsNum.fin z).min (.fin 100) = .fin (min z 100 : ℤ) := by
  have h := min_fin z 100
  rwa [Int.cast_ofNat] at h

/-- A size other than zero is capped and nothing else. -/
theorem capped_int {z : ℤ} (hz : z ≠ 0) :
    (orDefault (some (.fin z)) (.fin 20)).min (.fin 100) = .fin (min z 100 : ℤ) := by
  have htruthy : orDefault (some (.fin z)) (.fin 20) = .fin z := by
    simp [orDefault, JsNum.truthy, hz]
  rw [htruthy, min_hundred]

theorem capped_default : (JsNum.fin 20).min (.fin 100) = .fin ((20 : ℕ) : ℤ) := by
  have h := min_hundred 20
  norm_num at h ⊢
  exact h

/-- The size the repository works with. -/
theorem size_cases (hz : Whole size) :
    (∃ k : ℕ, 1 ≤ k ∧ k ≤ 100 ∧ (orDefault (some size) (.fin 20)).min (.fin 100) = .fin (k : ℤ)) ∨
    (∃ m : ℕ, 0 < m ∧ size = .fin (-(m : ℤ) : ℤ)) ∨
    (orDefault (some size) (.fin 20)).min (.fin 100) = .inf true := by
  cases hz with
  | nan => exact Or.inl ⟨20, by omega, by omega, capped_default⟩
  | inf neg =>
    cases neg with
    | true => exact Or.inr (Or.inr rfl)
    | false =>
      refine Or.inl ⟨100, by omega, by omega, ?_⟩
      simp [orDefault, JsNum.truthy, JsNum.min, JsNum.lt?]
  | int z =>
    rcases lt_trichotomy z 0 with hneg | rfl | hpos
    · refine Or.inr (Or.inl ⟨z.natAbs, by omega, ?_⟩)
      rw [show (-(z.natAbs : ℤ)) = z by omega]
    · refine Or.inl ⟨20, by omega, by omega, ?_⟩
      rw [← capped_default]
      simp [orDefault, JsNum.truthy]
    · refine Or.inl ⟨(min z 100).toNat, by omega, by omega, ?_⟩
      rw [capped_int hpos.ne', show (((min z 100).toNat : ℕ) : ℤ) = min z 100 by omega]

/-- A size from 1 to 100 takes no more rows than that. -/
theorem length_slice_le_size {offset : JsNum} (ho : Whole offset) {k : ℕ}
    (hn : rows.length ≤ 2 ^ 53) : (slice rows offset (offset.add (.fin (k : ℤ)))).length ≤ k := by
  apply length_slice_le
  cases ho with
  | nan => exact Nat.zero_le _
  | inf neg => exact Nat.le_add_right _ _
  | int z =>
    rw [(rounds_add z k).sliceIndex hn, sliceIndex_int]
    unfold placeAt
    split <;> split <;> omega

/-- The offset of another page than the first, with a size below zero, leaves nothing. -/
theorem slice_negative {j s : ℤ} (hj : j ≠ 0) (hs : s < 0) (hn : rows.length ≤ 2 ^ 53)
    {offset : JsNum} (ho : Rounds (j * s) offset) :
    slice rows offset (offset.add (.fin s)) = [] := by
  apply slice_eq_nil
  have hplace := ho.sliceIndex hn
  cases ho with
  | exact _ =>
    rw [hplace, (rounds_add (j * s) s).sliceIndex hn]
    unfold placeAt
    rcases lt_or_gt_of_ne hj with hneg | hpos
    · have hle : -s ≤ j * s := by nlinarith
      rw [if_neg (by omega), if_neg (by omega)]
      omega
    · have hlt : j * s < 0 := by nlinarith
      rw [if_pos (by omega), if_pos hlt]
      omega
  | above hz hw =>
    rw [hplace]
    have hlast : placeAt (j * s) rows.length = rows.length := by
      unfold placeAt
      rw [if_neg (by omega)]
      omega
    rw [hlast]
    exact (rounds_add _ s).whole.sliceIndex_le _
  | @below w hz hw =>
    rw [(rounds_add w s).sliceIndex hn]
    unfold placeAt
    rw [if_pos (by omega)]
    omega
  | infAbove hz => exact le_refl _
  | infBelow hz => exact le_refl _

/-- So does any other page than the first. -/
theorem slice_later {p : JsNum} (hp : Whole p) (hfirst : p ≠ .fin 1) {s : ℤ} (hs : s < 0)
    (hn : rows.length ≤ 2 ^ 53) :
    slice rows ((p.sub (.fin 1)).mul (.fin s)) (((p.sub (.fin 1)).mul (.fin s)).add (.fin s)) = [] := by
  cases hp with
  | nan => exact slice_eq_nil (le_refl _)
  | inf neg =>
    have hoffset : ((JsNum.inf neg).sub (.fin 1)).mul (.fin s) = .inf (neg != true) := by
      have hs' : (s : ℚ) < 0 := by exact_mod_cast hs
      simp [JsNum.sub, JsNum.neg, JsNum.add, JsNum.mul, hs'.ne, hs']
    rw [hoffset]
    exact slice_eq_nil (le_refl _)
  | int z =>
    have hz : z ≠ 1 := by
      rintro rfl
      exact hfirst (by norm_num)
    have hpages := rounds_sub z 1
    rw [Int.cast_one] at hpages
    -- a page number too large to be exact has the sign of the exact one
    have hsigned : ∃ n, ((JsNum.fin z).sub (.fin 1)) = n ∧
        ((∃ j : ℤ, j ≠ 0 ∧ n = .fin j) ∨ ∃ neg, n = .inf neg) := by
      refine ⟨_, rfl, ?_⟩
      generalize (JsNum.fin z).sub (.fin 1) = n at hpages ⊢
      cases hpages with
      | exact _ => exact Or.inl ⟨z - 1, by omega, rfl⟩
      | above _ hw => exact Or.inl ⟨_, by omega, rfl⟩
      | below _ hw => exact Or.inl ⟨_, by omega, rfl⟩
      | infAbove _ => exact Or.inr ⟨_, rfl⟩
      | infBelow _ => exact Or.inr ⟨_, rfl⟩
    obtain ⟨n, hn', ⟨j, hj, rfl⟩ | ⟨neg, rfl⟩⟩ := hsigned
    · rw [hn']
      exact slice_negative hj hs hn (rounds_mul j s)
    · have hs' : (s : ℚ) < 0 := by exact_mod_cast hs
      have hoffset : (JsNum.inf neg).mul (.fin s) = .inf (neg != true) := by
        simp [JsNum.mul, hs'.ne, hs']
      rw [hn', hoffset]
      exact slice_eq_nil (le_refl _)

/-- A size of minus infinity leaves nothing. -/
theorem slice_endless {offset : JsNum} (ho : Whole offset) :
    slice rows offset (offset.add (.inf true)) = [] := by
  apply slice_eq_nil
  cases ho with
  | nan => exact le_refl _
  | inf neg => cases neg <;> exact Nat.zero_le _
  | int z => exact Nat.zero_le _

/-- The offset of the first page. -/
theorem offset_first (s : ℤ) : ((JsNum.fin 1).sub (.fin 1)).mul (.fin s) = .fin ((0 : ℤ) : ℚ) := by
  have hzero : (JsNum.fin 1).sub (.fin 1) = .fin ((0 : ℤ) : ℚ) := by
    have h := add_int (m := 1) (n := -1) (by decide)
    norm_num at h ⊢
    exact h
  rw [hzero]
  change toDouble (((0 : ℤ) : ℚ) * s) = _
  rw [← Int.cast_mul, zero_mul, toDouble_int (by decide)]

/-- The first page with a size below zero. -/
theorem paginate_allBut {m : ℕ} (h : AllBut page size m) (hn : rows.length ≤ 2 ^ 53) :
    paginate (some page) (some size) rows = rows.take (rows.length - m) := by
  obtain ⟨hpage, hm, rfl⟩ := h
  unfold paginate
  simp only [hpage, capped_int (z := -(m : ℤ)) (by omega), min_eq_left (a := -(m : ℤ)) (b := 100)
    (by omega), offset_first]
  have hstart : placeAt 0 rows.length = 0 := by
    unfold placeAt
    rw [if_neg (by omega)]
    omega
  have hstop : placeAt (0 + -(m : ℤ)) rows.length = rows.length - m := by
    unfold placeAt
    rw [if_pos (by omega)]
    omega
  unfold slice
  rw [(rounds_add 0 (-(m : ℤ))).sliceIndex hn, sliceIndex_int, hstart, hstop]
  rfl

/-- Any other page holds at most 100 rows. -/
theorem length_paginate_le (hp : Whole page) (hz : Whole size) (hn : rows.length ≤ 2 ^ 53)
    (h : ∀ m, ¬ AllBut page size m) : (paginate (some page) (some size) rows).length ≤ 100 := by
  have hp := whole_orDefault hp 1
  rw [Int.cast_one] at hp
  unfold paginate
  dsimp only
  rcases size_cases hz with ⟨k, _, hk, hsize⟩ | ⟨m, hm, rfl⟩ | hsize
  · rw [hsize]
    exact (length_slice_le_size ((hp.sub (.int 1)).mul (.int k)) hn).trans hk
  · have hfirst : orDefault (some page) (.fin 1) ≠ .fin 1 := fun h1 => h m ⟨h1, hm, rfl⟩
    rw [capped_int (by omega), min_eq_left (by omega)]
    exact (congrArg List.length (slice_later hp hfirst (by omega) hn)).trans_le (Nat.zero_le _)
  · rw [hsize]
    refine (congrArg List.length (slice_endless ?_)).trans_le (Nat.zero_le _)
    exact (hp.sub (.int 1)).mul (.inf true)

end

/-- The lists with pages. -/
inductive PagedList where
  | products
  | reviews
  | mall
  | orders
  | adminProducts
  | adminProperties
  | welfareCodes
deriving DecidableEq

/-- The rows under a field of a response. -/
def Response.rowsIn (field : String) (res : Response) : List Row :=
  match res.body.lookup field with
  | some (.rows rs) => rs
  | _ => []

namespace PagedList

variable (env : Env) (query : Row)

def serve : PagedList → Act Response
  | .products => CatalogueRoutes.products env query
  | .reviews => CatalogueRoutes.reviews env query
  | .mall => PropertyRoutes.mallList env query
  | .orders => AdminOrderRoutes.list env query
  | .adminProducts => CatalogueRoutes.adminProducts env query
  | .adminProperties => PropertyRoutes.adminList env query
  | .welfareCodes => WelfareRoutes.adminList env query

/-- The field of the body with the rows. -/
def field : PagedList → String
  | .products => "list"
  | .reviews => "reviews"
  | .mall => "list"
  | .orders => "orders"
  | .adminProducts => "products"
  | .adminProperties => "properties"
  | .welfareCodes => "codes"

/-- The page a router asks its repository for. -/
def page : PagedList → Except JsError JsNum
  | .products => pageFrom1 query
  | .reviews => pageFrom1 query
  | .mall => (PropertyRoutes.toInt (query.get "page") 1).map fun n => n.max (.fin 1)
  | _ => parseIntOr query "page" "1"

/-- The page size a router asks its repository for. -/
def pageSize : PagedList → Except JsError JsNum
  | .mall => (PropertyRoutes.toInt (query.get "pageSize") 20).map fun n =>
      (n.max (.fin 1)).min (.fin 100)
  | _ => pageSizeTo100 query

/-- The rows that match the query, in the order of the list. -/
def found : PagedList → Act (List Row)
  | .products => do
    let categoryId ← Action.lift (CatalogueRoutes.categoryOf query)
    let filters ← Action.lift (Products.ListQuery.filters env
      { page := none, pageSize := none, keyword := keywordOf query, categoryId := categoryId,
        status := .num (.fin 1) })
    listed env .products filters
  | .reviews => do
    let productId ← Action.lift (parseIntOr query "productId" "0")
    listed env .reviews (Reviews.ListQuery.filters
      { page := none, pageSize := none,
        productId := if (JsNum.fin 0).lt? productId = some true then some productId else none,
        userId := none, status := .num (.fin 1) })
  | .mall => do
    let keyword ← Action.lift (PropertyRoutes.mallKeyword query)
    let categoryId ← Action.lift (PropertyRoutes.toInt (query.get "categoryId") 0)
    let filters ← Action.lift (Properties.ListQuery.filters env
      { page := none, pageSize := none, communityName := .undefined, customerPhone := .undefined,
        authCode := .undefined, startAt := .undefined, endAt := .undefined, keyword := keyword,
        categoryId := if (JsNum.fin 0).lt? categoryId = some true then some categoryId else none,
        status := .num (.fin 1) })
    listed env .properties filters
  | .orders => do
    let startAt ← Action.lift (AdminOrderRoutes.rangeEnd query "startAt" "startDate" "00:00:00")
    let endAt ← Action.lift (AdminOrderRoutes.rangeEnd query "endAt" "endDate" "23:59:59")
    listed env .orders (Orders.ListQuery.filters
      { page := none, pageSize := none, status := query.get "status",
        orderNo := query.get "orderNo", phone := query.get "phone", startAt := startAt,
        endAt := endAt, userId := none })
  | .adminProducts => do
    let filters ← Action.lift (Products.ListQuery.filters env
      { page := none, pageSize := none, keyword := keywordOf query, categoryId := none,
        status := .undefined })
    listed env .products filters
  | .adminProperties => do
    let filters ← Action.lift (Properties.ListQuery.filters env
      { page := none, pageSize := none, communityName := query.get "communityName",
        customerPhone := query.get "customerPhone", authCode := query.get "authCode",
        startAt := query.get "startAt", endAt := query.get "endAt", keyword := .undefined,
        categoryId := none, status := .undefined })
    listed env .properties filters
  | .welfareCodes => do
    let filters ← Action.lift (WelfareCodes.ListQuery.filters env
      { page := none, pageSize := none, keyword := keywordOf query, status := .undefined,
        type := .undefined })
    listed env .welfareCodes filters

/-- How a list shows one row. -/
def shown (s : Store) (row : Row) : PagedList → Except JsError Row
  | .mall => Properties.mallItem row
  | .orders => Orders.withUser (s.getTable .users) row >>= AdminOrderRoutes.forList
  | .welfareCodes => WelfareCodes.withItems (s.getTable .welfareCodeItems) row
  | _ => .ok row

/-- How a list shows the rows of a page. -/
def shownAll (s : Store) (rows : List Row) : PagedList → Except JsError (List Row)
  | .mall => rows.mapM Properties.mallItem
  | .orders => rows.mapM (Orders.withUser (s.getTable .users)) >>= fun orders =>
      orders.mapM AdminOrderRoutes.forList
  | .welfareCodes => rows.mapM (WelfareCodes.withItems (s.getTable .welfareCodeItems))
  | _ => .ok rows

/-- What all the routers do: read the page and its size, find the rows and show one page. -/
def pageShown (l : PagedList) : Act (List Row) := do
  let page ← Action.lift (l.page query)
  let pageSize ← Action.lift (l.pageSize query)
  let rows ← l.found env query
  let s ← Action.reads id
  Action.lift (l.shownAll s (paginate (some page) (some pageSize) rows))

/-- The rows of the answer; an error message holds none. -/
def answered (l : PagedList) (s : Store) : List Row :=
  match ((l.serve env query).run s).1 with
  | .ok res => res.rowsIn l.field
  | .error _ => []

end PagedList

/-- A body of plain values holds no rows. -/
theorem Response.rowsIn_eq_nil {field : String} {res : Response}
    (h : ∀ p ∈ res.body, ∃ v, p.2 = .val v) : res.rowsIn field = [] := by
  unfold rowsIn
  split
  · rename_i rs hl
    obtain ⟨l₁, l₂, hbody, _⟩ := List.lookup_eq_some_iff.mp hl
    obtain ⟨v, hv⟩ := h (field, .rows rs) (by rw [hbody]; simp)
    cases hv
  · rfl

/-- The rows a program returns; none when it throws. -/
def rowsReturned (m : Act (List Row)) (s : Store) : List Row :=
  match (m.run s).1 with
  | .ok rows => rows
  | .error _ => []

/-- The response holds what the other program returns. -/
def Gives (field : String) (m : Act Response) (n : Act (List Row)) : Prop :=
  ∀ s, (match (m.run s).1 with
    | .ok res => res.rowsIn field
    | .error _ => []) = rowsReturned n s

section
variable {α : Type} {field : String}

theorem gives_bind (x : Act α) {f : α → Act Response} {g : α → Act (List Row)}
    (h : ∀ a, Gives field (f a) (g a)) : Gives field (x >>= f) (x >>= g) := by
  intro s
  unfold rowsReturned
  rw [Action.run_bind, Action.run_bind]
  match x.run s with
  | (.ok a, s') => exact h a s'
  | (.error _, _) => rfl

theorem gives_pure {res : Response} {rows : List Row} (h : res.rowsIn field = rows) :
    Gives field (pure res) (pure rows) := fun _ => h

theorem gives_lift {x : Except JsError (List Row)} {f : List Row → Response}
    (h : ∀ rows, (f rows).rowsIn field = rows) :
    Gives field (Action.lift x >>= fun rows => pure (f rows)) (Action.lift x) := by
  intro s
  cases x with
  | ok rows => exact h rows
  | error e => rfl

theorem gives_reads {g : Store → α} {f : α → Act Response} {h : Store → Act (List Row)}
    (hf : ∀ s, Gives field (f (g s)) (h s)) :
    Gives field (Action.reads g >>= f) (Action.reads id >>= h) := fun s => hf s s

theorem gives_attempt {m : Act Response} {n : Act (List Row)} {h : JsError → Response}
    (hm : Gives field m n) (hh : ∀ e, (h e).rowsIn field = []) : Gives field (m.attempt h) n := by
  intro s
  rw [← hm s, Action.run_attempt]
  match m.run s with
  | (.ok _, _) => rfl
  | (.error e, _) => exact hh e

theorem gives_guarded {m : Act Response} {n : Act (List Row)} (hm : Gives field m n) :
    Gives field (guarded m) n := by
  refine gives_attempt hm fun e => Response.rowsIn_eq_nil fun p hp => ?_
  simp only [Response.appError, List.mem_cons, List.not_mem_nil, or_false] at hp
  rcases hp with rfl | rfl | rfl <;> exact ⟨_, rfl⟩

theorem gives_adminGuarded {m : Act Response} {n : Act (List Row)} (hm : Gives field m n) :
    Gives field (adminGuarded m) n := by
  refine gives_attempt hm fun e => Response.rowsIn_eq_nil fun p hp => ?_
  rw [List.mem_singleton.mp hp]
  exact ⟨_, rfl⟩

/-- A value that is read before two others may be read after them. -/
theorem gives_lift_comm {β γ : Type} {x : Except JsError α} {y : Except JsError β}
    {z : Except JsError γ} {f : α → β → γ → Act Response} {g : α → β → γ → Act (List Row)}
    (h : ∀ a b c, Gives field (f a b c) (g a b c)) :
    Gives field
      (Action.lift x >>= fun a => Action.lift y >>= fun b => Action.lift z >>= fun c => f a b c)
      (Action.lift y >>= fun b => Action.lift z >>= fun c => Action.lift x >>= fun a => g a b c) := by
  intro s
  cases x with
  | error e => cases y <;> cases z <;> rfl
  | ok a =>
    cases y with
    | error e => rfl
    | ok b =>
      cases z with
      | error e => rfl
      | ok c => exact h a b c s

end

theorem lift_map_bind {α β : Type} (x : Except JsError α) (f : α → β) (g : β → Act (List Row)) :
    (Action.lift (x.map f) >>= g) = Action.lift x >>= fun a => g (f a) := by
  cases x <;> rfl

theorem lift_bind {α β : Type} (x : Except JsError α) (f : α → Except JsError β) :
    (Action.lift (x >>= f) : Act β) = Action.lift x >>= fun a => Action.lift (f a) := by
  cases x <;> rfl

theorem answered_eq (env : Env) (query : Row) (l : PagedList) (s : Store) :
    l.answered env query s = rowsReturned (l.pageShown env query) s := by
  have hgives : Gives l.field (l.serve env query) (l.pageShown env query) := by
    cases l with
    | products =>
      refine gives_guarded (gives_bind _ fun page => gives_bind _ fun size => ?_)
      unfold PagedList.found
      rw [Action.bind_assoc]
      refine gives_bind _ fun category => ?_
      unfold Products.listEnabled Products.list
      simp only [Action.bind_assoc]
      exact gives_bind _ fun filters => gives_bind _ fun rows => gives_pure rfl
    | reviews =>
      refine gives_guarded ?_
      unfold PagedList.pageShown PagedList.found Reviews.list
      simp only [Action.bind_assoc]
      refine gives_lift_comm fun productId page size => ?_
      exact gives_bind _ fun rows => gives_pure rfl
    | mall =>
      refine gives_guarded ?_
      unfold PagedList.pageShown PagedList.page PagedList.pageSize PagedList.found
      unfold Properties.listMall Properties.list
      simp only [Action.bind_assoc, lift_map_bind]
      refine gives_bind _ fun page => gives_bind _ fun size => gives_bind _ fun keyword => ?_
      refine gives_bind _ fun category => gives_bind _ fun filters => gives_bind _ fun rows => ?_
      exact fun s => gives_lift (fun _ => rfl) s
    | orders =>
      refine gives_adminGuarded (gives_bind _ fun page => gives_bind _ fun size => ?_)
      unfold PagedList.found Orders.list
      simp only [Action.bind_assoc]
      refine gives_bind _ fun startAt => gives_bind _ fun endAt => gives_bind _ fun rows => ?_
      refine gives_reads fun s => ?_
      unfold PagedList.shownAll
      rw [lift_bind]
      exact gives_bind _ fun orders => gives_lift fun _ => rfl
    | adminProducts =>
      refine gives_adminGuarded (gives_bind _ fun page => gives_bind _ fun size => ?_)
      unfold PagedList.found Products.list
      simp only [Action.bind_assoc]
      exact gives_bind _ fun filters => gives_bind _ fun rows => gives_pure rfl
    | adminProperties =>
      refine gives_adminGuarded (gives_bind _ fun page => gives_bind _ fun size => ?_)
      unfold PagedList.found Properties.list
      simp only [Action.bind_assoc]
      exact gives_bind _ fun filters => gives_bind _ fun rows => gives_pure rfl
    | welfareCodes =>
      refine gives_adminGuarded (gives_bind _ fun page => gives_bind _ fun size => ?_)
      unfold PagedList.found WelfareCodes.list
      simp only [Action.bind_assoc]
      refine gives_bind _ fun filters => gives_bind _ fun rows => ?_
      exact gives_reads fun s => gives_lift fun _ => rfl
  exact hgives s

theorem mapM_mapM_ok_iff {α β γ : Type} {f : α → Except JsError β} {g : β → Except JsError γ}
    {l : List α} {m : List γ} : (l.mapM f >>= fun bs => bs.mapM g) = .ok m ↔
      List.Forall₂ (fun a c => (f a >>= g) = .ok c) l m := by
  constructor
  · intro h
    obtain ⟨bs, hbs, hm⟩ := bind_ok h
    rw [mapM_ok_iff] at hbs hm
    clear h
    induction hbs generalizing m with
    | nil =>
      cases hm
      exact .nil
    | cons hb _ ih =>
      cases hm with
      | cons hc hcs => exact .cons (by rw [hb]; exact hc) (ih hcs)
  · intro h
    have hsteps : ∃ bs, List.Forall₂ (fun a b => f a = .ok b) l bs ∧
        List.Forall₂ (fun b c => g b = .ok c) bs m := by
      induction h with
      | nil => exact ⟨[], .nil, .nil⟩
      | cons hac _ ih =>
        obtain ⟨bs, hbs, hcs⟩ := ih
        obtain ⟨b, hb, hc⟩ := bind_ok hac
        exact ⟨b :: bs, .cons hb hbs, .cons hc hcs⟩
    obtain ⟨bs, hbs, hcs⟩ := hsteps
    rw [mapM_ok_iff.mpr hbs]
    exact mapM_ok_iff.mpr hcs

namespace PagedList

variable {env : Env} {query : Row} {l : PagedList} {s s' : Store} {page size : JsNum}
  {rows shown : List Row}

theorem shownAll_ok_iff : l.shownAll s rows = .ok shown ↔
    List.Forall₂ (fun row row' => l.shown s row = .ok row') rows shown := by
  cases l with
  | mall => exact mapM_ok_iff
  | orders => exact mapM_mapM_ok_iff
  | welfareCodes => exact mapM_ok_iff
  | _ =>
    change Except.ok rows = .ok shown ↔ List.Forall₂ (fun row row' => Except.ok row = .ok row') _ _
    simp only [Except.ok.injEq, List.forall₂_eq_eq_eq]

/-- The table a list is taken from. -/
def table : PagedList → Table
  | .products => .products
  | .reviews => .reviews
  | .mall => .properties
  | .orders => .orders
  | .adminProducts => .products
  | .adminProperties => .properties
  | .welfareCodes => .welfareCodes

theorem length_listed_le {t : Table} {filters : List (Row → Except JsError Bool)}
    (h : (listed env t filters).run s = (.ok rows, s')) :
    rows.length ≤ (s.getTable t).length := by
  obtain ⟨kept, hsub, hperm⟩ := listed_perm h
  rw [hperm.length_eq]
  exact hsub.length_le

/-- A list finds no more rows than its table has. -/
theorem length_found_le (h : (l.found env query).run s = (.ok rows, s')) :
    rows.length ≤ (s.getTable l.table).length := by
  cases l with
  | products =>
    obtain ⟨_, _, h⟩ := Action.run_lift_bind_ok h
    obtain ⟨_, _, h⟩ := Action.run_lift_bind_ok h
    exact length_listed_le h
  | reviews =>
    obtain ⟨_, _, h⟩ := Action.run_lift_bind_ok h
    exact length_listed_le h
  | mall =>
    obtain ⟨_, _, h⟩ := Action.run_lift_bind_ok h
    obtain ⟨_, _, h⟩ := Action.run_lift_bind_ok h
    obtain ⟨_, _, h⟩ := Action.run_lift_bind_ok h
    exact length_listed_le h
  | orders =>
    obtain ⟨_, _, h⟩ := Action.run_lift_bind_ok h
    obtain ⟨_, _, h⟩ := Action.run_lift_bind_ok h
    exact length_listed_le h
  | adminProducts =>
    obtain ⟨_, _, h⟩ := Action.run_lift_bind_ok h
    exact length_listed_le h
  | adminProperties =>
    obtain ⟨_, _, h⟩ := Action.run_lift_bind_ok h
    exact length_listed_le h
  | welfareCodes =>
    obtain ⟨_, _, h⟩ := Action.run_lift_bind_ok h
    exact length_listed_le h

theorem whole_parseIntOr {name d : String} (h : parseIntOr query name d = .ok page) :
    Whole page := by
  obtain ⟨text, _, rfl⟩ := map_ok h
  exact whole_parseInt text

theorem whole_toInt {v : JsVal} {fallback : ℕ} (h : PropertyRoutes.toInt v fallback = .ok page) :
    Whole page := by
  unfold PropertyRoutes.toInt at h
  obtain ⟨text, _, h⟩ := bind_ok h
  cases h
  split
  · exact whole_parseInt text
  · exact .int fallback

theorem whole_one : Whole (.fin 1) := by
  have h := Whole.int 1
  rwa [Int.cast_one] at h

theorem whole_hundred : Whole (.fin 100) := .int 100

theorem whole_page (h : l.page query = .ok page) : Whole page := by
  have hfrom : pageFrom1 query = .ok page → Whole page := fun h => by
    obtain ⟨n, hn, rfl⟩ := map_ok h
    exact (whole_parseIntOr hn).max whole_one
  cases l with
  | products => exact hfrom h
  | reviews => exact hfrom h
  | mall =>
    obtain ⟨n, hn, rfl⟩ := map_ok h
    exact (whole_toInt hn).max whole_one
  | _ => exact whole_parseIntOr h

theorem whole_pageSize (h : l.pageSize query = .ok size) : Whole size := by
  have hto : pageSizeTo100 query = .ok size → Whole size := fun h => by
    obtain ⟨n, hn, rfl⟩ := map_ok h
    exact (whole_parseIntOr hn).min whole_hundred
  cases l with
  | mall =>
    obtain ⟨n, hn, rfl⟩ := map_ok h
    exact ((whole_toInt hn).max whole_one).min whole_hundred
  | _ => exact hto h

/-- The answer shows a page, or it holds no rows since something was thrown. -/
theorem answered_cases (env : Env) (query : Row) (l : PagedList) (s : Store) :
    (∃ page size rows s', l.page query = .ok page ∧ l.pageSize query = .ok size ∧
      (l.found env query).run s = (.ok rows, s') ∧
      List.Forall₂ (fun row row' => l.shown s' row = .ok row')
        (paginate (some page) (some size) rows) (l.answered env query s)) ∨
    (l.answered env query s = [] ∧ ∀ page size rows s', l.page query = .ok page →
      l.pageSize query = .ok size → (l.found env query).run s = (.ok rows, s') →
      ∀ shown, l.shownAll s' (paginate (some page) (some size) rows) ≠ .ok shown) := by
  rw [answered_eq]
  unfold rowsReturned
  match hrun : (l.pageShown env query).run s with
  | (.ok shown, s₁) =>
    left
    obtain ⟨page, hpage, h⟩ := Action.run_lift_bind_ok hrun
    obtain ⟨size, hsize, h⟩ := Action.run_lift_bind_ok h
    obtain ⟨rows, s', hfound, h⟩ := Action.run_bind_ok h
    exact ⟨page, size, rows, s', hpage, hsize, hfound, shownAll_ok_iff.mp (congrArg Prod.fst h)⟩
  | (.error e, s₁) =>
    right
    refine ⟨rfl, fun page size rows s' hpage hsize hfound shown hshown => ?_⟩
    unfold pageShown at hrun
    rw [hpage, hsize, Action.lift_ok_bind, Action.lift_ok_bind, Action.run_bind, hfound] at hrun
    change (l.shownAll s' _, s') = _ at hrun
    rw [hshown] at hrun
    cases hrun

end PagedList

namespace PagedList

/-- At most 100 rows, which are those of a run of the list that begins where a page of at most
100 rows does. -/
def Windowed (env : Env) (query : Row) (s : Store) (l : PagedList) : Prop :=
  (l.answered env query s).length ≤ 100 ∧
    ∀ rows s', (l.found env query).run s = (.ok rows, s') → ∃ p size, 1 ≤ p ∧ 1 ≤ size ∧
      size ≤ 100 ∧ ∃ run, run <+: rows.drop ((p - 1) * size) ∧
        List.Forall₂ (fun row row' => l.shown s' row = .ok row') run (l.answered env query s)

/-- The first page is asked for with a negative size that leaves more than 100 rows, and all
of them can be shown. -/
def Overfull (env : Env) (query : Row) (s : Store) (l : PagedList) : Prop :=
  ∃ page size m rows s', l.page query = .ok page ∧ l.pageSize query = .ok size ∧
    AllBut page size m ∧ (l.found env query).run s = (.ok rows, s') ∧ 100 + m < rows.length ∧
    ∀ row ∈ rows.take (rows.length - m), ∃ row', l.shown s' row = .ok row'

/-- An overfull list answers with more than 100 rows. -/
theorem Overfull.not_windowed {env : Env} {query : Row} {s : Store} {l : PagedList}
    (hs : ∀ t, (s.getTable t).length < 2 ^ 32) (h : l.Overfull env query s) :
    ¬ l.Windowed env query s := by
  obtain ⟨page, size, m, rows, s', hpage, hsize, hall, hfound, hlong, hrows⟩ := h
  have hlen : rows.length ≤ 2 ^ 53 := by
    have h := (length_found_le hfound).trans (hs l.table).le
    omega
  rintro ⟨hcap, _⟩
  obtain ⟨page', size', rows', s'', hpage', hsize', hfound', hshown⟩ | ⟨_, herror⟩ :=
    answered_cases env query l s
  · obtain rfl : page = page' := Except.ok.inj (hpage.symm.trans hpage')
    obtain rfl : size = size' := Except.ok.inj (hsize.symm.trans hsize')
    rw [hfound] at hfound'
    cases hfound'
    rw [← hshown.length_eq, paginate_allBut hall hlen, List.length_take] at hcap
    omega
  · rw [← paginate_allBut hall hlen] at hrows
    obtain ⟨shown, hshown⟩ := exists_mapM hrows
    exact herror page size rows s' hpage hsize hfound shown
      (shownAll_ok_iff.mpr (mapM_ok_iff.mp hshown))

/-- A list keeps to its window exactly when it is not overfull. The tables are arrays of the
language, with fewer than 2^32 elements. -/
theorem windowed_iff (env : Env) (query : Row) (s : Store) (l : PagedList)
    (hs : ∀ t, (s.getTable t).length < 2 ^ 32) :
    l.Windowed env query s ↔ ¬ l.Overfull env query s := by
  refine ⟨fun hw ho => ho.not_windowed hs hw, fun hover => ?_⟩
  obtain ⟨page, size, rows, s', hpage, hsize, hfound, hshown⟩ | ⟨hnil, _⟩ :=
    answered_cases env query l s
  · have hlen : rows.length ≤ 2 ^ 53 := by
      have h := (length_found_le hfound).trans (hs l.table).le
      omega
    refine ⟨?_, fun rows' s'' hfound' => ?_⟩
    · rw [← hshown.length_eq]
      by_cases hall : ∃ m, AllBut page size m
      · obtain ⟨m, hall⟩ := hall
        rw [paginate_allBut hall hlen] at hshown ⊢
        by_contra hlong
        rw [List.length_take] at hlong
        refine hover ⟨page, size, m, rows, s', hpage, hsize, hall, hfound, by omega, ?_⟩
        intro row hrow
        obtain ⟨row', _, hrow'⟩ := exists_of_forall₂ hshown hrow
        exact ⟨row', hrow'⟩
      · exact length_paginate_le (whole_page hpage) (whole_pageSize hsize) hlen
          (not_exists.mp hall)
    · rw [hfound] at hfound'
      cases hfound'
      -- a page of one row begins anywhere
      have hrun : ∃ i, paginate (some page) (some size) rows <+: rows.drop i :=
        ⟨_, slice_prefix _ _ _⟩
      obtain ⟨i, hi⟩ := hrun
      refine ⟨i + 1, 1, by omega, le_refl 1, by omega, _, ?_, hshown⟩
      rw [Nat.add_sub_cancel, Nat.mul_one]
      exact hi
  · unfold Windowed
    rw [hnil]
    exact ⟨Nat.zero_le 100, fun rows s' _ =>
      ⟨1, 1, le_refl 1, le_refl 1, by omega, [], List.nil_prefix, .nil⟩⟩

/-- The mall list has no size below one. -/
theorem mall_not_overfull (env : Env) (query : Row) (s : Store) :
    ¬ PagedList.mall.Overfull env query s := by
  rintro ⟨page, size, m, rows, s', _, hsize, ⟨_, hm, rfl⟩, _⟩
  obtain ⟨n, hn, hcap⟩ := map_ok hsize
  have hpos : (0 : ℚ) < m := by exact_mod_cast hm
  cases whole_toInt hn with
  | nan => cases hcap
  | inf neg =>
    cases neg with
    | true =>
      simp [JsNum.max, JsNum.min, JsNum.lt?] at hcap
      linarith
    | false =>
      simp [JsNum.max, JsNum.min, JsNum.lt?] at hcap
      linarith
  | int z =>
    rw [max_one, min_hundred, JsNum.fin.injEq, Int.cast_inj] at hcap
    omega

end PagedList

/-- A store with the rows of one table and no others. -/
def shopWith (t : Table) (rows : List Row) : Store :=
  ⟨(StoreData.default "t0").setRows t rows, false, false, .empty⟩

theorem getTable_shopWith (t u : Table) (rows : List Row) :
    (shopWith t rows).getTable u = if u = t then rows else [] := StoreData.rows_setRows _ _ _ _

theorem shopWith_arrays {t : Table} {rows : List Row} (h : rows.length < 2 ^ 32) (u : Table) :
    ((shopWith t rows).getTable u).length < 2 ^ 32 := by
  rw [getTable_shopWith]
  split
  · exact h
  · exact Nat.two_pow_pos 32

/-- An enabled product. -/
def enabledProduct (id : ℕ) : Row :=
  .ofList [("id", .num (.ofNat id)), ("status", .num (.fin 1)), ("is_featured", .num (.fin 0)),
    ("sort_order", .num (.fin 0)), ("created_at", .str "t1")]

def enabledProducts (n : ℕ) : List Row := (List.range n).map fun i => enabledProduct (i + 1)

/-- The enabled products pass the filter of the public list and can be sorted. -/
theorem found_enabledProducts (n : ℕ) (query : Row)
    (hc : CatalogueRoutes.categoryOf query = .ok none) (hk : keywordOf query = .undefined) :
    ∃ rows, rows.length = n ∧
      (PagedList.products.found .plain query).run (shopWith .products (enabledProducts n)) =
        (.ok rows, shopWith .products (enabledProducts n)) := by
  have hkept : filterAll [columnIs "status" (.num (.fin 1))] (enabledProducts n) =
      .ok (enabledProducts n) := by
    change (filterM _ _ >>= fun kept => filterAll [] kept) = _
    rw [filterM_eq_filter (q := fun _ => true), List.filter_true]
    · rfl
    · intro r hr
      obtain ⟨i, _, rfl⟩ := List.mem_map.mp hr
      rfl
  obtain ⟨rows, hrows⟩ : ∃ rows, arraySort (listOrder .plain .products) (enabledProducts n) =
      .ok rows := by
    refine exists_arraySort fun a ha b hb => ?_
    obtain ⟨i, _, rfl⟩ := List.mem_map.mp ha
    obtain ⟨j, _, rfl⟩ := List.mem_map.mp hb
    exact ⟨_, rfl⟩
  refine ⟨rows, ?_, ?_⟩
  · rw [(arraySort_perm hrows).length_eq]
    simp [enabledProducts]
  · unfold PagedList.found
    rw [hc, hk, Action.lift_ok_bind]
    exact run_listed (List.cons_ne_nil _ _) hkept hrows

/-- GET /products?pageSize=-1 in a shop with 102 products. -/
theorem products_overfull : PagedList.products.Overfull .plain (.ofList [("pageSize", .str "-1")])
    (shopWith .products (enabledProducts 102)) := by
  obtain ⟨rows, hlen, hfound⟩ := found_enabledProducts 102 (.ofList [("pageSize", .str "-1")])
    (by rfl) (by rfl)
  refine ⟨.fin 1, .fin (-1), 1, rows, _, by rfl, by rfl, ⟨by rfl, one_pos, by norm_num⟩, hfound,
    by omega, fun row _ => ⟨row, rfl⟩⟩

theorem products_windowed_iff : PagedList.products.Windowed .plain
      (.ofList [("pageSize", .str "-1")]) (shopWith .products (enabledProducts 102)) ↔
    ¬ PagedList.products.Overfull .plain (.ofList [("pageSize", .str "-1")])
      (shopWith .products (enabledProducts 102)) :=
  PagedList.windowed_iff _ _ _ _ (shopWith_arrays (by simp [enabledProducts]))

theorem products_not_windowed : ¬ PagedList.products.Windowed .plain
    (.ofList [("pageSize", .str "-1")]) (shopWith .products (enabledProducts 102)) :=
  products_overfull.not_windowed (shopWith_arrays (by simp [enabledProducts]))

end JtfpMall
