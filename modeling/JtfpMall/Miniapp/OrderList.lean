import JtfpMall.Lib.Paging
import JtfpMall.Lib.Run
import Mathlib.Data.List.Infix

/-!
# The order list of the mini-program

A reload empties the list, sets the counter to 1 and replaces; the bottom advances the counter and
appends. Each load waits for the login and then asks for the page the counter is at. The loads end
in any order, and none is cancelled.
-/

namespace JtfpMall.Miniapp.OrderList

open JtfpMall.Lib

variable {α : Type}

/-- A call of `loadOrders` that has not ended. -/
structure Load where
  isReplace : Bool
  /-- The page asked for, once the login is through. -/
  asked : Option ℕ

structure State (α : Type) where
  loading : Bool
  error : Option String
  orders : List α
  page : ℕ
  total : ℕ
  loads : List Load

inductive Event where
  /-- The page is shown, pulled down, or comes back from a payment. -/
  | reload
  | onReachBottom
  | login (load : ℕ)
  | answer (load : ℕ)
  | failure (load : ℕ) (message : String)

def pageSize : ℕ := 10

namespace State

def loadOrders (isReplace : Bool) (s : State α) : State α :=
  { s with loading := true, error := none, loads := s.loads ++ [⟨isReplace, none⟩] }

def reload (s : State α) : State α := loadOrders true { s with page := 1, orders := [] }

/-- A page is shown when it is opened. -/
def opened : State α := reload ⟨true, none, [], 1, 0, []⟩

/-- The page the bottom asks for, if it asks. -/
def nextPage (s : State α) : Option ℕ :=
  if s.loading then none
  else if s.total ≤ s.orders.length then none
  else some (s.page + 1)

def onReachBottom (s : State α) : State α :=
  match s.nextPage with
  | none => s
  | some page => loadOrders false { s with page := page }

def ended (s : State α) (load : ℕ) : State α :=
  { s with loading := false, loads := s.loads.eraseIdx load }

section
variable (server : List α)

def onAnswer (isReplace : Bool) (page : ℕ) (s : State α) : State α :=
  { s with
    orders := if isReplace then pageOf pageSize (page - 1) server
      else s.orders ++ pageOf pageSize (page - 1) server
    total := server.length }

def onFailure (message : String) (s : State α) : State α :=
  { s with error := some (if message = "" then "加载失败" else message) }

/-- The server's list, its orders as the page shows them, does not change. -/
def step (s : State α) : Event → Option (State α)
  | .reload => some s.reload
  | .onReachBottom => some s.onReachBottom
  | .login i => (s.loads[i]?).bind fun load => match load.asked with
    | none => some { s with loads := s.loads.set i { load with asked := some s.page } }
    | some _ => none
  | .answer i => (s.loads[i]?).bind fun load => load.asked.map fun page =>
      (s.ended i).onAnswer server load.isReplace page
  | .failure i message => (s.loads[i]?).map fun _ => (s.ended i).onFailure message

/-- The bottom asks for the page that follows what is shown, if one does. -/
def Follows (s : State α) : Prop :=
  if s.orders.length < server.length then
    ∃ page, s.nextPage = some (page + 1) ∧ page * pageSize = s.orders.length
  else s.nextPage = none

/-- With nothing under way what is shown is the front of the server's list. -/
def Right (s : State α) : Prop :=
  s.loads = [] → s.orders <+: server ∧ s.Follows server

end

/-- How many pages the answers since the last reload make up; nothing when they came out of
order. -/
def counted (s : State α) (pages : Option ℕ) : Event → Option ℕ
  | .reload => some 0
  | .answer i => ((s.loads[i]?).bind Load.asked).bind fun page =>
      if (s.loads[i]?).any Load.isReplace then if page = 1 then some 1 else none
      else if pages.map (· + 1) = some page then some page else none
  | _ => pages

/-- The answer to the load makes up the pages that the counter says. -/
def Fits (p : State α × Option ℕ) (load : Load) : Prop :=
  (load.asked = none ∨ load.asked = some p.1.page) ∧
    if load.isReplace then p.1.page = 1 else p.2.map (· + 1) = some p.1.page

/-- The bottom starts a load only where the answers make up the pages the counter says. A load that is
answered fits, or a reload that does is still under way. When a load fails the answers make up
those pages, or a load that fits is still under way. -/
def Orderly (p : State α × Option ℕ) : Event → Prop
  | .onReachBottom => p.1.nextPage ≠ none → p.2 = some p.1.page
  | .answer i => ∀ load ∈ p.1.loads[i]?, Fits p load ∨
      ∃ other ∈ p.1.loads.eraseIdx i, other.isReplace = true ∧ Fits p other
  | .failure i _ => p.2 = some p.1.page ∨ ∃ other ∈ p.1.loads.eraseIdx i, Fits p other
  | _ => True

instance (p : State α × Option ℕ) (load : Load) : Decidable (Fits p load) :=
  inferInstanceAs (Decidable (_ ∧ ite _ _ _))

instance (p : State α × Option ℕ) : ∀ e, Decidable (Orderly p e)
  | .reload => isTrue trivial
  | .onReachBottom => inferInstanceAs (Decidable (_ → _))
  | .login _ => isTrue trivial
  | .answer i => inferInstanceAs (Decidable (∀ load ∈ p.1.loads[i]?, Fits p load ∨
      ∃ other ∈ p.1.loads.eraseIdx i, other.isReplace = true ∧ Fits p other))
  | .failure _ _ => inferInstanceAs (Decidable (_ ∨ _))

/-- The first pages are shown. -/
def Shows (server : List α) (s : State α) (pages : ℕ) : Prop :=
  s.orders = server.take (pages * pageSize)

/-- What every orderly step keeps: the answers make up the pages the counter says, or a load is under
way that ends with them made up; and the pages that are made up are shown. -/
structure Ok (server : List α) (p : State α × Option ℕ) : Prop where
  counter : 1 ≤ p.1.page
  total : p.1.total = server.length ∨ p.1.total = 0 ∧ p.1.orders = []
  idle : p.1.loads = [] → p.1.loading = false
  shown : ∀ pages ∈ p.2, Shows server p.1 pages
  good : p.2 = some p.1.page ∨ ∃ load ∈ p.1.loads, Fits p load

section
variable {server : List α} {p p' : State α × Option ℕ}

theorem Ok.reload (h : Ok server p) : Ok server (p.1.reload, some 0) where
  counter := Nat.le_refl 1
  total := h.total.imp_right fun hzero => ⟨hzero.1, rfl⟩
  idle := fun hnil => absurd hnil (by simp [State.reload, loadOrders])
  shown := by
    intro pages hpages
    obtain rfl : 0 = pages := Option.some.inj hpages
    change [] = server.take (0 * pageSize)
    rw [Nat.zero_mul, List.take_zero]
  good := Or.inr ⟨⟨true, none⟩, List.mem_append_right _ (List.mem_singleton_self _),
    Or.inl rfl, rfl⟩

theorem ok_opened (server : List α) : Ok server ((opened : State α), some 0) where
  counter := Nat.le_refl 1
  total := Or.inr ⟨rfl, rfl⟩
  idle := fun hnil => nomatch hnil
  shown := by
    intro pages hpages
    obtain rfl : 0 = pages := Option.some.inj hpages
    change [] = server.take (0 * pageSize)
    rw [Nat.zero_mul, List.take_zero]
  good := Or.inr ⟨⟨true, none⟩, List.mem_singleton_self _, Or.inl rfl, rfl⟩

/-- Where the answers make up the pages the counter says the next one follows. -/
theorem Ok.follows (h : Ok server p) (hpages : p.2 = some p.1.page) (hidle : p.1.loading = false) :
    p.1.Follows server := by
  have hlength : p.1.orders.length = min (p.1.page * pageSize) server.length := by
    rw [h.shown _ hpages, List.length_take]
  have hcounter := Nat.mul_le_mul_right pageSize h.counter
  unfold Follows nextPage
  rw [hidle, if_neg Bool.false_ne_true]
  split
  · rename_i hmore
    have hcount : p.1.page * pageSize = p.1.orders.length := by omega
    have htotal : p.1.total = server.length := by
      rcases h.total with htotal | ⟨_, hnil⟩
      · exact htotal
      · rw [hnil, List.length_nil] at hcount
        unfold pageSize at hcount hcounter
        omega
    exact ⟨p.1.page, if_neg (by omega), hcount⟩
  · rename_i hall
    have htotal : p.1.total ≤ p.1.orders.length := by
      rcases h.total with htotal | ⟨hzero, _⟩ <;> omega
    exact if_pos htotal

theorem Ok.right (h : Ok server p) : p.1.Right server := by
  intro hnil
  rcases h.good with hpages | ⟨load, hload, _⟩
  · refine ⟨?_, h.follows hpages (h.idle hnil)⟩
    rw [h.shown _ hpages]
    exact List.take_prefix _ _
  · rw [hnil] at hload
    exact absurd hload List.not_mem_nil

theorem shows_onAnswer_first (s : State α) : Shows server (s.onAnswer server true 1) 1 := by
  have hfirst := take_append_pageOf pageSize 0 server
  rw [Nat.zero_mul, List.take_zero, List.nil_append] at hfirst
  exact hfirst

theorem shows_onAnswer_next {s : State α} {pages : ℕ} (h : Shows server s pages) :
    Shows server (s.onAnswer server false (pages + 1)) (pages + 1) := by
  change s.orders ++ pageOf pageSize (pages + 1 - 1) server = _
  rw [h, Nat.add_sub_cancel]
  exact take_append_pageOf pageSize pages server

theorem counted_answer {s : State α} {pages : Option ℕ} {i : ℕ} {load : Load} {page : ℕ}
    (hi : s.loads[i]? = some load) (hasked : load.asked = some page) :
    counted s pages (.answer i) =
      if load.isReplace then if page = 1 then some 1 else none
      else if pages.map (· + 1) = some page then some page else none := by
  rw [counted, hi, Option.bind_some, hasked, Option.bind_some, Option.any_some]

/-- The pages made up are shown after an answer as well. -/
theorem shown_onAnswer {s : State α} {pages : Option ℕ} (h : ∀ n ∈ pages, Shows server s n) {i : ℕ}
    {load : Load} {page : ℕ} (hi : s.loads[i]? = some load) (hasked : load.asked = some page) :
    ∀ n ∈ counted s pages (.answer i),
      Shows server ((s.ended i).onAnswer server load.isReplace page) n := by
  intro n hn
  rw [counted_answer hi hasked] at hn
  cases hreplace : load.isReplace with
  | true =>
    rw [hreplace, if_pos rfl] at hn
    split at hn
    · rename_i hfirst
      obtain rfl : 1 = n := Option.some.inj hn
      rw [hfirst]
      exact shows_onAnswer_first _
    · cases hn
  | false =>
    rw [hreplace, if_neg Bool.false_ne_true] at hn
    split at hn
    · rename_i hnext
      obtain rfl : page = n := Option.some.inj hn
      obtain ⟨m, hm, rfl⟩ := Option.map_eq_some_iff.mp hnext
      exact shows_onAnswer_next (s := s.ended i) (h m hm)
    · cases hn

/-- The answer to a load that fits makes up the pages the counter says. -/
theorem Fits.counted {load : Load} (h : Fits p load) {i page : ℕ} (hi : p.1.loads[i]? = some load)
    (hasked : load.asked = some page) : counted p.1 p.2 (.answer i) = some p.1.page := by
  obtain ⟨hpage, hfits⟩ := h
  have hsame : page = p.1.page := by
    rcases hpage with hnone | hsome
    · rw [hasked] at hnone
      cases hnone
    · exact Option.some.inj (hasked.symm.trans hsome)
  rw [counted_answer hi hasked, hsame]
  cases hreplace : load.isReplace with
  | true =>
    rw [hreplace, if_pos rfl] at hfits
    rw [if_pos rfl, if_pos hfits, hfits]
  | false =>
    rw [hreplace, if_neg Bool.false_ne_true] at hfits
    rw [if_neg Bool.false_ne_true, if_pos hfits]

theorem Ok.onReachBottom (h : Ok server p) (horderly : Orderly p .onReachBottom) :
    Ok server (p.1.onReachBottom, p.2) := by
  have hnext : ∀ page, p.1.nextPage = some page → page = p.1.page + 1 := by
    intro page hpage
    unfold nextPage at hpage
    split at hpage
    · cases hpage
    · split at hpage
      · cases hpage
      · exact (Option.some.inj hpage).symm
  unfold State.onReachBottom
  cases hpage : p.1.nextPage with
  | none => exact h
  | some page =>
    have hpages := horderly (by rw [hpage]; exact Option.some_ne_none _)
    obtain rfl := hnext page hpage
    exact
      { counter := Nat.le_add_left 1 _
        total := h.total
        idle := fun hnil => absurd hnil (by simp [loadOrders])
        shown := h.shown
        good := Or.inr ⟨⟨false, none⟩, List.mem_append_right _ (List.mem_singleton_self _),
          Or.inl rfl, congrArg (Option.map (· + 1)) hpages⟩ }

theorem Ok.login (h : Ok server p) {i : ℕ} {load : Load} (hi : p.1.loads[i]? = some load) :
    Ok server ({ p.1 with loads := p.1.loads.set i { load with asked := some p.1.page } }, p.2) where
  counter := h.counter
  total := h.total
  idle := by
    intro hnil
    rw [List.set_eq_nil_iff] at hnil
    exact h.idle hnil
  shown := h.shown
  good := by
    refine h.good.imp_right ?_
    rintro ⟨other, hother, hfits⟩
    obtain ⟨j, hj, rfl⟩ := List.mem_iff_getElem.mp hother
    by_cases hij : i = j
    · subst hij
      have hload : p.1.loads[i] = load := by
        rw [List.getElem?_eq_getElem hj] at hi
        exact Option.some.inj hi
      rw [hload] at hfits
      exact ⟨_, List.mem_set hj _, Or.inr rfl, hfits.2⟩
    · refine ⟨p.1.loads[j], ?_, hfits⟩
      rw [List.mem_iff_getElem?]
      exact ⟨j, by rw [List.getElem?_set_ne hij, List.getElem?_eq_getElem hj]⟩

theorem Ok.onAnswer (h : Ok server p) {i : ℕ} {load : Load} {page : ℕ}
    (hi : p.1.loads[i]? = some load) (hasked : load.asked = some page)
    (hload : Fits p load ∨
      ∃ other ∈ p.1.loads.eraseIdx i, other.isReplace = true ∧ Fits p other) :
    Ok server ((p.1.ended i).onAnswer server load.isReplace page,
      State.counted p.1 p.2 (.answer i)) where
  counter := h.counter
  total := Or.inl rfl
  idle := fun _ => rfl
  shown := shown_onAnswer h.shown hi hasked
  good := by
    rcases hload with hfits | ⟨other, hother, hreplace, hpage, hfits⟩
    · exact Or.inl (hfits.counted hi hasked)
    · refine Or.inr ⟨other, hother, hpage, ?_⟩
      rw [hreplace, if_pos rfl] at hfits ⊢
      exact hfits

theorem Ok.onFailure (h : Ok server p) {i : ℕ} (message : String)
    (hgood : p.2 = some p.1.page ∨ ∃ other ∈ p.1.loads.eraseIdx i, Fits p other) :
    Ok server ((p.1.ended i).onFailure message, p.2) where
  counter := h.counter
  total := h.total
  idle := fun _ => rfl
  shown := h.shown
  good := hgood

/-- One orderly step. -/
theorem Ok.step (h : Ok server p) {e : Event} (horderly : Orderly p e)
    (hwatched : watched (State.step server) State.counted p e = some p') : Ok server p' := by
  obtain ⟨s, pages⟩ := p
  obtain ⟨s', pages'⟩ := p'
  obtain ⟨hstep, hpages⟩ := watched_eq_some _ _ hwatched
  dsimp only at hstep hpages
  subst hpages
  cases e with
  | reload =>
    cases hstep
    exact h.reload
  | onReachBottom =>
    cases hstep
    exact h.onReachBottom horderly
  | login i =>
    obtain ⟨load, hi, hlogin⟩ := Option.bind_eq_some_iff.mp hstep
    cases hasked : load.asked with
    | none =>
      rw [hasked] at hlogin
      cases hlogin
      exact h.login hi
    | some page =>
      rw [hasked] at hlogin
      cases hlogin
  | answer i =>
    obtain ⟨load, hi, hanswer⟩ := Option.bind_eq_some_iff.mp hstep
    obtain ⟨page, hasked, rfl⟩ := Option.map_eq_some_iff.mp hanswer
    exact h.onAnswer hi hasked (horderly load hi)
  | failure i message =>
    obtain ⟨load, _, rfl⟩ := Option.map_eq_some_iff.mp hstep
    exact h.onFailure message horderly

end

end State

/-- **The order list.** In any orderly run from the opened page, whenever nothing is under way, what
is shown is the front of the server's list and the bottom asks for the page that follows. -/
theorem orders_right {server : List α} {es : List Event} {s : State α}
    (horderly : Along (watched (State.step server) State.counted) State.Orderly
      (.opened, some 0) es)
    (hrun : run (State.step server) .opened es = some s) : s.Right server := by
  obtain ⟨pages, hwatched⟩ := exists_run_watched (State.step server) State.counted hrun (some 0)
  exact (run_invariant _ (State.Ok server) (fun _ _ _ h => h.step) (State.ok_opened server) horderly
    hwatched).right

/-- Both pages of twelve orders. -/
def bothPages : List Event := [.login 0, .answer 0, .onReachBottom, .login 0, .answer 0]

theorem bothPages_right : ∃ s : State ℕ,
    run (State.step (List.range 12)) .opened bothPages = some s ∧ s.orders = List.range 12 ∧
      s.Right (List.range 12) := by
  have horderly : Along (watched (State.step (List.range 12)) State.counted) State.Orderly
      (.opened, some 0) bothPages := by
    decide
  exact ⟨_, rfl, rfl, orders_right horderly rfl⟩

/-- The second of three pages is not loaded, and the bottom is reached again. -/
def failedPage : List Event := [.login 0, .answer 0, .onReachBottom, .login 0, .failure 0 ""]

theorem failedPage_skips : ∃ s : State ℕ,
    run (State.step (List.range 25)) .opened failedPage = some s ∧ ¬ s.Right (List.range 25) := by
  refine ⟨_, rfl, fun hright => ?_⟩
  obtain ⟨page, hnext, hpage⟩ := (hright rfl).2
  have hthree : page + 1 = 3 := Option.some.inj hnext.symm
  change page * 10 = 10 at hpage
  omega

end JtfpMall.Miniapp.OrderList
