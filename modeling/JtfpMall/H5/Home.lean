import JtfpMall.Lib.Paging
import JtfpMall.Lib.Run
import Mathlib.Data.List.Infix

/-!
# The home page of the H5 mall

A search, a category and a refresh empty the list and ask for the first page of the current query.
The list component sets `loading` before it tells the page to load more, and the page returns when it
is set. Answers do not say which query they are to.
-/

namespace JtfpMall.H5.Home

open JtfpMall.Lib

variable {α : Type}

structure Query where
  keyword : String
  categoryId : Option ℕ
deriving DecidableEq

structure Request where
  query : Query
  page : ℕ
  isLoadMore : Bool

structure State (α : Type) where
  keyword : String
  activeCategoryId : Option ℕ
  page : ℕ
  list : List α
  loading : Bool
  refreshing : Bool
  finished : Bool
  requests : List Request

inductive Event where
  /-- The keyword is typed and submitted, or cleared. -/
  | onSearch (keyword : String)
  | onSelectCategory (id : ℕ)
  | onRefresh
  | load
  | answer (request : ℕ)
  | failure (request : ℕ)

def pageSize : ℕ := 20

namespace State

def query (s : State α) : Query := ⟨s.keyword, s.activeCategoryId⟩

def fetchData (isLoadMore : Bool) (s : State α) : State α :=
  { s with loading := true, requests := s.requests ++ [⟨s.query, s.page, isLoadMore⟩] }

/-- What `onSearch` and `onRefresh` do. -/
def restart (s : State α) : State α := fetchData false { s with page := 1, finished := false, list := [] }

def opened : State α := fetchData false ⟨"", none, 1, [], false, false, false, []⟩

def onSelectCategory (id : ℕ) (s : State α) : State α :=
  restart { s with activeCategoryId := if s.activeCategoryId = some id then none else some id }

def onLoad (s : State α) : State α :=
  if s.finished || s.loading then s else fetchData true { s with page := s.page + 1 }

/-- The `finally` of `fetchData`. -/
def ended (s : State α) (request : ℕ) : State α :=
  { s with loading := false, refreshing := false, requests := s.requests.eraseIdx request }

section
variable (result : Query → List α)

def onAnswer (r : Request) (s : State α) : State α :=
  let newList := pageOf pageSize (r.page - 1) (result r.query)
  let list := if r.isLoadMore then s.list ++ newList else newList
  { s with
    list := list
    finished := decide ((result r.query).length ≤ list.length) || decide (newList.length < pageSize) }

/-- The server's results do not change. -/
def step (s : State α) : Event → Option (State α)
  | .onSearch keyword => some (restart { s with keyword := keyword })
  | .onSelectCategory id => some (s.onSelectCategory id)
  | .onRefresh => some (restart { s with refreshing := true })
  | .load => some (onLoad { s with loading := true })
  | .answer i => (s.requests[i]?).map fun r => (s.ended i).onAnswer result r
  | .failure i => (s.requests[i]?).map fun _ => s.ended i

/-- The list is a front of the result of the current query, the whole of it when it is finished. -/
def Shows (s : State α) : Prop :=
  s.list <+: result s.query ∧ (s.finished = true → s.list = result s.query)

def Right (s : State α) : Prop := s.requests = [] → s.Shows result

/-- The load event asks for the page that follows what is shown. -/
def LoadsNext (s : State α) : Prop :=
  s.finished = false → ∃ page s', s.step result .load = some s' ∧
    s'.requests = s.requests ++ [⟨s.query, page + 1, true⟩] ∧ page * pageSize = s.list.length

/-- The query that was last answered since the list was last emptied. -/
def answered (s : State α) (last : Option Query) : Event → Option Query
  | .onSearch _ => none
  | .onSelectCategory _ => none
  | .onRefresh => none
  | .load => last
  | .answer i => (s.requests[i]?).map Request.query
  | .failure _ => last

/-- No load event comes before the list is finished. The last request under way is answered for the
current query, or fails when no other query was answered last since the list was emptied. -/
def Timely (p : State α × Option Query) : Event → Prop
  | .load => p.1.finished = true
  | .answer i => ∀ r ∈ p.1.requests[i]?, p.1.requests.eraseIdx i = [] → r.query = p.1.query
  | .failure i => p.1.requests.eraseIdx i = [] → ∀ q ∈ p.2, q = p.1.query
  | _ => True

end

instance (p : State α × Option Query) : ∀ e, Decidable (Timely p e)
  | .onSearch _ => isTrue trivial
  | .onSelectCategory _ => isTrue trivial
  | .onRefresh => isTrue trivial
  | .load => inferInstanceAs (Decidable (_ = _))
  | .answer i => inferInstanceAs (Decidable (∀ r ∈ p.1.requests[i]?, _ → _))
  | .failure _ => inferInstanceAs (Decidable (_ → ∀ q ∈ p.2, _))

/-- Only first pages are ever asked for. -/
structure Ok (result : Query → List α) (p : State α × Option Query) : Prop where
  right : p.1.Right result
  shows : (∀ q ∈ p.2, q = p.1.query) → p.1.Shows result
  first : ∀ r ∈ p.1.requests, r.page = 1 ∧ r.isLoadMore = false

section
variable {result : Query → List α} {s : State α} {p p' : State α × Option Query}

theorem shows_restart (s : State α) : s.restart.Shows result :=
  ⟨List.nil_prefix, Bool.noConfusion⟩

theorem ok_restart (h : Ok result p) (t : State α) (ht : t.requests = p.1.requests) :
    Ok result (t.restart, none) where
  right := fun hnil => absurd hnil (by simp [restart, fetchData])
  shows := fun _ => shows_restart t
  first := by
    intro r hr
    have hin : r ∈ t.requests ++ [⟨t.query, 1, false⟩] := hr
    rw [ht, List.mem_append, List.mem_singleton] at hin
    rcases hin with hin | rfl
    · exact h.first r hin
    · exact ⟨rfl, rfl⟩

theorem ok_opened (result : Query → List α) : Ok result ((opened : State α), none) where
  right := fun hnil => nomatch hnil
  shows := fun _ => ⟨List.nil_prefix, Bool.noConfusion⟩
  first := by
    intro r hr
    rw [List.mem_singleton.mp hr]
    exact ⟨rfl, rfl⟩

/-- With the flag set the load event only leaves it so. -/
theorem onLoad_loading (s : State α) : onLoad { s with loading := true } = { s with loading := true } := by
  unfold onLoad
  rw [Bool.or_true, if_pos rfl]

/-- No load event asks for anything. -/
theorem not_loadsNext (h : s.finished = false) : ¬ s.LoadsNext result := by
  intro hloads
  obtain ⟨page, s', hstep, hrequests, _⟩ := hloads h
  rw [step, onLoad_loading, Option.some.injEq] at hstep
  rw [← hstep] at hrequests
  have hlength := congrArg List.length hrequests
  rw [List.length_append, List.length_singleton] at hlength
  change s.requests.length = _ at hlength
  omega

/-- The first page of the current query is a front of its result, and the whole of it when the page
says it is finished. -/
theorem shows_onAnswer {r : Request} (hpage : r.page = 1) (hmore : r.isLoadMore = false)
    (hquery : r.query = s.query) : (s.onAnswer result r).Shows result := by
  unfold Shows onAnswer
  dsimp only
  rw [hpage, hmore, hquery, if_neg Bool.false_ne_true]
  have hfirst : pageOf pageSize (1 - 1) (result s.query) = (result s.query).take pageSize := by
    unfold pageOf
    rw [Nat.sub_self, Nat.zero_mul, List.drop_zero]
  rw [hfirst]
  refine ⟨List.take_prefix _ _, fun hfinished => List.take_of_length_le ?_⟩
  rw [List.length_take, Bool.or_eq_true, decide_eq_true_eq, decide_eq_true_eq] at hfinished
  omega

theorem mem_ended {i : ℕ} {r : Request} (h : r ∈ (s.ended i).requests) : r ∈ s.requests :=
  (List.eraseIdx_subset : _ ⊆ s.requests) h

/-- One timely step. -/
theorem Ok.step (h : Ok result p) {e : Event} (htimely : Timely p e)
    (hwatched : watched (State.step result) answered p e = some p') : Ok result p' := by
  obtain ⟨s, last⟩ := p
  obtain ⟨s', last'⟩ := p'
  obtain ⟨hstep, hlast⟩ := watched_eq_some _ _ hwatched
  dsimp only at hstep hlast
  subst hlast
  cases e with
  | onSearch keyword =>
    cases hstep
    exact ok_restart h _ rfl
  | onSelectCategory id =>
    cases hstep
    exact ok_restart h _ rfl
  | onRefresh =>
    cases hstep
    exact ok_restart h _ rfl
  | load =>
    rw [State.step, onLoad_loading, Option.some.injEq] at hstep
    subst hstep
    exact ⟨h.right, h.shows, h.first⟩
  | answer i =>
    obtain ⟨r, hi, rfl⟩ := Option.map_eq_some_iff.mp hstep
    obtain ⟨hpage, hmore⟩ := h.first r (List.mem_of_getElem? hi)
    have hshows : r.query = s.query → ((s.ended i).onAnswer result r).Shows result :=
      fun hquery => shows_onAnswer (s := s.ended i) hpage hmore hquery
    have hlast : answered s last (.answer i) = some r.query := by rw [answered, hi, Option.map_some]
    refine ⟨fun hnil => hshows (htimely r hi hnil), fun hcurrent => ?_,
      fun r hr => h.first r (mem_ended (i := i) hr)⟩
    rw [hlast] at hcurrent
    exact hshows (hcurrent r.query rfl)
  | failure i =>
    obtain ⟨r, _, rfl⟩ := Option.map_eq_some_iff.mp hstep
    exact ⟨fun hnil => h.shows (htimely hnil), h.shows, fun r hr => h.first r (mem_ended (i := i) hr)⟩

end

end State

/-- **The home list.** In any timely run from the opened page, wherever one stops, the list is right
when nothing is under way, and a load event that comes before it is finished asks for the next
page. -/
theorem home_right {result : Query → List α} {front rest : List Event} {s : State α}
    (htimely : Along (watched (State.step result) State.answered) State.Timely (.opened, none)
      (front ++ rest))
    (hrun : run (State.step result) .opened front = some s) :
    s.Right result ∧ (rest.head? = some .load → s.LoadsNext result) := by
  obtain ⟨last, hwatched⟩ := exists_run_watched (State.step result) State.answered hrun none
  obtain ⟨hfront, hrest⟩ := along_append _ hwatched htimely
  refine ⟨(run_invariant _ (State.Ok result) (fun _ _ _ h => h.step) (State.ok_opened result) hfront
    hwatched).right, fun hhead hfinished => ?_⟩
  cases rest with
  | nil => cases hhead
  | cons e rest =>
    obtain rfl : e = .load := Option.some.inj hhead
    have hdone : s.finished = true := hrest.1
    rw [hfinished] at hdone
    cases hdone

/-- Three entries have the keyword, twenty-five are there in all. -/
def villas (q : Query) : List ℕ := if q.keyword = "" then List.range 25 else List.range 3

/-- A search overtakes the first request. -/
def overtaken : List Event := [.onSearch "villa", .answer 1, .failure 0]

theorem overtaken_right : ∃ s, run (State.step villas) .opened overtaken = some s ∧
    s.list = List.range 3 ∧ s.Right villas ∧ s.LoadsNext villas := by
  have htimely : Along (watched (State.step villas) State.answered) State.Timely (.opened, none)
      (overtaken ++ [.load]) := by
    decide
  refine ⟨_, rfl, rfl, ?_⟩
  obtain ⟨hright, hloads⟩ := home_right htimely rfl
  exact ⟨hright, hloads rfl⟩

/-- The first page of two is there, and the list is scrolled to its end. -/
theorem firstPage_stays : ∃ s, run (State.step villas) .opened [.answer 0] = some s ∧
    s.requests = [] ∧ ¬ s.LoadsNext villas :=
  ⟨_, rfl, rfl, State.not_loadsNext rfl⟩

end JtfpMall.H5.Home
