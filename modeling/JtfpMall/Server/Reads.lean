import JtfpMall.Server.Identity

/-!
# What list calls leave behind

A list call without filters sorts the live table, and the order of a table is what
first-match lookups and ties of later lists go by. Everything done later
comes out as if the list call had not been made exactly when the call does not change
the order.
-/

namespace JtfpMall

open JtfpMall.Js
open JtfpMall.Lib

namespace ListCall

/-- The store after the call. -/
def after (env : Env) (s : Store) : ListCall → Store
  | .orders query => ((Orders.list env query).run s).2
  | .products query => ((Products.list env query).run s).2
  | .properties query => ((Properties.list env query).run s).2
  | .reviews query => ((Reviews.list env query).run s).2
  | .welfareCodes query => ((WelfareCodes.list env query).run s).2
  | .categories => ((Categories.list env).run s).2
  | .enabledCategories => ((Categories.listEnabled env).run s).2

/-- The call sorts the live table, and that changes its order. -/
def Reorders (env : Env) (s : Store) (c : ListCall) : Prop :=
  c.filters env = .ok [] ∧ ∃ rows, arraySort (listOrder env c.table) (s.getTable c.table) = .ok rows ∧
    rows ≠ s.getTable c.table

end ListCall

/-- Something done after the call: an event of the server or a look into the store. -/
inductive Later where
  | event (e : Server.Event)
  | findOne (t : Table) (p : Row → Bool)
  | findAll (t : Table) (p : Row → Bool)

inductive Observation where
  | answer (r : Except JsError Response)
  | found (r : Option Row)
  | rows (rs : List Row)
  | nothing

namespace Later

def result (env : Env) (s : Store) : Later → Observation
  | .event (.request r at_) => .answer (Server.answer env r at_ s)
  | .event _ => .nothing
  | .findOne t p => .found (s.findOne t p)
  | .findAll t p => .rows (s.findAll t p)

/-- A timer that is not pending does nothing. -/
def after (env : Env) (s : Store) : Later → Store
  | .event e => (Server.step env s e).getD s
  | _ => s

/-- The results of one operation after another. -/
def results (env : Env) : Store → List Later → List Observation
  | _, [] => []
  | s, op :: ops => op.result env s :: results env (op.after env s) ops

end Later

/-- Whatever is done later has the same results in both stores. -/
def SameLater (env : Env) (s s' : Store) : Prop :=
  ∀ ops, Later.results env s ops = Later.results env s' ops

theorem SameLater.rows {env : Env} {s s' : Store} (h : SameLater env s s') (t : Table) :
    s.cache.rows t = s'.cache.rows t := by
  have hall := h [.findAll t fun _ => true]
  simp only [Later.results, Later.result, List.cons.injEq, Observation.rows.injEq, and_true] at hall
  unfold Store.findAll Store.getTable at hall
  rwa [List.filter_true, List.filter_true] at hall

section
variable (env : Env) (t : Table) (s : Store)

/-- The store after a list with the given filters. -/
def listedStore (filters : List (Row → Except JsError Bool)) : Store :=
  ((listed env t filters).run s).2

theorem listedStore_of_ne {filters : List (Row → Except JsError Bool)} (h : filters ≠ []) :
    listedStore env t s filters = s := by
  unfold listedStore
  rw [listed_of_ne env t h, Action.run_bind]
  change (Action.run _ s).2 = s
  rw [Action.run_bind, Action.run_lift]
  cases filterAll filters (s.getTable t) <;> rfl

theorem listedStore_nil : listedStore env t s [] =
    match arraySort (listOrder env t) (s.getTable t) with
    | .ok rows => s.putRows t rows
    | .error _ => s := by
  change (sortTable env t s).2 = _
  unfold sortTable
  cases arraySort (listOrder env t) (s.getTable t) <;> rfl

/-- What follows the list within a call only reads. -/
theorem snd_run_listed_bind {α : Type} {filters : List (Row → Except JsError Bool)}
    {f : List Row → Act α} (hf : ∀ rows s', ((f rows).run s').2 = s') :
    ((listed env t filters >>= f).run s).2 = listedStore env t s filters := by
  unfold listedStore
  rw [Action.run_bind]
  cases hrun : (listed env t filters).run s with
  | mk x s' =>
    cases x with
    | ok rows => exact hf rows s'
    | error e => rfl

/-- A call that reads its filters off the query first. -/
theorem snd_run_lift_listed {α : Type} (x : Except JsError (List (Row → Except JsError Bool)))
    {f : List (Row → Except JsError Bool) → List Row → Act α}
    (hf : ∀ filters rows s', ((f filters rows).run s').2 = s') :
    ((Action.lift x >>= fun filters => listed env t filters >>= f filters : Act α).run s).2 =
      match x with
      | .ok filters => listedStore env t s filters
      | .error _ => s := by
  rw [Action.run_bind, Action.run_lift]
  cases x with
  | ok filters => exact snd_run_listed_bind env t s (hf filters)
  | error e => rfl

end

/-- A call does no more than sort the live table, and that only without filters. -/
theorem ListCall.after_eq (env : Env) (s : Store) (c : ListCall) :
    c.after env s = match c.filters env with
      | .ok filters => listedStore env c.table s filters
      | .error _ => s := by
  unfold after
  cases c with
  | orders query =>
    unfold Orders.list
    refine snd_run_listed_bind env _ s fun rows s' => ?_
    unfold Act.getTable
    rw [Action.run_reads_bind, Action.run_bind, Action.run_lift]
    cases (paginate query.page query.pageSize rows).mapM (Orders.withUser _) <;> rfl
  | products query =>
    unfold Products.list
    exact snd_run_lift_listed env _ s _ fun filters rows s' => rfl
  | properties query =>
    unfold Properties.list
    exact snd_run_lift_listed env _ s _ fun filters rows s' => rfl
  | reviews query =>
    unfold Reviews.list
    exact snd_run_listed_bind env _ s fun rows s' => rfl
  | welfareCodes query =>
    unfold WelfareCodes.list
    refine snd_run_lift_listed env _ s _ fun filters rows s' => ?_
    unfold Act.getTable
    rw [Action.run_reads_bind, Action.run_bind, Action.run_lift]
    cases (paginate query.page query.pageSize rows).mapM (WelfareCodes.withItems _) <;> rfl
  | categories => rfl
  | enabledCategories =>
    unfold Categories.listEnabled
    exact snd_run_listed_bind env _ s fun rows s' => rfl

/-- A call that does not reorder its table leaves the store as it is. -/
theorem ListCall.after_of_not_reorders {env : Env} {s : Store} {c : ListCall}
    (h : ¬c.Reorders env s) : c.after env s = s := by
  rw [c.after_eq]
  cases hf : c.filters env with
  | error e => rfl
  | ok filters =>
    dsimp only
    by_cases hn : filters = []
    · subst hn
      rw [listedStore_nil]
      cases hs : arraySort (listOrder env c.table) (s.getTable c.table) with
      | error e => rfl
      | ok rows =>
        have hrows : rows = s.getTable c.table := by
          by_contra hne
          exact h ⟨hf, rows, hs, hne⟩
        rw [hrows]
        exact Store.putRows_self c.table s
    · exact listedStore_of_ne env c.table s hn

/-- Later results are the same with a list call and without it exactly when the call does not
change the order of its table. -/
theorem list_unobserved_iff (env : Env) (s : Store) (c : ListCall) :
    SameLater env s (c.after env s) ↔ ¬c.Reorders env s := by
  constructor
  · rintro h ⟨hf, rows, hs, hne⟩
    have hrows := h.rows c.table
    rw [c.after_eq, hf] at hrows
    dsimp only at hrows
    rw [listedStore_nil, hs] at hrows
    dsimp only at hrows
    rw [Store.cache_putRows, StoreData.rows_setRows_self] at hrows
    exact hne hrows.symm
  · intro h ops
    rw [ListCall.after_of_not_reorders h]

namespace Server

/-- Two welfare codes under one text, created one after the other. -/
def twoCodes : Store :=
  serve .plain (.admin true (.createWelfareCode (.ofList [("code", .str "a")]))) (moment "t3")
    (serve .plain (.admin true (.createWelfareCode (.ofList [("code", .str "a")]))) (moment "t2")
      (start "t0" (fun _ => "t1") .empty))

/-- The list without filters puts the later code first, and from then on the code is found under the
other row. -/
theorem list_changes_found_code :
    let c : ListCall := .welfareCodes ⟨none, none, .undefined, .undefined, .undefined⟩
    let found (s : Store) := (s.findOne .welfareCodes (WelfareCodes.hasCode (.str "a"))).map
      fun r => r.get "id"
    found twoCodes = some (.num (.fin 1)) ∧ found (c.after .plain twoCodes) = some (.num (.fin 2)) ∧
      ¬SameLater .plain twoCodes (c.after .plain twoCodes) := by
  intro c found
  have h1 : found twoCodes = some (.num (.fin 1)) := by decide +kernel
  have h2 : found (c.after .plain twoCodes) = some (.num (.fin 2)) := by decide +kernel
  refine ⟨h1, h2, fun h => ?_⟩
  have hsame : found twoCodes = found (c.after .plain twoCodes) := by
    unfold found Store.findOne Store.getTable
    rw [h.rows .welfareCodes]
  rw [h1, h2] at hsame
  exact absurd hsame (by decide)

end Server

end JtfpMall
