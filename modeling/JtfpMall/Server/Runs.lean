import JtfpMall.Lib.Run
import JtfpMall.Server.Serves

/-!
# Runs of the server

The rules by which a property of the store is carried along a run, and two
properties that every run has: a request leaves alone the tables it does not write, up
to an in-place sort, and a store with nothing unsaved differs from its data file
by in-place sorts only.
-/

namespace JtfpMall

open JtfpMall.Js
open JtfpMall.Lib

section
variable {env : Env} {W : Write → Prop} {L : Table → Prop} (Inv : Store → Prop)

theorem effects_invariant
    (hw : ∀ s w now, W w → Inv s → Inv (w.apply now s))
    (hs : ∀ s t rows, t.live = true → L t → arraySort (listOrder env t) (s.getTable t) = .ok rows →
      Inv s → Inv (s.putRows t rows))
    {s s' : Store} (he : Effects env W L s s') (h : Inv s) : Inv s' := by
  induction he with
  | refl => exact h
  | tail _ hstep ih =>
    cases hstep with
    | write w now hW => exact hw _ w now hW ih
    | sort ht hl hrows => exact hs _ _ _ ht hl hrows ih

/-- What permitted writes, in-place sorts and flushes preserve, a request preserves. -/
theorem serve_invariant {r : Request} {s : Store}
    (hw : ∀ s' w now, Permitted env r s w → Inv s' → Inv (w.apply now s'))
    (hs : ∀ s t rows, t.live = true → arraySort (listOrder env t) (s.getTable t) = .ok rows →
      Inv s → Inv (s.putRows t rows))
    (hf : ∀ s now, Inv s → Inv (s.flushNow now)) (at_ : Moment) (h : Inv s) :
    Inv (Server.serve env r at_ s) := by
  obtain ⟨s', he, hm⟩ := handle_serves env at_ r s
  have hs' : Inv s' := effects_invariant Inv hw (fun t u rows ht _ => hs t u rows ht) he h
  unfold Server.serve
  rcases hm with hm | ⟨now, hm⟩
  · rwa [hm]
  · rw [hm]
    exact hf s' now hs'

end

namespace Store

/-- The default data are writes like any other. -/
theorem initDefaultData_invariant (Inv : Store → Prop)
    (hc : ∀ s, ∀ row ∈ defaultCategories, ∀ now, Inv s → Inv (s.insert .categories row now).2)
    (ha : ∀ s now, Inv s → Inv (s.insert .admins defaultAdmin now).2)
    (hf : ∀ s now, Inv s → Inv (s.flushNow now)) (clock : ℕ → String) {s : Store} (h : Inv s) :
    Inv (s.initDefaultData clock) := by
  have hall : ∀ (rows : List Row) (clock : ℕ → String) (s : Store),
      (∀ row ∈ rows, row ∈ defaultCategories) → Inv s → Inv (s.insertAll .categories rows clock) := by
    intro rows
    induction rows with
    | nil => exact fun _ _ _ hs => hs
    | cons row rows ih =>
      intro clock s hsub hs
      exact ih _ _ (fun r hr => hsub r (List.mem_cons_of_mem row hr))
        (hc s row (hsub row List.mem_cons_self) _ hs)
  unfold initDefaultData
  refine hf _ _ ?_
  have h1 : Inv (if s.getTable .categories = [] then
      s.insertAll .categories defaultCategories clock else s) := by
    split
    · exact hall _ _ s (fun _ hr => hr) h
    · exact h
  split
  · exact ha _ _ h1
  · exact h1

end Store

theorem along_request {env : Env} {ok : Store → Server.Event → Prop} {s : Store} {r : Request}
    {at_ : Moment} {es : List Server.Event} (h : ok s (.request r at_))
    (hes : Along (Server.step env) ok (Server.serve env r at_ s) es) :
    Along (Server.step env) ok s (.request r at_ :: es) := by
  refine ⟨h, fun s' hs => ?_⟩
  rw [Server.step, Option.some.injEq] at hs
  exact hs ▸ hes

namespace Write

theorem rows_apply_of_ne {w : Write} {t : Table} (h : w.table ≠ t) (now : String) (s : Store) :
    (w.apply now s).cache.rows t = s.cache.rows t := by
  cases w with
  | insert u row => exact (Store.rows_insert u t row now s).trans (if_neg (Ne.symm h))
  | update u id updates => exact (Store.rows_update u t id updates now s).trans (if_neg (Ne.symm h))
  | updateWhere u p updates =>
    exact (Store.rows_updateWhere u t p updates now s).trans (if_neg (Ne.symm h))
  | remove u id => exact (Store.rows_remove u t id s).trans (if_neg (Ne.symm h))
  | removeWhere u p => exact (Store.rows_removeWhere u t p s).trans (if_neg (Ne.symm h))

theorem next_apply_of_ne {w : Write} {t : Table} (h : w.table ≠ t) (now : String) (s : Store) :
    (w.apply now s).cache.next t = s.cache.next t := by
  cases w with
  | insert u row => exact (Store.next_insert u t row now s).trans (if_neg (Ne.symm h))
  | update u id updates => exact Store.next_update u t id updates now s
  | updateWhere u p updates => exact Store.next_updateWhere u t p updates now s
  | remove u id => exact Store.next_remove u t id s
  | removeWhere u p => exact Store.next_removeWhere u t p s

end Write

/-- A table that is not written keeps its rows and its counter; only its order may change. -/
structure SameRows (s s' : Store) (t : Table) : Prop where
  perm : (s'.cache.rows t).Perm (s.cache.rows t)
  next : s'.cache.next t = s.cache.next t
  rows : t.live = false → s'.cache.rows t = s.cache.rows t

theorem SameRows.refl (s : Store) (t : Table) : SameRows s s t := ⟨.refl _, rfl, fun _ => rfl⟩

theorem serve_sameRows (env : Env) {r : Request} {t : Table} (h : t ∉ r.tables) (at_ : Moment)
    (s : Store) : SameRows s (Server.serve env r at_ s) t := by
  refine serve_invariant (fun s' => SameRows s s' t) (fun s' w now hw hi => ?_)
    (fun s' u rows hu hrows hi => ?_) (fun s' now hi => ?_) at_ (SameRows.refl s t)
  · have ht : w.table ≠ t := fun he => h (he ▸ hw.table)
    refine ⟨?_, ?_, fun hl => ?_⟩
    · rw [Write.rows_apply_of_ne ht]
      exact hi.perm
    · rw [Write.next_apply_of_ne ht]
      exact hi.next
    · rw [Write.rows_apply_of_ne ht]
      exact hi.rows hl
  · by_cases hut : t = u
    · subst hut
      refine ⟨?_, hi.next, fun hl => absurd hu (by simp [hl])⟩
      rw [Store.cache_putRows, StoreData.rows_setRows_self]
      exact (arraySort_perm hrows).trans hi.perm
    · refine ⟨?_, hi.next, fun hl => ?_⟩
      · rw [Store.cache_putRows, StoreData.rows_setRows_of_ne _ _ hut]
        exact hi.perm
      · rw [Store.cache_putRows, StoreData.rows_setRows_of_ne _ _ hut]
        exact hi.rows hl
  · refine ⟨?_, ?_, fun hl => ?_⟩
    · rw [Store.rows_flushNow]
      exact hi.perm
    · rw [Store.next_flushNow]
      exact hi.next
    · rw [Store.rows_flushNow]
      exact hi.rows hl

/-- The rows an in-place sort, or several, makes of the rows of a table. -/
abbrev Sorts (env : Env) (t : Table) : List Row → List Row → Prop :=
  Relation.ReflTransGen fun l l' => t.live = true ∧ arraySort (listOrder env t) l = .ok l'

theorem Sorts.perm {env : Env} {t : Table} {l l' : List Row} (h : Sorts env t l l') : l'.Perm l := by
  induction h with
  | refl => exact .refl _
  | tail _ hstep ih => exact (arraySort_perm hstep.2).trans ih

theorem Sorts.eq_of_not_live {env : Env} {t : Table} {l l' : List Row} (h : Sorts env t l l')
    (ht : t.live = false) : l' = l := by
  induction h with
  | refl => rfl
  | tail _ hstep _ => exact absurd hstep.1 (by simp [ht])

/-- The file holds the data `d`; the cache differs by in-place sorts only. -/
structure SavedAs (env : Env) (s : Store) (d : StoreData) : Prop where
  file : s.files.disk.dataFile = some (.whole (.ofData d))
  nextIds : d.info.nextIds = s.cache.info.nextIds
  rows : ∀ t, Sorts env t (d.rows t) (s.cache.rows t)

/-- With nothing unsaved, the file holds the cache up to in-place sorts. -/
def Saved (env : Env) (s : Store) : Prop := s.dirty = false → ∃ d, SavedAs env s d

section
variable {env : Env}

theorem saved_apply {s : Store} (h : Saved env s) (w : Write) (now : String) :
    Saved env (w.apply now s) := by
  rcases Write.apply_cases now s w with he | ⟨_, hd, _⟩
  · rwa [he]
  · exact fun hf => absurd hd (by simp [hf])

theorem saved_putRows {s : Store} (h : Saved env s) {t : Table} {rows : List Row}
    (ht : t.live = true) (hrows : arraySort (listOrder env t) (s.getTable t) = .ok rows) :
    Saved env (s.putRows t rows) := by
  intro hd
  obtain ⟨d, hf, hn, hr⟩ := h hd
  refine ⟨d, hf, hn, fun u => ?_⟩
  rw [Store.cache_putRows, StoreData.rows_setRows]
  split
  · rename_i hu
    subst hu
    exact (hr u).tail ⟨ht, hrows⟩
  · exact hr u

theorem saved_saveDataSync (s : Store) (now : String) : Saved env (s.saveDataSync now) :=
  fun _ => ⟨s.cache.setUpdatedAt now, rfl, rfl, fun _ => .refl⟩

theorem saved_flushNow {s : Store} (h : Saved env s) (now : String) : Saved env (s.flushNow now) := by
  unfold Store.flushNow
  dsimp only
  split
  · exact saved_saveDataSync _ now
  · intro hd
    obtain ⟨d, hf, hn, hr⟩ := h hd
    exact ⟨d, hf, hn, hr⟩

theorem saved_initDefaultData {s : Store} (h : Saved env s) (clock : ℕ → String) :
    Saved env (s.initDefaultData clock) :=
  Store.initDefaultData_invariant (Saved env)
    (fun _ row _ now hi => saved_apply hi (.insert .categories row) now)
    (fun _ now hi => saved_apply hi (.insert .admins Store.defaultAdmin) now)
    (fun _ now hi => saved_flushNow hi now) clock h

/-- The store a new process reads from the file. -/
theorem loadData_of_savedAs {s : Store} {d : StoreData} (h : SavedAs env s d) (loadedAt now : String) :
    Store.loadData loadedAt now s.files = ⟨d.viaJson, false, false, s.files⟩ := by
  unfold Store.loadData
  rw [h.file]
  rfl

theorem saved_loadData {s : Store} {d : StoreData} (h : SavedAs env s d) (loadedAt now : String) :
    Saved env (Store.loadData loadedAt now s.files) := by
  rw [loadData_of_savedAs h]
  intro _
  refine ⟨d.viaJson, ?_, rfl, fun _ => .refl⟩
  rw [h.file, Document.ofData_viaJson]

/-- After the flush that precedes a restart there is data to restart from. -/
theorem savedAs_flushNow {s : Store} (h : Saved env s) (now : String) :
    ∃ d, SavedAs env (s.flushNow now) d := by
  refine saved_flushNow h now ?_
  unfold Store.flushNow
  by_cases hd : s.dirty = true
  · simp only [hd, if_true]
    rfl
  · simp [hd]

theorem saved_restart {s : Store} (h : Saved env s) (loadedAt : String) (clock : ℕ → String) :
    Saved env (Server.restart loadedAt clock s) := by
  obtain ⟨d, hd⟩ := savedAs_flushNow h (clock 0)
  exact saved_initDefaultData (saved_loadData hd loadedAt (clock 1)) _

theorem saved_start (loadedAt : String) (clock : ℕ → String) :
    Saved env (Server.start loadedAt clock .empty) :=
  saved_initDefaultData (saved_saveDataSync _ _) _

theorem saved_serve {s : Store} (h : Saved env s) (r : Request) (at_ : Moment) :
    Saved env (Server.serve env r at_ s) :=
  serve_invariant (Saved env) (fun _ w now _ hi => saved_apply hi w now)
    (fun _ _ _ ht hrows hi => saved_putRows hi ht hrows) (fun _ now hi => saved_flushNow hi now) at_ h

theorem saved_step {s s' : Store} {e : Server.Event} (h : Saved env s)
    (hs : Server.step env s e = some s') : Saved env s' := by
  cases e with
  | request r at_ =>
    cases hs
    exact saved_serve h r at_
  | operation w now =>
    cases hs
    exact saved_apply h w now
  | timer now =>
    simp only [Server.step] at hs
    split at hs
    · cases hs
      exact saved_flushNow h now
    · cases hs
  | flush now =>
    cases hs
    exact saved_flushNow h now
  | restart loadedAt clock =>
    cases hs
    exact saved_restart h loadedAt clock

/-- A restart writes categories and admins only. -/
theorem rows_initDefaultData_of_ne {s : Store} {t : Table} (hc : t ≠ .categories) (ha : t ≠ .admins)
    (clock : ℕ → String) : (s.initDefaultData clock).cache.rows t = s.cache.rows t := by
  refine Store.initDefaultData_invariant (fun s' => s'.cache.rows t = s.cache.rows t)
    (fun s' row _ now hi => ?_) (fun s' now hi => ?_) (fun s' now hi => ?_) clock rfl
  · rw [Store.rows_insert, if_neg hc, hi]
  · rw [Store.rows_insert, if_neg ha, hi]
  · rw [Store.rows_flushNow, hi]

theorem rows_restart {s : Store} (h : Saved env s) {t : Table} (hc : t ≠ .categories)
    (ha : t ≠ .admins) (loadedAt : String) (clock : ℕ → String) :
    ∃ rows, rows.Perm (s.cache.rows t) ∧ (t.live = false → rows = s.cache.rows t) ∧
      (Server.restart loadedAt clock s).cache.rows t = rows.map Dict.viaJson := by
  obtain ⟨d, hd⟩ := savedAs_flushNow h (clock 0)
  have hsorts : Sorts env t (d.rows t) (s.cache.rows t) := by
    have hs := hd.rows t
    rwa [Store.rows_flushNow] at hs
  refine ⟨d.rows t, hsorts.perm.symm, fun hl => (hsorts.eq_of_not_live hl).symm, ?_⟩
  unfold Server.restart Server.start
  rw [rows_initDefaultData_of_ne hc ha, loadData_of_savedAs hd]
  rfl

/-- What holds of the rows of a table in any order, and of what JSON text keeps of them, is
left alone by every step but the requests and the operations that write the table. -/
theorem rows_step (P : List Row → Prop) {t : Table} (hc : t ≠ .categories) (ha : t ≠ .admins)
    (hperm : ∀ l l' : List Row, l'.Perm l → P l → P l')
    (hjson : ∀ l : List Row, P l → P (l.map Dict.viaJson)) {s s' : Store} {e : Server.Event}
    (hsv : Saved env s) (h : P (s.cache.rows t)) (hs : Server.step env s e = some s')
    (hreq : ∀ r at_, e = .request r at_ → t ∈ r.tables → s' = Server.serve env r at_ s →
      P (s'.cache.rows t))
    (hop : ∀ w now, e = .operation w now → w.table = t → P (s'.cache.rows t)) :
    P (s'.cache.rows t) := by
  cases e with
  | request r at_ =>
    cases hs
    by_cases ht : t ∈ r.tables
    · exact hreq r at_ rfl ht rfl
    · exact hperm _ _ (serve_sameRows env ht at_ s).perm h
  | operation w now =>
    cases hs
    by_cases ht : w.table = t
    · exact hop w now rfl ht
    · rwa [Write.rows_apply_of_ne ht]
  | timer now =>
    simp only [Server.step] at hs
    split at hs
    · cases hs
      rwa [Store.timerFired_eq, Store.rows_flushNow]
    · cases hs
  | flush now =>
    cases hs
    rwa [Store.rows_flushNow]
  | restart loadedAt clock =>
    cases hs
    obtain ⟨rows, hp, _, hr⟩ := rows_restart hsv hc ha loadedAt clock
    rw [hr]
    exact hjson rows (hperm _ _ hp h)

end

end JtfpMall
