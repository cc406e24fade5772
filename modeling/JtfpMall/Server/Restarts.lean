import JtfpMall.Server.Crashes
import JtfpMall.Server.Reads
import JtfpMall.Server.SameAnswers

/-!
# What a restart leaves unchanged

A flush, and a new process on the files. As long as no list reorders its table while nothing
is unsaved, the file holds what the cache holds; where every stored number is finite, the
new process then finds rows that read as the old ones, in the same order, and the same id
counters. It answers every reading request alike, unless it finds no category and seeds the
default ones again.
-/

namespace JtfpMall

open JtfpMall.Js
open JtfpMall.Lib

theorem SameFields.viaJson {r : Row} (h : Dict.IsPlain r) : SameFields r (Dict.viaJson r) := by
  intro k
  rw [Dict.viaJson_of_isPlain h, Dict.get_defined]

theorem Alike.getTable_eq_nil {s s' : Store} (h : Alike s s') {t : Table} :
    s'.getTable t = [] ↔ s.getTable t = [] := by
  unfold Store.getTable
  rw [← List.length_eq_zero_iff, ← (h t).length_eq, List.length_eq_zero_iff]

/-- A file that holds some data holds what a process reads from it. -/
theorem Disk.Holds.viaJson {d : Disk} {c : StoreData} (h : d.Holds c) : d.Holds c.viaJson := by
  unfold Disk.Holds at h ⊢
  rw [h, Document.ofData_viaJson]

namespace Store

theorem holds_flushNow {s : Store} (h : s.dirty = false → s.files.disk.Holds s.cache) (now : String) :
    (s.flushNow now).files.disk.Holds (s.flushNow now).cache := by
  unfold flushNow
  cases hd : s.dirty with
  | true => rfl
  | false => exact h hd

theorem loadData_of_holds {f : Files} {c : StoreData} (h : f.disk.Holds c) (loadedAt now : String) :
    loadData loadedAt now f = ⟨c.viaJson, false, false, f⟩ := by
  unfold loadData
  rw [h]
  rfl

/-- What the start-up finds on the file it leaves there, or saves with its own rows. -/
theorem holds_initDefaultData {s : Store} (hd : s.dirty = false) (h : s.files.disk.Holds s.cache)
    (clock : ℕ → String) :
    (s.initDefaultData clock).files.disk.Holds (s.initDefaultData clock).cache := by
  rcases initDefaultData_cases clock hd with hsaved | ⟨hfiles, hcache⟩
  · exact hsaved
  · rw [hfiles, hcache]
    exact h

theorem rows_insertAll_of_ne {t u : Table} (h : u ≠ t) (rows : List Row) (clock : ℕ → String)
    (s : Store) : (s.insertAll t rows clock).cache.rows u = s.cache.rows u := by
  induction rows generalizing clock s with
  | nil => rfl
  | cons row rows ih =>
    refine (ih _ _).trans ?_
    rw [rows_insert, if_neg h]

/-- After the start-up there is an administrator. -/
theorem admins_initDefaultData (clock : ℕ → String) (s : Store) :
    (s.initDefaultData clock).getTable .admins ≠ [] := by
  unfold initDefaultData getTable
  dsimp only
  rw [rows_flushNow]
  split
  · rw [rows_insert, if_pos rfl]
    exact List.append_ne_nil_of_right_ne_nil _ (List.cons_ne_nil _ _)
  · rename_i hadmins
    split
    · rwa [rows_insertAll_of_ne (by decide)]
    · exact hadmins

/-- Where there are categories and administrators, the start-up adds nothing. -/
theorem initDefaultData_of_seeded {s : Store} (hc : s.getTable .categories ≠ [])
    (ha : s.getTable .admins ≠ []) (clock : ℕ → String) :
    s.initDefaultData clock = s.flushNow (clock 6) := by
  unfold initDefaultData
  rw [if_neg hc]
  dsimp only
  rw [if_neg ha]

theorem next_insertAll (t : Table) (rows : List Row) (clock : ℕ → String) (s : Store) :
    (s.insertAll t rows clock).cache.next t = s.cache.next t + rows.length := by
  induction rows generalizing clock s with
  | nil => rfl
  | cons row rows ih =>
    refine (ih _ _).trans ?_
    rw [next_insert, if_pos rfl, List.length_cons]
    omega

/-- Where there is no category, the five default ones take the next ids. -/
theorem next_initDefaultData_of_empty {s : Store} (hc : s.getTable .categories = [])
    (clock : ℕ → String) :
    (s.initDefaultData clock).cache.next .categories = s.cache.next .categories + 5 := by
  unfold initDefaultData
  rw [if_pos hc]
  dsimp only
  rw [next_flushNow]
  have hseeded := next_insertAll .categories defaultCategories clock s
  split
  · rw [next_insert, if_neg (by decide)]
    exact hseeded
  · exact hseeded

end Store

namespace Server

/-- A request that lists while nothing is unsaved finds its table in order. The writing functions are
called by requests only. -/
def Event.Orderly (env : Env) (s : Store) : Event → Prop
  | .request r _ => s.dirty = false → ∀ c, r.Lists c → ¬c.Reorders env s
  | .operation _ _ => False
  | _ => True

/-- A flush and a restart change no id counter, and no answer to a request that writes nothing. -/
def RestartUnseen (env : Env) (s : Store) : Prop :=
  ∀ loadedAt clock, (∀ t, (restart loadedAt clock s).cache.next t = s.cache.next t) ∧
    ∀ r : Request, r.tables = [] → ∀ at_,
      ExceptRel Response.Same (answer env r at_ s) (answer env r at_ (restart loadedAt clock s))

/-- What a store has from its first start on. -/
structure Ready (s : Store) : Prop where
  held : s.dirty = false → s.files.disk.Holds s.cache
  admins : s.getTable .admins ≠ []

section
variable {env : Env} {s : Store}

/-- A request that leaves nothing unsaved, and found nothing unsaved, has changed nothing before its
flush. -/
theorem held_serve (h : s.dirty = false → s.files.disk.Holds s.cache) {r : Request}
    (hl : s.dirty = false → ∀ c, r.Lists c → ¬c.Reorders env s) (at_ : Moment)
    (hd : (serve env r at_ s).dirty = false) :
    (serve env r at_ s).files.disk.Holds (serve env r at_ s).cache := by
  obtain ⟨s', he, hm⟩ := handle_serves env at_ r s
  have hs' : s'.dirty = true ∨ s' = s := by
    refine effects_invariant (fun s' => s'.dirty = true ∨ s' = s) (fun t w now _ ht => ?_)
      (fun t u rows _ hu hrows ht => ?_) he (Or.inr rfl)
    · rcases Write.apply_cases now t w with hsame | ⟨_, hdirty, _⟩
      · rwa [hsame]
      · exact Or.inl hdirty
    · rcases ht with hdirty | rfl
      · exact Or.inl hdirty
      · cases hdirty : t.dirty with
        | true => exact Or.inl hdirty
        | false =>
          -- with nothing unsaved, the list has found its table in order
          obtain ⟨c, hc, hnone, rfl⟩ := hu
          have hsame : rows = t.getTable c.table := by
            by_contra hne
            exact hl hdirty c hc ⟨hnone, rows, hrows, hne⟩
          rw [hsame, Store.putRows_self]
          exact Or.inr rfl
  have hheld : s'.dirty = false → s'.files.disk.Holds s'.cache := by
    rcases hs' with hdirty | rfl
    · exact fun hf => absurd hdirty (by simp [hf])
    · exact h
  unfold serve at hd ⊢
  rcases hm with hm | ⟨now, hm⟩
  · rw [hm] at hd ⊢
    exact hheld hd
  · rw [hm]
    exact Store.holds_flushNow hheld now

theorem admins_not_mem_tables (r : Request) : Table.admins ∉ r.tables := by
  intro h
  unfold Request.tables at h
  split at h <;> simp at h

theorem ready_start (loadedAt : String) (clock : ℕ → String) :
    Ready (start loadedAt clock .empty) :=
  ⟨fun _ => Store.holds_initDefaultData (s := Store.loadData loadedAt (clock 0) .empty) rfl rfl _,
    Store.admins_initDefaultData _ _⟩

theorem ready_restart (h : Ready s) (loadedAt : String) (clock : ℕ → String) :
    Ready (restart loadedAt clock s) := by
  have hheld := Store.holds_flushNow h.held (clock 0)
  refine ⟨fun _ => ?_, Store.admins_initDefaultData _ _⟩
  unfold restart start
  rw [Store.loadData_of_holds hheld]
  exact Store.holds_initDefaultData rfl hheld.viaJson _

theorem ready_flushNow (h : Ready s) (now : String) : Ready (s.flushNow now) := by
  refine ⟨fun _ => Store.holds_flushNow h.held now, ?_⟩
  unfold Store.getTable
  rw [Store.rows_flushNow]
  exact h.admins

theorem ready_step {s' : Store} {e : Event} (h : Ready s) (he : e.Orderly env s)
    (hs : step env s e = some s') : Ready s' := by
  cases e with
  | request r at_ =>
    cases hs
    refine ⟨held_serve h.held he at_, fun hnone => h.admins ?_⟩
    have hp := (serve_sameRows env (admins_not_mem_tables r) at_ s).perm
    unfold Store.getTable at hnone ⊢
    rw [hnone] at hp
    exact hp.symm.eq_nil
  | operation w now => exact absurd he id
  | timer now =>
    simp only [step] at hs
    split at hs
    · cases hs
      exact ready_flushNow h now
    · cases hs
  | flush now =>
    cases hs
    exact ready_flushNow h now
  | restart loadedAt clock =>
    cases hs
    exact ready_restart h loadedAt clock

theorem ready_run {loadedAt : String} {clock : ℕ → String} {es : List Event}
    (hok : Along (step env) (fun s e => e.Orderly env s) (start loadedAt clock .empty) es)
    (hr : run (step env) (start loadedAt clock .empty) es = some s) : Ready s :=
  run_invariant (step env) Ready (fun _ _ _ hi he hs => ready_step hi he hs)
    (ready_start loadedAt clock) hok hr

/-- What the new process reads from the file. -/
theorem reload_alike (h : Ready s) (hp : s.cache.IsPlain) (loadedAt : String) (clock : ℕ → String) :
    Alike s (Store.loadData loadedAt (clock 1) (s.flushNow (clock 0)).files) ∧
      ∀ t, (Store.loadData loadedAt (clock 1) (s.flushNow (clock 0)).files).cache.next t =
        s.cache.next t := by
  rw [Store.loadData_of_holds (Store.holds_flushNow h.held (clock 0))]
  refine ⟨fun t => ?_, fun t => Store.next_flushNow _ s t⟩
  rw [StoreData.rows_viaJson, Store.rows_flushNow, List.forall₂_map_right_iff, List.forall₂_same]
  exact fun r hr => .viaJson (hp t r hr)

/-- With a category left, the new process keeps what it reads. -/
theorem restart_alike (h : Ready s) (hp : s.cache.IsPlain) (hc : s.getTable .categories ≠ [])
    (loadedAt : String) (clock : ℕ → String) : Alike s (restart loadedAt clock s) ∧
      ∀ t, (restart loadedAt clock s).cache.next t = s.cache.next t := by
  obtain ⟨halike, hnext⟩ := reload_alike h hp loadedAt clock
  unfold restart start
  rw [Store.initDefaultData_of_seeded (fun hn => hc (halike.getTable_eq_nil.mp hn))
    fun hn => h.admins (halike.getTable_eq_nil.mp hn)]
  refine ⟨fun t => ?_, fun t => ?_⟩
  · rw [Store.rows_flushNow]
    exact halike t
  · rw [Store.next_flushNow]
    exact hnext t

/-- Whatever has been served, with finite numbers a restart is unseen exactly when a category is left. -/
theorem restart_unseen_iff (env : Env) {loadedAt : String} {clock : ℕ → String} {es : List Event}
    {s : Store}
    (hok : Along (step env) (fun s e => e.Orderly env s) (start loadedAt clock .empty) es)
    (hr : run (step env) (start loadedAt clock .empty) es = some s) (hp : s.cache.IsPlain) :
    RestartUnseen env s ↔ s.getTable .categories ≠ [] := by
  have hready := ready_run hok hr
  constructor
  · intro h hc
    obtain ⟨hnext, -⟩ := h "" fun _ => ""
    obtain ⟨halike, hloaded⟩ := reload_alike hready hp "" fun _ => ""
    have hseeded : (restart "" (fun _ => "") s).cache.next .categories =
        s.cache.next .categories + 5 := by
      unfold restart start
      rw [Store.next_initDefaultData_of_empty (halike.getTable_eq_nil.mpr hc), hloaded]
    rw [hnext] at hseeded
    omega
  · intro hc loadedAt clock
    obtain ⟨halike, hnext⟩ := restart_alike hready hp hc loadedAt clock
    exact ⟨hnext, fun r ht at_ => answer_same env halike ht at_⟩

end

theorem isPlain_start (loadedAt : String) (clock : ℕ → String) :
    (start loadedAt clock .empty).cache.IsPlain := by
  refine Store.initDefaultData_invariant (fun s => s.cache.IsPlain) (fun s row hrow now hi => ?_)
    (fun s now hi => ?_) (fun s now hi t r hr => hi t r (Store.rows_flushNow now s t ▸ hr)) _
    fun _ _ hr => absurd hr List.not_mem_nil
  · refine isPlain_apply now (w := .insert .categories row) hi ?_
    obtain ⟨⟨name, order⟩, _, rfl⟩ := List.mem_map.mp hrow
    refine Dict.isPlain_ofList fun q hq => ?_
    simp only [List.mem_cons, List.not_mem_nil, or_false] at hq
    rcases hq with rfl | rfl | rfl <;> exact Or.inr rfl
  · refine isPlain_apply now (w := .insert .admins Store.defaultAdmin) hi ?_
    refine Dict.isPlain_ofList fun q hq => ?_
    simp only [List.mem_cons, List.not_mem_nil, or_false] at hq
    rcases hq with rfl | rfl | rfl <;> exact Or.inr rfl

/-- A product is created, the timer saves it, and the list of products finds its one row in order. -/
theorem restart_unseen_iff_product :
    let es : List Event := [
      .request (.admin true (.createProduct (.ofList [("title", .str "a")]))) (moment "t2"),
      .timer "t3", .request (.admin true (.products .empty)) (moment "t4")]
    ∃ s, run (step .plain) (start "t0" (fun _ => "t1") .empty) es = some s ∧
      RestartUnseen .plain s := by
  intro es
  have hok : Along (step .plain) (fun s e => e.Orderly .plain s)
      (start "t0" (fun _ => "t1") .empty) es := by
    refine ⟨fun _ c hc => ?_, fun _ h1 => ⟨trivial, fun _ h2 => ⟨fun _ c hc => ?_, fun _ _ => trivial⟩⟩⟩
    · cases hc
    · cases h1
      cases h2
      cases hc
      rintro ⟨_, rows, hrows, hne⟩
      exact hne (List.perm_singleton.mp (arraySort_perm hrows))
  refine ⟨_, rfl, (restart_unseen_iff .plain hok rfl fun t r hr => ?_).mpr (List.cons_ne_nil _ _)⟩
  have hread : t ∉ (Request.admin true (.products .empty)).tables := List.not_mem_nil
  have hmem := (serve_sameRows .plain hread _ _).perm.subset hr
  rw [Store.timerFired_eq, Store.rows_flushNow] at hmem
  exact isPlain_apply "t2" (isPlain_start "t0" fun _ => "t1")
    (w := .insert .products (Products.newProduct (.ofList [("title", .str "a")])))
    (isPlain_newProduct (isPlain_single (JsVal.storable_str "a"))) t r hmem

/-- What the rows of a reply read under a key. -/
def replyShows (k : String) : Reply → List JsVal
  | .val _ => []
  | .row r => [r.get k]
  | .rows rs => rs.map fun r => r.get k

/-- What the rows of an answer read under a key. -/
def answerShows (k : String) (x : Except JsError Response) : Option (List JsVal) :=
  x.toOption.map fun response => response.body.flatMap fun p => replyShows k p.2

theorem replyShows_same {x y : Reply} (h : x.Same y) (k : String) : replyShows k x = replyShows k y := by
  cases h with
  | val v => rfl
  | row h => exact congrArg (fun v => [v]) (h k)
  | rows h => exact map_eq_of_byFields (byFields_get k) h

theorem flatMap_replyShows {body body' : List (String × Reply)}
    (h : List.Forall₂ SameField body body') (k : String) :
    (body.flatMap fun p => replyShows k p.2) = body'.flatMap fun p => replyShows k p.2 := by
  induction h with
  | nil => rfl
  | cons hfield _ ih => rw [List.flatMap_cons, List.flatMap_cons, replyShows_same hfield.2 k, ih]

theorem answerShows_same {x y : Except JsError Response} (h : ExceptRel Response.Same x y)
    (k : String) : answerShows k x = answerShows k y := by
  cases h with
  | error e => rfl
  | ok h => exact congrArg some (flatMap_replyShows h.body k)

/-- An infinite sort order is null for the next process. When every category is deleted, the next
process has five new ones. Two orders have one number, they are saved and then
listed: the detail shows the later one, and the earlier one after the restart. -/
theorem restart_seen :
    let create : Event := .request (.user (some ⟨1, userId_one⟩) (.createOrder (.obj []))) (moment "t2")
    let later : Event := .request (.user (some ⟨1, userId_one⟩) (.createOrder (.obj []))) (moment "t3")
    let runs : List (List Event) := [
      [.request (.admin true (.createProperty (.ofList [("community_name", .str "a"),
        ("sortOrder", .str "Infinity")]))) (moment "t2")],
      ["1", "2", "3", "4", "5"].map fun id =>
        .request (.admin true (.deleteCategory id)) (moment "t2"),
      [create, later, .timer "t4", .request (.admin true (.orders .empty)) (moment "t5")]]
    ∀ es ∈ runs, ∃ s, run (step .plain) (start "t0" (fun _ => "t1") .empty) es = some s ∧
      ¬RestartUnseen .plain s := by
  intro create later runs es hes
  have hseen : ∀ (s : Store) (r : Request) (k : String), r.tables = [] →
      answerShows k (answer .plain r (moment "t6") s) ≠
        answerShows k (answer .plain r (moment "t6") (restart "t7" (fun _ => "t8") s)) →
      ¬RestartUnseen .plain s := fun s r k hr hne h =>
    hne (answerShows_same ((h _ _).2 r hr _) k)
  simp only [runs, List.mem_cons, List.not_mem_nil, or_false] at hes
  rcases hes with rfl | rfl | rfl
  · exact ⟨_, rfl, hseen _ (.admin true (.property "1")) "sort_order" rfl (by decide +kernel)⟩
  · exact ⟨_, rfl, hseen _ (.admin true .categories) "id" rfl (by decide +kernel)⟩
  · exact ⟨_, rfl, hseen _ (.user (some ⟨1, userId_one⟩) (.myOrder "202501010000000000")) "id" rfl
      (by decide +kernel)⟩

end Server

end JtfpMall
