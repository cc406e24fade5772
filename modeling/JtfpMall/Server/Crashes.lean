import Mathlib.Data.List.Induction
import JtfpMall.Server.Identity

/-!
# Crashes

The data file changes by renames only, and a rename puts a whole cache in its place. No request
flushes before its last write, so every cache the file has held is the one at the end of a
request, of a timer, of a flush or of the start-up. A crash at any point leaves a file that the
next process reads as such a state, with what JSON text keeps of its values; only while a process
starts, and has not yet flushed its default data, may the file still be the one it found.
-/

namespace JtfpMall

open JtfpMall.Js
open JtfpMall.Lib

/-- What the next process reads from the disk a crash has left. -/
def reload (loadedAt now : String) (d : Disk) : StoreData := (Store.loadData loadedAt now ⟨d, []⟩).cache

/-- No rows, and no id given out. -/
def StoreData.Blank (d : StoreData) : Prop := ∀ t, d.rows t = [] ∧ d.next t = 1

namespace Server

/-- The events of a process at work: requests, the timer and flushes. -/
def Event.Serving : Event → Prop
  | .request _ _ => True
  | .timer _ => True
  | .flush _ => True
  | _ => False

/-- The disks of an event: the one it found, and every one it wrote. -/
def disksOf (s s' : Store) : List Disk :=
  s'.files.seen.take (s'.files.past.length - s.files.past.length + 1)

/-- A process that started on the disk `d0` dies while it starts, or in the last of the events, with
the disk `d` as it is then. -/
inductive Crash (env : Env) (loadedAt : String) (clock : ℕ → String) (d0 : Disk) :
    List Event → Disk → Prop where
  | starting {d : Disk} (hd : d ∈ (start loadedAt clock ⟨d0, []⟩).files.seen) :
    Crash env loadedAt clock d0 [] d
  | serving {es : List Event} {e : Event} {t s : Store} {d : Disk} (hes : ∀ e' ∈ es, e'.Serving)
    (he : e.Serving) (hr : run (step env) (start loadedAt clock ⟨d0, []⟩) es = some t)
    (hs : step env t e = some s) (hd : d ∈ disksOf t s) : Crash env loadedAt clock d0 (es ++ [e]) d

/-- What the process found on the disk: nothing, or the data of an earlier one. -/
inductive Found (d0 : Disk) (c : StoreData) : Prop where
  | blank (h : d0.dataFile = none) (hc : c.Blank)
  | before {b : StoreData} (h : d0.dataFile = some (.whole (.ofData b))) (hc : c = b.viaJson)

/-- The data are those of a boundary: after some of the events, or, as long as the process is
starting and the data file is not the one it starts with, what it found. -/
inductive Boundary (env : Env) (d0 : Disk) (s0 : Store) (es : List Event) (d : Disk)
    (c : StoreData) : Prop where
  | unseeded (he : es = []) (hd : d.dataFile ≠ s0.files.disk.dataFile) (hc : Found d0 c)
  | after {es₁ es₂ : List Event} {s : Store} (he : es = es₁ ++ es₂)
      (hr : run (step env) s0 es₁ = some s) (hc : c = s.cache.viaJson)

end Server

/-- The file holds the whole data. -/
def Disk.Holds (d : Disk) (c : StoreData) : Prop := d.dataFile = some (.whole (.ofData c))

theorem reload_of_holds {d : Disk} {c : StoreData} (h : d.Holds c) (loadedAt now : String) :
    reload loadedAt now d = c.viaJson := by
  unfold reload Store.loadData
  dsimp only
  rw [h]
  exact Document.toData_ofData _ c

theorem blank_default (loadedAt now : String) : ((StoreData.default loadedAt).setUpdatedAt now).Blank :=
  fun _ => ⟨rfl, rfl⟩

theorem reload_of_none {d : Disk} (h : d.dataFile = none) (loadedAt now : String) :
    (reload loadedAt now d).Blank := by
  unfold reload Store.loadData
  dsimp only
  rw [h]
  exact blank_default loadedAt now

theorem reload_congr {d d' : Disk} (h : d.dataFile = d'.dataFile) (loadedAt now : String) :
    reload loadedAt now d = reload loadedAt now d' := by
  unfold reload Store.loadData
  dsimp only
  rw [h]
  cases d'.dataFile with
  | none => rfl
  | some content => cases content <;> rfl

/-- The files are as they were, or the whole cache of `s'` has been written to them. -/
def SavesWhole (s s' : Store) : Prop :=
  s'.files = s.files ∨ s'.files = (s.files.writeTmp (.ofData s'.cache)).rename

namespace SavesWhole

variable {s s' : Store} {d : Disk}

theorem flushNow (now : String) (s : Store) : SavesWhole s (s.flushNow now) := by
  unfold Store.flushNow
  dsimp only
  split
  · exact Or.inr rfl
  · exact Or.inl rfl

/-- While the tmp file is written, whole or in part, the data file is the old one. -/
theorem of_mem_disksOf (h : SavesWhole s s') (hd : d ∈ Server.disksOf s s') :
    d.dataFile = s.files.disk.dataFile ∨ d.Holds s'.cache := by
  unfold Server.disksOf at hd
  rcases h with h | h
  · rw [h, Nat.sub_self] at hd
    rw [List.mem_singleton.mp hd]
    exact Or.inl rfl
  · have hpast : ((s.files.writeTmp (.ofData s'.cache)).rename).past.length -
        s.files.past.length + 1 = 4 := by
      change s.files.past.length + 1 + 1 + 1 - s.files.past.length + 1 = 4
      omega
    rw [h, hpast] at hd
    rcases List.mem_cons.mp hd with rfl | hd
    · exact Or.inr rfl
    rcases List.mem_cons.mp hd with rfl | hd
    · exact Or.inl rfl
    rcases List.mem_cons.mp hd with rfl | hd
    · exact Or.inl rfl
    · rw [List.mem_singleton.mp hd]
      exact Or.inl rfl

theorem of_mem_seen (h : SavesWhole s s') (hd : d ∈ s'.files.seen) :
    d ∈ s.files.seen ∨ d ∈ Server.disksOf s s' := by
  rcases h with h | h
  · exact Or.inl (h ▸ hd)
  · have hseen : s'.files.seen.take 4 = Server.disksOf s s' := by
      unfold Server.disksOf
      rw [h]
      congr 1
      change 4 = s.files.past.length + 1 + 1 + 1 - s.files.past.length + 1
      omega
    rw [← List.take_append_drop 4 s'.files.seen] at hd
    rcases List.mem_append.mp hd with hd | hd
    · exact Or.inr (hseen ▸ hd)
    · refine Or.inl (List.mem_cons_of_mem _ ?_)
      rw [h] at hd
      exact hd

theorem disk (h : SavesWhole s s') :
    s'.files.disk.dataFile = s.files.disk.dataFile ∨ s'.files.disk.Holds s'.cache :=
  h.of_mem_disksOf List.mem_cons_self

end SavesWhole

theorem files_effects {env : Env} {W : Write → Prop} {L : Table → Prop} {s s' : Store}
    (h : Effects env W L s s') :
    s'.files = s.files := by
  refine effects_invariant (fun s' => s'.files = s.files) (fun s' w now _ hi => ?_)
    (fun _ _ _ _ _ _ hi => hi) h rfl
  rw [Write.files_apply, hi]

theorem files_insertAll (t : Table) (rows : List Row) (clock : ℕ → String) (s : Store) :
    (s.insertAll t rows clock).files = s.files := by
  induction rows generalizing clock s with
  | nil => rfl
  | cons row rows ih => exact (ih _ _).trans (Write.files_apply (clock 0) s (.insert t row))

theorem savesWhole_initDefaultData (clock : ℕ → String) (s : Store) :
    SavesWhole s (s.initDefaultData clock) := by
  have hflush : ∀ {s' : Store} (now : String), s'.files = s.files → SavesWhole s (s'.flushNow now) := by
    intro s' now hf
    have h := SavesWhole.flushNow now s'
    unfold SavesWhole at h ⊢
    rwa [hf] at h
  have hcategories : (if s.getTable .categories = [] then
      s.insertAll .categories Store.defaultCategories clock else s).files = s.files := by
    split
    · exact files_insertAll _ _ _ s
    · rfl
  unfold Store.initDefaultData
  dsimp only
  refine hflush _ ?_
  split
  · exact (Write.files_apply _ _ (.insert .admins Store.defaultAdmin)).trans hcategories
  · exact hcategories

/-- What the start-up has not written it has not changed. -/
theorem initDefaultData_cases (clock : ℕ → String) {s : Store} (hd : s.dirty = false) :
    (s.initDefaultData clock).files.disk.Holds (s.initDefaultData clock).cache ∨
      ((s.initDefaultData clock).files = s.files ∧ (s.initDefaultData clock).cache = s.cache) := by
  have hsaved : ∀ {s' : Store} (now : String), s'.dirty = true →
      (s'.flushNow now).files.disk.Holds (s'.flushNow now).cache := by
    intro s' now hdirty
    unfold Store.flushNow
    dsimp only
    rw [if_pos hdirty]
    rfl
  unfold Store.initDefaultData
  dsimp only
  split
  · refine Or.inl (hsaved _ ?_)
    split <;> rfl
  · split
    · exact Or.inl (hsaved _ rfl)
    · unfold Store.flushNow
      dsimp only
      rw [hd]
      exact Or.inr ⟨rfl, rfl⟩

namespace Server

/-- A step of a process at work leaves the files alone or puts the cache it ends with there. -/
theorem savesWhole_step {env : Env} {s s' : Store} {e : Event} (he : e.Serving)
    (hs : step env s e = some s') : SavesWhole s s' := by
  cases e with
  | request r at_ =>
    cases hs
    obtain ⟨t, heffects, hend⟩ := handle_serves env at_ r s
    have hfiles := files_effects heffects
    unfold serve
    rcases hend with hend | ⟨now, hend⟩
    · rw [hend]
      exact Or.inl hfiles
    · rw [hend]
      have h := SavesWhole.flushNow now t
      unfold SavesWhole at h ⊢
      rwa [hfiles] at h
  | operation w now => exact absurd he id
  | timer now =>
    simp only [step] at hs
    split at hs
    · cases hs
      exact SavesWhole.flushNow now s
    · cases hs
  | flush now =>
    cases hs
    exact SavesWhole.flushNow now s
  | restart loadedAt clock => exact absurd he id

section
variable {env : Env} {d0 : Disk} {loadedAt : String} {clock : ℕ → String}

/-- The data file holds the state after some of the events. -/
def Kept (env : Env) (s0 : Store) (es : List Event) (d : Disk) : Prop :=
  ∀ loadedAt now, ∃ es₁ es₂ s, es = es₁ ++ es₂ ∧ run (step env) s0 es₁ = some s ∧
    reload loadedAt now d = s.cache.viaJson

theorem Kept.append {s0 : Store} {es : List Event} {d : Disk} (h : Kept env s0 es d)
    (fs : List Event) : Kept env s0 (es ++ fs) d := by
  intro loadedAt now
  obtain ⟨es₁, es₂, s, he, hr, hc⟩ := h loadedAt now
  exact ⟨es₁, es₂ ++ fs, s, by rw [he, List.append_assoc], hr, hc⟩

theorem Kept.congr {s0 : Store} {es : List Event} {d d' : Disk} (h : Kept env s0 es d)
    (hd : d'.dataFile = d.dataFile) : Kept env s0 es d' := by
  intro loadedAt now
  rw [reload_congr hd]
  exact h loadedAt now

theorem kept_of_holds {s0 s : Store} {es : List Event} {d : Disk}
    (hr : run (step env) s0 es = some s) (h : d.Holds s.cache) : Kept env s0 es d :=
  fun _ _ => ⟨es, [], s, (List.append_nil es).symm, hr, reload_of_holds h _ _⟩

theorem Boundary.of_kept {s0 : Store} {es : List Event} {d : Disk} (h : Kept env s0 es d)
    (loadedAt' now : String) : Boundary env d0 s0 es d (reload loadedAt' now d) := by
  obtain ⟨es₁, es₂, s, he, hr, hc⟩ := h loadedAt' now
  exact .after he hr hc

/-- Before the start-up writes its data, the file is the old one or the empty one that a first process
writes at once. -/
theorem found_of_loadData (hd0 : d0.dataFile = none ∨ ∃ b, d0.Holds b) {d : Disk}
    (hd : ∃ d' ∈ (Store.loadData loadedAt (clock 0) ⟨d0, []⟩).files.seen, d.dataFile = d'.dataFile)
    (loadedAt' now : String) : Found d0 (reload loadedAt' now d) := by
  have hold : ∀ d' : Disk, d'.dataFile = d0.dataFile → Found d0 (reload loadedAt' now d') := by
    intro d' hd'
    rcases hd0 with hnone | ⟨b, hb⟩
    · exact .blank hnone (reload_of_none (hd'.trans hnone) _ _)
    · exact .before hb (reload_of_holds (hd'.trans hb) _ _)
  obtain ⟨d', hd', hsame⟩ := hd
  rw [reload_congr hsame]
  unfold Store.loadData at hd'
  dsimp only at hd'
  rcases hd0 with hnone | ⟨b, hb⟩
  · rw [hnone] at hd'
    have hsaves : SavesWhole ⟨.default loadedAt, false, false, ⟨d0, []⟩⟩
        (Store.saveDataSync (clock 0) ⟨.default loadedAt, false, false, ⟨d0, []⟩⟩) := Or.inr rfl
    rcases hsaves.of_mem_seen hd' with hd' | hd'
    · rw [List.mem_singleton.mp hd']
      exact hold d0 rfl
    · rcases hsaves.of_mem_disksOf hd' with hsame' | hwhole
      · exact hold d' hsame'
      · rw [reload_of_holds hwhole]
        exact .blank hnone (blank_default loadedAt _)
  · rw [hb] at hd'
    rw [List.mem_singleton.mp hd']
    exact hold d0 rfl

/-- The data file that the start-up ends with holds the store it ends with. -/
theorem kept_start (hd0 : d0.dataFile = none ∨ ∃ b, d0.Holds b) :
    Kept env (start loadedAt clock ⟨d0, []⟩) [] (start loadedAt clock ⟨d0, []⟩).files.disk := by
  have hdirty : (Store.loadData loadedAt (clock 0) ⟨d0, []⟩).dirty = false := by
    unfold Store.loadData
    split <;> rfl
  rcases initDefaultData_cases (fun i => clock (i + 1)) hdirty with hwhole | ⟨hfiles, hcache⟩
  · exact kept_of_holds (run_nil _ _) hwhole
  · refine fun loadedAt' now => ⟨[], [], _, rfl, run_nil _ _, ?_⟩
    unfold start
    rw [hfiles, hcache]
    rcases hd0 with hnone | ⟨b, hb⟩
    · refine reload_of_holds ?_ _ _
      unfold Store.loadData
      dsimp only
      rw [hnone]
      rfl
    · unfold Store.loadData
      dsimp only
      rw [hb]
      refine (reload_of_holds hb _ _).trans ?_
      exact (StoreData.viaJson_viaJson b).symm

/-- From the start-up on, the data file holds the state after some of the events. -/
theorem kept_run (hd0 : d0.dataFile = none ∨ ∃ b, d0.Holds b) {es : List Event} {s : Store}
    (hes : ∀ e ∈ es, e.Serving) (hr : run (step env) (start loadedAt clock ⟨d0, []⟩) es = some s) :
    Kept env (start loadedAt clock ⟨d0, []⟩) es s.files.disk := by
  induction es using List.reverseRecOn generalizing s with
  | nil =>
    rw [run_nil, Option.some.injEq] at hr
    subst hr
    exact kept_start hd0
  | append_singleton es e ih =>
    obtain ⟨t, hrun, hstep⟩ := run_snoc _ hr
    have hkept := ih (fun e' he' => hes e' (List.mem_append_left _ he')) hrun
    have hserving : e.Serving := hes e (List.mem_append_right _ (List.mem_singleton_self e))
    rcases (savesWhole_step hserving hstep).disk with hsame | hwhole
    · exact (hkept.append [e]).congr hsame
    · exact kept_of_holds hr hwhole

/-- A process starts on a disk without a data file, or with one that an earlier process has written;
it serves requests, its timer fires and it flushes. Whatever the files are when it dies, also between
two steps of one write, the next process finds the state of a boundary. -/
theorem crash_finds_boundary (hd0 : d0.dataFile = none ∨ ∃ b, d0.Holds b) {es : List Event}
    {d : Disk} (h : Crash env loadedAt clock d0 es d) (loadedAt' now : String) :
    Boundary env d0 (start loadedAt clock ⟨d0, []⟩) es d (reload loadedAt' now d) := by
  cases h with
  | starting hd =>
    by_cases hseeded : d.dataFile = (start loadedAt clock ⟨d0, []⟩).files.disk.dataFile
    · exact .of_kept ((kept_start hd0).congr hseeded) _ _
    · have hsaves := savesWhole_initDefaultData (fun i => clock (i + 1))
        (Store.loadData loadedAt (clock 0) ⟨d0, []⟩)
      rcases hsaves.of_mem_seen hd with hd | hd
      · exact .unseeded rfl hseeded (found_of_loadData hd0 ⟨d, hd, rfl⟩ _ _)
      · rcases hsaves.of_mem_disksOf hd with hsame | hwhole
        · exact .unseeded rfl hseeded (found_of_loadData hd0 ⟨_, List.mem_cons_self, hsame⟩ _ _)
        · exact .of_kept (kept_of_holds (run_nil _ _) hwhole) _ _
  | serving hes he hr hs hd =>
    rename_i es e t s
    have hkept := kept_run hd0 hes hr
    refine .of_kept ?_ _ _
    rcases (savesWhole_step he hs).of_mem_disksOf hd with hsame | hwhole
    · exact (hkept.append [e]).congr hsame
    · refine kept_of_holds ?_ hwhole
      rw [run_append, hr, Option.bind_some, run_cons, hs]
      rfl

end

/-- A product is created and the process dies while the timer writes the tmp file. -/
theorem crash_finds_boundary_torn :
    let r : Event := .request (.admin true (.createProduct (.ofList [("title", .str "a")]))) (moment "t2")
    ∃ d, d.tmpFile = some .torn ∧
      Crash .plain "t0" (fun _ => "t1") ⟨none, none⟩ ([r] ++ [.timer "t3"]) d ∧
      Boundary .plain ⟨none, none⟩ (start "t0" (fun _ => "t1") .empty) ([r] ++ [.timer "t3"]) d
        (reload "t4" "t5" d) := by
  intro r
  have hes : ∀ e ∈ [r], e.Serving := by
    intro e he
    rw [List.mem_singleton.mp he]
    trivial
  obtain ⟨t, s, hr, hs, d, hd, htorn⟩ : ∃ t s,
      run (step .plain) (start "t0" (fun _ => "t1") .empty) [r] = some t ∧
        step .plain t (.timer "t3") = some s ∧ ∃ d ∈ disksOf t s, d.tmpFile = some .torn :=
    ⟨_, _, rfl, rfl, _, List.mem_cons_of_mem _ (List.mem_cons_of_mem _ List.mem_cons_self), rfl⟩
  have hcrash : Crash .plain "t0" (fun _ => "t1") ⟨none, none⟩ ([r] ++ [.timer "t3"]) d :=
    .serving hes trivial hr hs hd
  exact ⟨d, htorn, hcrash, crash_finds_boundary (Or.inl rfl) hcrash "t4" "t5"⟩

/-- A property is created whose sort order is the text "Infinity", and flushed: the next process
finds null there, as no state of the run has it. -/
theorem crash_loses_infinity :
    let es : List Event := [
      .request (.admin true (.createProperty (.ofList [("community_name", .str "a"),
        ("sortOrder", .str "Infinity")]))) (moment "t2"),
      .flush "t3"]
    ∃ s, run (step .plain) (start "t0" (fun _ => "t1") .empty) es = some s ∧
      ¬(reload "t4" "t5" s.files.disk).Blank ∧
      ∀ es₁ es₂ t, es = es₁ ++ es₂ → run (step .plain) (start "t0" (fun _ => "t1") .empty) es₁ = some t →
        (reload "t4" "t5" s.files.disk).defined ≠ t.cache.defined := by
  intro es
  let orders (c : StoreData) : List JsVal := (c.defined.rows .properties).map fun r => r.get "sort_order"
  obtain ⟨s, hr, hread⟩ : ∃ s, run (step .plain) (start "t0" (fun _ => "t1") .empty) es = some s ∧
      orders (reload "t4" "t5" s.files.disk) = [.null] := ⟨_, rfl, by decide⟩
  refine ⟨s, hr, fun hblank => ?_, fun es₁ es₂ t he ht hsame => ?_⟩
  · have hrows : orders (reload "t4" "t5" s.files.disk) = [] := by
      change List.map _ (List.map _ _) = _
      rw [(hblank .properties).1]
      rfl
    rw [hread] at hrows
    cases hrows
  · have horders : orders t.cache = [.null] := by
      rw [← hread]
      exact congrArg (fun c : StoreData => (c.rows .properties).map fun r => r.get "sort_order") hsame.symm
    have hall : ∀ n < 3, ((run (step .plain) (start "t0" (fun _ => "t1") .empty) (es.take n)).map
        fun t => orders t.cache) ≠ some [.null] := by decide
    have hlen : es₁.length < 3 := by
      have hl := congrArg List.length he
      rw [List.length_append] at hl
      have : es.length = 2 := rfl
      omega
    refine hall es₁.length hlen ?_
    rw [he, List.take_left, ht]
    exact congrArg some horders

end Server

end JtfpMall
