import JtfpMall.Store.Process

/-!
# What the data file holds

The agreement between the data file and the cache. A save establishes it, a write
leaves the store dirty with a flush pending, and a rollback keeps it only when
the snapshot is what the file holds: the call began with nothing unsaved, and the
file has not been written since. A call that throws after a plain write has
marked the store dirty forgets that write's flush.
-/

namespace JtfpMall

open JtfpMall.Js
open JtfpMall.Lib

def Document.IsPlain (doc : Document) : Prop :=
  ∀ t rows, doc.rows t = some rows → ∀ r ∈ rows, Dict.IsPlain r

/-- The data file parses to the data `d`, up to keys that hold `undefined`. -/
def Files.Holds (f : Files) (d : StoreData) : Prop :=
  ∃ doc, f.disk.dataFile = some (.whole doc) ∧ doc.Complete ∧
    ∀ dflt, (doc.toData dflt).defined = d.defined

theorem StoreData.defined_defined (d : StoreData) : d.defined.defined = d.defined := by
  unfold defined
  simp only [List.map_map]
  congr 1
  funext t
  exact List.map_congr_left fun r _ => r.defined_defined

theorem StoreData.isPlain_viaJson (d : StoreData) : d.viaJson.IsPlain := by
  intro t r hr
  obtain ⟨a, _, rfl⟩ := List.mem_map.mp hr
  exact a.isPlain_viaJson

theorem StoreData.defined_viaJson {d : StoreData} (h : d.IsPlain) : d.viaJson.defined = d.defined := by
  rw [viaJson_of_isPlain h, defined_defined]

theorem Files.Holds.viaJson {f : Files} {d : StoreData} (h : f.Holds d) (hd : d.IsPlain) :
    f.Holds d.viaJson := by
  obtain ⟨doc, hw, hc, hv⟩ := h
  exact ⟨doc, hw, hc, fun dflt => by rw [hv, StoreData.defined_viaJson hd]⟩

namespace Store

/-- What the store promises about its file: its data are plain, with `_dirty` off
the file holds the cache, and with `_dirty` on a flush is pending. -/
structure Settled (s : Store) : Prop where
  plain : s.cache.IsPlain
  clean : s.dirty = false → s.files.Holds s.cache
  pending : s.dirty = true → s.flushTimer = true

/-- The new file holds the cache, whose timestamp it carries. -/
theorem holds_saveDataSync {s : Store} (h : s.cache.IsPlain) (now : String) :
    (s.saveDataSync now).files.Holds (s.saveDataSync now).cache := by
  refine ⟨.ofData (s.cache.setUpdatedAt now), rfl, Document.complete_ofData _, fun dflt => ?_⟩
  rw [Document.toData_ofData]
  exact StoreData.defined_viaJson fun t r hr => h t r hr

theorem settled_saveDataSync {s : Store} (h : s.cache.IsPlain) (now : String) :
    (s.saveDataSync now).Settled where
  plain := h
  clean := fun _ => holds_saveDataSync h now
  pending := fun hd => Bool.noConfusion hd

theorem settled_flushNow {s : Store} (h : s.Settled) (now : String) : (s.flushNow now).Settled := by
  unfold flushNow
  by_cases hd : s.dirty = true
  · simp only [hd, if_true]
    exact settled_saveDataSync (s := { s with flushTimer := false }) h.plain now
  · rw [Bool.not_eq_true] at hd
    simp only [hd]
    exact ⟨h.plain, fun _ => h.clean hd, fun ht => absurd ht Bool.false_ne_true⟩

theorem dirty_flushNow (now : String) (s : Store) : (s.flushNow now).dirty = false := by
  unfold flushNow
  by_cases hd : s.dirty = true
  · simp only [hd, if_true]
    rfl
  · simp [hd]

/-- Flushing a store with nothing unsaved leaves its files alone. -/
theorem files_flushNow_of_clean {s : Store} (h : s.dirty = false) (now : String) :
    (s.flushNow now).files = s.files := by
  unfold flushNow
  simp [h]

theorem settled_apply {s : Store} (h : s.Settled) {w : Write} (hw : w.IsPlain) (now : String) :
    (w.apply now s).Settled := by
  have hp := isPlain_apply now h.plain hw
  rcases Write.apply_cases now s w with he | ⟨_, hd, ht⟩
  · rwa [he]
  · exact ⟨hp, fun hf => absurd hd (by simp [hf]), fun _ => ht⟩

theorem settled_loadData {f : Files} (loadedAt now : String)
    (h : f.disk.dataFile = none ∨
      ∃ doc, f.disk.dataFile = some (.whole doc) ∧ doc.Complete ∧ doc.IsPlain) :
    (loadData loadedAt now f).Settled := by
  unfold loadData
  rcases h with h | ⟨doc, h, hc, hp⟩
  · rw [h]
    exact settled_saveDataSync (fun t r hr => absurd hr List.not_mem_nil) now
  · rw [h]
    refine ⟨fun t r hr => ?_, fun _ => ⟨doc, h, hc, fun dflt => ?_⟩, fun hd => Bool.noConfusion hd⟩
    · obtain ⟨rows, ht⟩ := Option.isSome_iff_exists.mp (hc.2 t)
      refine hp t rows ht r ?_
      simpa [Document.toData, ht] using hr
    · obtain ⟨info, hi⟩ := Option.isSome_iff_exists.mp hc.1
      have hrows : (doc.toData dflt).rows = (doc.toData (.default loadedAt)).rows := by
        funext t
        obtain ⟨rows, ht⟩ := Option.isSome_iff_exists.mp (hc.2 t)
        simp [Document.toData, ht]
      simp only [StoreData.defined, hrows]
      simp [Document.toData, hi]

end Store

/-- The event puts no value into a row that JSON text cannot represent. -/
def Event.IsPlain : Event → Prop
  | .write _ wr _ => wr.IsPlain
  | _ => True

namespace World

/-- No call throws whose snapshot holds unsaved writes, or whose snapshot the file
has left behind. -/
def AbortSafe (w : World) : Event → Prop
  | .abort id => ∀ c, w.call id = some c → c.dirtyAtStart = false ∧ c.savedSince = false
  | _ => True

/-- The store keeps its promise, and the file still holds every snapshot that a
call may restore. -/
structure Durable (w : World) : Prop where
  store : w.store.Settled
  plain : ∀ c ∈ w.calls, c.snapshot.IsPlain
  held : ∀ c ∈ w.calls, c.dirtyAtStart = false → c.savedSince = false →
    w.store.files.Holds c.snapshot

theorem mem_of_call {w : World} {id : ℕ} {c : Call} (h : w.call id = some c) : c ∈ w.calls :=
  List.mem_of_find?_eq_some h

@[simp] theorem note_snapshot (caller : Option ℕ) (keys : List (Table × JsVal)) (c : Call) :
    (c.note caller keys).snapshot = c.snapshot := by
  unfold Call.note
  split <;> rfl

@[simp] theorem note_dirtyAtStart (caller : Option ℕ) (keys : List (Table × JsVal)) (c : Call) :
    (c.note caller keys).dirtyAtStart = c.dirtyAtStart := by
  unfold Call.note
  split <;> rfl

@[simp] theorem note_savedSince (caller : Option ℕ) (keys : List (Table × JsVal)) (c : Call) :
    (c.note caller keys).savedSince = c.savedSince := by
  unfold Call.note
  split <;> rfl

theorem durable_flush {w w' : World} (h : w.Durable) (now : String)
    (hs : w'.store = w.store.flushNow now) (hc : ∀ c ∈ w'.calls, c ∈ w.noteSave) : w'.Durable where
  store := hs ▸ Store.settled_flushNow h.store now
  plain := by
    intro c hm
    rcases mem_noteSave (hc c hm) with ⟨hc', _⟩ | ⟨d, hd, _, rfl⟩
    · exact h.plain c hc'
    · exact h.plain d hd
  held := by
    intro c hm h1 h2
    rcases mem_noteSave (hc c hm) with ⟨hm, hd⟩ | ⟨d, _, _, rfl⟩
    · rw [hs, Store.files_flushNow_of_clean hd]
      exact h.held c hm h1 h2
    · exact Bool.noConfusion h2

theorem durable_step {w w' : World} {e : Event} (h : w.Durable) (hp : e.IsPlain)
    (ha : w.AbortSafe e) (hs : w.step e = some w') : w'.Durable := by
  rcases step_cases hs with ⟨caller, wr, now, rfl, hst, hcs⟩ | ⟨now, hst, hcs⟩ |
    ⟨id, rfl, hst, hcs⟩ | ⟨id, c, rfl, hc, hst, hcs⟩
  · refine ⟨hst ▸ Store.settled_apply h.store hp now, ?_, ?_⟩
    · rw [hcs]
      intro c hm
      obtain ⟨d, hd, rfl⟩ := List.mem_map.mp hm
      rw [note_snapshot]
      exact h.plain d hd
    · rw [hcs, hst, Write.files_apply]
      intro c hm h1 h2
      obtain ⟨d, hd, rfl⟩ := List.mem_map.mp hm
      simp only [note_snapshot, note_dirtyAtStart, note_savedSince] at h1 h2 ⊢
      exact h.held d hd h1 h2
  · have hst : w'.store = w.store.flushNow now := hst.elim id fun ht => ht.2
    exact durable_flush h now hst hcs
  · refine ⟨hst ▸ h.store, ?_, ?_⟩
    · rw [hcs]
      intro c hm
      rcases List.mem_cons.mp hm with rfl | hm
      · exact StoreData.isPlain_viaJson _
      · exact h.plain c hm
    · rw [hcs, hst]
      intro c hm h1 h2
      rcases List.mem_cons.mp hm with rfl | hm
      · exact (h.store.clean h1).viaJson h.store.plain
      · exact h.held c hm h1 h2
  · obtain ⟨h1, h2⟩ := ha c hc
    have hm := mem_of_call hc
    have hcalls : ∀ d' ∈ w'.calls, ∃ d ∈ w.calls, d' = d.note none (c.own ++ c.others) := by
      intro d' hd'
      rw [hcs] at hd'
      obtain ⟨d, hd, rfl⟩ := List.mem_map.mp hd'
      exact ⟨d, List.mem_of_mem_filter hd, rfl⟩
    refine ⟨?_, ?_, ?_⟩
    · rw [hst]
      exact ⟨h.plain c hm, fun _ => h.held c hm h1 h2, fun hd => Bool.noConfusion hd⟩
    · intro d' hd'
      obtain ⟨d, hd, rfl⟩ := hcalls d' hd'
      rw [note_snapshot]
      exact h.plain d hd
    · intro d' hd' h1 h2
      obtain ⟨d, hd, rfl⟩ := hcalls d' hd'
      simp only [note_snapshot, note_dirtyAtStart, note_savedSince] at h1 h2 ⊢
      rw [hst]
      exact h.held d hd h1 h2

theorem durable_of_settled {s : Store} (h : s.Settled) : Durable ⟨s, []⟩ :=
  ⟨h, fun _ hc => absurd hc List.not_mem_nil, fun _ hc => absurd hc List.not_mem_nil⟩

theorem durable_run {w w' : World} {es : List Event} (h : w.Durable)
    (hok : Along step (fun w e => e.IsPlain ∧ w.AbortSafe e) w es)
    (hr : run step w es = some w') : w'.Durable :=
  run_invariant step _ (fun _ _ _ hi ho hs => durable_step hi ho.1 ho.2 hs) h hok hr

/-- From a missing or complete data file, through writes, flushes, timers and
calls that return or throw, as long as no call throws whose snapshot is not what
the file holds: with `_dirty` off the data file parses to the cache, and with
`_dirty` on a flush is pending. -/
theorem clean_file_agrees (loadedAt now : String) (f : Files) (es : List Event) (w : World)
    (hf : f.disk.dataFile = none ∨
      ∃ doc, f.disk.dataFile = some (.whole doc) ∧ doc.Complete ∧ doc.IsPlain)
    (hok : Along step (fun w e => e.IsPlain ∧ w.AbortSafe e) (boot loadedAt now f) es)
    (hr : run step (boot loadedAt now f) es = some w) :
    (w.store.dirty = false → w.store.files.Holds w.store.cache) ∧
      (w.store.dirty = true → w.store.flushTimer = true) := by
  have h0 : (boot loadedAt now f).Durable :=
    durable_of_settled (Store.settled_loadData loadedAt now hf)
  have h := durable_run h0 hok hr
  exact ⟨h.store.clean, h.store.pending⟩

/-- A user saved by the timer, then a call that throws. -/
def savedThenThrown : List Event :=
  [.write none (.insert .users .empty) "2", .timer "3", .begin 0,
    .write (some 0) (.insert .users .empty) "4", .abort 0]

theorem clean_file_agrees_after_timer :
    ∃ w, run step (boot "0" "1" .empty) savedThenThrown = some w ∧
      w.store.dirty = false ∧ w.store.files.Holds w.store.cache := by
  refine ⟨_, rfl, rfl, ?_⟩
  refine (clean_file_agrees "0" "1" .empty savedThenThrown _ (Or.inl rfl) ?_ rfl).1 rfl
  have hp : Dict.IsPlain (.empty : Row) := fun k => Or.inl rfl
  refine ⟨⟨hp, trivial⟩, fun _ h1 => ?_⟩
  cases h1
  refine ⟨⟨trivial, trivial⟩, fun _ h2 => ?_⟩
  cases h2
  refine ⟨⟨trivial, trivial⟩, fun _ h3 => ?_⟩
  cases h3
  refine ⟨⟨hp, trivial⟩, fun _ h4 => ?_⟩
  cases h4
  refine ⟨⟨trivial, fun c hc => ?_⟩, fun _ _ => trivial⟩
  cases hc
  exact ⟨rfl, rfl⟩

/-- A plain write, then a call that throws before the timer fires: `_dirty` is off,
the new user is in memory and not in the file. -/
theorem rollback_forgets_flush :
    ∃ es w, Along step (fun _ e => e.IsPlain) (boot "0" "1" .empty) es ∧
      run step (boot "0" "1" .empty) es = some w ∧
      w.store.dirty = false ∧ ¬w.store.files.Holds w.store.cache := by
  have hp : Dict.IsPlain (.empty : Row) := fun k => Or.inl rfl
  refine ⟨[.write none (.insert .users .empty) "2", .begin 0, .abort 0], _,
    ⟨hp, fun _ _ => ⟨trivial, fun _ _ => ⟨trivial, fun _ _ => trivial⟩⟩⟩, rfl, rfl, ?_⟩
  rintro ⟨doc, hd, _, hv⟩
  cases hd
  have hl := congrArg (fun d => (d.rows .users).length) (hv (.default "0"))
  exact absurd hl (by decide)

end World

end JtfpMall
