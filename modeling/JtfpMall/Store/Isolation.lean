import JtfpMall.Store.Durability

/-!
# What a rollback takes with it

The body of a call runs on the live cache, not on a copy, and a rollback puts the
whole snapshot back. It undoes exactly the body's own writes when nothing else
has written since the snapshot; another request's write in that time is lost.
-/

namespace JtfpMall

open JtfpMall.Js
open JtfpMall.Lib

/-- The rows under an id, up to keys that hold `undefined`. -/
def definedAt (d : StoreData) (t : Table) (id : JsVal) : List Row :=
  (rowsAt d t id).map Dict.defined

theorem definedAt_viaJson {d : StoreData} (h : d.IsPlain) (t : Table) (id : JsVal) :
    definedAt d.viaJson t id = definedAt d t id := by
  have hd : d.viaJson.rows t = (d.rows t).map Dict.defined := by
    rw [StoreData.viaJson_of_isPlain h]
    rfl
  unfold definedAt rowsAt
  rw [hd, List.filter_map, List.map_map]
  have hg : ((fun r : Row => decide (r.get "id" = id)) ∘ Dict.defined) =
      fun r : Row => decide (r.get "id" = id) := by
    funext r
    simp only [Function.comp, Dict.get_defined]
  rw [hg]
  exact List.map_congr_left fun r _ => r.defined_defined

namespace World

/-- No call throws unless it began with nothing unsaved and, since its snapshot,
the file has not been written and no other code has touched a row. -/
def IsolationSafe (w : World) : Event → Prop
  | .abort id => ∀ c, w.call id = some c →
      c.dirtyAtStart = false ∧ c.savedSince = false ∧ c.others = []
  | _ => True

theorem IsolationSafe.abortSafe {w : World} {e : Event} (h : w.IsolationSafe e) : w.AbortSafe e := by
  cases e with
  | abort id => exact fun c hc => ⟨(h c hc).1, (h c hc).2.1⟩
  | _ => trivial

/-- A snapshot and the cache differ only in rows touched since. -/
def Tracked (w : World) : Prop :=
  ∀ c ∈ w.calls, ∀ t id, (t, id) ∉ c.own → (t, id) ∉ c.others →
    definedAt c.snapshot t id = definedAt w.store.cache t id

/-- The rollback of `c` from `w` to `w'` undoes the call's own writes only: rows the
body did not touch are as they were before the rollback, rows it touched are as
in the snapshot, and after the next flush the file holds all of it. -/
structure Isolated (w w' : World) (c : Call) : Prop where
  kept : ∀ t id, (t, id) ∉ c.own → definedAt w'.store.cache t id = definedAt w.store.cache t id
  undone : ∀ t id, (t, id) ∈ c.own → definedAt w'.store.cache t id = definedAt c.snapshot t id
  flushed : ∀ now, (w'.store.flushNow now).files.Holds (w'.store.flushNow now).cache

theorem mem_note {caller : Option ℕ} {keys : List (Table × JsVal)} {c : Call} {k : Table × JsVal}
    (h1 : k ∉ (c.note caller keys).own) (h2 : k ∉ (c.note caller keys).others) :
    k ∉ keys ∧ k ∉ c.own ∧ k ∉ c.others := by
  unfold Call.note at h1 h2
  split at h1
  · rename_i he
    simp only [he, if_true] at h2
    simp only [List.mem_append, not_or] at h1
    exact ⟨h1.1, h1.2, h2⟩
  · rename_i he
    simp only [he, if_false] at h2
    simp only [List.mem_append, not_or] at h2
    exact ⟨h2.1, h1, h2.2⟩

theorem tracked_step {w w' : World} {e : Event} (hd : w.Durable) (h : w.Tracked)
    (hs : w.step e = some w') : w'.Tracked := by
  rcases step_cases hs with ⟨caller, wr, now, rfl, hst, hcs⟩ | ⟨now, hst, hcs⟩ |
    ⟨id, rfl, hst, hcs⟩ | ⟨id, c, rfl, hc, hst, hcs⟩
  · intro c' hm t id h1 h2
    rw [hcs] at hm
    obtain ⟨c, hc, rfl⟩ := List.mem_map.mp hm
    obtain ⟨hk, ho, ht⟩ := mem_note h1 h2
    rw [note_snapshot, h c hc t id ho ht, hst]
    unfold definedAt
    rw [Write.rowsAt_apply now w.store wr hk]
  · have hst : w'.store = w.store.flushNow now := hst.elim id fun ht => ht.2
    intro c hm t id h1 h2
    have hrows : definedAt w'.store.cache t id = definedAt w.store.cache t id := by
      unfold definedAt rowsAt
      rw [hst, Store.rows_flushNow]
    rw [hrows]
    rcases mem_noteSave (hcs c hm) with ⟨hc, _⟩ | ⟨d, hc, _, rfl⟩
    · exact h c hc t id h1 h2
    · exact h d hc t id h1 h2
  · intro c hm t i h1 h2
    rw [hst]
    rw [hcs] at hm
    rcases List.mem_cons.mp hm with rfl | hm
    · exact definedAt_viaJson hd.store.plain t i
    · exact h c hm t i h1 h2
  · intro d' hm t i h1 h2
    rw [hcs] at hm
    obtain ⟨d, hd', rfl⟩ := List.mem_map.mp hm
    obtain ⟨hk, ho, ht⟩ := mem_note h1 h2
    rw [List.mem_append, not_or] at hk
    rw [note_snapshot, h d (List.mem_of_mem_filter hd') t i ho ht, hst]
    exact (h c (mem_of_call hc) t i hk.1 hk.2).symm

theorem tracked_run {w w' : World} {es : List Event} (hd : w.Durable) (h : w.Tracked)
    (hok : Along step (fun w e => e.IsPlain ∧ w.AbortSafe e) w es)
    (hr : run step w es = some w') : w'.Tracked :=
  (run_invariant step (fun w => w.Durable ∧ w.Tracked)
    (fun _ _ _ hi ho hs => ⟨durable_step hi.1 ho.1 ho.2 hs, tracked_step hi.1 hi.2 hs⟩)
    ⟨hd, h⟩ hok hr).2

/-- From any settled store, through any interleaving of plain writes, flushes and
calls: where every call that throws began with nothing unsaved and ran with no
save and no foreign write since its snapshot, each rollback undoes that call's
own writes and nothing else, in memory and on the disk. -/
theorem rollback_isolated (s : Store) (hs : s.Settled) (es : List Event) (w w' : World) (id : ℕ)
    (c : Call)
    (hok : Along step (fun w e => e.IsPlain ∧ w.IsolationSafe e) ⟨s, []⟩ (es ++ [.abort id]))
    (hr : run step ⟨s, []⟩ es = some w) (hc : w.call id = some c)
    (ha : w.step (.abort id) = some w') : Isolated w w' c := by
  obtain ⟨hok1, hok2⟩ := along_append step hr hok
  have hok1 : Along step (fun w e => e.IsPlain ∧ w.AbortSafe e) ⟨s, []⟩ es :=
    hok1.mono step fun _ _ ho => ⟨ho.1, ho.2.abortSafe⟩
  have h0 : Durable ⟨s, []⟩ := durable_of_settled hs
  have ht : w.Tracked := tracked_run h0 (fun _ hm => absurd hm List.not_mem_nil) hok1 hr
  have hd : w.Durable := durable_run h0 hok1 hr
  obtain ⟨h1, h2, h3⟩ := hok2.1.2 c hc
  have hd' : w'.Durable := durable_step hd hok2.1.1 hok2.1.2.abortSafe ha
  have hcache : w'.store.cache = c.snapshot := by
    simp only [step, hc, Option.some.injEq] at ha
    rw [← ha]
  refine ⟨fun t i hi => ?_, fun t i _ => by rw [hcache], fun now => ?_⟩
  · rw [hcache]
    exact ht c (mem_of_call hc) t i hi (by rw [h3]; exact List.not_mem_nil)
  · exact (Store.settled_flushNow hd'.store now).clean (Store.dirty_flushNow now _)

/-- One call writes and throws, with nothing else around it. -/
theorem rollback_isolated_alone :
    ∃ w w' c, run step ⟨Store.loadData "0" "1" .empty, []⟩
        [.begin 0, .write (some 0) (.insert .users .empty) "2"] = some w ∧
      w.call 0 = some c ∧ w.step (.abort 0) = some w' ∧ Isolated w w' c := by
  refine ⟨_, _, _, rfl, rfl, rfl, ?_⟩
  refine rollback_isolated _ (Store.settled_loadData "0" "1" (Or.inl rfl))
    [.begin 0, .write (some 0) (.insert .users .empty) "2"] _ _ 0 _ ?_ rfl rfl rfl
  have hp : Dict.IsPlain (.empty : Row) := fun k => Or.inl rfl
  refine ⟨⟨trivial, trivial⟩, fun _ h1 => ?_⟩
  cases h1
  refine ⟨⟨hp, trivial⟩, fun _ h2 => ?_⟩
  cases h2
  refine ⟨⟨trivial, fun c hc => ?_⟩, fun _ _ => trivial⟩
  cases hc
  exact ⟨rfl, rfl, rfl⟩

/-- A call takes its snapshot, another request adds a user, the call throws: the
user is gone. -/
theorem rollback_loses_foreign_write :
    ∃ es w w' c, Along step (fun _ e => e.IsPlain) ⟨Store.loadData "0" "1" .empty, []⟩ es ∧
      run step ⟨Store.loadData "0" "1" .empty, []⟩ es = some w ∧ w.call 0 = some c ∧
      w.step (.abort 0) = some w' ∧ ¬Isolated w w' c := by
  have hp : Dict.IsPlain (.empty : Row) := fun k => Or.inl rfl
  refine ⟨[.begin 0, .write none (.insert .users .empty) "2"], _, _, _,
    ⟨trivial, fun _ _ => ⟨hp, fun _ _ => trivial⟩⟩, rfl, rfl, rfl, fun h => ?_⟩
  have hl := congrArg List.length (h.kept .users (.num (.ofNat 1)) List.not_mem_nil)
  exact absurd hl (by decide)

end World

end JtfpMall
