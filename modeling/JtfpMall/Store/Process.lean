import JtfpMall.Lib.Run
import JtfpMall.Store.Writes

/-!
# The process around the store

One process owns the store. Its handlers run between awaits, so what other code
sees is a sequence of whole operations: a plain write, a flush, the flush timer,
and the two ends of every `withTransaction` call, whose body spreads over the
operations in between. An open call carries, besides its snapshot, what has
happened since the snapshot was taken.
-/

namespace JtfpMall

open JtfpMall.Js
open JtfpMall.Lib

/-- A `withTransaction` call whose body has not ended. -/
structure Call where
  id : ℕ
  /-- The data `JSON.stringify(_cache)` denotes. -/
  snapshot : StoreData
  /-- `_dirty` when the snapshot was taken. -/
  dirtyAtStart : Bool
  /-- The data file has been written since. -/
  savedSince : Bool
  /-- The rows the body has touched since. -/
  own : List (Table × JsVal)
  /-- The rows that other code has touched since. -/
  others : List (Table × JsVal)

structure World where
  store : Store
  calls : List Call

inductive Event where
  /-- A write, by the body of a call or by code outside every call. -/
  | write (caller : Option ℕ) (w : Write) (now : String)
  | flushNow (now : String)
  | timer (now : String)
  /-- `withTransaction` takes its snapshot. -/
  | begin (id : ℕ)
  /-- The body of the call returns. -/
  | commit (id : ℕ) (now : String)
  /-- The body of the call throws. -/
  | abort (id : ℕ)

namespace Call

def note (caller : Option ℕ) (keys : List (Table × JsVal)) (c : Call) : Call :=
  if caller = some c.id then { c with own := keys ++ c.own } else { c with others := keys ++ c.others }

def saved (c : Call) : Call := { c with savedSince := true }

end Call

namespace World

/-- The first `loadData` of the process. -/
def boot (loadedAt now : String) (f : Files) : World := ⟨Store.loadData loadedAt now f, []⟩

def call (id : ℕ) (w : World) : Option Call := w.calls.find? fun c => decide (c.id = id)

/-- A save ends the time in which a snapshot is what the file holds. -/
def noteSave (w : World) : List Call :=
  if w.store.dirty then w.calls.map Call.saved else w.calls

def step (w : World) : Event → Option World
  | .write caller wr now =>
    if caller.all fun id => (w.call id).isSome then
      some ⟨wr.apply now w.store, w.calls.map (Call.note caller (wr.touched now w.store.cache))⟩
    else none
  | .flushNow now => some ⟨w.store.flushNow now, w.noteSave⟩
  | .timer now => if w.store.flushTimer then some ⟨w.store.timerFired now, w.noteSave⟩ else none
  | .begin id =>
    if (w.call id).isSome then none
    else some { w with calls := ⟨id, w.store.cache.viaJson, w.store.dirty, false, [], []⟩ :: w.calls }
  | .commit id now =>
    match w.call id with
    | some _ => some ⟨w.store.flushNow now, w.noteSave.filter fun c => decide (c.id ≠ id)⟩
    | none => none
  | .abort id =>
    match w.call id with
    | some c => some
        ⟨{ w.store with cache := c.snapshot, dirty := false },
          (w.calls.filter fun d => decide (d.id ≠ id)).map (Call.note none (c.own ++ c.others))⟩
    | none => none

theorem mem_noteSave {w : World} {c : Call} (h : c ∈ w.noteSave) :
    (c ∈ w.calls ∧ w.store.dirty = false) ∨ ∃ d ∈ w.calls, w.store.dirty = true ∧ c = d.saved := by
  unfold noteSave at h
  split at h
  · rename_i hd
    obtain ⟨d, hm, rfl⟩ := List.mem_map.mp h
    exact Or.inr ⟨d, hm, hd, rfl⟩
  · rename_i hd
    exact Or.inl ⟨h, by simpa using hd⟩

/-- What a step can do to the store, and where the calls that stay open come from. -/
theorem step_cases {w w' : World} {e : Event} (h : w.step e = some w') :
    (∃ caller wr now, e = .write caller wr now ∧ w'.store = wr.apply now w.store ∧
      w'.calls = w.calls.map (Call.note caller (wr.touched now w.store.cache))) ∨
    (∃ now, (w'.store = w.store.flushNow now ∨
        (w.store.flushTimer = true ∧ w'.store = w.store.timerFired now)) ∧
      ∀ c ∈ w'.calls, c ∈ w.noteSave) ∨
    (∃ id, e = .begin id ∧ w'.store = w.store ∧
      w'.calls = ⟨id, w.store.cache.viaJson, w.store.dirty, false, [], []⟩ :: w.calls) ∨
    (∃ id c, e = .abort id ∧ w.call id = some c ∧
      w'.store = { w.store with cache := c.snapshot, dirty := false } ∧
      w'.calls = (w.calls.filter fun d => decide (d.id ≠ id)).map
        (Call.note none (c.own ++ c.others))) := by
  cases e with
  | write caller wr now =>
    simp only [step] at h
    split at h
    · cases h
      exact Or.inl ⟨caller, wr, now, rfl, rfl, rfl⟩
    · cases h
  | flushNow now =>
    cases h
    exact Or.inr (Or.inl ⟨now, Or.inl rfl, fun c hc => hc⟩)
  | timer now =>
    simp only [step] at h
    split at h
    · rename_i ht
      cases h
      exact Or.inr (Or.inl ⟨now, Or.inr ⟨ht, rfl⟩, fun c hc => hc⟩)
    · cases h
  | begin id =>
    simp only [step] at h
    split at h
    · cases h
    · cases h
      exact Or.inr (Or.inr (Or.inl ⟨id, rfl, rfl, rfl⟩))
  | commit id now =>
    simp only [step] at h
    split at h
    · cases h
      exact Or.inr (Or.inl ⟨now, Or.inl rfl, fun c hc => List.mem_of_mem_filter hc⟩)
    · cases h
  | abort id =>
    simp only [step] at h
    split at h
    · rename_i c hc
      cases h
      exact Or.inr (Or.inr (Or.inr ⟨id, c, rfl, hc, rfl, rfl⟩))
    · cases h

end World

end JtfpMall
