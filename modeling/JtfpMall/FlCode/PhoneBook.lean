import JtfpMall.FlCode.Routes
import JtfpMall.Lib.Run

/-!
# FLcode is a phone book

The codes stand for a map from phones to a code with its note. Every request that is not
refused changes the map as it says, every other leaves the table, and a claim reads the map.
-/

namespace JtfpMall.FlCode

open JtfpMall.Js
open JtfpMall.Lib

/-- A code with its note. -/
abbrev Entry := String × Option String

def CodeRow.entry (row : CodeRow) : Entry := (row.code, row.note)

def Item.assigned (item : Item) : Change String Entry :=
  .assigned item.phone (item.code, noteOrNull item.note)

namespace Db

/-- The map the table stands for. -/
def book (db : Db) (phone : String) : Option Entry := (db.getCodeByPhone phone).map CodeRow.entry

/-- The phones of the rows with such an id. -/
def phonesOf (p : ℕ → Bool) (db : Db) : List String :=
  (db.codes.rows.filter fun r => p r.1).map fun r => r.2.phone

/-- The items of a batch whose statement does not fail. -/
def inserted : List Item → String → Db → List Item
  | [], _, _ => []
  | item :: items, now, db =>
    match db.insertCode item now with
    | some db => item :: inserted items now db
    | none => inserted items now db

end Db

/-- What a request does to the phone book, unless it is refused. -/
def AdminRequest.changes (schemas : Schemas) (now : String) (db : Db) :
    AdminRequest → List (Change String Entry)
  | .addCode body =>
    match schemas.code body with
    | .ok item => [item.assigned]
    | .error _ => []
  | .updateCode id body =>
    match schemas.update id body with
    | .ok b => (db.phonesOf fun i => decide (i = b.id)).map .removed ++ [b.item.assigned]
    | .error _ => []
  | .deleteCode id =>
    (db.phonesOf fun i => (JsNum.ofNat i).strictEq (parseIntAny id)).map .removed
  | .clearCodes => (db.phonesOf fun _ => true).map .removed
  | .upload (.sheet rows) => (db.inserted (itemsOf rows) now).map Item.assigned
  | .upload _ => []

/-- What an event does to the phone book. -/
def Event.changes (schemas : Schemas) (db : Db) : Event → List (Change String Entry)
  | .request (.admin session r) now =>
    if 400 ≤ ((Request.admin session r).handle schemas now db).1.status then []
    else r.changes schemas now db
  | _ => []

/-- A step, with the history of the phone book beside the database. -/
def tracedStep (schemas : Schemas) (s : Db × List (Change String Entry)) (e : Event) :
    Option (Db × List (Change String Entry)) :=
  some (step schemas s.1 e, s.2 ++ e.changes schemas s.1)

/-- The rows are codes of phones, and the map they stand for is what the history left. -/
structure Kept (db : Db) (history : List (Change String Entry)) : Prop where
  wellFormed : db.codes.WellFormed CodeRow.phone
  valid : ∀ r ∈ db.codes.rows, isPhone r.2.phone = true ∧ isCode r.2.code = true
  book : db.book = replay (fun _ => none) history

section
variable {db db' : Db} {history : List (Change String Entry)} {item : Item} {now : String}

theorem kept_start : Kept start [] :=
  ⟨UniqueTable.wellFormed_empty, fun _ hr => (nomatch hr), rfl⟩

theorem Kept.of_codes (h : Kept db history) (hc : db'.codes = db.codes) : Kept db' history := by
  refine ⟨hc ▸ h.wellFormed, hc ▸ h.valid, ?_⟩
  rw [← h.book]
  unfold Db.book Db.getCodeByPhone
  rw [hc]

theorem insertCode_codes (hi : db.insertCode item now = some db') :
    db.codes.insert CodeRow.phone ⟨item.phone, item.code, noteOrNull item.note, now, now⟩ =
      some db'.codes := by
  unfold Db.insertCode at hi
  rw [Option.map_eq_some_iff] at hi
  obtain ⟨codes, hcodes, rfl⟩ := hi
  exact hcodes

theorem Kept.insertCode (h : Kept db history) (hp : isPhone item.phone = true)
    (hc : isCode item.code = true) (hi : db.insertCode item now = some db') :
    Kept db' (history ++ [item.assigned]) := by
  have hcodes := insertCode_codes hi
  refine ⟨UniqueTable.wellFormed_insert h.wellFormed hcodes, fun r hr => ?_, ?_⟩
  · obtain ⟨_, he⟩ := UniqueTable.insert_cases hcodes
    rw [he] at hr
    rcases List.mem_append.mp hr with hr | hr
    · exact h.valid r hr
    · rw [List.mem_singleton.mp hr]
      exact ⟨hp, hc⟩
  · have hfind := UniqueTable.find_insert h.wellFormed hcodes
    have hbook : db'.book = item.assigned.apply db.book := by
      funext phone
      exact (congrArg (Option.map CodeRow.entry) (congrFun hfind phone)).trans
        (congrFun (Change.apply_map CodeRow.entry _ _) phone)
    rw [hbook, h.book, replay_concat]

/-- What a batch adds is what it inserted. -/
theorem Kept.insertItems {items : List Item}
    (hv : ∀ item ∈ items, isPhone item.phone = true ∧ isCode item.code = true)
    (h : Kept db history) (now : String) (result : BatchResult) :
    Kept (db.insertItems items now result).2
      (history ++ (db.inserted items now).map Item.assigned) ∧
    (db.insertItems items now result).1.success =
      result.success + (db.inserted items now).length := by
  induction items generalizing db history result with
  | nil => simpa [Db.insertItems, Db.inserted] using h
  | cons item items ih =>
    have hv' := fun x hx => hv x (List.mem_cons_of_mem item hx)
    obtain ⟨hp, hc⟩ := hv item List.mem_cons_self
    unfold Db.insertItems Db.inserted
    cases hi : db.insertCode item now with
    | none =>
      dsimp only
      exact ih hv' h _
    | some db1 =>
      dsimp only
      obtain ⟨hkept, hsuccess⟩ := ih hv' (h.insertCode hp hc hi)
        { result with success := result.success + 1 }
      refine ⟨?_, ?_⟩
      · rw [List.map_cons, ← List.singleton_append, ← List.append_assoc]
        exact hkept
      · rw [hsuccess, List.length_cons]
        dsimp only
        omega

theorem insertItems_of_nil {items : List Item} (h : db.inserted items now = [])
    (result : BatchResult) : (db.insertItems items now result).2 = db := by
  induction items generalizing result with
  | nil => rfl
  | cons item items ih =>
    unfold Db.inserted at h
    unfold Db.insertItems
    cases hi : db.insertCode item now with
    | none =>
      rw [hi] at h
      exact ih h _
    | some db1 =>
      rw [hi] at h
      cases h

/-- The phone of one row. -/
theorem Kept.phonesOf (h : Kept db history) {id : ℕ} {row : CodeRow}
    (hmem : (id, row) ∈ db.codes.rows) {p : ℕ → Bool} (hp : ∀ i, p i = true ↔ i = id) :
    db.phonesOf p = [row.phone] := by
  have hfilter : (db.codes.rows.filter fun r => p r.1) =
      db.codes.rows.filter fun r => decide (r = (id, row)) := by
    refine List.filter_congr fun r hr => ?_
    rw [Bool.eq_iff_iff, hp, decide_eq_true_iff]
    exact ⟨fun hid => h.wellFormed.eq_of_id hr hmem hid, fun he => congrArg Prod.fst he⟩
  have hnodup : db.codes.rows.Nodup := List.Nodup.of_map _ h.wellFormed.ids
  unfold Db.phonesOf
  rw [hfilter, List.filter_eq, List.count_eq_one_of_mem hnodup hmem]
  rfl

theorem Kept.updateCode (h : Kept db history) (id : ℕ) (hp : isPhone item.phone = true)
    (hc : isCode item.code = true) (now : String) :
    ((db.updateCode id item now).1.success = true → Kept (db.updateCode id item now).2
      (history ++ ((db.phonesOf fun i => decide (i = id)).map .removed ++ [item.assigned]))) ∧
    ((db.updateCode id item now).1.success = false → (db.updateCode id item now).2 = db) := by
  unfold Db.updateCode
  cases hu : db.codes.update CodeRow.phone id (CodeRow.updated item now) with
  | none => exact ⟨fun hs => (nomatch hs), fun _ => rfl⟩
  | some u =>
    obtain ⟨n, codes⟩ := u
    obtain ⟨_, rfl, rfl⟩ | ⟨old, hold, rfl, _, hcodes⟩ := UniqueTable.update_cases hu
    · exact ⟨fun hs => (nomatch hs), fun _ => rfl⟩
    · refine ⟨fun _ => ⟨UniqueTable.wellFormed_update h.wellFormed hu, fun r hr => ?_, ?_⟩,
        fun hs => (nomatch hs)⟩
      · have hr' : r ∈ codes.rows := hr
        rw [hcodes] at hr'
        obtain ⟨r0, hr0, rfl⟩ := List.mem_map.mp hr'
        split
        · exact ⟨hp, hc⟩
        · exact h.valid r0 hr0
      · have hphones := h.phonesOf (UniqueTable.mem_of_findId hold) (p := fun i => decide (i = id))
          fun i => decide_eq_true_iff
        have hfind := UniqueTable.find_update h.wellFormed hold hu
        rw [hphones, List.map_singleton, ← List.append_assoc, replay_concat, replay_concat, ← h.book]
        funext phone
        refine (congrArg (Option.map CodeRow.entry) (congrFun hfind phone)).trans ?_
        refine (congrFun (Change.apply_map CodeRow.entry _ _) phone).trans ?_
        rw [Change.apply_map]
        rfl

theorem Kept.deleteCode (h : Kept db history) (n : JsNum) :
    ((db.deleteCode n).1.success = true → Kept (db.deleteCode n).2
      (history ++ (db.phonesOf fun i => (JsNum.ofNat i).strictEq n).map .removed)) ∧
    ((db.deleteCode n).1.success = false → (db.deleteCode n).2 = db) := by
  unfold Db.deleteCode
  dsimp only
  split
  · rename_i hzero
    refine ⟨fun hs => (nomatch hs), fun _ => ?_⟩
    dsimp only
    rw [UniqueTable.delete_of_zero hzero]
  · rename_i hone
    refine ⟨fun _ => ⟨h.wellFormed.delete fun i => (JsNum.ofNat i).strictEq n, fun r hr => ?_, ?_⟩, fun hs => (nomatch hs)⟩
    · exact h.valid r (List.mem_filter.mp hr).1
    · obtain ⟨id, row, hmem, hid⟩ := UniqueTable.exists_of_delete hone
      have hp : ∀ i, (JsNum.ofNat i).strictEq n = true ↔ i = id := by
        have hn := JsNum.eq_of_strictEq hid
        intro i
        rw [← hn, JsNum.strictEq_ofNat, decide_eq_true_iff]
      have hfind := UniqueTable.find_delete h.wellFormed hmem hp
      rw [h.phonesOf hmem hp, List.map_singleton, replay_concat, ← h.book]
      funext phone
      exact (congrArg (Option.map CodeRow.entry) (congrFun hfind phone)).trans
        (congrFun (Change.apply_map CodeRow.entry _ _) phone)

theorem Kept.clearAllCodes (h : Kept db history) : Kept db.clearAllCodes.2
    (history ++ (db.phonesOf fun _ => true).map .removed) := by
  refine ⟨.clear _, fun _ hr => (nomatch hr), ?_⟩
  have hphones : (db.phonesOf fun _ => true) = db.codes.rows.map fun r => r.2.phone := by
    unfold Db.phonesOf
    rw [List.filter_true]
  have hfind : (fun phone => db.codes.clear.find CodeRow.phone phone) = _ :=
    UniqueTable.find_clear db.codes
  rw [hphones, replay_append, ← h.book]
  funext phone
  refine (congrArg (Option.map CodeRow.entry) (congrFun hfind phone)).trans ?_
  refine (congrFun (replay_map CodeRow.entry _ _) phone).trans ?_
  rw [List.map_map, List.map_map]
  rfl

end

/-- The answer reports that nothing was done. -/
def FailureReported (res : Response) : Prop :=
  400 ≤ res.status ∨ res.body.lookup "success" = some (.number 0)

theorem status_answered {p : Result × Db} :
    (answered p).1.status < 400 ↔ p.1.success = true := by
  unfold answered answerOf
  dsimp only
  split
  · rename_i hs
    exact ⟨fun _ => hs, fun _ => (by decide : 200 < 400)⟩
  · rename_i hs
    exact ⟨fun h => absurd h (by decide : ¬400 < 400), fun h => absurd h hs⟩

theorem not_failureReported_answered {p : Result × Db} (hs : p.1.success = true) :
    ¬FailureReported (answered p).1 := by
  have hanswer : (answered p).1 = .ok ([("ok", .val (.bool true)), ("message", .text p.1.message)] ++
      p.1.id.elim [] fun id => [("id", .number id)]) := by
    unfold answered answerOf
    dsimp only
    rw [if_pos hs]
  rw [hanswer]
  rintro (h | h)
  · exact absurd h (by decide : ¬400 ≤ 200)
  · cases hid : p.1.id with
    | none =>
      rw [hid] at h
      cases h
    | some id =>
      rw [hid] at h
      cases h

/-- What a request does to the database and to its history. -/
structure Does (db : Db) (history changes : List (Change String Entry)) (p : Response × Db) :
    Prop where
  kept : p.1.status < 400 → Kept p.2 (history ++ changes)
  unchanged : FailureReported p.1 → p.2.codes = db.codes

section
variable {db : Db} {history : List (Change String Entry)} {changes : List (Change String Entry)}

theorem does_refused {res : Response} (h : 400 ≤ res.status) : Does db history changes (res, db) :=
  ⟨fun hs => absurd hs (Nat.not_lt.mpr h), fun _ => rfl⟩

theorem does_answered {p : Result × Db} (hok : p.1.success = true → Kept p.2 (history ++ changes))
    (hno : p.1.success = false → p.2 = db) : Does db history changes (answered p) := by
  refine ⟨fun hs => hok (status_answered.mp hs), fun hf => ?_⟩
  cases hs : p.1.success with
  | true => exact absurd hf (not_failureReported_answered hs)
  | false => exact congrArg Db.codes (hno hs)

/-- The items of a sheet have passed the patterns of the handler. -/
theorem valid_of_itemsOf {rows : List SheetRow} {item : Item} (h : item ∈ itemsOf rows) :
    isPhone item.phone = true ∧ isCode item.code = true := by
  unfold itemsOf parsed at h
  rw [List.mem_filterMap] at h
  obtain ⟨x, hx, hitem⟩ := h
  obtain ⟨row, _, rfl⟩ := List.mem_map.mp hx
  unfold parseRow at hitem
  dsimp only at hitem
  split at hitem
  · rename_i hrow
    split at hrow
    · cases hrow
    · rename_i hphone
      split at hrow
      · cases hrow
      · rename_i hcode
        cases hrow
        cases hitem
        exact ⟨by simpa using hphone, by simpa using hcode⟩
  · cases hitem

theorem does_upload (h : Kept db history) (file : Upload) (now : String) (schemas : Schemas) :
    Does db history ((AdminRequest.upload file).changes schemas now db) (upload file now db) := by
  cases file with
  | missing => exact does_refused (by decide : 400 ≤ 400)
  | rejected message => exact does_refused (by decide : 400 ≤ 500)
  | unreadable message => exact does_refused (by decide : 400 ≤ 500)
  | noSheet => exact does_refused (by decide : 400 ≤ 400)
  | sheet rows =>
    unfold upload
    dsimp only
    split
    · exact does_refused (by decide : 400 ≤ 400)
    · obtain ⟨hkept, hsuccess⟩ := h.insertItems (fun item hi => valid_of_itemsOf hi) now ⟨0, 0, []⟩
      refine ⟨fun _ => hkept, ?_⟩
      rintro (hf | hf)
      · exact absurd hf (by decide : ¬400 ≤ 200)
      · have hcount : Reply.number (db.addCodesBatch (itemsOf rows) now).1.success = .number 0 :=
          Option.some.inj hf
        have hzero : (db.addCodesBatch (itemsOf rows) now).1.success = 0 := by
          simpa [Reply.number] using hcount
        have hnil : db.inserted (itemsOf rows) now = [] := by
          refine List.eq_nil_of_length_eq_zero ?_
          unfold Db.addCodesBatch at hzero
          rw [hsuccess] at hzero
          dsimp only at hzero
          omega
        exact congrArg Db.codes (insertItems_of_nil hnil ⟨0, 0, []⟩)

theorem does_handle {schemas : Schemas} (hs : schemas.Checks) (h : Kept db history)
    (r : AdminRequest) (now : String) :
    Does db history (r.changes schemas now db) (r.handle schemas now db) := by
  cases r with
  | addCode body =>
    unfold AdminRequest.handle AdminRequest.changes
    dsimp only
    unfold addCode
    cases hb : schemas.code body with
    | error message => exact does_refused (by decide : 400 ≤ 400)
    | ok item =>
      have hok := (hs.code body item).mp hb
      refine does_answered ?_ ?_
      · unfold Db.addCode
        cases hi : db.insertCode item now with
        | none => exact fun hn => (nomatch hn)
        | some db' => exact fun _ => h.insertCode hok.isPhone hok.isCode hi
      · unfold Db.addCode
        cases db.insertCode item now with
        | none => exact fun _ => rfl
        | some db' => exact fun hn => (nomatch hn)
  | updateCode id body =>
    unfold AdminRequest.handle AdminRequest.changes
    dsimp only
    unfold updateCode
    cases hb : schemas.update id body with
    | error message => exact does_refused (by decide : 400 ≤ 400)
    | ok b =>
      obtain ⟨_, _, hok⟩ := (hs.update id body b).mp hb
      obtain ⟨hkept, hno⟩ := h.updateCode b.id hok.isPhone hok.isCode now
      exact does_answered hkept hno
  | deleteCode id =>
    unfold AdminRequest.handle deleteCode
    dsimp only
    split
    · exact does_refused (by decide : 400 ≤ 400)
    · obtain ⟨hkept, hno⟩ := h.deleteCode (parseIntAny id)
      exact does_answered hkept hno
  | clearCodes => exact does_answered (fun _ => h.clearAllCodes) fun hn => (nomatch hn)
  | upload file => exact does_upload h file now schemas

end

theorem kept_tracedStep {schemas : Schemas} (hs : schemas.Checks)
    {s s' : Db × List (Change String Entry)} {e : Event} (h : Kept s.1 s.2)
    (hstep : tracedStep schemas s e = some s') : Kept s'.1 s'.2 := by
  cases hstep
  cases e with
  | request r now =>
    cases r with
    | claim body =>
      change Kept s.1 (s.2 ++ [])
      rwa [List.append_nil]
    | admin session r =>
      cases session with
      | missing =>
        change Kept s.1 (s.2 ++ [])
        rwa [List.append_nil]
      | expired =>
        change Kept s.1 (s.2 ++ [])
        rwa [List.append_nil]
      | valid =>
        have hdoes := does_handle hs h r now
        change Kept (r.handle schemas now s.1).2 (s.2 ++
          if 400 ≤ (r.handle schemas now s.1).1.status then [] else r.changes schemas now s.1)
        split
        · rename_i hf
          rw [List.append_nil]
          exact h.of_codes (hdoes.unchanged (Or.inl hf))
        · rename_i hok
          exact hdoes.kept (Nat.lt_of_not_le hok)
  | configure configs =>
    change Kept (s.1.setConfigs configs) (s.2 ++ [])
    rw [List.append_nil]
    exact h.of_codes rfl
  | restart =>
    change Kept (initDB s.1) (s.2 ++ [])
    rw [List.append_nil]
    exact h.of_codes rfl

/-- A claim for the phone answers what the phone was last assigned. -/
structure ClaimAnswers (history : List (Change String Entry)) (phone : String) (res : Response) :
    Prop where
  found : ∀ code note, LastAssigned history phone (code, note) → res.status = 200 ∧
    res.body.lookup "found" = some (.val (.bool true)) ∧
    res.body.lookup "code" = some (.text code) ∧
    res.body.lookup "note" = some (.val (note.elim .null .str))
  notFound : (∀ entry, ¬LastAssigned history phone entry) → isPhone phone = true →
    res.status = 200 ∧ res.body.lookup "found" = some (.val (.bool false))
  noPhone : isPhone phone = false → res.status = 400

theorem claimAnswers {schemas : Schemas} (hs : schemas.Checks) {db : Db}
    {history : List (Change String Entry)} (h : Kept db history) {body : JsVal} {phone : String}
    (hbody : ∃ fields, body = .obj fields) (hphone : body.prop "phone" = .ok (.str phone)) :
    ClaimAnswers history phone (claim schemas body db) := by
  have hbook : ∀ entry, db.book phone = some entry ↔ LastAssigned history phone entry := by
    intro entry
    rw [h.book]
    exact replay_eq_some_iff
  cases hp : isPhone phone with
  | false =>
    have hfree : ∀ entry, ¬LastAssigned history phone entry := by
      intro entry hlast
      have hfind := (hbook entry).mpr hlast
      unfold Db.book Db.getCodeByPhone at hfind
      rw [Option.map_eq_some_iff] at hfind
      obtain ⟨row, hrow, _⟩ := hfind
      obtain ⟨hkey, id, hmem⟩ := (UniqueTable.find_eq_some_iff h.wellFormed).mp hrow
      have hvalid := (h.valid _ hmem).1
      dsimp only at hvalid
      rw [hkey, hp] at hvalid
      cases hvalid
    have hrefused : (claim schemas body db).status = 400 := by
      unfold claim
      cases hc : schemas.phone body with
      | error message => rfl
      | ok phone' =>
        obtain ⟨_, hphone', hvalid⟩ := (hs.phone body phone').mp hc
        rw [hphone, Except.ok.injEq, JsVal.str.injEq] at hphone'
        rw [← hphone', hp] at hvalid
        cases hvalid
    exact ⟨fun code note hl => absurd hl (hfree _), fun _ hn => absurd (hp.symm.trans hn) (by decide),
      fun _ => hrefused⟩
  | true =>
    have hc : schemas.phone body = .ok phone := (hs.phone body phone).mpr ⟨hbody, hphone, hp⟩
    unfold claim
    rw [hc]
    dsimp only
    cases hrow : db.getCodeByPhone phone with
    | none =>
      have hnone : db.book phone = none := by
        unfold Db.book
        rw [hrow]
        rfl
      refine ⟨fun code note hl => ?_, fun _ _ => ⟨rfl, rfl⟩,
        fun hn => absurd (hp.symm.trans hn) (by decide)⟩
      rw [(hbook _).mpr hl] at hnone
      cases hnone
    | some record =>
      have hsome : db.book phone = some record.entry := by
        unfold Db.book
        rw [hrow]
        rfl
      refine ⟨fun code note hl => ?_, fun hno => absurd ((hbook _).mp hsome) (hno _),
        fun hn => absurd (hp.symm.trans hn) (by decide)⟩
      have he : record.entry = (code, note) := by
        have hentry := (hbook _).mpr hl
        rw [hsome] at hentry
        exact Option.some.inj hentry
      cases he
      exact ⟨rfl, rfl, rfl, rfl⟩

/-- After every sequence of requests the table has one row for each phone, with a phone and a code
that match the patterns; a request that reports failure leaves the table; and a claim answers
what the phone was last assigned and has not lost since. -/
theorem refines_phone_book {schemas : Schemas} (hs : schemas.Checks) {es : List Event} {db : Db}
    {history : List (Change String Entry)}
    (hr : run (tracedStep schemas) (start, []) es = some (db, history)) :
    (∀ r ∈ db.codes.rows, isPhone r.2.phone = true ∧ isCode r.2.code = true) ∧
    (db.codes.rows.map fun r => r.2.phone).Nodup ∧
    (∀ r now, FailureReported (Request.handle schemas now db r).1 →
      (Request.handle schemas now db r).2.codes = db.codes) ∧
    ∀ body phone, (∃ fields, body = .obj fields) → body.prop "phone" = .ok (.str phone) →
      ClaimAnswers history phone (claim schemas body db) := by
  have hok : Along (tracedStep schemas) (fun _ _ => True) (start, []) es :=
    .of_forall (tracedStep schemas) (fun _ _ => trivial) _ es
  have hkept : Kept db history := run_invariant (tracedStep schemas) (fun s => Kept s.1 s.2)
    (fun _ _ _ hi _ hs' => kept_tracedStep hs hi hs') kept_start hok hr
  refine ⟨hkept.valid, hkept.wellFormed.keys, fun r now hf => ?_,
    fun body phone hbody hphone => claimAnswers hs hkept hbody hphone⟩
  cases r with
  | claim body => rfl
  | admin session r =>
    cases session with
    | missing => rfl
    | expired => rfl
    | valid => exact (does_handle hs hkept r now).unchanged hf

/-- `z.string().regex(..)` on a field of the body. -/
def textOf (body : JsVal) (name : String) (test : String → Bool) (message : String) :
    Except String String :=
  match body, body.prop name with
  | .obj _, .ok (.str s) => if test s then .ok s else .error message
  | _, _ => .error "Required"

/-- `z.string().optional()`. -/
def noteOf (body : JsVal) : Except String (Option String) :=
  match body.prop "note" with
  | .ok (.str s) => .ok (some s)
  | .ok .undefined => .ok none
  | _ => .error "Expected string"

def phoneOf (body : JsVal) : Except String String :=
  textOf body "phone" isPhone "请输入有效的中国大陆手机号"

def readItem (body : JsVal) : Except String Item := do
  let phone ← phoneOf body
  let code ← textOf body "code" isCode "码必须是6位数字"
  let note ← noteOf body
  return ⟨phone, code, note⟩

def readUpdate (id : String) (body : JsVal) : Except String UpdateBody := do
  let item ← readItem body
  match stringToNumber id with
  | .fin q => if q.den = 1 ∧ 0 < q.num then return ⟨q.num.natAbs, item⟩ else .error "Number must be greater than 0"
  | _ => .error "Expected number, received nan"

/-- Schemas that check as they should. -/
def Schemas.plain : Schemas := ⟨readItem, readUpdate, phoneOf⟩

theorem textOf_eq_ok {body : JsVal} {name s message : String} {test : String → Bool} :
    textOf body name test message = .ok s ↔
      (∃ fields, body = .obj fields) ∧ body.prop name = .ok (.str s) ∧ test s = true := by
  unfold textOf
  constructor
  · intro h
    split at h
    · rename_i fields v hv
      split at h
      · rename_i ht
        cases h
        exact ⟨⟨_, rfl⟩, hv, ht⟩
      · cases h
    · cases h
  · rintro ⟨⟨fields, rfl⟩, hs, ht⟩
    rw [hs]
    dsimp only
    rw [if_pos ht]

theorem noteOf_eq_ok {body : JsVal} {note : Option String} :
    noteOf body = .ok note ↔ body.prop "note" = .ok (note.elim .undefined .str) := by
  unfold noteOf
  constructor
  · intro h
    split at h
    · rename_i s hs
      cases h
      exact hs
    · rename_i hs
      cases h
      exact hs
    · cases h
  · intro h
    rw [h]
    cases note <;> rfl

theorem readItem_eq_ok {body : JsVal} {item : Item} :
    readItem body = .ok item ↔ Item.Accepted body item := by
  constructor
  · intro h
    unfold readItem at h
    cases hphone : phoneOf body with
    | error e =>
      rw [hphone] at h
      cases h
    | ok phone =>
    cases hcode : textOf body "code" isCode "码必须是6位数字" with
    | error e =>
      rw [hphone, hcode] at h
      cases h
    | ok code =>
    cases hnote : noteOf body with
    | error e =>
      rw [hphone, hcode, hnote] at h
      cases h
    | ok note =>
    rw [hphone, hcode, hnote] at h
    cases h
    obtain ⟨hobject, hphone, hp⟩ := textOf_eq_ok.mp hphone
    obtain ⟨_, hcode, hc⟩ := textOf_eq_ok.mp hcode
    exact ⟨hobject, hphone, hp, hcode, hc, noteOf_eq_ok.mp hnote⟩
  · intro h
    unfold readItem
    unfold phoneOf
    rw [textOf_eq_ok.mpr ⟨h.object, h.phone, h.isPhone⟩, textOf_eq_ok.mpr ⟨h.object, h.code, h.isCode⟩,
      noteOf_eq_ok.mpr h.note]
    rfl

theorem Schemas.plain_checks : Schemas.plain.Checks := by
  refine ⟨fun _ _ => readItem_eq_ok, fun id body b => ⟨fun h => ?_, fun h => ?_⟩,
    fun _ _ => textOf_eq_ok⟩
  · change readUpdate id body = .ok b at h
    unfold readUpdate at h
    cases hitem : readItem body with
    | error e =>
      rw [hitem] at h
      cases h
    | ok item =>
    rw [hitem] at h
    cases hn : stringToNumber id with
    | nan =>
      rw [hn] at h
      cases h
    | inf neg =>
      rw [hn] at h
      cases h
    | fin q =>
      rw [hn] at h
      by_cases hq : q.den = 1 ∧ 0 < q.num
      · have hb : b = ⟨q.num.natAbs, item⟩ := by
          have h' : (if q.den = 1 ∧ 0 < q.num then Except.ok ⟨q.num.natAbs, item⟩
            else Except.error "Number must be greater than 0" : Except String UpdateBody) = .ok b := h
          rw [if_pos hq] at h'
          exact (Except.ok.inj h').symm
        rw [hb]
        have hnat : ((q.num.natAbs : ℕ) : ℚ) = q := by
          rw [Nat.cast_natAbs, abs_of_pos hq.2]
          exact (Rat.den_eq_one_iff q).mp hq.1
        refine ⟨?_, by simpa using hq.2.ne', readItem_eq_ok.mp hitem⟩
        rw [JsNum.ofNat, hnat]
      · have h' : (if q.den = 1 ∧ 0 < q.num then Except.ok ⟨q.num.natAbs, item⟩
          else Except.error "Number must be greater than 0" : Except String UpdateBody) = .ok b := h
        rw [if_neg hq] at h'
        cases h'
  · obtain ⟨hn, hpos, hok⟩ := h
    change readUpdate id body = .ok b
    unfold readUpdate
    rw [readItem_eq_ok.mpr hok, hn]
    change (if ((b.id : ℚ)).den = 1 ∧ 0 < ((b.id : ℚ)).num then
      Except.ok ⟨((b.id : ℚ)).num.natAbs, b.item⟩ else Except.error "Number must be greater than 0") = Except.ok b
    rw [if_pos ⟨Rat.den_natCast _, by simpa using hpos⟩]
    simp

/-- A code is added and moved to another phone, where a claim finds it. -/
theorem refines_phone_book_moved :
    let add : JsVal := .obj [("phone", .str "13800138000"), ("code", .str "123456")]
    let move : JsVal := .obj [("phone", .str "13900139000"), ("code", .str "123456"),
      ("note", .str "")]
    let es : List Event := [.request (.admin .valid (.addCode add)) "t1",
      .request (.admin .valid (.updateCode "1" move)) "t2"]
    ∃ db history, run (tracedStep .plain) (start, []) es = some (db, history) ∧
      history = [.assigned "13800138000" ("123456", none), .removed "13800138000",
        .assigned "13900139000" ("123456", none)] ∧
      ClaimAnswers history "13900139000"
        (claim .plain (.obj [("phone", .str "13900139000")]) db) := by
  intro add move es
  obtain ⟨db, history, hr, hh⟩ : ∃ db history,
      run (tracedStep .plain) (start, []) es = some (db, history) ∧
      history = [.assigned "13800138000" ("123456", none), .removed "13800138000",
        .assigned "13900139000" ("123456", none)] := ⟨_, _, rfl, by decide +kernel⟩
  obtain ⟨_, _, _, hclaims⟩ := refines_phone_book Schemas.plain_checks hr
  exact ⟨db, history, hr, hh, hclaims _ _ ⟨_, rfl⟩ rfl⟩

end JtfpMall.FlCode
