import JtfpMall.Js.Stamps
import JtfpMall.Server.WelfareUses

/-!
# The time a welfare code is valid

A code is valid from one time to another, each of them absent or in one of three formats. The
check compares texts. Against a limit with a `T` this is the order of time; against one with a
blank, or a bare day, only the day counts, and the limit stands in front of all times of its day.
-/

namespace JtfpMall

open JtfpMall.Js
open JtfpMall.Lib
open JtfpMall.WelfareCodes (hasCode validity usedUp)

/-- A limit of the validity. -/
inductive Limit where
  /-- `YYYY-MM-DDTHH:MM:SS.sssZ`. -/
  | instant (x : Stamp)
  /-- `YYYY-MM-DD HH:MM:SS`. -/
  | second (d : Day) (t : DayTime)
  /-- `YYYY-MM-DD`. -/
  | day (d : Day)

namespace Limit

def text : Limit → String
  | .instant x => x.text
  | .second d t => .ofList (d.chars ++ ' ' :: t.chars)
  | .day d => d.text

/-- The first time at or after the limit. -/
def opens : Limit → Stamp
  | .instant x => x
  | .second d t => ⟨d, t, 0⟩
  | .day d => .dayBegin d

/-- The last time up to the limit; a bare day counts to its end. -/
def closes : Limit → Stamp
  | .instant x => x
  | .second d t => ⟨d, t, 0⟩
  | .day d => .dayEnd d

/-- A time of the current day that is still to come. -/
def LaterToday (now : Stamp) : Limit → Prop
  | .second d t => d = now.day ∧ now < ⟨d, t, 0⟩
  | _ => False

/-- The current day, or a time of it that is not over. -/
def NotOverToday (now : Stamp) : Limit → Prop
  | .instant _ => False
  | .second d t => d = now.day ∧ now ≤ ⟨d, t, 0⟩
  | .day d => d = now.day

end Limit

/-- The column is absent, or has the text of the limit. -/
def HasLimit (v : JsVal) : Option Limit → Prop
  | none => v.isNullish = true
  | some l => v = .str l.text

/-- The time is not before the limit, if there is one. -/
def Opened (first : Option Limit) (now : Stamp) : Prop := ∀ l, first = some l → l.opens ≤ now

/-- The time is not after the limit, if there is one. -/
def NotClosed (last : Option Limit) (now : Stamp) : Prop := ∀ l, last = some l → now ≤ l.closes

/-- The first row with the code, its counts and its limits. -/
structure WindowedCode (s : Store) (code : String) (r : Row) (used total : JsNum)
    (first last : Option Limit) : Prop where
  found : s.findOne .welfareCodes (hasCode (.str code)) = some r
  used : r.get "used_count" = .num used ∧ used ≠ .nan
  total : r.get "total_count" = .num total ∧ total ≠ .nan
  first : HasLimit (r.get "valid_from") first
  last : HasLimit (r.get "valid_to") last

/-- Enabled, with a use left, at a time within the limits. -/
def InWindow (r : Row) (used total : JsNum) (first last : Option Limit) (now : Stamp) : Prop :=
  r.get "status" = .num (.fin 1) ∧ used.lt? total = some true ∧ Opened first now ∧
    NotClosed last now

/-- The check answers that the code is valid. -/
def AnswersValid (s : Store) (code : String) (now : Stamp) : Prop :=
  ∃ wc, ((WelfareCodes.validateCode (.str code) now.text).run s).1 = .ok (.valid wc)

/-- The request succeeds, the row has one use more, and nothing else changes. -/
def ConsumesOne (env : Env) (body : JsVal) (at_ : Moment) (s : Store) (r : Row) (used : JsNum) :
    Prop :=
  ∃ res s', (WelfareRoutes.use env body at_).run s = (.ok res, s') ∧ res.succeeded = true ∧
    (∀ t, t ≠ .welfareCodes → s'.cache.rows t = s.cache.rows t) ∧
    ∃ r', s'.cache.rows .welfareCodes =
        ((s.cache.rows .welfareCodes).map fun x => if x = r then r' else x) ∧
      r'.get "used_count" = .num (used.add (.fin 1)) ∧
      ∀ k, k ≠ "used_count" → k ≠ "updated_at" → r'.get k = r.get k

/-- The check tells the valid codes, and a use goes through for those and no others. -/
def WindowKept (env : Env) (body : JsVal) (at_ : Moment) (s : Store) (code : String) (r : Row)
    (used total : JsNum) (first last : Option Limit) (now : Stamp) : Prop :=
  (AnswersValid s code now ↔ InWindow r used total first last now) ∧
    (ConsumesOne env body at_ s r used ↔ InWindow r used total first last now)

/-- The code could be used but for its limits, and these are misread: it is valid from later
today, or it is valid to the end or a time of this day. -/
def Misread (r : Row) (used total : JsNum) (first last : Option Limit) (now : Stamp) : Prop :=
  r.get "status" = .num (.fin 1) ∧ used.lt? total = some true ∧
    ((∃ l, first = some l ∧ l.LaterToday now) ∧ NotClosed last now ∧
        ¬(∃ l, last = some l ∧ l.NotOverToday now) ∨
      (∃ l, last = some l ∧ l.NotOverToday now) ∧ Opened first now)

namespace Limit

variable {now : Stamp}

theorem second_chars (t : DayTime) : Stamp.BeforeT (' ' :: t.chars) :=
  Stamp.beforeT_blank t.oneUnit_chars

theorem text_day (d : Day) : (Limit.day d).text = .ofList (d.chars ++ []) := by
  rw [List.append_nil]
  rfl

/-- The comparison lets a limit pass that is open, or later today. -/
theorem not_lt_text (l : Limit) :
    textLt now.text l.text = false ↔ l.opens ≤ now ∨ l.LaterToday now := by
  cases l with
  | instant x =>
    rw [Limit.text, Stamp.textLt_text, decide_eq_false_iff_not, not_lt]
    simp only [opens, LaterToday, or_false]
  | second d t =>
    rw [Limit.text, now.textLt_of_beforeT (second_chars t), decide_eq_false_iff_not, not_lt]
    simp only [opens, LaterToday]
    constructor
    · intro hle
      rcases lt_or_eq_of_le hle with hlt | heq
      · exact Or.inl (Stamp.lt_of_day_lt (s := ⟨d, t, 0⟩) hlt).le
      · rcases le_or_gt (⟨d, t, 0⟩ : Stamp) now with hopen | hlater
        · exact Or.inl hopen
        · exact Or.inr ⟨heq, hlater⟩
    · rintro (hle | ⟨rfl, _⟩)
      · exact Stamp.day_le_of_le (s := ⟨d, t, 0⟩) hle
      · exact le_refl _
  | day d =>
    rw [text_day, now.textLt_of_beforeT Stamp.beforeT_nil, decide_eq_false_iff_not, not_lt]
    simp only [opens, LaterToday, or_false, Stamp.dayBegin_le]

theorem LaterToday.not_opens {l : Limit} (h : l.LaterToday now) : ¬l.opens ≤ now := by
  cases l with
  | second d t => exact not_le.mpr h.2
  | _ => exact h.elim

/-- The comparison lets a limit pass that is not over, unless it is of today. -/
theorem not_text_lt (l : Limit) :
    textLt l.text now.text = false ↔ now ≤ l.closes ∧ ¬l.NotOverToday now := by
  cases l with
  | instant x =>
    rw [Limit.text, Stamp.textLt_text, decide_eq_false_iff_not, not_lt]
    simp only [closes, NotOverToday, not_false_eq_true, and_true]
  | second d t =>
    rw [Limit.text, now.textLt_beforeT (second_chars t), decide_eq_false_iff_not, not_le]
    simp only [closes, NotOverToday]
    constructor
    · intro hlt
      exact ⟨(Stamp.lt_of_day_lt (t := ⟨d, t, 0⟩) hlt).le, fun htoday => hlt.ne htoday.1.symm⟩
    · rintro ⟨hle, htoday⟩
      exact lt_of_le_of_ne (Stamp.day_le_of_le (t := ⟨d, t, 0⟩) hle) fun heq => htoday ⟨heq.symm, hle⟩
  | day d =>
    rw [text_day, now.textLt_beforeT Stamp.beforeT_nil, decide_eq_false_iff_not, not_le]
    simp only [closes, NotOverToday, Stamp.le_dayEnd]
    rw [lt_iff_le_and_ne, ne_comm]

theorem NotOverToday.le_closes {l : Limit} (h : l.NotOverToday now) : now ≤ l.closes := by
  cases l with
  | instant x => exact h.elim
  | second d t => exact h.2
  | day d =>
    exact (Stamp.le_dayEnd d now).mpr (show d = now.day from h).ge

theorem text_ne_empty (l : Limit) : l.text ≠ "" := by
  cases l with
  | instant x => exact x.text_ne_empty
  | second d t =>
    intro h
    have hlen := congrArg (fun s => s.toList.length) h
    simp [Limit.text] at hlen
  | day d =>
    intro h
    have hlen := congrArg (fun s => s.toList.length) h
    simp [Limit.text, Day.text, Day.chars, fields] at hlen

end Limit

/-- What the check lets pass. -/
def Passes (r : Row) (used total : JsNum) (first last : Option Limit) (now : Stamp) : Prop :=
  r.get "status" = .num (.fin 1) ∧ used.lt? total = some true ∧
    (∀ l, first = some l → textLt now.text l.text = false) ∧
    ∀ l, last = some l → textLt l.text now.text = false

section
variable {env : Env} {s : Store} {code : String} {r : Row} {used total : JsNum}
  {first last : Option Limit} {now : Stamp}

/-- What passes is in the window, except that a limit later today passes and one that is not
over today does not. -/
theorem passes_iff : Passes r used total first last now ↔
    r.get "status" = .num (.fin 1) ∧ used.lt? total = some true ∧
      (Opened first now ∨ ∃ l, first = some l ∧ l.LaterToday now) ∧
      NotClosed last now ∧ ¬∃ l, last = some l ∧ l.NotOverToday now := by
  unfold Passes
  refine and_congr_right fun _ => and_congr_right fun _ => and_congr ?_ ?_
  · cases first with
    | none => simp [Opened]
    | some l =>
      simp only [Option.some.injEq, forall_eq', exists_eq_left', Opened]
      exact l.not_lt_text
  · cases last with
    | none => simp [NotClosed]
    | some l =>
      simp only [Option.some.injEq, forall_eq', exists_eq_left', NotClosed]
      exact l.not_text_lt

/-- What passes and what is in the window differ exactly when the limits are misread. -/
theorem passes_iff_inWindow : (Passes r used total first last now ↔
    InWindow r used total first last now) ↔ ¬Misread r used total first last now := by
  have hlater : (∃ l, first = some l ∧ l.LaterToday now) → ¬Opened first now := by
    rintro ⟨l, rfl, hl⟩ hopen
    exact hl.not_opens (hopen l rfl)
  have htoday : (∃ l, last = some l ∧ l.NotOverToday now) → NotClosed last now := by
    rintro ⟨l, rfl, hl⟩ l' hl'
    rw [← Option.some.inj hl']
    exact hl.le_closes
  rw [passes_iff]
  unfold InWindow Misread
  generalize Opened first now = opened at hlater ⊢
  generalize (∃ l, first = some l ∧ l.LaterToday now) = later at hlater ⊢
  generalize NotClosed last now = open_ at htoday ⊢
  generalize (∃ l, last = some l ∧ l.NotOverToday now) = today at htoday ⊢
  tauto

theorem lt_limit {v : JsVal} {o : Option Limit} (h : HasLimit v o) (n : String) :
    ∃ b, (JsVal.str n).lt v = .ok b ∧ (v.truthy && b) = o.any fun l => textLt n l.text := by
  cases o with
  | none => cases v <;> first | exact ⟨_, rfl, rfl⟩ | cases h
  | some l =>
    obtain rfl : v = .str l.text := h
    refine ⟨textLt n l.text, rfl, ?_⟩
    have htruthy : (JsVal.str l.text).truthy = true := decide_eq_true l.text_ne_empty
    rw [htruthy]
    rfl

theorem gt_limit {v : JsVal} {o : Option Limit} (h : HasLimit v o) (n : String) :
    ∃ b, (JsVal.str n).gt v = .ok b ∧ (v.truthy && b) = o.any fun l => textLt l.text n := by
  cases o with
  | none => cases v <;> first | exact ⟨_, rfl, rfl⟩ | cases h
  | some l =>
    obtain rfl : v = .str l.text := h
    refine ⟨textLt l.text n, rfl, ?_⟩
    have htruthy : (JsVal.str l.text).truthy = true := decide_eq_true l.text_ne_empty
    rw [htruthy]
    rfl

theorem strictEq_one {v : JsVal} : v.strictEq (.num (.fin 1)) = true ↔ v = .num (.fin 1) := by
  refine ⟨JsVal.eq_of_strictEq, ?_⟩
  rintro rfl
  simp [JsVal.strictEq, JsNum.strictEq]

theorem lt?_of_numbers {a b : JsNum} (ha : a ≠ .nan) (hb : b ≠ .nan) : ∃ c, a.lt? b = some c := by
  cases a with
  | nan => exact absurd rfl ha
  | _ =>
    cases b with
    | nan => exact absurd rfl hb
    | _ => exact ⟨_, rfl⟩

/-- The check lets a code pass, or it refuses it. -/
theorem validity_cases (h : WindowedCode s code r used total first last) (now : Stamp) :
    (validity r now.text = .ok (.valid r) ∧ Passes r used total first last now) ∨
      ((∃ message, validity r now.text = .ok (.refused message)) ∧
        ¬Passes r used total first last now) := by
  obtain ⟨lt, hlt, hfirst⟩ := lt_limit h.first now.text
  obtain ⟨gt, hgt, hlast⟩ := gt_limit h.last now.text
  obtain ⟨left, hleft⟩ := lt?_of_numbers h.used.2 h.total.2
  have husedUp : usedUp r = .ok !left := by
    unfold usedUp
    rw [h.used.1, h.total.1]
    change Except.ok (used.lt? total == some false) = _
    rw [hleft]
    cases left <;> rfl
  unfold validity Passes
  rw [husedUp, hlt, hgt]
  dsimp only [bind, Except.bind, pure, Except.pure]
  rw [hfirst, hlast, hleft]
  by_cases hstatus : r.get "status" = .num (.fin 1)
  · rw [strictEq_one.mpr hstatus]
    cases left with
    | false => exact Or.inr ⟨⟨_, rfl⟩, by simp⟩
    | true =>
      cases hopen : first.any fun l => textLt now.text l.text with
      | true =>
        obtain ⟨l, hl, hlt⟩ := (Option.any_eq_true _ _).mp hopen
        exact Or.inr ⟨⟨_, rfl⟩, fun hp => by simp [hp.2.2.1 l hl] at hlt⟩
      | false =>
        cases hclosed : last.any fun l => textLt l.text now.text with
        | true =>
          obtain ⟨l, hl, hgt⟩ := (Option.any_eq_true _ _).mp hclosed
          exact Or.inr ⟨⟨_, rfl⟩, fun hp => by simp [hp.2.2.2 l hl] at hgt⟩
        | false =>
          refine Or.inl ⟨rfl, hstatus, rfl, fun l hl => ?_, fun l hl => ?_⟩
          · rwa [hl, Option.any_some] at hopen
          · rwa [hl, Option.any_some] at hclosed
  · have hnot : (r.get "status").strictEq (.num (.fin 1)) = false := by
      rw [← Bool.not_eq_true]
      exact fun h => hstatus (strictEq_one.mp h)
    rw [hnot]
    exact Or.inr ⟨⟨_, rfl⟩, fun hp => hstatus hp.1⟩

theorem answersValid_iff (h : WindowedCode s code r used total first last) (now : Stamp) :
    AnswersValid s code now ↔ Passes r used total first last now := by
  unfold AnswersValid
  rw [run_validateCode, h.found]
  dsimp only [Option.elim_some]
  obtain ⟨hvalid, hp⟩ | ⟨⟨message, hrefused⟩, hp⟩ := validity_cases h now
  · exact ⟨fun _ => hp, fun _ => ⟨r, hvalid⟩⟩
  · refine ⟨fun ⟨wc, hwc⟩ => ?_, fun h => absurd h hp⟩
    rw [hrefused] at hwc
    cases hwc

/-- A refused code is not used. -/
theorem run_use_of_refused {body : JsVal} {at_ : Moment} {message : String}
    (hbody : env.validateReq body = .ok code)
    (hf : s.findOne .welfareCodes (hasCode (.str code)) = some r)
    (hv : validity r (at_.clock 0) = .ok (.refused message)) :
    (WelfareRoutes.use env body at_).run s =
      (.ok ⟨400, WelfareRoutes.validationBody (.refused message)⟩, s) := by
  unfold WelfareRoutes.use guarded
  rw [Action.run_attempt, hbody]
  dsimp only
  rw [Action.run_bind, run_validateCode, hf]
  dsimp only [Option.elim_some]
  rw [hv]
  rfl

/-- A use of a valid code raises its count and changes nothing else. -/
theorem consumesOne_of_valid {body : JsVal} {at_ : Moment} (hi : Issued s.cache .welfareCodes)
    (hbody : env.validateReq body = .ok code)
    (hf : s.findOne .welfareCodes (hasCode (.str code)) = some r)
    (hv : validity r (at_.clock 0) = .ok (.valid r)) (hused : r.get "used_count" = .num used) :
    ConsumesOne env body at_ s r used := by
  have hr : r ∈ s.cache.rows .welfareCodes := (mem_of_findOne hf).1
  have husable : usableRow env body (at_.clock 0) s = some r := by
    unfold usableRow
    rw [hbody]
    dsimp only
    rw [hf]
    exact Option.filter_eq_some_iff.mpr ⟨rfl, by rw [hv]⟩
  have hadd : (r.get "used_count").add (.num (.fin 1)) = .ok (.num (used.add (.fin 1))) := by
    rw [hused]
    rfl
  have hfound : (s.update .welfareCodes (r.get "id")
      (.ofList [("used_count", .num (used.add (.fin 1)))]) (at_.clock 1)).1 = true := by
    unfold Store.update
    rw [if_pos ((Store.any_hasId_iff ..).mpr ⟨r, hi.find hr⟩)]
  have hrun := run_use_of_some husable hadd
  rw [hfound] at hrun
  refine ⟨_, _, hrun, rfl, fun t ht => by rw [Store.rows_update, if_neg ht],
    Store.merged (.ofList [("used_count", .num (used.add (.fin 1)))]) (at_.clock 1) r, ?_, ?_,
    fun k hk hk' => ?_⟩
  · rw [(hi.oneRow hr).updated]
    refine List.map_congr_left fun x _ => ?_
    by_cases hx : x = r
    · rw [if_pos hx, if_pos hx, hx]
    · rw [if_neg hx, if_neg hx]
  · rw [get_merged_of_ne (by decide), Dict.has_ofList]
    simp [Dict.ofList]
  · rw [get_merged_of_ne hk', Dict.has_ofList]
    simp [hk]

theorem consumesOne_iff {body : JsVal} {at_ : Moment} (hi : Issued s.cache .welfareCodes)
    (hbody : env.validateReq body = .ok code)
    (h : WindowedCode s code r used total first last) (hnow : at_.clock 0 = now.text) :
    ConsumesOne env body at_ s r used ↔ Passes r used total first last now := by
  obtain ⟨hvalid, hp⟩ | ⟨⟨message, hrefused⟩, hp⟩ := validity_cases h now
  · rw [← hnow] at hvalid
    exact ⟨fun _ => hp, fun _ => consumesOne_of_valid hi hbody h.found hvalid h.used.1⟩
  · refine ⟨fun ⟨res, s', hrun, hsuccess, _⟩ => ?_, fun h => absurd h hp⟩
    rw [← hnow] at hrefused
    rw [run_use_of_refused hbody h.found hrefused] at hrun
    cases hrun
    cases hsuccess

theorem windowKept_iff_passes {body : JsVal} {at_ : Moment} (hi : Issued s.cache .welfareCodes)
    (hbody : env.validateReq body = .ok code)
    (h : WindowedCode s code r used total first last) (hnow : at_.clock 0 = now.text) :
    WindowKept env body at_ s code r used total first last now ↔
      (Passes r used total first last now ↔ InWindow r used total first last now) := by
  unfold WindowKept
  rw [answersValid_iff h, consumesOne_iff hi hbody h hnow]
  exact and_self_iff

end

/-- The check and the use keep to the window exactly when the limits are not misread. The ids of
the codes are as `insert` gives them. -/
theorem windowKept_iff (env : Env) (body : JsVal) (at_ : Moment) (s : Store) (code : String)
    (r : Row) (used total : JsNum) (first last : Option Limit) (now : Stamp)
    (hi : Issued s.cache .welfareCodes) (hbody : env.validateReq body = .ok code)
    (h : WindowedCode s code r used total first last) (hnow : at_.clock 0 = now.text) :
    WindowKept env body at_ s code r used total first last now ↔
      ¬Misread r used total first last now :=
  (windowKept_iff_passes hi hbody h hnow).trans passes_iff_inWindow

/-- Noon of New Year's Day. -/
def noon : Stamp := ⟨⟨2025, 0, 0⟩, ⟨12, 0, 0⟩, 0⟩

/-- A code for one use, valid to the end of the day. -/
def oneDayCode : Row :=
  Store.newRow (.ofList [("code", .str "A"), ("status", .num (.fin 1)),
    ("used_count", .num (.fin 0)), ("total_count", .num (.fin 1)),
    ("valid_to", .str noon.day.text)]) 1 "t2"

/-- A store with this code. -/
def oneDayShop : Store :=
  ((Server.start "t0" (fun _ => "t1") .empty).insert .welfareCodes (.ofList [("code", .str "A"),
    ("status", .num (.fin 1)), ("used_count", .num (.fin 0)), ("total_count", .num (.fin 1)),
    ("valid_to", .str noon.day.text)]) "t2").2

theorem oneDayShop_issued : Issued oneDayShop.cache .welfareCodes :=
  (issued_start "t0" (fun _ => "t1") .welfareCodes).insert _ _

theorem oneDayCode_windowed : WindowedCode oneDayShop "A" oneDayCode (.fin 0) (.fin 1) none
    (some (.day noon.day)) where
  found := rfl
  used := ⟨rfl, by simp⟩
  total := ⟨rfl, by simp⟩
  first := rfl
  last := rfl

theorem oneDayCode_misread : Misread oneDayCode (.fin 0) (.fin 1) none (some (.day noon.day)) noon := by
  refine ⟨rfl, rfl, Or.inr ⟨⟨_, rfl, rfl⟩, fun l hl => ?_⟩⟩
  cases hl

theorem oneDayCode_kept_iff :
    WindowKept .plain (.obj [("code", .str "A")]) (Server.moment noon.text) oneDayShop "A" oneDayCode
        (.fin 0) (.fin 1) none (some (.day noon.day)) noon ↔
      ¬Misread oneDayCode (.fin 0) (.fin 1) none (some (.day noon.day)) noon :=
  windowKept_iff .plain _ _ oneDayShop "A" oneDayCode _ _ none _ noon oneDayShop_issued rfl
    oneDayCode_windowed rfl

/-- On its last day the code counts as expired. -/
theorem oneDayCode_not_kept :
    ¬WindowKept .plain (.obj [("code", .str "A")]) (Server.moment noon.text) oneDayShop "A"
        oneDayCode (.fin 0) (.fin 1) none (some (.day noon.day)) noon := fun hkept =>
  passes_iff_inWindow.mp
    ((windowKept_iff_passes oneDayShop_issued rfl oneDayCode_windowed rfl).mp hkept)
    oneDayCode_misread

end JtfpMall
