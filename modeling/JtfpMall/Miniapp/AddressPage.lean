import JtfpMall.Js.Trim
import JtfpMall.Lib.LastWrite
import JtfpMall.Miniapp.Checkout

/-!
# The address page of the mini-program

The page reads the stored address into a form, and stores the form once every field has something
in it besides white space. Nothing else of the mini-program writes the address.
-/

namespace JtfpMall.Miniapp.AddressPage

open JtfpMall.Js
open JtfpMall.Lib

structure Form where
  name : String
  phone : String
  province : String
  city : String
  district : String
  detail : String
deriving DecidableEq

namespace Form

def empty : Form := ⟨"", "", "", "", "", ""⟩

/-- `onLoad()`, of the address that is stored. -/
def ofSaved (a : SavedAddress) : Form := ⟨a.name, a.phone, a.province, a.city, a.district, a.detail⟩

def trimmed (f : Form) : Form :=
  ⟨trim f.name, trim f.phone, trim f.province, trim f.city, trim f.district, trim f.detail⟩

theorem phone_long {phone : String} (h : ¬(phone = "" ∨ (utf16 phone).length < 6)) :
    6 ≤ (utf16 phone).length := Nat.le_of_not_lt fun hlt => h (Or.inr hlt)

theorem area_ne {province city district : String}
    (h : ¬(province = "" ∨ city = "" ∨ district = "")) :
    province ≠ "" ∧ city ≠ "" ∧ district ≠ "" :=
  ⟨fun he => h (Or.inl he), fun he => h (Or.inr (Or.inl he)), fun he => h (Or.inr (Or.inr he))⟩

/-- What `save()` stores of the texts it has trimmed, or the toast it shows. -/
def saved (f : Form) : Except String SavedAddress :=
  if hname : f.name = "" then .error "请填写收货人"
  else if hphone : f.phone = "" ∨ (utf16 f.phone).length < 6 then .error "请填写手机号"
  else if harea : f.province = "" ∨ f.city = "" ∨ f.district = "" then .error "请填写省市区"
  else if hdetail : f.detail = "" then .error "请填写详细地址"
  else .ok ⟨f.name, f.phone, f.province, f.city, f.district, f.detail, hname, phone_long hphone,
    area_ne harea, hdetail⟩

end Form

structure State where
  form : Form
  regionValue : List String
  regionText : String
  /-- What the storage has under the key of the address. -/
  stored : Option SavedAddress

/-- The inputs of the page. -/
inductive Field where
  | name
  | phone
  | detail

/-- What `wx.chooseAddress` brings; a field that is missing is empty. -/
structure WxAddress where
  userName : String
  telNumber : String
  provinceName : String
  cityName : String
  countyName : String
  detailInfo : String

inductive Event where
  | onLoad
  | onInput (field : Field) (value : String)
  | onRegionChange (regionArr : List String)
  | chooseWxAddress (res : WxAddress)
  | save
  /-- The dialog of `clear()` is confirmed. -/
  | clear

/-- `parts.filter(Boolean).join(' ')`. -/
def joined (parts : List String) : String :=
  " ".intercalate (parts.filter fun part => decide (part ≠ ""))

/-- `text || otherwise`. -/
def textOr (text otherwise : String) : String := if text = "" then otherwise else text

namespace State

def fresh : State := ⟨.empty, [], "", none⟩

/-- The region of the form, where it has all of it. -/
def ofRegion (f : Form) (stored : Option SavedAddress) : State :=
  if f.province ≠ "" ∧ f.city ≠ "" ∧ f.district ≠ "" then
    ⟨f, [f.province, f.city, f.district], f.province ++ " " ++ f.city ++ " " ++ f.district, stored⟩
  else ⟨f, [], "", stored⟩

/-- The page is opened. -/
def onLoad (s : State) : State :=
  match s.stored with
  | some a => ofRegion (.ofSaved a) s.stored
  | none => ⟨.empty, [], "", none⟩

def onInput (field : Field) (value : String) (s : State) : State :=
  match field with
  | .name => { s with form := { s.form with name := value } }
  | .phone => { s with form := { s.form with phone := value } }
  | .detail => { s with form := { s.form with detail := value } }

def onRegionChange (regionArr : List String) (s : State) : State :=
  { s with
    form := { s.form with
      province := regionArr[0]?.getD "", city := regionArr[1]?.getD "",
      district := regionArr[2]?.getD "" }
    regionValue := regionArr
    regionText := joined regionArr }

def chooseWxAddress (res : WxAddress) (s : State) : State :=
  let parts := [res.provinceName, res.cityName, res.countyName]
  { s with
    form := ⟨textOr res.userName s.form.name, textOr res.telNumber s.form.phone, res.provinceName,
      res.cityName, res.countyName, textOr res.detailInfo s.form.detail⟩
    regionValue := parts.filter fun part => decide (part ≠ "")
    regionText := joined parts }

def save (s : State) : State :=
  match s.form.trimmed.saved with
  | .ok a => { s with stored := some a }
  | .error _ => s

def step (s : State) : Event → Option State
  | .onLoad => some s.onLoad
  | .onInput field value => some (s.onInput field value)
  | .onRegionChange regionArr => some (s.onRegionChange regionArr)
  | .chooseWxAddress res => some (s.chooseWxAddress res)
  | .save => some s.save
  | .clear => some fresh

/-- What the event leaves in the storage, if it writes it. -/
def written (s : State) : Event → Option (Option SavedAddress)
  | .save => match s.form.trimmed.saved with
    | .ok a => some (some a)
    | .error _ => none
  | .clear => some none
  | _ => none

end State

/-- No text of the address begins or ends with white space. -/
def Clean (a : SavedAddress) : Prop := (Form.ofSaved a).trimmed = .ofSaved a

theorem trim_trim (s : String) : trim (trim s) = trim s := by
  unfold trim
  rw [String.toList_ofList, (trimmed_trimChars s.toList).trimChars_eq]

theorem Form.trimmed_trimmed (f : Form) : f.trimmed.trimmed = f.trimmed := by
  unfold trimmed
  simp only [trim_trim]

/-- A form is stored as it is, if at all. -/
theorem Form.ofSaved_of_saved {f : Form} {a : SavedAddress} (h : f.saved = .ok a) :
    ofSaved a = f := by
  unfold saved at h
  split at h
  · cases h
  · split at h
    · cases h
    · split at h
      · cases h
      · split at h
        · cases h
        · cases h
          rfl

/-- What has been stored passes the checks again. -/
theorem Form.saved_ofSaved (a : SavedAddress) : (ofSaved a).saved = .ok a := by
  have hphone : ¬(a.phone = "" ∨ (utf16 a.phone).length < 6) := by
    rintro (hempty | hshort)
    · have hlong := a.phone_long
      rw [hempty] at hlong
      exact absurd hlong (by decide)
    · exact absurd a.phone_long (Nat.not_le_of_lt hshort)
  have harea : ¬(a.province = "" ∨ a.city = "" ∨ a.district = "") := by
    rintro (h | h | h)
    · exact a.area_ne.1 h
    · exact a.area_ne.2.1 h
    · exact a.area_ne.2.2 h
  unfold saved ofSaved
  rw [dif_neg a.name_ne, dif_neg hphone, dif_neg harea, dif_neg a.detail_ne]

theorem clean_of_saved {f : Form} {a : SavedAddress} (h : f.trimmed.saved = .ok a) : Clean a := by
  unfold Clean
  rw [Form.ofSaved_of_saved h, Form.trimmed_trimmed]

namespace State

variable {s s' : State}

/-- Every step writes the storage as `written` says, or leaves it. -/
theorem stored_step {e : Event} (h : s.step e = some s') :
    some s'.stored = (s.written e).or (some s.stored) := by
  cases e with
  | onLoad =>
    cases h
    unfold onLoad ofRegion
    cases hstored : s.stored with
    | none => rfl
    | some a =>
      dsimp only
      split <;> rfl
  | onInput field value =>
    cases h
    cases field <;> rfl
  | onRegionChange regionArr =>
    cases h
    rfl
  | chooseWxAddress res =>
    cases h
    rfl
  | save =>
    cases h
    unfold save written
    cases s.form.trimmed.saved <;> rfl
  | clear =>
    cases h
    rfl

theorem clean_written {e : Event} {a : SavedAddress} (h : s.written e = some (some a)) :
    Clean a := by
  cases e with
  | save =>
    unfold written at h
    dsimp only at h
    cases hsaved : s.form.trimmed.saved with
    | error message =>
      rw [hsaved] at h
      cases h
    | ok b =>
      rw [hsaved, Option.some.injEq, Option.some.injEq] at h
      exact h ▸ clean_of_saved hsaved
  | clear => cases h
  | onLoad => cases h
  | onInput field value => cases h
  | onRegionChange regionArr => cases h
  | chooseWxAddress res => cases h

/-- A clean address that is loaded and stored again is the same. -/
theorem save_onLoad {a : SavedAddress} (h : s.stored = some a) (hclean : Clean a) :
    s.onLoad.save.stored = some a ∧ s.onLoad.form = .ofSaved a := by
  have hform : s.onLoad.form = .ofSaved a := by
    unfold onLoad ofRegion
    rw [h]
    dsimp only
    split <;> rfl
  refine ⟨?_, hform⟩
  unfold save
  rw [hform, hclean, Form.saved_ofSaved]

end State

theorem clean_receipts {s : State} {es : List Event} {a : SavedAddress}
    (h : some a ∈ receipts State.step State.written s es) : Clean a := by
  induction es generalizing s with
  | nil => cases h
  | cons e es ih =>
    unfold receipts at h
    rcases List.mem_append.mp h with h | h
    · exact State.clean_written (Option.mem_toList.mp h)
    · cases hs : s.step e with
      | none =>
        rw [hs] at h
        cases h
      | some s' =>
        rw [hs] at h
        exact ih h

/-- The storage has what the last save that went through or the last clear left: an address without
white space at the ends of its texts, on which the page opens and which it saves again unchanged. -/
theorem stored_run {es : List Event} {s : State} (hr : run State.step .fresh es = some s) :
    s.stored = ((receipts State.step State.written .fresh es).getLast?).getD none ∧
      ∀ a, s.stored = some a →
        Clean a ∧ s.onLoad.form = .ofSaved a ∧ s.onLoad.save.stored = some a := by
  have hwrite : ∀ s e s', State.step s e = some s' →
      some s'.stored = (State.written s e).or (some s.stored) := fun _ _ _ hs => State.stored_step hs
  have hlast := slot_run hwrite hr
  have hcons : (some (State.fresh.stored)).toList ++ receipts State.step State.written .fresh es =
      none :: receipts State.step State.written .fresh es := rfl
  rw [hcons, List.getLast?_cons, Option.some.injEq] at hlast
  refine ⟨hlast, fun a ha => ?_⟩
  have hclean : Clean a := by
    cases hreceipts : (receipts State.step State.written .fresh es).getLast? with
    | none =>
      rw [hlast, hreceipts] at ha
      cases ha
    | some w =>
      rw [hlast, hreceipts, Option.getD_some] at ha
      exact clean_receipts (ha ▸ List.mem_of_getLast? hreceipts)
  obtain ⟨hsaved, hform⟩ := State.save_onLoad ha hclean
  exact ⟨hclean, hform, hsaved⟩

/-- The form is filled in by hand and from WeChat, stored with the white space cut off, and a later
save without a name leaves it. -/
theorem stored_run_trimmed :
    let es : List Event := [.onLoad, .onInput .phone " 13800000000 ",
      .chooseWxAddress ⟨"王小明 ", "", "上海市", "上海市", "静安区", "南京西路 1 号"⟩, .save,
      .onInput .name " ", .save]
    ∃ s a, run State.step .fresh es = some s ∧ s.stored = some a ∧
      Form.ofSaved a = ⟨"王小明", "13800000000", "上海市", "上海市", "静安区", "南京西路 1 号"⟩ ∧
      s.onLoad.save.stored = some a := by
  intro es
  obtain ⟨s, hs⟩ : ∃ s, run State.step .fresh es = some s := ⟨_, rfl⟩
  have hform : s.stored.map Form.ofSaved =
      some ⟨"王小明", "13800000000", "上海市", "上海市", "静安区", "南京西路 1 号"⟩ := by
    cases hs
    decide +kernel
  obtain ⟨a, ha, hform⟩ := Option.map_eq_some_iff.mp hform
  exact ⟨s, a, hs, ha, hform, ((stored_run hs).2 a ha).2.2⟩

end JtfpMall.Miniapp.AddressPage
