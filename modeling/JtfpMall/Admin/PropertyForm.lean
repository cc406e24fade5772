import JtfpMall.Js.JsonText
import JtfpMall.Lib.Split
import JtfpMall.Server.CategoryReferences

/-!
# The images of a property

The column holds a text. The page of the mall reads it as JSON, or else as texts between commas;
the form of the admin pages reads it as JSON, or else as one address. Neither asks whether the
JSON is a list.
-/

namespace JtfpMall.Admin

open JtfpMall.Js
open JtfpMall.Lib

/-- `urls` of `initImageList`, before the cover takes the place of an empty list. -/
def initImageList (images : JsVal) : JsVal :=
  match images with
  | .str s =>
    if s = "" then .arr []
    else match Json.parse s with
      | .ok v => v
      | .error _ => .arr [.str s]
  | .arr xs => .arr xs
  | _ => .arr []

/-- `JSON.stringify(imageList.value)`, as `handleSubmit` sends it. -/
def submittedImages (urls : List String) : JsVal := Json.stringify (.arr (urls.map .str))

/-- What a POST or a PUT with the body leaves in the table. -/
inductive SavedFrom (body : Row) : Row → Prop where
  | post {data : Row} (h : PropertyRoutes.withShopFields body = .ok data) (id : ℕ) (now : String) :
    SavedFrom body (Store.newRow (Properties.newProperty data) id now)
  | put {data : Row} (h : PropertyRoutes.withShopFields body = .ok data) (old : Row) (now : String) :
    SavedFrom body (Store.merged data now old)

/-- The page and the form read these addresses. -/
def Decode (r : Row) (urls : List String) : Prop :=
  Properties.imagesOf r = .arr (urls.map .str) ∧
    initImageList (r.get "images") = .arr (urls.map .str)

/-- The page and the form read the same list of texts, and what the form saves is read as it was. -/
def OneMeaning (r : Row) : Prop :=
  (∃ urls, Decode r urls) ∧ ∀ (urls : List String) (body r' : Row),
    body.get "images" = submittedImages urls → SavedFrom body r' → Decode r' urls

/-- The text is empty, JSON of a list of texts, or no JSON: then one text without a comma and
without white space at its ends. -/
def OneReading (s : String) : Prop :=
  s = "" ∨ (∃ urls : List String, Json.parse s = .ok (.arr (urls.map .str))) ∨
    (∃ e, Json.parse s = .error e) ∧ ',' ∉ s.toList ∧ trim s = s

/-- The images of the body are what is saved, a text as it is. -/
theorem images_saved {body r : Row} {s : String} (hb : body.get "images" = .str s)
    (h : SavedFrom body r) : r.get "images" = .str s := by
  have hdata : ∀ data, PropertyRoutes.withShopFields body = .ok data →
      data.get "images" = .str s ∧ data.has "images" = true := by
    intro data h
    obtain ⟨r1, r2, r3, r4, r5, h1, h2, h3, h4, h5, h6⟩ := withShopFields_steps h
    have hset : r3.get "images" = .str s ∧ r3.has "images" = true := by
      unfold PropertyRoutes.setWhenGiven at h3
      rw [hb, if_neg (by simp)] at h3
      rw [← Except.ok.inj h3]
      exact ⟨Dict.get_set_self _ _ _, by simp [Dict.has_set]⟩
    obtain ⟨g4, k4⟩ := get_setWhenGiven_of_ne (k := "images") (by decide) h4
    obtain ⟨g5, k5⟩ := get_setWhenGiven_of_ne (k := "images") (by decide) h5
    obtain ⟨g6, k6⟩ := get_setWhenGiven_of_ne (k := "images") (by decide) h6
    rw [g6, g5, g4, k6, k5, k4]
    exact hset
  cases h with
  | post h id now =>
    simp [Store.newRow, Properties.newProperty, Dict.get_set, (hdata _ h).1]
  | put h old now =>
    rw [get_merged_of_ne (by decide), (hdata _ h).2, if_pos rfl, (hdata _ h).1]

/-- The page shows what it reads of the column. -/
theorem get_mallDetail_images {row detail : Row} (h : Properties.mallDetail row = .ok detail) :
    detail.get "images" = Properties.imagesOf row := by
  unfold Properties.mallDetail at h
  obtain ⟨title, _, h⟩ := bind_ok h
  obtain ⟨price, _, h⟩ := bind_ok h
  obtain ⟨stock, _, h⟩ := bind_ok h
  rw [← Except.ok.inj h]
  simp [Properties.columns, Dict.ofList, Dict.get_set]

section
variable {r : Row} {s : String}

theorem imagesOf_json (hr : r.get "images" = .str s) {v : JsVal} (hs : s ≠ "")
    (hv : Json.parse s = .ok v) :
    Properties.imagesOf r = v ∧ initImageList (r.get "images") = v := by
  unfold Properties.imagesOf initImageList
  rw [hr]
  dsimp only
  rw [if_neg hs, if_neg hs, hv]
  exact ⟨rfl, rfl⟩

theorem imagesOf_text (hr : r.get "images" = .str s) {e : JsError} (hs : s ≠ "")
    (he : Json.parse s = .error e) :
    Properties.imagesOf r = .arr ((((Properties.splitCommas s).map trim).filter fun t =>
        decide (t ≠ "")).map .str) ∧
      initImageList (r.get "images") = .arr [.str s] := by
  unfold Properties.imagesOf initImageList
  rw [hr]
  dsimp only
  rw [if_neg hs, if_neg hs, he]
  exact ⟨rfl, rfl⟩

theorem splitCommas_eq (s : String) :
    Properties.splitCommas s = (pieces ',' s.toList).map String.ofList := rfl

theorem splitCommas_of_not_mem {s : String} (h : ',' ∉ s.toList) : Properties.splitCommas s = [s] := by
  rw [splitCommas_eq, pieces_of_not_mem h, List.map_singleton, String.ofList_toList]

theorem mem_trim {s : String} {c : Char} (h : c ∈ (trim s).toList) : c ∈ s.toList := by
  unfold trim trimChars at h
  rw [String.toList_ofList, List.mem_reverse] at h
  have hback := (List.dropWhile_suffix _).subset h
  rw [List.mem_reverse] at hback
  exact (List.dropWhile_suffix _).subset hback

/-- A text between commas is itself alone when it has no comma and no white space at its ends. -/
theorem splitCommas_eq_iff (hs : s ≠ "") :
    ((Properties.splitCommas s).map trim).filter (fun t => decide (t ≠ "")) = [s] ↔
      ',' ∉ s.toList ∧ trim s = s := by
  constructor
  · intro h
    have hmem : s ∈ (Properties.splitCommas s).map trim :=
      List.mem_of_mem_filter (h ▸ List.mem_singleton_self s)
    obtain ⟨piece, hpiece, htrim⟩ := List.mem_map.mp hmem
    rw [splitCommas_eq] at hpiece
    obtain ⟨part, hpart, rfl⟩ := List.mem_map.mp hpiece
    have hcomma : ',' ∉ s.toList := by
      intro hc
      rw [← htrim] at hc
      have hin := mem_trim hc
      rw [String.toList_ofList] at hin
      exact not_mem_of_mem_pieces hpart hin
    refine ⟨hcomma, ?_⟩
    rw [splitCommas_of_not_mem hcomma, List.map_singleton] at hmem
    exact (List.mem_singleton.mp hmem).symm
  · rintro ⟨hcomma, htrim⟩
    rw [splitCommas_of_not_mem hcomma, List.map_singleton, htrim]
    simp [hs]

/-- The list a form sends is read as it was sent, by the page and by the form. -/
theorem decode_submitted {body : Row} {urls : List String}
    (hb : body.get "images" = submittedImages urls) (hsaved : SavedFrom body r) :
    Decode r urls := by
  have htext : submittedImages urls =
      .str (String.ofList (Json.chars (.arr (urls.map .str)))) := by
    unfold submittedImages Json.stringify
    rw [if_neg JsVal.noConfusion]
  rw [htext] at hb
  refine imagesOf_json (images_saved hb hsaved) ?_
    (Json.parse_chars (JsVal.allJson_strings urls))
  rw [ne_eq, String.ofList_eq_empty_iff, Json.chars]
  exact List.cons_ne_nil _ _

/-- Saved or not, the column is read alike exactly when its text has one reading. -/
theorem exists_decode_iff (hr : r.get "images" = .str s) :
    (∃ urls, Decode r urls) ↔ OneReading s := by
  by_cases hs : s = ""
  · refine iff_of_true ⟨[], ?_⟩ (Or.inl hs)
    unfold Decode Properties.imagesOf initImageList
    rw [hr]
    dsimp only
    rw [if_pos hs, if_pos hs]
    exact ⟨rfl, rfl⟩
  · cases hparse : Json.parse s with
    | ok v =>
      obtain ⟨hpage, hform⟩ := imagesOf_json hr hs hparse
      constructor
      · rintro ⟨urls, hurls, _⟩
        rw [hpage] at hurls
        exact Or.inr (Or.inl ⟨urls, by rw [hparse, hurls]⟩)
      · rintro (h | ⟨urls, h⟩ | ⟨⟨e, h⟩, _⟩)
        · exact absurd h hs
        · rw [hparse] at h
          rw [Except.ok.inj h] at hpage hform
          exact ⟨urls, hpage, hform⟩
        · rw [hparse] at h
          cases h
    | error e =>
      obtain ⟨hpage, hform⟩ := imagesOf_text hr hs hparse
      constructor
      · rintro ⟨urls, hurls, hone⟩
        rw [hform] at hone
        have hself : urls.map JsVal.str = [s].map .str := (JsVal.arr.inj hone).symm
        rw [hpage, hself] at hurls
        have hparts := List.map_injective_iff.mpr (fun _ _ h => JsVal.str.inj h)
          (JsVal.arr.inj hurls)
        exact Or.inr (Or.inr ⟨⟨e, hparse⟩, (splitCommas_eq_iff hs).mp hparts⟩)
      · rintro (h | ⟨urls, h⟩ | ⟨_, h⟩)
        · exact absurd h hs
        · rw [hparse] at h
          cases h
        · rw [(splitCommas_eq_iff hs).mpr h] at hpage
          exact ⟨[s], hpage, hform⟩

end

/-- A text the client saves has one meaning exactly when it has one reading. -/
theorem storedImages_iff (body : Row) (s : String) (hs : body.get "images" = .str s) (r : Row)
    (hr : SavedFrom body r) : OneMeaning r ↔ OneReading s := by
  unfold OneMeaning
  rw [exists_decode_iff (images_saved hs hr)]
  exact and_iff_left fun _ _ _ hb hsaved => decode_submitted hb hsaved

/-- The body of a POST with a name and the text of its images. -/
def listing (images : String) : Row :=
  Dict.ofList [("community_name", .str "城南"), ("images", .str images)]

def listed (images : String) : Row :=
  Store.newRow (Properties.newProperty (listing images)) 1 "2025-01-01T00:00:00.000Z"

theorem saved_listed (images : String) : SavedFrom (listing images) (listed images) :=
  .post rfl 1 "2025-01-01T00:00:00.000Z"

theorem oneAddress_oneMeaning : OneMeaning (listed "a.jpg") ↔ OneReading "a.jpg" :=
  storedImages_iff (listing "a.jpg") "a.jpg" rfl (listed "a.jpg") (saved_listed "a.jpg")

/-- The page shows two images, the form reads one address. -/
theorem twoAddresses_not_oneMeaning :
    SavedFrom (listing "a.jpg,b.jpg") (listed "a.jpg,b.jpg") ∧
      ¬ OneMeaning (listed "a.jpg,b.jpg") := by
  refine ⟨saved_listed "a.jpg,b.jpg", ?_⟩
  rintro ⟨⟨urls, hpage, hform⟩, _⟩
  have htwo : Properties.imagesOf (listed "a.jpg,b.jpg") = .arr [.str "a.jpg", .str "b.jpg"] := by
    decide +kernel
  have hone : initImageList ((listed "a.jpg,b.jpg").get "images") =
      .arr [.str "a.jpg,b.jpg"] := by
    decide +kernel
  rw [htwo] at hpage
  rw [hone, ← hpage] at hform
  simp at hform

end JtfpMall.Admin
