import Mathlib.Data.List.Perm.Basic
import JtfpMall.Admin.PropertyForm
import JtfpMall.Lib.Run

/-!
# The image list of the property form

The form keeps the addresses of the images beside the list of files the uploader shows, and its
callbacks change the one after the uploader has changed the other. A file that was loaded has its
address as its url; a file chosen here has a local one, and the address the server gave it in the
answer.
-/

namespace JtfpMall.Admin

open JtfpMall.Js
open JtfpMall.Lib

/-- The url of a file in the browser's memory. -/
abbrev LocalUrl := {url : String // "blob:".toList <+: url.toList}

/-- What the upload route answers. -/
structure UploadAnswer where
  success : Bool
  url : Option String
deriving DecidableEq

/-- `response.url`, of an answer that says `success`. -/
def UploadAnswer.taken (answer : UploadAnswer) : Option String :=
  if answer.success then answer.url.filter fun url => decide (url ≠ "") else none

/-- A file in the list of the uploader. -/
inductive ShownFile where
  | stored (url : String)
  | uploading (url : LocalUrl)
  | uploaded (url : LocalUrl) (response : UploadAnswer)
deriving DecidableEq

namespace ShownFile

def url : ShownFile → String
  | stored url => url
  | uploading url => url.val
  | uploaded url _ => url.val

def response : ShownFile → Option UploadAnswer
  | uploaded _ response => some response
  | _ => none

/-- The address of the file on the server, once there is one. -/
def serverUrl : ShownFile → Option String
  | stored url => some url
  | uploading _ => none
  | uploaded _ response => response.taken

end ShownFile

/-- The form, as far as its images go, and the list of the uploader. -/
structure ImageForm where
  files : List ShownFile
  imageList : List String
  images : JsVal
  coverUrl : Option String
deriving DecidableEq

/-- What the uploader does: the files are named by their place in its list. -/
inductive UploadEvent where
  | choose (url : LocalUrl)
  | success (i : ℕ) (response : UploadAnswer)
  | error (i : ℕ)
  | remove (i : ℕ)

/-- The images of the request `handleSubmit` makes. -/
structure SubmittedImages where
  images : JsVal
  coverUrl : Option String
deriving DecidableEq

namespace ImageForm

/-- `:limit` of the uploader. -/
def limit : ℕ := 40

/-- The cover of a property without images is its first image. -/
def openedUrls (urls : List String) (coverUrl : Option String) : List String :=
  match urls, coverUrl with
  | [], some cover => if cover = "" then [] else [cover]
  | urls, _ => urls

/-- The addresses of a list of texts. -/
def texts : JsVal → Option (List String)
  | .arr xs => xs.mapM fun x => match x with
    | .str url => some url
    | _ => none
  | _ => none

def loaded (images : JsVal) (coverUrl : Option String) (urls : List String) : ImageForm where
  files := urls.map .stored
  imageList := urls
  images := images
  coverUrl := coverUrl

/-- The form once `fetchDetail` has read the images and the cover of the record. -/
def opened (images : JsVal) (coverUrl : Option String) : Option ImageForm :=
  (texts (initImageList images)).map fun urls =>
    loaded images coverUrl (openedUrls urls coverUrl)

def updateFormImages (form : ImageForm) : ImageForm :=
  { form with
    images := .arr (form.imageList.map .str)
    coverUrl := some (form.imageList.headD "") }

def handleUploadSuccess (response : UploadAnswer) (form : ImageForm) : ImageForm :=
  match response.taken with
  | some url => { form with imageList := form.imageList ++ [url] }.updateFormImages
  | none => form

/-- `uploadFile.url || uploadFile.response?.url`. -/
def removedUrl (file : ShownFile) : String :=
  if file.url ≠ "" then file.url else (file.response.bind fun response => response.url).getD ""

def handleRemoveImage (file : ShownFile) (form : ImageForm) : ImageForm :=
  if removedUrl file ≠ "" ∧ removedUrl file ∈ form.imageList then
    { form with imageList := form.imageList.erase (removedUrl file) }.updateFormImages
  else form

def handleSubmit (form : ImageForm) : SubmittedImages where
  images := submittedImages form.imageList
  coverUrl := match form.imageList with
    | url :: _ => some url
    | [] => form.coverUrl

/-- The uploader keeps the answer with the file, and drops a file whose upload failed. -/
def step (form : ImageForm) : UploadEvent → Option ImageForm
  | .choose url =>
    if form.files.length < limit then some { form with files := form.files ++ [.uploading url] }
    else none
  | .success i response =>
    match form.files[i]? with
    | some (.uploading url) =>
      some ({ form with files := form.files.set i (.uploaded url response) }.handleUploadSuccess
        response)
    | _ => none
  | .error i =>
    match form.files[i]? with
    | some (.uploading _) => some { form with files := form.files.eraseIdx i }
    | _ => none
  | .remove i => form.files[i]?.map fun file =>
      { form with files := form.files.eraseIdx i }.handleRemoveImage file

/-- The addresses of the files shown. -/
def shownUrls (form : ImageForm) : List String := form.files.filterMap ShownFile.serverUrl

/-- The first image is the cover, and there is none without images. -/
def CoverOf (cover : Option String) : List String → Prop
  | [] => cover.getD "" = ""
  | url :: _ => cover = some url

/-- The form submits the addresses of the files shown, each once, and the first as the cover. -/
def SubmitsShown (form : ImageForm) : Prop :=
  ∃ urls, form.handleSubmit.images = submittedImages urls ∧ urls.Perm form.shownUrls ∧
    urls.Nodup ∧ CoverOf form.handleSubmit.coverUrl urls

/-- An upload ends in an address that is not in the list yet; the url of a file that is removed is
its address, or else it has none and its url is not in the list. -/
def Tracks (form : ImageForm) : UploadEvent → Prop
  | .success i response => ∀ url, form.files[i]? = some (.uploading url) →
      ∀ taken, response.taken = some taken → taken ∉ form.imageList
  | .remove i => ∀ file, form.files[i]? = some file →
      file.serverUrl = some file.url ∧ file.url ≠ "" ∨
        file.serverUrl = none ∧ file.url ∉ form.imageList
  | _ => True

/-- The list holds the addresses of the files shown, and the form has no cover without one. -/
structure Kept (form : ImageForm) : Prop where
  shown : form.imageList.Perm form.shownUrls
  once : form.imageList.Nodup
  cover : form.imageList = [] → form.coverUrl.getD "" = ""

theorem submittedImages_inj {us vs : List String} (h : submittedImages us = submittedImages vs) :
    us = vs := by
  unfold submittedImages Json.stringify at h
  rw [if_neg JsVal.noConfusion, if_neg JsVal.noConfusion, JsVal.str.injEq] at h
  have hparse := congrArg Json.parse h
  rw [Json.parse_chars (v := .arr (us.map .str)) (JsVal.allJson_strings us),
    Json.parse_chars (v := .arr (vs.map .str)) (JsVal.allJson_strings vs), Except.ok.injEq, JsVal.arr.injEq] at hparse
  exact List.map_injective_iff.mpr (fun _ _ h => JsVal.str.inj h) hparse

section
variable {form : ImageForm}

theorem submitsShown_iff : form.SubmitsShown ↔ form.Kept := by
  constructor
  · rintro ⟨urls, himages, hshown, honce, hcover⟩
    obtain rfl := submittedImages_inj himages
    refine ⟨hshown, honce, fun hnone => ?_⟩
    unfold handleSubmit at hcover
    rw [hnone] at hcover
    exact hcover
  · rintro ⟨hshown, honce, hcover⟩
    refine ⟨form.imageList, rfl, hshown, honce, ?_⟩
    unfold handleSubmit
    cases hlist : form.imageList with
    | nil => exact hcover hlist
    | cons url urls => rfl

theorem cover_updateFormImages (h : form.updateFormImages.imageList = []) :
    form.updateFormImages.coverUrl.getD "" = "" := by
  unfold updateFormImages at h ⊢
  dsimp only at h ⊢
  rw [h]
  rfl

/-- After an update only the two lists are left to compare. -/
theorem kept_updateFormImages : form.updateFormImages.Kept ↔
    form.imageList.Perm form.shownUrls ∧ form.imageList.Nodup :=
  ⟨fun h => ⟨h.shown, h.once⟩, fun h => ⟨h.1, h.2, cover_updateFormImages⟩⟩

theorem shownUrls_perm {files : List ShownFile} {i : ℕ} {file : ShownFile}
    (h : files[i]? = some file) : (files.filterMap ShownFile.serverUrl).Perm
      (file.serverUrl.toList ++ (files.eraseIdx i).filterMap ShownFile.serverUrl) := by
  obtain ⟨hi, hfile⟩ := List.getElem?_eq_some_iff.mp h
  have hperm := (List.getElem_cons_eraseIdx_perm hi).symm.filterMap ShownFile.serverUrl
  rw [hfile] at hperm
  refine hperm.trans (List.Perm.of_eq ?_)
  rw [List.filterMap_cons]
  cases file.serverUrl <;> rfl

theorem shownUrls_set {files : List ShownFile} {i : ℕ} {url : LocalUrl}
    (h : files[i]? = some (.uploading url)) (response : UploadAnswer) :
    ((files.set i (.uploaded url response)).filterMap ShownFile.serverUrl).Perm
      (response.taken.toList ++ files.filterMap ShownFile.serverUrl) := by
  obtain ⟨hi, _⟩ := List.getElem?_eq_some_iff.mp h
  have hset : (files.set i (.uploaded url response))[i]? = some (.uploaded url response) := by
    rw [List.getElem?_set_self hi]
  have hperm := shownUrls_perm hset
  rw [List.eraseIdx_set_eq] at hperm
  exact hperm.trans ((shownUrls_perm h).symm.append_left response.taken.toList)

theorem LocalUrl.ne_empty (url : LocalUrl) : url.val ≠ "" := by
  intro h
  have hprefix := url.property
  rw [h] at hprefix
  exact absurd hprefix (by decide)

theorem removedUrl_eq (file : ShownFile) : removedUrl file = file.url := by
  unfold removedUrl
  split
  · rfl
  · rename_i hurl
    rw [not_not] at hurl
    cases file with
    | stored url => exact hurl.symm
    | uploading url | uploaded url response => exact absurd hurl (LocalUrl.ne_empty url)

/-- Only a file that was chosen here has no address. -/
theorem url_ne_empty {file : ShownFile} (h : file.serverUrl = none) : file.url ≠ "" := by
  cases file with
  | stored url => cases h
  | uploading url | uploaded url response => exact LocalUrl.ne_empty url

theorem kept_choose (h : form.Kept) (url : LocalUrl) :
    { form with files := form.files ++ [ShownFile.uploading url] }.Kept := by
  refine ⟨h.shown.trans (List.Perm.of_eq ?_), h.once, h.cover⟩
  unfold shownUrls
  rw [List.filterMap_append]
  exact (List.append_nil _).symm

theorem kept_error (h : form.Kept) {i : ℕ} {url : LocalUrl}
    (hi : form.files[i]? = some (.uploading url)) :
    { form with files := form.files.eraseIdx i }.Kept :=
  ⟨h.shown.trans (shownUrls_perm hi), h.once, h.cover⟩

theorem kept_success_iff (h : form.Kept) {i : ℕ} {url : LocalUrl}
    (hi : form.files[i]? = some (.uploading url)) (response : UploadAnswer) :
    ({ form with files := form.files.set i (.uploaded url response) }.handleUploadSuccess
      response).Kept ↔ ∀ taken, response.taken = some taken → taken ∉ form.imageList := by
  have hshown := shownUrls_set hi response
  unfold handleUploadSuccess
  cases hresponse : response.taken with
  | none =>
    rw [hresponse] at hshown
    exact iff_of_true ⟨h.shown.trans hshown.symm, h.once, h.cover⟩ fun _ h => nomatch h
  | some taken =>
    rw [hresponse] at hshown
    simp only [Option.some.injEq, forall_eq']
    rw [kept_updateFormImages]
    have hperm : (form.imageList ++ [taken]).Perm
        ((form.files.set i (.uploaded url response)).filterMap ShownFile.serverUrl) :=
      (List.perm_append_comm.trans (h.shown.append_left [taken])).trans hshown.symm
    have honce : (form.imageList ++ [taken]).Nodup ↔ taken ∉ form.imageList := by
      rw [List.perm_append_comm.nodup_iff, List.singleton_append, List.nodup_cons]
      exact and_iff_left h.once
    exact ⟨fun hkept => honce.mp hkept.2, fun hnew => ⟨hperm, honce.mpr hnew⟩⟩

/-- The list loses the url of the file, and the files shown lose its address. -/
theorem kept_remove_iff (h : form.Kept) {i : ℕ} {file : ShownFile}
    (hi : form.files[i]? = some file) :
    ({ form with files := form.files.eraseIdx i }.handleRemoveImage file).Kept ↔
      file.serverUrl = some file.url ∧ file.url ≠ "" ∨
        file.serverUrl = none ∧ file.url ∉ form.imageList := by
  have hshown := h.shown.trans (shownUrls_perm hi)
  unfold handleRemoveImage
  rw [removedUrl_eq]
  by_cases hmem : file.url ≠ "" ∧ file.url ∈ form.imageList
  · rw [if_pos hmem, kept_updateFormImages]
    have herase := (List.perm_cons_erase hmem.2).symm.trans hshown
    constructor
    · rintro ⟨hperm, _⟩
      have hback := (hperm.symm.append_left [file.url]).trans herase
      have hone := (List.perm_append_right_iff _).mp hback
      exact Or.inl ⟨Option.toList_eq_singleton_iff.mp (List.singleton_perm.mp hone).symm, hmem.1⟩
    · rintro (⟨haddress, _⟩ | ⟨_, hnot⟩)
      · rw [haddress] at herase
        exact ⟨herase.cons_inv, h.once.erase _⟩
      · exact absurd hmem.2 hnot
  · rw [if_neg hmem]
    constructor
    · intro hkept
      have hnone : file.serverUrl = none := by
        have hback := hkept.shown.symm.trans hshown
        rw [← List.nil_append (ImageForm.shownUrls _)] at hback
        exact Option.toList_eq_nil_iff.mp
          (List.nil_perm.mp ((List.perm_append_right_iff _).mp hback))
      exact Or.inr ⟨hnone, fun hin => hmem ⟨url_ne_empty hnone, hin⟩⟩
    · rintro (⟨haddress, hne⟩ | ⟨hnone, _⟩)
      · rw [haddress] at hshown
        exact absurd ⟨hne, hshown.symm.subset List.mem_cons_self⟩ hmem
      · rw [hnone] at hshown
        exact ⟨hshown, h.once, h.cover⟩

/-- Whether a step tracks the files is whether the form submits what is shown after it. -/
theorem tracks_iff (h : form.Kept) (e : UploadEvent) :
    form.Tracks e ↔ ∀ form', form.step e = some form' → form'.SubmitsShown := by
  simp only [submitsShown_iff]
  cases e with
  | choose url =>
    refine iff_of_true trivial fun form' hstep => ?_
    unfold step at hstep
    dsimp only at hstep
    split at hstep
    · rw [← Option.some.inj hstep]
      exact kept_choose h url
    · cases hstep
  | success i response =>
    unfold Tracks step
    dsimp only
    split
    · rename_i url hi
      simp only [hi, Option.some.injEq, forall_eq', ShownFile.uploading.injEq]
      exact (kept_success_iff h hi response).symm
    · rename_i hnot
      exact iff_of_true (fun url hi => absurd hi (hnot url)) fun _ h => nomatch h
  | error i =>
    refine iff_of_true trivial fun form' hstep => ?_
    unfold step at hstep
    dsimp only at hstep
    split at hstep
    · rename_i url hi
      rw [← Option.some.inj hstep]
      exact kept_error h hi
    · cases hstep
  | remove i =>
    unfold Tracks step
    dsimp only
    cases hi : form.files[i]? with
    | none => simp
    | some file =>
      simp only [Option.some.injEq, forall_eq', Option.map_some]
      exact (kept_remove_iff h hi).symm

theorem kept_step (form : ImageForm) (e : UploadEvent) (form' : ImageForm) (h : form.Kept)
    (he : form.Tracks e) (hstep : form.step e = some form') : form'.Kept :=
  submitsShown_iff.mp ((tracks_iff h e).mp he form' hstep)

end

theorem openedUrls_eq_nil {urls : List String} {coverUrl : Option String}
    (h : openedUrls urls coverUrl = []) : coverUrl.getD "" = "" := by
  unfold openedUrls at h
  split at h
  · split at h
    · assumption
    · cases h
  · rename_i hcover
    cases coverUrl with
    | none => rfl
    | some cover => exact absurd rfl (hcover cover h)

theorem kept_opened {images : JsVal} {coverUrl : Option String} {form : ImageForm}
    (hopened : opened images coverUrl = some form) (honce : form.imageList.Nodup) : form.Kept := by
  obtain ⟨urls, _, rfl⟩ := Option.map_eq_some_iff.mp hopened
  refine ⟨List.Perm.of_eq ?_, honce, openedUrls_eq_nil⟩
  unfold loaded shownUrls
  rw [List.filterMap_map]
  exact List.filterMap_some.symm

/-- The form submits the images shown, at every point of a run, exactly when every step of the run
tracks the files. -/
theorem submitsShown_run_iff (images : JsVal) (coverUrl : Option String) (form : ImageForm)
    (hopened : opened images coverUrl = some form) (honce : form.imageList.Nodup)
    (es : List UploadEvent) : Along step Tracks form es ↔
      ∀ fs gs form', es = fs ++ gs → run step form fs = some form' → form'.SubmitsShown :=
  along_iff_forall step (fun _ => submitsShown_iff.mpr) (fun _ e h => tracks_iff h e) kept_step
    (kept_opened hopened honce) es

def picture : LocalUrl := ⟨"blob:picture", by decide⟩

def pictureAnswer : UploadAnswer := ⟨true, some "/uploads/picture.jpg"⟩

/-- A form with one stored image. -/
def stocked : ImageForm :=
  loaded (.str "[\"/uploads/old.jpg\"]") none ["/uploads/old.jpg"]

theorem opened_stocked : opened (.str "[\"/uploads/old.jpg\"]") none = some stocked := by
  decide +kernel

/-- The stored image is removed and another one uploaded. -/
theorem replaced_submitsShown : ∃ form,
    run step stocked [.remove 0, .choose picture, .success 0 pictureAnswer] = some form ∧
      form.SubmitsShown := by
  refine ⟨_, rfl, (submitsShown_run_iff _ none stocked opened_stocked (List.nodup_singleton _)
    [.remove 0, .choose picture, .success 0 pictureAnswer]).mp ⟨?_, ?_⟩ _ []
      _ (List.append_nil _).symm rfl⟩
  · intro file hfile
    rw [← Option.some.inj hfile]
    exact Or.inl ⟨rfl, by decide⟩
  · rintro form hform
    refine ⟨trivial, fun form' hform' => ⟨?_, fun _ _ => trivial⟩⟩
    rw [← Option.some.inj hform] at hform'
    rw [← Option.some.inj hform']
    intro url _ taken htaken
    exact List.not_mem_nil

/-- The image uploaded last is removed, and is submitted all the same. -/
theorem removedImage_submitted : ∃ form, opened (.arr []) none = some form ∧
    form.imageList.Nodup ∧ ∃ form', run step form
        [.choose picture, .success 0 pictureAnswer, .remove 0] = some form' ∧
      form'.files = [] ∧ form'.handleSubmit.coverUrl = some "/uploads/picture.jpg" ∧
      form'.handleSubmit.images = submittedImages ["/uploads/picture.jpg"] ∧
      ¬ form'.SubmitsShown := by
  refine ⟨_, rfl, List.nodup_nil, _, rfl, rfl, rfl, rfl, fun h => ?_⟩
  exact absurd (submitsShown_iff.mp h).shown (by decide)

end ImageForm

end JtfpMall.Admin
