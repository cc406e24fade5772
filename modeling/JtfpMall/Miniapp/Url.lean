import JtfpMall.Js.Trim

/-!
# Addresses of images

An address becomes absolute, with the origin of the interface in front where it has none. What is
absolute stays; the placeholder of an absent address is rooted, so a second pass does not leave it.
-/

namespace JtfpMall.Miniapp

open JtfpMall.Js

/-- `getApiOrigin()`: the origin of `BASE_URL`, and what is returned without a `URL` class. -/
def apiOrigin : List Char := "https://www.jintai.cloud".toList

def placeholder : String := "/assets/images/tab-home.png"

/-- `/^https?:\/\//i`. -/
def isHttp (url : List Char) : Bool :=
  "http://".toList.isPrefixOf (url.map Char.toLower) ||
    "https://".toList.isPrefixOf (url.map Char.toLower)

/-- What becomes of an address that is not empty. -/
def absoluteUrl (url : List Char) : List Char :=
  if isHttp url then url
  else if "//".toList.isPrefixOf url then "https:".toList ++ url
  else if "/".toList.isPrefixOf url then apiOrigin ++ url
  else apiOrigin ++ ('/' :: url)

/-- `normalizeImageUrl`; neither `null` nor `undefined` is an address. -/
def normalizeImageUrl : Option String → String
  | none => placeholder
  | some input =>
    let url := trimChars input.toList
    if url = [] then placeholder else String.ofList (absoluteUrl url)

theorem isHttp_https (rest : List Char) : isHttp ("https://".toList ++ rest) = true := by
  have hlower : "https://".toList.map Char.toLower = "https://".toList := by decide +kernel
  unfold isHttp
  rw [List.map_append, hlower, Bool.or_eq_true]
  exact Or.inr (List.isPrefixOf_iff_prefix.mpr (List.prefix_append _ _))

theorem isHttp_apiOrigin (rest : List Char) : isHttp (apiOrigin ++ rest) = true := by
  have horigin : apiOrigin = "https://".toList ++ "www.jintai.cloud".toList := by decide +kernel
  rw [horigin, List.append_assoc]
  exact isHttp_https _

theorem isHttp_absoluteUrl (url : List Char) : isHttp (absoluteUrl url) = true := by
  unfold absoluteUrl
  split
  · assumption
  · split
    · rename_i hslashes
      obtain ⟨rest, rfl⟩ := List.isPrefixOf_iff_prefix.mp hslashes
      have hscheme : "https:".toList ++ "//".toList = "https://".toList := by decide +kernel
      rw [← List.append_assoc, hscheme]
      exact isHttp_https rest
    · split
      · exact isHttp_apiOrigin _
      · exact isHttp_apiOrigin _

theorem absoluteUrl_of_isHttp {url : List Char} (h : isHttp url = true) : absoluteUrl url = url :=
  if_pos h

/-- What is put in front leaves the end of the address. -/
theorem absoluteUrl_append (url : List Char) : ∃ front, absoluteUrl url = front ++ url ∧
    (front = [] ∨ ∃ rest, front = 'h' :: rest) := by
  unfold absoluteUrl
  split
  · exact ⟨[], rfl, Or.inl rfl⟩
  · split
    · exact ⟨_, rfl, Or.inr ⟨"ttps:".toList, by decide +kernel⟩⟩
    · have horigin : apiOrigin = 'h' :: "ttps://www.jintai.cloud".toList := by decide +kernel
      split
      · exact ⟨_, rfl, Or.inr ⟨_, horigin⟩⟩
      · refine ⟨apiOrigin ++ ['/'], by rw [List.append_assoc]; rfl,
          Or.inr ⟨"ttps://www.jintai.cloud".toList ++ ['/'], ?_⟩⟩
        rw [horigin]
        rfl

theorem absoluteUrl_ne_nil {url : List Char} (h : url ≠ []) : absoluteUrl url ≠ [] := by
  obtain ⟨front, hfront, -⟩ := absoluteUrl_append url
  rw [hfront]
  exact List.append_ne_nil_of_right_ne_nil front h

theorem trimmed_absoluteUrl {url : List Char} (h : Trimmed url) (hne : url ≠ []) :
    Trimmed (absoluteUrl url) := by
  obtain ⟨front, hfront, hfirst⟩ := absoluteUrl_append url
  rw [hfront]
  refine h.append hne fun c hc => ?_
  rcases hfirst with rfl | ⟨rest, rfl⟩
  · cases hc
  · cases hc
    decide

/-- An address that has been made absolute stays. -/
theorem normalizeImageUrl_absoluteUrl {url : List Char} (h : Trimmed url) (hne : url ≠ []) :
    normalizeImageUrl (some (String.ofList (absoluteUrl url))) = String.ofList (absoluteUrl url) := by
  unfold normalizeImageUrl
  dsimp only
  rw [String.toList_ofList, (trimmed_absoluteUrl h hne).trimChars_eq,
    if_neg (absoluteUrl_ne_nil hne), absoluteUrl_of_isHttp (isHttp_absoluteUrl url)]

theorem normalizeImageUrl_placeholder :
    normalizeImageUrl (some placeholder) = "https://www.jintai.cloud/assets/images/tab-home.png" := by
  decide +kernel

/-- The input is a text that is not blank. -/
def Named (input : Option String) : Prop := ∃ s, input = some s ∧ ∃ c ∈ s.toList, isSpace c = false

theorem normalizeImageUrl_cases (input : Option String) :
    (¬ Named input ∧ normalizeImageUrl input = placeholder) ∨
    (Named input ∧ ∃ url, Trimmed url ∧ url ≠ [] ∧
      normalizeImageUrl input = String.ofList (absoluteUrl url)) := by
  cases input with
  | none =>
    refine Or.inl ⟨?_, rfl⟩
    rintro ⟨s, hs, -⟩
    cases hs
  | some s =>
    by_cases hblank : trimChars s.toList = []
    · refine Or.inl ⟨?_, if_pos hblank⟩
      rintro ⟨s', hs', c, hc, hspace⟩
      obtain rfl := Option.some.inj hs'
      rw [trimChars_eq_nil_iff.mp hblank c hc] at hspace
      cases hspace
    · refine Or.inr ⟨⟨s, rfl, ?_⟩, trimChars s.toList, trimmed_trimChars _, hblank, if_neg hblank⟩
      by_contra hno
      refine hblank (trimChars_eq_nil_iff.mpr fun c hc => ?_)
      by_contra hspace
      exact hno ⟨c, hc, Bool.eq_false_iff.mpr hspace⟩

/-- **Idempotence.** A second pass changes nothing exactly when there was an address. -/
theorem normalizeImageUrl_twice_iff (input : Option String) :
    normalizeImageUrl (some (normalizeImageUrl input)) = normalizeImageUrl input ↔ Named input := by
  rcases normalizeImageUrl_cases input with ⟨hblank, hplaceholder⟩ | ⟨hnamed, url, hurl, hne, hurl'⟩
  · rw [hplaceholder, normalizeImageUrl_placeholder]
    exact iff_of_false (by decide) hblank
  · rw [hurl']
    exact iff_of_true (normalizeImageUrl_absoluteUrl hurl hne) hnamed

/-- The placeholder of an absent cover does not survive the cart page. -/
theorem absentCover_moves :
    normalizeImageUrl (some (normalizeImageUrl none)) ≠ normalizeImageUrl none := by
  decide +kernel

end JtfpMall.Miniapp
