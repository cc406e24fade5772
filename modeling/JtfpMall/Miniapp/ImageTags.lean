import JtfpMall.Miniapp.RichText

/-!
# Image tags

What the three passes do to a page whose tags give the patterns nothing else to find: at every image
one attribute is rewritten in a pass, and all else stays. A second time there is nothing left to do.
-/

namespace JtfpMall.Miniapp.RichText

open JtfpMall.Js
open JtfpMall.Lib
open JtfpMall.Lib.Pattern

/-- `collapse` behind a text that is done. -/
def collapseFrom (before : Option Char) (cs : List Char) : List Char :=
  replaceFrom (greedySome isSpace) (fun _ => [' ']) before 0 cs

theorem collapseFrom_cons {c : Char} (hc : isSpace c = false) (before : Option Char)
    (cs : List Char) : collapseFrom before (c :: cs) = c :: collapseFrom (some c) cs := by
  have hnone : greedySome isSpace ⟨before, c :: cs⟩ = [] :=
    bind_eq_nil_of_left (oneOf_cons_of_neg hc before cs) _
  have habsent : absentIn (greedySome isSpace) cs before [c] = true :=
    absentIn_cons.mpr ⟨hnone, rfl⟩
  exact replaceFrom_absent habsent

theorem collapseFrom_run {us ds : List Char} (hne : us ≠ []) (hus : ∀ c ∈ us, isSpace c = true)
    (hds : ∀ c ∈ ds.head?, isSpace c = false) (before : Option Char) :
    collapseFrom before (us ++ ds) = ' ' :: collapseFrom (after before us) ds :=
  replaceFrom_match hne (first_greedySome hne hus hds before)

/-- A text character by character, and its white space run by run. -/
theorem spaced_induction {P : List Char → Prop} (hnil : P [])
    (hcons : ∀ c cs, isSpace c = false → P cs → P (c :: cs))
    (hrun : ∀ us ds, us ≠ [] → (∀ c ∈ us, isSpace c = true) →
      (∀ c ∈ ds.head?, isSpace c = false) → P ds → P (us ++ ds)) (cs : List Char) : P cs := by
  induction hn : cs.length using Nat.strongRecOn generalizing cs with
  | ind n ih =>
    cases cs with
    | nil => exact hnil
    | cons c cs =>
      cases hc : isSpace c with
      | false => exact hcons c cs hc (ih cs.length (by simp [← hn]) cs rfl)
      | true =>
        have hsplit : c :: cs = (c :: cs).takeWhile isSpace ++ (c :: cs).dropWhile isSpace :=
          List.takeWhile_append_dropWhile.symm
        have hne : (c :: cs).takeWhile isSpace ≠ [] := by
          rw [List.takeWhile_cons_of_pos hc]
          exact List.cons_ne_nil _ _
        have hshort : ((c :: cs).dropWhile isSpace).length < n := by
          have hlength := congrArg List.length hsplit
          rw [List.length_append, hn] at hlength
          have hpos := List.length_pos_iff.mpr hne
          omega
        rw [hsplit]
        exact hrun _ _ hne (fun d hd => List.mem_takeWhile_imp hd) (head?_dropWhile_not isSpace _)
          (ih _ hshort _ rfl)

theorem collapseFrom_before (cs : List Char) :
    ∀ before before', collapseFrom before cs = collapseFrom before' cs := by
  induction cs using spaced_induction with
  | hnil => exact fun _ _ => rfl
  | hcons c cs hc _ =>
    intro before before'
    rw [collapseFrom_cons hc, collapseFrom_cons hc]
  | hrun us ds hne hus hds ih =>
    intro before before'
    rw [collapseFrom_run hne hus hds, collapseFrom_run hne hus hds, ih]

theorem collapse_cons {c : Char} (hc : isSpace c = false) (cs : List Char) :
    collapse (c :: cs) = c :: collapse cs :=
  (collapseFrom_cons hc none cs).trans (congrArg (c :: ·) (collapseFrom_before cs _ _))

theorem collapse_run {us ds : List Char} (hne : us ≠ []) (hus : ∀ c ∈ us, isSpace c = true)
    (hds : ∀ c ∈ ds.head?, isSpace c = false) : collapse (us ++ ds) = ' ' :: collapse ds :=
  (collapseFrom_run hne hus hds none).trans (congrArg (' ' :: ·) (collapseFrom_before ds _ _))

theorem mem_collapse {c : Char} {cs : List Char} (h : c ∈ collapse cs) : c ∈ cs ∨ c = ' ' := by
  induction cs using spaced_induction with
  | hnil => cases h
  | hcons d cs hd ih =>
    rw [collapse_cons hd, List.mem_cons] at h
    rcases h with rfl | h
    · exact Or.inl List.mem_cons_self
    · exact (ih h).imp_left (List.mem_cons_of_mem d)
  | hrun us ds hne hus hds ih =>
    rw [collapse_run hne hus hds, List.mem_cons] at h
    rcases h with rfl | h
    · exact Or.inr rfl
    · exact (ih h).imp_left (List.mem_append_right us)

theorem collapse_append {cs ds : List Char} (hds : ∀ c ∈ ds.head?, isSpace c = false) :
    collapse (cs ++ ds) = collapse cs ++ collapse ds := by
  induction cs using spaced_induction with
  | hnil => rfl
  | hcons c cs hc ih => rw [List.cons_append, collapse_cons hc, collapse_cons hc, ih,
      List.cons_append]
  | hrun us es hne hus hes ih =>
    have hhead : ∀ c ∈ (es ++ ds).head?, isSpace c = false := by
      cases es with
      | nil => exact hds
      | cons e es => exact hes
    rw [List.append_assoc, collapse_run hne hus hhead, collapse_run hne hus hes, ih,
      List.cons_append]

theorem collapse_of_spaceless {cs : List Char} (h : ∀ c ∈ cs, isSpace c = false) :
    collapse cs = cs := by
  induction cs with
  | nil => rfl
  | cons c cs ih =>
    rw [collapse_cons (h c List.mem_cons_self), ih fun d hd => h d (List.mem_cons_of_mem c hd)]

/-- Up to white space a text begins as it did. -/
theorem prefix_of_collapse {us cs : List Char} (hus : ∀ c ∈ us, isSpace c = false)
    (h : us <+: collapse cs) : us <+: cs := by
  induction us generalizing cs with
  | nil => exact List.nil_prefix
  | cons u us ih =>
    induction cs using spaced_induction with
    | hnil => exact absurd (List.prefix_nil.mp h) (List.cons_ne_nil u us)
    | hcons c cs hc _ =>
      rw [collapse_cons hc, List.cons_prefix_cons] at h
      exact List.cons_prefix_cons.mpr
        ⟨h.1, ih (fun d hd => hus d (List.mem_cons_of_mem u hd)) h.2⟩
    | hrun vs ds hne hvs hds _ =>
      rw [collapse_run hne hvs hds, List.cons_prefix_cons] at h
      have hspace := hus u List.mem_cons_self
      rw [h.1] at hspace
      exact absurd hspace (by decide)

theorem toLower_of_isSpace {c : Char} (h : isSpace c = true) : c.toLower = c := by
  refine toLower_of_not_isUpper ?_
  by_contra hupper
  rw [Bool.not_eq_false] at hupper
  have hword : isWordChar c = true := by
    unfold isWordChar Char.isAlphanum Char.isAlpha
    rw [hupper]
    rfl
  rw [isWordChar_of_isSpace h] at hword
  cases hword

theorem not_space_of_sameWord {us : List Char} (h : SameWord us "src=".toList) :
    ∀ c ∈ us, isSpace c = false := by
  intro c hc
  by_contra hspace
  rw [Bool.not_eq_false] at hspace
  refine not_mem_of_sameWord h (fun hmem => ?_) hc
  rw [toLower_of_isSpace hspace] at hmem
  have hall : ∀ d ∈ "src=".toList.map Char.toLower, isSpace d = false :=
    forall_mem_of_all (by decide)
  rw [hall c hmem] at hspace
  cases hspace

theorem srcWord_nonword {c : Char} (hc : isWordChar c = false) (before : Option Char)
    (cs : List Char) : srcWord ⟨before, c :: cs⟩ = [] :=
  bind_eq_nil_of_left (word_nonword (by decide) hc before cs) _

/-- Collapsing white space makes no address. -/
theorem absentIn_collapse {cs : List Char} : ∀ {before before' : Option Char},
    before.any isWordChar = before'.any isWordChar → absentIn srcWord [] before cs = true →
      absentIn srcWord [] before' (collapse cs) = true := by
  induction cs using spaced_induction with
  | hnil => exact fun _ _ => rfl
  | hcons c cs hc ih =>
    intro before before' hbefore habsent
    obtain ⟨hhere, hrest⟩ := absentIn_cons.mp habsent
    rw [collapse_cons hc]
    refine absentIn_cons.mpr ⟨?_, ih rfl hrest⟩
    rw [List.append_nil] at hhere ⊢
    by_contra hsome
    obtain ⟨r, hr⟩ := List.exists_mem_of_ne_nil _ hsome
    obtain ⟨hboundary, us, d, ds, hsplit, hus, hd, -⟩ := mem_wordAnd.mp hr
    -- what is found has no white space in it
    have hspaceless : ∀ e ∈ us ++ [d], isSpace e = false := by
      intro e he
      rcases List.mem_append.mp he with he | he
      · exact not_space_of_sameWord hus e he
      · rw [List.mem_singleton.mp he]
        exact (isAddress_eq hd).2.1
    have hprefix : us ++ [d] <+: collapse (c :: cs) := by
      rw [collapse_cons hc, hsplit]
      exact ⟨ds, by simp⟩
    obtain ⟨es, hes⟩ := prefix_of_collapse hspaceless hprefix
    have hfound : ((us, d), ⟨some d, es⟩) ∈ srcWord ⟨before, c :: cs⟩ :=
      mem_wordAnd.mpr ⟨hbefore ▸ hboundary, us, d, es, by rw [← hes]; simp, hus, hd, rfl⟩
    rw [hhere] at hfound
    cases hfound
  | hrun us ds hne hus hds ih =>
    intro before before' _ habsent
    rw [collapse_run hne hus hds]
    refine absentIn_cons.mpr ⟨srcWord_nonword (by decide) before' _, ih ?_
      (absentIn_append.mp habsent).2⟩
    rcases List.eq_nil_or_concat us with rfl | ⟨vs, v, rfl⟩
    · exact absurd rfl hne
    · rw [List.concat_eq_append] at hus ⊢
      rw [after_concat]
      exact isWordChar_of_isSpace (hus v (by simp))

theorem isSpace_inject : ∀ c ∈ inject, isSpace c = false := forall_mem_of_all (by decide)

theorem head_inject (cs : List Char) : ∀ c ∈ (inject ++ cs).head?, isSpace c = false := by
  rintro c ⟨⟩
  decide

theorem closed_eq (style : List Char) :
    ∃ rest, closed style = style ++ rest ∧ (rest = [] ∨ rest = [';']) ∧
      ∃ front, closed style = front ++ [';'] := by
  unfold closed
  split
  · rename_i hlast
    obtain ⟨front, hfront⟩ := List.getLast?_eq_some_iff.mp hlast
    exact ⟨[], (List.append_nil style).symm, Or.inl rfl, front, hfront⟩
  · exact ⟨[';'], rfl, Or.inr rfl, style, rfl⟩

theorem merged_eq (style : List Char) :
    merged style = collapse (closed (trimChars style)) ++ inject := by
  have hinject := head_inject []
  rw [List.append_nil] at hinject
  unfold merged
  rw [collapse_append hinject, collapse_of_spaceless isSpace_inject]

/-- A style with what was put behind it says something of the size. -/
theorem sized_merged (style : List Char) : sized (merged style) = true := by
  have hwithin : "max-width".toList <:+: inject := by decide
  rw [merged_eq]
  unfold sized
  rw [decide_eq_true (hwithin.trans (List.suffix_append _ inject).isInfix), Bool.true_or]

theorem squeezed_prefix_merged (style : List Char) :
    collapse (trimChars style) <+: merged style := by
  obtain ⟨rest, hclosed, hrest, -⟩ := closed_eq (trimChars style)
  have hhead : ∀ c ∈ (rest ++ inject).head?, isSpace c = false := by
    rcases hrest with rfl | rfl
    · exact head_inject []
    · rintro c ⟨⟩
      decide
  unfold merged
  rw [hclosed, List.append_assoc, collapse_append hhead]
  exact List.prefix_append _ _

theorem mem_trimChars {c : Char} {cs : List Char} (h : c ∈ trimChars cs) : c ∈ cs := by
  unfold trimChars at h
  rw [List.mem_reverse] at h
  exact (List.dropWhile_suffix _).subset
    (List.mem_reverse.mp ((List.dropWhile_suffix _).subset h))

theorem isValueChar_closed {style : List Char} (h : ∀ c ∈ style, isValueChar c = true) :
    ∀ c ∈ closed (trimChars style), isValueChar c = true := by
  intro c hc
  obtain ⟨rest, hclosed, hrest, -⟩ := closed_eq (trimChars style)
  rw [hclosed, List.mem_append] at hc
  rcases hc with hc | hc
  · exact h c (mem_trimChars hc)
  · rcases hrest with rfl | rfl
    · cases hc
    · rw [List.mem_singleton.mp hc]
      decide

theorem isValueChar_merged {style : List Char} (h : ∀ c ∈ style, isValueChar c = true) :
    ∀ c ∈ merged style, isValueChar c = true := by
  have hinject : ∀ c ∈ inject, isValueChar c = true := forall_mem_of_all (by decide)
  intro c hc
  rw [merged_eq, List.mem_append] at hc
  rcases hc with hc | hc
  · rcases mem_collapse hc with hc | rfl
    · exact isValueChar_closed h c hc
    · decide
  · exact hinject c hc

/-- No address comes from what is put behind a style. -/
theorem absentIn_merged {style : List Char} {before : Option Char}
    (h : absentIn srcWord [] before (closed (trimChars style)) = true) :
    absentIn srcWord [] before (merged style) = true := by
  obtain ⟨-, -, -, front, hfront⟩ := closed_eq (trimChars style)
  have hstops : absentIn srcWord inject before (front ++ [';']) = true :=
    absentIn_stops (fun _ _ hnone => wordAnd_stops (by decide) hnone) (hfront ▸ h)
  have hinject : absentIn srcWord [] (some ';') inject = true := by decide +kernel
  refine absentIn_collapse rfl ?_
  rw [hfront, absentIn_append, after_concat, List.append_nil]
  exact ⟨hstops, hinject⟩

/-- The address that is put in the place of one that is read. -/
def srcValue (value : List Char) : List Char :=
  if isData value then value else (normalizeImageUrl (some (.ofList value))).toList

theorem trimmed_of_spaceless {cs : List Char} (h : ∀ c ∈ cs, isSpace c = false) : Trimmed cs :=
  ⟨fun c hc => h c (List.mem_of_mem_head? hc), fun c hc => h c (List.mem_of_mem_getLast? hc)⟩

theorem normalizeImageUrl_spaceless {value : List Char} (hne : value ≠ [])
    (h : ∀ c ∈ value, isSpace c = false) :
    (normalizeImageUrl (some (.ofList value))).toList = absoluteUrl value := by
  unfold normalizeImageUrl
  dsimp only
  rw [String.toList_ofList, (trimmed_of_spaceless h).trimChars_eq, if_neg hne,
    String.toList_ofList]

theorem srcValue_eq {value : List Char} (hne : value ≠ [])
    (h : ∀ c ∈ value, isSpace c = false) :
    srcValue value = if isData value then value else absoluteUrl value := by
  unfold srcValue
  rw [normalizeImageUrl_spaceless hne h]

/-- What is put in front of an address. -/
theorem absoluteUrl_cases (url : List Char) :
    absoluteUrl url = url ∨ absoluteUrl url = "https:".toList ++ url ∨
      (∃ path, url = '/' :: path ∧ absoluteUrl url = apiOrigin ++ url) ∨
      absoluteUrl url = apiOrigin ++ '/' :: url := by
  unfold absoluteUrl
  split
  · exact Or.inl rfl
  · split
    · exact Or.inr (Or.inl rfl)
    · split
      · rename_i hslash
        obtain ⟨path, hpath⟩ := List.isPrefixOf_iff_prefix.mp hslash
        exact Or.inr (Or.inr (Or.inl ⟨path, hpath.symm, rfl⟩))
      · exact Or.inr (Or.inr (Or.inr rfl))

/-- What holds of all characters of an address and of what is put in front of it. -/
theorem forall_srcValue {P : Char → Prop} {value : List Char} (hne : value ≠ [])
    (hspace : ∀ c ∈ value, isSpace c = false)
    (hfront : ∀ c ∈ apiOrigin ++ ['/'], P c) (h : ∀ c ∈ value, P c) :
    ∀ c ∈ srcValue value, P c := by
  have hscheme : ∀ c ∈ "https:".toList, c ∈ apiOrigin ++ ['/'] :=
    forall_mem_of_all (by decide)
  rw [srcValue_eq hne hspace]
  intro c hc
  split at hc
  · exact h c hc
  · rcases absoluteUrl_cases value with heq | heq | ⟨-, -, heq⟩ | heq <;> rw [heq] at hc
    · exact h c hc
    · exact (List.mem_append.mp hc).elim (fun hc => hfront c (hscheme c hc)) (h c)
    · exact (List.mem_append.mp hc).elim
        (fun hc => hfront c (List.mem_append_left _ hc)) (h c)
    · rcases List.mem_append.mp hc with hc | hc
      · exact hfront c (List.mem_append_left _ hc)
      · rcases List.mem_cons.mp hc with rfl | hc
        · exact hfront _ (List.mem_append_right _ List.mem_cons_self)
        · exact h c hc

theorem isSpace_srcValue {value : List Char} (hne : value ≠ [])
    (h : ∀ c ∈ value, isSpace c = false) : ∀ c ∈ srcValue value, isSpace c = false :=
  forall_srcValue (P := fun c => isSpace c = false) hne h
    (forall_mem_of_all (by decide)) h

theorem isValueChar_srcValue {value : List Char} (hne : value ≠ [])
    (hspace : ∀ c ∈ value, isSpace c = false) (h : ∀ c ∈ value, isValueChar c = true) :
    ∀ c ∈ srcValue value, isValueChar c = true :=
  forall_srcValue (P := fun c => isValueChar c = true) hne hspace
    (forall_mem_of_all (by decide)) h

theorem srcValue_ne_nil {value : List Char} (hne : value ≠ [])
    (h : ∀ c ∈ value, isSpace c = false) : srcValue value ≠ [] := by
  rw [srcValue_eq hne h]
  split
  · exact hne
  · exact absoluteUrl_ne_nil hne

theorem srcValue_srcValue {value : List Char} (hne : value ≠ [])
    (h : ∀ c ∈ value, isSpace c = false) : srcValue (srcValue value) = srcValue value := by
  rw [srcValue_eq (srcValue_ne_nil hne h) (isSpace_srcValue hne h), srcValue_eq hne h]
  by_cases hdata : isData value = true
  · rw [if_pos hdata, if_pos hdata]
  · rw [if_neg hdata, absoluteUrl_of_isHttp (isHttp_absoluteUrl value), ite_self]

namespace Attr

/-- The address becomes absolute. -/
def srcFixed (a : Attr) : Attr :=
  if h : a.isSrc = true ∧ a.Addressed then
    a.withValue (srcValue a.value)
      (isValueChar_srcValue h.2.1 h.2.2 a.isValueChar_value)
  else a

/-- The style is completed. -/
def styleFixed (a : Attr) : Attr :=
  if a.isStyle && !sized a.value then
    a.withValue (merged a.value) (isValueChar_merged a.isValueChar_value)
  else a

/-- The style with the semicolon that comes before what is added. -/
def styleClosed (a : Attr) : Attr :=
  a.withValue (closed (trimChars a.value)) (isValueChar_closed a.isValueChar_value)

/-- The style of an image that has none. -/
def injected : Attr where
  space := [' ']
  name := "style".toList
  value := inject
  space_ne := by decide
  isSpace_space := forall_mem_of_all (by decide)
  name_ne := by decide
  isNameChar_name := forall_mem_of_all (by decide)
  isValueChar_value := forall_mem_of_all (by decide)

variable {a : Attr}

theorem not_isStyle_of_isSrc (h : a.isSrc = true) : a.isStyle = false := by
  refine decide_eq_false fun hstyle => ?_
  have hnames := (of_decide_eq_true h).symm.trans hstyle
  exact absurd hnames (by decide)

theorem withValue_eq_self {value : List Char} {h : ∀ c ∈ value, isValueChar c = true}
    (heq : value = a.value) : a.withValue value h = a := by
  subst heq
  rfl

theorem name_srcFixed (a : Attr) : a.srcFixed.name = a.name := by
  unfold srcFixed
  split <;> rfl

theorem name_styleFixed (a : Attr) : a.styleFixed.name = a.name := by
  unfold styleFixed
  split <;> rfl

theorem isSrc_congr {b : Attr} (h : a.name = b.name) : a.isSrc = b.isSrc := by
  unfold isSrc
  rw [h]

theorem isStyle_congr {b : Attr} (h : a.name = b.name) : a.isStyle = b.isStyle := by
  unfold isStyle
  rw [h]

theorem srcFixed_of_pos (hsrc : a.isSrc = true) (haddressed : a.Addressed) :
    a.srcFixed = a.withValue (srcValue a.value)
      (isValueChar_srcValue haddressed.1 haddressed.2 a.isValueChar_value) :=
  dif_pos ⟨hsrc, haddressed⟩

theorem srcFixed_of_neg (h : ¬ (a.isSrc = true ∧ a.Addressed)) : a.srcFixed = a := dif_neg h

theorem addressed_srcFixed (haddressed : a.Addressed) : a.srcFixed.Addressed := by
  unfold srcFixed
  split
  · exact ⟨srcValue_ne_nil haddressed.1 haddressed.2, isSpace_srcValue haddressed.1 haddressed.2⟩
  · exact haddressed

theorem srcFixed_srcFixed (a : Attr) : a.srcFixed.srcFixed = a.srcFixed := by
  by_cases h : a.isSrc = true ∧ a.Addressed
  · have hsrc : a.srcFixed.isSrc = true := (isSrc_congr (name_srcFixed a)).trans h.1
    have hself := srcFixed_of_pos hsrc (addressed_srcFixed h.2)
    have hvalue : a.srcFixed.value = srcValue a.value := by
      rw [srcFixed_of_pos h.1 h.2]
      rfl
    rw [hself]
    exact withValue_eq_self (by rw [hvalue, srcValue_srcValue h.2.1 h.2.2])
  · rw [srcFixed_of_neg h, srcFixed_of_neg h]

theorem styleFixed_of_neg (h : (a.isStyle && !sized a.value) = false) : a.styleFixed = a :=
  if_neg (by rw [h]; exact Bool.false_ne_true)

theorem styleFixed_of_not_isStyle (h : a.isStyle = false) : a.styleFixed = a :=
  styleFixed_of_neg (by rw [h, Bool.false_and])

theorem sized_styleFixed (h : a.isStyle = true) : sized a.styleFixed.value = true := by
  unfold styleFixed
  split
  · exact sized_merged a.value
  · rename_i hneg
    rw [h, Bool.true_and, Bool.not_eq_true', Bool.not_eq_false] at hneg
    exact hneg

theorem styleFixed_styleFixed (a : Attr) : a.styleFixed.styleFixed = a.styleFixed := by
  refine styleFixed_of_neg ?_
  cases h : a.isStyle with
  | true => rw [sized_styleFixed h, Bool.not_true, Bool.and_false]
  | false => rw [isStyle_congr (name_styleFixed a), h, Bool.false_and]

theorem srcFixed_styleFixed (a : Attr) : a.srcFixed.styleFixed.srcFixed = a.srcFixed.styleFixed := by
  cases h : a.isStyle with
  | true =>
    have hsrc : a.srcFixed.styleFixed.isSrc = false := by
      rw [isSrc_congr ((name_styleFixed _).trans (name_srcFixed a))]
      by_contra hsrc
      rw [not_isStyle_of_isSrc (Bool.not_eq_false _ ▸ hsrc)] at h
      cases h
    exact srcFixed_of_neg fun hpos => by rw [hsrc] at hpos; exact Bool.false_ne_true hpos.1
  | false =>
    have hstyle : a.srcFixed.isStyle = false := (isStyle_congr (name_srcFixed a)).trans h
    rw [styleFixed_of_not_isStyle hstyle, srcFixed_srcFixed]

theorem srcFixed_injected : injected.srcFixed = injected :=
  srcFixed_of_neg fun h => absurd h.1 (by decide)

theorem styleFixed_injected : injected.styleFixed = injected := styleFixed_of_neg (by decide)

end Attr

/-- Where no word can begin. -/
theorem absentIn_nonword {α : Type} {m : Pattern α}
    (hnonword : ∀ c before cs, isWordChar c = false → m ⟨before, c :: cs⟩ = []) {cs : List Char}
    (h : ∀ c ∈ cs, isWordChar c = false) (ds : List Char) (before : Option Char) :
    absentIn m ds before cs = true :=
  absentIn_of_forall fun us c _ hcs =>
    hnonword c _ _ (h c (hcs ▸ List.mem_append_right us List.mem_cons_self))

theorem absentIn_value {cs : List Char} (hcs : ∀ c ∈ cs, isValueChar c = true)
    (before : Option Char) :
    absentIn srcHere [] before (cs ++ ['"']) = true ↔ absentIn srcWord [] before cs = true := by
  induction cs generalizing before with
  | nil => exact iff_of_true (absentIn_cons.mpr ⟨srcHere_nonword (by decide) _ _, rfl⟩) rfl
  | cons c cs ih =>
    have hhere : srcHere ⟨before, c :: cs ++ ['"']⟩ = [] ↔ srcWord ⟨before, c :: cs⟩ = [] :=
      not_iff_not.mp (srcHere_ne_nil_iff.trans (srcAt_value_iff hcs))
    rw [List.cons_append, absentIn_cons, absentIn_cons,
      ih (fun d hd => hcs d (List.mem_cons_of_mem c hd)), List.append_nil, List.append_nil]
    exact and_congr_left' hhere

namespace Attr

variable {a : Attr}

/-- The text of an attribute up to its value. -/
def front (a : Attr) : List Char := a.space ++ a.name ++ "=\"".toList

theorem after_front (a : Attr) (before : Option Char) : after before a.front = some '"' := by
  have hends : a.front = a.space ++ a.name ++ ['='] ++ ['"'] := by
    unfold front
    simp
  rw [hends, after_concat]

theorem absentIn_text_iff {α : Type} {m : Pattern α} :
    absentIn m [] none a.text = true ↔ absentIn m (a.value ++ ['"']) none a.front = true ∧
      absentIn m [] (some '"') (a.value ++ ['"']) = true := by
  change absentIn m [] none (a.front ++ (a.value ++ ['"'])) = true ↔ _
  rw [absentIn_append, after_front, List.append_nil]

/-- The name of a style is no source. -/
theorem absentIn_front_of_isStyle (h : a.isStyle = true) (ds : List Char)
    (before : Option Char) : absentIn srcHere ds before a.front = true := by
  have hspace : absentIn srcHere (a.name ++ "=\"".toList ++ ds) before a.space = true :=
    absentIn_nonword (fun _ before cs hc => srcHere_nonword hc before cs)
      (fun c hc => isWordChar_of_isSpace (a.isSpace_space c hc)) _ _
  have hname : a.name.map Char.toLower = ['s', 't', 'y', 'l', 'e'] :=
    (of_decide_eq_true h).trans (by decide)
  have hsrc : "src=".toList.map Char.toLower = ['s', 'r', 'c', '='] := by decide
  have hequal : "=\"".toList = ['=', '"'] := by decide
  have hnone : ∀ (before : Option Char) (cs : List Char),
      ¬ ['s', 'r', 'c', '='] <+: cs.map Char.toLower → srcHere ⟨before, cs⟩ = [] :=
    fun before cs hprefix => bind_eq_nil_of_left (word_eq_nil (hsrc ▸ hprefix)) _
  unfold front
  rw [List.append_assoc, absentIn_append]
  refine ⟨hspace, ?_⟩
  -- at none of its letters, nor at the sign behind it, does `src=` begin
  obtain ⟨s, name, hshape, hs, hname⟩ := List.map_eq_cons_iff.mp hname
  obtain ⟨t, name, rfl, ht, hname⟩ := List.map_eq_cons_iff.mp hname
  obtain ⟨y, name, rfl, hy, hname⟩ := List.map_eq_cons_iff.mp hname
  obtain ⟨l, name, rfl, hl, hname⟩ := List.map_eq_cons_iff.mp hname
  obtain ⟨e, name, rfl, he, hname⟩ := List.map_eq_cons_iff.mp hname
  obtain rfl := List.map_eq_nil_iff.mp hname
  rw [hshape, hequal]
  refine absentIn_cons.mpr ⟨hnone _ _ ?_, absentIn_cons.mpr ⟨hnone _ _ ?_,
    absentIn_cons.mpr ⟨hnone _ _ ?_, absentIn_cons.mpr ⟨hnone _ _ ?_,
    absentIn_cons.mpr ⟨hnone _ _ ?_, absentIn_cons.mpr ⟨hnone _ _ ?_,
    absentIn_cons.mpr ⟨hnone _ _ ?_, rfl⟩⟩⟩⟩⟩⟩⟩ <;>
  simp [List.cons_prefix_cons, hs, ht, hy, hl, he]

/-- The attribute gives the pattern of addresses nothing to find, neither now nor, if it is a style
that is completed, afterwards. -/
def Quiet (a : Attr) : Prop :=
  a.mentionsSrc = false ∧
    (a.isStyle = true → sized a.value = false → a.styleClosed.mentionsSrc = false)

instance (a : Attr) : Decidable a.Quiet := inferInstanceAs (Decidable (_ ∧ _))

theorem mentionsSrc_iff : a.mentionsSrc = false ↔
    absentIn srcHere (a.value ++ ['"']) none a.front = true ∧
      absentIn srcWord [] (some '"') a.value = true := by
  rw [mentionsSrc_eq_false, absentIn_text_iff, absentIn_value a.isValueChar_value]

theorem quiet_styleFixed (h : a.Quiet) : a.styleFixed.mentionsSrc = false := by
  unfold styleFixed
  split
  · rename_i hpos
    rw [Bool.and_eq_true, Bool.not_eq_true'] at hpos
    have hclosed := mentionsSrc_iff.mp (h.2 hpos.1 hpos.2)
    exact mentionsSrc_iff.mpr ⟨absentIn_front_of_isStyle hpos.1 _ _, absentIn_merged hclosed.2⟩
  · exact h.1

theorem ne_nil_own {α : Type} {m : Pattern α} (habsent : absentIn m [] none a.text = true) :
    m ⟨after none a.space, a.name ++ '=' :: '"' :: (a.value ++ ['"'])⟩ = [] := by
  have htext : a.text = a.space ++ (a.name ++ '=' :: '"' :: (a.value ++ ['"'])) := by
    rw [← text_eq, List.append_nil]
  rw [htext, absentIn_append] at habsent
  cases hname : a.name with
  | nil => exact absurd hname a.name_ne
  | cons c cs =>
    rw [hname] at habsent
    have hhere := (absentIn_cons.mp habsent.2).1
    rwa [List.append_nil] at hhere

theorem srcFixed_of_not_mentionsSrc (h : a.mentionsSrc = false) : a.srcFixed = a := by
  refine srcFixed_of_neg fun hpos => ?_
  have hown := first_srcHere hpos.1 hpos.2 (a.after_space none) []
  rw [first, ne_nil_own (mentionsSrc_eq_false.mp h)] at hown
  cases hown

theorem not_isStyle_of_not_opensStyle (h : a.opensStyle = false) : a.isStyle = false := by
  by_contra hstyle
  rw [Bool.not_eq_false] at hstyle
  have hown := first_styleOpen hstyle (a.after_space none) (a.value ++ ['"'])
  rw [first, ne_nil_own (opensStyle_eq_false.mp h)] at hown
  cases hown

theorem styleWord_before {before before' : Option Char}
    (h : before.any isWordChar = before'.any isWordChar) (cs : List Char) :
    styleWord ⟨before, cs⟩ = styleWord ⟨before', cs⟩ := word_before (by decide) h cs

theorem styleOpen_before {before before' : Option Char}
    (h : before.any isWordChar = before'.any isWordChar) (cs : List Char) :
    styleOpen ⟨before, cs⟩ = styleOpen ⟨before', cs⟩ := by
  unfold styleOpen wordAnd
  rw [bind_apply, bind_apply, word_before (by decide) h]

theorem styleWord_of_no_s {cs : List Char} (h : ∀ c ∈ cs, c.toLower ≠ 's') (ds : List Char)
    (before : Option Char) : absentIn styleWord ds before cs = true := by
  have hword : "style=".toList.map Char.toLower = ['s', 't', 'y', 'l', 'e', '='] := by decide
  refine absentIn_of_forall fun us c es hcs => word_eq_nil fun hprefix => ?_
  rw [hword, List.map_cons, List.cons_prefix_cons] at hprefix
  exact h c (hcs ▸ List.mem_append_right us List.mem_cons_self) hprefix.1.symm

theorem styleWord_scheme (ds : List Char) (before : Option Char) :
    absentIn styleWord ds before "https:".toList = true := by
  have hword : "style=".toList.map Char.toLower = ['s', 't', 'y', 'l', 'e', '='] := by decide
  have hsplit : "https:".toList = ['h', 't', 't', 'p'] ++ ['s', ':'] := by decide
  rw [hsplit, absentIn_append]
  refine ⟨styleWord_of_no_s (forall_mem_of_all (by decide)) _ _, absentIn_cons.mpr ⟨word_eq_nil ?_, ?_⟩⟩
  · rw [hword]
    simp [List.cons_prefix_cons]
  · exact styleWord_of_no_s (forall_mem_of_all (by decide)) _ _

theorem styleWord_origin (ds : List Char) (before : Option Char) :
    absentIn styleWord ds before apiOrigin = true := by
  have hsplit : apiOrigin = "https:".toList ++ "//www.jintai.cloud".toList := by decide
  rw [hsplit, absentIn_append]
  exact ⟨styleWord_scheme _ _, styleWord_of_no_s (forall_mem_of_all (by decide)) _ _⟩

/-- What comes in front of an address hides nothing and begins nothing. -/
theorem absentIn_absoluteUrl {α : Type} {m : Pattern α}
    (hnonword : ∀ c before cs, isWordChar c = false → m ⟨before, c :: cs⟩ = [])
    (hbefore : ∀ before before' : Option Char, before.any isWordChar = before'.any isWordChar →
      ∀ cs, m ⟨before, cs⟩ = m ⟨before', cs⟩)
    (hscheme : ∀ ds, absentIn m ds (some '"') "https:".toList = true)
    (horigin : ∀ ds, absentIn m ds (some '"') apiOrigin = true) {url : List Char}
    (h : absentIn m [] (some '"') (url ++ ['"']) = true) :
    absentIn m [] (some '"') (absoluteUrl url ++ ['"']) = true := by
  rcases absoluteUrl_cases url with heq | heq | ⟨path, hpath, heq⟩ | heq <;> rw [heq]
  · exact h
  · rw [List.append_assoc, absentIn_append, List.append_nil]
    refine ⟨hscheme _, ?_⟩
    rw [absentIn_before (hbefore _ (some '"') (by decide))]
    exact h
  · rw [List.append_assoc, absentIn_append, List.append_nil]
    refine ⟨horigin _, ?_⟩
    rw [hpath, List.cons_append, absentIn_cons] at h ⊢
    exact ⟨hnonword '/' _ _ (by decide), h.2⟩
  · rw [List.append_assoc, absentIn_append, List.append_nil]
    refine ⟨horigin _, absentIn_cons.mpr ⟨hnonword '/' _ _ (by decide), ?_⟩⟩
    rw [absentIn_before (hbefore _ (some '"') (by decide))]
    exact h

/-- The part before the value finds what it finds, whatever the value is. -/
theorem absentIn_front {α : Type} {m : Pattern α} {ds ds' : List Char}
    (hstops : ∀ before us, m ⟨before, us ++ '"' :: ds⟩ = [] → m ⟨before, us ++ '"' :: ds'⟩ = [])
    (h : absentIn m ds none a.front = true) : absentIn m ds' none a.front = true := by
  have hends : a.front = a.space ++ a.name ++ ['='] ++ ['"'] := by
    unfold front
    simp
  rw [hends] at h ⊢
  exact absentIn_stops hstops h

theorem absentIn_srcFixed {α : Type} {m : Pattern α}
    (hnonword : ∀ c before cs, isWordChar c = false → m ⟨before, c :: cs⟩ = [])
    (hbefore : ∀ before before' : Option Char, before.any isWordChar = before'.any isWordChar →
      ∀ cs, m ⟨before, cs⟩ = m ⟨before', cs⟩)
    (hscheme : ∀ ds, absentIn m ds (some '"') "https:".toList = true)
    (horigin : ∀ ds, absentIn m ds (some '"') apiOrigin = true)
    (hstops : ∀ ds ds' before us, m ⟨before, us ++ '"' :: ds⟩ = [] →
      m ⟨before, us ++ '"' :: ds'⟩ = [])
    (h : absentIn m [] none a.text = true) : absentIn m [] none a.srcFixed.text = true := by
  unfold srcFixed
  split
  · rename_i hpos
    obtain ⟨hfront, hvalue⟩ := absentIn_text_iff.mp h
    refine absentIn_text_iff.mpr ⟨absentIn_front (hstops _ _) hfront, ?_⟩
    change absentIn m [] (some '"') (srcValue a.value ++ ['"']) = true
    rw [srcValue_eq hpos.2.1 hpos.2.2]
    split
    · exact hvalue
    · exact absentIn_absoluteUrl hnonword hbefore hscheme horigin hvalue
  · exact h

theorem mentionsStyle_srcFixed (h : a.mentionsStyle = false) : a.srcFixed.mentionsStyle = false :=
  mentionsStyle_eq_false.mpr (absentIn_srcFixed (fun _ before cs hc => styleWord_nonword hc before cs)
    (fun _ _ hbefore => styleWord_before hbefore) (fun ds => styleWord_scheme ds _)
    (fun ds => styleWord_origin ds _) (fun _ _ _ _ hnone => word_stops (by decide) hnone)
    (mentionsStyle_eq_false.mp h))

theorem opensStyle_srcFixed (h : a.opensStyle = false) : a.srcFixed.opensStyle = false :=
  opensStyle_eq_false.mpr (absentIn_srcFixed (fun _ before cs hc => styleOpen_nonword hc before cs)
    (fun _ _ hbefore => styleOpen_before hbefore) (fun ds => absentIn_bind (styleWord_scheme ds _) _)
    (fun ds => absentIn_bind (styleWord_origin ds _) _)
    (fun _ _ _ _ hnone => wordAnd_stops (by decide) hnone) (opensStyle_eq_false.mp h))

end Attr

/-- The text of the attributes of a tag. -/
def attrsText (attrs : List Attr) : List Char := attrs.flatMap Attr.text

theorem attrsText_append (pre post : List Attr) :
    attrsText (pre ++ post) = attrsText pre ++ attrsText post := List.flatMap_append

theorem attrsText_cons (a : Attr) (attrs : List Attr) :
    attrsText (a :: attrs) = a.text ++ attrsText attrs := List.flatMap_cons

theorem follows_attrsText (attrs : List Attr) {ds : List Char} (hds : Follows ds) :
    Follows (attrsText attrs ++ ds) := by
  cases attrs with
  | nil => exact hds
  | cons a attrs =>
    obtain ⟨c, cs, hspace, -⟩ := a.exists_space
    have hc := a.isSpace_space c (hspace ▸ List.mem_cons_self)
    rw [attrsText_cons, List.append_assoc, Attr.text_eq, hspace]
    exact ⟨[], c, _, rfl, (fun _ hd => nomatch hd), Or.inl hc⟩

theorem absentIn_attrsText {α : Type} {m : Pattern α} {attrs : List Attr}
    (h : ∀ a ∈ attrs, ∀ ds, Follows ds → ∀ before, absentIn m ds before a.text = true)
    {ds : List Char} (hds : Follows ds) (before : Option Char) :
    absentIn m ds before (attrsText attrs) = true := by
  induction attrs generalizing before with
  | nil => rfl
  | cons a attrs ih =>
    rw [attrsText_cons, absentIn_append]
    exact ⟨h a List.mem_cons_self _ (follows_attrsText attrs hds) before,
      ih (fun b hb => h b (List.mem_cons_of_mem a hb)) _⟩

theorem notEnd_of_isSpace {c : Char} (h : isSpace c = true) : notEnd c = true := by
  refine decide_eq_true fun he => ?_
  rw [he] at h
  exact absurd h (by decide)

/-- The characters of the text of an attribute. -/
theorem Attr.mem_text {a : Attr} {c : Char} (h : c ∈ a.text) :
    isSpace c = true ∨ isNameChar c = true ∨ isValueChar c = true ∨ c = '=' ∨ c = '"' := by
  unfold Attr.text at h
  simp only [List.mem_append, List.mem_singleton] at h
  rcases h with ((h | h) | h) | h | h
  · exact Or.inl (a.isSpace_space c h)
  · exact Or.inr (Or.inl (a.isNameChar_name c h))
  · have hall : ∀ d ∈ "=\"".toList, d = '=' ∨ d = '"' := forall_mem_of_all (by decide)
    exact Or.inr (Or.inr (Or.inr (hall c h)))
  · exact Or.inr (Or.inr (Or.inl (a.isValueChar_value c h)))
  · exact Or.inr (Or.inr (Or.inr (Or.inr h)))

theorem Attr.not_angle_text {a : Attr} {c : Char} (h : c ∈ a.text) : c ≠ '<' ∧ c ≠ '>' := by
  constructor <;> rintro rfl <;> exact absurd (Attr.mem_text h) (by decide)

theorem not_angle_attrsText {attrs : List Attr} {c : Char} (h : c ∈ attrsText attrs) :
    c ≠ '<' ∧ c ≠ '>' := by
  obtain ⟨a, -, hc⟩ := List.mem_flatMap.mp h
  exact Attr.not_angle_text hc

namespace Tag

variable {t : Tag}

/-- What stands behind the name. -/
def behind (t : Tag) : List Char := attrsText t.attrs ++ (t.tail ++ ['>'])

theorem text_eq (t : Tag) : t.text = t.start ++ t.behind := by
  unfold text behind attrsText
  simp only [List.append_assoc]

theorem tail_nonword (t : Tag) : ∀ c ∈ t.tail, isWordChar c = false := by
  intro c hc
  rcases t.tail_chars c hc with hspace | rfl
  · exact isWordChar_of_isSpace hspace
  · decide

theorem follows_tail (t : Tag) (ds : List Char) : Follows (t.tail ++ '>' :: ds) := by
  have hchars := t.tail_chars
  generalize t.tail = tail at hchars
  induction tail with
  | nil => exact ⟨[], '>', ds, rfl, (fun _ hd => nomatch hd), Or.inr rfl⟩
  | cons c tail ih =>
    rcases hchars c List.mem_cons_self with hspace | rfl
    · exact ⟨[], c, _, rfl, (fun _ hd => nomatch hd), Or.inl hspace⟩
    · obtain ⟨ts, d, es, hsplit, hts, hd⟩ := ih fun e he => hchars e (List.mem_cons_of_mem _ he)
      refine ⟨'/' :: ts, d, es, congrArg ('/' :: ·) hsplit, ?_, hd⟩
      rintro e (_ | ⟨_, he⟩)
      · rfl
      · exact hts e he

/-- Behind the name a word does not go on. -/
theorem exists_behind (t : Tag) (ds : List Char) :
    ∃ c cs, t.behind ++ ds = c :: cs ∧ isWordChar c = false := by
  unfold behind
  cases hattrs : t.attrs with
  | nil =>
    cases htail : t.tail with
    | nil => exact ⟨'>', ds, rfl, by decide⟩
    | cons c cs =>
      exact ⟨c, _, rfl, t.tail_nonword c (htail ▸ List.mem_cons_self)⟩
  | cons a attrs =>
    obtain ⟨c, cs, hspace, hc⟩ := a.exists_space
    rw [attrsText_cons, List.append_assoc, List.append_assoc, Attr.text_eq, hspace]
    exact ⟨c, _, rfl, hc⟩

theorem not_open_behind (t : Tag) : '<' ∉ t.behind := by
  unfold behind
  rw [List.mem_append, List.mem_append]
  rintro (h | h | h)
  · exact (not_angle_attrsText h).1 rfl
  · rcases t.tail_chars _ h with hspace | h
    · exact absurd hspace (by decide)
    · exact absurd h (by decide)
  · exact absurd h (by decide)

theorem not_open_name (t : Tag) : '<' ∉ (if t.closing then ['/'] else []) ++ t.name := by
  rw [List.mem_append]
  rintro (h | h)
  · split at h
    · exact absurd h (by decide)
    · cases h
  · exact absurd (t.isNameChar_name _ h) (by decide)

/-- With the attributes changed one by one, each keeping its name. -/
def mapAttrs (g : Attr → Attr) (hg : ∀ a, (g a).name = a.name) (t : Tag) : Tag :=
  { t with
    attrs := t.attrs.map g
    oneSrc := by
      have hsame : Attr.isSrc ∘ g = Attr.isSrc := funext fun a => Attr.isSrc_congr (hg a)
      rw [List.filter_map, List.length_map, hsame]
      exact t.oneSrc
    oneStyle := by
      have hsame : Attr.isStyle ∘ g = Attr.isStyle :=
        funext fun a => Attr.isStyle_congr (hg a)
      rw [List.filter_map, List.length_map, hsame]
      exact t.oneStyle }

end Tag

/-- The pattern looks for images. -/
def Images {α : Type} (m : Pattern α) : Prop := ∃ k, m = imgStart >>= k

theorem Images.absentIn {α : Type} {m : Pattern α} (h : Images m) {cs : List Char}
    (hcs : '<' ∉ cs) (before : Option Char) (ds : List Char) : absentIn m ds before cs = true := by
  obtain ⟨k, rfl⟩ := h
  exact absentIn_bind (imgStart_absent hcs before ds) k

theorem images_srcPattern : Images srcPattern := ⟨_, rfl⟩

theorem images_stylePattern : Images stylePattern := ⟨_, rfl⟩

theorem images_styleless : Images styleless := ⟨_, rfl⟩

section
variable {α : Type} {m : Pattern α} {f : α → List Char}

/-- The pass turns the first tag into the second, whatever is around it. -/
def Passes (m : Pattern α) (f : α → List Char) (t t' : Tag) : Prop :=
  ∀ before ds, replaceFrom m f before 0 (t.text ++ ds) =
    t'.text ++ replaceFrom m f (some '>') 0 ds

theorem after_behind (t : Tag) (before : Option Char) : after before t.behind = some '>' := by
  unfold Tag.behind
  rw [← List.append_assoc, after_concat]

/-- Where the pattern does not match a tag stays. -/
theorem passes_self (hm : Images m) {t : Tag}
    (h : ∀ before ds, m ⟨before, t.start ++ (t.behind ++ ds)⟩ = []) : Passes m f t t := by
  intro before ds
  have hbody : '<' ∉ (if t.closing then ['/'] else []) ++ t.name ++ t.behind := by
    rw [List.mem_append]
    exact fun hmem => hmem.elim t.not_open_name t.not_open_behind
  have habsent : absentIn m ds before t.text = true := by
    have hhere := h before ds
    rw [← List.append_assoc] at hhere
    rw [Tag.text_eq]
    exact absentIn_cons.mpr ⟨hhere, hm.absentIn hbody _ _⟩
  rw [replaceFrom_absent habsent]
  conv_lhs => rw [Tag.text_eq, after_append, after_behind]
  rw [Tag.text_eq]

/-- A match that ends in front of the last part of a tag. -/
theorem passes_match (hm : Images m) {t t' : Tag} {used rest : List Char} {a : α}
    (htext : t.text = used ++ (rest ++ ['>'])) (hne : used ≠ []) (hrest : '<' ∉ rest)
    (htext' : t'.text = f a ++ (rest ++ ['>']))
    (h : ∀ before ds, ∃ behind,
      first m ⟨before, used ++ (rest ++ '>' :: ds)⟩ = some (a, ⟨behind, rest ++ '>' :: ds⟩)) :
    Passes m f t t' := by
  intro before ds
  obtain ⟨behind, hfirst⟩ := h before ds
  have hends : rest ++ '>' :: ds = rest ++ ['>'] ++ ds := by simp
  have hno : '<' ∉ rest ++ ['>'] := by
    rw [List.mem_append]
    exact fun hmem => hmem.elim hrest (by decide)
  rw [htext, htext', List.append_assoc, ← hends, replaceFrom_match hne hfirst, hends,
    replaceFrom_absent (hm.absentIn hno _ _), after_concat]
  simp only [List.append_assoc]

end

section
variable {β : Type} {k : List Char → List Char → Pattern β} {t : Tag}

/-- Looking in an image for what comes behind some of its text. -/
theorem first_scan (himg : t.isImg = true) {cs rest : List Char}
    (hcs : ∀ c ∈ cs, notEnd c = true) (hshape : ∃ c ds, cs ++ rest = c :: ds ∧ isWordChar c = false)
    {before : Option Char}
    (habsent : ∀ gap, absentIn (k t.start gap) rest (after before t.start) cs = true)
    {r : β × Place}
    (h : first (k t.start cs) ⟨after (after before t.start) cs, rest⟩ = some r) :
    first (imgStart >>= fun tag => lazyMany notEnd >>= k tag) ⟨before, t.start ++ (cs ++ rest)⟩ =
      some r := by
  obtain ⟨c, ds, hc, hword⟩ := hshape
  have hstart := Tag.imgStart_start himg hword before ds
  rw [← hc] at hstart
  unfold first
  rw [bind_singleton hstart, lazyMany_skip hcs habsent]
  refine first_lazyMany ?_
  rw [List.append_nil]
  exact h

/-- Nothing is found up to the end of the tag. -/
theorem scan_eq_nil (himg : t.isImg = true) {ds : List Char} {before : Option Char}
    (habsent : ∀ gap, absentIn (k t.start gap) ('>' :: ds) (after before t.start)
      (attrsText t.attrs ++ t.tail) = true)
    (hend : ∀ gap before, k t.start gap ⟨before, '>' :: ds⟩ = []) :
    (imgStart >>= fun tag => lazyMany notEnd >>= k tag) ⟨before, t.start ++ (t.behind ++ ds)⟩ =
      [] := by
  have hsplit : t.behind ++ ds = attrsText t.attrs ++ t.tail ++ '>' :: ds := by
    unfold Tag.behind
    simp
  obtain ⟨c, es, hc, hword⟩ := t.exists_behind ds
  have hstart := Tag.imgStart_start himg hword before es
  have hcs : ∀ c ∈ attrsText t.attrs ++ t.tail, notEnd c = true := by
    intro c hc
    rcases List.mem_append.mp hc with hc | hc
    · exact decide_eq_true (not_angle_attrsText hc).2
    · rcases t.tail_chars c hc with hspace | rfl
      · exact notEnd_of_isSpace hspace
      · decide
  rw [← hc] at hstart
  rw [bind_singleton hstart, hsplit, lazyMany_skip hcs habsent,
    bind_singleton (lazyMany_stop (by rintro c ⟨⟩; decide)), List.append_nil]
  exact hend _ _

/-- At other tags nothing is found. -/
theorem images_other {α : Type} {m : Pattern α} (hm : Images m) (hopens : t.opens = false)
    (before : Option Char) (ds : List Char) : m ⟨before, t.start ++ (t.behind ++ ds)⟩ = [] := by
  obtain ⟨k, rfl⟩ := hm
  obtain ⟨c, es, hc, hword⟩ := t.exists_behind ds
  rw [hc]
  exact bind_eq_nil_of_left (Tag.imgStart_of_not_opens hopens hword before es) k

end

end JtfpMall.Miniapp.RichText
