import JtfpMall.Lib.Pattern
import JtfpMall.Miniapp.Url

/-!
# Images of rich text

Three patterns go over the text of a page, one after the other: the addresses of images become
absolute, a style that says nothing of the size is completed, and where an image has no style it is
given one. The patterns know nothing of attributes: a name that ends in `-src` is a source to them,
and so is a `src=` inside a value.
-/

namespace JtfpMall.Miniapp.RichText

open JtfpMall.Js
open JtfpMall.Lib
open JtfpMall.Lib.Pattern

/-- `['"]`. -/
def isQuote (c : Char) : Bool := decide (c ∈ "'\"".toList)

/-- `[^>]`. -/
def notEnd (c : Char) : Bool := decide (c ≠ '>')

/-- `[^'"\s>]`. -/
def isAddress (c : Char) : Bool := !isQuote c && !isSpace c && notEnd c

/-- `<img\b`. -/
def imgStart : Pattern (List Char) := do
  let tag ← letters "<img".toList
  boundary
  return tag

/-- `\bsrc=(['"]?)([^'"\s>]+)\2`. -/
def srcHere : Pattern (List Char × Option Char × List Char) := do
  let name ← word "src=".toList
  let quote ← atMostOne (oneOf isQuote)
  let src ← greedySome isAddress
  let _ ← letters quote.toList
  return (name, quote, src)

/-- `(<img\b[^>]*?\bsrc=)(['"]?)([^'"\s>]+)\2`. -/
def srcPattern : Pattern (List Char × Option Char × List Char) := do
  let tag ← imgStart
  let gap ← lazyMany notEnd
  let found ← srcHere
  return (tag ++ gap ++ found.1, found.2)

/-- `\bstyle=`. -/
def styleWord : Pattern (List Char) := word "style=".toList

/-- `\bstyle=(['"])`. -/
def styleOpen : Pattern (List Char × Char) := wordAnd "style=".toList isQuote

/-- `(<img\b[^>]*?\bstyle=)(['"])([\s\S]*?)\2`. -/
def stylePattern : Pattern (List Char × Char × List Char) := do
  let tag ← imgStart
  let gap ← lazyMany notEnd
  let found ← styleOpen
  let style ← lazyMany fun _ => true
  let _ ← letters [found.2]
  return (tag ++ gap ++ found.1, found.2, style)

/-- `<img\b(?![^>]*\bstyle=)`. -/
def styleless : Pattern Unit := do
  let _ ← imgStart
  notHere do
    let _ ← greedyMany notEnd
    styleWord

/-- `/^data:/i`. -/
def isData (raw : List Char) : Bool := "data:".toList.isPrefixOf (raw.map Char.toLower)

def srcReplaced (found : List Char × Option Char × List Char) : List Char :=
  let raw := trimChars found.2.2
  let quote := [found.2.1.getD '"']
  if raw = [] then found.1 ++ quote ++ raw ++ quote
  else if isData raw then found.1 ++ quote ++ raw ++ quote
  else found.1 ++ quote ++ (normalizeImageUrl (some (.ofList raw))).toList ++ quote

def inject : List Char := "max-width:100%;height:auto;display:block;".toList

/-- The style says something of the size. -/
def sized (style : List Char) : Bool :=
  decide ("max-width".toList <:+: style) || decide ("height:auto".toList <:+: style)

/-- `.replace(/;?$/, ';')`. -/
def closed (style : List Char) : List Char :=
  if style.getLast? = some ';' then style else style ++ [';']

/-- `.replace(/\s+/g, ' ')`. -/
def collapse (cs : List Char) : List Char := replaceAll (greedySome isSpace) (fun _ => [' ']) cs

def merged (style : List Char) : List Char := collapse (closed (trimChars style) ++ inject)

def styleReplaced (found : List Char × Char × List Char) : List Char :=
  if sized found.2.2 then found.1 ++ [found.2.1] ++ found.2.2 ++ [found.2.1]
  else found.1 ++ [found.2.1] ++ merged found.2.2 ++ [found.2.1]

def imgStyled : List Char := "<img style=\"".toList ++ inject ++ ['"']

def normalizeHtmlImageSrc : Option String → String
  | none => ""
  | some html =>
    if trimChars html.toList = [] then ""
    else
      let out := replaceAll srcPattern srcReplaced html.toList
      let out := replaceAll stylePattern styleReplaced out
      let out := replaceAll styleless (fun _ => imgStyled) out
      .ofList out

/-- A character of a name. -/
def isNameChar (c : Char) : Bool := !isSpace c && decide (c ∉ "'\"<>/=".toList)

/-- A character of a value. -/
def isValueChar (c : Char) : Bool := decide (c ∉ "'\"<>".toList)

/-- `name="value"`, behind white space. -/
structure Attr where
  space : List Char
  name : List Char
  value : List Char
  space_ne : space ≠ []
  isSpace_space : ∀ c ∈ space, isSpace c = true
  name_ne : name ≠ []
  isNameChar_name : ∀ c ∈ name, isNameChar c = true
  isValueChar_value : ∀ c ∈ value, isValueChar c = true

namespace Attr

def text (a : Attr) : List Char := a.space ++ a.name ++ "=\"".toList ++ (a.value ++ ['"'])

def isSrc (a : Attr) : Bool := decide (SameWord a.name "src".toList)

def isStyle (a : Attr) : Bool := decide (SameWord a.name "style".toList)

def withValue (a : Attr) (value : List Char) (h : ∀ c ∈ value, isValueChar c = true) : Attr :=
  { a with value := value, isValueChar_value := h }

end Attr

/-- A tag that opens or closes, with a slash at its end or without. -/
structure Tag where
  closing : Bool
  name : List Char
  attrs : List Attr
  tail : List Char
  name_ne : name ≠ []
  isNameChar_name : ∀ c ∈ name, isNameChar c = true
  tail_chars : ∀ c ∈ tail, isSpace c = true ∨ c = '/'
  oneSrc : (attrs.filter Attr.isSrc).length ≤ 1
  oneStyle : (attrs.filter Attr.isStyle).length ≤ 1

namespace Tag

def start (t : Tag) : List Char := '<' :: ((if t.closing then ['/'] else []) ++ t.name)

def text (t : Tag) : List Char := t.start ++ t.attrs.flatMap Attr.text ++ t.tail ++ ['>']

def isImg (t : Tag) : Bool := !t.closing && decide (SameWord t.name "img".toList)

end Tag

/-- Text without `<`, or a tag. -/
inductive Piece where
  | text (cs : List Char) (h : '<' ∉ cs)
  | tag (t : Tag)

def Piece.render : Piece → List Char
  | .text cs _ => cs
  | .tag t => t.text

def render (page : List Piece) : List Char := page.flatMap Piece.render

theorem isWordChar_of_isSpace {c : Char} (h : isSpace c = true) : isWordChar c = false := by
  by_contra hword
  rw [Bool.not_eq_false] at hword
  have hnot := ascii_forall (P := fun c => isWordChar c = true → isSpace c = false) (by decide)
    (lt_of_isWordChar hword) hword
  rw [h] at hnot
  cases hnot

/-- A word of letters does not begin at what is no letter. -/
theorem word_nonword {w : Char} {ws : List Char} (hw : isWordChar w.toLower = true) {c : Char}
    (hc : isWordChar c = false) (before : Option Char) (cs : List Char) :
    word (w :: ws) ⟨before, c :: cs⟩ = [] := by
  refine word_eq_nil fun hprefix => ?_
  have hfirst := (List.cons_prefix_cons.mp hprefix).1
  rw [hfirst] at hw
  rw [isWordChar_of_toLower hw] at hc
  cases hc

theorem srcHere_nonword {c : Char} (hc : isWordChar c = false) (before : Option Char)
    (cs : List Char) : srcHere ⟨before, c :: cs⟩ = [] :=
  bind_eq_nil_of_left (word_nonword (by decide) hc before cs) _

theorem styleWord_nonword {c : Char} (hc : isWordChar c = false) (before : Option Char)
    (cs : List Char) : styleWord ⟨before, c :: cs⟩ = [] :=
  word_nonword (by decide) hc before cs

theorem styleOpen_nonword {c : Char} (hc : isWordChar c = false) (before : Option Char)
    (cs : List Char) : styleOpen ⟨before, c :: cs⟩ = [] :=
  bind_eq_nil_of_left (styleWord_nonword hc before cs) _

theorem imgStart_of_ne {c : Char} (hc : c ≠ '<') (before : Option Char) (cs : List Char) :
    imgStart ⟨before, c :: cs⟩ = [] := by
  refine bind_eq_nil_of_left (letters_eq_nil_iff.mpr fun hprefix => ?_) _
  have hfirst := (List.cons_prefix_cons.mp hprefix).1
  exact hc (eq_of_toLower_eq hfirst.symm (by decide))

theorem imgStart_absent {cs : List Char} (h : '<' ∉ cs) (before : Option Char) (ds : List Char) :
    absentIn imgStart ds before cs = true :=
  absentIn_of_forall fun us _ _ hcs => imgStart_of_ne
    (fun hc => h (hcs ▸ hc ▸ List.mem_append_right us List.mem_cons_self)) _ _

namespace Tag

/-- The name goes on behind `img`, if at all, with what is no part of a word. -/
def opens (t : Tag) : Bool :=
  !t.closing && decide ("img".toList <+: t.name.map Char.toLower) &&
    !((t.name.drop 3).head?.any isWordChar)

variable {t : Tag}

theorem isImg_iff : t.isImg = true ↔ t.closing = false ∧ SameWord t.name "img".toList := by
  unfold isImg
  rw [Bool.and_eq_true, Bool.not_eq_true', decide_eq_true_eq]

theorem start_of_isImg (h : t.isImg = true) : t.start = '<' :: t.name := by
  unfold start
  rw [(isImg_iff.mp h).1]
  rfl

theorem start_ne_nil : t.start ≠ [] := List.cons_ne_nil _ _

/-- At an image the pattern goes past the name. -/
theorem imgStart_start (h : t.isImg = true) {c : Char} (hc : isWordChar c = false)
    (before : Option Char) (cs : List Char) :
    imgStart ⟨before, t.start ++ c :: cs⟩ =
      [(t.start, ⟨after before t.start, c :: cs⟩)] := by
  have hname := (isImg_iff.mp h).2
  have hword : SameWord ('<' :: t.name) "<img".toList := congrArg ('<' :: ·) hname
  have hlast : (after before ('<' :: t.name)).any isWordChar = true :=
    isWordChar_after "<im".toList hword (by decide) before
  rw [start_of_isImg h]
  unfold imgStart
  rw [bind_singleton (letters_append hword before (c :: cs)), bind_singleton (boundary_of ?_)]
  · rfl
  · rw [hlast, List.head?_cons, Option.any_some, hc]
    exact Bool.noConfusion

/-- At any other tag, closing ones too, it does not match. -/
theorem imgStart_of_not_opens (h : t.opens = false) {c : Char} (hc : isWordChar c = false)
    (before : Option Char) (cs : List Char) : imgStart ⟨before, t.start ++ c :: cs⟩ = [] := by
  refine bind_eq_nil_iff.mpr fun q hq => ?_
  obtain ⟨us, ds, hsplit, hus, rfl⟩ := mem_letters.mp hq
  have hlast : (after before us).any isWordChar = true :=
    isWordChar_after "<im".toList hus (by decide) before
  refine bind_eq_nil_of_left (if_pos (hlast.trans ?_)) _
  cases us with
  | nil => cases hus
  | cons u us =>
    have hname : SameWord us "img".toList := (List.cons.inj hus).2
    have hout : c ∉ us := not_mem_of_sameWord hname fun hmem => by
      have hword : ∀ d ∈ "img".toList.map Char.toLower, isWordChar d = true :=
        forall_mem_of_all (by decide)
      rw [isWordChar_of_toLower (hword _ hmem)] at hc
      cases hc
    obtain ⟨vs, hvs, rfl⟩ := append_of_avoids (List.cons.inj hsplit).2.symm hout
    unfold opens at h
    cases hclosing : t.closing with
    | true =>
      rw [hclosing, if_pos rfl] at hvs
      cases us with
      | nil => cases hname
      | cons u' us =>
        rw [← (List.cons.inj hvs).1] at hname
        exact absurd (List.cons.inj hname).1 (by decide)
    | false =>
      rw [hclosing, if_neg Bool.false_ne_true, List.nil_append] at hvs
      have hlength : us.length = 3 := by
        rw [← List.length_map Char.toLower, hname]
        rfl
      have hprefix : "img".toList <+: t.name.map Char.toLower := by
        rw [hvs, List.map_append, hname]
        exact List.prefix_append _ _
      rw [hclosing, decide_eq_true hprefix, hvs, ← hlength, List.drop_left] at h
      cases vs with
      | nil => cases h
      | cons v vs => simpa using h

end Tag

theorem isAddress_eq {c : Char} (h : isAddress c = true) :
    isQuote c = false ∧ isSpace c = false ∧ c ≠ '>' := by
  unfold isAddress notEnd at h
  simpa [and_assoc] using h

theorem quote_not_space {c : Char} (h : isQuote c = true) : isSpace c = false := by
  have hall : ∀ d ∈ "'\"".toList, isSpace d = false := forall_mem_of_all (by decide)
  exact hall c (of_decide_eq_true h)

/-- The pattern of an address matches here. -/
def SrcAt (before : Option Char) (cs : List Char) : Prop :=
  before.any isWordChar ≠ cs.head?.any isWordChar ∧
    ∃ (us : List Char) (quote : Option Char) (src ds : List Char),
      cs = us ++ (quote.toList ++ (src ++ (quote.toList ++ ds))) ∧ SameWord us "src=".toList ∧
      (∀ c ∈ quote, isQuote c = true) ∧ src ≠ [] ∧ ∀ c ∈ src, isAddress c = true

theorem sameWord_quote {quote : Option Char} (hquote : ∀ c ∈ quote, isQuote c = true)
    {cs : List Char} (h : SameWord cs quote.toList) : cs = quote.toList := by
  cases quote with
  | none => exact List.map_eq_nil_iff.mp h
  | some k =>
    obtain ⟨c, rfl⟩ : ∃ c, cs = [c] := by
      have hlength := congrArg List.length h
      rw [List.length_map, List.length_map] at hlength
      exact List.length_eq_one_iff.mp hlength
    have hall : ∀ d ∈ "'\"".toList, d.toLower = d ∧ d.isLower = false :=
      forall_mem_of_all (by decide)
    obtain ⟨hlower, hletter⟩ := hall k (of_decide_eq_true (hquote k rfl))
    have hc : c.toLower = k := (List.cons.inj h).1.trans hlower
    rw [eq_of_toLower_eq hc hletter]
    rfl

theorem srcHere_ne_nil_iff {before : Option Char} {cs : List Char} :
    srcHere ⟨before, cs⟩ ≠ [] ↔ SrcAt before cs := by
  constructor
  · intro hsome
    obtain ⟨r, hr⟩ := List.exists_mem_of_ne_nil _ hsome
    obtain ⟨name, hname, hr⟩ := mem_bind.mp hr
    obtain ⟨hboundary, us, es, rfl, hus, rfl⟩ := mem_word.mp hname
    obtain ⟨quote, hquote, hr⟩ := mem_bind.mp hr
    obtain ⟨address, haddress, hr⟩ := mem_bind.mp hr
    obtain ⟨close, hclose, -⟩ := mem_bind.mp hr
    rcases mem_atMostOne.mp hquote with ⟨q, hq, rfl⟩ | rfl
    · obtain ⟨k, fs, rfl, hk, rfl⟩ := mem_oneOf.mp hq
      obtain ⟨src, gs, rfl, hne, hsrc, rfl⟩ := mem_greedySome.mp haddress
      obtain ⟨vs, ds, rfl, hvs, rfl⟩ := mem_letters.mp hclose
      have hquote : ∀ c ∈ some k, isQuote c = true := by rintro c ⟨⟩; exact hk
      rw [sameWord_quote hquote hvs] at hboundary ⊢
      exact ⟨hboundary, us, some k, src, ds, rfl, hus, hquote, hne, hsrc⟩
    · obtain ⟨src, gs, rfl, hne, hsrc, rfl⟩ := mem_greedySome.mp haddress
      exact ⟨hboundary, us, none, src, gs, rfl, hus, (fun c hc => nomatch hc), hne, hsrc⟩
  · rintro ⟨hboundary, us, quote, src, ds, rfl, hus, hquote, hne, hsrc⟩
    have hquoted : (quote, ⟨after (after before us) quote.toList, src ++ (quote.toList ++ ds)⟩) ∈
        atMostOne (oneOf isQuote)
          ⟨after before us, quote.toList ++ (src ++ (quote.toList ++ ds))⟩ := by
      rw [mem_atMostOne]
      cases quote with
      | none => exact Or.inr rfl
      | some k => exact Or.inl ⟨_, mem_oneOf.mpr ⟨k, _, rfl, hquote k rfl, rfl⟩, rfl⟩
    intro hnone
    have hnoQuote := bind_eq_nil_iff.mp hnone _ (mem_word.mpr ⟨hboundary, us, _, rfl, hus, rfl⟩)
    have hnoSrc := bind_eq_nil_iff.mp hnoQuote _ hquoted
    have hnoClose := bind_eq_nil_iff.mp hnoSrc (src, _)
      (mem_greedySome.mpr ⟨src, _, rfl, hne, hsrc, rfl⟩)
    have hnot := bind_eq_nil_iff.mp hnoClose (quote.toList, _)
      (mem_letters.mpr ⟨quote.toList, ds, rfl, rfl, rfl⟩)
    cases hnot

/-- What stands behind an attribute: slashes, then white space or the end of the tag. -/
def Follows (ds : List Char) : Prop :=
  ∃ ts c es, ds = ts ++ c :: es ∧ (∀ d ∈ ts, d = '/') ∧ (isSpace c = true ∨ c = '>')

theorem isAddress_stop {c : Char} (h : isSpace c = true ∨ c = '>') : isAddress c = false := by
  by_contra hc
  obtain ⟨-, hspace, hend⟩ := isAddress_eq (Bool.not_eq_false _ ▸ hc)
  rcases h with h | h
  · rw [h] at hspace
    cases hspace
  · exact hend h

/-- Behind an attribute there is no address that a quote ends. -/
theorem Follows.not_quoted {ds src es : List Char} (h : Follows ds)
    (hsrc : ∀ c ∈ src, isAddress c = true) {k : Char} (hk : isQuote k = true) :
    ds ≠ src ++ k :: es := by
  rintro rfl
  obtain ⟨ts, c, fs, hsplit, hts, hc⟩ := h
  have hout : c ∉ src := fun hmem => by
    have hstop := hsrc c hmem
    rw [isAddress_stop hc] at hstop
    cases hstop
  obtain ⟨vs, rfl, hvs⟩ := append_of_avoids hsplit hout
  cases vs with
  | nil =>
    obtain rfl := (List.cons.inj hvs).1
    rcases hc with hc | rfl
    · rw [quote_not_space hk] at hc
      cases hc
    · exact absurd hk (by decide)
  | cons v vs =>
    obtain rfl := (List.cons.inj hvs).1
    rw [hts k (List.mem_append_right src List.mem_cons_self)] at hk
    exact absurd hk (by decide)

theorem isAddress_quote : isAddress '"' = false := by decide

/-- A match does not go beyond the quote an attribute ends in. -/
theorem SrcAt.of_follows {before : Option Char} {cs ds : List Char}
    (h : SrcAt before (cs ++ '"' :: ds)) (hds : Follows ds) : SrcAt before (cs ++ ['"']) := by
  obtain ⟨hboundary, us, quote, src, es, hsplit, hus, hquote, hne, hsrc⟩ := h
  have hhead : (cs ++ '"' :: ds).head? = (cs ++ ['"']).head? := by cases cs <;> rfl
  rw [hhead] at hboundary
  obtain ⟨vs, rfl, hvs⟩ := append_of_avoids hsplit.symm (not_mem_of_sameWord hus (by decide))
  have hout : '"' ∉ src := fun hmem => by
    have hstop := hsrc _ hmem
    rw [isAddress_quote] at hstop
    cases hstop
  cases quote with
  | none =>
    have hrest : src ++ es = vs ++ '"' :: ds := hvs
    obtain ⟨ws, rfl, -⟩ := append_of_avoids hrest hout
    exact ⟨hboundary, us, none, src, ws ++ ['"'], by simp, hus, hquote, hne, hsrc⟩
  | some k =>
    cases vs with
    | nil =>
      -- the quote at the end opens nothing
      have hrest := (List.cons.inj hvs).2
      exact absurd hrest.symm (hds.not_quoted hsrc (hquote k rfl))
    | cons v vs =>
      obtain rfl := (List.cons.inj hvs).1
      have hrest : src ++ k :: es = vs ++ '"' :: ds := (List.cons.inj hvs).2
      obtain ⟨ws, rfl, hws⟩ := append_of_avoids hrest hout
      obtain ⟨fs, hfs⟩ : ∃ fs, k :: fs = ws ++ ['"'] := by
        cases ws with
        | nil => exact ⟨[], by rw [(List.cons.inj hws).1]; rfl⟩
        | cons w ws => exact ⟨ws ++ ['"'], by rw [(List.cons.inj hws).1]; rfl⟩
      refine ⟨hboundary, us, some k, src, fs, ?_, hus, hquote, hne, hsrc⟩
      simp [← hfs]

/-- `src=` and a character of an address. -/
def srcWord : Pattern (List Char × Char) := wordAnd "src=".toList isAddress

theorem not_quote_of_isValueChar {c : Char} (h : isValueChar c = true) : isQuote c = false := by
  have hout : c ∉ "'\"<>".toList := of_decide_eq_true h
  refine decide_eq_false fun hmem => hout ?_
  have hall : ∀ d ∈ "'\"".toList, d ∈ "'\"<>".toList := forall_mem_of_all (by decide)
  exact hall c hmem

/-- In a value the address is not quoted. -/
theorem srcAt_value_iff {before : Option Char} {cs : List Char}
    (hcs : ∀ c ∈ cs, isValueChar c = true) :
    SrcAt before (cs ++ ['"']) ↔ srcWord ⟨before, cs⟩ ≠ [] := by
  have hquoteless : '"' ∉ cs := fun hmem => absurd (hcs _ hmem) (by decide)
  constructor
  · rintro ⟨hboundary, us, quote, src, es, hsplit, hus, hquote, hne, hsrc⟩
    obtain ⟨vs, rfl, hvs⟩ := append_of_avoids hsplit.symm (not_mem_of_sameWord hus (by decide))
    cases quote with
    | none =>
      cases src with
      | nil => exact absurd rfl hne
      | cons c src =>
        cases vs with
        | nil =>
          have hstop := hsrc c List.mem_cons_self
          rw [(List.cons.inj hvs).1, isAddress_quote] at hstop
          cases hstop
        | cons v vs =>
          obtain ⟨rfl, -⟩ := List.cons.inj hvs
          refine List.ne_nil_of_mem (mem_wordAnd.mpr
            ⟨?_, us, c, vs, rfl, hus, hsrc c List.mem_cons_self, rfl⟩)
          cases us with
          | nil => cases hus
          | cons u us => exact hboundary
    | some k =>
      cases vs with
      | nil =>
        have hlength := congrArg List.length (List.cons.inj hvs).2
        simp at hlength
      | cons v vs =>
        obtain ⟨rfl, -⟩ := List.cons.inj hvs
        have hk := not_quote_of_isValueChar (hcs k (List.mem_append_right us List.mem_cons_self))
        rw [hquote k rfl] at hk
        cases hk
  · intro hsome
    obtain ⟨r, hr⟩ := List.exists_mem_of_ne_nil _ hsome
    obtain ⟨hboundary, us, c, ds, rfl, hus, hc, -⟩ := mem_wordAnd.mp hr
    refine ⟨?_, us, none, [c], ds ++ ['"'], by simp, hus, (fun _ hd => nomatch hd),
      List.cons_ne_nil _ _, ?_⟩
    · cases us with
      | nil => cases hus
      | cons u us => exact hboundary
    · intro d hd
      rw [List.mem_singleton.mp hd]
      exact hc

namespace Attr

/-- A place of the attribute looks like the address of an image. -/
def mentionsSrc (a : Attr) : Bool := !absentIn srcHere [] none a.text

/-- A place of the attribute looks like the name of a style. -/
def mentionsStyle (a : Attr) : Bool := !absentIn styleWord [] none a.text

/-- A place of the attribute looks like the beginning of a style. -/
def opensStyle (a : Attr) : Bool := !absentIn styleOpen [] none a.text

/-- The value is one the pattern of addresses reads. -/
def Addressed (a : Attr) : Prop := a.value ≠ [] ∧ ∀ c ∈ a.value, isSpace c = false

instance (a : Attr) : Decidable a.Addressed :=
  @instDecidableAnd _ _ _ (List.decidableBAll (fun c => isSpace c = false) a.value)

variable {a : Attr}

theorem mentionsSrc_eq_false :
    a.mentionsSrc = false ↔ absentIn srcHere [] none a.text = true := by
  unfold mentionsSrc
  rw [Bool.not_eq_false']

theorem mentionsStyle_eq_false :
    a.mentionsStyle = false ↔ absentIn styleWord [] none a.text = true := by
  unfold mentionsStyle
  rw [Bool.not_eq_false']

theorem opensStyle_eq_false :
    a.opensStyle = false ↔ absentIn styleOpen [] none a.text = true := by
  unfold opensStyle
  rw [Bool.not_eq_false']

theorem text_eq (a : Attr) (ds : List Char) :
    a.text ++ ds = a.space ++ (a.name ++ '=' :: '"' :: (a.value ++ '"' :: ds)) := by
  unfold text
  simp

theorem exists_space (a : Attr) : ∃ c cs, a.space = c :: cs ∧ isWordChar c = false := by
  cases hspace : a.space with
  | nil => exact absurd hspace a.space_ne
  | cons c cs =>
    exact ⟨c, cs, rfl, isWordChar_of_isSpace (a.isSpace_space c (hspace ▸ List.mem_cons_self))⟩

theorem after_space (a : Attr) (before : Option Char) :
    (after before a.space).any isWordChar = false := by
  rcases List.eq_nil_or_concat a.space with hnil | ⟨cs, c, hspace⟩
  · exact absurd hnil a.space_ne
  · rw [List.concat_eq_append] at hspace
    rw [hspace, after_concat]
    exact isWordChar_of_isSpace (a.isSpace_space c (by simp [hspace]))

/-- Where the attribute stands does not matter, if the pattern begins with a word and does not look
behind the last quote. -/
theorem absentIn_text {α : Type} {m : Pattern α} {ds : List Char}
    (hnonword : ∀ c before cs, isWordChar c = false → m ⟨before, c :: cs⟩ = [])
    (hstops : ∀ before us, m ⟨before, us ++ '"' :: []⟩ = [] → m ⟨before, us ++ '"' :: ds⟩ = [])
    (h : absentIn m [] none a.text = true) (before : Option Char) :
    absentIn m ds before a.text = true := by
  obtain ⟨c, cs, hspace, hc⟩ := a.exists_space
  obtain ⟨us, hus⟩ : ∃ us, a.text = c :: us ++ ['"'] := by
    refine ⟨cs ++ a.name ++ "=\"".toList ++ a.value, ?_⟩
    unfold text
    rw [hspace]
    simp
  rw [hus] at h ⊢
  have hends := absentIn_stops hstops h
  rw [List.cons_append, absentIn_cons] at hends ⊢
  exact ⟨hnonword c before _ hc, hends.2⟩

theorem absentIn_src (h : a.mentionsSrc = false) {ds : List Char} (hds : Follows ds)
    (before : Option Char) : absentIn srcHere ds before a.text = true := by
  refine absentIn_text (fun c before cs hc => srcHere_nonword hc before cs)
    (fun before us hnone => ?_) (mentionsSrc_eq_false.mp h) before
  by_contra hsome
  exact srcHere_ne_nil_iff.mpr ((srcHere_ne_nil_iff.mp hsome).of_follows hds) hnone

theorem absentIn_style (h : a.mentionsStyle = false) (ds : List Char) (before : Option Char) :
    absentIn styleWord ds before a.text = true :=
  absentIn_text (fun _ before cs hc => styleWord_nonword hc before cs)
    (fun _ _ hnone => word_stops (by decide) hnone) (mentionsStyle_eq_false.mp h) before

theorem absentIn_styleOpen (h : a.opensStyle = false) (ds : List Char) (before : Option Char) :
    absentIn styleOpen ds before a.text = true :=
  absentIn_text (fun _ before cs hc => styleOpen_nonword hc before cs)
    (fun _ _ hnone => wordAnd_stops (by decide) hnone) (opensStyle_eq_false.mp h) before

theorem opensStyle_of_mentionsStyle (h : a.mentionsStyle = false) : a.opensStyle = false :=
  opensStyle_eq_false.mpr (absentIn_bind (mentionsStyle_eq_false.mp h) _)

theorem word_name {w : Char} {ws : List Char} (hname : SameWord a.name (w :: ws))
    (hw : isWordChar w.toLower = true) {before : Option Char}
    (hbefore : before.any isWordChar = false) (ds : List Char) :
    first (word (w :: ws ++ ['='])) ⟨before, a.name ++ '=' :: ds⟩ =
      some (a.name ++ ['='], ⟨some '=', ds⟩) := by
  have hword : SameWord (a.name ++ ['=']) (w :: ws ++ ['=']) := by
    unfold SameWord
    rw [List.map_append, hname, List.map_append]
  have hshape : a.name ++ '=' :: ds = a.name ++ ['='] ++ ds := by simp
  have hboundary : before.any isWordChar ≠ (a.name ++ ['='] ++ ds).head?.any isWordChar := by
    cases hcs : a.name with
    | nil => exact absurd hcs a.name_ne
    | cons c cs =>
      rw [hcs] at hname
      have hc := isWordChar_of_toLower ((List.cons.inj hname).1 ▸ hw : isWordChar c.toLower = true)
      rw [hbefore, List.cons_append, List.cons_append, List.head?_cons, Option.any_some, hc]
      exact Bool.noConfusion
  unfold first
  rw [hshape, word_append hword hboundary, after_concat]
  rfl

theorem isAddress_of_addressed (h : a.Addressed) : ∀ c ∈ a.value, isAddress c = true := by
  intro c hc
  have hvalue := a.isValueChar_value c hc
  have hend : c ≠ '>' := fun he => absurd (he ▸ hvalue) (by decide)
  unfold isAddress notEnd
  rw [not_quote_of_isValueChar hvalue, h.2 c hc, decide_eq_true hend]
  rfl

theorem first_srcHere (hsrc : a.isSrc = true) (haddressed : a.Addressed) {before : Option Char}
    (hbefore : before.any isWordChar = false) (ds : List Char) :
    first srcHere ⟨before, a.name ++ '=' :: '"' :: (a.value ++ '"' :: ds)⟩ =
      some ((a.name ++ ['='], some '"', a.value), ⟨some '"', ds⟩) := by
  have hopen : first (atMostOne (oneOf isQuote)) ⟨some '=', '"' :: (a.value ++ '"' :: ds)⟩ =
      some (some '"', ⟨some '"', a.value ++ '"' :: ds⟩) := rfl
  have hclose : first (letters ['"']) ⟨after (some '"') a.value, '"' :: ds⟩ =
      some (['"'], ⟨some '"', ds⟩) := rfl
  refine first_bind (word_name (of_decide_eq_true hsrc) (by decide) hbefore _) ?_
  refine first_bind hopen ?_
  refine first_bind (first_greedySome haddressed.1 (isAddress_of_addressed haddressed) ?_ _) ?_
  · rintro c ⟨⟩
    exact isAddress_quote
  · exact first_bind hclose rfl

theorem first_styleOpen (hstyle : a.isStyle = true) {before : Option Char}
    (hbefore : before.any isWordChar = false) (ds : List Char) :
    first styleOpen ⟨before, a.name ++ '=' :: '"' :: ds⟩ =
      some ((a.name ++ ['='], '"'), ⟨some '"', ds⟩) :=
  first_bind (word_name (of_decide_eq_true hstyle) (by decide) hbefore _) rfl

end Attr

end JtfpMall.Miniapp.RichText
