import JtfpMall.Miniapp.ImageTags

/-!
# Pages with images

The three passes in their order over every image of a page. What a pass finds in a tag depends on the
attributes in front of the one it is meant for: they have to be such that the pattern does not stop
at them.
-/

namespace JtfpMall.Miniapp.RichText

open JtfpMall.Js
open JtfpMall.Lib
open JtfpMall.Lib.Pattern

theorem Attr.text_within {a : Attr} {attrs : List Attr} (h : a ∈ attrs) :
    a.text <:+: attrsText attrs := by
  obtain ⟨pre, post, rfl⟩ := List.append_of_mem h
  rw [attrsText_append, attrsText_cons]
  exact ⟨attrsText pre, attrsText post, by rw [List.append_assoc]⟩

/-- What stands before the name of an attribute. -/
def upTo (pre : List Attr) (a : Attr) : List Char := attrsText pre ++ a.space

section
variable {t : Tag} {pre post : List Attr} {a : Attr}

theorem behind_split (hattrs : t.attrs = pre ++ a :: post) (ds : List Char) :
    t.behind ++ ds = upTo pre a ++
      (a.name ++ '=' :: '"' :: (a.value ++ '"' :: (attrsText post ++ t.tail ++ '>' :: ds))) := by
  unfold Tag.behind upTo
  rw [hattrs, attrsText_append, attrsText_cons]
  simp only [List.append_assoc, Attr.text_eq, List.cons_append, List.nil_append]

theorem absentIn_upTo {α : Type} {m : Pattern α}
    (hnonword : ∀ c before cs, isWordChar c = false → m ⟨before, c :: cs⟩ = [])
    (hpre : ∀ b ∈ pre, ∀ ds, Follows ds → ∀ before, absentIn m ds before b.text = true)
    (ds : List Char) (before : Option Char) : absentIn m ds before (upTo pre a) = true := by
  obtain ⟨c, cs, hspace, -⟩ := a.exists_space
  have hc := a.isSpace_space c (hspace ▸ List.mem_cons_self)
  have hfollows : Follows (a.space ++ ds) := by
    rw [hspace]
    exact ⟨[], c, _, rfl, (fun _ hd => nomatch hd), Or.inl hc⟩
  unfold upTo
  rw [absentIn_append]
  exact ⟨absentIn_attrsText hpre hfollows before,
    absentIn_nonword hnonword (fun d hd => isWordChar_of_isSpace (a.isSpace_space d hd)) _ _⟩

theorem notEnd_upTo : ∀ c ∈ upTo pre a, notEnd c = true := by
  intro c hc
  rcases List.mem_append.mp hc with hc | hc
  · exact decide_eq_true (not_angle_attrsText hc).2
  · exact notEnd_of_isSpace (a.isSpace_space c hc)

theorem after_upTo (pre : List Attr) (a : Attr) (before : Option Char) :
    (after before (upTo pre a)).any isWordChar = false := by
  unfold upTo
  rw [after_append]
  exact a.after_space _

/-- A pass gets to the first attribute at which its pattern can begin. -/
theorem first_hit {α β : Type} {m : Pattern α} {k : List Char → List Char → α → Pattern β}
    (himg : t.isImg = true) (hattrs : t.attrs = pre ++ a :: post)
    (hnonword : ∀ c before cs, isWordChar c = false → m ⟨before, c :: cs⟩ = [])
    (hpre : ∀ b ∈ pre, ∀ ds, Follows ds → ∀ before, absentIn m ds before b.text = true)
    {before : Option Char} {ds : List Char} {r : β × Place}
    (h : first (m >>= k t.start (upTo pre a)) ⟨after (after before t.start) (upTo pre a),
      a.name ++ '=' :: '"' :: (a.value ++ '"' :: (attrsText post ++ t.tail ++ '>' :: ds))⟩ =
        some r) :
    first (imgStart >>= fun tag => lazyMany notEnd >>= fun gap => m >>= k tag gap)
      ⟨before, t.start ++ (t.behind ++ ds)⟩ = some r := by
  obtain ⟨c, cs, hc, hword⟩ := t.exists_behind ds
  rw [behind_split hattrs] at hc ⊢
  exact first_scan himg notEnd_upTo ⟨c, cs, hc, hword⟩
    (fun gap => absentIn_bind (absentIn_upTo hnonword hpre _ _) _) h

theorem start_split (hattrs : t.attrs = pre ++ a :: post) (ds : List Char) :
    (t.start ++ upTo pre a ++ (a.name ++ ['='])) ++ ['"'] ++ a.value ++ ['"'] ++
      (attrsText post ++ t.tail ++ '>' :: ds) = t.start ++ (t.behind ++ ds) := by
  rw [behind_split hattrs]
  simp only [List.append_assoc, List.cons_append, List.nil_append]

/-- The text of a tag around the value of one attribute. -/
theorem text_split (hattrs : t.attrs = pre ++ a :: post) :
    t.text = (t.start ++ upTo pre a ++ (a.name ++ ['='])) ++ ['"'] ++ a.value ++ ['"'] ++
      (attrsText post ++ t.tail ++ ['>']) := by
  have hbehind := behind_split hattrs []
  rw [List.append_nil] at hbehind
  rw [Tag.text_eq, hbehind]
  simp

theorem not_open_rest (post : List Attr) : '<' ∉ attrsText post ++ t.tail := by
  rw [List.mem_append]
  rintro (h | h)
  · exact (not_angle_attrsText h).1 rfl
  · rcases t.tail_chars _ h with hspace | h
    · exact absurd hspace (by decide)
    · exact absurd h (by decide)

end

section
variable {t : Tag} {pre post : List Attr} {a : Attr}

theorem Tag.mapAttrs_self {g : Attr → Attr} {hg : ∀ a, (g a).name = a.name}
    (h : ∀ a ∈ t.attrs, g a = a) : t.mapAttrs g hg = t := by
  have hattrs : t.attrs.map g = t.attrs := (List.map_congr_left h).trans (List.map_id _)
  obtain ⟨closing, name, attrs, tail, _, _, _, _, _⟩ := t
  unfold mapAttrs
  congr 1

/-- Changing the one attribute that a pass rewrites. -/
theorem Tag.text_mapAttrs {g : Attr → Attr} (hg : ∀ a, (g a).name = a.name)
    (hattrs : t.attrs = pre ++ a :: post) (hpre : ∀ b ∈ pre, g b = b) (hpost : ∀ b ∈ post, g b = b)
    (hspace : (g a).space = a.space) :
    (t.mapAttrs g hg).text = (t.start ++ upTo pre a ++ (a.name ++ ['='])) ++ ['"'] ++ (g a).value ++
      ['"'] ++ (attrsText post ++ t.tail ++ ['>']) := by
  have hmapped : (t.mapAttrs g hg).attrs = pre ++ g a :: post := by
    have hpre' : pre.map g = pre := (List.map_congr_left hpre).trans (List.map_id _)
    have hpost' : post.map g = post := (List.map_congr_left hpost).trans (List.map_id _)
    change t.attrs.map g = pre ++ g a :: post
    rw [hattrs, List.map_append, List.map_cons, hpre', hpost']
  rw [text_split hmapped, hg a]
  unfold upTo
  rw [hspace]
  rfl

theorem Tag.filter_split {p : Attr → Bool} (hone : (t.attrs.filter p).length ≤ 1)
    (hattrs : t.attrs = pre ++ a :: post) (ha : p a = true) :
    (∀ b ∈ pre, p b = false) ∧ ∀ b ∈ post, p b = false := by
  rw [hattrs, List.filter_append, List.filter_cons_of_pos ha, List.length_append,
    List.length_cons] at hone
  have hpre : (pre.filter p).length = 0 := by omega
  have hpost : (post.filter p).length = 0 := by omega
  rw [List.length_eq_zero_iff, List.filter_eq_nil_iff] at hpre hpost
  exact ⟨fun b hb => Bool.not_eq_true _ ▸ hpre b hb, fun b hb => Bool.not_eq_true _ ▸ hpost b hb⟩

theorem absent_src (h : ∀ b ∈ pre, b.mentionsSrc = false) :
    ∀ b ∈ pre, ∀ ds, Follows ds → ∀ before, absentIn srcHere ds before b.text = true :=
  fun b hb _ hds before => Attr.absentIn_src (h b hb) hds before

theorem absent_styleOpen (h : ∀ b ∈ pre, b.opensStyle = false) :
    ∀ b ∈ pre, ∀ ds, Follows ds → ∀ before, absentIn styleOpen ds before b.text = true :=
  fun b hb ds _ before => Attr.absentIn_styleOpen (h b hb) ds before

theorem srcReplaced_addressed (haddressed : a.Addressed) (front : List Char) :
    srcReplaced (front, some '"', a.value) = front ++ ['"'] ++ srcValue a.value ++ ['"'] := by
  have htrim := (trimmed_of_spaceless haddressed.2).trimChars_eq
  unfold srcReplaced srcValue
  dsimp only
  rw [htrim, if_neg haddressed.1]
  split <;> rfl

theorem srcFixed_value (hsrc : a.isSrc = true) (haddressed : a.Addressed) :
    a.srcFixed.value = srcValue a.value ∧ a.srcFixed.space = a.space := by
  rw [Attr.srcFixed_of_pos hsrc haddressed]
  exact ⟨rfl, rfl⟩

/-- The first pass, where there is an address to be found. -/
theorem passes_src (himg : t.isImg = true) (hattrs : t.attrs = pre ++ a :: post)
    (hpre : ∀ b ∈ pre, b.mentionsSrc = false) (hsrc : a.isSrc = true)
    (haddressed : a.Addressed) :
    Passes srcPattern srcReplaced t (t.mapAttrs Attr.srcFixed Attr.name_srcFixed) := by
  have hpost : ∀ b ∈ post, b.srcFixed = b := fun b hb => Attr.srcFixed_of_neg fun hpos => by
    have hnot := (Tag.filter_split t.oneSrc hattrs hsrc).2 b hb
    rw [hpos.1] at hnot
    cases hnot
  obtain ⟨hvalue, hspace⟩ := srcFixed_value hsrc haddressed
  have htext := text_split hattrs
  have htext' := Tag.text_mapAttrs Attr.name_srcFixed hattrs
    (fun b hb => Attr.srcFixed_of_not_mentionsSrc (hpre b hb)) hpost hspace
  rw [hvalue, ← srcReplaced_addressed haddressed] at htext'
  refine passes_match images_srcPattern htext (by simp) (not_open_rest post) htext'
    fun before ds => ⟨some '"', ?_⟩
  have hname := Attr.first_srcHere hsrc haddressed (after_upTo pre a (after before t.start))
    (attrsText post ++ t.tail ++ '>' :: ds)
  rw [start_split hattrs]
  exact first_hit himg hattrs (fun _ before cs hc => srcHere_nonword hc before cs)
    (absent_src hpre) (first_bind hname rfl)

/-- And where there is none. -/
theorem passes_no_src (himg : t.isImg = true) (h : ∀ b ∈ t.attrs, b.mentionsSrc = false) :
    Passes srcPattern srcReplaced t t := by
  refine passes_self images_srcPattern fun before ds => scan_eq_nil himg (fun gap => ?_) ?_
  · refine absentIn_bind (absentIn_append.mpr ⟨absentIn_attrsText (absent_src h) ?_ _, ?_⟩) _
    · exact t.follows_tail ds
    · exact absentIn_nonword (fun _ before cs hc => srcHere_nonword hc before cs) t.tail_nonword _ _
  · exact fun _ _ => bind_eq_nil_of_left (srcHere_nonword (by decide) _ _) _

theorem quote_absent {cs : List Char} (hcs : ∀ c ∈ cs, isValueChar c = true) (ds : List Char)
    (before : Option Char) : absentIn (letters ['"']) ds before cs = true := by
  refine absentIn_of_forall fun us c es hsplit => letters_eq_nil_iff.mpr fun hprefix => ?_
  have hc : c.toLower = '"' := (List.cons_prefix_cons.mp hprefix).1.symm
  have hvalue := hcs c (hsplit ▸ List.mem_append_right us List.mem_cons_self)
  rw [eq_of_toLower_eq hc (by decide)] at hvalue
  exact absurd hvalue (by decide)

theorem styleReplaced_isStyle (hstyle : a.isStyle = true) (front : List Char) :
    styleReplaced (front, '"', a.value) = front ++ ['"'] ++ a.styleFixed.value ++ ['"'] := by
  unfold styleReplaced Attr.styleFixed
  dsimp only
  cases hsized : sized a.value with
  | true => rw [if_pos rfl, hstyle, Bool.not_true, Bool.and_false, if_neg Bool.false_ne_true]
  | false =>
    rw [if_neg Bool.false_ne_true, hstyle, Bool.not_false, Bool.and_true, if_pos rfl]
    rfl

/-- The style is read up to the quote that ends it. -/
theorem first_style (front rest : List Char) (before : Option Char) :
    first (lazyMany (fun _ => true) >>= fun style => letters ['"'] >>= fun _ =>
      (pure (front, '"', style) : Pattern (List Char × Char × List Char)))
      ⟨before, a.value ++ '"' :: rest⟩ = some ((front, '"', a.value), ⟨some '"', rest⟩) := by
  unfold first
  rw [lazyMany_skip (fun _ _ => rfl)
    (fun _ => absentIn_bind (quote_absent a.isValueChar_value _ _) _)]
  refine first_lazyMany ?_
  rw [List.append_nil]
  rfl

/-- The second pass, where there is a style to be found. -/
theorem passes_style (himg : t.isImg = true) (hattrs : t.attrs = pre ++ a :: post)
    (hpre : ∀ b ∈ pre, b.opensStyle = false) (hstyle : a.isStyle = true) :
    Passes stylePattern styleReplaced t (t.mapAttrs Attr.styleFixed Attr.name_styleFixed) := by
  obtain ⟨hbefore, hbehind⟩ := Tag.filter_split t.oneStyle hattrs hstyle
  have hspace : a.styleFixed.space = a.space := by
    unfold Attr.styleFixed
    split <;> rfl
  have htext := text_split hattrs
  have htext' := Tag.text_mapAttrs Attr.name_styleFixed hattrs
    (fun b hb => Attr.styleFixed_of_not_isStyle (hbefore b hb))
    (fun b hb => Attr.styleFixed_of_not_isStyle (hbehind b hb)) hspace
  rw [← styleReplaced_isStyle hstyle] at htext'
  refine passes_match images_stylePattern htext (by simp) (not_open_rest post) htext'
    fun before ds => ⟨some '"', ?_⟩
  have hname := Attr.first_styleOpen hstyle (after_upTo pre a (after before t.start))
    (a.value ++ '"' :: (attrsText post ++ t.tail ++ '>' :: ds))
  rw [start_split hattrs]
  exact first_hit himg hattrs (fun _ before cs hc => styleOpen_nonword hc before cs)
    (absent_styleOpen hpre) (first_bind hname (first_style _ _ _))

theorem absent_styleWord (h : ∀ b ∈ pre, b.mentionsStyle = false) :
    ∀ b ∈ pre, ∀ ds, Follows ds → ∀ before, absentIn styleWord ds before b.text = true :=
  fun b hb ds _ before => Attr.absentIn_style (h b hb) ds before

theorem absentIn_attrs_tail (h : ∀ b ∈ t.attrs, b.mentionsStyle = false) (ds : List Char)
    (before : Option Char) :
    absentIn styleWord ('>' :: ds) before (attrsText t.attrs ++ t.tail) = true := by
  refine absentIn_append.mpr ⟨absentIn_attrsText (absent_styleWord h) (t.follows_tail ds) before, ?_⟩
  exact absentIn_nonword (fun _ before cs hc => styleWord_nonword hc before cs) t.tail_nonword _ _

theorem passes_no_style (himg : t.isImg = true) (h : ∀ b ∈ t.attrs, b.mentionsStyle = false) :
    Passes stylePattern styleReplaced t t := by
  refine passes_self images_stylePattern fun before ds => scan_eq_nil himg (fun gap => ?_) ?_
  · exact absentIn_bind (absentIn_bind (absentIn_attrs_tail h ds _) _) _
  · exact fun _ _ => bind_eq_nil_of_left (styleOpen_nonword (by decide) _ _) _

/-- An image that has a style stays. -/
theorem passes_styled (himg : t.isImg = true) (h : t.attrs.any Attr.isStyle = true) :
    Passes styleless (fun _ => imgStyled) t t := by
  obtain ⟨a, ha, hstyle⟩ := List.any_eq_true.mp h
  obtain ⟨pre, post, hattrs⟩ := List.append_of_mem ha
  refine passes_self images_styleless fun before ds => ?_
  obtain ⟨c, cs, hc, hword⟩ := t.exists_behind ds
  have hstart := Tag.imgStart_start himg hword before cs
  rw [← hc] at hstart
  unfold styleless
  rw [bind_singleton hstart]
  refine if_neg fun hempty => ?_
  -- the look ahead gets to the style
  have hnone := bind_eq_nil_iff.mp (List.isEmpty_iff.mp hempty) (upTo pre a, _)
    (mem_greedyMany.mpr ⟨upTo pre a, _, behind_split hattrs ds, notEnd_upTo, rfl⟩)
  have hname := Attr.word_name (of_decide_eq_true hstyle) (by decide)
    (after_upTo pre a (after before t.start))
    ('"' :: (a.value ++ '"' :: (attrsText post ++ t.tail ++ '>' :: ds)))
  have hsome : first styleWord _ = some _ := hname
  rw [first, hnone] at hsome
  cases hsome

/-- An image with a style in front, if it has none. -/
def Tag.styled (t : Tag) : Tag :=
  if h : t.attrs.any Attr.isStyle = true then t
  else
    { t with
      name := "img".toList
      attrs := Attr.injected :: t.attrs
      name_ne := by decide
      isNameChar_name := forall_mem_of_all (by decide)
      oneSrc := by
        rw [List.filter_cons_of_neg (by decide)]
        exact t.oneSrc
      oneStyle := by
        have hnone : t.attrs.filter Attr.isStyle = [] :=
          List.filter_eq_nil_iff.mpr fun a ha hstyle => h (List.any_eq_true.mpr ⟨a, ha, hstyle⟩)
        rw [List.filter_cons_of_pos (by decide), hnone]
        exact le_refl 1 }

theorem passes_unstyled (himg : t.isImg = true) (h : ∀ b ∈ t.attrs, b.mentionsStyle = false)
    (hnone : ¬ t.attrs.any Attr.isStyle = true) :
    Passes styleless (fun _ => imgStyled) t t.styled := by
  have htext : t.text = t.start ++ (attrsText t.attrs ++ t.tail ++ ['>']) := by
    rw [Tag.text_eq]
    unfold Tag.behind
    rw [List.append_assoc]
  have hopening : t.closing = false := (Tag.isImg_iff.mp himg).1
  have htext' : t.styled.text = imgStyled ++ (attrsText t.attrs ++ t.tail ++ ['>']) := by
    have hstyled : imgStyled = "<img".toList ++ Attr.injected.text := by decide +kernel
    unfold Tag.styled
    rw [dif_neg hnone, hstyled, Tag.text_eq]
    unfold Tag.start Tag.behind
    dsimp only
    rw [hopening, if_neg Bool.false_ne_true, attrsText_cons]
    simp only [List.append_assoc]
    rfl
  refine passes_match (a := ()) images_styleless htext Tag.start_ne_nil (not_open_rest t.attrs) htext'
    fun before ds => ⟨after before t.start, ?_⟩
  obtain ⟨c, cs, hc, hword⟩ := t.exists_behind ds
  have hstart := Tag.imgStart_start himg hword before cs
  have hrest : attrsText t.attrs ++ t.tail ++ '>' :: ds = t.behind ++ ds := by
    unfold Tag.behind
    simp
  rw [← hc, ← hrest] at hstart
  have hahead : (greedyMany notEnd >>= fun _ => styleWord)
      ⟨after before t.start, attrsText t.attrs ++ t.tail ++ '>' :: ds⟩ = [] :=
    greedyMany_absent (absentIn_attrs_tail h ds _) (by rintro c ⟨⟩; decide)
      (styleWord_nonword (by decide) _ _)
  unfold first styleless
  rw [bind_singleton hstart]
  unfold notHere
  rw [if_pos (List.isEmpty_iff.mpr hahead)]
  rfl

end

/-- An address that needs no change. -/
def Attr.Loadable (a : Attr) : Prop :=
  isData a.value = true ∨
    isHttp a.value = true ∧ normalizeImageUrl (some (.ofList a.value)) = .ofList a.value

instance (a : Attr) : Decidable a.Loadable := inferInstanceAs (Decidable (_ ∨ _))

/-- A source with an address the first pattern reads. -/
def Attr.isRead (a : Attr) : Bool := a.isSrc && decide a.Addressed

/-- In front of the first source that is read nothing looks like one, and a source that is not read
needs no change. -/
def SrcReady (attrs : List Attr) : Prop :=
  ∀ b ∈ attrs.takeWhile (fun a => !a.isRead), b.Quiet ∧ (b.isSrc = true → b.Loadable)

/-- In front of the style nothing looks like the beginning of one; where there is no style, nothing
looks like its name. -/
def StyleReady (attrs : List Attr) : Prop :=
  if attrs.any Attr.isStyle then
    ∀ b ∈ attrs.takeWhile (fun a => !a.isStyle), b.opensStyle = false
  else ∀ b ∈ attrs, b.mentionsStyle = false

/-- What the patterns take for an image is one, and they find in it what they look for. -/
def Tag.Ready (t : Tag) : Prop :=
  (t.opens = true → t.isImg = true) ∧
    (t.isImg = true → SrcReady t.attrs ∧ StyleReady t.attrs)

instance (attrs : List Attr) : Decidable (SrcReady attrs) :=
  inferInstanceAs (Decidable (∀ _ ∈ _, _))

instance (attrs : List Attr) : Decidable (StyleReady attrs) :=
  inferInstanceAs (Decidable (if attrs.any Attr.isStyle then
    ∀ b ∈ attrs.takeWhile (fun a => !a.isStyle), b.opensStyle = false
  else ∀ b ∈ attrs, b.mentionsStyle = false))

instance (t : Tag) : Decidable t.Ready := inferInstanceAs (Decidable (_ ∧ _))

/-- All tags are ready, and the page is not blank, unless it is empty. -/
structure Ready (page : List Piece) : Prop where
  tags : ∀ t, .tag t ∈ page → t.Ready
  seen : render page = [] ∨ ∃ c ∈ render page, isSpace c = false

/-- A list up to its first item of a kind. -/
theorem takeWhile_cases {α : Type} (p : α → Bool) (xs : List α) :
    (xs.takeWhile (fun x => !p x) = xs ∧ ∀ x ∈ xs, p x = false) ∨
      ∃ a post, xs = xs.takeWhile (fun x => !p x) ++ a :: post ∧ p a = true := by
  have hsplit : xs.takeWhile (fun x => !p x) ++ xs.dropWhile (fun x => !p x) = xs :=
    List.takeWhile_append_dropWhile
  cases hrest : xs.dropWhile (fun x => !p x) with
  | nil =>
    rw [hrest, List.append_nil] at hsplit
    refine Or.inl ⟨hsplit, fun x hx => ?_⟩
    have hnot := List.mem_takeWhile_imp (hsplit.symm ▸ hx : x ∈ xs.takeWhile fun x => !p x)
    simpa using hnot
  | cons a post =>
    rw [hrest] at hsplit
    refine Or.inr ⟨a, post, hsplit.symm, ?_⟩
    have hhead := List.head?_dropWhile_not (fun x => !p x) xs
    rw [hrest] at hhead
    simpa using hhead

namespace Tag

variable {t : Tag}

def srcPass (t : Tag) : Tag :=
  if t.isImg then t.mapAttrs Attr.srcFixed Attr.name_srcFixed else t

def stylePass (t : Tag) : Tag :=
  if t.isImg then t.mapAttrs Attr.styleFixed Attr.name_styleFixed else t

def addPass (t : Tag) : Tag := if t.isImg then t.styled else t

/-- What the three passes make of a tag. -/
def fixed (t : Tag) : Tag := t.srcPass.stylePass.addPass

theorem isImg_srcPass (t : Tag) : t.srcPass.isImg = t.isImg := by
  unfold srcPass
  split <;> rfl

theorem isImg_stylePass (t : Tag) : t.stylePass.isImg = t.isImg := by
  unfold stylePass
  split <;> rfl

theorem isImg_styled (h : t.isImg = true) : t.styled.isImg = true := by
  unfold styled
  split
  · exact h
  · exact isImg_iff.mpr ⟨(isImg_iff.mp h).1, rfl⟩

theorem fixed_other (h : t.isImg = false) : t.fixed = t := by
  unfold fixed addPass stylePass srcPass
  simp [h]

theorem fixed_img (h : t.isImg = true) : t.fixed =
    ((t.mapAttrs Attr.srcFixed Attr.name_srcFixed).mapAttrs Attr.styleFixed
      Attr.name_styleFixed).styled := by
  have hsrc : t.srcPass = t.mapAttrs Attr.srcFixed Attr.name_srcFixed := if_pos h
  have hstyle : t.srcPass.stylePass =
      t.srcPass.mapAttrs Attr.styleFixed Attr.name_styleFixed :=
    if_pos ((isImg_srcPass t).trans h)
  unfold fixed addPass
  rw [if_pos ((isImg_stylePass _).trans ((isImg_srcPass t).trans h)), hstyle, hsrc]

theorem isImg_fixed (t : Tag) : t.fixed.isImg = t.isImg := by
  cases h : t.isImg with
  | true => rw [fixed_img h]; exact isImg_styled h
  | false => rw [fixed_other h, h]

end Tag

section
variable {t : Tag}

theorem not_opens (hready : t.Ready) (h : t.isImg = false) : t.opens = false := by
  by_contra hopens
  rw [hready.1 (Bool.not_eq_false _ ▸ hopens)] at h
  cases h

theorem passes_srcPass (hready : t.Ready) : Passes srcPattern srcReplaced t t.srcPass := by
  cases himg : t.isImg with
  | false =>
    have hself : t.srcPass = t := if_neg (by rw [himg]; exact Bool.false_ne_true)
    rw [hself]
    exact passes_self images_srcPattern (images_other images_srcPattern (not_opens hready himg))
  | true =>
    have hsrc := (hready.2 himg).1
    have hpass : t.srcPass = t.mapAttrs Attr.srcFixed Attr.name_srcFixed := if_pos himg
    rw [hpass]
    rcases takeWhile_cases Attr.isRead t.attrs with ⟨hall, -⟩ | ⟨a, post, hattrs, hread⟩
    · unfold SrcReady at hsrc
      rw [hall] at hsrc
      rw [Tag.mapAttrs_self fun a ha => Attr.srcFixed_of_not_mentionsSrc (hsrc a ha).1.1]
      exact passes_no_src himg fun b hb => (hsrc b hb).1.1
    · obtain ⟨hisSrc, haddressed⟩ := Bool.and_eq_true_iff.mp hread
      exact passes_src himg hattrs (fun b hb => (hsrc b hb).1.1) hisSrc
        (of_decide_eq_true haddressed)

theorem passes_stylePass (hopens : t.isImg = false → t.opens = false)
    (hstyle : t.isImg = true → StyleReady t.attrs) :
    Passes stylePattern styleReplaced t t.stylePass := by
  cases himg : t.isImg with
  | false =>
    have hself : t.stylePass = t := if_neg (by rw [himg]; exact Bool.false_ne_true)
    rw [hself]
    exact passes_self images_stylePattern (images_other images_stylePattern (hopens himg))
  | true =>
    have hpass : t.stylePass = t.mapAttrs Attr.styleFixed Attr.name_styleFixed := if_pos himg
    have hready := hstyle himg
    unfold StyleReady at hready
    rw [hpass]
    split at hready
    · rename_i hany
      rcases takeWhile_cases Attr.isStyle t.attrs with ⟨-, hnone⟩ | ⟨a, post, hattrs, hisStyle⟩
      · obtain ⟨a, ha, hisStyle⟩ := List.any_eq_true.mp hany
        rw [hnone a ha] at hisStyle
        cases hisStyle
      · exact passes_style himg hattrs hready hisStyle
    · have hnot : ∀ b ∈ t.attrs, b.styleFixed = b := fun b hb =>
        Attr.styleFixed_of_not_isStyle
          (Attr.not_isStyle_of_not_opensStyle (Attr.opensStyle_of_mentionsStyle (hready b hb)))
      rw [Tag.mapAttrs_self hnot]
      exact passes_no_style himg hready

theorem passes_addPass (hopens : t.isImg = false → t.opens = false)
    (hstyle : t.isImg = true → StyleReady t.attrs) :
    Passes styleless (fun _ => imgStyled) t t.addPass := by
  cases himg : t.isImg with
  | false =>
    have hself : t.addPass = t := if_neg (by rw [himg]; exact Bool.false_ne_true)
    rw [hself]
    exact passes_self images_styleless (images_other images_styleless (hopens himg))
  | true =>
    have hpass : t.addPass = t.styled := if_pos himg
    have hready := hstyle himg
    unfold StyleReady at hready
    rw [hpass]
    split at hready
    · rename_i hany
      have hself : t.styled = t := dif_pos hany
      rw [hself]
      exact passes_styled himg hany
    · rename_i hnone
      exact passes_unstyled himg hready hnone

end

/-- An attribute behind the first two passes. -/
def Attr.fixed (a : Attr) : Attr := a.srcFixed.styleFixed

section
variable {a : Attr}

theorem name_fixed (a : Attr) : a.fixed.name = a.name :=
  (Attr.name_styleFixed _).trans (Attr.name_srcFixed a)

theorem isRead_iff : a.isRead = true ↔ a.isSrc = true ∧ a.Addressed := by
  unfold Attr.isRead
  rw [Bool.and_eq_true, decide_eq_true_eq]

theorem fixed_of_isSrc (h : a.isSrc = true) : a.fixed = a.srcFixed := by
  refine Attr.styleFixed_of_not_isStyle (Attr.not_isStyle_of_isSrc ?_)
  rwa [Attr.isSrc_congr (Attr.name_srcFixed a)]

theorem isRead_fixed (a : Attr) : a.fixed.isRead = a.isRead := by
  cases h : a.isRead with
  | true =>
    obtain ⟨hsrc, haddressed⟩ := isRead_iff.mp h
    rw [fixed_of_isSrc hsrc]
    exact isRead_iff.mpr ⟨(Attr.isSrc_congr (Attr.name_srcFixed a)).trans hsrc,
      Attr.addressed_srcFixed haddressed⟩
  | false =>
    by_contra hread
    obtain ⟨hsrc, haddressed⟩ := isRead_iff.mp (Bool.not_eq_false _ ▸ hread)
    rw [Attr.isSrc_congr (name_fixed a)] at hsrc
    have hnot : ¬ (a.isSrc = true ∧ a.Addressed) := by
      rw [← isRead_iff, h]
      exact Bool.false_ne_true
    rw [fixed_of_isSrc hsrc, Attr.srcFixed_of_neg hnot] at haddressed
    exact hnot ⟨hsrc, haddressed⟩

theorem fixed_of_not_isRead (h : a.isRead = false) : a.fixed = a.styleFixed := by
  unfold Attr.fixed
  rw [Attr.srcFixed_of_neg]
  rw [← isRead_iff, h]
  exact Bool.false_ne_true

theorem quiet_fixed (h : a.Quiet) (hread : a.isRead = false) : a.fixed.Quiet := by
  rw [fixed_of_not_isRead hread]
  refine ⟨Attr.quiet_styleFixed h, fun hstyle hsized => ?_⟩
  rw [Attr.isStyle_congr (Attr.name_styleFixed a)] at hstyle
  rw [Attr.sized_styleFixed hstyle] at hsized
  cases hsized

end

theorem takeWhile_map_congr {p : Attr → Bool} {g : Attr → Attr} (h : ∀ a, p (g a) = p a)
    (attrs : List Attr) : (attrs.map g).takeWhile p = (attrs.takeWhile p).map g := by
  have hsame : p ∘ g = p := funext h
  rw [List.takeWhile_map, hsame]

theorem any_map_isStyle {g : Attr → Attr} (hg : ∀ a, (g a).name = a.name) (attrs : List Attr) :
    (attrs.map g).any Attr.isStyle = attrs.any Attr.isStyle := by
  have hsame : Attr.isStyle ∘ g = Attr.isStyle := funext fun a => Attr.isStyle_congr (hg a)
  rw [List.any_map, hsame]

section
variable {attrs : List Attr}

theorem StyleReady.map {g : Attr → Attr} (hg : ∀ a, (g a).name = a.name)
    (hopens : ∀ b, b.opensStyle = false → (g b).opensStyle = false)
    (hmentions : ∀ b, b.mentionsStyle = false → (g b).mentionsStyle = false)
    (h : StyleReady attrs) : StyleReady (attrs.map g) := by
  unfold StyleReady at h ⊢
  rw [any_map_isStyle hg,
    takeWhile_map_congr (fun a => by rw [Attr.isStyle_congr (hg a)])]
  split at h
  · rename_i hany
    rw [if_pos hany]
    intro b hb
    obtain ⟨a, ha, rfl⟩ := List.mem_map.mp hb
    exact hopens a (h a ha)
  · rename_i hnone
    rw [if_neg hnone]
    intro b hb
    obtain ⟨a, ha, rfl⟩ := List.mem_map.mp hb
    exact hmentions a (h a ha)

theorem StyleReady.srcFixed (h : StyleReady attrs) : StyleReady (attrs.map Attr.srcFixed) :=
  h.map Attr.name_srcFixed (fun _ => Attr.opensStyle_srcFixed) (fun _ => Attr.mentionsStyle_srcFixed)

theorem StyleReady.styleFixed (h : StyleReady attrs) : StyleReady (attrs.map Attr.styleFixed) := by
  have hself : ∀ b : Attr, b.opensStyle = false → b.styleFixed = b := fun b hb =>
    Attr.styleFixed_of_not_isStyle (Attr.not_isStyle_of_not_opensStyle hb)
  refine h.map Attr.name_styleFixed (fun b hb => ?_) (fun b hb => ?_)
  · rwa [hself b hb]
  · rwa [hself b (Attr.opensStyle_of_mentionsStyle hb)]

theorem SrcReady.fixed (h : SrcReady attrs) : SrcReady (attrs.map Attr.fixed) := by
  unfold SrcReady at h ⊢
  rw [takeWhile_map_congr (fun a => by rw [isRead_fixed])]
  intro b hb
  obtain ⟨a, ha, rfl⟩ := List.mem_map.mp hb
  have hread : a.isRead = false := by
    have hnot := List.mem_takeWhile_imp ha
    simpa using hnot
  refine ⟨quiet_fixed (h a ha).1 hread, fun hsrc => ?_⟩
  rw [Attr.isSrc_congr (name_fixed a)] at hsrc
  rw [fixed_of_not_isRead hread,
    Attr.styleFixed_of_not_isStyle (Attr.not_isStyle_of_isSrc hsrc)]
  exact (h a ha).2 hsrc

theorem injected_quiet : Attr.injected.Quiet := by decide +kernel

theorem SrcReady.injected (h : SrcReady attrs) : SrcReady (Attr.injected :: attrs) := by
  unfold SrcReady at h ⊢
  rw [List.takeWhile_cons_of_pos (by decide)]
  rintro b (_ | ⟨_, hb⟩)
  · exact ⟨injected_quiet, fun hsrc => absurd hsrc (by decide)⟩
  · exact h b hb

theorem styleReady_injected (attrs : List Attr) : StyleReady (Attr.injected :: attrs) := by
  unfold StyleReady
  rw [if_pos (List.any_cons.trans (Bool.or_eq_true_iff.mpr (Or.inl (by decide)))),
    List.takeWhile_cons_of_neg (by decide)]
  exact fun b hb => absurd hb List.not_mem_nil

end

section
variable {t : Tag}

theorem attrs_fixed (h : t.isImg = true) : t.fixed.attrs =
    if t.attrs.any Attr.isStyle then t.attrs.map Attr.fixed
    else Attr.injected :: t.attrs.map Attr.fixed := by
  have hmapped : (t.attrs.map Attr.srcFixed).map Attr.styleFixed = t.attrs.map Attr.fixed :=
    List.map_map
  have hany : (t.attrs.map Attr.fixed).any Attr.isStyle = t.attrs.any Attr.isStyle :=
    any_map_isStyle name_fixed t.attrs
  rw [Tag.fixed_img h]
  unfold Tag.styled Tag.mapAttrs
  dsimp only
  simp only [hmapped, hany]
  split <;> rfl

theorem any_isStyle_fixed (h : t.isImg = true) : t.fixed.attrs.any Attr.isStyle = true := by
  rw [attrs_fixed h]
  split
  · rename_i hany
    rwa [any_map_isStyle name_fixed]
  · exact List.any_cons.trans (Bool.or_eq_true_iff.mpr (Or.inl (by decide)))

theorem ready_fixed (hready : t.Ready) : t.fixed.Ready := by
  cases himg : t.isImg with
  | false => rwa [Tag.fixed_other himg]
  | true =>
    obtain ⟨hsrc, hstyle⟩ := hready.2 himg
    refine ⟨fun _ => (Tag.isImg_fixed t).trans himg, fun _ => ?_⟩
    rw [attrs_fixed himg]
    split
    · refine ⟨hsrc.fixed, ?_⟩
      have hboth := hstyle.srcFixed.styleFixed
      rwa [List.map_map] at hboth
    · exact ⟨hsrc.fixed.injected, styleReady_injected _⟩

theorem fixed_fixed (t : Tag) : t.fixed.fixed = t.fixed := by
  cases himg : t.isImg with
  | false => rw [Tag.fixed_other himg, Tag.fixed_other himg]
  | true =>
    have hfixed : ∀ a ∈ t.fixed.attrs, a.srcFixed = a ∧ a.styleFixed = a := by
      have hall : ∀ a : Attr, a.fixed.srcFixed = a.fixed ∧ a.fixed.styleFixed = a.fixed :=
        fun a => ⟨Attr.srcFixed_styleFixed a, Attr.styleFixed_styleFixed _⟩
      intro a ha
      rw [attrs_fixed himg] at ha
      split at ha
      · obtain ⟨b, -, rfl⟩ := List.mem_map.mp ha
        exact hall b
      · rcases List.mem_cons.mp ha with rfl | ha
        · exact ⟨Attr.srcFixed_injected, Attr.styleFixed_injected⟩
        · obtain ⟨b, -, rfl⟩ := List.mem_map.mp ha
          exact hall b
    rw [Tag.fixed_img ((Tag.isImg_fixed t).trans himg),
      Tag.mapAttrs_self fun a ha => (hfixed a ha).1, Tag.mapAttrs_self fun a ha => (hfixed a ha).2]
    exact dif_pos (any_isStyle_fixed himg)

end

def Piece.map (g : Tag → Tag) : Piece → Piece
  | .text cs h => .text cs h
  | .tag t => .tag (g t)

theorem Images.nil {α : Type} {m : Pattern α} (h : Images m) (before : Option Char) :
    m ⟨before, []⟩ = [] := by
  obtain ⟨k, rfl⟩ := h
  rfl

/-- A pass over a page, tag by tag. -/
theorem replaceAll_render {α : Type} {m : Pattern α} {f : α → List Char} (hm : Images m)
    {g : Tag → Tag} {page : List Piece} (h : ∀ t, .tag t ∈ page → Passes m f t (g t)) :
    replaceAll m f (render page) = render (page.map (Piece.map g)) := by
  suffices hfrom : ∀ before, replaceFrom m f before 0 (render page) =
      render (page.map (Piece.map g)) from hfrom none
  induction page with
  | nil =>
    intro before
    change ((first m ⟨before, []⟩).map fun r => f r.1).getD [] = []
    rw [first_eq_none.mpr (hm.nil before)]
    rfl
  | cons p page ih =>
    have hrest := ih fun t ht => h t (List.mem_cons_of_mem p ht)
    intro before
    unfold render at hrest ⊢
    rw [List.map_cons, List.flatMap_cons, List.flatMap_cons]
    cases p with
    | text cs hcs =>
      rw [Piece.render, replaceFrom_absent (hm.absentIn hcs before _), hrest]
      rfl
    | tag t =>
      rw [Piece.render, h t List.mem_cons_self, hrest]
      rfl

/-- What the last two passes need. -/
def Tag.Stylable (t : Tag) : Prop :=
  (t.isImg = false → t.opens = false) ∧ (t.isImg = true → StyleReady t.attrs)

section
variable {t : Tag}

theorem stylable_srcPass (hready : t.Ready) : t.srcPass.Stylable := by
  unfold Tag.srcPass
  split
  · rename_i himg
    refine ⟨fun hnot => ?_, fun _ => (hready.2 himg).2.srcFixed⟩
    have hsame : t.isImg = false := hnot
    rw [himg] at hsame
    cases hsame
  · rename_i hother
    exact ⟨fun hnot => not_opens hready hnot, fun himg => absurd himg hother⟩

theorem stylable_stylePass (hstylable : t.Stylable) : t.stylePass.Stylable := by
  unfold Tag.stylePass
  split
  · rename_i himg
    refine ⟨fun hnot => ?_, fun _ => (hstylable.2 himg).styleFixed⟩
    have hsame : t.isImg = false := hnot
    rw [himg] at hsame
    cases hsame
  · exact hstylable

end

theorem mem_map_tag {g : Tag → Tag} {page : List Piece} {t' : Tag}
    (h : .tag t' ∈ page.map (Piece.map g)) : ∃ t, .tag t ∈ page ∧ t' = g t := by
  obtain ⟨p, hp, hmap⟩ := List.mem_map.mp h
  cases p with
  | text cs hcs => cases hmap
  | tag t =>
    cases hmap
    exact ⟨t, hp, rfl⟩

section
variable {page : List Piece}

/-- The three passes one after the other. -/
theorem passes_page (h : ∀ t, .tag t ∈ page → t.Ready) :
    replaceAll styleless (fun _ => imgStyled) (replaceAll stylePattern styleReplaced
      (replaceAll srcPattern srcReplaced (render page))) =
        render (page.map (Piece.map Tag.fixed)) := by
  have hstylable : ∀ t, .tag t ∈ page.map (Piece.map Tag.srcPass) → t.Stylable := by
    intro t' ht'
    obtain ⟨t, ht, rfl⟩ := mem_map_tag ht'
    exact stylable_srcPass (h t ht)
  have hkept : ∀ t, .tag t ∈ (page.map (Piece.map Tag.srcPass)).map (Piece.map Tag.stylePass) →
      t.Stylable := by
    intro t' ht'
    obtain ⟨t, ht, rfl⟩ := mem_map_tag ht'
    exact stylable_stylePass (hstylable t ht)
  rw [replaceAll_render images_srcPattern fun t ht => passes_srcPass (h t ht),
    replaceAll_render images_stylePattern fun t ht =>
      passes_stylePass (hstylable t ht).1 (hstylable t ht).2,
    replaceAll_render images_styleless fun t ht => passes_addPass (hkept t ht).1 (hkept t ht).2,
    List.map_map, List.map_map]
  congr 1
  refine List.map_congr_left fun p _ => ?_
  cases p <;> rfl

theorem render_nil (h : ∀ t, .tag t ∈ page → t.Ready) (hnil : render page = []) :
    render (page.map (Piece.map Tag.fixed)) = [] := by
  rw [← passes_page h, hnil]
  rfl

theorem normalize_render (h : Ready page) :
    normalizeHtmlImageSrc (some (.ofList (render page))) =
      .ofList (render (page.map (Piece.map Tag.fixed))) := by
  unfold normalizeHtmlImageSrc
  dsimp only
  rw [String.toList_ofList]
  split
  · rename_i hblank
    rcases h.seen with hnil | ⟨c, hc, hseen⟩
    · rw [render_nil h.tags hnil]
    · rw [trimChars_eq_nil_iff.mp hblank c hc] at hseen
      cases hseen
  · rw [passes_page h.tags]

theorem Ready.fixed (h : Ready page) : Ready (page.map (Piece.map Tag.fixed)) where
  tags := by
    intro t' ht'
    obtain ⟨t, ht, rfl⟩ := mem_map_tag ht'
    exact ready_fixed (h.tags t ht)
  seen := by
    refine h.seen.imp (render_nil h.tags) ?_
    rintro ⟨c, hc, hseen⟩
    obtain ⟨p, hp, hc⟩ := List.mem_flatMap.mp hc
    have hmem := List.mem_map_of_mem (f := Piece.map Tag.fixed) hp
    cases p with
    | text cs hcs => exact ⟨c, List.mem_flatMap.mpr ⟨_, hmem, hc⟩, hseen⟩
    | tag t =>
      refine ⟨'<', List.mem_flatMap.mpr ⟨_, hmem, ?_⟩, by decide⟩
      change '<' ∈ t.fixed.text
      rw [Tag.text_eq]
      exact List.mem_append_left _ List.mem_cons_self

/-- A second time nothing is left to do. -/
theorem normalize_fixed (h : Ready page) :
    normalizeHtmlImageSrc (some (.ofList (render (page.map (Piece.map Tag.fixed))))) =
      .ofList (render (page.map (Piece.map Tag.fixed))) := by
  rw [normalize_render h.fixed, List.map_map]
  congr 2
  refine List.map_congr_left fun p _ => ?_
  cases p with
  | text cs hcs => rfl
  | tag t => exact congrArg Piece.tag (fixed_fixed t)

end

/-- An address is for data, or it has become absolute. -/
def SrcNormal (a a' : Attr) : Prop :=
  a'.space = a.space ∧ a'.name = a.name ∧
    (isData a.value = true ∧ a'.value = a.value ∨
      isHttp a'.value = true ∧ normalizeImageUrl (some (.ofList a.value)) = .ofList a'.value)

/-- A style goes on where the old one ends, up to white space. -/
def StyleExtends (old new : List Char) : Prop := new = old ∨ collapse (trimChars old) <+: new

/-- An image and what is to become of it: its source loads, it has a style, and the rest is as it
was. -/
structure Tag.Normal (t t' : Tag) : Prop where
  image : t'.isImg = true
  tail : t'.tail = t.tail
  others : t'.attrs.filter (fun a => !a.isSrc && !a.isStyle) =
    t.attrs.filter fun a => !a.isSrc && !a.isStyle
  srcs : List.Forall₂ SrcNormal (t.attrs.filter Attr.isSrc) (t'.attrs.filter Attr.isSrc)
  style : ∃ a', t'.attrs.filter Attr.isStyle = [a'] ∧
    ∀ a ∈ t.attrs, a.isStyle = true → StyleExtends a.value a'.value

inductive Piece.Normal : Piece → Piece → Prop
  | text (cs : List Char) (h : '<' ∉ cs) : Normal (.text cs h) (.text cs h)
  | other (t : Tag) (h : t.isImg = false) : Normal (.tag t) (.tag t)
  | image (t t' : Tag) (h : t.isImg = true) (hnormal : t.Normal t') : Normal (.tag t) (.tag t')

section
variable {t : Tag} {a : Attr}

theorem filter_map_fixed {p : Attr → Bool} (h : ∀ b : Attr, p b.fixed = p b) (attrs : List Attr) :
    (attrs.map Attr.fixed).filter p = (attrs.filter p).map Attr.fixed := by
  have hsame : p ∘ Attr.fixed = p := funext h
  rw [List.filter_map, hsame]

/-- What no pass is about is found again. -/
theorem filter_fixed {p : Attr → Bool} (h : ∀ b : Attr, p b.fixed = p b)
    (hinjected : p Attr.injected = false) (himg : t.isImg = true) :
    t.fixed.attrs.filter p = (t.attrs.filter p).map Attr.fixed := by
  rw [attrs_fixed himg]
  split
  · exact filter_map_fixed h _
  · rw [List.filter_cons_of_neg (by rw [hinjected]; exact Bool.false_ne_true)]
    exact filter_map_fixed h _

theorem isSrc_fixed (b : Attr) : b.fixed.isSrc = b.isSrc := Attr.isSrc_congr (name_fixed b)

theorem isStyle_fixed (b : Attr) : b.fixed.isStyle = b.isStyle := Attr.isStyle_congr (name_fixed b)

theorem fixed_other (hsrc : a.isSrc = false) (hstyle : a.isStyle = false) : a.fixed = a := by
  have hself : a.srcFixed = a := Attr.srcFixed_of_neg fun hpos => by
    rw [hsrc] at hpos
    exact Bool.false_ne_true hpos.1
  unfold Attr.fixed
  rw [hself, Attr.styleFixed_of_not_isStyle hstyle]

/-- Of a source that is not read the condition says that it loads. -/
theorem SrcReady.loadable (h : SrcReady t.attrs) (ha : a ∈ t.attrs) (hsrc : a.isSrc = true) :
    a.Addressed ∨ a.Loadable := by
  rcases takeWhile_cases Attr.isRead t.attrs with ⟨hall, -⟩ | ⟨b, post, hattrs, hread⟩
  · exact Or.inr ((h a (hall.symm ▸ ha)).2 hsrc)
  · obtain ⟨hbSrc, haddressed⟩ := isRead_iff.mp hread
    have hmem := ha
    rw [hattrs, List.mem_append, List.mem_cons] at hmem
    rcases hmem with hpre | rfl | hpost
    · exact Or.inr ((h a hpre).2 hsrc)
    · exact Or.inl haddressed
    · rw [(Tag.filter_split t.oneSrc hattrs hbSrc).2 a hpost] at hsrc
      cases hsrc

theorem srcNormal_fixed (hsrc : a.isSrc = true) (h : a.Addressed ∨ a.Loadable) :
    SrcNormal a a.fixed := by
  rw [fixed_of_isSrc hsrc]
  by_cases haddressed : a.Addressed
  · obtain ⟨hvalue, hspace⟩ := srcFixed_value hsrc haddressed
    refine ⟨hspace, Attr.name_srcFixed a, ?_⟩
    rw [hvalue]
    have hurl := normalizeImageUrl_spaceless haddressed.1 haddressed.2
    unfold srcValue
    split
    · rename_i hdata
      exact Or.inl ⟨hdata, rfl⟩
    · rw [String.ofList_toList, hurl]
      exact Or.inr ⟨isHttp_absoluteUrl _, rfl⟩
  · rw [Attr.srcFixed_of_neg fun hpos => haddressed hpos.2]
    refine ⟨rfl, rfl, ?_⟩
    rcases h.resolve_left haddressed with hdata | hhttp
    · exact Or.inl ⟨hdata, rfl⟩
    · exact Or.inr hhttp

theorem styleExtends_fixed (hstyle : a.isStyle = true) : StyleExtends a.value a.fixed.value := by
  have hself : a.srcFixed = a := Attr.srcFixed_of_neg fun hpos => by
    rw [Attr.not_isStyle_of_isSrc hpos.1] at hstyle
    cases hstyle
  unfold Attr.fixed
  rw [hself]
  unfold Attr.styleFixed
  split
  · exact Or.inr (squeezed_prefix_merged a.value)
  · exact Or.inl rfl

/-- An image becomes what it is to become. -/
theorem normal_fixed (himg : t.isImg = true) (hready : SrcReady t.attrs) : t.Normal t.fixed where
  image := (Tag.isImg_fixed t).trans himg
  tail := by
    rw [Tag.fixed_img himg]
    unfold Tag.styled
    split <;> rfl
  others := by
    rw [filter_fixed (fun b => by rw [isSrc_fixed, isStyle_fixed]) (by decide) himg]
    refine (List.map_congr_left fun a ha => ?_).trans (List.map_id _)
    have hother := (List.mem_filter.mp ha).2
    rw [Bool.and_eq_true, Bool.not_eq_true', Bool.not_eq_true'] at hother
    exact fixed_other hother.1 hother.2
  srcs := by
    rw [filter_fixed isSrc_fixed (by decide) himg, List.forall₂_map_right_iff,
      List.forall₂_same]
    intro a ha
    obtain ⟨hmem, hsrc⟩ := List.mem_filter.mp ha
    exact srcNormal_fixed hsrc (hready.loadable hmem hsrc)
  style := by
    rw [attrs_fixed himg]
    split
    · rename_i hany
      obtain ⟨a, ha, hstyle⟩ := List.any_eq_true.mp hany
      have hmem : a ∈ t.attrs.filter Attr.isStyle := List.mem_filter.mpr ⟨ha, hstyle⟩
      obtain ⟨b, hone⟩ : ∃ b, t.attrs.filter Attr.isStyle = [b] := by
        have hpos := List.length_pos_of_mem hmem
        have hle := t.oneStyle
        exact List.length_eq_one_iff.mp (by omega)
      refine ⟨b.fixed, by rw [filter_map_fixed isStyle_fixed, hone]; rfl, fun c hc hstyle => ?_⟩
      have hcmem : c ∈ t.attrs.filter Attr.isStyle := List.mem_filter.mpr ⟨hc, hstyle⟩
      rw [hone, List.mem_singleton] at hcmem
      rw [← hcmem]
      exact styleExtends_fixed hstyle
    · rename_i hnone
      have hempty : t.attrs.filter Attr.isStyle = [] :=
        List.filter_eq_nil_iff.mpr fun a ha hstyle => hnone (List.any_eq_true.mpr ⟨a, ha, hstyle⟩)
      refine ⟨Attr.injected, ?_, fun a ha hstyle => ?_⟩
      · rw [List.filter_cons_of_pos (by decide), filter_map_fixed isStyle_fixed, hempty]
        rfl
      · exact absurd (List.any_eq_true.mpr ⟨a, ha, hstyle⟩) hnone

end

/-- The page becomes one that differs from it in sources and styles of images only, and that stays
when it is normalised again. -/
def Normalized (page : List Piece) : Prop :=
  ∃ page', normalizeHtmlImageSrc (some (.ofList (render page))) = .ofList (render page') ∧
    List.Forall₂ Piece.Normal page page' ∧
    normalizeHtmlImageSrc (some (.ofList (render page'))) = .ofList (render page')

/-- **Images of rich text.** On a page that is ready the patterns do what they are for, and no
more. -/
theorem normalized_of_ready {page : List Piece} (h : Ready page) : Normalized page := by
  refine ⟨page.map (Piece.map Tag.fixed), normalize_render h, ?_, normalize_fixed h⟩
  rw [List.forall₂_map_right_iff, List.forall₂_same]
  intro p hp
  cases p with
  | text cs hcs => exact .text cs hcs
  | tag t =>
    cases himg : t.isImg with
    | false =>
      rw [Piece.map, Tag.fixed_other himg]
      exact .other t himg
    | true => exact .image t t.fixed himg (normal_fixed himg ((h.tags t hp).2 himg).1)

/-- `name="value"` behind one blank. -/
def blankAttr (name value : List Char) (hne : name ≠ []) (hname : name.all isNameChar = true)
    (hvalue : value.all isValueChar = true) : Attr :=
  { Attr.injected with
    name := name
    value := value
    name_ne := hne
    isNameChar_name := List.all_eq_true.mp hname
    isValueChar_value := List.all_eq_true.mp hvalue }

/-- `<IMG data-id="7" Style=" color: red" src="/h5/a.png" data-src="b.png"/>`. -/
def sampleImage : Tag where
  closing := false
  name := "IMG".toList
  attrs := [blankAttr "data-id".toList "7".toList (by decide) (by decide) (by decide),
    blankAttr "Style".toList " color: red".toList (by decide) (by decide) (by decide),
    blankAttr "src".toList "/h5/a.png".toList (by decide) (by decide) (by decide),
    blankAttr "data-src".toList "b.png".toList (by decide) (by decide) (by decide)]
  tail := ['/']
  name_ne := by decide
  isNameChar_name := forall_mem_of_all (by decide)
  tail_chars := forall_mem_of_all (by decide)
  oneSrc := by decide
  oneStyle := by decide

theorem normalized_sampleImage : Normalized [.text "1 > 0 ".toList (by decide), .tag sampleImage] := by
  refine normalized_of_ready ⟨fun t ht => ?_, Or.inr ⟨'1', by decide, by decide⟩⟩
  obtain rfl : t = sampleImage := by simpa using ht
  decide +kernel

/-- `<img data-src="/a.png" src="/b.png">`. -/
def lazyImage : Tag where
  closing := false
  name := "img".toList
  attrs := [blankAttr "data-src".toList "/a.png".toList (by decide) (by decide) (by decide),
    blankAttr "src".toList "/b.png".toList (by decide) (by decide) (by decide)]
  tail := []
  name_ne := by decide
  isNameChar_name := forall_mem_of_all (by decide)
  tail_chars := forall_mem_of_all (by decide)
  oneSrc := by decide
  oneStyle := by decide

/-- The address that is kept for later is found first: it becomes absolute, and the source does
not. -/
theorem lazyImage_taken : ¬ Normalized [.tag lazyImage] := by
  rintro ⟨page', hout, hnormal, -⟩
  cases hnormal with
  | @cons _ p _ rest hp hrest =>
    cases hrest
    cases hp with
    | other _ h => exact absurd h (by decide)
    | image _ t' _ hnormal =>
      have hother : lazyImage.attrs.head (by decide) ∈
          lazyImage.attrs.filter fun a => !a.isSrc && !a.isStyle :=
        List.mem_filter.mpr ⟨List.head_mem _, by decide⟩
      have hmem : lazyImage.attrs.head (by decide) ∈ t'.attrs :=
        (List.mem_filter.mp (hnormal.others ▸ hother)).1
      have hwithin : (lazyImage.attrs.head (by decide)).text <:+: t'.text := by
        have hattrs := Attr.text_within hmem
        rw [Tag.text_eq]
        exact (hattrs.trans (List.prefix_append _ _).isInfix).trans
          (List.suffix_append t'.start _).isInfix
      have hrender : render [.tag t'] = t'.text := List.append_nil _
      have hchars := congrArg String.toList hout
      rw [String.toList_ofList, hrender] at hchars
      rw [← hchars] at hwithin
      exact absurd hwithin (by decide +kernel)

end JtfpMall.Miniapp.RichText
