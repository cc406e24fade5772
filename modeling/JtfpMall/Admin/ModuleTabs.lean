import JtfpMall.Admin.PropertyForm
import JtfpMall.H5.PropertyTabs
import JtfpMall.Js.Order
import JtfpMall.Lib.Run

/-!
# The tabs of the property form

The form sorts the tabs of the configuration once and shows a row for each. A drag moves the row and
numbers the tabs anew as the array has them, which the drag has not moved; a switch sets the flag of
its tab.
-/

namespace JtfpMall.Admin

open JtfpMall.Js
open JtfpMall.Lib
open JtfpMall.H5.PropertyDetail (ModuleTab IsTab tabBar pageTabs)

def defaultTabs : List ModuleTab :=
  [⟨.str "property", .str "房源", .bool true, .num (.ofNat 1)⟩,
    ⟨.str "auction", .str "拍卖", .bool true, .num (.ofNat 2)⟩,
    ⟨.str "loan", .str "金融", .bool true, .num (.ofNat 3)⟩,
    ⟨.str "tax", .str "税费", .bool true, .num (.ofNat 4)⟩]

/-- `{ key, name, visible: visible !== false, order: order || 0 }`. -/
def asFormTab (tab : ModuleTab) : ModuleTab :=
  { tab with
    visible := .bool !(tab.visible.strictEq (.bool false))
    order := tab.order.or (.num (.fin 0)) }

def formTab (tab : JsVal) : Except JsError ModuleTab := do
  let key ← tab.prop "key"
  let name ← tab.prop "name"
  let visible ← tab.prop "visible"
  let order ← tab.prop "order"
  return asFormTab ⟨key, name, visible, order⟩

/-- `config` of `initModuleConfig`. -/
def parsedConfig (moduleConfig : JsVal) : JsVal :=
  match moduleConfig with
  | .str s => match Json.parse s with
    | .ok v => v
    | .error _ => .null
  | v => v

def initModuleConfig (moduleConfig : JsVal) : Except JsError (List ModuleTab) :=
  if (parsedConfig moduleConfig).truthy then do
    match ← (parsedConfig moduleConfig).prop "tabs" with
    | .arr tabs =>
      let tabs ← tabs.mapM formTab
      arraySort ModuleTab.byOrder tabs
    | _ => return defaultTabs
  else .ok defaultTabs

/-- The tabs of the form, and the rows as they stand on the screen, each named by the place of its
tab. -/
structure ModuleForm where
  moduleTabs : List ModuleTab
  rows : List ℕ
deriving DecidableEq

inductive ModuleEvent where
  | drag (old new : ℕ)
  | toggle (i : ℕ)

namespace ModuleForm

/-- The form once `fetchDetail` has read the property. -/
def opened (row : Row) : Except JsError ModuleForm :=
  (initModuleConfig (row.get "module_config").viaJson).map fun tabs =>
    ⟨tabs, List.range tabs.length⟩

/-- `onEnd` of the drag library. -/
def numbered (tabs : List ModuleTab) : List ModuleTab :=
  tabs.mapIdx fun i tab => { tab with order := .num (.ofNat (i + 1)) }

def setVisible (visible : Bool) (tab : ModuleTab) : ModuleTab :=
  { tab with visible := .bool visible }

def handleModuleVisibilityChange (tabs : List ModuleTab) : List ModuleTab :=
  if (tabs.filter ModuleTab.shown).length = 0 then
    tabs.modify (tabs.length - 1) (setVisible true)
  else tabs

def step (form : ModuleForm) : ModuleEvent → Option ModuleForm
  | .drag old new => match form.rows[old]? with
    | some row =>
      if new < form.rows.length then
        some ⟨numbered form.moduleTabs, (form.rows.eraseIdx old).insertIdx new row⟩
      else none
    | none => none
  | .toggle i =>
    if i < form.moduleTabs.length then
      some { form with
        moduleTabs := handleModuleVisibilityChange
          (form.moduleTabs.modify i fun tab => setVisible (!tab.shown) tab) }
    else none

def savedTab (tab : ModuleTab) : JsVal :=
  .obj [("key", tab.key), ("name", tab.name), ("visible", tab.visible), ("order", tab.order)]

/-- `module_config` of `submitData`. -/
def savedConfig (form : ModuleForm) : JsVal :=
  .obj [("tabs", .arr (form.moduleTabs.map savedTab))]

/-- The property after the form is saved. -/
def SavedRow (form : ModuleForm) (row : Row) : Prop :=
  ∃ body : Row, body.get "module_config" = form.savedConfig.viaJson ∧ SavedFrom body row

/-- The tabs in the order of their rows. -/
def displayed (form : ModuleForm) : List ModuleTab :=
  form.rows.filterMap fun i => form.moduleTabs[i]?

/-- Once saved, the page shows the tabs that are switched on, as the form displays them, and there is
one. -/
def Arranged (form : ModuleForm) : Prop :=
  ∀ row, form.SavedRow row →
    pageTabs row = .ok ((form.displayed.filter ModuleTab.shown).map ModuleTab.title) ∧
      form.displayed.filter ModuleTab.shown ≠ []

/-- Opened and saved, the property has the tabs it had. -/
def Unchanged (row : Row) : Prop :=
  ∀ form, opened row = .ok form → ∀ saved, form.SavedRow saved → pageTabs saved = pageTabs row

def visibleAt (form : ModuleForm) (i : ℕ) : Bool := form.moduleTabs[i]?.any ModuleTab.shown

/-- A drag leaves the rows that are switched on in their order; a row that is switched on stands
where the array has its tab, among those that are on. -/
def InOrder (form : ModuleForm) : ModuleEvent → Prop
  | .drag old new => ∀ row, form.rows[old]? = some row → new < form.rows.length →
      ((form.rows.eraseIdx old).insertIdx new row).filter form.visibleAt =
        form.rows.filter form.visibleAt
  | .toggle i => form.visibleAt i = false →
      form.rows.filter (fun j => form.visibleAt j || decide (j = i)) =
        (List.range form.moduleTabs.length).filter fun j => form.visibleAt j || decide (j = i)

end ModuleForm

/-- A stored configuration: its tabs have texts as keys and names, no two the same key, and one of
them is not switched off. -/
structure Stored (row : Row) (tabs : List ModuleTab) : Prop where
  json : (Properties.moduleConfigOf row).IsJson
  read : ∃ vs, (Properties.moduleConfigOf row).prop "tabs" = .ok (.arr vs) ∧
    List.Forall₂ IsTab vs tabs
  texts : ∀ tab ∈ tabs, ∃ key name, tab.key = .str key ∧ tab.name = .str name
  keys : (tabs.map ModuleTab.key).Nodup
  shown : ∃ tab ∈ tabs, tab.visible ≠ .bool false
  length : tabs.length < 2 ^ 32

/-- The page and the form read the flags alike, and the order numbers of two tabs on the page. -/
def ReadAlike (tabs : List ModuleTab) : Prop :=
  (∀ tab ∈ tabs, tab.visible ≠ .bool false → tab.shown = true) ∧
    (tabs.filter ModuleTab.shown).Pairwise fun a b =>
      (mayPrecede ModuleTab.byOrder a b = true ↔
        mayPrecede ModuleTab.byOrder (asFormTab a) (asFormTab b) = true)

/-- The configuration of the body is what is saved, as JSON text. -/
theorem moduleConfig_saved {body row : Row} {v : JsVal} (hv : v.IsJson) (htext : ∀ s, v ≠ .str s)
    (hb : body.get "module_config" = v) (h : SavedFrom body row) :
    Properties.moduleConfigOf row = v := by
  have hsaved : ∀ data, PropertyRoutes.withShopFields body = .ok data →
      data.get "module_config" = .str (String.ofList (Json.chars v)) ∧
        data.has "module_config" = true := by
    intro data h
    obtain ⟨r1, r2, r3, r4, r5, _, _, _, _, _, h6⟩ := withShopFields_steps h
    unfold PropertyRoutes.setWhenGiven at h6
    rw [hb, if_neg hv.ne_undefined] at h6
    have hstringify : PropertyRoutes.asText v = .str (String.ofList (Json.chars v)) := by
      unfold PropertyRoutes.asText
      split
      · exact absurd rfl (htext _)
      · exact if_neg hv.ne_undefined
    rw [← Except.ok.inj h6, hstringify]
    exact ⟨Dict.get_set_self _ _ _, by simp [Dict.has_set]⟩
  have hrow : row.get "module_config" = .str (String.ofList (Json.chars v)) := by
    cases h with
    | post h id now =>
      simp [Store.newRow, Properties.newProperty, Dict.get_set, (hsaved _ h).1]
    | put h old now =>
      rw [get_merged_of_ne (by decide), (hsaved _ h).2, if_pos rfl, (hsaved _ h).1]
  have htruthy : (JsVal.str (String.ofList (Json.chars v))).truthy = true := by
    have hne := Json.chars_ne_nil hv
    simpa [JsVal.truthy] using hne
  unfold Properties.moduleConfigOf
  rw [hrow, if_pos htruthy]
  dsimp only
  rw [Json.parse_chars hv]

namespace ModuleForm

/-- The values of a tab are JSON. -/
structure TabJson (tab : ModuleTab) : Prop where
  key : tab.key.IsJson
  name : tab.name.IsJson
  order : tab.order.IsJson

/-- The tabs of a form: JSON, without a key twice, and in their order. -/
structure Ordered (tabs : List ModuleTab) : Prop where
  json : ∀ tab ∈ tabs, TabJson tab
  keys : (tabs.map ModuleTab.key).Nodup
  length : tabs.length < 2 ^ 32
  total : ∀ a ∈ tabs, ∀ b ∈ tabs, ∃ n, a.byOrder b = .ok n
  sorted : tabs.Pairwise fun a b => mayPrecede ModuleTab.byOrder a b = true

/-- A switch is on or off. -/
def Switches (tabs : List ModuleTab) : Prop := ∀ tab ∈ tabs, ∃ b, tab.visible = .bool b

section
variable {form : ModuleForm}

theorem isTab_savedTab (tab : ModuleTab) : IsTab (savedTab tab) tab := by
  constructor <;> rfl

theorem isJson_savedConfig (h : Ordered form.moduleTabs) (hflags : Switches form.moduleTabs) :
    form.savedConfig.IsJson := by
  have htabs : ∀ tabs : List ModuleTab, (∀ tab ∈ tabs, TabJson tab) → Switches tabs →
      JsVal.AllJson (tabs.map savedTab) := by
    intro tabs
    induction tabs with
    | nil => exact fun _ _ => trivial
    | cons tab tabs ih =>
      intro hjson hflags
      refine ⟨⟨by change ["key", "name", "visible", "order"].Nodup; decide, ?_⟩, ih (fun t ht => hjson t (List.mem_cons_of_mem tab ht))
        fun t ht => hflags t (List.mem_cons_of_mem tab ht)⟩
      obtain ⟨hkey, hname, horder⟩ := hjson tab List.mem_cons_self
      obtain ⟨b, hb⟩ := hflags tab List.mem_cons_self
      exact ⟨hkey, hname, hb ▸ trivial, horder, trivial⟩
  exact ⟨List.nodup_singleton _, htabs _ h.json hflags, trivial⟩

theorem arraySort_of_sorted {tabs : List ModuleTab} (h : Ordered tabs) :
    arraySort ModuleTab.byOrder (tabs.filter ModuleTab.shown) = .ok (tabs.filter ModuleTab.shown) := by
  refine arraySort_eq_self (fun a ha b hb => ?_) (h.sorted.sublist List.filter_sublist)
  exact h.total a (List.mem_of_mem_filter ha) b (List.mem_of_mem_filter hb)

/-- The page of a saved property shows the tabs that are switched on, as the array has them. -/
theorem pageTabs_saved (h : Ordered form.moduleTabs) (hflags : Switches form.moduleTabs) {row : Row}
    (hrow : form.SavedRow row) :
    pageTabs row = .ok ((form.moduleTabs.filter ModuleTab.shown).map ModuleTab.title) := by
  obtain ⟨body, hbody, hsaved⟩ := hrow
  have hjson := isJson_savedConfig h hflags
  rw [hjson.viaJson_eq] at hbody
  have hconfig := moduleConfig_saved hjson (fun _ => JsVal.noConfusion) hbody hsaved
  have htabs : List.Forall₂ IsTab (form.moduleTabs.map savedTab) form.moduleTabs := by
    rw [List.forall₂_map_left_iff]
    exact List.forall₂_same.mpr fun tab _ => isTab_savedTab tab
  unfold pageTabs
  rw [hconfig, hjson.viaJson_eq, H5.PropertyDetail.tabBar_eq rfl htabs, arraySort_of_sorted h]
  rfl

theorem exists_savedRow (form : ModuleForm) : ∃ row, form.SavedRow row := by
  let body : Row := Dict.ofList [("module_config", form.savedConfig.viaJson)]
  obtain ⟨data, hdata⟩ : ∃ data, PropertyRoutes.withShopFields body = .ok data := ⟨_, rfl⟩
  exact ⟨_, body, rfl, .post hdata 1 ""⟩

/-- The rows that are switched on stand as the array has their tabs. -/
def Straight (form : ModuleForm) : Prop :=
  form.rows.filter form.visibleAt = (List.range form.moduleTabs.length).filter form.visibleAt

/-- What holds of the form however the rows stand. -/
structure Ready (form : ModuleForm) : Prop where
  ordered : Ordered form.moduleTabs
  switches : Switches form.moduleTabs
  rows : form.rows.Perm (List.range form.moduleTabs.length)
  shown : ∃ tab ∈ form.moduleTabs, tab.shown = true

theorem filterMap_range {α : Type} (l : List α) :
    (List.range l.length).filterMap (fun i => l[i]?) = l := by
  have hall : (List.range l.length).map (fun i => l[i]?) = l.map some := by
    refine List.ext_getElem (by simp) fun i hi hi' => ?_
    simp only [List.length_map] at hi'
    simp [hi']
  have hid : (List.range l.length).filterMap (fun i => l[i]?) =
      ((List.range l.length).map fun i => l[i]?).filterMap id := by
    rw [List.filterMap_map]
    rfl
  rw [hid, hall, List.filterMap_map]
  exact List.filterMap_some

theorem filter_shown (form : ModuleForm) (rows : List ℕ) :
    (rows.filterMap fun i => form.moduleTabs[i]?).filter ModuleTab.shown =
      (rows.filter form.visibleAt).filterMap fun i => form.moduleTabs[i]? := by
  rw [List.filter_filterMap, List.filterMap_filter]
  congr 1
  funext i
  unfold visibleAt
  cases form.moduleTabs[i]? with
  | none => rfl
  | some tab => rfl

theorem moduleTabs_shown (form : ModuleForm) : form.moduleTabs.filter ModuleTab.shown =
    ((List.range form.moduleTabs.length).filter form.visibleAt).filterMap
      fun i => form.moduleTabs[i]? := by
  rw [← filter_shown, filterMap_range]

/-- Rows are told apart by the keys of their tabs. -/
theorem rows_eq_of_keys (h : Ordered form.moduleTabs) {is js : List ℕ}
    (hi : ∀ i ∈ is, i < form.moduleTabs.length) (hj : ∀ j ∈ js, j < form.moduleTabs.length)
    (hkeys : (is.filterMap fun i => form.moduleTabs[i]?).map ModuleTab.key =
      (js.filterMap fun j => form.moduleTabs[j]?).map ModuleTab.key) : is = js := by
  induction is generalizing js with
  | nil =>
    cases js with
    | nil => rfl
    | cons j js =>
      rw [List.filterMap_cons_some (List.getElem?_eq_getElem (hj j List.mem_cons_self))] at hkeys
      cases hkeys
  | cons i is ih =>
    rw [List.filterMap_cons_some (List.getElem?_eq_getElem (hi i List.mem_cons_self))] at hkeys
    cases js with
    | nil => cases hkeys
    | cons j js =>
      rw [List.filterMap_cons_some (List.getElem?_eq_getElem (hj j List.mem_cons_self)),
        List.map_cons, List.map_cons] at hkeys
      obtain ⟨hkey, hrest⟩ := List.cons.inj hkeys
      have hsame : (form.moduleTabs.map ModuleTab.key)[i]? =
          (form.moduleTabs.map ModuleTab.key)[j]? := by
        rw [List.getElem?_map, List.getElem?_map,
          List.getElem?_eq_getElem (hi i List.mem_cons_self),
          List.getElem?_eq_getElem (hj j List.mem_cons_self)]
        exact congrArg some hkey
      have hij : i = j := by
        refine (List.getElem?_inj ?_ h.keys).mp hsame
        rw [List.length_map]
        exact hi i List.mem_cons_self
      rw [hij, ih (fun i hmem => hi i (List.mem_cons_of_mem _ hmem))
        (fun j hmem => hj j (List.mem_cons_of_mem _ hmem)) hrest]

/-- The page shows the tabs as the form does exactly when the rows that are on stand as the array
has them. -/
theorem arranged_iff (h : form.Ready) : form.Arranged ↔ form.Straight := by
  have hdisplayed : form.displayed.filter ModuleTab.shown =
      (form.rows.filter form.visibleAt).filterMap fun i => form.moduleTabs[i]? :=
    filter_shown form form.rows
  constructor
  · intro harranged
    obtain ⟨row, hrow⟩ := exists_savedRow form
    have htitles := (harranged row hrow).1
    rw [pageTabs_saved h.ordered h.switches hrow, Except.ok.injEq, hdisplayed,
      moduleTabs_shown] at htitles
    have hkeys := congrArg (List.map Prod.fst) htitles
    rw [List.map_map, List.map_map] at hkeys
    refine (rows_eq_of_keys h.ordered (fun i hi => ?_) (fun i hi => ?_) hkeys).symm
    · exact List.mem_range.mp (List.mem_of_mem_filter hi)
    · exact List.mem_range.mp (h.rows.subset (List.mem_of_mem_filter hi))
  · intro hstraight row hrow
    rw [hdisplayed, hstraight, ← moduleTabs_shown]
    refine ⟨pageTabs_saved h.ordered h.switches hrow, ?_⟩
    obtain ⟨tab, htab, hshown⟩ := h.shown
    exact List.ne_nil_of_mem (List.mem_filter.mpr ⟨htab, hshown⟩)

/-- The tab but for its flag. -/
def unflagged (tab : ModuleTab) : ModuleTab := setVisible false tab

theorem Ordered.of_unflagged {tabs tabs' : List ModuleTab} (h : Ordered tabs)
    (hsame : tabs'.map unflagged = tabs.map unflagged) : Ordered tabs' := by
  have hmem : ∀ tab ∈ tabs', ∃ old ∈ tabs, unflagged old = unflagged tab := by
    intro tab htab
    have hin := List.mem_map_of_mem (f := unflagged) htab
    rw [hsame] at hin
    obtain ⟨old, hold, heq⟩ := List.mem_map.mp hin
    exact ⟨old, hold, heq⟩
  have hfields : ∀ {old tab : ModuleTab}, unflagged old = unflagged tab →
      old.key = tab.key ∧ old.name = tab.name ∧ old.order = tab.order := by
    intro old tab heq
    have hkey := congrArg ModuleTab.key heq
    have hname := congrArg ModuleTab.name heq
    have horder := congrArg ModuleTab.order heq
    exact ⟨hkey, hname, horder⟩
  constructor
  · intro tab htab
    obtain ⟨old, hold, heq⟩ := hmem tab htab
    obtain ⟨hkey, hname, horder⟩ := hfields heq
    obtain ⟨k, n, o⟩ := h.json old hold
    exact ⟨hkey ▸ k, hname ▸ n, horder ▸ o⟩
  · have hkeys := congrArg (List.map ModuleTab.key) hsame
    rw [List.map_map, List.map_map] at hkeys
    exact (show tabs'.map ModuleTab.key = tabs.map ModuleTab.key from hkeys) ▸ h.keys
  · have hlength := congrArg List.length hsame
    rw [List.length_map, List.length_map] at hlength
    exact hlength ▸ h.length
  · intro a ha b hb
    obtain ⟨a', ha', heqa⟩ := hmem a ha
    obtain ⟨b', hb', heqb⟩ := hmem b hb
    obtain ⟨n, hn⟩ := h.total a' ha' b' hb'
    unfold ModuleTab.byOrder at hn ⊢
    rw [(hfields heqa).2.2, (hfields heqb).2.2] at hn
    exact ⟨n, hn⟩
  · have hsorted : (tabs.map unflagged).Pairwise fun a b =>
        mayPrecede ModuleTab.byOrder a b = true := List.pairwise_map.mpr h.sorted
    rw [← hsame] at hsorted
    exact List.pairwise_map.mp hsorted

theorem map_modify_unflagged (tabs : List ModuleTab) (i : ℕ) {f : ModuleTab → ModuleTab}
    (hf : ∀ tab, unflagged (f tab) = unflagged tab) :
    (tabs.modify i f).map unflagged = tabs.map unflagged := by
  refine List.ext_getElem (by simp) fun j hj hj' => ?_
  rw [List.getElem_map, List.getElem_map, List.getElem_modify]
  split
  · exact hf _
  · rfl

theorem mayPrecede_of_numbers {a b : ModuleTab} {m n : JsNum} (ha : a.order = .num m)
    (hb : b.order = .num n) (hm : m.IsDouble) (hn : n.IsDouble) :
    mayPrecede ModuleTab.byOrder a b = true ↔ m.place ≤ n.place := by
  have hsub : b.byOrder a = .ok (n.sub m) := by
    unfold ModuleTab.byOrder
    rw [ha, hb]
    rfl
  unfold mayPrecede
  rw [hsub]
  dsimp only
  rw [bne_iff_ne]
  exact sub_not_neg_iff hn hm

theorem length_numbered (tabs : List ModuleTab) : (numbered tabs).length = tabs.length :=
  List.length_mapIdx

/-- A drag numbers the tabs in the order of the array. -/
theorem ordered_numbered {tabs : List ModuleTab} (h : Ordered tabs) : Ordered (numbered tabs) := by
  have hlength := length_numbered tabs
  have hget : ∀ i (hi : i < (numbered tabs).length), (numbered tabs)[i] =
      { tabs.get ⟨i, hlength ▸ hi⟩ with order := .num (.ofNat (i + 1)) } :=
    fun i hi => List.getElem_mapIdx
  have hdouble : ∀ i < (numbered tabs).length, (JsNum.ofNat (i + 1)).IsDouble := by
    intro i hi
    have hsmall := h.length
    rw [hlength] at hi
    exact isDouble_ofNat (by omega)
  have hmem : ∀ tab ∈ numbered tabs, ∃ old ∈ tabs, ∃ i < (numbered tabs).length,
      tab = { old with order := .num (.ofNat (i + 1)) } := by
    intro tab htab
    obtain ⟨i, hi, rfl⟩ := List.mem_iff_getElem.mp htab
    exact ⟨_, List.get_mem _ _, i, hi, hget i hi⟩
  constructor
  · intro tab htab
    obtain ⟨old, hold, i, hi, rfl⟩ := hmem tab htab
    exact ⟨(h.json old hold).key, (h.json old hold).name, rfl, hdouble i hi⟩
  · have hkeys : (numbered tabs).map ModuleTab.key = tabs.map ModuleTab.key := by
      refine List.ext_getElem (by rw [List.length_map, List.length_map, hlength]) fun i hi hi' => ?_
      rw [List.getElem_map, List.getElem_map, hget i (by rwa [List.length_map] at hi)]
      rfl
    exact hkeys ▸ h.keys
  · exact hlength ▸ h.length
  · intro a ha b hb
    obtain ⟨_, _, i, _, rfl⟩ := hmem a ha
    obtain ⟨_, _, j, _, rfl⟩ := hmem b hb
    exact ⟨_, rfl⟩
  · refine List.pairwise_iff_getElem.mpr fun i j hi hj hij => ?_
    rw [hget i hi, hget j hj]
    refine (mayPrecede_of_numbers rfl rfl (hdouble i hi) (hdouble j hj)).mpr ?_
    have hle : ((i + 1 : ℕ) : ℚ) ≤ ((j + 1 : ℕ) : ℚ) := by exact_mod_cast by omega
    exact WithBot.coe_le_coe.mpr (WithTop.coe_le_coe.mpr hle)

theorem any_numbered (tabs : List ModuleTab) (i : ℕ) :
    (numbered tabs)[i]?.any ModuleTab.shown = tabs[i]?.any ModuleTab.shown := by
  unfold numbered
  rw [List.getElem?_mapIdx]
  cases tabs[i]? <;> rfl

theorem switches_numbered {tabs : List ModuleTab} (h : Switches tabs) : Switches (numbered tabs) := by
  intro tab htab
  obtain ⟨i, hi, rfl⟩ := List.mem_iff_getElem.mp htab
  unfold numbered at hi ⊢
  rw [List.getElem_mapIdx]
  rw [List.length_mapIdx] at hi
  exact h (tabs.get ⟨i, hi⟩) (List.get_mem _ _)

theorem exists_shown_iff {tabs : List ModuleTab} :
    (∃ tab ∈ tabs, tab.shown = true) ↔ ∃ j : ℕ, tabs[j]?.any ModuleTab.shown = true := by
  constructor
  · rintro ⟨tab, htab, hon⟩
    obtain ⟨j, hj⟩ := List.mem_iff_getElem?.mp htab
    exact ⟨j, (Option.any_eq_true _ _).mpr ⟨tab, hj, hon⟩⟩
  · rintro ⟨j, hj⟩
    obtain ⟨tab, htab, hon⟩ := (Option.any_eq_true _ _).mp hj
    exact ⟨tab, List.mem_of_getElem? htab, hon⟩

theorem any_modify (tabs : List ModuleTab) (i : ℕ) (b : Bool) {j : ℕ} (hj : j < tabs.length) :
    (tabs.modify i (setVisible b))[j]?.any ModuleTab.shown =
      if i = j then b else tabs[j]?.any ModuleTab.shown := by
  rw [List.getElem?_modify, List.getElem?_eq_getElem hj]
  split
  · cases b <;> rfl
  · rfl

/-- The switch of a row turns the flag of its tab. -/
theorem modify_toggle (form : ModuleForm) (i : ℕ) :
    form.moduleTabs.modify i (fun tab => setVisible (!tab.shown) tab) =
      form.moduleTabs.modify i (setVisible !(form.visibleAt i)) := by
  refine List.ext_getElem? fun j => ?_
  rw [List.getElem?_modify, List.getElem?_modify]
  unfold visibleAt
  by_cases hij : i = j
  · subst hij
    cases form.moduleTabs[i]? <;> simp
  · simp only [if_neg hij]

theorem switches_modify {tabs : List ModuleTab} (h : Switches tabs) (i : ℕ) (b : Bool) :
    Switches (tabs.modify i (setVisible b)) := by
  intro tab htab
  obtain ⟨j, hj, rfl⟩ := List.mem_iff_getElem.mp htab
  rw [List.getElem_modify]
  split
  · exact ⟨b, rfl⟩
  · exact h _ (List.getElem_mem _)

theorem ordered_modify {tabs : List ModuleTab} (h : Ordered tabs) (i : ℕ) (b : Bool) :
    Ordered (tabs.modify i (setVisible b)) :=
  h.of_unflagged (map_modify_unflagged tabs i fun _ => rfl)

/-- When the last tab goes off, the last tab of the array goes on. -/
theorem handleModuleVisibilityChange_eq (tabs : List ModuleTab) :
    (∃ tab ∈ tabs, tab.shown = true) ∧ handleModuleVisibilityChange tabs = tabs ∨
      (∀ j : ℕ, tabs[j]?.any ModuleTab.shown = false) ∧
        handleModuleVisibilityChange tabs = tabs.modify (tabs.length - 1) (setVisible true) := by
  unfold handleModuleVisibilityChange
  split
  · rename_i hnone
    refine Or.inr ⟨fun j => ?_, rfl⟩
    rw [List.length_eq_zero_iff, List.filter_eq_nil_iff] at hnone
    cases hj : tabs[j]? with
    | none => rfl
    | some tab => exact Bool.eq_false_iff.mpr (hnone tab (List.mem_of_getElem? hj))
  · rename_i hsome
    obtain ⟨tab, htab⟩ := List.exists_mem_of_length_pos (Nat.pos_of_ne_zero hsome)
    rw [List.mem_filter] at htab
    exact Or.inl ⟨⟨tab, htab⟩, rfl⟩

theorem rows_drag {rows rows' : List ℕ} (h : rows.Perm rows') {old new row : ℕ}
    (hold : rows[old]? = some row) (hnew : new < rows.length) :
    ((rows.eraseIdx old).insertIdx new row).Perm rows' := by
  obtain ⟨hi, rfl⟩ := List.getElem?_eq_some_iff.mp hold
  have hle : new ≤ (rows.eraseIdx old).length := by
    rw [List.length_eraseIdx_of_lt hi]
    omega
  exact ((List.perm_insertIdx _ _ hle).trans (List.getElem_cons_eraseIdx_perm hi)).trans h

theorem ready_step (form : ModuleForm) (e : ModuleEvent) (form' : ModuleForm) (h : form.Ready)
    (hstep : form.step e = some form') : form'.Ready := by
  obtain ⟨hordered, hswitches, hrows, hshown⟩ := h
  cases e with
  | drag old new =>
    unfold step at hstep
    dsimp only at hstep
    split at hstep
    · rename_i row hold
      split at hstep
      · rename_i hnew
        rw [← Option.some.inj hstep]
        refine ⟨ordered_numbered hordered, switches_numbered hswitches, ?_, ?_⟩
        · dsimp only
          rw [length_numbered]
          exact rows_drag hrows hold hnew
        · obtain ⟨j, hj⟩ := exists_shown_iff.mp hshown
          exact exists_shown_iff.mpr ⟨j, by rw [any_numbered, hj]⟩
      · cases hstep
    · cases hstep
  | toggle i =>
    unfold step at hstep
    dsimp only at hstep
    split at hstep
    · rename_i hi
      rw [← Option.some.inj hstep, modify_toggle]
      have hordered' := ordered_modify hordered i !(form.visibleAt i)
      have hswitches' := switches_modify hswitches i !(form.visibleAt i)
      rcases handleModuleVisibilityChange_eq
        (form.moduleTabs.modify i (setVisible !(form.visibleAt i))) with ⟨hon, heq⟩ | ⟨_, heq⟩
      · rw [heq]
        exact ⟨hordered', hswitches', by rwa [List.length_modify], hon⟩
      · rw [heq]
        refine ⟨ordered_modify hordered' _ _, switches_modify hswitches' _ _, ?_, ?_⟩
        · dsimp only
          rwa [List.length_modify, List.length_modify]
        · rw [List.length_modify]
          refine exists_shown_iff.mpr ⟨form.moduleTabs.length - 1, ?_⟩
          rw [any_modify _ _ _ (by rw [List.length_modify]; omega), if_pos rfl]
    · cases hstep

/-- How the rows stand depends on the flags of the tabs only. -/
theorem straight_iff_filter {rows : List ℕ} {tabs : List ModuleTab} {n : ℕ} {p : ℕ → Bool}
    (hrows : rows.Perm (List.range n)) (hlength : tabs.length = n)
    (hp : ∀ j < n, tabs[j]?.any ModuleTab.shown = p j) :
    Straight ⟨tabs, rows⟩ ↔ rows.filter p = (List.range n).filter p := by
  have hrange : (List.range n).filter (visibleAt ⟨tabs, rows⟩) = (List.range n).filter p :=
    List.filter_congr fun j hj => hp j (List.mem_range.mp hj)
  have hfilter : rows.filter (visibleAt ⟨tabs, rows⟩) = rows.filter p :=
    List.filter_congr fun j hj => hp j (List.mem_range.mp (hrows.subset hj))
  unfold Straight
  rw [hfilter, hlength, hrange]

theorem filter_eq_of_single {rows rows' : List ℕ} (h : rows.Perm rows') {p : ℕ → Bool} {i : ℕ}
    (hp : rows'.filter p = [i]) : rows.filter p = rows'.filter p := by
  have hperm := h.filter p
  rw [hp] at hperm ⊢
  exact List.perm_singleton.mp hperm

theorem filter_range_single {n i : ℕ} (hi : i < n) :
    (List.range n).filter (fun j => decide (i = j)) = [i] := by
  have hone := List.nodup_range (n := n)
  refine List.perm_singleton.mp ((List.perm_ext_iff_of_nodup (hone.filter _)
    (List.nodup_singleton i)).mpr fun j => ?_)
  rw [List.mem_filter, List.mem_range, decide_eq_true_eq, List.mem_singleton]
  exact ⟨fun h => h.2.symm, fun h => ⟨h ▸ hi, h.symm⟩⟩

/-- Switching a row moves none: off, the others stand as they stood; on, it matters where it stands;
and a last tab that goes on again stands alone. -/
theorem straight_toggle_iff (h : form.Ready) (hstraight : form.Straight) {i : ℕ}
    (hi : i < form.moduleTabs.length) :
    Straight ⟨handleModuleVisibilityChange
      (form.moduleTabs.modify i (setVisible !(form.visibleAt i))), form.rows⟩ ↔
        form.InOrder (.toggle i) := by
  have hany : ∀ j < form.moduleTabs.length,
      (form.moduleTabs.modify i (setVisible !(form.visibleAt i)))[j]?.any ModuleTab.shown =
        if i = j then !(form.visibleAt i) else form.visibleAt j :=
    fun j hj => any_modify _ _ _ hj
  rcases handleModuleVisibilityChange_eq
    (form.moduleTabs.modify i (setVisible !(form.visibleAt i))) with ⟨_, heq⟩ | ⟨hnone, heq⟩
  · rw [heq, straight_iff_filter h.rows (List.length_modify _ _ _) hany]
    unfold InOrder
    dsimp only
    cases hon : form.visibleAt i with
    | true =>
      have hcut : (fun j => if i = j then !true else form.visibleAt j) =
          fun j => decide (i ≠ j) && form.visibleAt j := by
        funext j
        by_cases hij : i = j <;> simp [hij]
      refine iff_of_true ?_ fun h => nomatch h
      rw [hcut, ← List.filter_filter, ← List.filter_filter]
      exact congrArg _ hstraight
    | false =>
      have hjoin : (fun j => if i = j then !false else form.visibleAt j) =
          fun j => form.visibleAt j || decide (j = i) := by
        funext j
        by_cases hij : i = j
        · simp [hij]
        · simp [hij, Ne.symm hij]
      rw [hjoin]
      exact ⟨fun h _ => h, fun h => h rfl⟩
  · -- every flag was off, so the row was on
    have hon : form.visibleAt i = true := by
      have hoff := hnone i
      rw [hany i hi, if_pos rfl] at hoff
      simpa using hoff
    have hlast : form.moduleTabs.length - 1 < form.moduleTabs.length := by omega
    have hsingle : ∀ j < form.moduleTabs.length,
        ((form.moduleTabs.modify i (setVisible !(form.visibleAt i))).modify
          (form.moduleTabs.length - 1) (setVisible true))[j]?.any ModuleTab.shown =
            decide (form.moduleTabs.length - 1 = j) := by
      intro j hj
      rw [any_modify _ _ _ (by rwa [List.length_modify]), hnone j]
      split <;> simp_all
    rw [heq, List.length_modify, straight_iff_filter h.rows (by simp) hsingle]
    refine iff_of_true (filter_eq_of_single h.rows (filter_range_single hlast)) ?_
    intro hoff
    rw [hon] at hoff
    cases hoff

/-- Whether a step keeps the order is whether the page shows what the form does after it. -/
theorem inOrder_iff (h : form.Ready) (hstraight : form.Straight) (e : ModuleEvent) :
    form.InOrder e ↔ ∀ form', form.step e = some form' → form'.Straight := by
  cases e with
  | drag old new =>
    unfold InOrder step
    dsimp only
    cases hold : form.rows[old]? with
    | none => exact iff_of_true (fun _ h => nomatch h) fun _ h => nomatch h
    | some row =>
      dsimp only
      by_cases hnew : new < form.rows.length
      · rw [if_pos hnew]
        simp only [Option.some.injEq, forall_eq', hnew, forall_const]
        rw [straight_iff_filter (rows_drag h.rows hold hnew) (length_numbered _) fun j _ =>
          any_numbered form.moduleTabs j]
        exact (show form.rows.filter form.visibleAt = _ from hstraight) ▸ Iff.rfl
      · rw [if_neg hnew]
        exact iff_of_true (fun _ _ h => absurd h hnew) fun _ h => nomatch h
  | toggle i =>
    unfold step
    dsimp only
    by_cases hi : i < form.moduleTabs.length
    · rw [if_pos hi, modify_toggle]
      simp only [Option.some.injEq, forall_eq']
      exact (straight_toggle_iff h hstraight hi).symm
    · rw [if_neg hi]
      refine iff_of_true (fun _ => ?_) fun _ h => nomatch h
      have hsame : ∀ j ∈ List.range form.moduleTabs.length,
          (form.visibleAt j || decide (j = i)) = form.visibleAt j := by
        intro j hj
        have hne : j ≠ i := fun hji => hi (hji ▸ List.mem_range.mp hj)
        rw [decide_eq_false hne, Bool.or_false]
      rw [List.filter_congr hsame, List.filter_congr fun j hj => hsame j (h.rows.subset hj)]
      exact hstraight

end

end ModuleForm

theorem isTab_unique {v : JsVal} {tab tab' : ModuleTab} (h : IsTab v tab) (h' : IsTab v tab') :
    tab = tab' := by
  obtain ⟨hkey, hname, hvisible, horder⟩ := h
  rw [h'.key, Except.ok.injEq] at hkey
  rw [h'.name, Except.ok.injEq] at hname
  rw [h'.visible, Except.ok.injEq] at hvisible
  rw [h'.order, Except.ok.injEq] at horder
  cases tab
  cases tab'
  simp_all

theorem truthy_of_prop {v : JsVal} {name : String} {xs : List JsVal}
    (h : v.prop name = .ok (.arr xs)) : v.truthy = true := by
  cases v <;> first | rfl | cases h

/-- The form reads the configuration the page reads, or both use the default. -/
theorem parsedConfig_eq {row : Row} (h : (Properties.moduleConfigOf row).IsJson) :
    parsedConfig (row.get "module_config").viaJson = Properties.moduleConfigOf row ∨
      (parsedConfig (row.get "module_config").viaJson).truthy = false ∧
        Properties.moduleConfigOf row = Properties.defaultModuleConfig := by
  unfold Properties.moduleConfigOf at h ⊢
  by_cases htruthy : (row.get "module_config").truthy = true
  · rw [if_pos htruthy] at h ⊢
    generalize row.get "module_config" = v at h ⊢
    unfold parsedConfig
    cases v with
    | str s =>
      simp only [JsVal.viaJson] at h ⊢
      cases hparse : Json.parse s with
      | ok w => exact Or.inl rfl
      | error e => exact Or.inr ⟨rfl, rfl⟩
    | undefined => exact h.elim
    | null | bool b | num n => 
      rw [JsVal.IsJson.viaJson_eq h]
      exact Or.inl rfl
    | arr xs | obj fs =>
      rw [JsVal.IsJson.viaJson_eq h]
      exact Or.inl rfl
  · rw [if_neg htruthy]
    refine Or.inr ⟨?_, rfl⟩
    generalize row.get "module_config" = v at htruthy
    cases v with
    | undefined | null => rfl
    | bool b =>
      cases b with
      | true => exact absurd rfl htruthy
      | false => rfl
    | num n =>
      simp only [JsVal.viaJson]
      split
      · exact Bool.eq_false_iff.mpr htruthy
      · rfl
    | str s =>
      have hs : s = "" := by simpa [JsVal.truthy] using htruthy
      rw [hs]
      rfl
    | arr xs | obj fs => exact absurd rfl htruthy

theorem formTab_isTab (v : JsVal) (tab : ModuleTab) (h : IsTab v tab) :
    formTab v = .ok (asFormTab tab) := by
  unfold formTab
  rw [h.key, h.name, h.visible, h.order]
  rfl

theorem tabs_default {vs : List JsVal} {tabs : List ModuleTab}
    (hread : Properties.defaultModuleConfig.prop "tabs" = .ok (.arr vs))
    (h : List.Forall₂ IsTab vs tabs) : tabs = defaultTabs := by
  have hdefault : List.Forall₂ IsTab H5.PropertyDetail.defaultTabs defaultTabs := by
    refine .cons ?_ (.cons ?_ (.cons ?_ (.cons ?_ .nil))) <;> constructor <;> rfl
  have hvs : vs = H5.PropertyDetail.defaultTabs := by
    have hsame : Properties.defaultModuleConfig.prop "tabs" =
        .ok (.arr H5.PropertyDetail.defaultTabs) := rfl
    rw [hread, Except.ok.injEq, JsVal.arr.injEq] at hsame
    exact hsame
  have hunique : Relator.RightUnique IsTab := fun _ _ _ => isTab_unique
  exact List.right_unique_forall₂' hunique h (hvs ▸ hdefault)

/-- The form opens with the tabs of the configuration, sorted. -/
theorem initModuleConfig_eq {row : Row} {tabs : List ModuleTab} (h : Stored row tabs) :
    initModuleConfig (row.get "module_config").viaJson =
      arraySort ModuleTab.byOrder (tabs.map asFormTab) := by
  obtain ⟨vs, hread, htabs⟩ := h.read
  unfold initModuleConfig
  rcases parsedConfig_eq h.json with hparsed | ⟨hfalsy, hdefault⟩
  · have hforms : vs.mapM formTab = .ok (tabs.map asFormTab) := by
      refine mapM_ok_iff.mpr ?_
      rw [List.forall₂_map_right_iff]
      exact htabs.imp formTab_isTab
    rw [hparsed, if_pos (truthy_of_prop hread), hread]
    change (vs.mapM formTab >>= arraySort ModuleTab.byOrder) = _
    rw [hforms]
    rfl
  · rw [hdefault] at hread
    rw [hfalsy, if_neg Bool.false_ne_true, tabs_default hread htabs]
    decide +kernel

namespace ModuleForm

section
variable {row : Row} {tabs : List ModuleTab}

/-- The form as it opens. -/
def sortedForm (tabs : List ModuleTab) : ModuleForm :=
  ⟨(tabs.map asFormTab).insertionSort fun a b => mayPrecede ModuleTab.byOrder a b = true,
    List.range tabs.length⟩

theorem opened_eq (h : Stored row tabs) (hform : Consistent ModuleTab.byOrder (tabs.map asFormTab)) :
    opened row = .ok (sortedForm tabs) := by
  unfold opened sortedForm
  rw [initModuleConfig_eq h, hform.arraySort_eq]
  simp [Except.map]

theorem exists_isTab {vs : List JsVal} (h : List.Forall₂ IsTab vs tabs) {tab : ModuleTab}
    (htab : tab ∈ tabs) : ∃ v ∈ vs, IsTab v tab := by
  induction h with
  | nil => cases htab
  | cons hv _ ih =>
    rcases List.mem_cons.mp htab with rfl | htab
    · exact ⟨_, List.mem_cons_self, hv⟩
    · obtain ⟨v, hmem, hv⟩ := ih htab
      exact ⟨v, List.mem_cons_of_mem _ hmem, hv⟩

theorem json_asFormTab (h : Stored row tabs) {tab : ModuleTab} (htab : tab ∈ tabs) :
    TabJson (asFormTab tab) := by
  obtain ⟨vs, hread, htabs⟩ := h.read
  obtain ⟨key, name, hkey, hname⟩ := h.texts tab htab
  have horder : tab.order = .undefined ∨ tab.order.IsJson := by
    have hall : JsVal.AllJson vs := (h.json.prop hread).elim (fun h => nomatch h) id
    obtain ⟨v, hv, htab'⟩ := exists_isTab htabs htab
    exact (hall.mem hv).prop htab'.order
  refine ⟨?_, ?_, ?_⟩
  · exact (show (asFormTab tab).key = .str key from hkey) ▸ trivial
  · exact (show (asFormTab tab).name = .str name from hname) ▸ trivial
  · change (tab.order.or (.num (.fin 0))).IsJson
    unfold JsVal.or
    split
    · rename_i htruthy
      refine horder.resolve_left fun hmissing => ?_
      rw [hmissing] at htruthy
      cases htruthy
    · exact ⟨rfl, isDouble_zero⟩

theorem ready_sortedForm (h : Stored row tabs)
    (hform : Consistent ModuleTab.byOrder (tabs.map asFormTab)) : (sortedForm tabs).Ready := by
  have hperm : (sortedForm tabs).moduleTabs.Perm (tabs.map asFormTab) :=
    List.perm_insertionSort _ _
  have hlength : (sortedForm tabs).moduleTabs.length = tabs.length := by
    rw [hperm.length_eq, List.length_map]
  have hmem : ∀ tab ∈ (sortedForm tabs).moduleTabs, ∃ old ∈ tabs, asFormTab old = tab :=
    fun tab htab => List.mem_map.mp (hperm.subset htab)
  refine ⟨⟨?_, ?_, ?_, ?_, hform.orders.pairwise_insertionSort⟩, ?_, ?_, ?_⟩
  · intro tab htab
    obtain ⟨old, hold, rfl⟩ := hmem tab htab
    exact json_asFormTab h hold
  · rw [(hperm.map ModuleTab.key).nodup_iff, List.map_map]
    exact h.keys
  · exact hlength ▸ h.length
  · exact fun a ha b hb => hform.total a (hperm.subset ha) b (hperm.subset hb)
  · intro tab htab
    obtain ⟨old, _, rfl⟩ := hmem tab htab
    exact ⟨_, rfl⟩
  · rw [hlength]
    exact List.Perm.refl _
  · obtain ⟨tab, htab, hon⟩ := h.shown
    refine ⟨asFormTab tab, hperm.symm.subset (List.mem_map_of_mem htab), ?_⟩
    change (!(tab.visible.strictEq (.bool false))) = true
    rw [Bool.not_eq_true']
    exact Bool.eq_false_iff.mpr fun heq => hon (JsVal.eq_of_strictEq heq)

theorem straight_sortedForm (tabs : List ModuleTab) : (sortedForm tabs).Straight := by
  unfold Straight sortedForm
  rw [List.length_insertionSort, List.length_map]

/-- The flag of the form. -/
def kept (tab : ModuleTab) : Bool := !(tab.visible.strictEq (.bool false))

/-- What the page shows of the sorted form. -/
theorem shown_sortedForm (hform : Consistent ModuleTab.byOrder (tabs.map asFormTab)) :
    (sortedForm tabs).moduleTabs.filter ModuleTab.shown =
      ((tabs.filter kept).insertionSort fun a b =>
        mayPrecede ModuleTab.byOrder (asFormTab a) (asFormTab b) = true).map asFormTab := by
  unfold sortedForm
  dsimp only
  rw [hform.orders.filter_insertionSort, List.filter_map]
  symm
  exact List.map_insertionSort _ _ _ _ fun _ _ _ _ => Iff.rfl

/-- What the page shows of the stored property. -/
theorem pageTabs_stored (h : Stored row tabs)
    (hpage : Consistent ModuleTab.byOrder (tabs.filter ModuleTab.shown)) :
    pageTabs row = .ok (((tabs.filter ModuleTab.shown).insertionSort fun a b =>
      mayPrecede ModuleTab.byOrder a b = true).map ModuleTab.title) := by
  obtain ⟨vs, hread, htabs⟩ := h.read
  unfold pageTabs
  rw [h.json.viaJson_eq, H5.PropertyDetail.tabBar_eq hread htabs, hpage.arraySort_eq]
  rfl

theorem shown_kept {tab : ModuleTab} (h : tab.shown = true) : kept tab = true := by
  unfold kept
  unfold ModuleTab.shown at h
  rw [Bool.not_eq_true', Bool.eq_false_iff]
  intro heq
  rw [JsVal.eq_of_strictEq heq] at h
  cases h

theorem kept_iff {tab : ModuleTab} : kept tab = true ↔ tab.visible ≠ .bool false := by
  unfold kept
  rw [Bool.not_eq_true', Bool.eq_false_iff]
  refine not_congr ⟨JsVal.eq_of_strictEq, fun heq => ?_⟩
  rw [heq]
  rfl

/-- Two lists of the tabs are told apart by the titles. -/
theorem eq_of_titles (h : Stored row tabs) {as bs : List ModuleTab} (has : ∀ a ∈ as, a ∈ tabs)
    (hbs : ∀ b ∈ bs, b ∈ tabs) (heq : as.map ModuleTab.title = bs.map ModuleTab.title) : as = bs := by
  induction as generalizing bs with
  | nil => exact (List.map_eq_nil_iff.mp heq.symm).symm
  | cons a as ih =>
    cases bs with
    | nil => cases heq
    | cons b bs =>
      obtain ⟨hab, hrest⟩ := List.cons.inj heq
      have hsame : a = b := List.inj_on_of_nodup_map h.keys (has a List.mem_cons_self)
        (hbs b List.mem_cons_self) (congrArg Prod.fst hab)
      rw [hsame, ih (fun c hc => has c (List.mem_cons_of_mem a hc))
        (fun c hc => hbs c (List.mem_cons_of_mem b hc)) hrest]

/-- Saving changes no tab of the page exactly when the page and the form read them alike. -/
theorem unchanged_iff (h : Stored row tabs)
    (hform : Consistent ModuleTab.byOrder (tabs.map asFormTab))
    (hpage : Consistent ModuleTab.byOrder (tabs.filter ModuleTab.shown)) :
    Unchanged row ↔ ReadAlike tabs := by
  have hready := ready_sortedForm h hform
  have hsaved : ∀ saved, (sortedForm tabs).SavedRow saved → pageTabs saved =
      .ok (((tabs.filter kept).insertionSort fun a b =>
        mayPrecede ModuleTab.byOrder (asFormTab a) (asFormTab b) = true).map ModuleTab.title) := by
    intro saved hrow
    rw [pageTabs_saved hready.ordered hready.switches hrow, shown_sortedForm hform, List.map_map]
    rfl
  have hunchanged : Unchanged row ↔
      (tabs.filter kept).insertionSort (fun a b =>
        mayPrecede ModuleTab.byOrder (asFormTab a) (asFormTab b) = true) =
      (tabs.filter ModuleTab.shown).insertionSort fun a b =>
        mayPrecede ModuleTab.byOrder a b = true := by
    unfold Unchanged
    rw [opened_eq h hform, pageTabs_stored h hpage]
    simp only [Except.ok.injEq, forall_eq']
    constructor
    · intro hall
      obtain ⟨saved, hrow⟩ := exists_savedRow (sortedForm tabs)
      have htitles := hall saved hrow
      rw [hsaved saved hrow, Except.ok.injEq] at htitles
      refine eq_of_titles h (fun a ha => ?_) (fun b hb => ?_) htitles
      · exact List.mem_of_mem_filter ((List.mem_insertionSort _).mp ha)
      · exact List.mem_of_mem_filter ((List.mem_insertionSort _).mp hb)
    · intro heq saved hrow
      rw [hsaved saved hrow, heq]
  rw [hunchanged]
  unfold ReadAlike
  have hnodup : tabs.Nodup := h.keys.of_map
  constructor
  · intro heq
    have hflags : ∀ tab ∈ tabs, tab.visible ≠ .bool false → tab.shown = true := by
      intro tab htab hon
      have hmem := (List.mem_insertionSort fun a b =>
        mayPrecede ModuleTab.byOrder (asFormTab a) (asFormTab b) = true).mpr
          (List.mem_filter.mpr ⟨htab, kept_iff.mpr hon⟩)
      rw [heq, List.mem_insertionSort] at hmem
      exact List.of_mem_filter hmem
    have hfilter : tabs.filter kept = tabs.filter ModuleTab.shown :=
      List.filter_congr fun tab htab =>
        Bool.eq_iff_iff.mpr ⟨fun hkept => hflags tab htab (kept_iff.mp hkept), shown_kept⟩
    refine ⟨hflags, ?_⟩
    rw [hfilter] at heq
    have hforms : ∀ tab ∈ tabs.filter ModuleTab.shown, asFormTab tab ∈ tabs.map asFormTab :=
      fun tab htab => List.mem_map_of_mem (List.mem_of_mem_filter htab)
    have horders : OrdersOn (fun a b =>
        mayPrecede ModuleTab.byOrder (asFormTab a) (asFormTab b) = true)
          (tabs.filter ModuleTab.shown) :=
      ⟨fun a ha b hb => hform.orders.total _ (hforms a ha) _ (hforms b hb),
        fun a ha b hb c hc => hform.orders.trans _ (hforms a ha) _ (hforms b hb) _ (hforms c hc)⟩
    exact (insertionSort_eq_iff _ hpage.orders horders (hnodup.filter _)).mp heq.symm
  · rintro ⟨hflags, horders⟩
    have hfilter : tabs.filter kept = tabs.filter ModuleTab.shown :=
      List.filter_congr fun tab htab =>
        Bool.eq_iff_iff.mpr ⟨fun hkept => hflags tab htab (kept_iff.mp hkept), shown_kept⟩
    rw [hfilter]
    exact (insertionSort_eq_of_pairwise _ horders).symm

/-- The tabs reach the page as the form displays them, at every point of a run, and saving alone
changes none, exactly when every step keeps the order and the page and the form read the stored tabs
alike. -/
theorem moduleTabs_iff (row : Row) (tabs : List ModuleTab) (h : Stored row tabs)
    (hform : Consistent ModuleTab.byOrder (tabs.map asFormTab))
    (hpage : Consistent ModuleTab.byOrder (tabs.filter ModuleTab.shown)) (es : List ModuleEvent) :
    ∃ form, opened row = .ok form ∧
      (Along step InOrder form es ∧ ReadAlike tabs ↔
        (∀ fs gs form', es = fs ++ gs → run step form fs = some form' → form'.Arranged) ∧
          Unchanged row) := by
  refine ⟨sortedForm tabs, opened_eq h hform, and_congr ?_ (unchanged_iff h hform hpage).symm⟩
  have hready : ∀ form : ModuleForm, form.Ready ∧ form.Straight → form.Arranged :=
    fun form h => (arranged_iff h.1).mpr h.2
  refine along_iff_forall step hready (fun form e h => ?_) (fun form e form' h he hstep => ?_)
    ⟨ready_sortedForm h hform, straight_sortedForm tabs⟩ es
  · rw [inOrder_iff h.1 h.2 e]
    exact forall₂_congr fun form' hstep => (arranged_iff (ready_step form e form' h.1 hstep)).symm
  · exact ⟨ready_step form e form' h.1 hstep, (inOrder_iff h.1 h.2 e).mp he form' hstep⟩

/-- Tabs whose orders are numbers have an order. -/
theorem consistent_of_numbers {tabs : List ModuleTab}
    (h : ∀ tab ∈ tabs, ∃ n : JsNum, tab.order = .num n ∧ n.IsDouble) :
    Consistent ModuleTab.byOrder tabs where
  total a ha b hb := by
    obtain ⟨m, hm, _⟩ := h a ha
    obtain ⟨n, hn, _⟩ := h b hb
    unfold ModuleTab.byOrder
    rw [hm, hn]
    exact ⟨_, rfl⟩
  orders := by
    constructor
    · intro a ha b hb
      obtain ⟨m, hm, dm⟩ := h a ha
      obtain ⟨n, hn, dn⟩ := h b hb
      rw [mayPrecede_of_numbers hm hn dm dn, mayPrecede_of_numbers hn hm dn dm]
      exact le_total _ _
    · intro a ha b hb c hc hab hbc
      obtain ⟨l, hl, dl⟩ := h a ha
      obtain ⟨m, hm, dm⟩ := h b hb
      obtain ⟨n, hn, dn⟩ := h c hc
      rw [mayPrecede_of_numbers hl hm dl dm] at hab
      rw [mayPrecede_of_numbers hm hn dm dn] at hbc
      rw [mayPrecede_of_numbers hl hn dl dn]
      exact hab.trans hbc

/-- A missing order number is zero in the form. -/
theorem consistent_asFormTab {tabs : List ModuleTab}
    (h : ∀ tab ∈ tabs, tab.order = .undefined ∨ ∃ n : JsNum, tab.order = .num n ∧ n.IsDouble) :
    Consistent ModuleTab.byOrder (tabs.map asFormTab) := by
  refine consistent_of_numbers fun tab htab => ?_
  obtain ⟨old, hold, rfl⟩ := List.mem_map.mp htab
  change ∃ n, old.order.or (.num (.fin 0)) = .num n ∧ _
  unfold JsVal.or
  rcases h old hold with hmissing | ⟨n, hn, dn⟩
  · exact ⟨.fin 0, by rw [hmissing]; rfl, isDouble_zero⟩
  · rw [hn]
    split
    · exact ⟨n, rfl, dn⟩
    · exact ⟨.fin 0, rfl, isDouble_zero⟩

end

def twoTabs : List ModuleTab :=
  [⟨.str "property", .str "房源", .bool true, .num (.ofNat 1)⟩,
    ⟨.str "loan", .str "金融", .bool true, .num (.ofNat 2)⟩]

def twoTabsRow : Row :=
  Dict.ofList [("module_config", .str ("\x7b\"tabs\":[" ++
    "\x7b\"key\":\"property\",\"name\":\"房源\",\"visible\":true,\"order\":1\x7d," ++
    "\x7b\"key\":\"loan\",\"name\":\"金融\",\"visible\":true,\"order\":2\x7d]\x7d"))]

def twoTabsForm : ModuleForm := ⟨twoTabs, [0, 1]⟩

theorem json_twoTabs : ∀ tab ∈ twoTabs, TabJson tab := by
  intro tab htab
  rcases List.mem_cons.mp htab with rfl | htab
  · exact ⟨trivial, trivial, rfl, isDouble_ofNat (by decide)⟩
  · rw [List.mem_singleton.mp htab]
    exact ⟨trivial, trivial, rfl, isDouble_ofNat (by decide)⟩

theorem numbers_twoTabs : ∀ tab ∈ twoTabs, ∃ n : JsNum, tab.order = .num n ∧ n.IsDouble := by
  intro tab htab
  have horder := (json_twoTabs tab htab).order
  rcases List.mem_cons.mp htab with rfl | htab
  · exact ⟨_, rfl, horder.2⟩
  · rw [List.mem_singleton.mp htab] at horder ⊢
    exact ⟨_, rfl, horder.2⟩

theorem stored_twoTabs : Stored twoTabsRow twoTabs := by
  have hconfig : Properties.moduleConfigOf twoTabsRow = twoTabsForm.savedConfig := by
    decide +kernel
  have hordered : Ordered twoTabs := ⟨json_twoTabs, by decide, by decide,
    (consistent_of_numbers numbers_twoTabs).total, by decide +kernel⟩
  have hswitches : Switches twoTabs := by
    intro tab htab
    rcases List.mem_cons.mp htab with rfl | htab
    · exact ⟨true, rfl⟩
    · exact ⟨true, by rw [List.mem_singleton.mp htab]⟩
  refine ⟨?_, ⟨twoTabs.map savedTab, by rw [hconfig]; rfl, ?_⟩, ?_, hordered.keys, ?_,
    hordered.length⟩
  · rw [hconfig]
    exact isJson_savedConfig hordered hswitches
  · rw [List.forall₂_map_left_iff]
    exact List.forall₂_same.mpr fun tab _ => isTab_savedTab tab
  · intro tab htab
    rcases List.mem_cons.mp htab with rfl | htab
    · exact ⟨_, _, rfl, rfl⟩
    · rw [List.mem_singleton.mp htab]
      exact ⟨_, _, rfl, rfl⟩
  · exact ⟨_, List.mem_cons_self, by decide⟩

theorem consistent_twoTabs : Consistent ModuleTab.byOrder (twoTabs.map asFormTab) :=
  consistent_asFormTab fun tab htab => Or.inr (numbers_twoTabs tab htab)

/-- One of two tabs is switched off. -/
theorem moduleTabs_iff_twoTabs : ∃ form, opened twoTabsRow = .ok form ∧
    (Along step InOrder form [.toggle 0] ∧ ReadAlike twoTabs ↔
      (∀ fs gs form', [.toggle 0] = fs ++ gs → run step form fs = some form' → form'.Arranged) ∧
        Unchanged twoTabsRow) :=
  moduleTabs_iff twoTabsRow twoTabs stored_twoTabs consistent_twoTabs
    (consistent_of_numbers fun tab htab => numbers_twoTabs tab (List.mem_of_mem_filter htab))
    [.toggle 0]

/-- The first of two tabs is dragged behind the second, and the page shows it first all the same. -/
theorem dragged_not_arranged : Stored twoTabsRow twoTabs ∧ ∃ form, opened twoTabsRow = .ok form ∧
    ∃ form', run step form [.drag 0 1] = some form' ∧
      form'.displayed.map ModuleTab.title = [(.str "loan", .str "金融"), (.str "property", .str "房源")] ∧
      ¬ form'.Arranged := by
  have hsorted : sortedForm twoTabs = twoTabsForm := by decide +kernel
  have hready := ready_sortedForm stored_twoTabs consistent_twoTabs
  have hopened := opened_eq stored_twoTabs consistent_twoTabs
  rw [hsorted] at hready hopened
  refine ⟨stored_twoTabs, twoTabsForm, hopened, ⟨numbered twoTabs, [1, 0]⟩, rfl, rfl, ?_⟩
  intro harranged
  have hstraight := (arranged_iff (ready_step twoTabsForm (.drag 0 1) _ hready rfl)).mp harranged
  unfold Straight at hstraight
  exact absurd hstraight (by decide)

end ModuleForm

end JtfpMall.Admin
