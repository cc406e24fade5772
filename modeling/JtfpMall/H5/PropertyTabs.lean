import JtfpMall.Js.JsonText
import JtfpMall.Js.Sort
import JtfpMall.Repositories.Properties

/-!
# The tabs of the property page

The page reads its tabs from the configuration of the property: those whose flag is truthy, sorted by
the difference of their order numbers. What a tab does not have reads as `undefined`.
-/

namespace JtfpMall.H5.PropertyDetail

open JtfpMall.Js
open JtfpMall.Lib

/-- A tab of a configuration. -/
structure ModuleTab where
  key : JsVal
  name : JsVal
  visible : JsVal
  order : JsVal
deriving DecidableEq

namespace ModuleTab

def shown (tab : ModuleTab) : Bool := tab.visible.truthy

/-- What the tab bar shows, and the section it leads to. -/
def title (tab : ModuleTab) : JsVal × JsVal := (tab.key, tab.name)

/-- `a.order - b.order`. -/
def byOrder (a b : ModuleTab) : Except JsError JsNum := a.order.sub b.order

end ModuleTab

/-- The value reads as the tab. -/
structure IsTab (v : JsVal) (tab : ModuleTab) : Prop where
  key : v.prop "key" = .ok tab.key
  name : v.prop "name" = .ok tab.name
  visible : v.prop "visible" = .ok tab.visible
  order : v.prop "order" = .ok tab.order

/-- `defaultModuleConfig.tabs`. -/
def defaultTabs : List JsVal :=
  [Properties.tab "property" "房源" 1, Properties.tab "auction" "拍卖" 2,
    Properties.tab "loan" "金融" 3, Properties.tab "tax" "税费" 4]

def isShown (tab : JsVal) : Except JsError Bool := (tab.prop "visible").map JsVal.truthy

def byOrder (a b : JsVal) : Except JsError JsNum := do
  let m ← a.prop "order"
  let n ← b.prop "order"
  m.sub n

def visibleTabs (moduleConfig : JsVal) : Except JsError (List JsVal) := do
  let tabs ← moduleConfig.optionalProp "tabs"
  if tabs.truthy then
    match tabs with
    | .arr tabs =>
      let kept ← filterM isShown tabs
      arraySort byOrder kept
    | _ => .error (notAFunction "property.value.module_config.tabs.filter")
  else filterM isShown defaultTabs

/-- `tabs.find(tab => tab.key === key)`. -/
def findTab (key : String) : List JsVal → Except JsError (Option JsVal)
  | [] => .ok none
  | tab :: tabs => do
    let k ← tab.prop "key"
    if k.strictEq (.str key) then return some tab else findTab key tabs

def isModuleVisible (moduleConfig : JsVal) (key : String) : Except JsError JsVal := do
  let tabs ← moduleConfig.optionalProp "tabs"
  if tabs.truthy then
    match tabs with
    | .arr tabs =>
      match ← findTab key tabs with
      | some tab => return (← tab.prop "visible").orNullish (.bool false)
      | none => return .bool false
    | _ => .error (notAFunction "property.value.module_config.tabs.find")
  else
    match ← findTab key defaultTabs with
    | some tab => return (← tab.prop "visible").orNullish (.bool true)
    | none => return .bool true

def titleOf (tab : JsVal) : Except JsError (JsVal × JsVal) := do
  let key ← tab.prop "key"
  let name ← tab.prop "name"
  return (key, name)

/-- The tab bar. -/
def tabBar (moduleConfig : JsVal) : Except JsError (List (JsVal × JsVal)) := do
  let tabs ← visibleTabs moduleConfig
  tabs.mapM titleOf

/-- The tab bar of a property, whose configuration comes with the answer of the server. -/
def pageTabs (row : Row) : Except JsError (List (JsVal × JsVal)) :=
  tabBar (Properties.moduleConfigOf row).viaJson

section
variable {config : JsVal} {vs : List JsVal} {tabs : List ModuleTab}

theorem optionalProp_of_prop {name : String} {w : JsVal} (h : config.prop name = .ok w) :
    config.optionalProp name = .ok w := by
  cases config <;> first | exact h | cases h

theorem byOrder_isTab (v : JsVal) (tab : ModuleTab) (v' : JsVal) (tab' : ModuleTab) (h : IsTab v tab) (h' : IsTab v' tab') :
    byOrder v v' = tab.byOrder tab' := by
  unfold byOrder
  rw [h.order, h'.order]
  rfl

theorem isShown_isTab (v : JsVal) (tab : ModuleTab) (h : IsTab v tab) :
    isShown v = .ok tab.shown := by
  unfold isShown
  rw [h.visible]
  rfl

theorem titleOf_isTab (v : JsVal) (tab : ModuleTab) (h : IsTab v tab) :
    titleOf v = .ok tab.title := by
  unfold titleOf
  rw [h.key, h.name]
  rfl

theorem mapM_titleOf (h : List.Forall₂ IsTab vs tabs) :
    vs.mapM titleOf = .ok (tabs.map ModuleTab.title) := by
  refine mapM_ok_iff.mpr ?_
  rw [List.forall₂_map_right_iff]
  exact h.imp titleOf_isTab

/-- The page shows the tabs that are flagged, sorted. -/
theorem tabBar_eq (hconfig : config.prop "tabs" = .ok (.arr vs)) (h : List.Forall₂ IsTab vs tabs) :
    tabBar config = (arraySort ModuleTab.byOrder (tabs.filter ModuleTab.shown)).map
      fun sorted => sorted.map ModuleTab.title := by
  have hkept := filterM_forall₂ isShown_isTab h
  rw [filterM_eq_filter fun _ _ => rfl] at hkept
  have hsorted : ExceptRel (List.Forall₂ IsTab) (visibleTabs config)
      (arraySort ModuleTab.byOrder (tabs.filter ModuleTab.shown)) := by
    unfold visibleTabs
    rw [optionalProp_of_prop hconfig]
    exact hkept.bind (g := arraySort ModuleTab.byOrder) fun _ _ h => arraySort_forall₂ byOrder_isTab h
  refine ExceptRel.eq (hsorted.bind (g := fun sorted => .ok (sorted.map ModuleTab.title)) ?_)
  intro sorted sorted' h
  rw [mapM_titleOf h]
  exact .ok rfl

theorem findTab_isTab (key : String) (h : List.Forall₂ IsTab vs tabs) :
    ∃ found, findTab key vs = .ok found ∧ Option.Rel IsTab found
      (tabs.find? fun tab => tab.key.strictEq (.str key)) := by
  induction h with
  | nil => exact ⟨none, rfl, .none⟩
  | cons hv _ ih =>
    rename_i v tab vs tabs _
    obtain ⟨found, hfound, hrel⟩ := ih
    rw [findTab, hv.key]
    dsimp only [bind, Except.bind]
    cases hkey : tab.key.strictEq (.str key) with
    | true =>
      refine ⟨some v, rfl, ?_⟩
      rw [List.find?_cons, hkey]
      exact .some hv
    | false =>
      refine ⟨found, hfound, ?_⟩
      rw [List.find?_cons, hkey]
      exact hrel

theorem strictEq_str_iff {v : JsVal} {key : String} :
    v.strictEq (.str key) = true ↔ v = .str key := by
  refine ⟨JsVal.eq_of_strictEq, ?_⟩
  rintro rfl
  simp [JsVal.strictEq]

theorem truthy_orNullish_false (v : JsVal) : (v.orNullish (.bool false)).truthy = v.truthy := by
  cases v <;> rfl

/-- A section is on the page exactly when its tab is. -/
theorem isModuleVisible_iff (hconfig : config.prop "tabs" = .ok (.arr vs))
    (h : List.Forall₂ IsTab vs tabs) (hkeys : (tabs.map ModuleTab.key).Nodup) (key : String) :
    ∃ v, isModuleVisible config key = .ok v ∧
      (v.truthy = true ↔ ∃ tab ∈ tabs.filter ModuleTab.shown, tab.key = .str key) := by
  obtain ⟨found, hfound, hrel⟩ := findTab_isTab key h
  unfold isModuleVisible
  rw [optionalProp_of_prop hconfig]
  dsimp only [bind, Except.bind]
  rw [if_pos (show (JsVal.arr vs).truthy = true from rfl), hfound]
  cases hfind : tabs.find? fun tab => tab.key.strictEq (.str key) with
  | none =>
    rw [hfind] at hrel
    cases hrel
    refine ⟨.bool false, rfl, iff_of_false Bool.false_ne_true ?_⟩
    rintro ⟨tab, htab, hkey⟩
    exact List.find?_eq_none.mp hfind tab (List.mem_of_mem_filter htab) (strictEq_str_iff.mpr hkey)
  | some tab =>
    rw [hfind] at hrel
    cases hrel with
    | some hv =>
      have hkey := List.find?_some hfind
      rw [strictEq_str_iff] at hkey
      have htab : tab ∈ tabs := List.mem_of_find?_eq_some hfind
      dsimp only
      rw [hv.visible]
      refine ⟨_, rfl, ?_⟩
      rw [truthy_orNullish_false]
      constructor
      · exact fun hshown => ⟨tab, List.mem_filter.mpr ⟨htab, hshown⟩, hkey⟩
      · rintro ⟨other, hother, hsame⟩
        obtain ⟨hmem, hshown⟩ := List.mem_filter.mp hother
        rwa [List.inj_on_of_nodup_map hkeys hmem htab (hsame.trans hkey.symm)] at hshown

end

end JtfpMall.H5.PropertyDetail
