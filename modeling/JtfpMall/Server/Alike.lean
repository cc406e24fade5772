import JtfpMall.Lib.Relational
import JtfpMall.Server.Permitted

/-!
# Stores that read alike

Two stores are alike when each table holds rows that read the same, in the same order; a key
that holds `undefined` reads as a missing one. What a request that writes nothing answers
is made of what it reads, so alike stores give the same answer to it.
-/

namespace JtfpMall

open JtfpMall.Js
open JtfpMall.Lib
open JtfpMall.Lib.Action

/-- The rows read the same under every key. -/
def SameFields (r r' : Row) : Prop := ∀ k, r.get k = r'.get k

/-- Each table holds rows that read the same, in the same order. -/
def Alike (s s' : Store) : Prop :=
  ∀ t, List.Forall₂ SameFields (s.cache.rows t) (s'.cache.rows t)

/-- What comes out of a row depends on what its keys read. -/
def ByFields {α : Type} (f : Row → α) : Prop := ∀ r r', SameFields r r' → f r = f r'

/-- The same values, and rows that read the same. -/
inductive Reply.Same : Reply → Reply → Prop where
  | val (v : JsVal) : Same (.val v) (.val v)
  | row {r r' : Row} (h : SameFields r r') : Same (.row r) (.row r')
  | rows {rs rs' : List Row} (h : List.Forall₂ SameFields rs rs') : Same (.rows rs) (.rows rs')

def SameField (p q : String × Reply) : Prop := p.1 = q.1 ∧ p.2.Same q.2

/-- The answers have the same status and, field for field, the same replies. -/
structure Response.Same (x y : Response) : Prop where
  status : x.status = y.status
  body : List.Forall₂ SameField x.body y.body

/-- From alike stores, the programs give results related by `R` and leave alike stores. -/
abbrev Mirrors {α β : Type} (R : α → β → Prop) (m : Act α) (m' : Act β) : Prop :=
  Relates Alike Alike R m m'

theorem SameFields.refl (r : Row) : SameFields r r := fun _ => rfl

theorem SameFields.get {r r' : Row} (h : SameFields r r') : Dict.get r = Dict.get r' := funext h

theorem SameFields.set {r r' : Row} (h : SameFields r r') (k : String) (v : JsVal) :
    SameFields (r.set k v) (r'.set k v) := by
  intro x
  rw [Dict.get_set, Dict.get_set, h x]

theorem SameFields.forall₂_refl (rs : List Row) : List.Forall₂ SameFields rs rs :=
  List.forall₂_same.mpr fun r _ => .refl r

theorem Reply.Same.refl (x : Reply) : Reply.Same x x := by
  cases x with
  | val v => exact .val v
  | row r => exact .row (.refl r)
  | rows rs => exact .rows (SameFields.forall₂_refl rs)

theorem SameField.forall₂_refl (body : List (String × Reply)) : List.Forall₂ SameField body body :=
  List.forall₂_same.mpr fun p _ => ⟨rfl, .refl p.2⟩

theorem Response.Same.refl (x : Response) : Response.Same x x := ⟨rfl, SameField.forall₂_refl x.body⟩

theorem Response.Same.ok {body body' : List (String × Reply)} (h : List.Forall₂ SameField body body') :
    Response.Same (.ok body) (.ok body') := ⟨rfl, h⟩

section
variable {α β γ δ : Type} {R : α → β → Prop} {Q : γ → δ → Prop}

theorem mirrors_pure {a : α} {b : β} (h : R a b) : Mirrors R (pure a : Act α) (pure b) :=
  relates_pure h

theorem mirrors_bind {m : Act α} {m' : Act β} {f : α → Act γ} {f' : β → Act δ}
    (hm : Mirrors R m m') (hf : ∀ a b, R a b → Mirrors Q (f a) (f' b)) :
    Mirrors Q (m >>= f) (m' >>= f') := relates_bind hm (fun _ _ h => h) hf

/-- A computation that reads nothing of the store. -/
theorem mirrors_lift_bind {x : Except JsError α} {f : α → Act γ} {f' : α → Act δ}
    (hf : ∀ a, x = .ok a → Mirrors Q (f a) (f' a)) :
    Mirrors Q (Action.lift x >>= f) (Action.lift x >>= f') :=
  relates_lift_bind (fun _ _ h => h) hf

theorem mirrors_guarded {m m' : Act Response} (h : Mirrors Response.Same m m') :
    Mirrors Response.Same (guarded m) (guarded m') :=
  relates_attempt h fun _ => .refl _

theorem mirrors_adminGuarded {m m' : Act Response} (h : Mirrors Response.Same m m') :
    Mirrors Response.Same (adminGuarded m) (adminGuarded m') :=
  relates_attempt h fun _ => .refl _

theorem mirrors_getTable (t : Table) :
    Mirrors (List.Forall₂ SameFields) (Act.getTable t) (Act.getTable t) :=
  relates_reads fun _ _ h => h t

theorem mirrors_findOne (t : Table) {p : Row → Bool} (hp : ByFields p) :
    Mirrors (Option.Rel SameFields) (Act.findOne t p) (Act.findOne t p) :=
  relates_reads fun _ _ h => find?_forall₂ (h t) hp

theorem mirrors_findAll (t : Table) {p : Row → Bool} (hp : ByFields p) :
    Mirrors (List.Forall₂ SameFields) (Act.findAll t p) (Act.findAll t p) :=
  relates_reads fun _ _ h => filter_forall₂ (h t) hp

theorem mirrors_count (t : Table) {p : Row → Bool} (hp : ByFields p) :
    Mirrors Eq (Act.count t p) (Act.count t p) :=
  relates_reads fun _ _ h => (filter_forall₂ (h t) hp).length_eq

end

theorem byFields_hasId (id : JsVal) : ByFields (Store.hasId id) := by
  intro r r' h
  unfold Store.hasId
  rw [h.get]

theorem mirrors_findById (t : Table) (id : JsVal) :
    Mirrors (Option.Rel SameFields) (Act.findById t id) (Act.findById t id) :=
  mirrors_findOne t (byFields_hasId id)

theorem ByFields.either {p q : Row → Except JsError Bool} (hp : ByFields p) (hq : ByFields q) :
    ByFields (either p q) := by
  intro r r' h
  unfold JtfpMall.either
  rw [hp r r' h, hq r r' h]

theorem byFields_columnIs (column : String) (v : JsVal) : ByFields (columnIs column v) := by
  intro r r' h
  unfold columnIs
  rw [h.get]

theorem byFields_createdFrom (startAt : JsVal) : ByFields (createdFrom startAt) := by
  intro r r' h
  unfold createdFrom
  rw [h.get]

theorem byFields_createdTo (endAt : JsVal) : ByFields (createdTo endAt) := by
  intro r r' h
  unfold createdTo
  rw [h.get]

theorem byFields_columnIncludes (column : String) (kw : JsVal) :
    ByFields (columnIncludes column kw) := by
  intro r r' h
  unfold columnIncludes
  rw [h.get]

theorem byFields_columnMatches (env : Env) (column : String) (kw : JsVal) :
    ByFields (columnMatches env column kw) := by
  intro r r' h
  unfold columnMatches
  rw [h.get]

theorem byFields_phoneIncludes (kw : JsVal) : ByFields (Orders.phoneIncludes kw) := by
  intro r r' h
  unfold Orders.phoneIncludes Orders.parseAddress
  rw [h.get]

theorem mem_onlyIf {asked : Bool} {p q : Row → Except JsError Bool} (h : q ∈ onlyIf asked p) :
    q = p := by
  unfold onlyIf at h
  split at h
  · exact List.mem_singleton.mp h
  · exact absurd h List.not_mem_nil

theorem byFields_onlyIf {asked : Bool} {p : Row → Except JsError Bool} (hp : ByFields p) :
    ∀ q ∈ onlyIf asked p, ByFields q := fun _ hq => mem_onlyIf hq ▸ hp

/-- The filters of a list look at the fields of a row. -/
theorem byFields_filters (env : Env) {c : ListCall} {filters : List (Row → Except JsError Bool)}
    (h : c.filters env = .ok filters) : ∀ p ∈ filters, ByFields p := by
  cases c with
  | orders query =>
    cases h
    unfold Orders.ListQuery.filters
    simp only [List.forall_mem_append]
    refine ⟨⟨⟨⟨⟨?_, ?_⟩, ?_⟩, ?_⟩, ?_⟩, ?_⟩
    · exact byFields_onlyIf (byFields_columnIs _ _)
    · exact byFields_onlyIf fun r r' h => by rw [h.get]
    · exact byFields_onlyIf (byFields_columnIs _ _)
    · exact byFields_onlyIf (byFields_phoneIncludes _)
    · exact byFields_onlyIf (byFields_createdFrom _)
    · exact byFields_onlyIf (byFields_createdTo _)
  | products query =>
    obtain ⟨kw, _, h⟩ := bind_ok h
    cases h
    simp only [List.forall_mem_append]
    refine ⟨⟨?_, ?_⟩, ?_⟩
    · exact byFields_onlyIf (byFields_columnMatches _ _ _)
    · exact byFields_onlyIf (byFields_columnIs _ _)
    · exact byFields_onlyIf (byFields_columnIs _ _)
  | properties query =>
    obtain ⟨name, _, h⟩ := bind_ok h
    obtain ⟨kw, _, h⟩ := bind_ok h
    cases h
    simp only [List.forall_mem_append]
    refine ⟨⟨⟨⟨⟨⟨⟨?_, ?_⟩, ?_⟩, ?_⟩, ?_⟩, ?_⟩, ?_⟩, ?_⟩
    · exact byFields_onlyIf (byFields_columnMatches _ _ _)
    · exact byFields_onlyIf (byFields_columnIncludes _ _)
    · exact byFields_onlyIf (byFields_columnIncludes _ _)
    · exact byFields_onlyIf (byFields_createdFrom _)
    · exact byFields_onlyIf (byFields_createdTo _)
    · exact byFields_onlyIf ((byFields_columnMatches _ _ _).either (byFields_columnMatches _ _ _))
    · exact byFields_onlyIf (byFields_columnIs _ _)
    · exact byFields_onlyIf (byFields_columnIs _ _)
  | reviews query =>
    cases h
    unfold Reviews.ListQuery.filters
    simp only [List.forall_mem_append]
    refine ⟨⟨?_, ?_⟩, ?_⟩
    all_goals exact byFields_onlyIf (byFields_columnIs _ _)
  | welfareCodes query =>
    obtain ⟨kw, _, h⟩ := bind_ok h
    cases h
    simp only [List.forall_mem_append]
    refine ⟨⟨?_, ?_⟩, ?_⟩
    · exact byFields_onlyIf ((byFields_columnMatches _ _ _).either (byFields_columnMatches _ _ _))
    · exact byFields_onlyIf (byFields_columnIs _ _)
    · exact byFields_onlyIf (byFields_columnIs _ _)
  | categories =>
    cases h
    exact fun p hp => absurd hp List.not_mem_nil
  | enabledCategories =>
    cases h
    intro p hp
    rw [List.mem_singleton.mp hp]
    exact byFields_columnIs _ _

theorem map_eq_of_byFields {α : Type} {f : Row → α} (hf : ByFields f) {l l' : List Row}
    (h : List.Forall₂ SameFields l l') : l.map f = l'.map f := by
  induction h with
  | nil => rfl
  | cons hr _ ih => rw [List.map_cons, List.map_cons, hf _ _ hr, ih]

theorem mapM_eq_of_byFields {α : Type} {f : Row → Except JsError α} (hf : ByFields f)
    {l l' : List Row} (h : List.Forall₂ SameFields l l') : l.mapM f = l'.mapM f := by
  induction h with
  | nil => rfl
  | cons hr _ ih => rw [List.mapM_cons, List.mapM_cons, hf _ _ hr, ih]

theorem byFields_get (k : String) : ByFields fun r => r.get k := fun _ _ h => h k

theorem filterAll_forall₂ {filters : List (Row → Except JsError Bool)}
    (hf : ∀ p ∈ filters, ByFields p) {l l' : List Row} (h : List.Forall₂ SameFields l l') :
    ExceptRel (List.Forall₂ SameFields) (filterAll filters l) (filterAll filters l') := by
  induction filters generalizing l l' with
  | nil => exact .ok h
  | cons p ps ih =>
    refine (filterM_forall₂ (hf p List.mem_cons_self) h).bind fun kept kept' hk => ?_
    exact ih (fun q hq => hf q (List.mem_cons_of_mem p hq)) hk

theorem listOrder_byFields (env : Env) (t : Table) (a a' b b' : Row) (ha : SameFields a a')
    (hb : SameFields b b') : listOrder env t a b = listOrder env t a' b' :=
  listOrder_congr env t (fun k _ => ha k) fun k _ => hb k

theorem Alike.putRows {s s' : Store} (h : Alike s s') (t : Table) {rows rows' : List Row}
    (hr : List.Forall₂ SameFields rows rows') : Alike (s.putRows t rows) (s'.putRows t rows') := by
  intro u
  rw [Store.cache_putRows, Store.cache_putRows, StoreData.rows_setRows, StoreData.rows_setRows]
  split
  · exact hr
  · exact h u

/-- Both tables are sorted, or neither is. -/
theorem mirrors_sortTable (env : Env) (t : Table) :
    Mirrors (List.Forall₂ SameFields) (sortTable env t) (sortTable env t) := by
  intro s s' h
  have hsort := arraySort_forall₂ (listOrder_byFields env t) (h t)
  unfold Action.run sortTable Store.getTable
  generalize arraySort (listOrder env t) (s.cache.rows t) = x at hsort
  generalize arraySort (listOrder env t) (s'.cache.rows t) = y at hsort
  cases hsort with
  | ok hr => exact ⟨.ok hr, h.putRows t hr⟩
  | error e => exact ⟨.error e, h⟩

theorem mirrors_listed (env : Env) (t : Table) {filters : List (Row → Except JsError Bool)}
    (hf : ∀ p ∈ filters, ByFields p) :
    Mirrors (List.Forall₂ SameFields) (listed env t filters) (listed env t filters) := by
  cases filters with
  | nil => exact mirrors_sortTable env t
  | cons p ps =>
    refine mirrors_bind (mirrors_getTable t) fun rows rows' hrows => ?_
    refine mirrors_bind (relates_lift (filterAll_forall₂ hf hrows)) fun kept kept' hk => ?_
    exact relates_lift (arraySort_forall₂ (listOrder_byFields env t) hk)

/-- The same total, and rows that read the same. -/
def SamePage (x y : ℕ × List Row) : Prop := x.1 = y.1 ∧ List.Forall₂ SameFields x.2 y.2

theorem byFields_hasNo (orderNo : String) : ByFields (Orders.hasNo orderNo) := by
  intro r r' h
  unfold Orders.hasNo
  rw [h.get]

theorem mirrors_findByOrderNo (orderNo : String) :
    Mirrors (Option.Rel SameFields) (Orders.findByOrderNo orderNo) (Orders.findByOrderNo orderNo) :=
  mirrors_findOne .orders (byFields_hasNo orderNo)

/-- What is read of the user an order belongs to. -/
theorem userColumn_userOf {users users' : List Row} (hu : List.Forall₂ SameFields users users')
    {order order' : Row} (h : SameFields order order') (column : String) :
    Orders.userColumn (Orders.userOf users order) column =
      Orders.userColumn (Orders.userOf users' order') column := by
  unfold Orders.userOf
  rw [h.get]
  split
  · have hfound := find?_forall₂ (List.rel_reverse hu)
      (p := fun u => decide (u.get "id" = order'.get "user_id"))
      (q := fun u => decide (u.get "id" = order'.get "user_id")) fun u u' huu => by rw [huu.get]
    unfold Orders.userColumn
    generalize List.find? _ users.reverse = found at hfound ⊢
    generalize List.find? _ users'.reverse = found' at hfound ⊢
    cases hfound with
    | none => rfl
    | some huu => exact huu column
  · rfl

theorem addressData_byFields : ByFields Orders.addressData := by
  intro r r' h
  unfold Orders.addressData Orders.parseAddress
  rw [h.get]

theorem withUser_same {users users' : List Row} (hu : List.Forall₂ SameFields users users')
    {order order' : Row} (h : SameFields order order') :
    ExceptRel SameFields (Orders.withUser users order) (Orders.withUser users' order') := by
  unfold Orders.withUser
  simp only [userColumn_userOf hu h, addressData_byFields _ _ h]
  refine .ite (fun _ => .bind_same fun phone _ => ?_) fun _ => .bind_same fun phone _ => ?_
  all_goals
    refine .bind_same fun name _ => .bind_same fun addressPhone _ => .bind_same fun detail _ => ?_
    exact .ok (((((h.set _ _).set _ _).set _ _).set _ _).set _ _)

theorem mirrors_ordersList (env : Env) (query : Orders.ListQuery) :
    Mirrors SamePage (Orders.list env query) (Orders.list env query) := by
  refine mirrors_bind (mirrors_listed env .orders (byFields_filters env (c := .orders query) rfl))
    fun rows rows' hrows => ?_
  refine mirrors_bind (mirrors_getTable .users) fun users users' hu => ?_
  refine mirrors_bind (relates_lift (ExceptRel.mapM (fun _ _ h => withUser_same hu h)
    (paginate_forall₂ query.page query.pageSize hrows))) fun orders orders' ho => ?_
  exact mirrors_pure ⟨hrows.length_eq, ho⟩

theorem mirrors_productsList (env : Env) (query : Products.ListQuery) :
    Mirrors SamePage (Products.list env query) (Products.list env query) := by
  refine mirrors_lift_bind fun filters hq => ?_
  refine mirrors_bind (mirrors_listed env .products (byFields_filters env (c := .products query) hq))
    fun rows rows' hrows => ?_
  exact mirrors_pure ⟨hrows.length_eq, paginate_forall₂ _ _ hrows⟩

theorem mirrors_propertiesList (env : Env) (query : Properties.ListQuery) :
    Mirrors SamePage (Properties.list env query) (Properties.list env query) := by
  refine mirrors_lift_bind fun filters hq => ?_
  refine mirrors_bind (mirrors_listed env .properties (byFields_filters env (c := .properties query) hq))
    fun rows rows' hrows => ?_
  exact mirrors_pure ⟨hrows.length_eq, paginate_forall₂ _ _ hrows⟩

theorem mirrors_reviewsList (env : Env) (query : Reviews.ListQuery) :
    Mirrors SamePage (Reviews.list env query) (Reviews.list env query) := by
  refine mirrors_bind (mirrors_listed env .reviews (byFields_filters env (c := .reviews query) rfl))
    fun rows rows' hrows => ?_
  exact mirrors_pure ⟨hrows.length_eq, paginate_forall₂ _ _ hrows⟩

theorem byFields_ofCode (id : JsVal) : ByFields (WelfareCodes.ofCode id) := by
  intro r r' h
  unfold WelfareCodes.ofCode
  rw [h.get]

theorem withItems_same {items items' : List Row} (hi : List.Forall₂ SameFields items items')
    {wc wc' : Row} (h : SameFields wc wc') :
    ExceptRel SameFields (WelfareCodes.withItems items wc) (WelfareCodes.withItems items' wc') := by
  unfold WelfareCodes.withItems
  have hcode := filter_forall₂ hi (byFields_ofCode (wc'.get "id"))
  rw [h "id"]
  simp only [map_eq_of_byFields (byFields_get _) hcode]
  refine .bind_same fun codes _ => .bind_same fun titles _ => .ok ?_
  exact (h.set _ _).set _ _

theorem mirrors_welfareCodesList (env : Env) (query : WelfareCodes.ListQuery) :
    Mirrors SamePage (WelfareCodes.list env query) (WelfareCodes.list env query) := by
  refine mirrors_lift_bind fun filters hq => ?_
  refine mirrors_bind (mirrors_listed env .welfareCodes
    (byFields_filters env (c := .welfareCodes query) hq)) fun rows rows' hrows => ?_
  refine mirrors_bind (mirrors_getTable .welfareCodeItems) fun items items' hi => ?_
  refine mirrors_bind (relates_lift (ExceptRel.mapM (fun _ _ h => withItems_same hi h)
    (paginate_forall₂ query.page query.pageSize hrows))) fun codes codes' hc => ?_
  exact mirrors_pure ⟨hrows.length_eq, hc⟩

end JtfpMall
