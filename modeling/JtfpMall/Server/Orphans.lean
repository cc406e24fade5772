import JtfpMall.Lib.References
import JtfpMall.Repositories.Operations
import JtfpMall.Server.Identity

/-!
# No orphan rows

SKUs refer to a product by its id, order items to an order by its number, code items to a
welfare code by its id. The store knows nothing of this: the three `remove` functions each
delete the children by hand, two of them before they look for the parent.
-/

namespace JtfpMall

open JtfpMall.Js
open JtfpMall.Lib

/-- A column of one table that holds the key of another. -/
structure Reference where
  child : Table
  column : String
  parent : Table
  key : String
deriving DecidableEq

namespace Reference

def skuProduct : Reference := ⟨.productSkus, "product_id", .products, "id"⟩
def itemOrder : Reference := ⟨.orderItems, "order_no", .orders, "order_no"⟩
def itemCode : Reference := ⟨.welfareCodeItems, "welfare_code_id", .welfareCodes, "id"⟩

def all : List Reference := [skuProduct, itemOrder, itemCode]

/-- The child row refers to the parent row, as the cascades compare them. -/
def Refers (ref : Reference) (c p : Row) : Prop :=
  (c.get ref.column).strictEq (p.get ref.key) = true

/-- A row of the parent table has the key. -/
def Exists (ref : Reference) (s : Store) (v : JsVal) : Prop :=
  ∃ p ∈ s.cache.rows ref.parent, v.strictEq (p.get ref.key) = true

/-- No row of the child table is an orphan. -/
def Whole (ref : Reference) (s : Store) : Prop :=
  Covered ref.Refers (s.cache.rows ref.child) (s.cache.rows ref.parent)

/-- The parents with the key go, at most one, with their children; nothing else changes. -/
structure Cascades (ref : Reference) (v : JsVal) (s s' : Store) : Prop where
  single : Unique (fun p => (p.get ref.key).strictEq v) (s.cache.rows ref.parent)
  parents : s'.cache.rows ref.parent =
    (s.cache.rows ref.parent).filter fun p => !(p.get ref.key).strictEq v
  children : s'.cache.rows ref.child =
    (s.cache.rows ref.child).filter fun c => !(c.get ref.column).strictEq v
  others : ∀ t, t ≠ ref.parent → t ≠ ref.child → s'.cache.rows t = s.cache.rows t
  counters : ∀ t, s'.cache.next t = s.cache.next t

end Reference

/-- No SKU, order item or welfare-code item is an orphan. -/
def NoOrphans (s : Store) : Prop := ∀ ref ∈ Reference.all, ref.Whole s

/-- The columns that identify a row or refer to another. -/
def keyColumns : Table → List String
  | .orders => ["id", "order_no"]
  | .productSkus => ["id", "product_id"]
  | .orderItems => ["id", "order_no"]
  | .welfareCodeItems => ["id", "welfare_code_id"]
  | _ => ["id"]

/-- An update of the row that would be found gives no key column another value. -/
def KeepsKeys (s : Store) (t : Table) (id : JsVal) (data : Row) : Prop :=
  ∀ row, s.findById t id = some row → ∀ k ∈ keyColumns t, data.has k = true → data.get k = row.get k

/-- No order has the number. -/
def FreshNo (s : Store) (orderNo : JsVal) : Prop :=
  ∀ o ∈ s.cache.rows .orders, o.get "order_no" ≠ orderNo

/-- The tables of the three references. -/
def linkedTables : List Table := Reference.all.flatMap fun ref => [ref.child, ref.parent]

namespace Operation

/-- Children are added for a parent that exists, orders under a fresh number, and no update
changes a key. -/
def Allowed (s : Store) : Operation → Prop
  | .updateProduct id data => KeepsKeys s .products (.num id) data
  | .addSku data => Reference.skuProduct.Exists s (data.get "product_id")
  | .updateSku skuId data => KeepsKeys s .productSkus (.num skuId) data
  | .createOrder data time draw =>
    FreshNo s ((data.get "order_no").or (.str (Orders.generateOrderNo time draw)))
  | .updateOrder orderNo data => ∀ order, s.findOne .orders (Orders.hasNo orderNo) = some order →
      KeepsKeys s .orders (order.get "id") data
  | .updateOrderStatus orderNo _ extraData => ∀ order,
      s.findOne .orders (Orders.hasNo orderNo) = some order →
      KeepsKeys s .orders (order.get "id") extraData
  | .addOrderItem item => Reference.itemOrder.Exists s (item.get "order_no")
  | .updateCode id data => KeepsKeys s .welfareCodes (.num id) data
  | .addCodeItem data => Reference.itemCode.Exists s (data.get "welfare_code_id")
  | .elsewhere w => w.table ∉ linkedTables
  | _ => True

/-- Operations are always possible. -/
def step (env : Env) (s : Store) (e : String × Operation) : Option Store :=
  some (e.2.apply env e.1 s)

end Operation

/-- Ids are issued numbers, order numbers are distinct and no row is an orphan. -/
structure Linked (s : Store) : Prop where
  issued : ∀ t ∈ linkedTables, Issued s.cache t
  numbers : ((s.cache.rows .orders).map fun o => o.get "order_no").Nodup
  whole : NoOrphans s

namespace Linked

variable {s s' : Store}

/-- What matters are the rows and counters of the linked tables. -/
theorem of_rows (h : Linked s) (hr : ∀ t ∈ linkedTables, s'.cache.rows t = s.cache.rows t)
    (hn : ∀ t ∈ linkedTables, s'.cache.next t = s.cache.next t) : Linked s' := by
  refine ⟨fun t ht => (h.issued t ht).of_rows (hr t ht) id (hn t ht), ?_, fun ref href => ?_⟩
  · rw [hr .orders (by decide)]
    exact h.numbers
  · have hw := h.whole ref href
    unfold Reference.Whole at hw ⊢
    rwa [hr ref.child (List.mem_flatMap.mpr ⟨ref, href, by simp⟩),
      hr ref.parent (List.mem_flatMap.mpr ⟨ref, href, by simp⟩)]

theorem perm (h : Linked s) (hp : ∀ t, (s'.cache.rows t).Perm (s.cache.rows t))
    (hn : ∀ t, s'.cache.next t = s.cache.next t) : Linked s' := by
  refine ⟨fun t ht => (h.issued t ht).perm (hp t) (hn t), ?_, fun ref href => ?_⟩
  · exact ((hp .orders).map _).nodup_iff.mpr h.numbers
  · exact ((h.whole ref href).subset (hp _).subset).superset (hp _).symm.subset

end Linked

/-- The column of a new row is the column of the data. -/
theorem get_newRow_of_ne {k : String} (hk : k ∉ ["id", "created_at", "updated_at"]) (data : Row)
    (id : ℕ) (now : String) : (Store.newRow data id now).get k = data.get k := by
  simp only [List.mem_cons, List.not_mem_nil, or_false, not_or] at hk
  simp [Store.newRow, Dict.get_set, hk]

/-- The data may enter the table: its references are to rows that exist. -/
def Placed (s : Store) (t : Table) (data : Row) : Prop :=
  (∀ ref ∈ Reference.all, ref.child = t → ref.Exists s (data.get ref.column)) ∧
    (t = .orders → FreshNo s (data.get "order_no"))

theorem column_not_stamped {ref : Reference} (href : ref ∈ Reference.all) :
    ref.column ∉ ["id", "created_at", "updated_at"] := by
  revert ref
  decide

theorem linked_insert {s : Store} (h : Linked s) {t : Table} {data : Row} (hp : Placed s t data)
    (now : String) : Linked (s.insert t data now).2 := by
  refine ⟨fun u hu => ?_, ?_, fun ref href => ?_⟩
  · exact issued_apply (w := .insert t data) (h.issued u hu) (fun _ => trivial) now
  · rw [Store.rows_insert]
    split
    · rename_i ht
      subst ht
      have hfresh := hp.2 rfl
      rw [List.map_append, List.nodup_append]
      refine ⟨h.numbers, List.nodup_singleton _, fun a ha b hb => ?_⟩
      obtain ⟨o, ho, rfl⟩ := List.mem_map.mp ha
      rw [List.map_singleton, List.mem_singleton] at hb
      rw [hb, get_newRow_of_ne (by decide)]
      exact hfresh o ho
    · exact h.numbers
  · have hw : ref.Whole s := h.whole ref href
    have hparents : s.cache.rows ref.parent ⊆ (s.insert t data now).2.cache.rows ref.parent := by
      rw [Store.rows_insert]
      split
      · rename_i ht
        rw [ht]
        exact List.subset_append_left _ _
      · exact List.Subset.refl _
    refine Covered.superset ?_ hparents
    rw [Store.rows_insert]
    split
    · rename_i ht
      refine Covered.concat (ht ▸ hw) ?_
      unfold Reference.Refers
      rw [get_newRow_of_ne (column_not_stamped href)]
      exact hp.1 ref href ht
    · exact hw

/-- The rows agree in the key columns of the table. -/
def SameKeys (t : Table) (r r' : Row) : Prop := ∀ k ∈ keyColumns t, r'.get k = r.get k

theorem column_mem_keyColumns {ref : Reference} (href : ref ∈ Reference.all) :
    ref.column ∈ keyColumns ref.child ∧ ref.key ∈ keyColumns ref.parent := by
  revert ref
  decide

theorem keyColumns_not_stamped {t : Table} {k : String} (hk : k ∈ keyColumns t) :
    k ≠ "updated_at" := by
  revert hk
  cases t <;> simp [keyColumns] <;> grind

theorem sameKeys_update {s : Store} {t : Table} {id : JsVal} {data : Row}
    (hk : KeepsKeys s t id data) (now : String) (u : Table) :
    List.Forall₂ (SameKeys u) (s.cache.rows u) ((s.update t id data now).2.cache.rows u) := by
  rw [Store.rows_update]
  split
  · rename_i hu
    subst hu
    refine (forall₂_modifyFirst_iff (fun _ _ _ => rfl) _).mpr fun row hrow k hmem => ?_
    rw [get_merged_of_ne (keyColumns_not_stamped hmem)]
    split
    · rename_i hhas
      exact hk row hrow k hmem hhas
    · rfl
  · exact List.forall₂_same.mpr fun _ _ _ _ => rfl

theorem map_get_of_sameKeys {t : Table} {k : String} (hk : k ∈ keyColumns t) {rows rows' : List Row}
    (h : List.Forall₂ (SameKeys t) rows rows') :
    (rows'.map fun r => r.get k) = rows.map fun r => r.get k := by
  induction h with
  | nil => rfl
  | cons hr _ ih => rw [List.map_cons, List.map_cons, ih, hr k hk]

theorem id_mem_keyColumns (t : Table) : "id" ∈ keyColumns t := by
  cases t <;> simp [keyColumns]

/-- Rows that change and keep their keys stay linked. -/
theorem Linked.of_sameKeys {s s' : Store} (h : Linked s)
    (hk : ∀ t, List.Forall₂ (SameKeys t) (s.cache.rows t) (s'.cache.rows t))
    (hn : ∀ t, s'.cache.next t = s.cache.next t) : Linked s' := by
  refine ⟨fun t ht => ?_, ?_, fun ref href => ?_⟩
  · exact (h.issued t ht).of_rows rfl
      (fun hi => hi.of_keys (map_get_of_sameKeys (id_mem_keyColumns t) (hk t))) (hn t)
  · rw [map_get_of_sameKeys (by simp [keyColumns]) (hk .orders)]
    exact h.numbers
  · obtain ⟨hcolumn, hkey⟩ := column_mem_keyColumns href
    have hw : ref.Whole s := h.whole ref href
    have hc : Covered ref.Refers (s'.cache.rows ref.child) (s.cache.rows ref.parent) := by
      refine hw.changeChildren (fun c c' p hcc hr => ?_) (hk ref.child)
      unfold Reference.Refers at hr ⊢
      rwa [hcc _ hcolumn]
    refine hc.changeParents (fun c p p' hpp hr => ?_) (hk ref.parent)
    unfold Reference.Refers at hr ⊢
    rwa [hpp _ hkey]

theorem linked_update {s : Store} (h : Linked s) {t : Table} {id : JsVal} {data : Row}
    (hk : KeepsKeys s t id data) (now : String) : Linked (s.update t id data now).2 :=
  h.of_sameKeys (sameKeys_update hk now) (Store.next_update t · id data now s)

/-- The deletion of a row that nothing refers to. -/
theorem linked_remove {s : Store} (h : Linked s) {t : Table} (id : JsVal)
    (ht : ∀ ref ∈ Reference.all, ref.parent ≠ t) : Linked (s.remove t id).2 := by
  have hsub : ∀ u, ((s.remove t id).2.cache.rows u).Sublist (s.cache.rows u) := by
    intro u
    rw [Store.rows_remove]
    split
    · rename_i hu
      rw [hu]
      exact List.eraseP_sublist
    · exact .refl _
  refine ⟨fun u hu => ?_, ?_, fun ref href => ?_⟩
  · exact (h.issued u hu).of_rows rfl (fun hi => hi.sublist (hsub u)) (Store.next_remove ..)
  · exact h.numbers.sublist ((hsub .orders).map _)
  · have hparent : (s.remove t id).2.cache.rows ref.parent = s.cache.rows ref.parent := by
      rw [Store.rows_remove, if_neg (ht ref href)]
    have hw : ref.Whole s := h.whole ref href
    unfold Reference.Whole
    rw [hparent]
    exact hw.subset (hsub _).subset

theorem strictEq_trans {v : JsVal} {a b : JsVal} (hab : a.strictEq b = true)
    (hb : b.strictEq v = true) : a.strictEq v = true := by
  rw [JsVal.eq_of_strictEq hab]
  exact hb

theorem all_disjoint {ref ref' : Reference} (h : ref ∈ Reference.all) (h' : ref' ∈ Reference.all)
    (hne : ref' ≠ ref) : ref'.child ≠ ref.child ∧ ref'.child ≠ ref.parent ∧
      ref'.parent ≠ ref.child ∧ ref'.parent ≠ ref.parent := by
  have hall : ∀ ref ∈ Reference.all, ∀ ref' ∈ Reference.all, ref' ≠ ref →
      ref'.child ≠ ref.child ∧ ref'.child ≠ ref.parent ∧ ref'.parent ≠ ref.child ∧
        ref'.parent ≠ ref.parent := by decide
  exact hall ref h ref' h' hne

/-- A cascade keeps the store linked. -/
theorem Linked.cascades {s s' : Store} (h : Linked s) {ref : Reference} (href : ref ∈ Reference.all)
    {v : JsVal} (hc : ref.Cascades v s s') : Linked s' := by
  have hsub : ∀ t, (s'.cache.rows t).Sublist (s.cache.rows t) := by
    intro t
    by_cases hp : t = ref.parent
    · rw [hp, hc.parents]
      exact List.filter_sublist
    · by_cases hch : t = ref.child
      · rw [hch, hc.children]
        exact List.filter_sublist
      · rw [hc.others t hp hch]
  refine ⟨fun t ht => ?_, h.numbers.sublist ((hsub .orders).map _), fun ref' href' => ?_⟩
  · exact (h.issued t ht).of_rows rfl (fun hi => hi.sublist (hsub t)) (hc.counters t)
  · have hw : ref'.Whole s := h.whole ref' href'
    unfold Reference.Whole at hw ⊢
    by_cases he : ref' = ref
    · subst he
      rw [hc.parents, hc.children]
      exact hw.cascade fun c p hr hgone => strictEq_trans hr hgone
    · obtain ⟨h1, h2, h3, h4⟩ := all_disjoint href href' he
      rw [hc.others _ h2 h1, hc.others _ h4 h3]
      exact hw

/-- The children first, then one row of the parent table, by id. -/
def removeBoth (ref : Reference) (v id : JsVal) (s : Store) : Store :=
  ((s.removeWhere ref.child fun c => (c.get ref.column).strictEq v).2.remove ref.parent id).2

theorem cascades_removeBoth {s : Store} {ref : Reference} (hne : ref.parent ≠ ref.child)
    {v id : JsVal} (hsingle : Unique (fun p => (p.get ref.key).strictEq v) (s.cache.rows ref.parent))
    (herase : (s.cache.rows ref.parent).eraseP (Store.hasId id) =
      (s.cache.rows ref.parent).filter fun p => !(p.get ref.key).strictEq v) :
    ref.Cascades v s (removeBoth ref v id s) := by
  unfold removeBoth
  refine ⟨hsingle, ?_, ?_, fun t hp hc => ?_, fun t => ?_⟩
  · rw [Store.rows_remove, if_pos rfl, Store.rows_removeWhere, if_neg hne, herase]
  · rw [Store.rows_remove, if_neg hne.symm, Store.rows_removeWhere, if_pos rfl]
  · rw [Store.rows_remove, if_neg hp, Store.rows_removeWhere, if_neg hc]
  · rw [Store.next_remove, Store.next_removeWhere]

/-- A deletion by the id that the children hold. -/
theorem cascades_byId {s : Store} (h : Linked s) {ref : Reference} (href : ref ∈ Reference.all)
    (hkey : ref.key = "id") (v : JsVal) : ref.Cascades v s (removeBoth ref v v s) := by
  have hne : ref.parent ≠ ref.child := by
    revert ref
    decide
  have hissued : Issued s.cache ref.parent :=
    h.issued ref.parent (List.mem_flatMap.mpr ⟨ref, href, by simp⟩)
  have hunique : Unique (Store.hasId v) (s.cache.rows ref.parent) := hissued.unique v
  refine cascades_removeBoth hne ?_ ?_
  · rw [hkey]
    exact hunique
  · rw [hkey]
    exact hunique.eraseP_eq

theorem unique_hasNo {s : Store} (h : Linked s) (orderNo : String) :
    Unique (Orders.hasNo orderNo) (s.cache.rows .orders) :=
  .of_nodup h.numbers fun _ _ _ _ ha hb =>
    (JsVal.eq_of_strictEq ha).trans (JsVal.eq_of_strictEq hb).symm

section
variable {s : Store} (env : Env) (now : String)

theorem cascades_removeProduct (h : Linked s) (id : JsNum) :
    Reference.skuProduct.Cascades (.num id) s (Operation.apply env now s (.removeProduct id)) :=
  cascades_byId h (by decide) rfl _

theorem cascades_removeCode (h : Linked s) (id : JsNum) :
    Reference.itemCode.Cascades (.num id) s (Operation.apply env now s (.removeCode id)) :=
  cascades_byId h (by decide) rfl _

/-- An order that is not there has no items. -/
theorem cascades_removeOrder (h : Linked s) (orderNo : String) :
    Reference.itemOrder.Cascades (.str orderNo) s
      (Operation.apply env now s (.removeOrder orderNo)) := by
  have hunique : Unique (Orders.hasNo orderNo) (s.cache.rows .orders) := unique_hasNo h orderNo
  have hrun : Operation.apply env now s (.removeOrder orderNo) =
      (s.findOne .orders (Orders.hasNo orderNo)).elim s fun order =>
        removeBoth .itemOrder (.str orderNo) (order.get "id") s := by
    rw [Operation.apply, Operation.program, Action.snd_run_bind_pure]
    unfold Orders.remove Orders.findByOrderNo Act.findOne
    rw [Action.run_reads_bind]
    cases s.findOne .orders (Orders.hasNo orderNo) <;> rfl
  rw [hrun]
  cases hfind : s.findOne .orders (Orders.hasNo orderNo) with
  | none =>
    have hno : ∀ o ∈ s.cache.rows .orders, Orders.hasNo orderNo o = false := by
      intro o ho
      simpa using List.find?_eq_none.mp hfind o ho
    have hitems : Reference.itemOrder.Whole s := h.whole _ (by decide)
    refine ⟨hunique, ?_, ?_, fun _ _ _ => rfl, fun _ => rfl⟩
    · exact (List.filter_eq_self.mpr fun o ho => congrArg (! ·) (hno o ho)).symm
    · refine (hitems.filter_eq_self fun c p hr hp => ?_).symm
      rw [JsVal.eq_of_strictEq hr]
      exact hno p hp
  | some order =>
    obtain ⟨hmem, hno⟩ := mem_of_findOne hfind
    have hissued : Issued s.cache .orders := h.issued .orders (by decide)
    refine cascades_removeBoth (by decide) hunique ?_
    refine (hissued.unique (order.get "id")).eraseP_eq.trans ?_
    refine List.filter_congr fun o ho => congrArg (! ·) ?_
    -- the order found is the one row with its id, and the one row with the number
    have hid : Store.hasId (order.get "id") o = true ↔ o = order := hissued.hasId_iff hmem ho
    have hsame : Orders.hasNo orderNo o = true ↔ o = order := by
      constructor
      · intro ho'
        refine List.inj_on_of_nodup_map h.numbers ho hmem ?_
        exact (JsVal.eq_of_strictEq ho').trans (JsVal.eq_of_strictEq hno).symm
      · rintro rfl
        exact hno
    exact Bool.eq_iff_iff.mpr (hid.trans hsame.symm)

end

theorem keepsKeys_of_not_has {s : Store} {t : Table} {id : JsVal} {data : Row}
    (h : ∀ k ∈ keyColumns t, data.has k = false) : KeepsKeys s t id data := by
  intro row _ k hk hhas
  rw [h k hk] at hhas
  cases hhas

theorem placed_of_not_child {s : Store} {t : Table} {data : Row}
    (ht : ∀ ref ∈ Reference.all, ref.child ≠ t) (ho : t ≠ .orders) : Placed s t data :=
  ⟨fun ref href he => absurd he (ht ref href), fun he => absurd he ho⟩

/-- A child is placed when the row it refers to exists. -/
theorem placed_child {s : Store} (ref : Reference) (href : ref ∈ Reference.all) {data : Row}
    (h : ref.Exists s (data.get ref.column)) : Placed s ref.child data := by
  have hchild : ∀ ref ∈ Reference.all, ref.child ≠ .orders ∧
      ∀ ref' ∈ Reference.all, ref'.child = ref.child → ref' = ref := by decide
  obtain ⟨hne, hsame⟩ := hchild ref href
  refine ⟨fun ref' href' he => ?_, fun he => absurd he hne⟩
  rw [hsame ref' href' he]
  exact h

theorem linked_effects {env : Env} {s s' : Store} (h : Linked s)
    (he : Effects env (fun _ => False) (fun _ => True) s s') : Linked s' := by
  induction he with
  | refl => exact h
  | tail _ hstep ih =>
    cases hstep with
    | write _ _ hw => exact hw.elim
    | sort _ _ hrows =>
      rename_i m t rows _ _
      refine ih.perm (fun u => ?_) fun u => rfl
      rw [Store.cache_putRows, StoreData.rows_setRows]
      split
      · rename_i hu
        rw [hu]
        exact arraySort_perm hrows
      · exact .refl _

theorem linked_calm {env : Env} {α : Type} {m : Act α} (hm : Calm env (fun _ => False) (fun _ => True) m) {s : Store}
    (h : Linked s) : Linked (m.run s).2 := linked_effects h (hm s)

section
variable {env : Env} {s : Store} {now : String}

theorem linked_addSku (h : Linked s) {data : Row}
    (hp : Reference.skuProduct.Exists s (data.get "product_id")) :
    Linked (Operation.apply env now s (.addSku data)) := by
  refine linked_insert h (placed_child .skuProduct (by decide) ?_) now
  have hcolumn : (Products.newSku data).get "product_id" = data.get "product_id" := by
    simp [Products.newSku, Dict.get_set]
  exact (congrArg _ hcolumn).mpr hp

theorem linked_createOrder (h : Linked s) {data : Row} {time : Orders.LocalTime} {draw : Fin 10000}
    (hf : FreshNo s ((data.get "order_no").or (.str (Orders.generateOrderNo time draw)))) :
    Linked (Operation.apply env now s (.createOrder data time draw)) := by
  refine linked_insert h ⟨fun ref href he => ?_, fun _ => ?_⟩ now
  · exact absurd he (by revert ref; decide)
  · have hcolumn : (Orders.newOrder data (Orders.generateOrderNo time draw)).get "order_no" =
        (data.get "order_no").or (.str (Orders.generateOrderNo time draw)) := by
      simp [Orders.newOrder, Dict.get_set]
    rw [hcolumn]
    exact hf

/-- What an update of an order found by its number does. -/
theorem linked_updateOrder (h : Linked s) {orderNo : String} {data : Row}
    (hk : ∀ order, s.findOne .orders (Orders.hasNo orderNo) = some order →
      KeepsKeys s .orders (order.get "id") data) :
    Linked (Operation.apply env now s (.updateOrder orderNo data)) := by
  rw [Operation.apply, Operation.program, Action.snd_run_bind_pure]
  unfold Orders.update Orders.findByOrderNo Act.findOne
  rw [Action.run_reads_bind]
  cases hfind : s.findOne .orders (Orders.hasNo orderNo) with
  | none => exact h
  | some order => exact linked_update h (hk order hfind) now

theorem keepsKeys_status {order : Row} {status : JsVal} {extraData : Row}
    (hk : KeepsKeys s .orders (order.get "id") extraData) :
    KeepsKeys s .orders (order.get "id") ((Dict.ofList [("status", status)]).spread extraData) := by
  intro row hrow k hmem hhas
  have hne : (Dict.ofList [("status", status)]).has k = false := by
    revert hmem
    simp only [keyColumns, List.mem_cons, List.not_mem_nil, or_false]
    rintro (rfl | rfl) <;> rfl
  rw [Dict.has_spread, hne, Bool.or_false] at hhas
  rw [Dict.get_spread, if_pos hhas]
  exact hk row hrow k hmem hhas

theorem linked_updateOrderStatus (h : Linked s) {orderNo : String} {status : JsVal} {extraData : Row}
    (hk : ∀ order, s.findOne .orders (Orders.hasNo orderNo) = some order →
      KeepsKeys s .orders (order.get "id") extraData) :
    Linked (Operation.apply env now s (.updateOrderStatus orderNo status extraData)) := by
  rw [Operation.apply, Operation.program, Action.snd_run_bind_pure]
  unfold Orders.updateStatusWith Orders.findByNo Act.findOne
  have hsame : Orders.hasNoOf (.str orderNo) = Orders.hasNo orderNo := rfl
  rw [Action.run_reads_bind, hsame]
  cases hfind : s.findOne .orders (Orders.hasNo orderNo) with
  | none => exact h
  | some order => exact linked_update h (keepsKeys_status (hk order hfind)) now

/-- An update of one column that is no key. -/
theorem linked_setColumn (h : Linked s) (t : Table) (id : JsVal) {k : String}
    (hk : k ∉ keyColumns t) (v : JsVal) : Linked (s.update t id (.ofList [(k, v)]) now).2 := by
  refine linked_update h (keepsKeys_of_not_has fun k' hk' => ?_) now
  rw [Dict.has_ofList]
  refine decide_eq_false fun he => hk ?_
  have hkk : k' = k := List.mem_singleton.mp he
  exact hkk ▸ hk'

theorem linked_decreaseStock (h : Linked s) (skuId quantity : JsNum) :
    Linked (Operation.apply env now s (.decreaseStock skuId quantity)) := by
  rw [Operation.apply, Operation.program, Action.snd_run_bind_pure]
  unfold Products.decreaseStock Products.findSkuById Act.findById
  rw [Action.run_reads_bind]
  cases s.findById .productSkus (.num skuId) with
  | none => exact h
  | some sku =>
    dsimp only
    rw [Action.run_bind, Action.run_lift]
    cases (sku.get "stock").lt (.num quantity) with
    | error e => exact h
    | ok short =>
      dsimp only
      split
      · exact h
      · rw [Action.run_bind, Action.run_lift]
        cases (sku.get "stock").sub (.num quantity) with
        | error e => exact h
        | ok stock => exact linked_setColumn h .productSkus _ (by decide) _

theorem linked_increaseStock (h : Linked s) (skuId quantity : JsNum) :
    Linked (Operation.apply env now s (.increaseStock skuId quantity)) := by
  rw [Operation.apply, Operation.program, Action.snd_run_bind_pure]
  unfold Products.increaseStock Products.findSkuById Act.findById
  rw [Action.run_reads_bind]
  cases s.findById .productSkus (.num skuId) with
  | none => exact h
  | some sku =>
    dsimp only
    rw [Action.run_bind, Action.run_lift]
    cases (sku.get "stock").add (.num quantity) with
    | error e => exact h
    | ok stock => exact linked_setColumn h .productSkus _ (by decide) _

theorem linked_useCode (h : Linked s) (code : JsVal) :
    Linked (Operation.apply env now s (.useCode code)) := by
  rw [Operation.apply, Operation.program, Action.snd_run_bind_pure]
  unfold WelfareCodes.useCode WelfareCodes.findByCode Act.findOne
  rw [Action.run_reads_bind]
  cases s.findOne .welfareCodes (WelfareCodes.hasCode code) with
  | none => exact h
  | some wc =>
    dsimp only
    rw [Action.run_bind, Action.run_lift]
    cases WelfareCodes.usedUp wc with
    | error e => exact h
    | ok usedUp =>
      dsimp only
      split
      · exact h
      · rw [Action.run_bind, Action.run_lift]
        cases (wc.get "used_count").add (.num (.fin 1)) with
        | error e => exact h
        | ok used => exact linked_setColumn h .welfareCodes _ (by decide) _

/-- One operation keeps the store linked. -/
theorem linked_apply (h : Linked s) {op : Operation} (ho : op.Allowed s) :
    Linked (op.apply env now s) := by
  cases op with
  | createProduct data =>
    exact linked_insert h (placed_of_not_child (by decide) (by decide)) now
  | updateProduct id data => exact linked_update h ho now
  | removeProduct id => exact h.cascades (by decide) (cascades_removeProduct env now h id)
  | addSku data => exact linked_addSku h ho
  | updateSku skuId data => exact linked_update h ho now
  | removeSku skuId => exact linked_remove h _ (by decide)
  | decreaseStock skuId quantity => exact linked_decreaseStock h skuId quantity
  | increaseStock skuId quantity => exact linked_increaseStock h skuId quantity
  | createOrder data time draw => exact linked_createOrder h ho
  | updateOrder orderNo data => exact linked_updateOrder h ho
  | updateOrderStatus orderNo status extraData => exact linked_updateOrderStatus h ho
  | removeOrder orderNo => exact h.cascades (by decide) (cascades_removeOrder env now h orderNo)
  | addOrderItem item => exact linked_insert h (placed_child .itemOrder (by decide) ho) now
  | logChange orderNo fieldName oldValue newValue operator =>
    exact linked_insert h (placed_of_not_child (by decide) (by decide)) now
  | createCode data => exact linked_insert h (placed_of_not_child (by decide) (by decide)) now
  | updateCode id data => exact linked_update h ho now
  | removeCode id => exact h.cascades (by decide) (cascades_removeCode env now h id)
  | useCode code => exact linked_useCode h code
  | addCodeItem data => exact linked_insert h (placed_child .itemCode (by decide) ho) now
  | removeCodeItem id => exact linked_remove h _ (by decide)
  | listProducts query =>
    rw [Operation.apply, Operation.program, Action.snd_run_bind_pure]
    exact linked_calm (calm_productsList query fun _ => trivial) h
  | listOrders query =>
    rw [Operation.apply, Operation.program, Action.snd_run_bind_pure]
    exact linked_calm (calm_ordersList query fun _ => trivial) h
  | listCodes query =>
    rw [Operation.apply, Operation.program, Action.snd_run_bind_pure]
    exact linked_calm (calm_welfareCodesList query fun _ => trivial) h
  | elsewhere w =>
    refine h.of_rows (fun t ht => ?_) fun t ht => ?_
    · exact Write.rows_apply_of_ne (fun he => ho (he ▸ ht)) now s
    · exact Write.next_apply_of_ne (fun he => ho (he ▸ ht)) now s

end

/-- A new store has none of these rows. -/
theorem linked_start (loadedAt : String) (clock : ℕ → String) :
    Linked (Server.start loadedAt clock .empty) := by
  have hrows : ∀ t, t ≠ .categories → t ≠ .admins →
      (Server.start loadedAt clock .empty).cache.rows t = [] := by
    intro t hc ha
    unfold Server.start
    rw [rows_initDefaultData_of_ne hc ha]
    rfl
  refine ⟨fun t _ => issued_start loadedAt clock t, ?_, fun ref href => ?_⟩
  · rw [hrows .orders (by decide) (by decide)]
    exact List.nodup_nil
  · have hchild : ref.child ≠ .categories ∧ ref.child ≠ .admins := by
      revert ref
      decide
    unfold Reference.Whole
    rw [hrows ref.child hchild.1 hchild.2]
    exact .nil

theorem linked_run {env : Env} {loadedAt : String} {clock : ℕ → String} {s : Store}
    {ops : List (String × Operation)}
    (hok : Along (Operation.step env) (fun s e => e.2.Allowed s)
      (Server.start loadedAt clock .empty) ops)
    (hr : run (Operation.step env) (Server.start loadedAt clock .empty) ops = some s) : Linked s := by
  refine run_invariant (Operation.step env) Linked (fun s e s' hi ho hs => ?_) (linked_start loadedAt clock) hok hr
  cases hs
  exact linked_apply hi ho

/-- Whatever has happened, no row is an orphan, and a deletion takes the row with the key,
its children and nothing else. -/
theorem no_orphan_rows (env : Env) (loadedAt : String) (clock : ℕ → String)
    (ops : List (String × Operation)) (s : Store)
    (hok : Along (Operation.step env) (fun s e => e.2.Allowed s)
      (Server.start loadedAt clock .empty) ops)
    (hr : run (Operation.step env) (Server.start loadedAt clock .empty) ops = some s) :
    NoOrphans s ∧ ∀ now,
      (∀ id, Reference.skuProduct.Cascades (.num id) s
        (Operation.apply env now s (.removeProduct id))) ∧
      (∀ orderNo, Reference.itemOrder.Cascades (.str orderNo) s
        (Operation.apply env now s (.removeOrder orderNo))) ∧
      (∀ id, Reference.itemCode.Cascades (.num id) s
        (Operation.apply env now s (.removeCode id))) := by
  have h : Linked s := linked_run hok hr
  refine ⟨h.whole, fun now => ⟨fun id => ?_, fun orderNo => ?_, fun id => ?_⟩⟩
  · exact cascades_removeProduct env now h id
  · exact cascades_removeOrder env now h orderNo
  · exact cascades_removeCode env now h id

theorem along_apply {env : Env} {s : Store} {now : String} {op : Operation}
    {ops : List (String × Operation)} (ho : op.Allowed s)
    (hops : Along (Operation.step env) (fun s e => e.2.Allowed s) (op.apply env now s) ops) :
    Along (Operation.step env) (fun s e => e.2.Allowed s) s ((now, op) :: ops) := by
  refine ⟨ho, fun s' hs => ?_⟩
  cases hs
  exact hops

/-- A product with a SKU, an order with an item, and the product goes. -/
theorem no_orphan_rows_cascade :
    let ops : List (String × Operation) := [("t1", .createProduct .empty),
      ("t2", .addSku (.ofList [("product_id", .num (.ofNat 1))])),
      ("t3", .createOrder (.ofList [("order_no", .str "A")]) ⟨2024, 0, 1, 0, 0, 0⟩ 0),
      ("t4", .addOrderItem (.ofList [("order_no", .str "A")])), ("t5", .removeProduct (.ofNat 1))]
    ∃ s, run (Operation.step .plain) (Server.start "t0" (fun _ => "t0") .empty) ops = some s ∧
      NoOrphans s := by
  intro ops
  have hok : Along (Operation.step .plain) (fun s e => e.2.Allowed s)
      (Server.start "t0" (fun _ => "t0") .empty) ops := by
    refine along_apply trivial (along_apply ?_ (along_apply ?_ (along_apply ?_
      (along_apply trivial trivial))))
    · exact List.any_eq_true.mp (by decide)
    · exact fun o ho => absurd ho List.not_mem_nil
    · exact List.any_eq_true.mp (by decide)
  exact ⟨_, rfl, (no_orphan_rows .plain "t0" (fun _ => "t0") ops _ hok rfl).1⟩

end JtfpMall
