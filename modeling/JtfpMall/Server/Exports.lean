import JtfpMall.Server.PageWindows

/-!
# Exports

Both exports ask a paged list for a page of 10000 rows. The list caps the page at 100, so a
sheet never has more lines than that.
-/

namespace JtfpMall

open JtfpMall.Js
open JtfpMall.Lib

/-- The export requests. -/
inductive Export where
  | orders (body : Row)
  | properties

/-- The lines of the sheet, when the response is one. -/
def Response.sheet (res : Response) : Option (List Row) :=
  match res.body.lookup "rows" with
  | some (.rows rs) => some rs
  | _ => none

/-- A line of the order sheet holds the values of its order. -/
structure OrderLine (order line : Row) : Prop where
  orderNo : line.get "order_no" = order.get "order_no"
  status : line.get "status" = order.get "status"
  amount : ∃ n, (order.get "total_amount").toNumber = .ok n ∧
    line.get "total_amount" = .num (n.div (.fin 100))
  receiver : ∀ p ∈ [("receiver_name", "name"), ("receiver_phone", "phone"),
    ("receiver_address", "detail")], ∃ v, (Orders.addressData order).prop p.2 = .ok v ∧
      line.get p.1 = (v.or .null).or (.str "")
  createdAt : line.get "created_at" = order.get "created_at"

/-- A line of the property sheet holds the values of its property. -/
structure PropertyLine (property line : Row) : Prop where
  columns : ∀ c ∈ ["id", "community_name", "detail_address", "house_type", "building_area",
    "starting_price", "created_at"], line.get c = property.get c
  status : line.get "status" =
    .str (if (property.get "status").strictEq (.num (.fin 1)) then "上架" else "下架")

namespace Export

def serve (env : Env) : Export → Act Response
  | .orders body => AdminOrderRoutes.exportOrders env body
  | .properties => PropertyRoutes.exportAll env

def table : Export → Table
  | .orders _ => .orders
  | .properties => .properties

/-- Status, start and end, as far as the request gives them. -/
def filters : Export → List (Row → Except JsError Bool)
  | .orders body =>
    onlyIf (body.get "status").truthy (columnIs "status" (body.get "status")) ++
    onlyIf (body.get "startAt").truthy (createdFrom (body.get "startAt")) ++
    onlyIf (body.get "endAt").truthy (createdTo (body.get "endAt"))
  | .properties => []

/-- The rows that match the request, in the order of the list. -/
def matching (env : Env) (s : Store) (e : Export) : Except JsError (List Row) :=
  filterAll e.filters (s.getTable e.table) >>= arraySort (listOrder env e.table)

/-- What the code writes for one row. -/
def line (s : Store) (row : Row) : Export → Except JsError Row
  | .orders _ => Orders.withUser (s.getTable .users) row >>= AdminOrderRoutes.exportRow
  | .properties => .ok (PropertyRoutes.exportRow row)

/-- The line holds the values of the row. -/
def Shows (row line : Row) : Export → Prop
  | .orders _ => OrderLine row line
  | .properties => PropertyLine row line

/-- The sheet a request is answered with. -/
def sheet (env : Env) (s : Store) (e : Export) : Option (List Row) :=
  match ((e.serve env).run s).1 with
  | .ok res => res.sheet
  | .error _ => none

/-- Unless more than 10000 rows match, the sheet has one line for each of them. -/
def Complete (env : Env) (s : Store) (e : Export) : Prop :=
  ∃ rows, e.matching env s = .ok rows ∧ (rows.length ≤ 10000 →
    ∃ lines, e.sheet env s = some lines ∧ List.Forall₂ (fun row line => e.Shows row line) rows lines)

/-- The rows can be listed, and unless more than 10000 match, at most 100 do, each of which can be
written. -/
def Fits (env : Env) (s : Store) (e : Export) : Prop :=
  ∃ rows, e.matching env s = .ok rows ∧ (rows.length ≤ 10000 →
    rows.length ≤ 100 ∧ ∀ row ∈ rows, ∃ line, e.line s row = .ok line)

end Export

/-- What a list adds to an order. -/
theorem of_withUser_ok {users : List Row} {order shown : Row}
    (h : Orders.withUser users order = .ok shown) : ∃ phone name addressPhone detail,
      (Orders.addressData order).prop "name" = .ok name ∧
      (Orders.addressData order).prop "phone" = .ok addressPhone ∧
      (Orders.addressData order).prop "detail" = .ok detail ∧
      shown = ((((order.set "user_nickname"
        ((Orders.userColumn (Orders.userOf users order) "nickname").or .null)).set
        "user_phone" phone).set "address_name" (name.or .null)).set
        "address_phone" (addressPhone.or .null)).set "address_detail" (detail.or .null) := by
  unfold Orders.withUser at h
  dsimp only at h
  have hrest : ∃ phone : JsVal, (do
      let name ← (Orders.addressData order).prop "name"
      let addressPhone ← (Orders.addressData order).prop "phone"
      let detail ← (Orders.addressData order).prop "detail"
      return ((((order.set "user_nickname"
        ((Orders.userColumn (Orders.userOf users order) "nickname").or .null)).set
        "user_phone" (phone.or .null)).set "address_name" (name.or .null)).set
        "address_phone" (addressPhone.or .null)).set "address_detail" (detail.or .null) :
        Except JsError Row) = .ok shown := by
    split at h
    · exact ⟨_, h⟩
    · obtain ⟨phone, _, h⟩ := bind_ok h
      exact ⟨phone, h⟩
  obtain ⟨phone, h⟩ := hrest
  obtain ⟨name, hname, h⟩ := bind_ok h
  obtain ⟨addressPhone, hphone, h⟩ := bind_ok h
  obtain ⟨detail, hdetail, h⟩ := bind_ok h
  cases h
  exact ⟨_, name, addressPhone, detail, hname, hphone, hdetail, rfl⟩

theorem orderLine_of_ok {users : List Row} {order line : Row}
    (h : (Orders.withUser users order >>= AdminOrderRoutes.exportRow) = .ok line) :
    OrderLine order line := by
  obtain ⟨shown, hshown, hline⟩ := bind_ok h
  obtain ⟨phone, name, addressPhone, detail, hname, hphone, hdetail, rfl⟩ := of_withUser_ok hshown
  unfold AdminOrderRoutes.exportRow at hline
  obtain ⟨amount, hamount, hline⟩ := bind_ok hline
  cases hline
  simp only [Dict.get_set, String.reduceEq, if_false] at hamount
  constructor
  · simp [Dict.ofList, Dict.get_set]
  · simp [Dict.ofList, Dict.get_set]
  · simp [Dict.ofList, Dict.get_set]
    exact ⟨amount, hamount, rfl⟩
  · simp [Dict.ofList, Dict.get_set]
    exact ⟨⟨name, hname, rfl⟩, ⟨addressPhone, hphone, rfl⟩, ⟨detail, hdetail, rfl⟩⟩
  · simp [Dict.ofList, Dict.get_set]

theorem propertyLine (property : Row) : PropertyLine property (PropertyRoutes.exportRow property) := by
  unfold PropertyRoutes.exportRow Properties.columns
  constructor
  · simp [Dict.ofList, Dict.get_set]
  · simp [Dict.ofList, Dict.get_set]

namespace Export

variable {env : Env} {s : Store} {e : Export}

theorem shows_of_ok {row line : Row} (h : e.line s row = .ok line) : e.Shows row line := by
  cases e with
  | orders body => exact orderLine_of_ok h
  | properties =>
    cases h
    exact propertyLine row

theorem toOption_congr {α : Type} {x y : Except JsError α} (h : ∀ a, x = .ok a ↔ y = .ok a) :
    x.toOption = y.toOption := by
  cases x with
  | ok a => rw [(h a).mp rfl]
  | error e =>
    cases y with
    | ok a => exact absurd ((h a).mpr rfl) (by simp)
    | error e' => rfl

theorem lines_ok_iff {rows lines : List Row} : (rows.mapM fun row => e.line s row) = .ok lines ↔
    List.Forall₂ (fun row line => e.line s row = .ok line) rows lines := mapM_ok_iff

/-- An export writes what it lists into a sheet, unless something is thrown. -/
theorem sheet_adminGuarded (m : Act (ℕ × List Row)) (f : List Row → Except JsError (List Row)) :
    (match ((adminGuarded (m >>= fun p => Action.lift (f p.2) >>= fun rows =>
        pure (.ok [("rows", .rows rows)]))).run s).1 with
      | .ok res => res.sheet
      | .error _ => none) = ((m.run s).1 >>= fun p => f p.2).toOption := by
  unfold adminGuarded
  rw [Action.run_attempt, Action.run_bind]
  match hm : m.run s with
  | (.error e, s') => rfl
  | (.ok p, s') =>
    obtain ⟨x, hx⟩ : ∃ x, f p.2 = x := ⟨_, rfl⟩
    dsimp only
    rw [hx]
    change _ = (f p.2).toOption
    rw [hx]
    cases x <;> rfl

/-- The list behind the sheet: the first 100 of the rows that match. -/
theorem run_list (env : Env) (s : Store) (body : Row) :
    ((Orders.list env
      { page := none, pageSize := some (.fin 10000), status := body.get "status",
        orderNo := .undefined, phone := .undefined, startAt := body.get "startAt",
        endAt := body.get "endAt", userId := none }).run s).1 =
      ((Export.orders body).matching env s >>= fun rows =>
        ((rows.take 100).mapM (Orders.withUser (s.getTable .users))).map fun orders =>
          (rows.length, orders)) := by
  have hfilters : Orders.ListQuery.filters
      { page := none, pageSize := some (.fin 10000), status := body.get "status",
        orderNo := .undefined, phone := .undefined, startAt := body.get "startAt",
        endAt := body.get "endAt", userId := none } = (Export.orders body).filters := by
    simp [Orders.ListQuery.filters, filters, onlyIf, JsVal.truthy]
  have hfirst := fst_run_listed env .orders (Export.orders body).filters s
  have husers := getTable_run_listed env (u := .users) (Export.orders body).filters s
    (t := .orders) (by decide)
  unfold Orders.list
  rw [hfilters, Action.run_bind]
  unfold matching
  rw [show (Export.orders body).table = .orders from rfl, ← hfirst]
  rcases hrun : (listed env .orders (Export.orders body).filters).run s with ⟨e | rows, s'⟩
  · rfl
  · rw [hrun] at husers
    change ((Action.lift ((paginate none (some (.fin 10000)) rows).mapM
      (Orders.withUser (s'.getTable .users))) >>= fun orders =>
        pure (rows.length, orders)).run s').1 = _
    rw [husers, paginate_capped]
    change _ = Except.map _ ((rows.take 100).mapM (Orders.withUser (s.getTable .users)))
    cases (rows.take 100).mapM (Orders.withUser (s.getTable .users)) <;> rfl

/-- The sheet has the first 100 of the rows. -/
theorem sheet_eq (env : Env) (s : Store) (e : Export) : e.sheet env s =
    (e.matching env s >>= fun rows => (rows.take 100).mapM fun row => e.line s row).toOption := by
  cases e with
  | orders body =>
    refine (sheet_adminGuarded _ fun orders => orders.mapM AdminOrderRoutes.exportRow).trans ?_
    rw [run_list]
    cases hrows : (Export.orders body).matching env s with
    | error e => rfl
    | ok rows =>
      refine toOption_congr fun lines => ?_
      change _ ↔ ((rows.take 100).mapM fun row => (Export.orders body).line s row) = .ok lines
      rw [lines_ok_iff]
      refine Iff.trans ?_ mapM_mapM_ok_iff
      cases hx : (rows.take 100).mapM (Orders.withUser (s.getTable .users)) with
      | error e =>
        change ((Except.map _ ((rows.take 100).mapM _)) >>= _) = _ ↔ _
        rw [hx]
        rfl
      | ok orders =>
        change ((Except.map _ ((rows.take 100).mapM _)) >>= _) = _ ↔ _
        rw [hx]
        rfl
  | properties =>
    refine (sheet_adminGuarded _ fun rows => .ok (rows.map PropertyRoutes.exportRow)).trans ?_
    have hfirst := fst_run_listed env .properties [] s
    change ((((listed env .properties []) >>= fun rows =>
      pure (rows.length, paginate none (some (.fin 10000)) rows)).run s).1 >>= _).toOption =
        ((filterAll [] (s.getTable .properties) >>= arraySort (listOrder env .properties)) >>=
          _).toOption
    rw [← hfirst, Action.run_bind]
    match hrun : (listed env .properties []).run s with
    | (.error e, s') => rfl
    | (.ok rows, s') =>
      change some ((paginate none (some (.fin 10000)) rows).map PropertyRoutes.exportRow) =
        ((rows.take 100).mapM fun row => Except.ok (PropertyRoutes.exportRow row)).toOption
      rw [paginate_capped]
      exact congrArg Except.toOption (List.mapM_pure (m := Except JsError)).symm

/-- The page behind a sheet. -/
theorem page_of_sheet {rows lines : List Row} (hrows : e.matching env s = .ok rows)
    (hlines : e.sheet env s = some lines) :
    List.Forall₂ (fun row line => e.line s row = .ok line) (rows.take 100) lines := by
  rw [sheet_eq, hrows] at hlines
  change ((rows.take 100).mapM fun row => e.line s row).toOption = some lines at hlines
  refine lines_ok_iff.mp ?_
  cases hx : (rows.take 100).mapM fun row => e.line s row with
  | ok lines' =>
    rw [hx] at hlines
    exact congrArg Except.ok (Option.some.inj hlines)
  | error err =>
    rw [hx] at hlines
    cases hlines

/-- A complete sheet has no more than 100 lines. -/
theorem length_le_of_complete {rows lines : List Row} (hrows : e.matching env s = .ok rows)
    (hlines : e.sheet env s = some lines)
    (hall : List.Forall₂ (fun row line => e.Shows row line) rows lines) : rows.length ≤ 100 := by
  have hlen := (page_of_sheet hrows hlines).length_eq
  rw [← hall.length_eq, List.length_take] at hlen
  omega

/-- An export is complete exactly when its rows can be written on one page. -/
theorem complete_iff (env : Env) (s : Store) (e : Export) : e.Complete env s ↔ e.Fits env s := by
  unfold Complete Fits
  refine exists_congr fun rows => and_congr_right fun hrows => ?_
  refine imp_congr_right fun _ => ?_
  constructor
  · rintro ⟨lines, hlines, hall⟩
    have hfew := length_le_of_complete hrows hlines hall
    have hpage := page_of_sheet hrows hlines
    rw [List.take_of_length_le hfew] at hpage
    refine ⟨hfew, fun row hrow => ?_⟩
    obtain ⟨line, _, hline⟩ := exists_of_forall₂ hpage hrow
    exact ⟨line, hline⟩
  · rintro ⟨hfew, hwritten⟩
    obtain ⟨lines, hlines⟩ := exists_mapM hwritten
    refine ⟨lines, ?_, (mapM_ok_iff.mp hlines).imp fun row line h => shows_of_ok h⟩
    rw [sheet_eq, hrows]
    change ((rows.take 100).mapM fun row => e.line s row).toOption = some lines
    rw [List.take_of_length_le hfew, hlines]
    rfl

theorem matching_properties (env : Env) (s : Store) : Export.properties.matching env s =
    arraySort (listOrder env .properties) (s.getTable .properties) := rfl

/-- The sheet of 101 properties lacks one. -/
theorem properties_incomplete : ¬ Export.properties.Complete .plain
    (shopWith .properties ((List.range 101).map fun i => enabledProduct (i + 1))) := by
  rintro ⟨rows, hrows, hsheet⟩
  have hlen : rows.length = 101 := by
    rw [matching_properties] at hrows
    rw [(arraySort_perm hrows).length_eq, getTable_shopWith, if_pos rfl, List.length_map,
      List.length_range]
  obtain ⟨lines, hlines, hall⟩ := hsheet (by omega)
  have hfew := length_le_of_complete hrows hlines hall
  omega

end Export

end JtfpMall
