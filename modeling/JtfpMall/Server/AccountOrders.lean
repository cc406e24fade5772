import JtfpMall.Server.LoginRuns
import JtfpMall.Server.ChangeLog

/-!
# The orders of an account

An order is made with the token of one login and reached with the token of another, over the same
path and with the same openid, whatever the server has done in between.
-/

namespace JtfpMall

open JtfpMall.Js
open JtfpMall.Jwt
open JtfpMall.Lib

section
variable (hmac : String → String → Digest) (jwtSecret : String)

/-- Some request that shows a token of the login is let in as the user `u`. -/
def ComesAs (l : Login) (id : ℕ) (u : UserId) : Prop :=
  ∃ issued auth cookie checked authed,
    tokenOf auth cookie = .ok (some (l.token hmac jwtSecret id issued)) ∧
    requireUserAuth hmac jwtSecret Base64.decode auth cookie checked = .ok (.inr authed) ∧
    authed.userId = u

variable {hmac jwtSecret} {l : Login} {id : ℕ}

theorem ComesAs.number {u : UserId} (h : ComesAs hmac jwtSecret l id u) (hpos : 0 < id)
    (hid : id ≤ 2 ^ 53) : u.val = id := by
  obtain ⟨issued, auth, cookie, checked, authed, hshown, hlet, rfl⟩ := h
  obtain ⟨hvalid, hlate⟩ :=
    @requireUserAuth_token hmac jwtSecret auth cookie l id issued checked hshown hpos hid
  by_cases hin : checked.seconds ≤ issued.seconds + l.path.lifetime
  · obtain ⟨user, hresult, hnumber, _⟩ := hvalid hin
    rw [hlet, Except.ok.injEq, Sum.inr.injEq] at hresult
    rw [hresult]
    exact hnumber
  · rw [hlet] at hlate
    cases hlate hin

/-- The token is shown in the second it is issued. -/
theorem comesAs_issued (hmac : String → String → Digest) (jwtSecret : String) (l : Login)
    (hpos : 0 < id) (hid : id ≤ 2 ^ 53) (issued : Time) :
    ∃ u, ComesAs hmac jwtSecret l id u := by
  have hshown : tokenOf (some ("Bearer " ++ l.token hmac jwtSecret id issued)) none =
      .ok (some (l.token hmac jwtSecret id issued)) := tokenOf_header rfl (token_ne_empty l id issued)
  obtain ⟨hvalid, _⟩ :=
    @requireUserAuth_token hmac jwtSecret _ none l id issued issued hshown hpos hid
  obtain ⟨user, hlet, _⟩ := hvalid (Nat.le_add_right _ _)
  exact ⟨user.userId, issued, _, none, issued, user, hshown, hlet, rfl⟩

end

namespace Server

section
variable {env : Env} {loadedAt : String} {clock : ℕ → String}

/-- The event binds accounts through logins only, and gives no new order the number of a live one. -/
def Regular (env : Env) (s : Store) (e : Event) : Prop := FreshNumber env s e ∧ e.LeavesAccounts

/-- An order that was made with a token of one login is reached with every token of a later login
over the same path with the same openid. -/
theorem account_keeps_orders {es ms fs : List Event} {s m t : Store} {a b : Login}
    {u : UserId} {body : JsVal} {n : String} {status total : JsVal} {at_ placed : Moment}
    (hok : Along (step env) (Regular env) (start loadedAt clock .empty)
      (es ++ .request a.request at_ ::
        (ms ++ .request (.user (some u) (.createOrder body)) placed :: fs)))
    (hs : run (step env) (start loadedAt clock .empty) es = some s)
    (hm : run (step env) (serve env a.request at_ s) ms = some m)
    (hplaced : answer env (.user (some u) (.createOrder body)) placed m =
      .ok (.ok [("order_no", .val (.str n)), ("status", .val status), ("total_amount", .val total)]))
    (ht : run (step env) (serve env (.user (some u) (.createOrder body)) placed m) fs = some t)
    (hd : ∀ e ∈ fs, ¬e.Deletes n) (hp : a.path = b.path) (ho : a.openid = b.openid)
    (at' : Moment) :
    ∃ id, LoggedInAs env at_ s a id ∧ LoggedInAs env at' t b id ∧
      ∀ hmac jwtSecret, id ≤ 2 ^ 53 → ComesAs hmac jwtSecret a id u →
        (∃ v, ComesAs hmac jwtSecret b id v) ∧
        ∃ order c, env.createOrderReq body = .ok c ∧ IsOrder u c n order ∧
          ∀ v, ComesAs hmac jwtSecret b id v →
            Reaches env (serve env b.request at' t) v n order := by
  obtain ⟨hok1, hok2, hok3⟩ := along_append (step env) hs hok
  obtain ⟨hok4, hok5, hok6⟩ := along_append (step env) hm (hok3 _ rfl)
  have horders : ∀ {s s' : Store} {es : List Event}, OrderTable env s →
      Along (step env) (Regular env) s es → run (step env) s es = some s' → OrderTable env s' :=
    fun h hok hr => orderTable_run h (hok.mono _ fun _ _ h => h.1) hr
  have hs1 := horders (orderTable_start loadedAt clock) hok1 hs
  have hm1 := horders (orderTable_step hs1 hok2.1 rfl) hok4 hm
  have hplaced1 : OrderTable env (serve env (.user (some u) (.createOrder body)) placed m) :=
    orderTable_step hm1 hok5.1 rfl
  -- the accounts, over the whole run
  have hleave : ∀ {s s' : Store} {es : List Event}, Along (step env) (Regular env) s es →
      run (step env) s es = some s' → ∀ e ∈ es, e.LeavesAccounts :=
    fun hok hr => hok.events _ (fun _ _ h => h.2) hr
  have hacc := (accounted_run (hleave hok1 hs) hs).2
  have hbetween : run (step env) (serve env a.request at_ s)
      (ms ++ .request (.user (some u) (.createOrder body)) placed :: fs) = some t := by
    rw [run_append, hm, Option.bind_some, run_cons]
    exact ht
  obtain ⟨id, hpos, hlogged, hagain⟩ :=
    login_again hs1.saved hacc (hleave (hok3 _ rfl) hbetween) hbetween hp ho at'
  -- the order, from its creation on
  obtain ⟨c, hc, hmade⟩ := created hplaced
  have hkept := run_invariant (step env)
    (fun s => OrderTable env s ∧ ∃ r ∈ s.cache.rows .orders, IsOrder u c n r)
    (fun s e s' hi ho hs => ⟨orderTable_step hi.1 ho.1.1 hs,
      isOrder_step hi.1.saved hi.1.issued hi.2 ho.1.1 ho.2 hs⟩)
    ⟨hplaced1, hmade⟩ ((hok6 _ rfl).and (step env) hd) ht
  obtain ⟨hend, hmade⟩ := hkept
  have hlogin : FreshNumber env t (.request b.request at') := by
    cases hpath : b.path <;> simp [Login.request, hpath, FreshNumber]
  have hserve : step env t (.request b.request at') = some (serve env b.request at' t) := rfl
  have hafter := orderTable_step hend hlogin hserve
  have hundeleted : ¬(Event.request b.request at').Deletes n := by
    cases hpath : b.path <;> simp [Login.request, hpath, Event.Deletes]
  obtain ⟨order, hmem, horder⟩ := isOrder_step hend.saved hend.issued hmade hlogin hundeleted hserve
  refine ⟨id, hlogged, hagain, fun hmac jwtSecret hid hcomes =>
    ⟨comesAs_issued hmac jwtSecret b hpos hid ⟨0, Nat.zero_le _⟩, order, c, hc, horder, fun v hv => ?_⟩⟩
  have hsame : v = u := Subtype.ext ((hv.number hpos hid).trans (hcomes.number hpos hid).symm)
  rw [hsame]
  exact reaches hafter.issued hafter.numbered hmem horder.number horder.owner

end

/-- A user orders, a stranger logs in and orders too, the server restarts, and the user is back. -/
theorem account_keeps_orders_restarted :
    let a : Login := ⟨.mini, "m1", none, "k1"⟩
    let b : Login := ⟨.mini, "m1", none, "k2"⟩
    let s := start "t0" (fun _ => "t1") .empty
    let u : UserId := ⟨1, userId_one⟩
    let order : Request := .user (some u) (.createOrder (.obj []))
    ∃ t, run (step .plain) (serve .plain order (moment "t2") (serve .plain a.request (moment "t1") s))
        [.request (Login.request ⟨.h5, "h1", none, ""⟩) (moment "t3"),
        .request (.user (some ⟨2, by decide⟩) (.createOrder (.obj [])))
          ⟨fun _ => "t4", ⟨2025, 0, 1, 0, 0, 1⟩, 7⟩,
        .restart "t5" fun _ => "t6"] = some t ∧
      LoggedInAs .plain (moment "t7") t b 1 ∧ ∃ v order,
        ComesAs constantHmac "secret" b 1 v ∧
        Reaches .plain (serve .plain b.request (moment "t7") t) v "202501010000000000" order := by
  intro a b s u order
  let fs : List Event := [.request (Login.request ⟨.h5, "h1", none, ""⟩) (moment "t3"),
    .request (.user (some ⟨2, by decide⟩) (.createOrder (.obj [])))
      ⟨fun _ => "t4", ⟨2025, 0, 1, 0, 0, 1⟩, 7⟩,
    .restart "t5" fun _ => "t6"]
  obtain ⟨t, ht⟩ : ∃ t, run (step .plain) (serve .plain order (moment "t2")
      (serve .plain a.request (moment "t1") s)) fs = some t := ⟨_, rfl⟩
  have hn : Orders.generateOrderNo (moment "t2").time (moment "t2").draw = "202501010000000000" := by
    decide
  have hok : Along (step .plain) (Regular .plain) s (.request a.request (moment "t1") ::
      ([] ++ .request order (moment "t2") :: fs)) := by
    have hfresh : (serve .plain a.request (moment "t1") s).findOne .orders
        (Orders.hasNo "202501010000000000") = none := rfl
    have hlater : (serve .plain (Login.request ⟨.h5, "h1", none, ""⟩) (moment "t3")
        (serve .plain order (moment "t2") (serve .plain a.request (moment "t1") s))).findOne .orders
          (Orders.hasNo "202501010000010007") = none := by
      decide +kernel
    refine along_request ⟨trivial, trivial⟩ (along_request ⟨fun b _ => hfresh, trivial⟩ ?_)
    refine along_request ⟨trivial, trivial⟩ (along_request ⟨fun b _ => hlater, trivial⟩ ?_)
    exact ⟨⟨trivial, trivial⟩, fun _ _ => trivial⟩
  have hplaced : answer .plain order (moment "t2") (serve .plain a.request (moment "t1") s) =
      .ok (.ok [("order_no", .val (.str "202501010000000000")),
        ("status", .val (.str "PENDING_PAYMENT")), ("total_amount", .val (.num (.fin 0)))]) :=
    hn ▸ answer_create rfl
  have hs : run (step .plain) s [] = some s := rfl
  have hm : run (step .plain) (serve .plain a.request (moment "t1") s) [] =
      some (serve .plain a.request (moment "t1") s) := rfl
  have hundeleted : ∀ e ∈ fs, ¬e.Deletes "202501010000000000" := by
    simp [fs, Event.Deletes, Login.request]
  have hpath : a.path = b.path := rfl
  obtain ⟨id, hfirst, hagain, hkeeps⟩ :=
    account_keeps_orders hok hs hm hplaced ht hundeleted hpath rfl (moment "t7")
  obtain ⟨user, huser, hid⟩ := hfirst.1
  obtain ⟨first, hrun, hone⟩ : ∃ user, ((a.user (moment "t1")).run s).1 = .ok user ∧
      user.get "id" = .num (.ofNat 1) := ⟨_, rfl, rfl⟩
  rw [huser, Except.ok.injEq] at hrun
  rw [hrun, hone, JsVal.num.injEq, JsNum.ofNat_inj] at hid
  subst hid
  obtain ⟨v, hv⟩ := comesAs_issued constantHmac "secret" a one_pos (by decide) ⟨0, Nat.zero_le _⟩
  have hu : v = u := Subtype.ext ((hv.number one_pos (by decide)).trans Nat.cast_one)
  obtain ⟨⟨w, hw⟩, row, _, _, _, hreach⟩ := hkeeps constantHmac "secret" (by decide) (hu ▸ hv)
  exact ⟨t, ht, hagain, w, row, hw, hreach w hw⟩

end Server

end JtfpMall
