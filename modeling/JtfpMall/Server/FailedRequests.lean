import JtfpMall.Server.Failures
import JtfpMall.Server.Identity

/-!
# Requests that fail

A handler checks first and writes last, so a request that is refused has written nothing.
Two handlers flush behind their writes, and one decodes a cookie behind them: what
throws there is answered with an error, and the rows stay.
-/

namespace JtfpMall

open JtfpMall.Js
open JtfpMall.Lib

/-- Every table and every id counter is as it was. -/
structure SameTables (s s' : Store) : Prop where
  rows : ∀ t, s'.cache.rows t = s.cache.rows t
  next : ∀ t, s'.cache.next t = s.cache.next t

/-- The request is answered with an error. -/
def Failed : Except JsError Response → Prop
  | .ok res => 400 ≤ res.status
  | .error _ => True

/-- A failed request leaves the tables unchanged. -/
def FailsCleanly (o : Outside) (env : Env) (r : Request) (at_ : Moment) (s : Store) : Prop :=
  Failed (Server.answerOr o env r at_ s) → SameTables s (Server.serveOr o env r at_ s)

/-- The request throws behind its writes: the import or the first login of an identity when the
flush throws, the login callback when its cookie does not decode and it has written the user. -/
def Request.LeavesRows (o : Outside) (s : Store) : Request → Prop
  | .admin true (.importProperties (.sheet headers rows)) =>
    o.fault.isSome = true ∧ PropertyRoutes.importRows headers rows ≠ []
  | .anyone (.miniLogin (.session openid _ _)) => o.fault.isSome = true ∧
      s.findOne .userIdentities (Users.hasIdentity "wechat_mini" openid) = none
  | .anyone (.oauthCallback (.identified openid unionid)) =>
    (∃ e, AuthRoutes.getCookie o.cookies "oauth_redirect" = .error e) ∧
      ∀ user, s.findOne .users (Users.hasOpenid openid) = some user →
        (Users.loginUpdates ⟨openid, unionid, none, none, none⟩ user).entries ≠ []
  | _ => False

namespace Server

/-- A step of a server whose calls may throw. -/
inductive FaultyEvent where
  | request (o : Outside) (r : Request) (at_ : Moment)
  | timer (now : String)
  | flush (now : String)
  | restart (loadedAt : String) (clock : ℕ → String)

def stepOr (env : Env) (s : Store) : FaultyEvent → Option Store
  | .request o r at_ => some (serveOr o env r at_ s)
  | .timer now => step env s (.timer now)
  | .flush now => step env s (.flush now)
  | .restart loadedAt clock => step env s (.restart loadedAt clock)

end Server

namespace SameTables

variable {s s' s'' : Store}

theorem refl (s : Store) : SameTables s s := ⟨fun _ => rfl, fun _ => rfl⟩

theorem trans (h : SameTables s s') (h' : SameTables s' s'') : SameTables s s'' :=
  ⟨fun t => (h'.rows t).trans (h.rows t), fun t => (h'.next t).trans (h.next t)⟩

theorem flushNow (s : Store) (now : String) : SameTables s (s.flushNow now) :=
  ⟨fun t => Store.rows_flushNow now s t, fun t => Store.next_flushNow now s t⟩

end SameTables

/-- From `s` the program changes no table, or answers with success. -/
def Clean (s : Store) (m : Act Response) : Prop :=
  SameTables s (m.run s).2 ∨ ∃ res s', m.run s = (.ok res, s') ∧ res.status < 400

section
variable {s : Store}

theorem clean_pure (res : Response) : Clean s (pure res) := Or.inl (.refl s)

theorem clean_attempt {m : Act Response} {h : JsError → Response} (hm : Clean s m) :
    Clean s (m.attempt h) := by
  rcases hm with hm | ⟨res, s', hr, hs⟩
  · refine Or.inl ?_
    rw [Action.snd_run_attempt]
    exact hm
  · refine Or.inr ⟨res, s', ?_, hs⟩
    rw [Action.run_attempt, hr]

theorem clean_reads_bind {α : Type} {g : Store → α} {f : α → Act Response} (h : Clean s (f (g s))) :
    Clean s (Action.reads g >>= f) := h

theorem clean_lift_bind {α : Type} {x : Except JsError α} {f : α → Act Response}
    (h : ∀ a, x = .ok a → Clean s (f a)) : Clean s ((Action.lift x : Act α) >>= f) := by
  cases x with
  | ok a => exact h a rfl
  | error e => exact Or.inl (.refl s)

/-- What comes last returns and succeeds. -/
theorem clean_of_returns {m : Act Response}
    (h : Action.Returns (fun res _ => res.status < 400) s m) : Clean s m := by
  obtain ⟨res, s', hr, hs⟩ := h
  exact Or.inr ⟨res, s', hr, hs⟩

/-- The program returns. -/
def Total {α : Type} (m : Act α) : Prop := ∀ s, Action.Returns (fun _ _ => True) s m

theorem total_does {α : Type} (f : Store → α × Store) : Total (Action.does f) :=
  fun _ => ⟨_, _, rfl, trivial⟩

theorem total_pure {α : Type} (a : α) : Total (pure a : Act α) := fun _ => ⟨_, _, rfl, trivial⟩

theorem total_bind {α β : Type} {m : Act α} {f : α → Act β} (hm : Total m)
    (hf : ∀ a, Total (f a)) : Total (m >>= f) :=
  fun s => Action.returns_bind (hm s) fun a s' _ => hf a s'

theorem total_reads_bind {α β : Type} {g : Store → α} {f : α → Act β} (hf : ∀ a, Total (f a)) :
    Total (Action.reads g >>= f) := fun s => hf (g s) s

/-- Programs that return, and then success. -/
theorem clean_total_bind {α : Type} {m : Act α} {f : α → Act Response} (hm : Total m)
    (hf : ∀ a s', Action.Returns (fun res _ => res.status < 400) s' (f a)) : Clean s (m >>= f) :=
  clean_of_returns (Action.returns_bind (hm s) fun a s' _ => hf a s')

theorem returns_total_bind {α : Type} {m : Act α} {f : α → Act Response} (hm : Total m)
    (hf : ∀ a s', Action.Returns (fun res _ => res.status < 400) s' (f a)) :
    Action.Returns (fun res _ => res.status < 400) s (m >>= f) :=
  Action.returns_bind (hm s) fun a s' _ => hf a s'

theorem returns_success {res : Response} (h : res.status < 400) :
    Action.Returns (fun res _ => res.status < 400) s (pure res : Act Response) :=
  Action.returns_pure h

theorem status_ok (body : List (String × Reply)) : (Response.ok body).status < 400 :=
  (by decide : 200 < 400)

theorem total_updateStatus (orderNo : String) (status : JsVal) (now : String) :
    Total (Orders.updateStatus orderNo status now) := by
  refine total_reads_bind fun found => ?_
  cases found with
  | none => exact total_pure _
  | some order => exact total_does _

theorem total_updateOrder (orderNo : String) (data : Row) (now : String) :
    Total (Orders.update orderNo data now) := by
  refine total_reads_bind fun found => ?_
  cases found with
  | none => exact total_pure _
  | some order => exact total_does _

theorem total_removeOrder (orderNo : String) : Total (Orders.remove orderNo) := by
  refine total_reads_bind fun found => ?_
  cases found with
  | none => exact total_pure _
  | some order => exact total_bind (total_does _) fun _ => total_does _

variable {env : Env} {at_ : Moment}

theorem clean_createOrder (userId : UserId) (body : JsVal) :
    Clean s (OrderRoutes.create env userId body at_) := by
  refine clean_attempt ?_
  cases env.createOrderReq body with
  | error issue => exact clean_pure _
  | ok body => exact clean_total_bind (total_does _) fun _ _ => returns_success (status_ok _)

theorem clean_cancel (userId : UserId) (orderNo : String) :
    Clean s (OrderRoutes.cancel userId orderNo at_) := by
  refine clean_attempt (clean_reads_bind ?_)
  cases s.findOne .orders (Orders.hasNo orderNo) with
  | none => exact clean_pure _
  | some order =>
    dsimp only
    split
    · exact clean_pure _
    · split
      · exact clean_pure _
      · refine clean_total_bind (total_updateStatus _ _ _) fun _ _ => ?_
        exact returns_total_bind (total_does _) fun _ _ => returns_success (status_ok _)

theorem clean_cancelMine (userId : UserId) (orderNo : String) :
    Clean s (OrderRoutes.cancelMine userId orderNo at_) := by
  refine clean_attempt (clean_reads_bind ?_)
  cases s.findOne .orders (Orders.hasNo orderNo) with
  | none => exact clean_pure _
  | some order =>
    dsimp only
    split
    · exact clean_pure _
    · split
      · exact clean_pure _
      · exact clean_total_bind (total_updateStatus _ _ _) fun _ _ => returns_success (status_ok _)

theorem clean_adminStatus (orderNo : String) (body : Row) :
    Clean s (AdminOrderRoutes.updateStatus orderNo body at_) := by
  refine clean_attempt (clean_reads_bind ?_)
  cases s.findOne .orders (Orders.hasNo orderNo) with
  | none => exact clean_pure _
  | some order =>
    refine clean_total_bind (total_updateStatus _ _ _) fun _ _ => ?_
    exact returns_total_bind (total_does _) fun _ _ => returns_success (status_ok _)

theorem clean_adminRemark (orderNo : String) (body : Row) :
    Clean s (AdminOrderRoutes.updateRemark orderNo body at_) := by
  refine clean_attempt (clean_reads_bind ?_)
  cases s.findOne .orders (Orders.hasNo orderNo) with
  | none => exact clean_pure _
  | some order =>
    refine clean_total_bind (total_updateOrder _ _ _) fun _ _ => ?_
    exact returns_total_bind (total_does _) fun _ _ => returns_success (status_ok _)

theorem clean_deleteOrder (orderNo : String) : Clean s (AdminOrderRoutes.delete orderNo) := by
  refine clean_attempt (clean_reads_bind ?_)
  cases s.findOne .orders (Orders.hasNo orderNo) with
  | none => exact clean_pure _
  | some order =>
    exact clean_total_bind (total_removeOrder _) fun _ _ => returns_success (status_ok _)

/-- A POST that inserts what it gets. -/
theorem clean_insert (t : Table) (row : Row) (now : String) {res : Row → Response}
    (h : ∀ r, (res r).status < 400) : Clean s (do let r ← Act.insert t row now; return res r) :=
  clean_total_bind (total_does _) fun r _ => returns_success (h r)

/-- A PUT or DELETE that looks its row up first. -/
theorem clean_found {t : Table} {id : JsVal} {missing : Response} {f : Row → Act Response}
    (hf : ∀ row, Clean s (f row)) : Clean s (do
      match ← Act.findById t id with
      | none => return missing
      | some row => f row) := by
  refine clean_reads_bind ?_
  cases s.findById t id with
  | none => exact clean_pure _
  | some row => exact hf row

theorem clean_createProperty (body : Row) : Clean s (PropertyRoutes.create body at_) := by
  refine clean_attempt ?_
  split
  · exact clean_pure _
  · refine clean_lift_bind fun data _ => ?_
    exact clean_insert .properties _ _ fun _ => status_ok _

theorem clean_updateProperty (id : String) (body : Row) :
    Clean s (PropertyRoutes.update id body at_) := by
  refine clean_attempt (clean_found fun row => clean_lift_bind fun data _ => ?_)
  exact clean_total_bind (total_does _) fun _ _ => returns_success (status_ok _)

theorem clean_deleteProperty (id : String) : Clean s (PropertyRoutes.delete id) :=
  clean_attempt (clean_found fun _ =>
    clean_total_bind (total_does _) fun _ _ => returns_success (status_ok _))

theorem clean_createProduct (body : Row) : Clean s (CatalogueRoutes.createProduct body at_) :=
  clean_attempt (clean_insert .products _ _ fun _ => status_ok _)

theorem clean_updateProduct (id : String) (body : Row) :
    Clean s (CatalogueRoutes.updateProduct id body at_) :=
  clean_attempt (clean_found fun _ =>
    clean_total_bind (total_does _) fun _ _ => returns_success (status_ok _))

theorem clean_deleteProduct (id : String) : Clean s (CatalogueRoutes.deleteProduct id) :=
  clean_attempt (clean_total_bind (total_bind (total_does _) fun _ => total_does _) fun _ _ =>
    returns_success (status_ok _))

theorem clean_createCategory (body : Row) : Clean s (CatalogueRoutes.createCategory body at_) := by
  refine clean_attempt ?_
  split
  · exact clean_pure _
  · exact clean_insert .categories _ _ fun _ => status_ok _

theorem clean_updateCategory (id : String) (body : Row) :
    Clean s (CatalogueRoutes.updateCategory id body at_) :=
  clean_attempt (clean_found fun _ =>
    clean_total_bind (total_does _) fun _ _ => returns_success (status_ok _))

theorem clean_deleteCategory (id : String) : Clean s (CatalogueRoutes.deleteCategory id) := by
  refine clean_attempt (clean_reads_bind ?_)
  split
  · exact clean_pure _
  · exact clean_total_bind (total_does _) fun _ _ => returns_success (status_ok _)

theorem clean_createWelfareCode (body : Row) : Clean s (WelfareRoutes.create body at_) :=
  clean_attempt (clean_insert .welfareCodes _ _ fun _ => status_ok _)

theorem clean_updateWelfareCode (id : String) (body : Row) :
    Clean s (WelfareRoutes.update id body at_) :=
  clean_attempt (clean_found fun _ =>
    clean_total_bind (total_does _) fun _ _ => returns_success (status_ok _))

theorem clean_deleteWelfareCode (id : String) : Clean s (WelfareRoutes.delete id) :=
  clean_attempt (clean_total_bind (total_bind (total_does _) fun _ => total_does _) fun _ _ =>
    returns_success (status_ok _))

theorem clean_reading_bind {α : Type} {m : Act α} {f : α → Act Response} (hm : (m.run s).2 = s)
    (hf : ∀ a, Clean s (f a)) : Clean s (m >>= f) := by
  unfold Clean
  rw [Action.run_bind]
  cases hr : m.run s with
  | mk x s' =>
    rw [hr] at hm
    dsimp only at hm
    subst hm
    cases x with
    | ok a => exact hf a
    | error e => exact Or.inl (.refl s')

/-- The count goes up last, and whatever comes of it is answered with success. -/
theorem clean_countUse (code : JsVal) (now : String) : Clean s (do
    let success ← WelfareCodes.useCode code now
    return WelfareRoutes.useResult success) := by
  have hread : (WelfareCodes.findByCode code).run s =
      (.ok (s.findOne .welfareCodes (WelfareCodes.hasCode code)), s) := rfl
  unfold Clean WelfareCodes.useCode
  rw [Action.run_bind, Action.run_bind, hread]
  dsimp only
  cases s.findOne .welfareCodes (WelfareCodes.hasCode code) with
  | none => exact Or.inr ⟨_, _, rfl, status_ok _⟩
  | some wc =>
    dsimp only
    rw [Action.run_bind, Action.run_lift]
    cases WelfareCodes.usedUp wc with
    | error e => exact Or.inl (.refl s)
    | ok usedUp =>
      cases usedUp with
      | true => exact Or.inr ⟨_, _, rfl, status_ok _⟩
      | false =>
        dsimp only
        rw [if_neg (by decide), Action.run_bind, Action.run_lift]
        cases (wc.get "used_count").add (.num (.fin 1)) with
        | error e => exact Or.inl (.refl s)
        | ok used => exact Or.inr ⟨_, _, rfl, status_ok _⟩

theorem clean_useCode (body : JsVal) : Clean s (WelfareRoutes.use env body at_) := by
  refine clean_attempt ?_
  cases env.validateReq body with
  | error issue => exact clean_pure _
  | ok code =>
    refine clean_reading_bind (snd_run_validateCode _ _ s) fun result => ?_
    cases result with
    | refused message => exact clean_pure _
    | valid wc => exact clean_countUse _ _

/-- Every writing request but the two that flush and the callback. -/
theorem clean_handle {r : Request} (hw : r.tables ≠ [])
    (himport : ∀ upload, r ≠ .admin true (.importProperties upload))
    (hcallback : ∀ answer, r ≠ .anyone (.oauthCallback answer))
    (hmini : ∀ answer, r ≠ .anyone (.miniLogin answer)) : Clean s (r.handle env at_) := by
  unfold Request.tables at hw
  split at hw
  · exact clean_createOrder _ _
  · exact clean_cancel _ _
  · exact clean_cancelMine _ _
  · exact clean_adminStatus _ _
  · exact clean_adminRemark _ _
  · exact clean_deleteOrder _
  · exact clean_createProduct _
  · exact clean_updateProduct _ _
  · exact clean_deleteProduct _
  · exact clean_createProperty _
  · exact clean_updateProperty _ _
  · exact clean_deleteProperty _
  · exact absurd rfl (himport _)
  · exact clean_createCategory _
  · exact clean_updateCategory _ _
  · exact clean_deleteCategory _
  · exact clean_createWelfareCode _
  · exact clean_updateWelfareCode _ _
  · exact clean_deleteWelfareCode _
  · exact clean_useCode _
  · exact absurd rfl (hcallback _)
  · exact absurd rfl (hmini _)
  · exact absurd rfl hw

end

/-- A clean program that is answered with an error has changed no table. -/
theorem Clean.sameTables {s : Store} {m : Act Response} (h : Clean s m) (hf : Failed (m.run s).1) :
    SameTables s (m.run s).2 := by
  rcases h with h | ⟨res, s', hr, hs⟩
  · exact h
  · rw [hr] at hf
    exact absurd hf (Nat.not_le.mpr hs)

end JtfpMall
