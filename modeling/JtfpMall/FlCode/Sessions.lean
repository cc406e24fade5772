import JtfpMall.FlCode.PhoneBook
import JtfpMall.Lib.Lease

/-!
# Admin sessions of FLcode

A login issues a token, and a session under it that every authorised request extends. An expired
session goes when its token is shown, and a logout needs no session. Whether a token is accepted
is seen to depend on the times of its own requests only.
-/

namespace JtfpMall.FlCode

open JtfpMall.Js
open JtfpMall.Lib

/-- The database, and the `sessions` of the admin router with their `expireAt`. -/
structure Admin where
  db : Db
  sessions : String → Option ℕ

/-- 24 hours, in milliseconds. -/
def day : ℕ := 24 * 60 * 60 * 1000

def digit36 (d : ℕ) : Char := "0123456789abcdefghijklmnopqrstuvwxyz".toList.getD d '0'

/-- The digits of `n` in base 36, in front of those that are already there. -/
def digits36 : ℕ → ℕ → List Char → List Char
  | 0, _, digits => digits
  | fuel + 1, n, digits =>
    if n < 36 then digit36 n :: digits else digits36 fuel (n / 36) (digit36 (n % 36) :: digits)

/-- `n.toString(36)`. -/
def toString36 (n : ℕ) : String := .ofList (digits36 (n + 1) n [])

example : toString36 1700000000020 = "loyw3v2s" := by decide

/-- `Math.random().toString(36).substring(2) + Date.now().toString(36)`; `draw` is the first part. -/
def generateToken (draw : String) (now : ℕ) : String := draw ++ toString36 now

/-- What the guard finds of the token, and the sessions after it. -/
def authMiddleware (token : Option String) (clock : ℕ → ℕ) (sessions : String → Option ℕ) :
    Session × (String → Option ℕ) :=
  match token.filter fun t => decide (t ≠ "") with
  | none => (.missing, sessions)
  | some t =>
    match sessions t with
    | none => (.expired, Function.update sessions t none)
    | some expireAt =>
      if expireAt < clock 0 then (.expired, Function.update sessions t none)
      else (.valid, Function.update sessions t (some (clock 1 + day)))

/-- A route behind the guard. -/
def guarded (token : Option String) (next : Db → Response × Db) (clock : ℕ → ℕ) (s : Admin) :
    Response × Admin :=
  let (session, sessions) := authMiddleware token clock s.sessions
  match session with
  | .missing => (refused 401 "请先登录", { s with sessions := sessions })
  | .expired => (refused 401 "登录已过期，请重新登录", { s with sessions := sessions })
  | .valid => ((next s.db).1, ⟨(next s.db).2, sessions⟩)

/-- The routes of the codes find the session that the guard finds. -/
theorem guarded_codes (schemas : Schemas) (now : String) (token : Option String) (r : AdminRequest)
    (clock : ℕ → ℕ) (s : Admin) :
    (guarded token (r.handle schemas now) clock s).1 =
        (Request.handle schemas now s.db
          (.admin (authMiddleware token clock s.sessions).1 r)).1 ∧
      (guarded token (r.handle schemas now) clock s).2.db =
        (Request.handle schemas now s.db
          (.admin (authMiddleware token clock s.sessions).1 r)).2 := by
  unfold guarded
  rcases authMiddleware token clock s.sessions with ⟨session, sessions⟩
  cases session <;> exact ⟨rfl, rfl⟩

/-- `getConfig('admin_password') || 'admin123'`. -/
def adminPassword (db : Db) : String :=
  ((db.getConfig "admin_password").filter fun s => decide (s ≠ "")).getD "admin123"

/-- The body has this password, and no other. -/
def HasPassword (body : JsVal) (password : String) : Prop :=
  (∃ fields, body = .obj fields) ∧ body.prop "password" = .ok (.str password)

/-- What the schema library does with `LoginSchema`. -/
def ChecksLogin (schema : JsVal → Except String String) : Prop :=
  ∀ body password, schema body = .ok password ↔ HasPassword body password ∧ password ≠ ""

/-- POST /api/admin/login. -/
def login (schema : JsVal → Except String String) (body : JsVal) (draw : String) (clock : ℕ → ℕ)
    (s : Admin) : Response × Admin :=
  match schema body with
  | .error message => (refused 400 message, s)
  | .ok password =>
    if password = adminPassword s.db then
      let token := generateToken draw (clock 0)
      (.ok [("ok", .val (.bool true)), ("token", .text token), ("message", .text "登录成功")],
        { s with sessions := Function.update s.sessions token (some (clock 1 + day)) })
    else (refused 401 "密码错误", s)

/-- POST /api/admin/logout. -/
def logout (token : Option String) (s : Admin) : Response × Admin :=
  (.ok [("ok", .val (.bool true)), ("message", .text "已登出")],
    match token.filter fun t => decide (t ≠ "") with
    | none => s
    | some t => { s with sessions := Function.update s.sessions t none })

/-- GET /api/admin/verify, behind the guard. -/
def verify (db : Db) : Response × Db :=
  (.ok [("ok", .val (.bool true)), ("message", .text "Token 有效")], db)

/-- POST /api/admin/config, behind the guard, with what its schema reads of the body. -/
def updateConfig (parsed : Except String (List (String × String))) (db : Db) : Response × Db :=
  match parsed with
  | .error message => (refused 400 message, db)
  | .ok configs =>
    (.ok [("ok", .val (.bool true)), ("message", .text "配置已更新")], db.setConfigs configs)

inductive SessionRequest where
  | login (body : JsVal) (draw : String)
  | logout (token : Option String)
  /-- A request behind the guard, with the handler it is for. -/
  | guarded (token : Option String) (next : Db → Response × Db)

/-- A request with what `Date.now()` answers while it is served. -/
structure Call where
  request : SessionRequest
  clock : ℕ → ℕ

namespace Call

def time (c : Call) : Span := ⟨c.clock 0, c.clock 1⟩

def handle (schema : JsVal → Except String String) (s : Admin) (c : Call) : Response × Admin :=
  match c.request with
  | .login body draw => FlCode.login schema body draw c.clock s
  | .logout token => FlCode.logout token s
  | .guarded token next => FlCode.guarded token next c.clock s

/-- The request is behind the guard and carries the token. -/
def carries (t : String) (c : Call) : Bool :=
  match c.request with
  | .guarded token _ => decide (token = some t)
  | _ => false

def logsOut (t : String) (c : Call) : Bool :=
  match c.request with
  | .logout token => decide (token = some t)
  | _ => false

/-- The request is behind the guard and reaches its handler. -/
def reaches (s : Admin) (c : Call) : Bool :=
  match c.request with
  | .guarded token _ =>
    match (authMiddleware token c.clock s.sessions).1 with
    | .valid => true
    | _ => false
  | _ => false

/-- A login with the password of the moment, which issues the token. -/
def Issues (s : Admin) (t : String) (c : Call) : Prop :=
  ∃ body draw, c.request = .login body draw ∧ HasPassword body (adminPassword s.db) ∧
    generateToken draw (c.clock 0) = t

/-- The token that the answer hands out. -/
def issued (schema : JsVal → Except String String) (s : Admin) (c : Call) : Option String :=
  match c.request with
  | .login body draw =>
    match schema body with
    | .ok password =>
      if password = adminPassword s.db then some (generateToken draw (c.clock 0)) else none
    | .error _ => none
  | _ => none

/-- What the request does to the session of the token. -/
def touch (schema : JsVal → Except String String) (t : String) (s : Admin) (c : Call) : Touch :=
  match c.request with
  | .login _ _ => if c.issued schema s = some t then .granted c.time else .elsewhere
  | .logout _ => if c.logsOut t then .revoked else .elsewhere
  | .guarded _ _ => if c.carries t then .used c.time else .elsewhere

end Call

section
variable (schema : JsVal → Except String String)

/-- The router after the requests. -/
def serveAll (s : Admin) (calls : List Call) : Admin :=
  calls.foldl (fun s c => (c.handle schema s).2) s

/-- The tokens the requests are answered with. -/
def tokens : Admin → List Call → List String
  | _, [] => []
  | s, c :: calls => (c.issued schema s).toList ++ tokens (c.handle schema s).2 calls

/-- The times of the requests with the token that reach their handlers. -/
def authorised (t : String) : Admin → List Call → List Span
  | _, [] => []
  | s, c :: calls =>
    (if c.carries t && c.reaches s then [c.time] else []) ++ authorised t (c.handle schema s).2 calls

def touches (t : String) : Admin → List Call → List Touch
  | _, [] => []
  | s, c :: calls => c.touch schema t s :: touches t (c.handle schema s).2 calls

end

/-- The clock never goes back. -/
structure NeverBack (calls : List Call) : Prop where
  within : ∀ c ∈ calls, c.time.start ≤ c.time.finish
  between : calls.Pairwise fun c c' => c.time.finish ≤ c'.time.start

theorem adminPassword_ne_empty (db : Db) : adminPassword db ≠ "" := by
  unfold adminPassword
  cases hf : (db.getConfig "admin_password").filter fun s => decide (s ≠ "") with
  | none => decide
  | some s => exact of_decide_eq_true (Option.filter_eq_some_iff.mp hf).2

theorem digits36_ne_nil (n : ℕ) : digits36 (n + 1) n [] ≠ [] := by
  have hcons : ∀ (fuel n : ℕ) (d : Char) (digits : List Char), digits36 fuel n (d :: digits) ≠ [] := by
    intro fuel
    induction fuel with
    | zero => exact fun _ _ _ => List.cons_ne_nil _ _
    | succ fuel ih =>
      intro n d digits
      rw [digits36]
      split
      · exact List.cons_ne_nil _ _
      · exact ih _ _ _
  rw [digits36]
  split
  · exact List.cons_ne_nil _ _
  · exact hcons _ _ _ _

theorem generateToken_ne_empty (draw : String) (now : ℕ) : generateToken draw now ≠ "" := by
  intro h
  have hlist := congrArg String.toList h
  rw [generateToken, toString36, String.toList_append, String.toList_ofList] at hlist
  exact digits36_ne_nil now (List.append_eq_nil_iff.mp hlist).2

section
variable {schema : JsVal → Except String String} {s : Admin} {c : Call} {t : String}

theorem issued_iff (hs : ChecksLogin schema) : c.issued schema s = some t ↔ c.Issues s t := by
  unfold Call.issued Call.Issues
  cases hr : c.request with
  | login body draw =>
    simp only [SessionRequest.login.injEq]
    constructor
    · intro h
      split at h
      · rename_i password hp
        split at h
        · rename_i he
          cases h
          exact ⟨body, draw, ⟨rfl, rfl⟩, he ▸ ((hs body password).mp hp).1, rfl⟩
        · cases h
      · cases h
    · rintro ⟨_, _, ⟨rfl, rfl⟩, hp, rfl⟩
      rw [(hs body _).mpr ⟨hp, adminPassword_ne_empty s.db⟩]
      exact if_pos rfl
  | logout token => simp
  | guarded token next => simp

theorem ne_empty_of_issued (h : c.issued schema s = some t) : t ≠ "" := by
  unfold Call.issued at h
  split at h
  · split at h
    · split at h
      · cases h
        exact generateToken_ne_empty _ _
      · cases h
    · cases h
  · cases h

/-- The guard lets a request pass while the session of its token runs. -/
theorem reaches_iff (ht : t ≠ "") (hc : c.carries t = true) :
    c.reaches s = accepts (s.sessions t) c.time := by
  unfold Call.carries at hc
  unfold Call.reaches
  cases hr : c.request with
  | guarded token next =>
    rw [hr] at hc
    have htoken : token = some t := of_decide_eq_true hc
    subst htoken
    unfold authMiddleware
    simp only [Option.filter_some, ne_eq, ht, not_false_eq_true, decide_true, if_true]
    cases s.sessions t with
    | none => rfl
    | some expireAt =>
      by_cases hlate : expireAt < c.clock 0
      · simp [hlate, accepts, Call.time, Nat.not_le_of_lt hlate]
      · simp [hlate, accepts, Call.time, Nat.le_of_not_lt hlate]
  | login body draw =>
    rw [hr] at hc
    cases hc
  | logout token =>
    rw [hr] at hc
    cases hc

theorem filter_of_ne_empty (ht : t ≠ "") :
    (some t).filter (fun x => decide (x ≠ "")) = some t := by
  rw [Option.filter_some, if_pos (decide_eq_true ht)]

theorem ne_of_filter {token : Option String} (hne : token ≠ some t) {t' : String}
    (h : token.filter (fun x => decide (x ≠ "")) = some t') : t ≠ t' := by
  rintro rfl
  exact hne (Option.filter_eq_some_iff.mp h).1

theorem sessions_login (body : JsVal) (draw : String) (clock : ℕ → ℕ) (s : Admin) (t : String) :
    (login schema body draw clock s).2.sessions t =
      if (Call.mk (.login body draw) clock).issued schema s = some t then some (clock 1 + day)
      else s.sessions t := by
  unfold login Call.issued
  obtain ⟨parsed, hp⟩ : ∃ parsed, schema body = parsed := ⟨_, rfl⟩
  simp only [hp]
  cases parsed with
  | error message => rfl
  | ok password =>
    by_cases hpassword : password = adminPassword s.db
    · by_cases he : generateToken draw (clock 0) = t
      · simp [hpassword, he]
      · simp [hpassword, he, Function.update_of_ne (Ne.symm he)]
    · simp [hpassword]

theorem sessions_logout (ht : t ≠ "") (token : Option String) (s : Admin) :
    (logout token s).2.sessions t = if token = some t then none else s.sessions t := by
  unfold logout
  by_cases he : token = some t
  · rw [if_pos he, he, filter_of_ne_empty ht]
    exact Function.update_self ..
  · rw [if_neg he]
    dsimp only
    split
    · rfl
    · rename_i t' hf
      exact Function.update_of_ne (ne_of_filter he hf) _ _

theorem sessions_authMiddleware (ht : t ≠ "") (token : Option String) (clock : ℕ → ℕ)
    (sessions : String → Option ℕ) : (authMiddleware token clock sessions).2 t =
      if token = some t then Touch.apply day (sessions t) (.used ⟨clock 0, clock 1⟩)
      else sessions t := by
  unfold authMiddleware
  by_cases he : token = some t
  · rw [if_pos he, he, filter_of_ne_empty ht]
    dsimp only
    unfold Touch.apply accepts
    cases sessions t with
    | none => simp
    | some expireAt =>
      by_cases hlate : expireAt < clock 0
      · simp [hlate, Nat.not_le_of_lt hlate]
      · simp [hlate, Nat.le_of_not_lt hlate]
  · rw [if_neg he]
    split
    · rfl
    · rename_i t' hf
      have hne := ne_of_filter he hf
      split
      · exact Function.update_of_ne hne _ _
      · split <;> exact Function.update_of_ne hne _ _

theorem sessions_guarded (token : Option String) (next : Db → Response × Db) (clock : ℕ → ℕ)
    (s : Admin) : (guarded token next clock s).2.sessions =
      (authMiddleware token clock s.sessions).2 := by
  unfold guarded
  rcases authMiddleware token clock s.sessions with ⟨session, sessions⟩
  cases session <;> rfl

/-- A request does to the session of a token what it does with this token. -/
theorem sessions_handle (ht : t ≠ "") (s : Admin) (c : Call) :
    (c.handle schema s).2.sessions t = (c.touch schema t s).apply day (s.sessions t) := by
  obtain ⟨request, clock⟩ := c
  unfold Call.handle Call.touch
  cases request with
  | login body draw =>
    dsimp only
    rw [sessions_login]
    split <;> rfl
  | logout token =>
    dsimp only
    rw [sessions_logout ht]
    unfold Call.logsOut
    by_cases he : token = some t <;> simp [he, Touch.apply]
  | guarded token next =>
    dsimp only
    rw [sessions_guarded, sessions_authMiddleware ht]
    unfold Call.carries
    by_cases he : token = some t <;> simp [he, Touch.apply, Call.time]

theorem sessions_serveAll (ht : t ≠ "") (s : Admin) (calls : List Call) :
    (serveAll schema s calls).sessions t =
      leaseAfter day (s.sessions t) (touches schema t s calls) := by
  induction calls generalizing s with
  | nil => rfl
  | cons c calls ih =>
    change (serveAll schema (c.handle schema s).2 calls).sessions t = _
    rw [ih, sessions_handle ht]
    rfl

theorem accepted_touch (ht : t ≠ "") (s : Admin) (c : Call) :
    (c.touch schema t s).accepted (s.sessions t) =
      if c.carries t && c.reaches s then [c.time] else [] := by
  by_cases hc : c.carries t = true
  · rw [reaches_iff ht hc, hc, Bool.true_and]
    unfold Call.touch
    unfold Call.carries at hc
    split at hc
    · rename_i token next hr
      rw [hr]
      simp only [Call.carries, hr, hc, if_true]
      rfl
    · cases hc
  · rw [Bool.not_eq_true] at hc
    rw [hc, Bool.false_and, if_neg Bool.false_ne_true]
    unfold Call.touch
    rw [hc]
    split
    · split <;> rfl
    · split <;> rfl
    · rfl

theorem authorised_eq (ht : t ≠ "") (s : Admin) (calls : List Call) :
    authorised schema t s calls = usesAccepted day (s.sessions t) (touches schema t s calls) := by
  induction calls generalizing s with
  | nil => rfl
  | cons c calls ih =>
    rw [authorised, touches, usesAccepted, ih, sessions_handle ht, accepted_touch ht]

theorem serveAll_append (s : Admin) (calls calls' : List Call) :
    serveAll schema s (calls ++ calls') = serveAll schema (serveAll schema s calls) calls' :=
  List.foldl_append

theorem touches_append (t : String) (s : Admin) (calls calls' : List Call) :
    touches schema t s (calls ++ calls') =
      touches schema t s calls ++ touches schema t (serveAll schema s calls) calls' := by
  induction calls generalizing s with
  | nil => rfl
  | cons c calls ih => exact congrArg _ (ih _)

/-- Where the session was touched, there was the request. -/
theorem exists_of_touches {s : Admin} {calls : List Call} {before after : List Touch} {x : Touch}
    (h : touches schema t s calls = before ++ x :: after) :
    ∃ earlier c later, calls = earlier ++ c :: later ∧
      before = touches schema t s earlier ∧ x = c.touch schema t (serveAll schema s earlier) ∧
      after = touches schema t (serveAll schema s (earlier ++ [c])) later := by
  induction calls generalizing s before with
  | nil => cases before <;> cases h
  | cons c calls ih =>
    cases before with
    | nil =>
      obtain ⟨rfl, rfl⟩ := List.cons.inj h
      exact ⟨[], c, calls, rfl, rfl, rfl, rfl⟩
    | cons y before =>
      obtain ⟨hy, htail⟩ := List.cons.inj h
      obtain ⟨earlier, d, later, rfl, rfl, hx, ha⟩ := ih htail
      exact ⟨c :: earlier, d, later, rfl, by rw [touches, hy], hx, ha⟩

theorem touch_eq_granted {g : Span} :
    c.touch schema t s = .granted g ↔ c.issued schema s = some t ∧ g = c.time := by
  unfold Call.touch
  cases hr : c.request with
  | login body draw =>
    by_cases hi : c.issued schema s = some t
    · simp [hi, eq_comm]
    · simp [hi]
  | logout token =>
    have hi : c.issued schema s = none := by simp [Call.issued, hr]
    by_cases hl : c.logsOut t = true <;> simp [hi, hl]
  | guarded token next =>
    have hi : c.issued schema s = none := by simp [Call.issued, hr]
    by_cases hl : c.carries t = true <;> simp [hi, hl]

theorem touch_eq_revoked : c.touch schema t s = .revoked ↔ c.logsOut t = true := by
  unfold Call.touch
  cases hr : c.request with
  | login body draw =>
    by_cases hi : c.issued schema s = some t <;> simp [hi, Call.logsOut, hr]
  | logout token => by_cases hl : c.logsOut t = true <;> simp [hl]
  | guarded token next =>
    by_cases hl : c.carries t = true <;> simp [hl, Call.logsOut, hr]

theorem touch_eq_used {u : Span} :
    c.touch schema t s = .used u ↔ c.carries t = true ∧ u = c.time := by
  unfold Call.touch
  cases hr : c.request with
  | login body draw =>
    by_cases hi : c.issued schema s = some t <;> simp [hi, Call.carries, hr]
  | logout token =>
    by_cases hl : c.logsOut t = true <;> simp [hl, Call.carries, hr]
  | guarded token next =>
    by_cases hl : c.carries t = true
    · simp [hl, eq_comm]
    · simp [hl]

theorem mem_touches {x : Touch} {calls : List Call} (h : x ∈ touches schema t s calls) :
    ∃ c ∈ calls, ∃ s', x = c.touch schema t s' := by
  obtain ⟨before, after, hl⟩ := List.append_of_mem h
  obtain ⟨earlier, c, later, rfl, _, hx, _⟩ := exists_of_touches hl
  exact ⟨c, List.mem_append_right _ List.mem_cons_self, _, hx⟩

theorem revoked_mem_touches {calls : List Call} :
    .revoked ∈ touches schema t s calls ↔ ∃ c ∈ calls, c.logsOut t = true := by
  induction calls generalizing s with
  | nil => simp [touches]
  | cons c calls ih =>
    rw [touches, List.mem_cons, ih, eq_comm, touch_eq_revoked]
    simp

/-- A session is granted by an answer with its token. -/
theorem granted_mem_touches {calls : List Call} {g : Span}
    (h : .granted g ∈ touches schema t s calls) : t ∈ tokens schema s calls := by
  induction calls generalizing s with
  | nil => cases h
  | cons c calls ih =>
    rw [tokens, List.mem_append]
    rcases List.mem_cons.mp h with hc | hc
    · rw [(touch_eq_granted.mp hc.symm).1]
      exact Or.inl List.mem_cons_self
    · exact Or.inr (ih hc)

theorem tokens_append (s : Admin) (calls calls' : List Call) :
    tokens schema s (calls ++ calls') =
      tokens schema s calls ++ tokens schema (serveAll schema s calls) calls' := by
  induction calls generalizing s with
  | nil => rfl
  | cons c calls ih =>
    rw [List.cons_append, tokens, tokens, ih, List.append_assoc]
    rfl

/-- With fresh tokens a session is not granted again. -/
theorem granted_once {calls : List Call} (hfresh : (tokens schema s calls).Nodup)
    {before after : List Touch} {g : Span}
    (h : touches schema t s calls = before ++ .granted g :: after) (g' : Span) :
    .granted g' ∉ after := by
  intro hg'
  obtain ⟨earlier, c, later, rfl, rfl, hx, rfl⟩ := exists_of_touches h
  obtain ⟨hc, _⟩ := touch_eq_granted.mp hx.symm
  have hlater := granted_mem_touches hg'
  rw [← List.singleton_append, ← List.append_assoc, tokens_append, tokens_append] at hfresh
  refine (List.nodup_append.mp hfresh).2.2 t (List.mem_append_right _ ?_) t hlater rfl
  rw [tokens, hc]
  exact List.mem_cons_self

/-- The empty token is no token. -/
theorem ne_empty_of_reaches (hc : c.carries t = true) (h : c.reaches s = true) : t ≠ "" := by
  rintro rfl
  unfold Call.carries at hc
  split at hc
  · rename_i token next hr
    have htoken : token = some "" := of_decide_eq_true hc
    unfold Call.reaches at h
    rw [hr, htoken] at h
    simp [authMiddleware, Option.filter] at h
  · cases hc

theorem serveAll_concat (s : Admin) (calls : List Call) (c : Call) :
    serveAll schema s (calls ++ [c]) = (c.handle schema (serveAll schema s calls)).2 :=
  serveAll_append s calls [c]

/-- What happens to a session since the login that issued its token. -/
theorem touches_since {before after : List Call} {login : Call}
    (hi : login.issued schema (serveAll schema s before) = some t) :
    touches schema t s (before ++ login :: after) = touches schema t s before ++
        .granted login.time :: touches schema t (serveAll schema s (before ++ [login])) after ∧
      authorised schema t (serveAll schema s (before ++ [login])) after =
        usesAccepted day (some (login.time.finish + day))
          (touches schema t (serveAll schema s (before ++ [login])) after) := by
  have hgranted := touch_eq_granted.mpr ⟨hi, rfl⟩
  constructor
  · rw [touches_append, touches, hgranted, serveAll_concat]
  · rw [authorised_eq (ne_empty_of_issued hi), serveAll_concat,
      sessions_handle (ne_empty_of_issued hi), hgranted]
    rfl

end

/-- The router of a process that has just started. -/
def Admin.boot (db : Db) : Admin := ⟨db, fun _ => none⟩

/-- A request with a token reaches its handler exactly when a login issued the token, no logout
of it came since, and from the login over the authorised requests to this one no two consecutive
times are more than a day apart. An issued token that was refused once is refused from then on. -/
theorem session_reaches_iff {schema : JsVal → Except String String} (hs : ChecksLogin schema)
    (db : Db) {calls : List Call} {c : Call} {t : String} (hclock : NeverBack (calls ++ [c]))
    (hfresh : (tokens schema (.boot db) calls).Nodup) (hc : c.carries t = true) :
    (c.reaches (serveAll schema (.boot db) calls) = true ↔
      ∃ before login after, calls = before ++ login :: after ∧
        login.Issues (serveAll schema (.boot db) before) t ∧ (∀ d ∈ after, d.logsOut t = false) ∧
        List.IsChain (Within day) (login.time ::
          authorised schema t (serveAll schema (.boot db) (before ++ [login])) after ++ [c.time])) ∧
    ∀ before login middle refused after,
      calls = before ++ login :: (middle ++ refused :: after) →
      login.Issues (serveAll schema (.boot db) before) t → refused.carries t = true →
      refused.reaches (serveAll schema (.boot db) (before ++ login :: middle)) = false →
      c.reaches (serveAll schema (.boot db) calls) = false := by
  have hlease : ∀ d : Call, d.carries t = true → t ≠ "" → ∀ ds,
      d.reaches (serveAll schema (.boot db) ds) =
        accepts (leaseAfter day none (touches schema t (.boot db) ds)) d.time := by
    intro d hd ht ds
    rw [reaches_iff ht hd, sessions_serveAll ht]
    rfl
  have hlater : ∀ u, .used u ∈ touches schema t (.boot db) calls → u.start ≤ c.time.start := by
    intro u hu
    obtain ⟨d, hd, s', hx⟩ := mem_touches hu
    rw [(touch_eq_used.mp hx.symm).2]
    have hmem := List.mem_append_left [c] hd
    exact (hclock.within d hmem).trans
      ((List.pairwise_append.mp hclock.between).2.2 d hd c List.mem_cons_self)
  have hiff : t ≠ "" → (c.reaches (serveAll schema (.boot db) calls) = true ↔ ∃ before g after,
      touches schema t (.boot db) calls = before ++ .granted g :: after ∧ .revoked ∉ after ∧
        List.IsChain (Within day)
          (g :: usesAccepted day (some (g.finish + day)) after ++ [c.time])) := by
    intro ht
    rw [hlease c hc ht calls]
    exact accepts_iff (fun _ _ _ hl => granted_once hfresh hl) hlater
  refine ⟨⟨fun h => ?_, ?_⟩, ?_⟩
  · have ht := ne_empty_of_reaches hc h
    obtain ⟨before, g, after, hl, hr, hchain⟩ := (hiff ht).mp h
    obtain ⟨earlier, login, later, rfl, rfl, hx, rfl⟩ := exists_of_touches hl
    obtain ⟨hissued, rfl⟩ := touch_eq_granted.mp hx.symm
    refine ⟨earlier, login, later, rfl, (issued_iff hs).mp hissued, fun d hd => ?_, ?_⟩
    · by_contra hout
      rw [Bool.not_eq_false] at hout
      exact hr (revoked_mem_touches.mpr ⟨d, hd, hout⟩)
    · rw [(touches_since hissued).2]
      exact hchain
  · rintro ⟨before, login, after, rfl, hissues, hout, hchain⟩
    have hissued := (issued_iff hs).mpr hissues
    refine (hiff (ne_empty_of_issued hissued)).mpr
      ⟨_, _, _, (touches_since hissued).1, fun hr => ?_, ?_⟩
    · obtain ⟨d, hd, h⟩ := revoked_mem_touches.mp hr
      rw [hout d hd] at h
      cases h
    · rw [← (touches_since hissued).2]
      exact hchain
  · rintro before login middle refused after rfl hissues hrefused hnot
    have hissued := (issued_iff hs).mpr hissues
    have ht := ne_empty_of_issued hissued
    rw [hlease refused hrefused ht] at hnot
    have hsplit : touches schema t (.boot db) (before ++ login :: (middle ++ refused :: after)) =
        touches schema t (.boot db) (before ++ login :: middle) ++ .used refused.time ::
          touches schema t (refused.handle schema (serveAll schema (.boot db)
            (before ++ login :: middle))).2 after := by
      rw [← List.cons_append, ← List.append_assoc, touches_append, touches,
        touch_eq_used.mpr ⟨hrefused, rfl⟩]
    rw [hlease c hc ht, hsplit]
    refine not_accepts_of_refused (fun g hg => ?_) hnot c.time
    have hgranted : touches schema t (.boot db) (before ++ login :: middle) = _ :=
      (touches_since hissued).1
    rw [hgranted, List.append_assoc, List.cons_append] at hsplit
    exact granted_once hfresh hsplit g (List.mem_append_right _ (List.mem_cons_of_mem _ hg))

/-- A schema that checks as it should. -/
def loginSchema (body : JsVal) : Except String String :=
  textOf body "password" (fun s => decide (s ≠ "")) "请输入密码"

theorem loginSchema_checks : ChecksLogin loginSchema := by
  intro body password
  unfold loginSchema HasPassword
  rw [textOf_eq_ok, decide_eq_true_eq, and_assoc]

/-- A request at a full hour. -/
def atHour (h : ℕ) (request : SessionRequest) : Call := ⟨request, fun _ => h * (60 * 60 * 1000)⟩

/-- A login and two requests with its token, 20 hours apart each. -/
def threeDays : List Call :=
  [atHour 0 (.login (.obj [("password", .str "admin123")]) "a"),
    atHour 20 (.guarded (some "a0") verify), atHour 40 (.guarded (some "a0") verify)]

/-- The next request, 20 hours later, is let through, and one 25 hours later is not. -/
theorem session_reaches_slid :
    let s := serveAll loginSchema (.boot start) threeDays
    let reaches (c : Call) := c.reaches s
    reaches (atHour 60 (.guarded (some "a0") verify)) = true ∧
      reaches (atHour 65 (.guarded (some "a0") verify)) = false ∧
      ∃ before login after, threeDays = before ++ login :: after ∧
        login.Issues (serveAll loginSchema (.boot start) before) "a0" := by
  intro s reaches
  have hreaches : reaches (atHour 60 (.guarded (some "a0") verify)) = true := by decide +kernel
  have hclock : NeverBack (threeDays ++ [atHour 60 (.guarded (some "a0") verify)]) :=
    ⟨by decide, by decide⟩
  have hfresh : (tokens loginSchema (.boot start) threeDays).Nodup := by decide +kernel
  obtain ⟨before, login, after, hsplit, hissues, _, _⟩ :=
    (session_reaches_iff (t := "a0") loginSchema_checks start hclock hfresh rfl).1.mp hreaches
  exact ⟨hreaches, by decide +kernel, before, login, after, hsplit, hissues⟩

end JtfpMall.FlCode
