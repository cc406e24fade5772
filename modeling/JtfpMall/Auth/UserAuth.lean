import JtfpMall.Auth.Tokens
import JtfpMall.Server.Failures

/-!
# The user of a request

`requireUserAuth` takes the token of the `Authorization` header, or else of the cookie, and lets
the request go on with the positive number in its `sub`. Only the reading of the token is inside
a `try`: the escapes of the cookie and the `sub` may throw.
-/

namespace JtfpMall.Js.JsVal

mutual
/-- An object with a `toString` of its own, or an array with such an element: it has no text. -/
def Textless : JsVal → Prop
  | .arr xs => SomeTextless xs
  | .obj fs => "toString" ∈ fs.map Prod.fst
  | _ => False

def SomeTextless : List JsVal → Prop
  | [] => False
  | x :: xs => Textless x ∨ SomeTextless xs
end

theorem ok_not_error {α : Type} {a : α} {P : Prop} (h : ¬ P) :
    (∃ e : JsError, Except.ok a = .error e) ↔ P :=
  iff_of_false (fun ⟨_, he⟩ => nomatch he) h

theorem cons_error_iff {a : Except JsError String} {b : Except JsError (List String)} :
    (∃ e, (do let t ← a; let ts ← b; return t :: ts : Except JsError (List String)) = .error e) ↔
      (∃ e, a = .error e) ∨ ∃ e, b = .error e := by
  cases a with
  | error e => exact iff_of_true ⟨e, rfl⟩ (Or.inl ⟨e, rfl⟩)
  | ok t =>
    rw [ok_not_error id, false_or]
    cases b with
    | error e => exact iff_of_true ⟨e, rfl⟩ ⟨e, rfl⟩
    | ok ts => exact ok_not_error fun ⟨_, h⟩ => nomatch h

mutual
theorem toText_error_iff : ∀ v : JsVal, (∃ e, v.toText = .error e) ↔ v.Textless
  | .undefined => ok_not_error id
  | .null => ok_not_error id
  | .bool _ => ok_not_error id
  | .num _ => ok_not_error id
  | .str _ => ok_not_error id
  | .arr xs => by
    rw [Textless, ← elementTexts_error_iff xs, toText]
    cases elementTexts xs with
    | error e => exact iff_of_true ⟨e, rfl⟩ ⟨e, rfl⟩
    | ok ts => exact ok_not_error fun ⟨_, h⟩ => nomatch h
  | .obj fs => by
    rw [Textless, toText]
    split
    · rename_i h
      exact iff_of_true ⟨_, rfl⟩ h
    · rename_i h
      exact ok_not_error h

theorem elementTexts_error_iff :
    ∀ xs : List JsVal, (∃ e, elementTexts xs = .error e) ↔ SomeTextless xs
  | [] => ok_not_error id
  | x :: xs => by
    rw [SomeTextless, ← toText_error_iff x, ← elementTexts_error_iff xs]
    cases x with
    -- these two leave an empty place
    | undefined => exact cons_error_iff.trans (or_congr_left (iff_of_false (fun ⟨_, h⟩ => nomatch h)
        fun ⟨_, h⟩ => nomatch h))
    | null => exact cons_error_iff.trans (or_congr_left (iff_of_false (fun ⟨_, h⟩ => nomatch h)
        fun ⟨_, h⟩ => nomatch h))
    | _ => exact cons_error_iff
end

theorem toNumber_error_iff (v : JsVal) : (∃ e, v.toNumber = .error e) ↔ v.Textless := by
  rw [← toText_error_iff]
  unfold toNumber toPrimitive
  cases v with
  | arr xs => cases toText (.arr xs) <;> simp [isObject, Except.map]
  | obj fs => cases toText (.obj fs) <;> simp [isObject, Except.map]
  | _ => exact iff_of_false (by rintro ⟨_, h⟩; cases h) (by rintro ⟨_, h⟩; cases h)

end JtfpMall.Js.JsVal

namespace JtfpMall.Jwt

open JtfpMall.Js
open JtfpMall.Lib

/-- `auth.slice(7)` of a header that starts with `Bearer `. -/
def bearerToken (auth : Option String) : Option String :=
  match auth with
  | some a => if "Bearer ".toList.isPrefixOf a.toList then some (.ofList (a.toList.drop 7)) else none
  | none => none

/-- The `jwt` of the cookies, which the code finds as `getCookie` finds a name. -/
def cookieToken (cookie : Option String) : Except JsError (Option String) :=
  AuthRoutes.getCookie (cookie.getD "") "jwt"

/-- The token of the header, or else of the cookies. -/
def tokenOf (auth cookie : Option String) : Except JsError (Option String) :=
  match bearerToken auth with
  | some token => if token = "" then cookieToken cookie else .ok (some token)
  | none => cookieToken cookie

section
variable (hmac : String → String → Digest) (jwtSecret : String)
  (fromBase64 : List Char → List UInt8)

/-- The payload `extractJwtFromReq` finds, `undefined` when there is none. -/
def extractJwtFromReq (auth cookie : Option String) (t : Time) : Except JsError JsVal := do
  match ← tokenOf auth cookie with
  | none => return .undefined
  | some token =>
    if token = "" then return .undefined
    else return (verifyJwt hmac jwtSecret fromBase64 token t).getD .undefined

structure AuthedUser where
  userId : UserId
  openid : JsVal
  jwtPayload : JsVal

/-- The answer, or the user `next` is called with. -/
def requireUserAuth (auth cookie : Option String) (t : Time) :
    Except JsError (Response ⊕ AuthedUser) := do
  let payload ← extractJwtFromReq hmac jwtSecret fromBase64 auth cookie t
  -- a text has a `sub`, the method, whose number is NaN like that of `undefined`
  let sub ← payload.optionalProp "sub"
  match ← sub.toNumber with
  | .fin q =>
    if h : 0 < q then
      if payload.truthy then return .inr ⟨⟨q, h⟩, ← payload.optionalProp "openid", payload⟩
      else return .inl .needLogin
    else return .inl .needLogin
  | _ => return .inl .needLogin

/-- The header carries the token, or it carries none and the cookie does. -/
def Carries (auth cookie : Option String) (token : String) : Prop :=
  auth = some ("Bearer " ++ token) ∧ token ≠ "" ∨
    (∀ other, auth = some ("Bearer " ++ other) → other = "") ∧
      cookieToken cookie = .ok (some token)

/-- The request is refused, or it goes on with the positive number in the `sub` of a valid token
it carries. -/
def Sound (auth cookie : Option String) (t : Time) : Prop :=
  requireUserAuth hmac jwtSecret fromBase64 auth cookie t = .ok (.inl .needLogin) ∨
    ∃ user token sub, requireUserAuth hmac jwtSecret fromBase64 auth cookie t = .ok (.inr user) ∧
      Carries auth cookie token ∧
      verifyJwt hmac jwtSecret fromBase64 token t = some user.jwtPayload ∧
      user.jwtPayload.prop "sub" = .ok sub ∧ sub.toNumber = .ok (.fin user.userId)

/-- Without a token in the header, the value of the `jwt` cookie has an escape that is none. -/
def BrokenCookie (auth cookie : Option String) : Prop :=
  (∀ other, auth = some ("Bearer " ++ other) → other = "") ∧ ∃ value e,
    (AuthRoutes.cookieValue "jwt" (cookie.getD "").toList).or
        (AuthRoutes.laterCookie "jwt" (cookie.getD "").toList) = some value ∧
      decodeURIComponent (.ofList value) = .error e

/-- The `sub` of the valid token the request carries has no text, and so no number. -/
def TextlessSub (auth cookie : Option String) (t : Time) : Prop :=
  ∃ token payload sub, Carries auth cookie token ∧
    verifyJwt hmac jwtSecret fromBase64 token t = some payload ∧ payload.prop "sub" = .ok sub ∧
    sub.Textless

section
variable {auth cookie : Option String} {token : String}

theorem bearerToken_eq_some : bearerToken auth = some token ↔ auth = some ("Bearer " ++ token) := by
  cases auth with
  | none => exact iff_of_false (fun h => nomatch h) fun h => nomatch h
  | some a =>
    unfold bearerToken
    dsimp only
    constructor
    · intro h
      split at h
      · rename_i hfront
        obtain ⟨rest, hrest⟩ := List.isPrefixOf_iff_prefix.mp hfront
        have hdrop : a.toList.drop 7 = rest := by
          rw [← hrest]
          exact List.drop_left' rfl
        have htoken : token.toList = rest := by
          rw [← Option.some.inj h, hdrop, String.toList_ofList]
        rw [Option.some.injEq]
        apply String.toList_inj.mp
        rw [String.toList_append, htoken, hrest]
      · cases h
    · intro h
      rw [Option.some.inj h, String.toList_append,
        if_pos (List.isPrefixOf_iff_prefix.mpr (List.prefix_append _ _))]
      change some (String.ofList ("Bearer ".toList ++ token.toList |>.drop "Bearer ".toList.length)) =
        _
      rw [List.drop_left, String.ofList_toList]

theorem tokenOf_header (h : auth = some ("Bearer " ++ token)) (hne : token ≠ "") :
    tokenOf auth cookie = .ok (some token) := by
  unfold tokenOf
  rw [bearerToken_eq_some.mpr h]
  exact if_neg hne

theorem tokenOf_cookie (h : ∀ other, auth = some ("Bearer " ++ other) → other = "") :
    tokenOf auth cookie = cookieToken cookie := by
  unfold tokenOf
  cases hb : bearerToken auth with
  | none => rfl
  | some other => exact if_pos (h other (bearerToken_eq_some.mp hb))

/-- A token in the header, or none. -/
theorem header_cases (auth : Option String) :
    (∃ token, auth = some ("Bearer " ++ token) ∧ token ≠ "") ∨
      ∀ other, auth = some ("Bearer " ++ other) → other = "" := by
  by_cases h : ∃ token, auth = some ("Bearer " ++ token) ∧ token ≠ ""
  · exact Or.inl h
  · exact Or.inr fun other ho => by_contra fun hne => h ⟨other, ho, hne⟩

theorem carries_iff : Carries auth cookie token ↔ tokenOf auth cookie = .ok (some token) := by
  constructor
  · rintro (⟨h, hne⟩ | ⟨h, hcookie⟩)
    · exact tokenOf_header h hne
    · rw [tokenOf_cookie h, hcookie]
  · intro h
    rcases header_cases auth with ⟨other, ho, hne⟩ | hnone
    · rw [tokenOf_header ho hne] at h
      obtain rfl := Option.some.inj (Except.ok.inj h)
      exact Or.inl ⟨ho, hne⟩
    · rw [tokenOf_cookie hnone] at h
      exact Or.inr ⟨hnone, h⟩

theorem brokenCookie_iff : BrokenCookie auth cookie ↔ ∃ e, tokenOf auth cookie = .error e := by
  have hcookie : (∃ e, cookieToken cookie = .error e) ↔ ∃ value e,
      (AuthRoutes.cookieValue "jwt" (cookie.getD "").toList).or
        (AuthRoutes.laterCookie "jwt" (cookie.getD "").toList) = some value ∧
      decodeURIComponent (.ofList value) = .error e := by
    unfold cookieToken AuthRoutes.getCookie
    cases (AuthRoutes.cookieValue "jwt" (cookie.getD "").toList).or
        (AuthRoutes.laterCookie "jwt" (cookie.getD "").toList) with
    | none => exact iff_of_false (fun ⟨_, h⟩ => nomatch h) fun ⟨_, _, h, _⟩ => nomatch h
    | some value =>
      dsimp only
      cases hd : decodeURIComponent (.ofList value) with
      | error e => exact iff_of_true ⟨e, rfl⟩ ⟨value, e, rfl, hd⟩
      | ok text =>
        refine iff_of_false (fun ⟨_, h⟩ => nomatch h) ?_
        rintro ⟨other, e, hv, he⟩
        rw [← Option.some.inj hv, hd] at he
        cases he
  unfold BrokenCookie
  rw [← hcookie]
  constructor
  · rintro ⟨hnone, h⟩
    rwa [tokenOf_cookie hnone]
  · rintro ⟨e, h⟩
    rcases header_cases auth with ⟨other, ho, hne⟩ | hnone
    · rw [tokenOf_header ho hne] at h
      cases h
    · rw [tokenOf_cookie hnone] at h
      exact ⟨hnone, e, h⟩

end

section
variable {hmac jwtSecret fromBase64} {auth cookie : Option String} {t : Time}

theorem verifyJwt_empty : verifyJwt hmac jwtSecret fromBase64 "" t = none := rfl

/-- Nothing found, nothing let through. -/
theorem requireUserAuth_undefined
    (h : extractJwtFromReq hmac jwtSecret fromBase64 auth cookie t = .ok .undefined) :
    requireUserAuth hmac jwtSecret fromBase64 auth cookie t = .ok (.inl .needLogin) := by
  unfold requireUserAuth
  rw [h]
  rfl

theorem extractJwtFromReq_token {token : String} (h : tokenOf auth cookie = .ok (some token)) :
    extractJwtFromReq hmac jwtSecret fromBase64 auth cookie t =
      .ok ((verifyJwt hmac jwtSecret fromBase64 token t).getD .undefined) := by
  unfold extractJwtFromReq
  rw [h]
  change (if token = "" then _ else _) = _
  split
  · rename_i hempty
    rw [hempty, verifyJwt_empty]
    rfl
  · rfl

/-- With a valid token the number in its `sub` decides. -/
theorem requireUserAuth_valid {token : String} {payload sub : JsVal}
    (htoken : tokenOf auth cookie = .ok (some token))
    (hvalid : verifyJwt hmac jwtSecret fromBase64 token t = some payload)
    (hsub : payload.prop "sub" = .ok sub) :
    (∀ e, sub.toNumber = .error e →
      requireUserAuth hmac jwtSecret fromBase64 auth cookie t = .error e) ∧
    ∀ n, sub.toNumber = .ok n →
      requireUserAuth hmac jwtSecret fromBase64 auth cookie t = .ok (.inl .needLogin) ∨
        ∃ user, requireUserAuth hmac jwtSecret fromBase64 auth cookie t = .ok (.inr user) ∧
          user.jwtPayload = payload ∧ n = .fin user.userId := by
  have hnull : payload.isNullish = false := by
    obtain ⟨_, _, _, _, _, he⟩ := verifyJwt_eq_some.mp hvalid
    exact isNullish_of_expired he
  have hprop : ∀ name, payload.optionalProp name = payload.prop name := by
    intro name
    unfold JsVal.optionalProp
    rw [hnull]
    rfl
  have hopenid : ∃ openid, payload.prop "openid" = .ok openid := by
    cases payload <;> first | exact ⟨_, rfl⟩ | cases hnull
  obtain ⟨openid, hopenid⟩ := hopenid
  have hrun : requireUserAuth hmac jwtSecret fromBase64 auth cookie t =
      sub.toNumber.bind fun n => match n with
        | .fin q => if h : 0 < q then
            if payload.truthy then .ok (.inr ⟨⟨q, h⟩, openid, payload⟩) else .ok (.inl .needLogin)
          else .ok (.inl .needLogin)
        | _ => .ok (.inl .needLogin) := by
    unfold requireUserAuth
    rw [extractJwtFromReq_token htoken, hvalid]
    change (payload.optionalProp "sub").bind _ = _
    rw [hprop, hsub]
    change sub.toNumber.bind _ = _
    congr 1
    funext n
    cases n with
    | fin q =>
      dsimp only [Option.getD_some]
      by_cases hpos : 0 < q
      · rw [dif_pos hpos, dif_pos hpos, hprop, hopenid]
        rfl
      · rw [dif_neg hpos, dif_neg hpos]
        rfl
    | _ => rfl
  rw [hrun]
  constructor
  · intro e he
    rw [he]
    rfl
  · intro n hn
    rw [hn]
    cases n with
    | fin q =>
      change (dite (0 < q) _ _) = _ ∨ ∃ user, (dite (0 < q) _ _) = _ ∧ _
      by_cases hpos : 0 < q
      · rw [dif_pos hpos]
        by_cases htruthy : payload.truthy = true
        · rw [if_pos htruthy]
          exact Or.inr ⟨_, rfl, rfl, rfl⟩
        · rw [if_neg htruthy]
          exact Or.inl rfl
      · rw [dif_neg hpos]
        exact Or.inl rfl
    | _ => exact Or.inl rfl

end

/-- **Soundness.** Every request is refused or goes on as the user of its valid token, but for a
cookie whose escapes are none and a `sub` that has no text: then the middleware throws. -/
theorem requireUserAuth_sound_iff (auth cookie : Option String) (t : Time) :
    Sound hmac jwtSecret fromBase64 auth cookie t ↔
      ¬ BrokenCookie auth cookie ∧ ¬ TextlessSub hmac jwtSecret fromBase64 auth cookie t := by
  cases htoken : tokenOf auth cookie with
  | error e =>
    have hthrows : requireUserAuth hmac jwtSecret fromBase64 auth cookie t = .error e := by
      unfold requireUserAuth extractJwtFromReq
      rw [htoken]
      rfl
    refine iff_of_false ?_ fun h => h.1 (brokenCookie_iff.mpr ⟨e, htoken⟩)
    rintro (h | ⟨user, token, sub, h, _⟩)
    · rw [hthrows] at h
      cases h
    · rw [hthrows] at h
      cases h
  | ok found =>
    have hcookie : ¬ BrokenCookie auth cookie := by
      rw [brokenCookie_iff]
      rintro ⟨e, he⟩
      rw [htoken] at he
      cases he
    have hsame : ∀ token, Carries auth cookie token → found = some token := by
      intro token hcarries
      rw [carries_iff, htoken] at hcarries
      exact Except.ok.inj hcarries
    rw [and_iff_right hcookie]
    cases hverify : found.bind fun token => verifyJwt hmac jwtSecret fromBase64 token t with
    | none =>
      refine iff_of_true (Or.inl (requireUserAuth_undefined ?_)) ?_
      · cases found with
        | none =>
          unfold extractJwtFromReq
          rw [htoken]
          rfl
        | some token =>
          rw [extractJwtFromReq_token htoken, show verifyJwt _ _ _ _ _ = none from hverify]
          rfl
      · rintro ⟨token, payload, sub, hcarries, hvalid, _⟩
        rw [hsame token hcarries, Option.bind_some, hvalid] at hverify
        cases hverify
    | some payload =>
      obtain ⟨token, rfl, hvalid⟩ := Option.bind_eq_some_iff.mp hverify
      obtain ⟨sub, hsub⟩ : ∃ sub, payload.prop "sub" = .ok sub := by
        obtain ⟨_, _, _, _, _, he⟩ := verifyJwt_eq_some.mp hvalid
        have hnull := isNullish_of_expired he
        cases payload <;> first | exact ⟨_, rfl⟩ | cases hnull
      obtain ⟨hthrows, hnumber⟩ := requireUserAuth_valid htoken hvalid hsub
      have hcarries := carries_iff.mpr htoken
      cases hn : sub.toNumber with
      | error e =>
        refine iff_of_false ?_ (not_not_intro
          ⟨token, payload, sub, hcarries, hvalid, hsub, (JsVal.toNumber_error_iff sub).mp ⟨e, hn⟩⟩)
        rintro (h | ⟨user, _, _, h, _⟩)
        · rw [hthrows e hn] at h
          cases h
        · rw [hthrows e hn] at h
          cases h
      | ok n =>
        refine iff_of_true ?_ ?_
        · rcases hnumber n hn with h | ⟨user, h, rfl, rfl⟩
          · exact Or.inl h
          · exact Or.inr ⟨user, token, sub, h, hcarries, hvalid, hsub, hn⟩
        · rintro ⟨token', payload', sub', hcarries', hvalid', hsub', htextless⟩
          obtain rfl := Option.some.inj (hsame token' hcarries')
          rw [hvalid] at hvalid'
          obtain rfl := Option.some.inj hvalid'
          rw [hsub] at hsub'
          obtain rfl := Except.ok.inj hsub'
          obtain ⟨e, he⟩ := (JsVal.toNumber_error_iff sub).mpr htextless
          rw [hn] at he
          cases he

end

/-- A percent sign alone in the cookie makes the middleware throw. -/
theorem percentCookie_throws :
    requireUserAuth constantHmac "secret" Base64.decode none (some "jwt=%") someTime =
        .error ⟨"URIError", "URI malformed"⟩ ∧
      ¬ Sound constantHmac "secret" Base64.decode none (some "jwt=%") someTime := by
  have hthrows : requireUserAuth constantHmac "secret" Base64.decode none (some "jwt=%") someTime =
      .error ⟨"URIError", "URI malformed"⟩ := rfl
  refine ⟨hthrows, ?_⟩
  rintro (h | ⟨user, _, _, h, _⟩)
  · rw [hthrows] at h
    cases h
  · rw [hthrows] at h
    cases h

end JtfpMall.Jwt
