import JtfpMall.Js.Base64
import JtfpMall.Js.Rounding
import JtfpMall.Js.JsonText
import JtfpMall.Js.Utf8
import JtfpMall.Lib.Split

/-!
# Tokens

`signJwt` and `verifyJwt`. A token is three texts with dots between them: the header and the
payload as JSON in the digits of base64url, and those of the HMAC of the two. HMAC-SHA256 is any
function of the key and the text; so is the base64 decoder where its leniency does not matter.
-/

namespace JtfpMall.Jwt

open JtfpMall.Js
open JtfpMall.Lib

/-- What `Date.now()` gives: milliseconds since 1970, as far as times of the language go. -/
structure Time where
  ms : ℕ
  le : ms ≤ 8640000000000000

namespace Time

/-- `Math.floor(Date.now() / 1000)`. -/
def now (t : Time) : JsNum := ((JsNum.ofNat t.ms).div (.ofNat 1000)).floor

def seconds (t : Time) : ℕ := t.ms / 1000

theorem now_eq (t : Time) : t.now = .ofNat t.seconds := floor_div_thousand t.le

theorem seconds_le (t : Time) : t.seconds ≤ 8640000000000 := by
  have h := t.le
  unfold seconds
  omega

end Time

/-- Every padding character dropped, every plus a minus, every slash an underscore. -/
def urlSafe (cs : List Char) : List Char :=
  ((cs.filter fun c => decide (c ≠ '=')).map fun c => if c = '+' then '-' else c).map
    fun c => if c = '/' then '_' else c

def base64url (bytes : List UInt8) : String := .ofList (urlSafe (Base64.encode bytes))

/-- Every minus a plus, every underscore a slash. -/
def standard (cs : List Char) : List Char :=
  (cs.map fun c => if c = '-' then '+' else c).map fun c => if c = '_' then '/' else c

/-- What a hash gives: some bytes, 32 of them for SHA-256. -/
abbrev Digest := { bytes : List UInt8 // bytes ≠ [] }

section
variable (hmac : String → String → Digest) (jwtSecret : String)

/-- The HMAC of the text, as the third part of a token has it. -/
def signature (data : String) : String := base64url (hmac jwtSecret data).val

def header : JsVal := .obj [("alg", .str "HS256"), ("typ", .str "JWT")]

/-- `base64url(JSON.stringify(v))` of an object. -/
def encoded (v : JsVal) : String := base64url (Utf8.encode (.ofList (Json.chars v)))

/-- `{ iat: now, exp: now + expiresInSec, ...payload }`. -/
def body (payload : Dict JsVal) (expiresInSec now : JsNum) : Dict JsVal :=
  (Dict.ofList [("iat", .num now), ("exp", .num (now.add expiresInSec))]).spread payload

def signJwt (payload : Dict JsVal) (expiresInSec : JsNum) (t : Time) : String :=
  let data := encoded header ++ "." ++ encoded (.obj (body payload expiresInSec t.now).entries)
  data ++ "." ++ signature hmac jwtSecret data

/-- `payload.exp && now > payload.exp`. -/
def expired (payload : JsVal) (now : JsNum) : Except JsError Bool := do
  let exp ← payload.prop "exp"
  if exp.truthy then JsVal.gt (.num now) exp else return false

variable (fromBase64 : List Char → List UInt8)

/-- The value the second part of a token stands for. -/
def payloadOf (p : List Char) : Except JsError JsVal :=
  Json.parse (Utf8.decode (fromBase64 (standard p)))

/-- The payload of a valid token. -/
def verifyJwt (token : String) (t : Time) : Option JsVal :=
  match pieces '.' token.toList with
  | h :: p :: s :: _ =>
    if h = [] ∨ p = [] ∨ s = [] then none
    else if signature hmac jwtSecret (.ofList (h ++ '.' :: p)) ≠ .ofList s then none
    else match payloadOf fromBase64 p with
      | .error _ => none
      | .ok payload =>
        match expired payload t.now with
        | .error _ => none
        | .ok true => none
        | .ok false => some payload
  | _ => none

end

end JtfpMall.Jwt
