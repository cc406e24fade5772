import JtfpMall.Repositories.Listing

/-!
# Users repository
-/

namespace JtfpMall.Users

open JtfpMall.Js
open JtfpMall.Lib

/-- What a login passes on of the answer it got for the user's code. -/
structure Params where
  openid : String
  unionid : Option String
  sessionKey : Option String
  nickname : Option String
  avatarUrl : Option String

/-- `v || null`. -/
def orNull (v : Option String) : JsVal := (absent v).or .null

/-- The user row both login paths create. -/
def newUser (params : Params) : Row :=
  .ofList [("openid", .str params.openid), ("unionid", orNull params.unionid),
    ("nickname", orNull params.nickname), ("avatar_url", orNull params.avatarUrl), ("phone", .null)]

/-- `params.v && params.v !== user.column`: the update, when there is one. -/
def changed (user : Row) (column : String) (v : Option String) : List (String × JsVal) :=
  if (absent v).truthy && !(absent v).strictEq (user.get column) then [(column, absent v)] else []

/-- The changes a login of a known user makes to its row. -/
def loginUpdates (params : Params) (user : Row) : Row :=
  .ofList (changed user "unionid" params.unionid ++ changed user "nickname" params.nickname ++
    changed user "avatar_url" params.avatarUrl)

/-- `r.openid === openid`. -/
def hasOpenid (openid : String) (r : Row) : Bool := (r.get "openid").strictEq (.str openid)

def findOrCreateUser (params : Params) (clock : ℕ → String) : Act Row := do
  match ← Act.findOne .users (hasOpenid params.openid) with
  | some user =>
    let updates := loginUpdates params user
    if updates.entries = [] then return user
    else do
      let _ ← Act.update .users (user.get "id") updates (clock 0)
      return user.spread updates
  | none => Act.insert .users (newUser params) (clock 0)

/-- `r.provider === provider && r.openid === openid`. -/
def hasIdentity (provider openid : String) (r : Row) : Bool :=
  (r.get "provider").strictEq (.str provider) && (r.get "openid").strictEq (.str openid)

def newIdentity (provider : String) (params : Params) (userId : JsVal) : Row :=
  .ofList [("user_id", userId), ("provider", .str provider), ("openid", .str params.openid),
    ("unionid", orNull params.unionid), ("session_key", orNull params.sessionKey)]

/-- The first identity that carries the unionid of the answer, if the answer has one. -/
def findByUnionid (params : Params) : Act (Option Row) :=
  if (absent params.unionid).truthy then
    Act.findOne .userIdentities fun r => (r.get "unionid").strictEq (absent params.unionid)
  else return none

/-- Step 3: the user of the unionid, or a new one. -/
def userFor (unionIdentity : Option Row) (params : Params) (now : String) : Act JsVal :=
  let existingUserId := unionIdentity.elim .null fun r => r.get "user_id"
  if existingUserId.truthy then return existingUserId
  else do
    let user ← Act.insert .users (newUser params) now
    return user.get "id"

/-- What step 4 writes into an identity that is already there. -/
def identityUpdates (params : Params) (identity : Row) : Row :=
  .ofList [("session_key", (absent params.sessionKey).or (identity.get "session_key")),
    ("unionid", (absent params.unionid).or (identity.get "unionid"))]

/-- Step 4: the identity, brought up to date or bound to the user. -/
def saveIdentity (provider : String) (params : Params) (userId : JsVal) (now : String) :
    Act Unit := do
  match ← Act.findOne .userIdentities (hasIdentity provider params.openid) with
  | some identity =>
    let _ ← Act.update .userIdentities (identity.get "id") (identityUpdates params identity) now
  | none =>
    let _ ← Act.insert .userIdentities (newIdentity provider params userId) now

/-- Steps 2 to 4, for an identity without a user. -/
def bindIdentity (provider : String) (params : Params) (clock : ℕ → String) : Act Row := do
  let unionIdentity ← findByUnionid params
  let userId ← userFor unionIdentity params (clock 1)
  saveIdentity provider params userId (clock 2)
  Act.flushNow (clock 3)
  match ← Act.findById .users userId with
  | some user => return user
  | none => Action.lift (.error ⟨"Error", "Failed to create user"⟩)

/-- Step 1 updates the session key of a known identity. -/
def saveSessionKey (params : Params) (identity : Row) (now : String) : Act Bool :=
  if (absent params.sessionKey).truthy then
    Act.update .userIdentities (identity.get "id")
      (.ofList [("session_key", absent params.sessionKey)]) now
  else return false

/-- A known identity keeps its user; only its session key is brought up to date. -/
def findOrCreateUserByIdentity (provider : String) (params : Params) (clock : ℕ → String) :
    Act Row := do
  match ← Act.findOne .userIdentities (hasIdentity provider params.openid) with
  | some identity => do
    let _ ← saveSessionKey params identity (clock 0)
    match ← Act.findById .users (identity.get "user_id") with
    | some user => return user
    | none => bindIdentity provider params clock
  | none => bindIdentity provider params clock

end JtfpMall.Users
