import JtfpMall.FlCode.Search
import JtfpMall.FlCode.Sessions
import JtfpMall.Lib.LastWrite

/-!
# The settings of FLcode

The whole service: the sessions, the codes and the settings of `fl_config` behind the routes of
both routers. A setting is what the last accepted change made of it, through any requests and
restarts.
-/

namespace JtfpMall.FlCode

open JtfpMall.Js
open JtfpMall.Lib

/-- The keys of `ConfigSchema`. -/
inductive Setting where
  | successMsg
  | failMsg
  | usageTip
  | adminPassword
  | pageTitle
deriving DecidableEq

namespace Setting

def all : List Setting := [.successMsg, .failMsg, .usageTip, .adminPassword, .pageTitle]

def key : Setting → String
  | .successMsg => "success_msg"
  | .failMsg => "fail_msg"
  | .usageTip => "usage_tip"
  | .adminPassword => "admin_password"
  | .pageTitle => "page_title"

/-- The value `initDB` inserts. -/
def preset (k : Setting) : String := (defaultConfigs.get? k.key).getD ""

theorem mem_all (k : Setting) : k ∈ all := by cases k <;> decide

theorem key_injective : Function.Injective key := by
  intro k k' h
  cases k <;> cases k' <;> first | rfl | exact absurd h (by decide)

end Setting

/-- What `ConfigSchema` reads of a body: the settings it names, with their texts. -/
abbrev ConfigBody := Setting → Option String

/-- `configs`: the entries of the parsed body that are not `undefined`. -/
def ConfigBody.configs (b : ConfigBody) : List (String × String) :=
  Setting.all.filterMap fun k => (b k).map fun v => (k.key, v)

structure ConfigBody.Accepted (body : JsVal) (b : ConfigBody) : Prop where
  object : ∃ fields, body = .obj fields
  texts : ∀ k : Setting, body.prop k.key = .ok ((b k).elim .undefined .str)
  password : b .adminPassword ≠ some ""

/-- The schemas of both routers. -/
structure Zod where
  codes : Schemas
  login : JsVal → Except String String
  config : JsVal → Except String ConfigBody

/-- What the schema library does with them. -/
structure Zod.Checks (zod : Zod) : Prop where
  codes : zod.codes.Checks
  login : ChecksLogin zod.login
  config : ∀ body b, zod.config body = .ok b ↔ ConfigBody.Accepted body b

/-- GET /api/admin/config, behind the guard. -/
def settings (db : Db) : Response × Db :=
  (.ok [("ok", .val (.bool true)), ("data", .row (db.config.filterMap fun v => some (.str v)))], db)

/-- POST /api/admin/config, behind the guard. -/
def configure (zod : Zod) (body : JsVal) (db : Db) : Response × Db :=
  updateConfig ((zod.config body).map ConfigBody.configs) db

/-- A row of `fl_codes` in an answer. -/
def CodeRow.shown (id : ℕ) (row : CodeRow) : Row :=
  .ofList [("id", .num (.ofNat id)), ("phone", .str row.phone), ("code", .str row.code),
    ("note", row.note.elim .null .str), ("created_at", .str row.createdAt),
    ("updated_at", .str row.updatedAt)]

/-- GET /api/admin/codes, behind the guard; a statement that fails is left to the error handler. -/
def codesPage (query : CodesQuery) (db : Db) : Response × Db :=
  match listCodes query db with
  | none => (refused 500 "datatype mismatch", db)
  | some answer =>
    (.ok [("ok", .val (.bool true)), ("data", .rows (answer.data.map fun r => r.2.shown r.1)),
      ("pagination.page", .val (.num answer.page)),
      ("pagination.pageSize", .val (.num answer.pageSize)),
      ("pagination.total", .number answer.total),
      ("pagination.totalPages", .val (.num answer.totalPages))], db)

/-- GET /api/config. -/
def pageConfig (db : Db) : Response :=
  .ok [("ok", .val (.bool true)), ("data.page_title", configOr db "page_title" "福利码领取"),
    ("data.success_msg", configOr db "success_msg" "恭喜您，领取成功！"),
    ("data.fail_msg", configOr db "fail_msg" "抱歉，未找到您的福利码。"),
    ("data.usage_tip", configOr db "usage_tip" "请在有效期内使用此码。")]

inductive ServiceRequest where
  | login (body : JsVal) (draw : String)
  | logout (token : Option String)
  | verify (token : Option String)
  | settings (token : Option String)
  | configure (token : Option String) (body : JsVal)
  | listCodes (token : Option String) (query : CodesQuery)
  | codes (token : Option String) (r : AdminRequest)
  | page
  | claim (body : JsVal)

inductive ServiceEvent where
  /-- A request, with the answers of `Date.now()` and the time of the database. -/
  | request (r : ServiceRequest) (clock : ℕ → ℕ) (now : String)
  /-- The process ends, with its sessions, and starts again on the same file. -/
  | restart

namespace Service

/-- The first start, without a database file. -/
def fresh : Admin := ⟨FlCode.start, fun _ => none⟩

variable (zod : Zod)

def handle (clock : ℕ → ℕ) (now : String) (s : Admin) : ServiceRequest → Response × Admin
  | .login body draw => login zod.login body draw clock s
  | .logout token => logout token s
  | .verify token => guarded token FlCode.verify clock s
  | .settings token => guarded token FlCode.settings clock s
  | .configure token body => guarded token (FlCode.configure zod body) clock s
  | .listCodes token query => guarded token (codesPage query) clock s
  | .codes token r => guarded token (r.handle zod.codes now) clock s
  | .page => (pageConfig s.db, s)
  | .claim body => (FlCode.claim zod.codes body s.db, s)

def serve (s : Admin) : ServiceEvent → Option Response × Admin
  | .request r clock now => (some (handle zod clock now s r).1, (handle zod clock now s r).2)
  | .restart => (none, ⟨initDB s.db, fun _ => none⟩)

def step (s : Admin) (e : ServiceEvent) : Option Admin := some (serve zod s e).2

/-- What an accepted change makes of the setting. -/
def changed (k : Setting) (s : Admin) : ServiceEvent → Option String
  | .request (.configure token body) clock _ =>
    match (authMiddleware token clock s.sessions).1, zod.config body with
    | .valid, .ok b => b k
    | _, _ => none
  | _ => none

/-- The last of the changes, or else the value of the first start. -/
def valueAfter (es : List ServiceEvent) (k : Setting) : String :=
  (receipts (step zod) (changed zod k) fresh es).getLast?.getD k.preset

end Service

section
variable (config : Dict String) (db : Db)

theorem insertCode_config (item : Item) (now : String) :
    Db.insertCode item now { db with config := config } =
      (db.insertCode item now).map fun db' => { db' with config := config } := by
  unfold Db.insertCode
  rw [Option.map_map]
  rfl

theorem addCode_config (item : Item) (now : String) :
    Db.addCode item now { db with config := config } =
      ((db.addCode item now).1, { (db.addCode item now).2 with config := config }) := by
  unfold Db.addCode
  rw [insertCode_config]
  cases db.insertCode item now <;> rfl

theorem insertItems_config (items : List Item) (now : String) (result : BatchResult) :
    Db.insertItems items now result { db with config := config } =
      ((db.insertItems items now result).1,
        { (db.insertItems items now result).2 with config := config }) := by
  induction items generalizing db result with
  | nil => rfl
  | cons item items ih =>
    rw [Db.insertItems, Db.insertItems, insertCode_config]
    cases db.insertCode item now with
    | none => exact ih db _
    | some db' => exact ih db' _

theorem updateCode_config (id : ℕ) (item : Item) (now : String) :
    Db.updateCode id item now { db with config := config } =
      ((db.updateCode id item now).1, { (db.updateCode id item now).2 with config := config }) := by
  unfold Db.updateCode
  dsimp only
  cases db.codes.update CodeRow.phone id (CodeRow.updated item now) with
  | none => rfl
  | some p =>
    dsimp only
    split <;> rfl

theorem deleteCode_config (id : JsNum) :
    Db.deleteCode id { db with config := config } =
      ((db.deleteCode id).1, { (db.deleteCode id).2 with config := config }) := by
  unfold Db.deleteCode
  dsimp only
  split <;> rfl

theorem upload_config (file : Upload) (now : String) :
    upload file now { db with config := config } =
      ((upload file now db).1, { (upload file now db).2 with config := config }) := by
  cases file with
  | missing => rfl
  | rejected message => rfl
  | unreadable message => rfl
  | noSheet => rfl
  | sheet rows =>
    unfold upload
    dsimp only
    split
    · rfl
    · unfold Db.addCodesBatch
      rw [insertItems_config]

/-- The code routes neither read nor write the settings. -/
theorem handle_config (schemas : Schemas) (now : String) (r : AdminRequest) :
    r.handle schemas now { db with config := config } =
      ((r.handle schemas now db).1, { (r.handle schemas now db).2 with config := config }) := by
  cases r with
  | addCode body =>
    unfold AdminRequest.handle FlCode.addCode answered
    dsimp only
    cases schemas.code body with
    | error message => rfl
    | ok item =>
      dsimp only
      rw [addCode_config]
  | updateCode id body =>
    unfold AdminRequest.handle FlCode.updateCode answered
    dsimp only
    cases schemas.update id body with
    | error message => rfl
    | ok b =>
      dsimp only
      rw [updateCode_config]
  | deleteCode id =>
    unfold AdminRequest.handle FlCode.deleteCode answered
    dsimp only
    split
    · rfl
    · rw [deleteCode_config]
  | clearCodes => rfl
  | upload file => exact upload_config config db file now

end

theorem lookup_filterMap_key (b : ConfigBody) (k : Setting) (ks : List Setting) :
    (ks.filterMap fun k => (b k).map fun v => (k.key, v)).lookup k.key =
      if k ∈ ks then b k else none := by
  induction ks with
  | nil => rfl
  | cons k' ks ih =>
    by_cases hk : k = k'
    · subst hk
      cases hb : b k with
      | none => simp [hb, ih]
      | some v => simp [hb]
    · have hne : k.key ≠ k'.key := fun h => hk (Setting.key_injective h)
      cases hb : b k' with
      | none => simp [hb, ih, hk]
      | some v => simp [hb, ih, hk, List.lookup_cons, beq_false_of_ne hne]

theorem lookup_configs (b : ConfigBody) (k : Setting) : b.configs.lookup k.key = b k := by
  rw [ConfigBody.configs, lookup_filterMap_key, if_pos k.mem_all]

theorem keys_configs_sublist (b : ConfigBody) :
    (b.configs.map Prod.fst).Sublist (Setting.all.map Setting.key) := by
  unfold ConfigBody.configs
  induction Setting.all with
  | nil => simp
  | cons k ks ih =>
    cases hb : b k with
    | none => simpa [hb] using ih.cons _
    | some v => simpa [hb] using ih

theorem nodup_keys : (Setting.all.map Setting.key).Nodup := by decide

theorem getConfig_setConfigs (b : ConfigBody) (db : Db) (k : Setting) :
    (db.setConfigs b.configs).getConfig k.key = (b k).or (db.getConfig k.key) := by
  change (b.configs.foldl (fun d p => d.set p.1 p.2) db.config).get? k.key = _
  rw [Dict.get?_foldl_set _ (nodup_keys.sublist (keys_configs_sublist b)), lookup_configs]
  rfl

theorem keys_set {V : Type} {d : Dict V} {k : String} (h : k ∈ d.entries.map Prod.fst) (v : V) :
    (d.set k v).entries.map Prod.fst = d.entries.map Prod.fst := by
  change (Dict.setEntries k v d.entries).map Prod.fst = _
  generalize d.entries = es at h
  induction es with
  | nil => cases h
  | cons e es ih =>
    rw [Dict.setEntries]
    split
    · rename_i he
      rw [List.map_cons, List.map_cons, he]
    · rename_i he
      rw [List.map_cons, List.mem_cons] at h
      rw [List.map_cons, List.map_cons, ih (h.resolve_left (Ne.symm he))]

/-- Settings that are there stay in their places. -/
theorem keys_foldl_set {V : Type} {d : Dict V} {es : List (String × V)}
    (h : ∀ e ∈ es, e.1 ∈ d.entries.map Prod.fst) :
    (es.foldl (fun d p => d.set p.1 p.2) d).entries.map Prod.fst = d.entries.map Prod.fst := by
  induction es generalizing d with
  | nil => rfl
  | cons e es ih =>
    have hset := keys_set (h e List.mem_cons_self) e.2
    rw [List.foldl_cons, ih, hset]
    intro e' he'
    rw [hset]
    exact h e' (List.mem_cons_of_mem e he')

/-- The table has the five settings, and a password that is not empty. -/
structure Sound (db : Db) : Prop where
  keys : db.config.entries.map Prod.fst = Setting.all.map Setting.key
  password : db.getConfig Setting.adminPassword.key ≠ some ""

theorem sound_start : Sound start := ⟨by decide, by decide⟩

theorem Sound.of_config {db db' : Db} (h : Sound db) (hc : db'.config = db.config) : Sound db' := by
  refine ⟨hc ▸ h.keys, ?_⟩
  unfold Db.getConfig
  rw [hc]
  exact h.password

theorem Sound.get? {db : Db} (h : Sound db) (k : Setting) : ∃ v, db.getConfig k.key = some v := by
  have hmem : k.key ∈ db.config.entries.map Prod.fst := by
    rw [h.keys]
    exact List.mem_map_of_mem k.mem_all
  obtain ⟨e, he, hkey⟩ := List.mem_map.mp hmem
  exact ⟨e.2, Dict.get?_of_mem (hkey ▸ he)⟩

theorem Sound.setConfigs {db : Db} (h : Sound db) {b : ConfigBody} {body : JsVal}
    (hb : ConfigBody.Accepted body b) : Sound (db.setConfigs b.configs) := by
  constructor
  · rw [← h.keys]
    refine keys_foldl_set fun e he => ?_
    rw [h.keys]
    exact (keys_configs_sublist b).subset (List.mem_map_of_mem he)
  · rw [getConfig_setConfigs]
    cases hp : b .adminPassword with
    | none => exact h.password
    | some v =>
      rw [Option.some_or]
      exact hp ▸ hb.password

theorem getConfig_initDB (db : Db) (k : Setting) :
    (initDB db).getConfig k.key = (db.getConfig k.key).or (some k.preset) := by
  unfold initDB Db.getConfig
  rw [Dict.get?_spread]
  cases k <;> rfl

theorem Sound.initDB {db : Db} (h : Sound db) : Sound (initDB db) := by
  constructor
  · refine (keys_foldl_set fun e he => ?_).trans (by decide)
    have hkey : e.1 ∈ Setting.all.map Setting.key := h.keys ▸ List.mem_map_of_mem he
    exact (by decide : Setting.all.map Setting.key ⊆ defaultConfigs.entries.map Prod.fst) hkey
  · rw [getConfig_initDB]
    obtain ⟨v, hv⟩ := h.get? .adminPassword
    rw [hv, Option.some_or]
    exact hv ▸ h.password

namespace Service

variable {zod : Zod}

/-- A route behind the guard leaves the settings, unless its handler does not. -/
theorem db_guarded (token : Option String) (next : Db → Response × Db) (clock : ℕ → ℕ) (s : Admin) :
    (guarded token next clock s).2.db = s.db ∨
      (authMiddleware token clock s.sessions).1 = .valid ∧
        (guarded token next clock s).2.db = (next s.db).2 := by
  unfold guarded
  rcases authMiddleware token clock s.sessions with ⟨session, sessions⟩
  cases session with
  | missing => exact Or.inl rfl
  | expired => exact Or.inl rfl
  | valid => exact Or.inr ⟨rfl, rfl⟩

theorem config_guarded {next : Db → Response × Db} (hn : ∀ db, (next db).2.config = db.config)
    (token : Option String) (clock : ℕ → ℕ) (s : Admin) :
    (guarded token next clock s).2.db.config = s.db.config := by
  rcases db_guarded token next clock s with h | ⟨_, h⟩
  · rw [h]
  · rw [h, hn]

theorem config_codesPage (query : CodesQuery) (db : Db) :
    (codesPage query db).2.config = db.config := by
  unfold codesPage
  split <;> rfl

theorem config_codes (now : String) (r : AdminRequest) (db : Db) :
    (r.handle zod.codes now db).2.config = db.config :=
  congrArg (fun p => p.2.config) (handle_config db.config db zod.codes now r)

theorem config_login (body : JsVal) (draw : String) (clock : ℕ → ℕ) (s : Admin) :
    (login zod.login body draw clock s).2.db = s.db := by
  unfold login
  split
  · rfl
  · split <;> rfl

theorem config_logout (token : Option String) (s : Admin) : (logout token s).2.db = s.db := by
  unfold logout
  dsimp only
  split <;> rfl

/-- Only an accepted change and a restart reach the settings. -/
theorem db_serve (hz : zod.Checks) (s : Admin) (e : ServiceEvent) :
    (serve zod s e).2.db.config = s.db.config ∧ (∀ k, changed zod k s e = none) ∨
      (∃ body b, ConfigBody.Accepted body b ∧ (∀ k, changed zod k s e = b k) ∧
        (serve zod s e).2.db = s.db.setConfigs b.configs) ∨
      (serve zod s e).2.db = initDB s.db ∧ (∀ k, changed zod k s e = none) := by
  cases e with
  | restart => exact Or.inr (Or.inr ⟨rfl, fun _ => rfl⟩)
  | request r clock now =>
    cases r with
    | login body draw =>
      exact Or.inl ⟨congrArg Db.config (config_login body draw clock s), fun _ => rfl⟩
    | logout token => exact Or.inl ⟨congrArg Db.config (config_logout token s), fun _ => rfl⟩
    | verify token => exact Or.inl ⟨config_guarded (fun _ => rfl) token clock s, fun _ => rfl⟩
    | settings token => exact Or.inl ⟨config_guarded (fun _ => rfl) token clock s, fun _ => rfl⟩
    | listCodes token query =>
      exact Or.inl ⟨config_guarded (config_codesPage query) token clock s, fun _ => rfl⟩
    | codes token r =>
      exact Or.inl ⟨config_guarded (config_codes now r) token clock s, fun _ => rfl⟩
    | page => exact Or.inl ⟨rfl, fun _ => rfl⟩
    | claim body => exact Or.inl ⟨rfl, fun _ => rfl⟩
    | configure token body =>
      unfold changed serve handle guarded FlCode.configure updateConfig
      dsimp only
      generalize authMiddleware token clock s.sessions = found
      rcases found with ⟨session, sessions⟩
      cases session with
      | missing => exact Or.inl ⟨rfl, fun _ => rfl⟩
      | expired => exact Or.inl ⟨rfl, fun _ => rfl⟩
      | valid =>
        cases hb : zod.config body with
        | error message => exact Or.inl ⟨rfl, fun _ => rfl⟩
        | ok b => exact Or.inr (Or.inl ⟨body, b, (hz.config body b).mp hb, fun _ => rfl, rfl⟩)

theorem sound_serve (hz : zod.Checks) {s : Admin} (h : Sound s.db) (e : ServiceEvent) :
    Sound (serve zod s e).2.db := by
  rcases db_serve hz s e with ⟨hc, _⟩ | ⟨body, b, hb, _, hdb⟩ | ⟨hdb, _⟩
  · exact h.of_config hc
  · exact hdb ▸ h.setConfigs hb
  · exact hdb ▸ h.initDB

/-- The value of a setting; a key that is not there has the one `initDB` will insert. -/
def value (k : Setting) (s : Admin) : String := (s.db.getConfig k.key).getD k.preset

theorem value_serve (hz : zod.Checks) (k : Setting) (s : Admin) (e : ServiceEvent) :
    value k (serve zod s e).2 = (changed zod k s e).getD (value k s) := by
  unfold value
  rcases db_serve hz s e with ⟨hc, hk⟩ | ⟨body, b, _, hk, hdb⟩ | ⟨hdb, hk⟩
  · rw [hk k, Option.getD_none, Db.getConfig, hc]
    rfl
  · rw [hk k, hdb, getConfig_setConfigs]
    cases b k <;> rfl
  · rw [hk k, hdb, getConfig_initDB, Option.getD_none]
    cases s.db.getConfig k.key <;> rfl

/-- A value is the last one that an accepted change gave. -/
theorem value_run (hz : zod.Checks) {es : List ServiceEvent} {s : Admin}
    (h : run (step zod) fresh es = some s) (k : Setting) : value k s = valueAfter zod es k := by
  have hwrite : ∀ s e s', step zod s e = some s' →
      some (value k s') = (changed zod k s e).or (some (value k s)) := by
    intro s e s' hs
    rw [step, Option.some.injEq] at hs
    rw [← hs, value_serve hz]
    cases changed zod k s e <;> rfl
  have hslot := slot_run hwrite h
  have hfresh : value k fresh = k.preset := by cases k <;> rfl
  rw [hfresh, Option.toList_some, List.singleton_append, List.getLast?_cons,
    Option.some.injEq] at hslot
  exact hslot

theorem sound_run (hz : zod.Checks) {es : List ServiceEvent} {s : Admin}
    (h : run (step zod) fresh es = some s) : Sound s.db := by
  have halong : Along (step zod) (fun _ _ => True) fresh es :=
    Along.of_forall (step zod) (fun _ _ => trivial) fresh es
  refine run_invariant (step zod) (fun s => Sound s.db) (fun s e s' hi _ hs => ?_) sound_start
    halong h
  rw [step, Option.some.injEq] at hs
  exact hs ▸ sound_serve hz hi e

/-- A text of the page; an empty one is replaced. -/
def textOr (v d : String) : Reply := .text (if v = "" then d else v)

def pageAnswer (value : Setting → String) : Response :=
  .ok [("ok", .val (.bool true)), ("data.page_title", textOr (value .pageTitle) "福利码领取"),
    ("data.success_msg", textOr (value .successMsg) "恭喜您，领取成功！"),
    ("data.fail_msg", textOr (value .failMsg) "抱歉，未找到您的福利码。"),
    ("data.usage_tip", textOr (value .usageTip) "请在有效期内使用此码。")]

def foundAnswer (value : Setting → String) (record : CodeRow) : Response :=
  .ok [("ok", .val (.bool true)), ("found", .val (.bool true)), ("code", .text record.code),
    ("note", .val (record.note.elim .null .str)),
    ("message", textOr (value .successMsg) "恭喜您，领取成功！"),
    ("usage_tip", textOr (value .usageTip) "请在有效期内使用此码。")]

def notFoundAnswer (value : Setting → String) : Response :=
  .ok [("ok", .val (.bool true)), ("found", .val (.bool false)),
    ("message", textOr (value .failMsg) "抱歉，未找到您的福利码，请确认手机号是否正确。")]

/-- The service works with these values of the settings, and with no others. -/
structure WorksWith (zod : Zod) (s : Admin) (value : Setting → String) : Prop where
  stored : ∀ k, s.db.getConfig k.key = some (value k)
  keys : (s.db.config.entries.map Prod.fst).Perm (Setting.all.map Setting.key)
  login : ∀ body draw clock now, (handle zod clock now s (.login body draw)).1.status = 200 ↔
    HasPassword body (value .adminPassword)
  page : ∀ clock now, (handle zod clock now s .page).1 = pageAnswer value
  claim : ∀ body phone clock now, zod.codes.phone body = .ok phone →
    (handle zod clock now s (.claim body)).1 =
      (s.db.getCodeByPhone phone).elim (notFoundAnswer value) (foundAnswer value)

theorem configOr_eq {db : Db} {k : Setting} {v : String} (h : db.getConfig k.key = some v)
    (d : String) : configOr db k.key d = textOr v d := by
  unfold configOr textOr
  rw [h]
  by_cases hv : v = "" <;> simp [hv, Option.filter_some]

theorem adminPassword_eq {db : Db} {v : String} (h : db.getConfig Setting.adminPassword.key = some v)
    (hv : v ≠ "") : adminPassword db = v := by
  unfold adminPassword
  change ((db.getConfig Setting.adminPassword.key).filter _).getD _ = v
  rw [h, Option.filter_some, if_pos (decide_eq_true hv)]
  rfl

theorem login_iff (hl : ChecksLogin zod.login) (body : JsVal) (draw : String) (clock : ℕ → ℕ)
    (s : Admin) : (login zod.login body draw clock s).1.status = 200 ↔
      HasPassword body (adminPassword s.db) := by
  have hne := adminPassword_ne_empty s.db
  unfold login
  cases hp : zod.login body with
  | error message =>
    refine iff_of_false (Nat.ne_of_beq_eq_false rfl) fun h => ?_
    rw [(hl body _).mpr ⟨h, hne⟩] at hp
    cases hp
  | ok password =>
    dsimp only
    have hbody := ((hl body password).mp hp).1
    by_cases he : password = adminPassword s.db
    · rw [if_pos he]
      exact iff_of_true rfl (he ▸ hbody)
    · rw [if_neg he]
      refine iff_of_false (Nat.ne_of_beq_eq_false rfl) fun h => he ?_
      exact Except.ok.inj (hp.symm.trans ((hl body _).mpr ⟨h, hne⟩))

/-- After every run from the first start the service works with the values that were set last. -/
theorem worksWith_valueAfter (hz : zod.Checks) {es : List ServiceEvent} {s : Admin}
    (h : run (step zod) fresh es = some s) : WorksWith zod s (valueAfter zod es) := by
  have hsound := sound_run hz h
  have hstored : ∀ k : Setting, s.db.getConfig k.key = some (valueAfter zod es k) := by
    intro k
    obtain ⟨v, hv⟩ := hsound.get? k
    rw [← value_run hz h k, value, hv]
    rfl
  have hne : valueAfter zod es .adminPassword ≠ "" := by
    intro he
    exact hsound.password (he ▸ hstored .adminPassword)
  refine ⟨hstored, .of_eq hsound.keys, fun body draw clock now => ?_, fun clock now => ?_,
    fun body phone clock now hp => ?_⟩
  · rw [← adminPassword_eq (hstored .adminPassword) hne]
    exact login_iff hz.login body draw clock s
  · change pageConfig s.db = _
    unfold pageConfig pageAnswer
    rw [← configOr_eq (hstored .pageTitle), ← configOr_eq (hstored .successMsg),
      ← configOr_eq (hstored .failMsg), ← configOr_eq (hstored .usageTip)]
    rfl
  · change FlCode.claim zod.codes body s.db = _
    unfold FlCode.claim
    rw [hp]
    dsimp only
    cases s.db.getCodeByPhone phone with
    | none =>
      rw [Option.elim_none, notFoundAnswer, ← configOr_eq (hstored .failMsg)]
      rfl
    | some record =>
      rw [Option.elim_some, foundAnswer, ← configOr_eq (hstored .successMsg),
        ← configOr_eq (hstored .usageTip)]
      rfl

/-- `z.string().optional()`: the text of a field, if there is one. -/
def optionalText : Except JsError JsVal → Option (Option String)
  | .ok (.str s) => some (some s)
  | .ok .undefined => some none
  | _ => none

theorem optionalText_eq_some {v : Except JsError JsVal} {o : Option String} :
    optionalText v = some o ↔ v = .ok (o.elim .undefined .str) := by
  constructor
  · intro h
    unfold optionalText at h
    split at h
    · cases h
      rfl
    · cases h
      rfl
    · cases h
  · rintro rfl
    cases o <;> rfl

def readConfig (body : JsVal) : Except String ConfigBody :=
  match body with
  | .obj fields =>
    let texts := fun k : Setting => optionalText ((JsVal.obj fields).prop k.key)
    if Setting.all.all (fun k => (texts k).isSome) ∧ (texts .adminPassword).join ≠ some "" then
      .ok fun k => (texts k).join
    else .error "Expected string"
  | _ => .error "Expected object"

theorem readConfig_eq_ok {body : JsVal} {b : ConfigBody} :
    readConfig body = .ok b ↔ ConfigBody.Accepted body b := by
  unfold readConfig
  constructor
  · intro h
    split at h
    · rename_i fields
      dsimp only at h
      split at h
      · rename_i hc
        cases h
        refine ⟨⟨fields, rfl⟩, fun k => optionalText_eq_some.mp ?_, hc.2⟩
        have hk := List.all_eq_true.mp hc.1 k k.mem_all
        obtain ⟨o, ho⟩ := Option.isSome_iff_exists.mp hk
        rw [ho]
        rfl
      · cases h
    · cases h
  · rintro ⟨⟨fields, rfl⟩, htexts, hpassword⟩
    have hread : ∀ k : Setting, optionalText ((JsVal.obj fields).prop k.key) = some (b k) :=
      fun k => optionalText_eq_some.mpr (htexts k)
    dsimp only
    rw [if_pos]
    · exact congrArg Except.ok (funext fun k => by rw [hread k, Option.join_some])
    · refine ⟨List.all_eq_true.mpr fun k _ => by rw [hread k, Option.isSome_some], ?_⟩
      rw [hread, Option.join_some]
      exact hpassword

/-- Schemas that check as they should. -/
def plain : Zod := ⟨.plain, loginSchema, readConfig⟩

theorem plain_checks : plain.Checks :=
  ⟨Schemas.plain_checks, loginSchema_checks, fun _ _ => readConfig_eq_ok⟩

def atNoon (r : ServiceRequest) : ServiceEvent := .request r (fun _ => 12) "t"

/-- A login, a new title under its token, a change without a session, and a restart. -/
def titled : List ServiceEvent :=
  [atNoon (.login (.obj [("password", .str "admin123")]) "a"),
    atNoon (.configure (some "ac") (.obj [("page_title", .str "新年福利")])),
    atNoon (.configure (some "b") (.obj [("page_title", .str "x")])), .restart]

theorem worksWith_titled :
    ∃ s, run (step plain) fresh titled = some s ∧ WorksWith plain s (valueAfter plain titled) ∧
      valueAfter plain titled .pageTitle = "新年福利" := by
  obtain ⟨s, hs⟩ : ∃ s, run (step plain) fresh titled = some s := ⟨_, rfl⟩
  exact ⟨s, hs, worksWith_valueAfter plain_checks hs, by decide +kernel⟩

end Service

end JtfpMall.FlCode
