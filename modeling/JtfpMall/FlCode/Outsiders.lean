import JtfpMall.FlCode.Settings
import JtfpMall.Lib.Lockstep

/-!
# Outsiders and the admin password of FLcode

The password is one of the settings, which the public routes read. What they answer does not
depend on it: two services that differ in their passwords at most answer alike for as long as no
login tells them apart, whatever the admin does in between.
-/

namespace JtfpMall.FlCode.Service

open JtfpMall.Js
open JtfpMall.Lib

variable {zod : Zod}

/-- Two services that differ in their passwords at most. -/
structure SamePublic (s s' : Admin) : Prop where
  codes : s.db.codes = s'.db.codes
  sessions : s.sessions = s'.sessions
  settings : ∀ k : Setting, k ≠ .adminPassword → s.db.getConfig k.key = s'.db.getConfig k.key

/-- A login is accepted by both services or by neither. -/
def LoginAlike (s s' : Admin) : ServiceEvent → Prop
  | .request (.login body _) _ _ =>
    HasPassword body (adminPassword s.db) ↔ HasPassword body (adminPassword s'.db)
  | _ => True

/-- The answers, but for the settings that the admin reads back. -/
def shown : ServiceEvent → Option Response → Option Response
  | .request (.settings _) _ _, answer => answer.map fun r => ⟨r.status, []⟩
  | _, answer => answer

/-- A handler behind the guard that answers alike in both services. -/
theorem samePublic_guarded {s s' : Admin} (h : SamePublic s s') (next : Db → Response × Db)
    (hide : Response → Response) (hsame : hide (next s.db).1 = hide (next s'.db).1)
    (hnext : SamePublic ⟨(next s.db).2, s.sessions⟩ ⟨(next s'.db).2, s'.sessions⟩)
    (token : Option String) (clock : ℕ → ℕ) :
    SamePublic (guarded token next clock s).2 (guarded token next clock s').2 ∧
      hide (guarded token next clock s).1 = hide (guarded token next clock s').1 := by
  unfold guarded
  rw [h.sessions]
  rcases authMiddleware token clock s'.sessions with ⟨session, sessions⟩
  cases session with
  | missing => exact ⟨⟨h.codes, rfl, h.settings⟩, rfl⟩
  | expired => exact ⟨⟨h.codes, rfl, h.settings⟩, rfl⟩
  | valid => exact ⟨⟨hnext.codes, rfl, hnext.settings⟩, hsame⟩

theorem samePublic_login (hl : ChecksLogin zod.login) {s s' : Admin} (h : SamePublic s s')
    {body : JsVal}
    (halike : HasPassword body (adminPassword s.db) ↔ HasPassword body (adminPassword s'.db))
    (draw : String) (clock : ℕ → ℕ) :
    SamePublic (login zod.login body draw clock s).2 (login zod.login body draw clock s').2 ∧
      (login zod.login body draw clock s).1 = (login zod.login body draw clock s').1 := by
  unfold login
  cases hp : zod.login body with
  | error message => exact ⟨h, rfl⟩
  | ok password =>
    have hbody := ((hl body password).mp hp).1
    -- the body has one password, so it is the one of both services or of neither
    have hread : ∀ p, HasPassword body p → p = password := by
      intro p hq
      have he := hq.2.symm.trans hbody.2
      rw [Except.ok.injEq, JsVal.str.injEq] at he
      exact he
    have hiff : password = adminPassword s.db ↔ password = adminPassword s'.db := by
      constructor
      · exact fun he => (hread _ (halike.mp (he ▸ hbody))).symm
      · exact fun he => (hread _ (halike.mpr (he ▸ hbody))).symm
    dsimp only
    by_cases he : password = adminPassword s.db
    · rw [if_pos he, if_pos (hiff.mp he)]
      exact ⟨⟨h.codes, congrArg (fun m => Function.update m _ _) h.sessions, h.settings⟩, rfl⟩
    · rw [if_neg he, if_neg (mt hiff.mpr he)]
      exact ⟨h, rfl⟩

theorem samePublic_logout {s s' : Admin} (h : SamePublic s s') (token : Option String) :
    SamePublic (logout token s).2 (logout token s').2 ∧ (logout token s).1 = (logout token s').1 := by
  unfold logout
  refine ⟨?_, rfl⟩
  dsimp only
  cases token.filter fun t => decide (t ≠ "") with
  | none => exact h
  | some t => exact ⟨h.codes, congrArg (fun m => Function.update m t none) h.sessions, h.settings⟩

theorem configOr_congr {s s' : Admin} (h : SamePublic s s') {k : Setting} (hk : k ≠ .adminPassword)
    (d : String) : configOr s.db k.key d = configOr s'.db k.key d := by
  unfold configOr
  rw [h.settings k hk]

theorem pageConfig_congr {s s' : Admin} (h : SamePublic s s') :
    pageConfig s.db = pageConfig s'.db := by
  have htitle := configOr_congr h (k := .pageTitle) (by decide) "福利码领取"
  have hsuccess := configOr_congr h (k := .successMsg) (by decide) "恭喜您，领取成功！"
  have hfail := configOr_congr h (k := .failMsg) (by decide) "抱歉，未找到您的福利码。"
  have htip := configOr_congr h (k := .usageTip) (by decide) "请在有效期内使用此码。"
  simp only [Setting.key] at htitle hsuccess hfail htip
  rw [pageConfig, pageConfig, htitle, hsuccess, hfail, htip]

theorem claim_congr {s s' : Admin} (h : SamePublic s s') (body : JsVal) :
    FlCode.claim zod.codes body s.db = FlCode.claim zod.codes body s'.db := by
  have hsuccess := configOr_congr h (k := .successMsg) (by decide) "恭喜您，领取成功！"
  have htip := configOr_congr h (k := .usageTip) (by decide) "请在有效期内使用此码。"
  have hfail := configOr_congr h (k := .failMsg) (by decide)
    "抱歉，未找到您的福利码，请确认手机号是否正确。"
  simp only [Setting.key] at hsuccess htip hfail
  unfold FlCode.claim Db.getCodeByPhone
  rw [h.codes, hsuccess, htip, hfail]

/-- The code routes do the same to the same codes. -/
theorem samePublic_codes (zod : Zod) {s s' : Admin} (h : SamePublic s s') (now : String) (r : AdminRequest) :
    SamePublic ⟨(r.handle zod.codes now s.db).2, s.sessions⟩
        ⟨(r.handle zod.codes now s'.db).2, s'.sessions⟩ ∧
      (r.handle zod.codes now s.db).1 = (r.handle zod.codes now s'.db).1 := by
  have hdb : s.db = { s'.db with config := s.db.config } := by
    change s.db = ⟨s'.db.codes, s.db.config⟩
    rw [← h.codes]
  have hr := handle_config s.db.config s'.db zod.codes now r
  rw [← hdb] at hr
  have hc' : (r.handle zod.codes now s'.db).2.config = s'.db.config := config_codes now r s'.db
  rw [hr]
  refine ⟨⟨rfl, h.sessions, fun k hk => ?_⟩, rfl⟩
  unfold Db.getConfig
  rw [hc']
  exact h.settings k hk

theorem samePublic_configure (zod : Zod) {s s' : Admin} (h : SamePublic s s') (body : JsVal) :
    SamePublic ⟨(configure zod body s.db).2, s.sessions⟩ ⟨(configure zod body s'.db).2, s'.sessions⟩ ∧
      (configure zod body s.db).1 = (configure zod body s'.db).1 := by
  unfold configure updateConfig
  cases zod.config body with
  | error message => exact ⟨h, rfl⟩
  | ok b =>
    refine ⟨⟨h.codes, h.sessions, fun k hk => ?_⟩, rfl⟩
    change (s.db.setConfigs b.configs).getConfig k.key = (s'.db.setConfigs b.configs).getConfig k.key
    rw [getConfig_setConfigs, getConfig_setConfigs, h.settings k hk]

theorem samePublic_codesPage {s s' : Admin} (h : SamePublic s s') (query : CodesQuery) :
    SamePublic ⟨(codesPage query s.db).2, s.sessions⟩ ⟨(codesPage query s'.db).2, s'.sessions⟩ ∧
      (codesPage query s.db).1 = (codesPage query s'.db).1 := by
  have hlist : listCodes query s.db = listCodes query s'.db := by
    unfold listCodes Db.searchCodes Db.getAllCodes
    rw [h.codes]
  unfold codesPage
  rw [hlist]
  split <;> exact ⟨h, rfl⟩

theorem samePublic_serve (hz : zod.Checks) {s s' : Admin} {e : ServiceEvent} (h : SamePublic s s')
    (halike : LoginAlike s s' e) :
    SamePublic (serve zod s e).2 (serve zod s' e).2 ∧
      shown e (serve zod s e).1 = shown e (serve zod s' e).1 := by
  cases e with
  | restart =>
    refine ⟨⟨h.codes, rfl, fun k hk => ?_⟩, rfl⟩
    change (initDB s.db).getConfig k.key = (initDB s'.db).getConfig k.key
    rw [getConfig_initDB, getConfig_initDB, h.settings k hk]
  | request r clock now =>
    cases r with
    | login body draw =>
      obtain ⟨hrel, hsame⟩ := samePublic_login hz.login h halike draw clock
      exact ⟨hrel, congrArg some hsame⟩
    | logout token =>
      obtain ⟨hrel, hsame⟩ := samePublic_logout h token
      exact ⟨hrel, congrArg some hsame⟩
    | verify token =>
      obtain ⟨hrel, hsame⟩ := samePublic_guarded h verify id rfl h token clock
      exact ⟨hrel, congrArg some hsame⟩
    | settings token =>
      obtain ⟨hrel, hsame⟩ := samePublic_guarded h settings (fun r => ⟨r.status, []⟩) rfl h token clock
      exact ⟨hrel, congrArg some hsame⟩
    | configure token body =>
      obtain ⟨hnext, hbody⟩ := samePublic_configure zod h body
      obtain ⟨hrel, hsame⟩ := samePublic_guarded h _ id hbody hnext token clock
      exact ⟨hrel, congrArg some hsame⟩
    | listCodes token query =>
      obtain ⟨hnext, hbody⟩ := samePublic_codesPage h query
      obtain ⟨hrel, hsame⟩ := samePublic_guarded h _ id hbody hnext token clock
      exact ⟨hrel, congrArg some hsame⟩
    | codes token r =>
      obtain ⟨hnext, hbody⟩ := samePublic_codes zod h now r
      obtain ⟨hrel, hsame⟩ := samePublic_guarded h _ id hbody hnext token clock
      exact ⟨hrel, congrArg some hsame⟩
    | page => exact ⟨h, congrArg some (pageConfig_congr h)⟩
    | claim body => exact ⟨h, congrArg some (claim_congr h body)⟩

/-- As long as no login tells two services apart, no other request does: the answers do not depend
on the password. -/
theorem observed_eq_of_samePublic (hz : zod.Checks) {s s' : Admin} {es : List ServiceEvent}
    (h : SamePublic s s') (halike : AlongBoth (serve zod) LoginAlike s s' es) :
    observed (serve zod) shown s es = observed (serve zod) shown s' es :=
  observed_eq_of_lockstep (serve zod) SamePublic
    (fun _ _ _ hrel hok => samePublic_serve hz hrel hok) h halike

/-- The service with another password. -/
def secret : Admin := ⟨start.setConfigs [("admin_password", "secret")], fun _ => none⟩

def guess : JsVal := .obj [("password", .str "guess")]

theorem not_hasPassword_guess {p : String} (hp : "guess" ≠ p) : ¬ HasPassword guess p := by
  rintro ⟨_, hread⟩
  have he : guess.prop "password" = .ok (.str "guess") := rfl
  rw [he, Except.ok.injEq, JsVal.str.injEq] at hread
  exact hp hread

/-- A wrong guess, the page and a restart look the same whatever the password is. -/
theorem observed_guess :
    observed (serve plain) shown fresh [atNoon (.login guess "a"), atNoon .page, .restart] =
      observed (serve plain) shown secret [atNoon (.login guess "a"), atNoon .page, .restart] := by
  have hsame : SamePublic fresh secret := by
    refine ⟨rfl, rfl, fun k hk => ?_⟩
    cases k <;> first | rfl | exact absurd rfl hk
  refine observed_eq_of_samePublic plain_checks hsame ⟨?_, trivial, trivial, trivial⟩
  exact iff_of_false (not_hasPassword_guess (by decide)) (not_hasPassword_guess (by decide))

end JtfpMall.FlCode.Service
