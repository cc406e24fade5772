import JtfpMall.Server.Logins
import JtfpMall.Server.Runs

/-!
# Logins with one unionid

The account of an openid, once it is bound, stays. So whether two logins with one unionid meet in
one user is settled when the second comes: by the accounts of the two openids and by what the
identities have recorded.
-/

namespace JtfpMall

open JtfpMall.Js
open JtfpMall.Lib
open JtfpMall.Users (hasOpenid hasIdentity orNull)

/-- The answer of the WeChat service: the unionid it attaches to the openid, or none. -/
def Login.Answered (attached : LoginPath → String → String) (l : Login) : Prop :=
  ∀ w, l.unionid = some w → w = "" ∨ w = attached l.path l.openid

/-- The user the openid of the login is bound to. -/
def accountOf (s : Store) (l : Login) : Option JsVal :=
  match l.path with
  | .h5 => (s.findOne .users (hasOpenid l.openid)).map fun u => u.get "id"
  | .mini => (s.findOne .userIdentities (hasIdentity "wechat_mini" l.openid)).map
      fun i => i.get "user_id"

/-- The identity of the login has recorded a unionid. -/
def Recorded (s : Store) (l : Login) : Prop :=
  ∃ i, s.findOne .userIdentities (hasIdentity "wechat_mini" l.openid) = some i ∧
    i.get "unionid" ≠ .null

/-- The user the identities lead a login of the mini-program to. -/
def identityUser (s : Store) (l : Login) : Option JsVal :=
  match s.findOne .userIdentities (hasIdentity "wechat_mini" l.openid) with
  | some i => some (i.get "user_id")
  | none => (s.findOne .userIdentities (hasUnionid l)).map fun j => j.get "user_id"

/-- The H5 openid is the one under which the user of the mini-program login was made. -/
def MadeUnder (s : Store) (h5 mini : Login) : Prop :=
  ∃ u, s.findOne .users (hasOpenid h5.openid) = some u ∧ identityUser s mini = some (u.get "id")

/-- When a login that follows the login `a` comes to the same user, in the state it finds: both
have one openid, or both come over the mini-program and the unionid is recorded, or the openids of
the two paths are the same text. -/
inductive Links (s : Store) (a b : Login) : Prop where
  | same (hp : a.path = b.path) (ho : a.openid = b.openid)
  | recorded (ha : a.path = .mini) (hb : b.path = .mini) (hra : Recorded s a)
      (hrb : s.findOne .userIdentities (hasIdentity "wechat_mini" b.openid) = none ∨ Recorded s b)
  | h5First (ha : a.path = .h5) (hb : b.path = .mini) (hm : MadeUnder s a b)
  | miniFirst (ha : a.path = .mini) (hb : b.path = .h5) (hm : MadeUnder s b a)

/-- The accounts of a state that only logins have written: an identity without a unionid shares its
user with no identity that has one. -/
structure Bindings (attached : LoginPath → String → String) (s : Store) : Prop where
  accounts : Accounts attached s
  issued : Issued s.cache .users
  lonely : ∀ i ∈ s.cache.rows .userIdentities, ∀ j ∈ s.cache.rows .userIdentities,
    i.get "unionid" = .null → i.get "user_id" = j.get "user_id" →
      i.get "openid" = j.get "openid" ∧ j.get "unionid" = .null

section
variable {r r' : Row}

theorem SameColumns.get {columns : List String} (h : SameColumns columns r r') {k : String}
    (hk : columns.contains k = true) : r'.get k = r.get k := h k (by simpa using hk)

theorem hasOpenid_congr (h : SameColumns userColumns r r') (openid : String) :
    hasOpenid openid r = hasOpenid openid r' := by
  unfold hasOpenid
  rw [h.get (by decide)]

theorem hasIdentity_congr (h : SameColumns identityColumns r r') (openid : String) :
    hasIdentity "wechat_mini" openid r = hasIdentity "wechat_mini" openid r' := by
  unfold hasIdentity
  rw [h.get (by decide), h.get (by decide)]

theorem openid_of_hasOpenid {openid : String} (h : hasOpenid openid r = true) :
    r.get "openid" = .str openid := JsVal.eq_of_strictEq h

theorem openid_of_hasIdentity {openid : String} (h : hasIdentity "wechat_mini" openid r = true) :
    r.get "openid" = .str openid := by
  unfold hasIdentity at h
  rw [Bool.and_eq_true] at h
  exact JsVal.eq_of_strictEq h.2

theorem orNull_of_truthy {w : String} (h : w ≠ "") : orNull (some w) = .str w := by
  unfold orNull JsVal.or
  rw [if_pos (truthy_absent.mpr ⟨w, rfl, h⟩)]
  rfl

theorem orNull_of_not_truthy {v : Option String} (h : ¬(absent v).truthy = true) :
    orNull v = .null := by
  unfold orNull JsVal.or
  rw [if_neg h]

end

section
variable {attached : LoginPath → String → String} {s s' : Store} {l a b : Login} {id : ℕ}
  {us is : List Row}

theorem accountOf_persists (hg : AccountsGrow s s' us is) {v : JsVal}
    (h : accountOf s a = some v) : accountOf s' a = some v := by
  unfold accountOf at h ⊢
  split at h
  · rw [Option.map_eq_some_iff] at h ⊢
    obtain ⟨u, hu, rfl⟩ := h
    obtain ⟨u', hu', hsame⟩ := hg.users.find? (fun _ _ hr => hasOpenid_congr hr a.openid) hu
    exact ⟨u', hu', hsame.get (by decide)⟩
  · rw [Option.map_eq_some_iff] at h ⊢
    obtain ⟨i, hi, rfl⟩ := h
    obtain ⟨i', hi', hsame⟩ := hg.identities.find? (fun _ _ hr => hasIdentity_congr hr a.openid) hi
    exact ⟨i', hi', hsame.get (by decide)⟩

theorem accountOf_bound {i : Row} (hp : l.path = .mini)
    (hf : s.findOne .userIdentities (hasIdentity "wechat_mini" l.openid) = none)
    (hi : NewIdentity l id i) (hg : AccountsGrow s s' us [i]) :
    accountOf s' l = some (.num (.ofNat id)) := by
  have hfind := hg.identities.find?_of_none (fun _ _ hr => hasIdentity_congr hr l.openid) hf
  have hself : hasIdentity "wechat_mini" l.openid i = true := by
    unfold hasIdentity
    rw [hi.provider, hi.openid]
    simp [JsVal.strictEq]
  unfold accountOf Store.findOne Store.getTable
  rw [hp]
  dsimp only
  rw [hfind, List.find?_cons, hself]
  dsimp only
  rw [Option.map_some, hi.user]

/-- A login binds its openid to the user it returns. -/
theorem accountOf_login (hc : LoginCase s l id us is) (hg : AccountsGrow s s' us is) :
    accountOf s' l = some (.num (.ofNat id)) := by
  cases hc with
  | h5Known hp hf hid =>
    refine accountOf_persists hg ?_
    unfold accountOf
    rw [hp]
    dsimp only
    rw [hf, Option.map_some, hid]
  | @h5New u hp hf hu =>
    have hfind := hg.users.find?_of_none (fun _ _ hr => hasOpenid_congr hr l.openid) hf
    have hself : hasOpenid l.openid u = true := by
      unfold hasOpenid
      rw [hu.openid]
      simp [JsVal.strictEq]
    unfold accountOf Store.findOne Store.getTable
    rw [hp]
    dsimp only
    rw [hfind, List.find?_cons, hself]
    dsimp only
    rw [Option.map_some, hu.number]
  | known hp hf hid =>
    refine accountOf_persists hg ?_
    unfold accountOf
    rw [hp]
    dsimp only
    rw [hf, Option.map_some, hid]
  | linked hp hf hw hj hid hi => exact accountOf_bound hp hf hi hg
  | new hp hf hw hu hi => exact accountOf_bound hp hf hi hg

theorem mem_identities (hg : AccountsGrow s s' us is) {x : Row}
    (hx : x ∈ s'.cache.rows .userIdentities) :
    (∃ y ∈ s.cache.rows .userIdentities, SameColumns identityColumns y x) ∨ x ∈ is :=
  hg.identities.of_mem hx

/-- A user of before has its id afterwards. -/
theorem user_persists (hg : AccountsGrow s s' us is) {v : JsVal}
    (h : ∃ u ∈ s.cache.rows .users, v = u.get "id") : ∃ u ∈ s'.cache.rows .users, v = u.get "id" := by
  obtain ⟨u, hu, rfl⟩ := h
  obtain ⟨u', hu', hsame⟩ := hg.users.mem hu
  exact ⟨u', hu', (hsame.get (by decide)).symm⟩

/-- The user a login makes has an id of its own. -/
theorem new_user_ne {u x : Row} (hg : AccountsGrow s s' [u] is) (hi : Issued s'.cache .users)
    (hx : x ∈ s.cache.rows .users) : x.get "id" ≠ u.get "id" := by
  obtain ⟨old, hold, hsame⟩ := hg.users
  have hd := hi.distinct
  rw [hold, List.map_append, List.nodup_append] at hd
  obtain ⟨x', hx', hcols⟩ := exists_of_forall₂ hsame hx
  have hne := hd.2.2 (x'.get "id") (List.mem_map_of_mem hx') (u.get "id") (by simp)
  rwa [hcols.get (by decide)] at hne

theorem isUser_login (hc : LoginCase s l id us is) {u : Row} (hu : u ∈ us) : IsUser u := by
  cases hc with
  | h5New _ _ hn =>
    rw [List.mem_singleton.mp hu]
    exact ⟨id, l.openid, hn.positive, hn.number, hn.openid⟩
  | new _ _ _ hn _ =>
    rw [List.mem_singleton.mp hu]
    exact ⟨id, l.openid, hn.positive, hn.number, hn.openid⟩
  | h5Known => exact absurd hu List.not_mem_nil
  | known => exact absurd hu List.not_mem_nil
  | linked => exact absurd hu List.not_mem_nil

theorem newIdentity_unionid (ha : l.Answered attached) (hp : l.path = .mini) {i : Row}
    (hi : NewIdentity l id i) :
    i.get "unionid" = .null ∨ i.get "unionid" = .str (attached .mini l.openid) := by
  rw [hi.unionid]
  by_cases hw : (absent l.unionid).truthy = true
  · obtain ⟨w, hl, hne⟩ := truthy_absent.mp hw
    right
    rw [hl, orNull_of_truthy hne]
    rcases ha w hl with hempty | hattached
    · exact absurd hempty hne
    · rw [hattached, hp]
  · exact Or.inl (orNull_of_not_truthy hw)

theorem unionid_of_hasUnionid {j : Row} {w : String} (hw : l.unionid = some w) :
    hasUnionid l j = true ↔ j.get "unionid" = .str w := by
  unfold hasUnionid
  rw [hw]
  constructor
  · exact fun h => JsVal.eq_of_strictEq h
  · intro h
    rw [h]
    simp [absent, JsVal.strictEq]

/-- The identity a login binds: to the user of one that has recorded its unionid, or to a user it
makes when there is none. -/
theorem new_identity (hc : LoginCase s l id us is) {x : Row} (hx : x ∈ is) :
    is = [x] ∧ l.path = .mini ∧ NewIdentity l id x ∧
      ((∃ j w, s.findOne .userIdentities (hasUnionid l) = some j ∧ l.unionid = some w ∧ w ≠ "" ∧
          j.get "user_id" = .num (.ofNat id)) ∨
        ∃ u, us = [u] ∧ NewUser l id u ∧ ((absent l.unionid).truthy = true →
          s.findOne .userIdentities (hasUnionid l) = none)) := by
  cases hc with
  | h5Known => exact absurd hx List.not_mem_nil
  | h5New => exact absurd hx List.not_mem_nil
  | known => exact absurd hx List.not_mem_nil
  | linked hp hf hw hj hid hi =>
    obtain ⟨w, hl, hne⟩ := truthy_absent.mp hw
    rw [List.mem_singleton.mp hx]
    exact ⟨rfl, hp, hi, Or.inl ⟨_, w, hj, hl, hne, hid⟩⟩
  | new hp hf hw hu hi =>
    rw [List.mem_singleton.mp hx]
    exact ⟨rfl, hp, hi, Or.inr ⟨_, rfl, hu, hw⟩⟩

/-- An identity of before with the unionid of a new one has its user. -/
theorem user_of_recorded (h : Bindings attached s) (hc : LoginCase s l id us is) {x y : Row}
    (hx : x ∈ is) (hy : y ∈ s.cache.rows .userIdentities) {w : String}
    (hxw : x.get "unionid" = .str w) (hyw : y.get "unionid" = .str w) :
    y.get "user_id" = .num (.ofNat id) := by
  obtain ⟨_, _, hi, hcase⟩ := new_identity hc hx
  have hl : l.unionid = some w ∧ w ≠ "" := by
    rw [hi.unionid] at hxw
    by_cases hw : (absent l.unionid).truthy = true
    · obtain ⟨w', hl, hne⟩ := truthy_absent.mp hw
      rw [hl, orNull_of_truthy hne, JsVal.str.injEq] at hxw
      exact ⟨hxw ▸ hl, hxw ▸ hne⟩
    · rw [orNull_of_not_truthy hw] at hxw
      cases hxw
  obtain ⟨j, _, hj, _, _, hid⟩ | ⟨_, _, _, hno⟩ := hcase
  · obtain ⟨hjm, hjw⟩ := mem_of_findOne hj
    have hjw := (unionid_of_hasUnionid hl.1).mp hjw
    exact (h.accounts.linked y hy j hjm w hyw hjw).trans hid
  · have hnone := hno (truthy_absent.mpr ⟨w, hl⟩)
    have hnot := List.find?_eq_none.mp hnone y hy
    exact absurd ((unionid_of_hasUnionid hl.1).mpr hyw) hnot

/-- An identity of before without a unionid is not bound to the user of a new one. -/
theorem user_of_lonely (h : Bindings attached s) (hc : LoginCase s l id us is)
    (hg : AccountsGrow s s' us is) (hi : Issued s'.cache .users) {x y : Row} (hx : x ∈ is)
    (hy : y ∈ s.cache.rows .userIdentities) (hnull : y.get "unionid" = .null ∨ x.get "unionid" = .null) :
    y.get "user_id" ≠ .num (.ofNat id) := by
  obtain ⟨_, _, hxi, hcase⟩ := new_identity hc hx
  intro hid
  obtain ⟨j, w, hj, hl, hne, hjid⟩ | ⟨u, rfl, hu, _⟩ := hcase
  · obtain ⟨hjm, hjw⟩ := mem_of_findOne hj
    have hjw := (unionid_of_hasUnionid hl).mp hjw
    rcases hnull with hnull | hnull
    · have hjnull := (h.lonely y hy j hjm hnull (hid.trans hjid.symm)).2
      rw [hjw] at hjnull
      cases hjnull
    · rw [hxi.unionid, hl, orNull_of_truthy hne] at hnull
      cases hnull
  · obtain ⟨_, _, _, _, v, hv, hvid⟩ := h.accounts.identities y hy
    refine new_user_ne hg hi hv ?_
    rw [← hvid, hid, hu.number]

theorem accounts_login (h : Bindings attached s) (ha : l.Answered attached)
    (hc : LoginCase s l id us is) (hg : AccountsGrow s s' us is) : Accounts attached s' where
  users := fun u hu => by
    rcases hg.users.of_mem hu with ⟨v, hv, hsame⟩ | hnew
    · obtain ⟨n, openid, hpos, hn, ho⟩ := h.accounts.users v hv
      exact ⟨n, openid, hpos, (hsame.get (by decide)).trans hn, (hsame.get (by decide)).trans ho⟩
    · exact isUser_login hc hnew
  identities := fun x hx => by
    rcases mem_identities hg hx with ⟨y, hy, hsame⟩ | hnew
    · obtain ⟨openid, hprovider, ho, hw, hu⟩ := h.accounts.identities y hy
      refine ⟨openid, (hsame.get (by decide)).trans hprovider, (hsame.get (by decide)).trans ho, ?_, ?_⟩
      · rw [hsame.get (by decide)]
        exact hw
      · rw [hsame.get (by decide)]
        exact user_persists hg hu
    · obtain ⟨_, hp, hi, hcase⟩ := new_identity hc hnew
      refine ⟨l.openid, hi.provider, hi.openid, newIdentity_unionid ha hp hi, ?_⟩
      rw [hi.user]
      obtain ⟨j, _, hj, _, _, hid⟩ | ⟨u, rfl, hu, _⟩ := hcase
      · obtain ⟨_, _, _, _, hu⟩ := h.accounts.identities j (mem_of_findOne hj).1
        rw [hid] at hu
        exact user_persists hg hu
      · obtain ⟨old, hold, _⟩ := hg.users
        exact ⟨u, hold ▸ List.mem_append_right _ (List.mem_singleton_self _), hu.number.symm⟩
  linked := fun x hx y hy w hxw hyw => by
    rcases mem_identities hg hx with ⟨x', hx', hxs⟩ | hxn
    · rw [hxs.get (by decide)] at hxw
      rw [hxs.get (by decide)]
      rcases mem_identities hg hy with ⟨y', hy', hys⟩ | hyn
      · rw [hys.get (by decide)] at hyw
        rw [hys.get (by decide)]
        exact h.accounts.linked x' hx' y' hy' w hxw hyw
      · rw [(new_identity hc hyn).2.2.1.user]
        exact user_of_recorded h hc hyn hx' hyw hxw
    · rw [(new_identity hc hxn).2.2.1.user]
      rcases mem_identities hg hy with ⟨y', hy', hys⟩ | hyn
      · rw [hys.get (by decide)] at hyw
        rw [hys.get (by decide)]
        exact (user_of_recorded h hc hxn hy' hxw hyw).symm
      · exact (new_identity hc hyn).2.2.1.user.symm

/-- A login keeps what the bindings are. -/
theorem bindings_login (h : Bindings attached s) (ha : l.Answered attached)
    (hc : LoginCase s l id us is) (hg : AccountsGrow s s' us is) (hi : Issued s'.cache .users) :
    Bindings attached s' := by
  refine ⟨accounts_login h ha hc hg, hi, fun x hx y hy hnull hsame => ?_⟩
  rcases mem_identities hg hx with ⟨x', hx', hxs⟩ | hxn
  · rw [hxs.get (by decide)] at hnull hsame
    rw [hxs.get (by decide)]
    rcases mem_identities hg hy with ⟨y', hy', hys⟩ | hyn
    · rw [hys.get (by decide)] at hsame
      rw [hys.get (by decide), hys.get (by decide)]
      exact h.lonely x' hx' y' hy' hnull hsame
    · rw [(new_identity hc hyn).2.2.1.user] at hsame
      exact absurd hsame (user_of_lonely h hc hg hi hyn hx' (Or.inl hnull))
  · obtain ⟨honly, _, hxi, _⟩ := new_identity hc hxn
    rcases mem_identities hg hy with ⟨y', hy', hys⟩ | hyn
    · rw [hys.get (by decide), hxi.user] at hsame
      exact absurd hsame.symm (user_of_lonely h hc hg hi hxn hy' (Or.inr hnull))
    · rw [honly, List.mem_singleton] at hyn
      subst hyn
      exact ⟨rfl, hnull⟩

theorem account_h5 (hp : a.path = .h5) {v : JsVal} (h : accountOf s a = some v) :
    ∃ u, s.findOne .users (hasOpenid a.openid) = some u ∧ u.get "id" = v := by
  unfold accountOf at h
  rw [hp] at h
  exact Option.map_eq_some_iff.mp h

theorem account_mini (hp : a.path = .mini) {v : JsVal} (h : accountOf s a = some v) :
    ∃ x, s.findOne .userIdentities (hasIdentity "wechat_mini" a.openid) = some x ∧
      x.get "user_id" = v := by
  unfold accountOf at h
  rw [hp] at h
  exact Option.map_eq_some_iff.mp h

theorem identityUser_of_some {x : Row}
    (h : s.findOne .userIdentities (hasIdentity "wechat_mini" a.openid) = some x) :
    identityUser s a = some (x.get "user_id") := by
  unfold identityUser
  rw [h]

theorem identityUser_of_none
    (h : s.findOne .userIdentities (hasIdentity "wechat_mini" a.openid) = none) :
    identityUser s a = (s.findOne .userIdentities (hasUnionid a)).map fun j => j.get "user_id" := by
  unfold identityUser
  rw [h]

/-- What an identity has recorded is the unionid its openid answers with. -/
theorem unionid_of_recorded (h : Bindings attached s) (ha : a.Answered attached) {w : String}
    (haw : a.unionid = some w) (hw : w ≠ "") (hp : a.path = .mini) {x : Row}
    (hx : s.findOne .userIdentities (hasIdentity "wechat_mini" a.openid) = some x)
    (hr : x.get "unionid" ≠ .null) : x.get "unionid" = .str w := by
  obtain ⟨hmem, hid⟩ := mem_of_findOne hx
  obtain ⟨openid, _, ho, hu, _⟩ := h.accounts.identities x hmem
  rw [openid_of_hasIdentity hid, JsVal.str.injEq] at ho
  rcases hu with hu | hu
  · exact absurd hu hr
  · rcases ha w haw with hempty | hattached
    · exact absurd hempty hw
    · rw [hu, ← ho, hattached, hp]

/-- The user of an identity is one of the users. -/
theorem identity_user_mem (h : Bindings attached s) {x : Row}
    (hx : x ∈ s.cache.rows .userIdentities) :
    ∃ u ∈ s.cache.rows .users, x.get "user_id" = u.get "id" := by
  obtain ⟨_, _, _, _, hu⟩ := h.accounts.identities x hx
  exact hu

variable {i j : ℕ} {w : String}

/-- After a login over H5. -/
theorem links_of_h5 (h : Bindings attached s) (hp : a.path = .h5)
    (hacc : accountOf s a = some (.num (.ofNat i))) (hbw : b.unionid = some w) (hw : w ≠ "")
    (hc : LoginCase s b j us is) (hg : AccountsGrow s s' us is) (hi : Issued s'.cache .users) :
    i = j ↔ Links s a b := by
  obtain ⟨u, hu, hid⟩ := account_h5 hp hacc
  obtain ⟨hmem, hopen⟩ := mem_of_findOne hu
  have hnotMini : a.path ≠ .mini := fun hm => LoginPath.noConfusion (hp.symm.trans hm)
  cases hc with
  | @h5Known v hpb hf hidb =>
    constructor
    · rintro rfl
      obtain ⟨hvmem, hvopen⟩ := mem_of_findOne hf
      have he : u = v := h.issued.eq_of_get hvmem hmem (hid.trans hidb.symm)
      have ho := (openid_of_hasOpenid hopen).symm.trans (he ▸ openid_of_hasOpenid hvopen)
      exact .same (hp.trans hpb.symm) (JsVal.str.inj ho)
    · intro hl
      cases hl with
      | same _ ho =>
        rw [ho, hf, Option.some.injEq] at hu
        rw [← hu, hidb] at hid
        simpa using hid.symm
      | recorded ha => exact absurd ha hnotMini
      | h5First _ hb => exact absurd (hpb.symm.trans hb) (by decide)
      | miniFirst ha => exact absurd ha hnotMini
  | @h5New v hpb hf hn =>
    constructor
    · rintro rfl
      exact absurd (hid.trans hn.number.symm) (new_user_ne hg hi hmem)
    · intro hl
      cases hl with
      | same _ ho =>
        rw [ho, hf] at hu
        cases hu
      | recorded ha => exact absurd ha hnotMini
      | h5First _ hb => exact absurd (hpb.symm.trans hb) (by decide)
      | miniFirst ha => exact absurd ha hnotMini
  | @known y hpb hf hidb =>
    constructor
    · rintro rfl
      exact .h5First hp hpb ⟨u, hu, by rw [identityUser_of_some hf, hid, hidb]⟩
    · intro hl
      cases hl with
      | same hab => exact absurd (hp.symm.trans (hab.trans hpb)) (by decide)
      | recorded ha => exact absurd ha hnotMini
      | h5First _ _ hm =>
        obtain ⟨u', hu', hm⟩ := hm
        rw [hu, Option.some.injEq] at hu'
        rw [identityUser_of_some hf, ← hu', hid, hidb] at hm
        simpa using hm.symm
      | miniFirst ha => exact absurd ha hnotMini
  | @linked y k hpb hf hwb hj hidb hn =>
    have huser : identityUser s b = some (.num (.ofNat j)) := by
      rw [identityUser_of_none hf, hj, Option.map_some, hidb]
    constructor
    · rintro rfl
      exact .h5First hp hpb ⟨u, hu, by rw [huser, hid]⟩
    · intro hl
      cases hl with
      | same hab => exact absurd (hp.symm.trans (hab.trans hpb)) (by decide)
      | recorded ha => exact absurd ha hnotMini
      | h5First _ _ hm =>
        obtain ⟨u', hu', hm⟩ := hm
        rw [hu, Option.some.injEq] at hu'
        rw [huser, ← hu', hid] at hm
        simpa using hm.symm
      | miniFirst ha => exact absurd ha hnotMini
  | @new v y hpb hf hwb hv hn =>
    constructor
    · rintro rfl
      exact absurd (hid.trans hv.number.symm) (new_user_ne hg hi hmem)
    · intro hl
      cases hl with
      | same hab => exact absurd (hp.symm.trans (hab.trans hpb)) (by decide)
      | recorded ha => exact absurd ha hnotMini
      | h5First _ _ hm =>
        obtain ⟨_, _, hm⟩ := hm
        rw [identityUser_of_none hf, hwb (truthy_absent.mpr ⟨w, hbw, hw⟩)] at hm
        cases hm
      | miniFirst ha => exact absurd ha hnotMini

/-- After a login over the mini-program. -/
theorem links_of_mini (h : Bindings attached s) (ha : a.Answered attached) (hb : b.Answered attached)
    (hp : a.path = .mini) (hacc : accountOf s a = some (.num (.ofNat i))) (haw : a.unionid = some w)
    (hbw : b.unionid = some w) (hw : w ≠ "") (hc : LoginCase s b j us is)
    (hg : AccountsGrow s s' us is) (hi : Issued s'.cache .users) : i = j ↔ Links s a b := by
  obtain ⟨x, hx, hid⟩ := account_mini hp hacc
  obtain ⟨hmem, hopen⟩ := mem_of_findOne hx
  obtain ⟨v, hv, hvid⟩ := identity_user_mem h hmem
  have hnotH5 : a.path ≠ .h5 := fun hm => LoginPath.noConfusion (hp.symm.trans hm)
  have hrecorded : ∀ y, s.findOne .userIdentities (hasIdentity "wechat_mini" a.openid) = some y →
      y.get "unionid" ≠ .null → x.get "unionid" = .str w := by
    intro y hy hne
    rw [hx, Option.some.injEq] at hy
    subst hy
    exact unionid_of_recorded h ha haw hw hp hx hne
  cases hc with
  | @h5Known u hpb hf hidb =>
    constructor
    · rintro rfl
      exact .miniFirst hp hpb ⟨u, hf, by rw [identityUser_of_some hx, hid, hidb]⟩
    · intro hl
      cases hl with
      | same hab => exact absurd (hp.symm.trans (hab.trans hpb)) (by decide)
      | recorded _ hb => exact absurd (hpb.symm.trans hb) (by decide)
      | h5First ha => exact absurd ha hnotH5
      | miniFirst _ _ hm =>
        obtain ⟨u', hu', hm⟩ := hm
        rw [hf, Option.some.injEq] at hu'
        rw [identityUser_of_some hx, ← hu', hid, hidb] at hm
        simpa using hm
  | @h5New u hpb hf hn =>
    constructor
    · rintro rfl
      exact absurd (hvid.symm.trans (hid.trans hn.number.symm)) (new_user_ne hg hi hv)
    · intro hl
      cases hl with
      | same hab => exact absurd (hp.symm.trans (hab.trans hpb)) (by decide)
      | recorded _ hb => exact absurd (hpb.symm.trans hb) (by decide)
      | h5First ha => exact absurd ha hnotH5
      | miniFirst _ _ hm =>
        obtain ⟨u', hu', _⟩ := hm
        rw [hf] at hu'
        cases hu'
  | @known y hpb hf hidb =>
    obtain ⟨hymem, hyopen⟩ := mem_of_findOne hf
    constructor
    · rintro rfl
      by_cases ho : a.openid = b.openid
      · exact .same (hp.trans hpb.symm) ho
      · -- an identity that has recorded nothing shares its user with no other
        have hxy : x.get "openid" ≠ y.get "openid" := by
          rw [openid_of_hasIdentity hopen, openid_of_hasIdentity hyopen]
          exact fun he => ho (JsVal.str.inj he)
        have hsame : x.get "user_id" = y.get "user_id" := hid.trans hidb.symm
        refine .recorded hp hpb ⟨x, hx, fun hnull => ?_⟩ (Or.inr ⟨y, hf, fun hnull => ?_⟩)
        · exact hxy (h.lonely x hmem y hymem hnull hsame).1
        · exact hxy (h.lonely y hymem x hmem hnull hsame.symm).1.symm
    · intro hl
      cases hl with
      | same _ ho =>
        rw [ho, hf, Option.some.injEq] at hx
        rw [← hx, hidb] at hid
        simpa using hid.symm
      | recorded _ _ hra hrb =>
        obtain ⟨x', hx', hne⟩ := hra
        have hxw := hrecorded x' hx' hne
        rcases hrb with hnone | ⟨y', hy', hyne⟩
        · rw [hf] at hnone
          cases hnone
        · rw [hf, Option.some.injEq] at hy'
          subst hy'
          have hyw := unionid_of_recorded h hb hbw hw hpb hf hyne
          have hsame := h.accounts.linked x hmem y hymem w hxw hyw
          rw [hid, hidb] at hsame
          simpa using hsame
      | h5First ha => exact absurd ha hnotH5
      | miniFirst _ hb => exact absurd (hpb.symm.trans hb) (by decide)
  | @linked y k hpb hf hwb hj hidb hn =>
    obtain ⟨hkmem, hkw⟩ := mem_of_findOne hj
    have hkw := (unionid_of_hasUnionid hbw).mp hkw
    constructor
    · rintro rfl
      refine .recorded hp hpb ⟨x, hx, fun hnull => ?_⟩ (Or.inl hf)
      have hknull := (h.lonely x hmem k hkmem hnull (hid.trans hidb.symm)).2
      rw [hkw] at hknull
      cases hknull
    · intro hl
      cases hl with
      | same _ ho =>
        rw [ho, hf] at hx
        cases hx
      | recorded _ _ hra _ =>
        obtain ⟨x', hx', hne⟩ := hra
        have hsame := h.accounts.linked x hmem k hkmem w (hrecorded x' hx' hne) hkw
        rw [hid, hidb] at hsame
        simpa using hsame
      | h5First ha => exact absurd ha hnotH5
      | miniFirst _ hb => exact absurd (hpb.symm.trans hb) (by decide)
  | @new u y hpb hf hwb hu hn =>
    constructor
    · rintro rfl
      exact absurd (hvid.symm.trans (hid.trans hu.number.symm)) (new_user_ne hg hi hv)
    · intro hl
      cases hl with
      | same _ ho =>
        rw [ho, hf] at hx
        cases hx
      | recorded _ _ hra _ =>
        obtain ⟨x', hx', hne⟩ := hra
        have hno := List.find?_eq_none.mp (hwb (truthy_absent.mpr ⟨w, hbw, hw⟩)) x hmem
        exact absurd ((unionid_of_hasUnionid hbw).mpr (hrecorded x' hx' hne)) hno
      | h5First ha => exact absurd ha hnotH5
      | miniFirst _ hb => exact absurd (hpb.symm.trans hb) (by decide)

end

/-- The store after the logins, one after another. -/
def logins (env : Env) (es : List (Login × Moment)) (s : Store) : Store :=
  es.foldl (fun s e => Server.serve env e.1.request e.2 s) s

/-- The login that bound the openid, the first that carried it, came without a unionid. -/
def BoundWithout (es : List (Login × Moment)) (l : Login) : Prop :=
  ∃ e, es.find? (fun e => decide (e.1.path = l.path ∧ e.1.openid = l.openid)) = some e ∧
    ¬(absent e.1.unionid).truthy = true

/-- A login without a unionid has bound the two openids to different users. -/
def BoundApart (es : List (Login × Moment)) (s : Store) (a b : Login) : Prop :=
  (BoundWithout es a ∨ BoundWithout es b) ∧
    ∃ u v, accountOf s a = some u ∧ accountOf s b = some v ∧ u ≠ v

section
variable (env : Env) {attached : LoginPath → String → String} {s : Store} {l : Login}

/-- A login succeeds, in one of the five ways, and keeps what the bindings are. -/
theorem login_step (h : Bindings attached s) (ha : l.Answered attached) (at_ : Moment) :
    ∃ id us is, LoggedInAs env at_ s l id ∧ LoginCase s l id us is ∧
      AccountsGrow s (Server.serve env l.request at_ s) us is ∧
      Bindings attached (Server.serve env l.request at_ s) := by
  obtain ⟨id, user, s', us, is, hrun, hid, hc, hg⟩ := login_cases (l := l) at_ h.accounts
  obtain ⟨hlogged, hserve⟩ := loggedInAs_of_run env hrun hid
  have hissued : Issued (Server.serve env l.request at_ s).cache .users := by
    refine Server.issued_serve h.issued (fun _ => ?_) at_
    unfold Login.request
    cases l.path <;> trivial
  rw [hserve] at hissued ⊢
  exact ⟨id, us, is, hlogged, hc, hg, bindings_login h ha hc hg hissued⟩

theorem bindings_start (attached : LoginPath → String → String) (loadedAt : String)
    (clock : ℕ → String) : Bindings attached (Server.start loadedAt clock .empty) := by
  have hempty : ∀ t, t ≠ .categories → t ≠ .admins →
      (Server.start loadedAt clock .empty).cache.rows t = [] := fun t hc ha =>
    rows_initDefaultData_of_ne (s := Store.loadData loadedAt (clock 0) .empty) hc ha _
  have husers := hempty .users (by decide) (by decide)
  have hidentities := hempty .userIdentities (by decide) (by decide)
  refine ⟨⟨?_, ?_, ?_⟩, issued_start loadedAt clock .users, ?_⟩
  · rw [husers]
    exact fun u hu => absurd hu List.not_mem_nil
  all_goals
    rw [hidentities]
    exact fun i hi => absurd hi List.not_mem_nil

/-- The bindings after any sequence of logins; an account of before is still there. -/
theorem bindings_logins (h : Bindings attached s) {es : List (Login × Moment)}
    (hes : ∀ e ∈ es, e.1.Answered attached) : Bindings attached (logins env es s) ∧
      ∀ l v, accountOf s l = some v → accountOf (logins env es s) l = some v := by
  induction es generalizing s with
  | nil => exact ⟨h, fun _ _ hv => hv⟩
  | cons e es ih =>
    obtain ⟨_, us, is, _, _, hg, hb⟩ := login_step env h (hes e List.mem_cons_self) e.2
    obtain ⟨hend, hkeep⟩ := ih hb fun e' he' => hes e' (List.mem_cons_of_mem e he')
    exact ⟨hend, fun l v hv => hkeep l v (accountOf_persists hg hv)⟩

/-- A later login comes to the user of an earlier one with its unionid exactly when the state it
finds links the two. -/
theorem links_of_login {a b : Login} {i : ℕ} {w : String} (h : Bindings attached s)
    (ha : a.Answered attached) (hb : b.Answered attached) (haw : a.unionid = some w)
    (hbw : b.unionid = some w) (hw : w ≠ "") (hacc : accountOf s a = some (.num (.ofNat i)))
    (at_ : Moment) : ∃ j, LoggedInAs env at_ s b j ∧ (i = j ↔ Links s a b) := by
  obtain ⟨j, us, is, hlogged, hc, hg, hend⟩ := login_step env h hb at_
  refine ⟨j, hlogged, ?_⟩
  cases hp : a.path with
  | h5 => exact links_of_h5 h hp hacc hbw hw hc hg hend.issued
  | mini => exact links_of_mini h ha hb hp hacc haw hbw hw hc hg hend.issued

/-- Two logins of a sequence carry one unionid. They return one user, unless a login without a
unionid had bound their openids apart, exactly when it had or when the state that the second finds
links them. -/
theorem logins_meet_iff {es fs : List (Login × Moment)} {a b : Login} {w : String}
    (hes : ∀ e ∈ es, e.1.Answered attached) (ha : a.Answered attached)
    (hfs : ∀ e ∈ fs, e.1.Answered attached) (hb : b.Answered attached) (haw : a.unionid = some w)
    (hbw : b.unionid = some w) (hw : w ≠ "") (at_ at' : Moment) (loadedAt : String)
    (clock : ℕ → String) :
    let before := logins env es (Server.start loadedAt clock .empty)
    let between := logins env (es ++ (a, at_) :: fs) (Server.start loadedAt clock .empty)
    ∃ i j, LoggedInAs env at_ before a i ∧ LoggedInAs env at' between b j ∧
      ((¬BoundApart (es ++ (a, at_) :: fs) between a b → i = j) ↔
        BoundApart (es ++ (a, at_) :: fs) between a b ∨ Links between a b) := by
  intro before between
  have hbefore : Bindings attached before :=
    (bindings_logins env (bindings_start attached loadedAt clock) hes).1
  obtain ⟨i, us, is, hlogged, hc, hg, hafter⟩ := login_step env hbefore ha at_
  have hbetween : between = logins env fs (Server.serve env a.request at_ before) := by
    change List.foldl _ _ _ = List.foldl _ _ _
    rw [List.foldl_append]
    rfl
  obtain ⟨hbind, hkeep⟩ := bindings_logins env hafter hfs
  rw [← hbetween] at hbind hkeep
  have hacc := hkeep a _ (accountOf_login hc hg)
  obtain ⟨j, hlogged', hlinks⟩ := links_of_login env hbind ha hb haw hbw hw hacc at'
  refine ⟨i, j, hlogged, hlogged', ?_⟩
  rw [hlinks]
  tauto

end

/-- Two openids of the mini-program answer with one unionid: the second finds the user of the
first. -/
theorem logins_meet_recorded :
    let a : Login := ⟨.mini, "m1", some "w", "k"⟩
    let b : Login := ⟨.mini, "m2", some "w", "k"⟩
    let s := Server.start "t0" (fun _ => "t1") .empty
    ∃ i, LoggedInAs .plain (Server.moment "t2") s a i ∧
      LoggedInAs .plain (Server.moment "t3") (logins .plain [(a, Server.moment "t2")] s) b i := by
  intro a b s
  have hnone : ∀ e ∈ ([] : List (Login × Moment)), e.1.Answered fun _ _ => "w" :=
    fun e he => absurd he List.not_mem_nil
  have hanswered : ∀ l : Login, l.unionid = some "w" → l.Answered fun _ _ => "w" :=
    fun l hl w hw => Or.inr (Option.some.inj (hw.symm.trans hl))
  obtain ⟨i, j, hi, hj, hmeet⟩ := logins_meet_iff .plain (a := a) (b := b) hnone
    (hanswered a rfl) hnone (hanswered b rfl) rfl rfl (by decide) (Server.moment "t2")
    (Server.moment "t3") "t0" fun _ => "t1"
  have hlinks : Links (logins .plain [(a, Server.moment "t2")] s) a b :=
    .recorded rfl rfl ⟨_, rfl, by decide⟩ (Or.inl rfl)
  have hapart : ¬BoundApart [(a, Server.moment "t2")] (logins .plain [(a, Server.moment "t2")] s) a b := by
    rintro ⟨⟨e, he, hw⟩ | ⟨e, he, hw⟩, _⟩
    · cases he
      exact hw rfl
    · cases he
  exact ⟨i, hi, hmeet.mpr (Or.inr hlinks) hapart ▸ hj⟩

/-- Over H5 and then over the mini-program, with one unionid and no login before: two users. -/
theorem login_paths_split :
    let attached : LoginPath → String → String := fun _ _ => "w"
    let a : Login := ⟨.h5, "h", some "w", "k"⟩
    let b : Login := ⟨.mini, "m", some "w", "k"⟩
    let s := Server.start "t0" (fun _ => "t1") .empty
    let t := logins .plain [(a, Server.moment "t2")] s
    a.Answered attached ∧ b.Answered attached ∧ a.unionid = b.unionid ∧
      LoggedInAs .plain (Server.moment "t2") s a 1 ∧ LoggedInAs .plain (Server.moment "t3") t b 2 ∧
      ¬BoundApart [(a, Server.moment "t2")] t a b := by
  intro attached a b s t
  have hanswered : ∀ l : Login, l.unionid = some "w" → l.Answered attached :=
    fun l hl w hw => Or.inr (Option.some.inj (hw.symm.trans hl))
  refine ⟨hanswered a rfl, hanswered b rfl, rfl, by decide, by decide +kernel, ?_⟩
  · rintro ⟨⟨e, he, hw⟩ | ⟨e, he, hw⟩, _⟩
    · cases he
      exact hw rfl
    · cases he

end JtfpMall
