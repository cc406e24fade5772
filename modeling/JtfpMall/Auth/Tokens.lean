import JtfpMall.Auth.Jwt

/-!
# The tokens that are valid

A token `signJwt` writes is valid for its lifetime and gives its payload back. What `verifyJwt`
takes for valid is more than that: it looks at no part behind the third, asks for no object, and
reads an `exp` of 0 as none.
-/

namespace JtfpMall.Jwt

open JtfpMall.Js
open JtfpMall.Lib

/-- A digit of base64url goes back to the digit it stands for, and is no dot. -/
theorem urlSafe_digit : ∀ n < 64, standard (urlSafe [Base64.digit n]) = [Base64.digit n] ∧
    '.' ∉ urlSafe [Base64.digit n] ∧ urlSafe [Base64.digit n] ≠ [] := by decide

theorem urlSafe_append (cs ds : List Char) : urlSafe (cs ++ ds) = urlSafe cs ++ urlSafe ds := by
  simp [urlSafe]

theorem standard_append (cs ds : List Char) : standard (cs ++ ds) = standard cs ++ standard ds := by
  simp [standard]

theorem urlSafe_encode (bytes : List UInt8) :
    urlSafe (Base64.encode bytes) = urlSafe ((Base64.sixBits bytes).map Base64.digit) := by
  unfold urlSafe
  rw [← Base64.filter_encode, List.filter_filter]
  simp

theorem standard_urlSafe {ns : List ℕ} (h : ∀ n ∈ ns, n < 64) :
    standard (urlSafe (ns.map Base64.digit)) = ns.map Base64.digit := by
  induction ns with
  | nil => rfl
  | cons n ns ih =>
    rw [List.map_cons, ← List.singleton_append, urlSafe_append, standard_append,
      (urlSafe_digit n (h n List.mem_cons_self)).1, ih fun m hm => h m (List.mem_cons_of_mem n hm)]

theorem dot_not_mem_urlSafe {ns : List ℕ} (h : ∀ n ∈ ns, n < 64) :
    '.' ∉ urlSafe (ns.map Base64.digit) := by
  induction ns with
  | nil => exact fun h => nomatch h
  | cons n ns ih =>
    rw [List.map_cons, ← List.singleton_append, urlSafe_append, List.mem_append, not_or]
    exact ⟨(urlSafe_digit n (h n List.mem_cons_self)).2.1,
      ih fun m hm => h m (List.mem_cons_of_mem n hm)⟩

theorem dot_not_mem_base64url (bytes : List UInt8) : '.' ∉ (base64url bytes).toList := by
  unfold base64url
  rw [String.toList_ofList, urlSafe_encode]
  exact dot_not_mem_urlSafe (Base64.lt_of_mem_sixBits bytes)

theorem base64url_ne_nil {bytes : List UInt8} (h : bytes ≠ []) :
    (base64url bytes).toList ≠ [] := by
  unfold base64url
  rw [String.toList_ofList, urlSafe_encode]
  cases hn : Base64.sixBits bytes with
  | nil =>
    have hback := Base64.joined_sixBits bytes
    rw [hn] at hback
    exact absurd hback.symm h
  | cons n ns =>
    have hlt : n < 64 := Base64.lt_of_mem_sixBits bytes n (by rw [hn]; exact List.mem_cons_self)
    rw [List.map_cons, ← List.singleton_append, urlSafe_append]
    exact fun h => (urlSafe_digit n hlt).2.2 (List.append_eq_nil_iff.mp h).1

/-- The digits of base64url are read as the bytes they come from, at every length. -/
theorem decode_base64url (bytes : List UInt8) :
    Base64.decode (standard (base64url bytes).toList) = bytes := by
  unfold base64url
  rw [String.toList_ofList, urlSafe_encode, standard_urlSafe (Base64.lt_of_mem_sixBits bytes),
    Base64.decode_digits]

theorem utf8_ne_nil {s : String} (h : s ≠ "") : Utf8.encode s ≠ [] := by
  intro hnil
  have hback := Utf8.decode_encode s
  rw [hnil] at hback
  exact h hback.symm

section
variable (hmac : String → String → Digest) (jwtSecret : String)

theorem signature_ne_nil (data : String) : (signature hmac jwtSecret data).toList ≠ [] :=
  base64url_ne_nil (hmac jwtSecret data).property

theorem encoded_ne_nil (fs : List (String × JsVal)) : (encoded (.obj fs)).toList ≠ [] := by
  refine base64url_ne_nil (utf8_ne_nil ?_)
  rw [ne_eq, String.ofList_eq_empty_iff, Json.chars]
  exact List.cons_ne_nil _ _

theorem dot_not_mem_encoded (v : JsVal) : '.' ∉ (encoded v).toList := dot_not_mem_base64url _

theorem dot_not_mem_signature (data : String) : '.' ∉ (signature hmac jwtSecret data).toList :=
  dot_not_mem_base64url _

/-- The second part of a token is read as the value it was made of. -/
theorem payloadOf_encoded {v : JsVal} (h : v.IsJson) :
    payloadOf Base64.decode (encoded v).toList = .ok v := by
  unfold payloadOf encoded
  rw [decode_base64url, Utf8.decode_encode, Json.parse_chars h]

/-- The three parts of a token. -/
theorem pieces_signJwt (payload : Dict JsVal) (expiresInSec : JsNum) (t : Time) :
    pieces '.' (signJwt hmac jwtSecret payload expiresInSec t).toList =
      [(encoded header).toList, (encoded (.obj (body payload expiresInSec t.now).entries)).toList,
        (signature hmac jwtSecret (.ofList ((encoded header).toList ++
          '.' :: (encoded (.obj (body payload expiresInSec t.now).entries)).toList))).toList] := by
  have hdata : encoded header ++ "." ++ encoded (.obj (body payload expiresInSec t.now).entries) =
      .ofList ((encoded header).toList ++
        '.' :: (encoded (.obj (body payload expiresInSec t.now).entries)).toList) := by
    apply String.toList_inj.mp
    simp
  unfold signJwt
  dsimp only
  rw [hdata, String.toList_append, String.toList_append, String.toList_ofList]
  change pieces '.' (((_ ++ '.' :: _) ++ ['.']) ++ _) = _
  rw [List.append_assoc, List.append_assoc, List.cons_append, List.singleton_append,
    pieces_append (dot_not_mem_encoded _), pieces_append (dot_not_mem_encoded _),
    pieces_of_not_mem (dot_not_mem_signature hmac jwtSecret _)]

section
variable {payload : Dict JsVal} {lifetime : ℕ}

theorem entries_body (hiat : payload.has "iat" = false) (hexp : payload.has "exp" = false)
    (lifetime now : JsNum) : (body payload lifetime now).entries =
      ("iat", .num now) :: ("exp", .num (now.add lifetime)) :: payload.entries := by
  have hnot : ∀ k, payload.has k = false → k ∉ payload.entries.map Prod.fst := by
    intro k hk hmem
    obtain ⟨⟨k', v⟩, hin, rfl⟩ := List.mem_map.mp hmem
    have hget := Dict.get?_of_mem hin
    rw [Dict.has, hget] at hk
    cases hk
  have hfront : (Dict.ofList [("iat", JsVal.num now), ("exp", .num (now.add lifetime))]).entries =
      [("iat", .num now), ("exp", .num (now.add lifetime))] := Dict.entries_ofList (by simp)
  unfold body Dict.spread
  rw [Dict.entries_foldl_set, hfront]
  · rfl
  · rw [hfront]
    simp only [List.cons_append, List.nil_append, List.map_cons, List.nodup_cons, List.mem_cons,
      not_or]
    exact ⟨⟨by decide, hnot _ hiat⟩, hnot _ hexp, payload.nodup⟩

theorem rounds_exp (issued : Time) (lifetime : ℕ) :
    Rounds (issued.seconds + lifetime : ℕ) (issued.now.add (.ofNat lifetime)) := by
  have h := rounds_add issued.seconds lifetime
  rw [issued.now_eq]
  push_cast
  exact h

theorem truthy_exp (issued : Time) (hpos : 0 < lifetime) :
    (issued.now.add (.ofNat lifetime)).truthy = true := by
  have hround := rounds_exp issued lifetime
  generalize issued.now.add (.ofNat lifetime) = exp at hround
  cases hround with
  | exact _ =>
    refine decide_eq_true ?_
    have h : ((issued.seconds + lifetime : ℕ) : ℤ) ≠ 0 := by omega
    exact_mod_cast h
  | @above w h hw =>
    refine decide_eq_true ?_
    have h : w ≠ 0 := by omega
    exact_mod_cast h
  | below h _ => omega
  | infAbove _ => rfl
  | infBelow _ => rfl

/-- The second a token ends is the exact one as far as any clock goes. -/
theorem lt_exp (issued checked : Time) (lifetime : ℕ) :
    ((issued.now.add (.ofNat lifetime)).lt? checked.now).getD false =
      decide (issued.seconds + lifetime < checked.seconds) := by
  have hchecked := checked.seconds_le
  have hround := rounds_exp issued lifetime
  rw [checked.now_eq]
  generalize issued.now.add (.ofNat lifetime) = exp at hround
  cases hround with
  | exact _ =>
    change decide ((((issued.seconds + lifetime : ℕ) : ℤ) : ℚ) < (checked.seconds : ℚ)) = _
    refine decide_eq_decide.mpr ?_
    rw [Int.cast_natCast, Nat.cast_lt]
  | @above w h hw =>
    change decide (_ < (checked.seconds : ℚ)) = _
    rw [decide_eq_false, decide_eq_false (by omega)]
    rw [not_lt]
    have h : (checked.seconds : ℤ) ≤ w := by omega
    exact_mod_cast h
  | below h _ => omega
  | infAbove h =>
    rw [decide_eq_false (by omega)]
    rfl
  | infBelow h => omega

theorem isJson_body (hjson : (JsVal.obj payload.entries).IsJson) (hiat : payload.has "iat" = false)
    (hexp : payload.has "exp" = false) (hdouble : (JsNum.ofNat lifetime).IsDouble) (t : Time) :
    (JsVal.obj (body payload (.ofNat lifetime) t.now).entries).IsJson := by
  have hseconds := t.seconds_le
  refine ⟨(body payload (.ofNat lifetime) t.now).nodup, ?_⟩
  rw [entries_body hiat hexp, t.now_eq]
  exact ⟨⟨rfl, isDouble_ofNat (by omega)⟩, ⟨isFinite_add (by omega) hdouble, isDouble_toDouble _⟩,
    hjson.2⟩

theorem expired_body (hiat : payload.has "iat" = false) (hexp : payload.has "exp" = false)
    (hpos : 0 < lifetime) (issued checked : Time) :
    expired (.obj (body payload (.ofNat lifetime) issued.now).entries) checked.now =
      .ok (decide (issued.seconds + lifetime < checked.seconds)) := by
  have hget : (JsVal.obj (body payload (.ofNat lifetime) issued.now).entries).prop "exp" =
      .ok (.num (issued.now.add (.ofNat lifetime))) := by
    refine congrArg Except.ok
      (Dict.get_ofList_of_mem (body payload (.ofNat lifetime) issued.now).nodup ?_)
    rw [entries_body hiat hexp]
    exact List.mem_cons_of_mem _ List.mem_cons_self
  unfold expired
  rw [hget]
  change (if (issued.now.add (.ofNat lifetime)).truthy then _ else _) = _
  rw [if_pos (truthy_exp issued hpos), ← lt_exp]
  rfl

/-- **The round trip.** A token is valid up to its last second, and gives its payload back with
the time it was issued and the time it ends. -/
theorem verifyJwt_signJwt (payload : Dict JsVal) (hjson : (JsVal.obj payload.entries).IsJson)
    (hiat : payload.has "iat" = false) (hexp : payload.has "exp" = false) (lifetime : ℕ)
    (hpos : 0 < lifetime) (hdouble : (JsNum.ofNat lifetime).IsDouble) (issued checked : Time) :
    verifyJwt hmac jwtSecret Base64.decode
        (signJwt hmac jwtSecret payload (.ofNat lifetime) issued) checked =
      if checked.seconds ≤ issued.seconds + lifetime then
        some (.obj (("iat", .num (.ofNat issued.seconds)) ::
          ("exp", .num ((JsNum.ofNat issued.seconds).add (.ofNat lifetime))) :: payload.entries))
      else none := by
  have hread := payloadOf_encoded (isJson_body hjson hiat hexp hdouble issued)
  unfold verifyJwt
  rw [pieces_signJwt]
  dsimp only
  rw [if_neg (by
      simp only [not_or]
      exact ⟨encoded_ne_nil _, encoded_ne_nil _, signature_ne_nil hmac jwtSecret _⟩),
    String.ofList_toList, if_neg (not_not_intro rfl), hread]
  dsimp only
  rw [expired_body hiat hexp hpos, entries_body hiat hexp, issued.now_eq]
  by_cases hlast : checked.seconds ≤ issued.seconds + lifetime
  · rw [if_pos hlast, decide_eq_false (not_lt.mpr hlast)]
  · rw [if_neg hlast, decide_eq_true (not_le.mp hlast)]

end

end

/-- A hash that is the same for every text. -/
def constantHmac (_ _ : String) : Digest := ⟨[0xFB, 0xEF, 0xBE, 0xFF], by decide⟩

/-- What the login puts into a token, with a name. -/
def visitor : Dict JsVal := Dict.ofList [("sub", .str "7"), ("名", .str "张三😀")]

/-- In its last second the token of an hour is valid. -/
theorem visitor_verified :
    verifyJwt constantHmac "secret" Base64.decode
        (signJwt constantHmac "secret" visitor (.ofNat 3600) ⟨1700000000500, by decide⟩)
        ⟨1700003600999, by decide⟩ =
      some (.obj (("iat", .num (.ofNat 1700000000)) ::
        ("exp", .num ((JsNum.ofNat 1700000000).add (.ofNat 3600))) :: visitor.entries)) :=
  (verifyJwt_signJwt constantHmac "secret" visitor ⟨visitor.nodup, trivial, trivial, trivial⟩
    (by decide) (by decide) 3600 (by decide) (isDouble_ofNat (by norm_num)) _ _).trans
    (if_pos (by decide))

section
variable (hmac : String → String → Digest) (jwtSecret : String)
  (fromBase64 : List Char → List UInt8)

/-- The `exp` of the fields of an object. -/
def expOf (fs : List (String × JsVal)) : JsVal := Dict.get (Dict.ofList fs) "exp"

/-- Three parts between two dots, none of them empty, the third the signature of the first two, the
second an object whose `exp`, if it is a number, is not before the current second. -/
def Genuine (token : String) (t : Time) : Prop :=
  ∃ h p s : String, token = h ++ "." ++ p ++ "." ++ s ∧
    ('.' ∉ h.toList ∧ '.' ∉ p.toList ∧ '.' ∉ s.toList) ∧ (h ≠ "" ∧ p ≠ "" ∧ s ≠ "") ∧
    s = signature hmac jwtSecret (h ++ "." ++ p) ∧
    ∃ fs, Json.parse (Utf8.decode (fromBase64 p.toList)) = .ok (.obj fs) ∧
      ∀ exp, expOf fs = .num exp → exp.lt? t.now ≠ some true

/-- The first two parts of a token, with what stands behind a third that is their signature. -/
def Signed (token : String) (h p : List Char) (more : List (List Char)) : Prop :=
  ∃ s, pieces '.' token.toList = h :: p :: s :: more ∧ (h ≠ [] ∧ p ≠ [] ∧ s ≠ []) ∧
    signature hmac jwtSecret (.ofList (h ++ '.' :: p)) = .ofList s

/-- The payload is an object whose `exp` is there and is no number. -/
def OtherExp (token : String) : Prop :=
  ∃ h p rest fs, pieces '.' token.toList = h :: p :: rest ∧
    payloadOf fromBase64 p = .ok (.obj fs) ∧ expOf fs ≠ .undefined ∧ ∀ exp, expOf fs ≠ .num exp

/-- A signed token with a value that is no object, or whose `exp` of 0 is past, or with more than
three parts and not expired. -/
def Misread (token : String) (t : Time) : Prop :=
  ∃ h p more v, Signed hmac jwtSecret token h p more ∧ payloadOf fromBase64 p = .ok v ∧
    v.isNullish = false ∧ ((∀ fs, v ≠ .obj fs) ∨ ∃ fs, v = .obj fs ∧
      (expOf fs = .num (.fin 0) ∧ t.seconds ≠ 0 ∨
        more ≠ [] ∧ ∀ exp, expOf fs = .num exp → exp.lt? t.now ≠ some true))

variable {hmac jwtSecret fromBase64}

/-- What makes a token valid. -/
theorem verifyJwt_eq_some {token : String} {t : Time} {v : JsVal} :
    verifyJwt hmac jwtSecret fromBase64 token t = some v ↔
      ∃ h p more, Signed hmac jwtSecret token h p more ∧ payloadOf fromBase64 p = .ok v ∧
        expired v t.now = .ok false := by
  constructor
  · intro hv
    unfold verifyJwt at hv
    split at hv
    · rename_i h p s more hparts
      split at hv
      · cases hv
      · rename_i hne
        split at hv
        · cases hv
        · rename_i hsig
          split at hv
          · cases hv
          · rename_i payload hpayload
            split at hv
            · cases hv
            · cases hv
            · rename_i hexpired
              obtain rfl := Option.some.inj hv
              simp only [not_or] at hne
              exact ⟨h, p, more, ⟨s, hparts, hne, not_not.mp hsig⟩, hpayload, hexpired⟩
    · cases hv
  · rintro ⟨h, p, more, ⟨s, hparts, hne, hsig⟩, hpayload, hexpired⟩
    unfold verifyJwt
    rw [hparts]
    dsimp only
    rw [if_neg (by simpa only [not_or] using hne), if_neg (not_not_intro hsig), hpayload]
    dsimp only
    rw [hexpired]

theorem expired_obj {fs : List (String × JsVal)} {t : Time}
    (hexp : expOf fs = .undefined ∨ ∃ exp, expOf fs = .num exp) :
    expired (.obj fs) t.now = .ok false ↔
      expOf fs = .num (.fin 0) ∨ ∀ exp, expOf fs = .num exp → exp.lt? t.now ≠ some true := by
  change (if (expOf fs).truthy then JsVal.gt (.num t.now) (expOf fs) else Except.ok false) = _ ↔ _
  rcases hexp with h | ⟨exp, h⟩
  · rw [h]
    exact iff_of_true rfl (Or.inr fun _ h => nomatch h)
  · rw [h]
    have hall : (∀ e, JsVal.num exp = .num e → e.lt? t.now ≠ some true) ↔
        exp.lt? t.now ≠ some true :=
      ⟨fun h => h exp rfl, fun h e he => JsVal.num.inj he ▸ h⟩
    rw [hall]
    by_cases htruthy : exp.truthy = true
    · have hzero : JsVal.num exp ≠ .num (.fin 0) := by
        rintro he
        rw [JsVal.num.inj he] at htruthy
        exact absurd htruthy (by decide)
      rw [show (JsVal.num exp).truthy = true from htruthy, if_pos rfl, or_iff_right hzero]
      change Except.ok ((exp.lt? t.now).getD false) = _ ↔ _
      cases hlt : exp.lt? t.now with
      | none => simp
      | some b => cases b <;> simp
    · rw [show (JsVal.num exp).truthy = exp.truthy from rfl, if_neg htruthy]
      refine iff_of_true rfl ?_
      cases exp with
      | nan => exact Or.inr (by simp [JsNum.lt?])
      | inf neg => exact absurd rfl htruthy
      | fin q =>
        left
        have hq : q = 0 := by simpa [JsNum.truthy] using htruthy
        rw [hq]

theorem isNullish_of_expired {v : JsVal} {now : JsNum} {b : Bool}
    (h : expired v now = .ok b) : v.isNullish = false := by
  cases v <;> first | rfl | cases h

/-- A value that is no object has no `exp`. -/
theorem expired_of_not_obj {v : JsVal} (hv : ∀ fs, v ≠ .obj fs) (hnull : v.isNullish = false)
    (now : JsNum) : expired v now = .ok false := by
  cases v with
  | undefined => cases hnull
  | null => cases hnull
  | obj fs => exact absurd rfl (hv fs)
  | bool _ => rfl
  | num _ => rfl
  | str _ => rfl
  | arr _ => rfl

/-- The text with the three parts is the only one with these parts and no more. -/
theorem Signed.eq_of_nil {token : String} {h p : List Char}
    (hsigned : Signed hmac jwtSecret token h p []) :
    token = .ofList (h ++ '.' :: p ++ '.' ::
      (signature hmac jwtSecret (.ofList (h ++ '.' :: p))).toList) := by
  obtain ⟨s, hparts, _, hsig⟩ := hsigned
  apply String.toList_inj.mp
  obtain ⟨_, ⟨hnil, _⟩ | ⟨back, hback, hrest⟩⟩ := of_pieces_cons hparts
  · cases hnil
  obtain ⟨_, ⟨hnil, _⟩ | ⟨last, hlast, hend⟩⟩ := of_pieces_cons hrest
  · cases hnil
  obtain ⟨_, ⟨_, hself⟩ | ⟨_, _, hmore⟩⟩ := of_pieces_cons hend
  · rw [hsig, hback, hlast, hself, String.toList_ofList, String.toList_ofList, List.append_assoc]
    rfl
  · exact absurd hmore (pieces_ne_nil _ _)

/-- The three texts of a genuine token are the pieces of it. -/
theorem genuine_iff (hboth : ∀ cs, fromBase64 (standard cs) = fromBase64 cs) {token : String}
    {t : Time} : Genuine hmac jwtSecret fromBase64 token t ↔
      ∃ h p fs, Signed hmac jwtSecret token h p [] ∧ payloadOf fromBase64 p = .ok (.obj fs) ∧
        ∀ exp, expOf fs = .num exp → exp.lt? t.now ≠ some true := by
  unfold payloadOf
  constructor
  · rintro ⟨h, p, s, rfl, ⟨hdot, pdot, sdot⟩, ⟨hne, pne, sne⟩, hsig, fs, hparse, hexp⟩
    refine ⟨h.toList, p.toList, fs, ⟨s.toList, ?_, ?_, ?_⟩, by rw [hboth]; exact hparse, hexp⟩
    · rw [String.toList_append, String.toList_append, String.toList_append, String.toList_append]
      change pieces '.' (((_ ++ ['.']) ++ _ ++ ['.']) ++ _) = _
      rw [List.append_assoc, List.append_assoc, List.append_assoc, List.singleton_append,
        List.singleton_append, pieces_append hdot, pieces_append pdot, pieces_of_not_mem sdot]
    · simpa only [ne_eq, String.toList_eq_nil_iff] using ⟨hne, pne, sne⟩
    · rw [String.ofList_toList, hsig]
      congr 1
      apply String.toList_inj.mp
      simp
  · rintro ⟨h, p, fs, hsigned, hparse, hexp⟩
    have htoken := hsigned.eq_of_nil
    obtain ⟨s, hparts, ⟨hne, pne, sne⟩, hsig⟩ := hsigned
    obtain ⟨hdot, _⟩ := of_pieces_cons hparts
    have hmem : ∀ piece ∈ [h, p, s], '.' ∉ piece := fun piece hpiece =>
      not_mem_of_mem_pieces (hparts ▸ hpiece)
    have hdata : (String.ofList h ++ "." ++ String.ofList p) = .ofList (h ++ '.' :: p) := by
      apply String.toList_inj.mp
      simp
    refine ⟨.ofList h, .ofList p, .ofList s, ?_, ?_, ?_, ?_, fs, ?_, hexp⟩
    · rw [htoken, hsig, hdata]
      apply String.toList_inj.mp
      simp
    · simpa only [String.toList_ofList] using
        ⟨hmem h (by simp), hmem p (by simp), hmem s (by simp)⟩
    · simpa only [ne_eq, String.ofList_eq_empty_iff] using ⟨hne, pne, sne⟩
    · rw [hdata, hsig]
    · rw [String.toList_ofList, ← hboth]
      exact hparse

theorem Signed.unique {token : String} {h p h' p' : List Char} {more more' : List (List Char)}
    (hs : Signed hmac jwtSecret token h p more) (hs' : Signed hmac jwtSecret token h' p' more') :
    h' = h ∧ p' = p ∧ more' = more := by
  obtain ⟨s, hparts, _⟩ := hs
  obtain ⟨s', hparts', _⟩ := hs'
  rw [hparts] at hparts'
  simp only [List.cons.injEq] at hparts'
  exact ⟨hparts'.1.symm, hparts'.2.1.symm, hparts'.2.2.2.symm⟩

/-- What is valid is genuine, for a signed token with an object. -/
theorem genuine_of_obj (hboth : ∀ cs, fromBase64 (standard cs) = fromBase64 cs) {token : String}
    {t : Time} {h p : List Char} {more : List (List Char)} {fs : List (String × JsVal)}
    (hsigned : Signed hmac jwtSecret token h p more)
    (hpayload : payloadOf fromBase64 p = .ok (.obj fs))
    (hexp : expOf fs = .undefined ∨ ∃ exp, expOf fs = .num exp) :
    ((∃ v, verifyJwt hmac jwtSecret fromBase64 token t = some v) ↔
        Genuine hmac jwtSecret fromBase64 token t) ↔
      ¬ Misread hmac jwtSecret fromBase64 token t := by
  have hvalid : (∃ v, verifyJwt hmac jwtSecret fromBase64 token t = some v) ↔
      expOf fs = .num (.fin 0) ∨ ∀ exp, expOf fs = .num exp → exp.lt? t.now ≠ some true := by
    rw [← expired_obj hexp]
    constructor
    · rintro ⟨v, hv⟩
      obtain ⟨h', p', more', hs', hp', he⟩ := verifyJwt_eq_some.mp hv
      obtain ⟨rfl, rfl, rfl⟩ := hsigned.unique hs'
      rw [hpayload] at hp'
      rwa [← Except.ok.inj hp'] at he
    · exact fun he => ⟨_, verifyJwt_eq_some.mpr ⟨h, p, more, hsigned, hpayload, he⟩⟩
  have hgenuine : Genuine hmac jwtSecret fromBase64 token t ↔
      more = [] ∧ ∀ exp, expOf fs = .num exp → exp.lt? t.now ≠ some true := by
    rw [genuine_iff hboth]
    constructor
    · rintro ⟨h', p', fs', hs', hp', he⟩
      obtain ⟨rfl, rfl, rfl⟩ := hsigned.unique hs'
      rw [hpayload] at hp'
      rw [JsVal.obj.inj (Except.ok.inj hp')]
      exact ⟨rfl, he⟩
    · rintro ⟨rfl, he⟩
      exact ⟨h, p, fs, hsigned, hpayload, he⟩
  have hmisread : Misread hmac jwtSecret fromBase64 token t ↔
      expOf fs = .num (.fin 0) ∧ t.seconds ≠ 0 ∨
        more ≠ [] ∧ ∀ exp, expOf fs = .num exp → exp.lt? t.now ≠ some true := by
    constructor
    · rintro ⟨h', p', more', v, hs', hp', _, hv⟩
      obtain ⟨rfl, rfl, rfl⟩ := hsigned.unique hs'
      rw [hpayload] at hp'
      rcases hv with hv | ⟨fs', hv, he⟩
      · exact absurd (Except.ok.inj hp').symm (hv fs)
      · rw [← Except.ok.inj hp'] at hv
        rwa [JsVal.obj.inj hv]
    · exact fun he => ⟨h, p, more, .obj fs, hsigned, hpayload, rfl, Or.inr ⟨fs, rfl, he⟩⟩
  have hzero : expOf fs = .num (.fin 0) →
      ((∀ exp, expOf fs = .num exp → exp.lt? t.now ≠ some true) ↔ t.seconds = 0) := by
    intro hz
    have hlt : (JsNum.fin 0).lt? t.now = some (decide (0 < t.seconds)) := by
      rw [t.now_eq]
      change some (decide ((0 : ℚ) < (t.seconds : ℚ))) = _
      rw [decide_eq_decide.mpr Nat.cast_pos]
    rw [hz]
    constructor
    · intro h
      have hne := h _ rfl
      rw [hlt] at hne
      simpa using hne
    · rintro hsec exp he
      rw [← JsVal.num.inj he, hlt, hsec]
      simp
  rw [hvalid, hgenuine, hmisread]
  generalize (∀ exp, expOf fs = .num exp → exp.lt? t.now ≠ some true) = Within at hzero ⊢
  by_cases hz : expOf fs = .num (.fin 0)
  · have hsec := hzero hz
    by_cases hmore : more = []
    · simp [hz, hmore, hsec]
    · by_cases hwithin : Within <;> simp [hz, hmore, hwithin, hsec.mp, hsec.not.mp]
  · by_cases hmore : more = []
    · simp [hz, hmore]
    · by_cases hwithin : Within <;> simp [hz, hmore, hwithin]

/-- A valid token that is not misread has three parts. -/
theorem Signed.of_valid {token : String} {t : Time} {h p : List Char} {rest : List (List Char)}
    (hparts : pieces '.' token.toList = h :: p :: rest)
    (hvalid : ∃ v, verifyJwt hmac jwtSecret fromBase64 token t = some v)
    (hread : ¬ Misread hmac jwtSecret fromBase64 token t) : Signed hmac jwtSecret token h p [] := by
  obtain ⟨v, hv⟩ := hvalid
  obtain ⟨h', p', more, ⟨s, hparts', hne, hsig⟩, hp, he⟩ := verifyJwt_eq_some.mp hv
  obtain ⟨rfl, htail⟩ := List.cons.inj (hparts.symm.trans hparts')
  obtain ⟨rfl, rfl⟩ := List.cons.inj htail
  by_cases hmore : more = []
  · subst hmore
    exact ⟨s, hparts, hne, hsig⟩
  · refine absurd ⟨_, _, more, v, ⟨s, hparts, hne, hsig⟩, hp, isNullish_of_expired he, ?_⟩ hread
    by_cases hobj : ∃ fs, v = .obj fs
    · obtain ⟨fs, rfl⟩ := hobj
      by_cases hzero : expOf fs = .num (.fin 0) ∧ t.seconds ≠ 0
      · exact Or.inr ⟨fs, rfl, Or.inl hzero⟩
      · refine Or.inr ⟨fs, rfl, Or.inr ⟨hmore, fun exp hexp => ?_⟩⟩
        rcases (expired_obj (Or.inr ⟨exp, hexp⟩)).mp he with hz | hbound
        · have hsec : t.seconds = 0 := by
            by_contra hne
            exact hzero ⟨hz, hne⟩
          rw [hz] at hexp
          rw [← JsVal.num.inj hexp, t.now_eq, hsec]
          simp [JsNum.lt?, JsNum.ofNat]
        · exact hbound exp hexp
    · exact Or.inl fun fs hv => hobj ⟨fs, hv⟩

/-- **Acceptance.** A token is valid just when it is genuine, unless it is misread; and but for
misread tokens one at most is valid for two first parts. -/
theorem acceptance_iff (hmac : String → String → Digest) (jwtSecret : String)
    (fromBase64 : List Char → List UInt8)
    (hboth : ∀ cs, fromBase64 (standard cs) = fromBase64 cs) :
    (∀ token t, ¬ OtherExp fromBase64 token →
      (((∃ v, verifyJwt hmac jwtSecret fromBase64 token t = some v) ↔
          Genuine hmac jwtSecret fromBase64 token t) ↔
        ¬ Misread hmac jwtSecret fromBase64 token t)) ∧
    ∀ token token' t t' h p rest rest', pieces '.' token.toList = h :: p :: rest →
      pieces '.' token'.toList = h :: p :: rest' →
      (∃ v, verifyJwt hmac jwtSecret fromBase64 token t = some v) →
      (∃ v, verifyJwt hmac jwtSecret fromBase64 token' t' = some v) →
      ¬ Misread hmac jwtSecret fromBase64 token t →
      ¬ Misread hmac jwtSecret fromBase64 token' t' → token = token' := by
  constructor
  · intro token t hother
    by_cases hread : ∃ h p more v, Signed hmac jwtSecret token h p more ∧
        payloadOf fromBase64 p = .ok v ∧ v.isNullish = false
    · obtain ⟨h, p, more, v, hsigned, hpayload, hnull⟩ := hread
      by_cases hobj : ∃ fs, v = .obj fs
      · obtain ⟨fs, rfl⟩ := hobj
        refine genuine_of_obj hboth hsigned hpayload ?_
        by_contra hexp
        rw [not_or, not_exists] at hexp
        obtain ⟨s, hparts, _⟩ := hsigned
        exact hother ⟨h, p, s :: more, fs, hparts, hpayload, hexp.1, hexp.2⟩
      · have hnot : ∀ fs, v ≠ .obj fs := fun fs hv => hobj ⟨fs, hv⟩
        refine iff_of_false (fun hsame => ?_) (not_not_intro
          ⟨h, p, more, v, hsigned, hpayload, hnull, Or.inl hnot⟩)
        obtain ⟨h', p', fs, hs', hp', _⟩ := (genuine_iff hboth).mp (hsame.mp
          ⟨v, verifyJwt_eq_some.mpr ⟨h, p, more, hsigned, hpayload,
            expired_of_not_obj hnot hnull t.now⟩⟩)
        obtain ⟨rfl, rfl, _⟩ := hsigned.unique hs'
        rw [hpayload] at hp'
        exact hnot fs (Except.ok.inj hp')
    · refine iff_of_true (iff_of_false ?_ ?_) ?_
      · rintro ⟨v, hv⟩
        obtain ⟨h, p, more, hs, hp, he⟩ := verifyJwt_eq_some.mp hv
        exact hread ⟨h, p, more, v, hs, hp, isNullish_of_expired he⟩
      · intro hgenuine
        obtain ⟨h, p, fs, hs, hp, _⟩ := (genuine_iff hboth).mp hgenuine
        exact hread ⟨h, p, [], .obj fs, hs, hp, rfl⟩
      · rintro ⟨h, p, more, v, hs, hp, hnull, _⟩
        exact hread ⟨h, p, more, v, hs, hp, hnull⟩
  · intro token token' t t' h p rest rest' hparts hparts' hvalid hvalid' hread hread'
    rw [(Signed.of_valid hparts hvalid hread).eq_of_nil,
      (Signed.of_valid hparts' hvalid' hread').eq_of_nil]

end

/-- The decoder reads both alphabets alike. -/
theorem decode_standard (cs : List Char) : Base64.decode (standard cs) = Base64.decode cs := by
  obtain ⟨f, hf, hvalue⟩ : ∃ f : Char → Char, (∀ cs, standard cs = cs.map f) ∧
      ∀ c, Base64.digitValue (f c) = Base64.digitValue c ∧ (f c = '=' ↔ c = '=') := by
    refine ⟨_, fun cs => List.map_map, fun c => ?_⟩
    by_cases hminus : c = '-'
    · subst hminus
      decide
    · by_cases hscore : c = '_'
      · subst hscore
        decide
      · simp [hminus, hscore]
  have hsame : ((cs.map f).takeWhile fun c => decide (c ≠ '=')).filterMap Base64.digitValue =
      (cs.takeWhile fun c => decide (c ≠ '=')).filterMap Base64.digitValue := by
    induction cs with
    | nil => rfl
    | cons c cs ih =>
      obtain ⟨hdigit, hend⟩ := hvalue c
      rw [List.map_cons, List.takeWhile_cons, List.takeWhile_cons]
      by_cases hc : c = '='
      · rw [if_neg (by simpa using hend.mpr hc), if_neg (by simpa using hc)]
      · rw [if_pos (by simpa using hend.not.mpr hc), if_pos (by simpa using hc),
          List.filterMap_cons, List.filterMap_cons, hdigit, ih]
  unfold Base64.decode
  rw [hf, hsame]

/-- A day in 2023. -/
def someTime : Time := ⟨1700000000000, by decide⟩

theorem not_otherExp_empty {token : String} {more : List (List Char)}
    (h : pieces '.' token.toList = ['h'] :: "e30".toList :: more) :
    ¬ OtherExp Base64.decode token := by
  rintro ⟨h', p', rest, fs, hparts, hpayload, hexp, _⟩
  rw [h] at hparts
  obtain ⟨_, htail⟩ := List.cons.inj hparts
  obtain ⟨rfl, _⟩ := List.cons.inj htail
  have hempty : payloadOf Base64.decode "e30".toList = .ok (.obj []) := by decide +kernel
  rw [hempty] at hpayload
  rw [← JsVal.obj.inj (Except.ok.inj hpayload)] at hexp
  exact hexp rfl

theorem threeParts_accepted :
    ((∃ v, verifyJwt constantHmac "secret" Base64.decode "h.e30.----_w" someTime = some v) ↔
        Genuine constantHmac "secret" Base64.decode "h.e30.----_w" someTime) ↔
      ¬ Misread constantHmac "secret" Base64.decode "h.e30.----_w" someTime := by
  have hparts : pieces '.' "h.e30.----_w".toList = ['h'] :: "e30".toList :: ["----_w".toList] := by
    decide +kernel
  exact (acceptance_iff constantHmac "secret" Base64.decode decode_standard).1 "h.e30.----_w"
    someTime (not_otherExp_empty hparts)

/-- With a fourth part behind its signature a token is still valid. -/
theorem fourParts_accepted :
    ¬ OtherExp Base64.decode "h.e30.----_w.x" ∧
      (∃ v, verifyJwt constantHmac "secret" Base64.decode "h.e30.----_w.x" someTime = some v) ∧
      ¬ Genuine constantHmac "secret" Base64.decode "h.e30.----_w.x" someTime := by
  have hparts : pieces '.' "h.e30.----_w.x".toList =
      [['h'], "e30".toList, "----_w".toList, ['x']] := by decide +kernel
  refine ⟨not_otherExp_empty hparts, ⟨.obj [], by decide +kernel⟩, ?_⟩
  rw [genuine_iff decode_standard]
  rintro ⟨h, p, fs, ⟨s, hthree, _⟩, _⟩
  rw [hparts] at hthree
  simp at hthree

end JtfpMall.Jwt
