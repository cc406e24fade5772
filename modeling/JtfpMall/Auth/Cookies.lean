import JtfpMall.Auth.UserAuth

/-!
# Cookies that come back

`setCookie` writes a value percent-encoded; the browser keeps what stands before the first `;` and
sends it back among the cookies it has from elsewhere. A cookie begins at the start of the header or
behind `; `, and no cookie has a `;` of its own, so what is found under a name is the value of the
cookie of that name and not the end of another.
-/

namespace JtfpMall.AuthRoutes

open JtfpMall.Js

/-- The header `setCookie(res, name, value, maxAgeSec)` appends. -/
def setCookie (env name value : String) (maxAgeSec : ℤ) : String :=
  "; ".intercalate ([name ++ "=" ++ encodeURIComponent value, "Path=/", "HttpOnly", "SameSite=Lax"]
    ++ (if env ≠ "development" then ["Secure"] else [])
    ++ (if 0 < maxAgeSec then ["Max-Age=" ++ toString maxAgeSec] else []))

/-- What a browser sends of one cookie. -/
structure Cookie where
  text : String
  noSemicolon : ';' ∉ text.toList

/-- What stands before the first `=`; a text without `=` has no name. -/
def Cookie.name (c : Cookie) : Option String :=
  if '=' ∈ c.text.toList then
    some (.ofList (c.text.toList.takeWhile fun d => decide (d ≠ '=')))
  else none

theorem noSemicolon_takeWhile (cs : List Char) :
    ';' ∉ cs.takeWhile fun d => decide (d ≠ ';') := by
  intro h
  have hne := List.mem_takeWhile_imp h
  exact absurd hne (by decide)

/-- What the browser keeps of a `Set-Cookie` header. -/
def kept (header : String) : Cookie where
  text := .ofList (header.toList.takeWhile fun d => decide (d ≠ ';'))
  noSemicolon := by
    rw [String.toList_ofList]
    exact noSemicolon_takeWhile _

/-- The `Cookie` header of the browser. -/
def cookieHeader (cookies : List Cookie) : String := "; ".intercalate (cookies.map Cookie.text)

/-- The cookies that follow, each behind its separator. -/
def behind (cookies : List Cookie) : List Char :=
  cookies.flatMap fun c => ';' :: ' ' :: c.text.toList

theorem toList_cookieHeader_cons (c : Cookie) (cookies : List Cookie) :
    (cookieHeader (c :: cookies)).toList = c.text.toList ++ behind cookies := by
  induction cookies generalizing c with
  | nil =>
    unfold cookieHeader behind
    rw [List.map_singleton, String.intercalate_singleton, List.flatMap_nil, List.append_nil]
  | cons d cookies ih =>
    have hrest := ih d
    unfold cookieHeader at hrest ⊢
    rw [List.map_cons] at hrest
    rw [List.map_cons, List.map_cons, String.intercalate_cons_cons, String.toList_append,
      String.toList_append, hrest]
    unfold behind
    rw [List.flatMap_cons, List.append_assoc]
    rfl

/-- Nothing follows, or a semicolon. -/
def Ends (cs : List Char) : Prop := cs = [] ∨ ∃ ds, cs = ';' :: ds

theorem ends_behind (cookies : List Cookie) : Ends (behind cookies) := by
  cases cookies with
  | nil => exact Or.inl rfl
  | cons c cookies => exact Or.inr ⟨_, rfl⟩

theorem laterCookie_append (name : String) {cs : List Char} (h : ';' ∉ cs) (ds : List Char) :
    laterCookie name (cs ++ ds) = laterCookie name ds := by
  induction cs with
  | nil => rfl
  | cons c cs ih =>
    have hc : c ≠ ';' := fun he => h (he ▸ List.mem_cons_self)
    rw [List.cons_append, laterCookie]
    split
    · rename_i heq
      exact absurd (List.cons.inj heq).1 hc
    · exact ih fun hmem => h (List.mem_cons_of_mem c hmem)

theorem laterCookie_separator (name : String) (cs : List Char) :
    laterCookie name (';' :: ' ' :: cs) = (cookieValue name cs).or (laterCookie name cs) := by
  have hblank : ';' ∉ [' '] := by decide
  have hspace : laterCookie name (' ' :: cs) = laterCookie name cs :=
    laterCookie_append name hblank cs
  rw [laterCookie]
  change (cookieValue name cs).or (laterCookie name (' ' :: cs)) = _
  rw [hspace]

/-- A name is not a part of a cookie but its beginning up to `=`. -/
theorem cookieValue_other {name : String} (hequal : '=' ∉ name.toList)
    (hsemicolon : ';' ∉ name.toList) {c : Cookie} (hname : c.name ≠ some name) {ds : List Char}
    (hds : Ends ds) : cookieValue name (c.text.toList ++ ds) = none := by
  unfold cookieValue
  dsimp only
  refine if_neg fun hprefix => hname ?_
  have hkey : name.toList ++ ['='] <+: c.text.toList := by
    have hwhole := List.isPrefixOf_iff_prefix.mp hprefix
    rcases List.prefix_or_prefix_of_prefix hwhole (List.prefix_append _ _) with h | ⟨rest, hrest⟩
    · exact h
    · -- the rest of the key would begin with the semicolon behind the cookie
      rw [← hrest, List.prefix_append_right_inj] at hwhole
      cases rest with
      | nil =>
        rw [List.append_nil] at hrest
        exact ⟨[], by rw [List.append_nil, hrest]⟩
      | cons d rest =>
        rcases hds with rfl | ⟨es, rfl⟩
        · exact absurd (List.prefix_nil.mp hwhole) (List.cons_ne_nil _ _)
        · obtain ⟨rfl, -⟩ := List.cons_prefix_cons.mp hwhole
          have hmem : ';' ∈ name.toList ++ ['='] := by
            rw [← hrest]
            exact List.mem_append_right _ List.mem_cons_self
          rcases List.mem_append.mp hmem with hmem | hmem
          · exact absurd hmem hsemicolon
          · exact absurd hmem (by decide)
  obtain ⟨value, hvalue⟩ := hkey
  have hall : ∀ d ∈ name.toList, decide (d ≠ '=') = true := fun d hd =>
    decide_eq_true fun he => hequal (he ▸ hd)
  unfold Cookie.name
  rw [← hvalue, List.append_assoc, List.singleton_append, if_pos (by simp),
    List.takeWhile_append_of_pos hall]
  simp

/-- The value is read up to the next cookie. -/
theorem cookieValue_own (name : String) {value : List Char} (hne : value ≠ [])
    (hvalue : ';' ∉ value) {ds : List Char} (hds : Ends ds) :
    cookieValue name (name.toList ++ '=' :: value ++ ds) = some value := by
  have hall : ∀ d ∈ value, decide (d ≠ ';') = true := fun d hd =>
    decide_eq_true fun he => hvalue (he ▸ hd)
  have hread : (value ++ ds).takeWhile (fun d => decide (d ≠ ';')) = value := by
    rw [List.takeWhile_append_of_pos hall]
    rcases hds with rfl | ⟨es, rfl⟩ <;> simp
  have htext : name.toList ++ '=' :: value ++ ds = (name.toList ++ ['=']) ++ (value ++ ds) := by
    simp
  unfold cookieValue
  dsimp only
  rw [htext, if_pos (List.isPrefixOf_iff_prefix.mpr (List.prefix_append _ _)), List.drop_left,
    hread]
  cases value with
  | nil => exact absurd rfl hne
  | cons d value => rfl

section
variable {name : String} (hequal : '=' ∉ name.toList) (hsemicolon : ';' ∉ name.toList)
include hequal hsemicolon

/-- Cookies of other names are passed over. -/
theorem laterCookie_behind {cookies : List Cookie} (hcookies : ∀ c ∈ cookies, c.name ≠ some name)
    (rest : List Cookie) :
    laterCookie name (behind (cookies ++ rest)) = laterCookie name (behind rest) := by
  induction cookies with
  | nil => rfl
  | cons c cookies ih =>
    change laterCookie name (';' :: ' ' :: c.text.toList ++ behind (cookies ++ rest)) = _
    rw [List.cons_append, List.cons_append, laterCookie_separator,
      cookieValue_other hequal hsemicolon (hcookies c List.mem_cons_self) (ends_behind _),
      Option.none_or, laterCookie_append name c.noSemicolon]
    exact ih fun d hd => hcookies d (List.mem_cons_of_mem c hd)

/-- Behind other cookies the first one of the name is found. -/
theorem found_cookieHeader {value : List Char} {own : Cookie}
    (hown : own.text.toList = name.toList ++ '=' :: value) (hne : value ≠ []) {before : List Cookie}
    (hbefore : ∀ c ∈ before, c.name ≠ some name) (after : List Cookie) :
    (cookieValue name (cookieHeader (before ++ own :: after)).toList).or
      (laterCookie name (cookieHeader (before ++ own :: after)).toList) = some value := by
  have hvalue : ';' ∉ value := fun h => own.noSemicolon
    (hown ▸ List.mem_append_right _ (List.mem_cons_of_mem _ h))
  have hfirst : cookieValue name (own.text.toList ++ behind after) = some value := by
    rw [hown]
    exact cookieValue_own name hne hvalue (ends_behind after)
  cases before with
  | nil => rw [List.nil_append, toList_cookieHeader_cons, hfirst, Option.some_or]
  | cons c before =>
    rw [List.cons_append, toList_cookieHeader_cons,
      cookieValue_other hequal hsemicolon (hbefore c List.mem_cons_self) (ends_behind _),
      Option.none_or, laterCookie_append name c.noSemicolon,
      laterCookie_behind hequal hsemicolon fun d hd => hbefore d (List.mem_cons_of_mem c hd)]
    change laterCookie name (';' :: ' ' :: own.text.toList ++ behind after) = _
    rw [List.cons_append, List.cons_append, laterCookie_separator, hfirst, Option.some_or]

/-- Where no cookie has the name, none is found, whatever its name ends in. -/
theorem getCookie_absent {cookies : List Cookie} (hcookies : ∀ c ∈ cookies, c.name ≠ some name) :
    getCookie (cookieHeader cookies) name = .ok none := by
  unfold getCookie
  cases cookies with
  | nil =>
    have hempty : (cookieHeader []).toList = [] := rfl
    have hkey : cookieValue name [] = none :=
      if_neg (by rw [List.isPrefixOf_iff_prefix, List.prefix_nil]; simp)
    rw [hempty, hkey]
    rfl
  | cons c cookies =>
    have hlater := laterCookie_behind hequal hsemicolon
      (fun d hd => hcookies d (List.mem_cons_of_mem c hd)) []
    rw [List.append_nil] at hlater
    rw [toList_cookieHeader_cons,
      cookieValue_other hequal hsemicolon (hcookies c List.mem_cons_self) (ends_behind _),
      Option.none_or, laterCookie_append name c.noSemicolon, hlater]
    rfl

end

theorem kept_setCookie (env name value : String) (maxAgeSec : ℤ) (hname : ';' ∉ name.toList) :
    (kept (setCookie env name value maxAgeSec)).text.toList =
      name.toList ++ '=' :: (encodeURIComponent value).toList := by
  have hpair : ∀ d ∈ (name ++ "=" ++ encodeURIComponent value).toList,
      decide (d ≠ ';') = true := by
    intro d hd
    refine decide_eq_true fun he => ?_
    rw [he, String.toList_append, String.toList_append, List.mem_append, List.mem_append] at hd
    rcases hd with (hd | hd) | hd
    · exact hname hd
    · exact absurd hd (by decide)
    · rcases mem_encodeURIComponent hd with hplain | hpercent
      · exact absurd hplain (by decide)
      · exact absurd hpercent (by decide)
  unfold kept setCookie
  rw [String.toList_ofList, List.cons_append, List.cons_append, List.cons_append, List.cons_append,
    String.intercalate_cons_cons, String.toList_append, String.toList_append, List.append_assoc,
    List.takeWhile_append_of_pos hpair]
  simp

/-- What was set is found among other cookies. -/
theorem getCookie_kept {name : String} (hequal : '=' ∉ name.toList) (hsemicolon : ';' ∉ name.toList)
    (env : String) {value : String} (hne : value ≠ "") (maxAgeSec : ℤ) {before : List Cookie}
    (hbefore : ∀ c ∈ before, c.name ≠ some name) (after : List Cookie) :
    getCookie (cookieHeader (before ++ kept (setCookie env name value maxAgeSec) :: after)) name =
      .ok (some value) := by
  have hencoded : (encodeURIComponent value).toList ≠ [] := fun h =>
    hne (encodeURIComponent_eq_nil h)
  unfold getCookie
  rw [found_cookieHeader hequal hsemicolon (kept_setCookie env name value maxAgeSec hsemicolon)
    hencoded hbefore after]
  dsimp only
  rw [String.ofList_toList, decodeURIComponent_encodeURIComponent]
  rfl

/-- The two cookies of a login come back as they were set, whatever other cookies there are. -/
theorem loginCookies_come_back (env value : String) (hne : value ≠ "") (maxAgeSec : ℤ)
    (before after : List Cookie) :
    ((∀ c ∈ before ++ after, c.name ≠ some "oauth_redirect") →
      getCookie (cookieHeader
        (before ++ kept (setCookie env "oauth_redirect" value maxAgeSec) :: after))
        "oauth_redirect" = .ok (some value)) ∧
    ((∀ c ∈ before ++ after, c.name ≠ some "jwt") →
      Jwt.cookieToken (some (cookieHeader
        (before ++ kept (setCookie env "jwt" value maxAgeSec) :: after))) = .ok (some value)) := by
  constructor
  · intro hothers
    exact getCookie_kept (by decide) (by decide) env hne maxAgeSec
      (fun c hc => hothers c (List.mem_append_left after hc)) after
  · intro hothers
    exact getCookie_kept (by decide) (by decide) env hne maxAgeSec
      (fun c hc => hothers c (List.mem_append_left after hc)) after

def namesake : Cookie := ⟨"my_oauth_redirect=/elsewhere", by decide⟩

theorem namesake_left : getCookie (cookieHeader
    ([namesake] ++ kept (setCookie "production" "oauth_redirect" "/h5?a=1;b" 600) :: []))
    "oauth_redirect" = .ok (some "/h5?a=1;b") := by
  refine (loginCookies_come_back "production" "/h5?a=1;b" (by decide) 600 [namesake] []).1 ?_
  intro c hc
  rw [List.append_nil, List.mem_singleton] at hc
  rw [hc]
  decide

end JtfpMall.AuthRoutes
