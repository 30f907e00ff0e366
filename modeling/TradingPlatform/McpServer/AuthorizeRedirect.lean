-- The redirect of GET /oauth/authorize. The code and the state are put behind the redirect URI
-- as they are, so what a client reads in the URL depends on what the two texts contain.
import TradingPlatform.Lib.Url
import TradingPlatform.McpServer.CodeExchange

open trading_platform.shared
open url

namespace trading_platform.mcp_server

/-! ## The redirect -/

/-- `secrets.token_urlsafe`, of the bytes that were drawn. -/
def generate_auth_code (random : List UInt8) : String := base64url random

/-- The header of a `RedirectResponse`, which escapes what has no place in a URL. -/
def location (keep : Char → Bool) (target : String) : String :=
  String.ofList (escape keep target.toList)

/-- The parameters that are added for the client. -/
def added_params (code state : String) : List (List UInt8 × List UInt8) :=
  (utf8 "code".toList, utf8 code.toList) ::
    if state ≠ "" then [(utf8 "state".toList, utf8 state.toList)] else []

/-- The URL has the parts of the redirect URI, and its parameters with the code and the state
besides them. -/
structure RoundTrips (redirect_uri code state target : String) : Prop where
  scheme : (split target.toList).scheme.map percent_decode =
    (split redirect_uri.toList).scheme.map percent_decode
  authority : (split target.toList).authority.map percent_decode =
    (split redirect_uri.toList).authority.map percent_decode
  path : percent_decode (split target.toList).path = percent_decode (split redirect_uri.toList).path
  fragment : (split target.toList).fragment.map percent_decode =
    (split redirect_uri.toList).fragment.map percent_decode
  params : (params ((split target.toList).query.getD [])).Perm
    (params ((split redirect_uri.toList).query.getD []) ++ added_params code state)

/-- A text that stands for itself as the value of a parameter. -/
structure Literal (text : String) : Prop where
  no_separator : '&' ∉ text.toList
  no_fragment : '#' ∉ text.toList
  no_plus : '+' ∉ text.toList
  no_escape : escapes text.toList = false

/-! ## The characters of a code -/

def code_chars : List Char := '=' :: base64.alphabet.map urlsafe

theorem code_chars_eq : code_chars =
    ['=', 'A', 'B', 'C', 'D', 'E', 'F', 'G', 'H', 'I', 'J', 'K', 'L', 'M', 'N', 'O', 'P', 'Q', 'R',
      'S', 'T', 'U', 'V', 'W', 'X', 'Y', 'Z', 'a', 'b', 'c', 'd', 'e', 'f', 'g', 'h', 'i', 'j',
      'k', 'l', 'm', 'n', 'o', 'p', 'q', 'r', 's', 't', 'u', 'v', 'w', 'x', 'y', 'z', '0', '1',
      '2', '3', '4', '5', '6', '7', '8', '9', '-', '_'] := by
  unfold code_chars
  rw [base64.alphabet_eq]
  decide

theorem no_ampersand_in_code : '&' ∉ code_chars := by
  rw [code_chars_eq]
  decide

theorem no_fragment_in_code : '#' ∉ code_chars := by
  rw [code_chars_eq]
  decide

theorem no_plus_in_code : '+' ∉ code_chars := by
  rw [code_chars_eq]
  decide

theorem no_percent_in_code : '%' ∉ code_chars := by
  rw [code_chars_eq]
  decide

theorem mem_code {random : List UInt8} {c : Char} (h : c ∈ (generate_auth_code random).toList) :
    c ∈ code_chars := by
  unfold generate_auth_code base64url at h
  rw [String.toList_ofList, List.mem_reverse] at h
  have hmap := List.mem_reverse.mp ((List.dropWhile_suffix _).subset h)
  obtain ⟨x, hx, rfl⟩ := List.mem_map.mp hmap
  rcases base64.mem_encode hx with hx | rfl
  · exact List.mem_cons_of_mem _ (List.mem_map_of_mem hx)
  · exact List.mem_cons_self

section Code

variable {code : List Char} (hcode : ∀ c ∈ code, c ∈ code_chars)

include hcode

theorem not_mem_code {c : Char} (h : c ∉ code_chars) : c ∉ code := fun hc => h (hcode c hc)

/-- A code holds no ampersand, nor does any of its bytes. -/
theorem code_no_ampersand : '&'.toUInt8 ∉ utf8 code := by
  intro h
  obtain ⟨c, hc, hbyte⟩ := List.mem_flatMap.mp h
  have hall : (code_chars.all fun c => '&'.toUInt8 ∉ String.utf8EncodeChar c) = true := by
    rw [code_chars_eq]
    decide
  exact of_decide_eq_true (List.all_eq_true.mp hall c (hcode c hc)) hbyte

theorem form_decode_code : form_decode code = utf8 code := by
  rw [form_decode_eq_utf8_iff]
  refine ⟨not_mem_code hcode no_plus_in_code, ?_⟩
  exact escapes_of_not_mem (not_mem_code hcode no_percent_in_code)

end Code

/-! ## What a client reads -/

/-- What stands behind the question mark. -/
def code_query (code state : List Char) : List Char :=
  "code=".toList ++ code ++ if state ≠ [] then '&' :: ("state=".toList ++ state) else []

theorem redirect_url_toList (request : AuthorizeRequest) (code : String) :
    (redirect_url request code).toList =
      request.redirect_uri.toList ++ '?' :: code_query code.toList request.state.toList := by
  have hquestion : "?code=".toList = '?' :: "code=".toList := by decide
  have hstate : "&state=".toList = '&' :: "state=".toList := by decide
  unfold redirect_url code_query
  by_cases h : request.state = ""
  · simp [h, hquestion]
  · have hlist : request.state.toList ≠ [] := by simpa using h
    simp [h, hquestion, hstate]

/-- The parameters behind the code. -/
def state_params (state : List Char) : List (List UInt8 × List UInt8) :=
  if state ≠ [] then params ("state=".toList ++ state) else []

theorem pair_eq {name : List Char} (h : '=' ∉ name) (value : List Char) :
    pair (name ++ '=' :: value) = (form_decode name, form_decode value) := by
  unfold pair
  rw [cut_append h]
  rfl

/-- The parameters of a query that goes on with the code. -/
theorem params_code_query {code : List Char} (hcode : ∀ c ∈ code, c ∈ code_chars)
    {piece : List Char} (hpiece : '&' ∉ piece) (state : List Char) :
    params (piece ++ code_query code state) =
      pair (piece ++ ("code=".toList ++ code)) :: state_params state := by
  have hno : '&' ∉ piece ++ ("code=".toList ++ code) := by
    simp [hpiece, not_mem_code hcode no_ampersand_in_code]
  have hne : piece ++ ("code=".toList ++ code) ≠ [] := by simp
  unfold code_query state_params
  by_cases hstate : state = []
  · rw [if_neg (not_not.mpr hstate), if_neg (not_not.mpr hstate), List.append_nil,
      params_piece hno hne]
  · rw [if_pos hstate, if_pos hstate, ← List.append_assoc, params_append, params_piece hno hne]
    rfl

/-- The first of the parameters that the state makes has its name. -/
theorem state_params_eq {state : List Char} (h : state ≠ []) :
    ∃ first rest, state_params state = (utf8 "state".toList, form_decode first) :: rest ∧
      (('&' ∉ state ∧ first = state ∧ rest = []) ∨ ∃ more, state = first ++ '&' :: more) := by
  have hpair : ∀ first, pair ("state=".toList ++ first) =
      (utf8 "state".toList, form_decode first) := by
    intro first
    have hname : "state=".toList = "state".toList ++ ['='] := by decide
    have hdecode : form_decode "state".toList = utf8 "state".toList := by decide
    rw [hname, List.append_assoc, List.singleton_append, pair_eq (by decide), hdecode]
  have hne : ∀ first, "state=".toList ++ first ≠ [] := by simp
  unfold state_params
  rw [if_pos h]
  by_cases hmem : '&' ∈ state
  · obtain ⟨first, more, hstate, hfirst⟩ := List.eq_append_cons_of_mem hmem
    refine ⟨first, params more, ?_, Or.inr ⟨more, hstate⟩⟩
    rw [hstate, ← List.append_assoc, params_append, params_piece (by simp [hfirst]) (hne _),
      hpair]
    rfl
  · refine ⟨state, [], ?_, Or.inl ⟨hmem, rfl, rfl⟩⟩
    rw [params_piece (by simp [hmem]) (hne _), hpair]

theorem added_params_eq (code state : String) :
    added_params code state = (utf8 "code".toList, utf8 code.toList) ::
      if state.toList ≠ [] then [(utf8 "state".toList, utf8 state.toList)] else [] := by
  unfold added_params
  by_cases h : state = ""
  · simp [h]
  · have hlist : state.toList ≠ [] := by simpa using h
    simp [h]

/-- The state is read back exactly when it stands for itself. -/
theorem state_params_perm_iff (state : List Char) :
    (state_params state).Perm
        (if state ≠ [] then [(utf8 "state".toList, utf8 state)] else []) ↔
      '&' ∉ state ∧ form_decode state = utf8 state := by
  by_cases h : state = []
  · subst h
    exact iff_of_true (List.Perm.refl _) ⟨List.not_mem_nil, rfl⟩
  · obtain ⟨first, rest, hparams, hfirst⟩ := state_params_eq h
    rw [hparams, if_pos h, List.perm_singleton, List.cons.injEq, Prod.mk.injEq]
    constructor
    · rintro ⟨⟨-, hdecode⟩, hrest⟩
      rcases hfirst with ⟨hmem, rfl, -⟩ | ⟨more, hstate⟩
      · exact ⟨hmem, hdecode⟩
      · -- what is before the ampersand is too short
        have hle := form_decode_length_le first
        have hlength := congrArg List.length hdecode
        rw [hstate, utf8_append, utf8_cons, List.length_append, List.length_append] at hlength
        have hpos := encode_length_pos '&'
        omega
    · rintro ⟨hmem, hdecode⟩
      rcases hfirst with ⟨-, rfl, rfl⟩ | ⟨more, hstate⟩
      · exact ⟨⟨rfl, hdecode⟩, rfl⟩
      · exact absurd (by rw [hstate]; simp) hmem

/-- The last parameter of a query takes the code up, in its name or in its value. -/
theorem merged_pair {code : List Char} (hcode : ∀ c ∈ code, c ∈ code_chars) (piece : List Char) :
    ('=' ∉ piece ∧ pair (piece ++ '?' :: ("code=".toList ++ code)) =
        (form_decode piece ++ utf8 "?code".toList, utf8 code)) ∨
      ∃ name value, '=' ∉ name ∧ piece = name ++ '=' :: value ∧
        pair (piece ++ '?' :: ("code=".toList ++ code)) =
          (form_decode name, form_decode value ++ (utf8 "?code=".toList ++ utf8 code)) := by
  have hhead : ∀ rest : List Char, ∀ c ∈ ('?' :: rest).head?, hex_value c = none := by
    intro rest c hc
    cases hc
    decide
  by_cases h : '=' ∈ piece
  · obtain ⟨name, value, hpiece, hname⟩ := List.eq_append_cons_of_mem h
    refine Or.inr ⟨name, value, hname, hpiece, ?_⟩
    have hdecode : form_decode ('?' :: ("code=".toList ++ code)) =
        utf8 "?code=".toList ++ utf8 code := by
      have hplus := not_mem_code hcode no_plus_in_code
      have hpercent := not_mem_code hcode no_percent_in_code
      have hlist : "?code=".toList = '?' :: "code=".toList := by decide
      rw [← utf8_append, hlist, List.cons_append, form_decode_eq_utf8_iff]
      exact ⟨by simp [hplus], escapes_of_not_mem (by simp [hpercent])⟩
    rw [hpiece, List.append_assoc, List.cons_append, pair_eq hname,
      form_decode_append value (hhead _), hdecode]
  · refine Or.inl ⟨h, ?_⟩
    have hsplit : piece ++ '?' :: ("code=".toList ++ code) =
        (piece ++ "?code".toList) ++ '=' :: code := by
      simp
    have hname : '=' ∉ piece ++ "?code".toList := by simp [h]
    have hlist : "?code".toList = '?' :: "code".toList := by decide
    have hdecode : form_decode ('?' :: "code".toList) = utf8 ('?' :: "code".toList) := by
      decide
    rw [hsplit, pair_eq hname, hlist, form_decode_append piece (hhead _), hdecode,
      form_decode_code hcode]

/-- No parameter of the redirect URI and none that is added is the one that took the code up,
but a state that says what it does. -/
theorem mem_of_merged {code : List Char} (hcode : ∀ c ∈ code, c ∈ code_chars) {piece : List Char}
    (hpiece : '&' ∉ piece) {added : List (List UInt8 × List UInt8)}
    (h : pair (piece ++ '?' :: ("code=".toList ++ code)) ∈
      params piece ++ (utf8 "code".toList, utf8 code) :: added) :
    pair (piece ++ '?' :: ("code=".toList ++ code)) ∈ added := by
  have hquestion : (utf8 "?code=".toList).length = 6 := by decide
  have hshort : (utf8 "?code".toList).length = 5 := by decide
  have hname : (utf8 "code".toList).length = 4 := by decide
  rcases List.mem_append.mp h with hparams | hadded
  · exfalso
    have hne : piece ≠ [] := by
      rintro rfl
      cases hparams
    rw [params_piece hpiece hne, List.mem_singleton] at hparams
    rcases merged_pair hcode piece with ⟨hno, hpair⟩ | ⟨name, value, hno, heq, hpair⟩
    · rw [hpair] at hparams
      have hlength := congrArg (fun p => p.1.length) hparams
      simp only [pair, cut_of_not_mem hno, List.length_append] at hlength
      omega
    · rw [hpair, heq, pair_eq hno] at hparams
      have hlength := congrArg (fun p => p.2.length) hparams
      simp only [List.length_append] at hlength
      omega
  · rcases List.mem_cons.mp hadded with heq | hmem
    · exfalso
      rcases merged_pair hcode piece with ⟨-, hpair⟩ | ⟨name, value, -, -, hpair⟩
      · rw [hpair] at heq
        have hlength := congrArg (fun p => p.1.length) heq
        simp only [List.length_append] at hlength
        omega
      · rw [hpair] at heq
        have hlength := congrArg (fun p => p.2.length) heq
        simp only [List.length_append] at hlength
        omega
    · exact hmem

/-- Texts that agree: what is behind a shorter first part has what is behind a longer one. -/
theorem mem_of_append_eq {α : Type} {a b x y : List α} {c : α} (h : a ++ c :: x = b ++ y)
    (hle : b.length ≤ a.length) : c ∈ y := by
  rcases List.append_eq_append_iff.mp h with ⟨m, rfl, hm⟩ | ⟨m, rfl, hm⟩
  · rw [List.length_append] at hle
    have hnil : m = [] := List.length_eq_zero_iff.mp (by omega)
    rw [hnil, List.nil_append] at hm
    rw [← hm]
    exact List.mem_cons_self
  · rw [hm]
    exact List.mem_append_right _ List.mem_cons_self

/-- A redirect URI with a query does not keep its parameters. -/
theorem merged_not_perm {code : List Char} (hcode : ∀ c ∈ code, c ∈ code_chars)
    {piece : List Char} (hpiece : '&' ∉ piece) (state : List Char) :
    ¬ (pair (piece ++ '?' :: ("code=".toList ++ code)) :: state_params state).Perm
      (params piece ++ (utf8 "code".toList, utf8 code) ::
        if state ≠ [] then [(utf8 "state".toList, utf8 state)] else []) := by
  intro hperm
  have hmem := mem_of_merged hcode hpiece (hperm.subset List.mem_cons_self)
  by_cases hstate : state = []
  · rw [if_neg (not_not.mpr hstate)] at hmem
    cases hmem
  · rw [if_pos hstate, List.mem_singleton] at hmem
    rcases merged_pair hcode piece with ⟨-, hpair⟩ | ⟨name, value, hname, heq, hpair⟩
    · -- the name ends with a code
      rw [hpair, Prod.mk.injEq] at hmem
      have hlength := congrArg List.length hmem.1
      have hshort : (utf8 "?code".toList).length = 5 := by decide
      have hfive : (utf8 "state".toList).length = 5 := by decide
      rw [List.length_append, hshort, hfive] at hlength
      have hnil : form_decode piece = [] := List.length_eq_zero_iff.mp (by omega)
      rw [hnil, List.nil_append] at hmem
      exact absurd hmem.1 (by decide)
    · -- the redirect URI has a state of its own, and the new one repeats it with the code
      rw [hpair, Prod.mk.injEq] at hmem
      have hne : piece ≠ [] := by
        rw [heq]
        simp
      rw [if_pos hstate, params_piece hpiece hne, hpair, heq, pair_eq hname, hmem.1, hmem.2] at hperm
      have hrest : (state_params state).Perm
          [(utf8 "state".toList, form_decode value), (utf8 "code".toList, utf8 code)] :=
        (List.perm_cons _).mp (hperm.trans (@List.perm_append_comm _ [_, _] [_]))
      obtain ⟨first, rest, hparams, hfirst⟩ := state_params_eq hstate
      rw [hparams] at hrest
      have hdecode : form_decode first = form_decode value := by
        have hin := hrest.subset List.mem_cons_self
        simp only [List.mem_cons, Prod.mk.injEq, List.not_mem_nil, or_false, true_and] at hin
        rcases hin with hin | ⟨hin, -⟩
        · exact hin
        · exact absurd hin (by decide)
      rcases hfirst with ⟨-, -, rfl⟩ | ⟨more, hmore⟩
      · have hlength := hrest.length_eq
        cases hlength
      · have hbytes := hmem.2
        rw [← hdecode, hmore, utf8_append, utf8_cons] at hbytes
        have hin : '&'.toUInt8 ∈ utf8 "?code=".toList ++ utf8 code :=
          mem_of_append_eq hbytes.symm (form_decode_length_le first)
        rcases List.mem_append.mp hin with hin | hin
        · exact absurd hin (by decide)
        · exact code_no_ampersand hcode hin

/-! ## The round trip -/

/-- What the header escapes, a client decodes. -/
theorem round_trips_location_iff {keep : Char → Bool}
    (hkeep : ∀ c, url_char c = true → keep c = true) (redirect_uri code state target : String) :
    RoundTrips redirect_uri code state (location keep target) ↔
      RoundTrips redirect_uri code state target := by
  have hmap : ∀ part : Option (List Char),
      (part.map (escape keep)).map percent_decode = part.map percent_decode := by
    intro part
    cases part with
    | none => rfl
    | some text =>
      rw [Option.map_some, Option.map_some, Option.map_some, percent_decode_escape hkeep]
  have hquery : ∀ part : Option (List Char),
      params ((part.map (escape keep)).getD []) = params (part.getD []) := by
    intro part
    cases part with
    | none => rfl
    | some text => exact params_escape hkeep text
  have hsplit : split (location keep target).toList = (split target.toList).map (escape keep) := by
    rw [location, String.toList_ofList, split_escape hkeep]
  constructor
  · intro h
    obtain ⟨hscheme, hauthority, hpath, hfragment, hparams⟩ := h
    rw [hsplit] at hscheme hauthority hpath hfragment hparams
    dsimp only [Parts.map] at hscheme hauthority hpath hfragment hparams
    rw [hmap] at hscheme hauthority hfragment
    rw [percent_decode_escape hkeep] at hpath
    rw [hquery] at hparams
    exact ⟨hscheme, hauthority, hpath, hfragment, hparams⟩
  · intro h
    obtain ⟨hscheme, hauthority, hpath, hfragment, hparams⟩ := h
    constructor
    all_goals rw [hsplit]; dsimp only [Parts.map]
    · rw [hmap, hscheme]
    · rw [hmap, hauthority]
    · rw [percent_decode_escape hkeep, hpath]
    · rw [hmap, hfragment]
    · rw [hquery]
      exact hparams

theorem no_fragment_iff {code : List Char} (hcode : ∀ c ∈ code, c ∈ code_chars)
    (state : List Char) : '#' ∉ code_query code state ↔ '#' ∉ state := by
  have hno := not_mem_code hcode no_fragment_in_code
  unfold code_query
  by_cases h : state = []
  · simp [h, hno]
  · simp [h, hno]

/-- The fragment is the one of the redirect URI exactly when there is none. -/
theorem fragment_kept_iff {code : List Char} (hcode : ∀ c ∈ code, c ∈ code_chars)
    (u state : List Char) :
    (split (u ++ '?' :: code_query code state)).fragment.map percent_decode =
        (split u).fragment.map percent_decode ↔ '#' ∉ u ∧ '#' ∉ state := by
  rw [← no_fragment_iff hcode state]
  by_cases hu : '#' ∈ u
  · refine iff_of_false ?_ fun h => h.1 hu
    obtain ⟨b, hb, hlonger⟩ := split_fragment hu
    rw [hb, hlonger, Option.map_some, Option.map_some, Option.some.injEq]
    have hhead : ∀ c ∈ ('?' :: code_query code state).head?, hex_value c = none := by
      intro c hc
      cases hc
      decide
    rw [percent_decode_append b hhead]
    intro heq
    have hlength := congrArg List.length heq
    have hquestion : percent_decode ('?' :: code_query code state) =
        String.utf8EncodeChar '?' ++ percent_decode (code_query code state) :=
      unescape_cons id (by decide) _
    have hpos := encode_length_pos '?'
    rw [hquestion, List.length_append, List.length_append] at hlength
    omega
  · by_cases hq : '#' ∈ code_query code state
    · refine iff_of_false ?_ fun h => h.2 hq
      have hsome := split_some_fragment
        (List.mem_append_right u (List.mem_cons_of_mem '?' hq))
      rw [split_no_fragment hu, Option.map_none, Option.map_eq_none_iff]
      exact hsome
    · refine iff_of_true ?_ ⟨hu, hq⟩
      rw [split_no_fragment hu, split_no_fragment (by simp [hu, hq])]

/-- The parameters that are added are read back exactly when the state stands for itself. -/
theorem added_params_kept_iff {code : List Char} (hcode : ∀ c ∈ code, c ∈ code_chars)
    (state : List Char) :
    (pair ([] ++ ("code=".toList ++ code)) :: state_params state).Perm
        ((utf8 "code".toList, utf8 code) ::
          if state ≠ [] then [(utf8 "state".toList, utf8 state)] else []) ↔
      '&' ∉ state ∧ '+' ∉ state ∧ escapes state = false := by
  have hname : "code=".toList = "code".toList ++ ['='] := by decide
  have hdecode : form_decode "code".toList = utf8 "code".toList := by decide
  have hpair : pair ([] ++ ("code=".toList ++ code)) = (utf8 "code".toList, utf8 code) := by
    rw [List.nil_append, hname, List.append_assoc, List.singleton_append,
      pair_eq (by decide), hdecode, form_decode_code hcode]
  rw [hpair, List.perm_cons, state_params_perm_iff, form_decode_eq_utf8_iff]

theorem literal_iff (text : String) :
    Literal text ↔ '#' ∉ text.toList ∧ '&' ∉ text.toList ∧ '+' ∉ text.toList ∧
      escapes text.toList = false :=
  ⟨fun h => ⟨h.no_fragment, h.no_separator, h.no_plus, h.no_escape⟩,
    fun ⟨hs, hand, hplus, hescape⟩ => ⟨hand, hs, hplus, hescape⟩⟩

/-- The redirect with the code gives the client what it should exactly when the redirect URI has
no query and no fragment and the state stands for itself. -/
theorem round_trips_iff {code : String} (hcode : ∀ c ∈ code.toList, c ∈ code_chars)
    (request : AuthorizeRequest) :
    RoundTrips request.redirect_uri code request.state (redirect_url request code) ↔
      '?' ∉ request.redirect_uri.toList ∧ '#' ∉ request.redirect_uri.toList ∧
        Literal request.state := by
  have hfragment := fragment_kept_iff hcode request.redirect_uri.toList request.state.toList
  have hno := no_fragment_iff hcode request.state.toList
  rw [literal_iff]
  constructor
  · intro h
    have hkept := h.fragment
    have hparams := h.params
    rw [redirect_url_toList] at hkept hparams
    obtain ⟨hu, hs⟩ := hfragment.mp hkept
    rw [added_params_eq] at hparams
    by_cases hquery : '?' ∈ request.redirect_uri.toList
    · exfalso
      obtain ⟨q, hq, hlonger⟩ := split_longer_query hquery hu
      rw [hlonger _ (by simp [hno, hs]), hq, Option.getD_some, Option.getD_some] at hparams
      obtain ⟨front, piece, hpiece, hparams_of⟩ := exists_last_piece q
      have hplain := hparams_of []
      rw [List.append_nil, List.append_nil] at hplain
      have hcons : piece ++ '?' :: code_query code.toList request.state.toList =
          (piece ++ ['?']) ++ code_query code.toList request.state.toList := by simp
      rw [hparams_of, hplain, hcons, params_code_query hcode (by simp [hpiece]), List.append_assoc,
        List.append_assoc, List.perm_append_left_iff] at hparams
      exact merged_not_perm hcode hpiece _ hparams
    · refine ⟨hquery, hu, hs, ?_⟩
      rw [split_query hquery hu (hno.mpr hs), split_no_query hquery hu] at hparams
      dsimp only [Option.getD_some, Option.getD_none] at hparams
      rw [params_nil, List.nil_append, ← List.nil_append (code_query _ _),
        params_code_query hcode List.not_mem_nil] at hparams
      exact (added_params_kept_iff hcode _).mp hparams
  · rintro ⟨hquery, hu, hs, hadded⟩
    have hsplit := split_query hquery hu (hno.mpr hs)
    constructor
    all_goals rw [redirect_url_toList]
    · rw [hsplit]
    · rw [hsplit]
    · rw [hsplit]
    · exact hfragment.mpr ⟨hu, hs⟩
    · rw [hsplit, split_no_query hquery hu, added_params_eq]
      dsimp only [Option.getD_some, Option.getD_none]
      rw [params_nil, List.nil_append, ← List.nil_append (code_query _ _),
        params_code_query hcode List.not_mem_nil]
      exact (added_params_kept_iff hcode _).mpr hadded

/-! ## The endpoint -/

/-- The characters that a `RedirectResponse` does not escape. -/
def kept_in_header (c : Char) : Bool := unreserved c || ":/%#?=@[]!$&'()*+,;".toList.contains c

theorem kept_of_url_char (c : Char) (h : url_char c = true) : kept_in_header c = true := by
  have hkept : "-._~:/?#[]@!$&'()*+,;=%".toList.all kept_in_header = true := by
    decide
  unfold url_char at h
  rcases Bool.or_eq_true_iff.mp h with halnum | hmem
  · simp [kept_in_header, unreserved, halnum]
  · exact List.all_eq_true.mp hkept c (List.contains_iff_mem.mp hmem)

namespace OAuthServer

/-- A code is given out with a redirect to the client. -/
theorem redirects_of_issued {settings : OAuthSettings} {server after : OAuthServer}
    {request : AuthorizeRequest} {code target : String}
    (h : server.authorize settings request code = (.ok target, after))
    (hissued : after.issued ≠ server.issued) : target = redirect_url request code := by
  unfold authorize at h
  split at h
  · cases h
  · split at h
    · cases h
      exact absurd rfl hissued
    · dsimp only at h
      split at h
      · cases h
      · cases h
        rfl

/-- Whatever is asked for, the redirect with a code gives the client what it should exactly when
the redirect URI has no query and no fragment and the state stands for itself. -/
theorem authorize_round_trips_iff {keep : Char → Bool} (hkeep : ∀ c, url_char c = true → keep c = true)
    (settings : OAuthSettings) (server : OAuthServer) (request : AuthorizeRequest)
    (random : List UInt8) (target : String) (after : OAuthServer)
    (hauthorize :
      server.authorize settings request (generate_auth_code random) = (.ok target, after))
    (hissued : after.issued ≠ server.issued) :
    RoundTrips request.redirect_uri (generate_auth_code random) request.state
        (location keep target) ↔
      '?' ∉ request.redirect_uri.toList ∧ '#' ∉ request.redirect_uri.toList ∧
        Literal request.state := by
  rw [redirects_of_issued hauthorize hissued, round_trips_location_iff hkeep,
    round_trips_iff fun c => mem_code]

/-- Alice logs in, with a redirect URI and a state of the client. -/
def login_to (redirect_uri state : String) : AuthorizeRequest :=
  { login_of_alice with redirect_uri, state }

theorem a_plain_state_is_read_back :
    RoundTrips "https://example.com/cb" (generate_auth_code [1, 2, 3]) "a b"
        (location kept_in_header "https://example.com/cb?code=AQID&state=a b") := by
  have hanswer : ({} : OAuthServer).authorize default_settings
      (login_to "https://example.com/cb" "a b") (generate_auth_code [1, 2, 3]) =
        (.ok "https://example.com/cb?code=AQID&state=a b", _) := Prod.ext (by decide) rfl
  have hissued := (authorize_round_trips_iff kept_of_url_char default_settings {}
    (login_to "https://example.com/cb" "a b") [1, 2, 3] _ _ hanswer (by decide)).mpr
  refine hissued ⟨by decide, by decide, ?_⟩
  constructor
  all_goals decide

/-- The redirect URI has a query, and its last parameter takes the code up. -/
theorem the_query_of_the_redirect_uri_takes_the_code_up :
    ¬ ∀ settings server request random target after,
      OAuthServer.authorize settings server request (generate_auth_code random) =
        (.ok target, after) → after.issued ≠ server.issued →
      RoundTrips request.redirect_uri (generate_auth_code random) request.state
        (location kept_in_header target) := by
  intro h
  have hanswer : ({} : OAuthServer).authorize default_settings
      (login_to "https://example.com/cb?tab=1" "") (generate_auth_code [1, 2, 3]) =
        (.ok "https://example.com/cb?tab=1?code=AQID", _) := Prod.ext (by decide) rfl
  have hround := h default_settings {} (login_to "https://example.com/cb?tab=1" "") [1, 2, 3] _ _
    hanswer (by decide)
  exact absurd hround.params (by decide)

end OAuthServer

end trading_platform.mcp_server
