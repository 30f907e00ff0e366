-- Where a sign-in sends the browser. `safe_next` refuses what has a scheme or a netloc as
-- `urlparse` reads it; a browser reads slashes and backslashes otherwise.
import TradingPlatform.Lib.Browser
import TradingPlatform.McpServer.Login

open trading_platform.shared
open url
open browser

namespace trading_platform.mcp_server

/-! ## The two readings of a text -/

/-- `urlsplit` reads what a browser does, and controls at the end. -/
theorem sanitize_eq (text : List Char) :
    ∃ behind, sanitize text = clean text ++ behind ∧ ∀ c ∈ behind, control c = true := by
  obtain ⟨behind, htext, hbehind⟩ := rstrip_append (text.dropWhile control)
  have hfilter : (fun c : Char => !(decide (c = '\t') || decide (c = '\r') || decide (c = '\n'))) =
      fun c => !dropped c := by
    funext c
    unfold dropped
    rw [Bool.or_right_comm]
  refine ⟨behind.filter (!dropped ·), ?_, fun c hc => hbehind c (List.mem_of_mem_filter hc)⟩
  have hstrip : text.dropWhile (fun c => decide (c.toNat ≤ 0x20)) = text.dropWhile control := rfl
  unfold sanitize clean
  rw [hfilter, hstrip, ← List.filter_append, ← htext]

/-- Two slashes of a text, for the one and for the other. -/
theorem two_slashes_clean (text : List Char) :
    two_slashes (clean text) = two_slashes (sanitize text) := by
  obtain ⟨behind, heq, hbehind⟩ := sanitize_eq text
  rw [heq, two_slashes_append _ hbehind]

theorem not_scheme_char_colon : scheme_char ':' = false := by decide

theorem urlsplit_scheme_of_name {name rest : List Char} (halpha : name.head?.any Char.isAlpha = true)
    (hname : name.all scheme_char = true) :
    urlsplit_scheme (name ++ ':' :: rest) = (name.map Char.toLower, rest) := by
  have hcolon : ':' ∉ name := by
    intro h
    have hc := List.all_eq_true.mp hname ':' h
    rw [not_scheme_char_colon] at hc
    cases hc
  unfold urlsplit_scheme
  rw [cut_append hcolon]
  exact if_pos ⟨halpha, hname⟩

/-- A text without a scheme for `urlsplit` has none for a browser. -/
theorem split_scheme_clean {text : List Char} (h : (urlsplit_scheme (sanitize text)).1 = []) :
    split_scheme (clean text) = (none, clean text) := by
  rcases split_scheme_cases (clean text) with hnone | ⟨name, rest, heq, halpha, hname⟩
  · exact hnone
  · exfalso
    obtain ⟨behind, hsanitize, -⟩ := sanitize_eq text
    rw [hsanitize, heq, List.append_assoc, List.cons_append, urlsplit_scheme_of_name halpha hname] at h
    have hnil : name = [] := List.map_eq_nil_iff.mp h
    rw [hnil] at halpha
    cases halpha

/-- Without a scheme, the whole text is read on; with one, it begins with a letter. -/
theorem urlsplit_scheme_cases (url : List Char) :
    urlsplit_scheme url = ([], url) ∨
      (urlsplit_scheme url).1 ≠ [] ∧ url.head?.any Char.isAlpha = true := by
  unfold urlsplit_scheme
  rcases cut_cases ':' url with ⟨-, hcut⟩ | ⟨name, rest, -, hurl, hcut⟩
  · rw [hcut]
    exact Or.inl rfl
  · rw [hcut]
    dsimp only
    split
    · rename_i h
      right
      obtain ⟨c, cs, rfl⟩ : ∃ c cs, name = c :: cs := by
        cases name with
        | nil => cases h.1
        | cons c cs => exact ⟨c, cs, rfl⟩
      rw [hurl]
      exact ⟨List.cons_ne_nil _ _, h.1⟩
    · exact Or.inl rfl

theorem not_two_slashes_of_alpha {text : List Char} (h : text.head?.any Char.isAlpha = true) :
    two_slashes text = false := by
  cases text with
  | nil => rfl
  | cons c cs =>
    have hc : c.isAlpha = true := h
    have hslash : slash c = false := by
      unfold slash
      rw [Bool.or_eq_false_iff]
      constructor
      · refine decide_eq_false ?_
        rintro rfl
        exact absurd hc (by decide)
      · refine decide_eq_false ?_
        rintro rfl
        exact absurd hc (by decide)
    cases cs with
    | nil => rfl
    | cons d cs =>
      rw [two_slashes, hslash]
      rfl

/-! ## What `safe_next` lets through -/

/-- The text names a host behind two slashes, for `urlsplit`. -/
def NamesHost (text : List Char) : Prop := urlsplit_netloc text ≠ []

/-- The text begins with two slashes or backslashes, but not so that `urlsplit` sees a host. -/
def HiddenHost (text : List Char) : Prop := two_slashes text = true ∧ ¬ NamesHost text

instance (text : List Char) : Decidable (HiddenHost text) := by
  unfold HiddenHost NamesHost
  infer_instance

theorem two_slashes_of_netloc {text : List Char} (h : urlsplit_netloc text ≠ []) :
    two_slashes text = true := by
  unfold urlsplit_netloc at h
  split at h
  · rfl
  · exact absurd rfl h

theorem not_hidden_of_alpha {text : List Char} (h : text.head?.any Char.isAlpha = true) :
    ¬ HiddenHost text := by
  intro hhidden
  have hslashes := hhidden.1
  rw [not_two_slashes_of_alpha h] at hslashes
  cases hslashes

section SafeNext

variable {check_netloc : List Char → Except PyErr Unit}

/-- A text without a scheme and a netloc is not refused. -/
theorem urlparse_plain {raw : String}
    (hscheme : urlsplit_scheme (sanitize raw.toList) = ([], sanitize raw.toList))
    (hnetloc : urlsplit_netloc (sanitize raw.toList) = []) :
    urlparse check_netloc raw = .ok ⟨[], []⟩ := by
  unfold urlparse
  rw [hscheme]
  dsimp only
  rw [if_neg (not_not.mpr hnetloc), hnetloc]
  rfl

/-- What is parsed is the scheme and the netloc. -/
theorem of_urlparse {raw : String} {parsed : ParseResult}
    (h : urlparse check_netloc raw = .ok parsed) :
    parsed = ⟨(urlsplit_scheme (sanitize raw.toList)).1,
      urlsplit_netloc (urlsplit_scheme (sanitize raw.toList)).2⟩ := by
  unfold urlparse at h
  dsimp only at h
  by_cases hnetloc : urlsplit_netloc (urlsplit_scheme (sanitize raw.toList)).2 ≠ []
  · rw [if_pos hnetloc] at h
    cases hcheck : check_netloc (urlsplit_netloc (urlsplit_scheme (sanitize raw.toList)).2) with
    | error e =>
      rw [hcheck] at h
      cases h
    | ok _ =>
      rw [hcheck] at h
      exact (Except.ok.inj h).symm
  · rw [if_neg hnetloc] at h
    exact (Except.ok.inj h).symm

/-- What `safe_next` gives is the default, or a text without a scheme and a netloc. -/
theorem safe_next_cases {raw target : String} (h : safe_next check_netloc raw = .ok target) :
    (target = DEFAULT_NEXT ∧ ¬ HiddenHost (sanitize raw.toList)) ∨
      target = raw ∧ urlsplit_scheme (sanitize raw.toList) = ([], sanitize raw.toList) ∧
        urlsplit_netloc (sanitize raw.toList) = [] := by
  unfold safe_next at h
  by_cases hraw : raw = ""
  · rw [if_pos hraw] at h
    cases h
    subst hraw
    exact Or.inl ⟨rfl, by decide⟩
  · rw [if_neg hraw] at h
    cases hparse : urlparse check_netloc raw with
    | error e =>
      rw [hparse] at h
      cases h
    | ok parsed =>
      rw [hparse] at h
      have hparsed := of_urlparse hparse
      simp only [bind, Except.bind] at h
      rcases urlsplit_scheme_cases (sanitize raw.toList) with hscheme | ⟨hscheme, halpha⟩
      · rw [hscheme] at hparsed
        by_cases hnetloc : urlsplit_netloc (sanitize raw.toList) = []
        · rw [if_neg (by simp [hparsed, hnetloc])] at h
          cases h
          exact Or.inr ⟨rfl, hscheme, hnetloc⟩
        · rw [if_pos (by simp [hparsed, hnetloc])] at h
          cases h
          exact Or.inl ⟨rfl, fun hhidden => hhidden.2 hnetloc⟩
      · rw [if_pos (by simp [hparsed, hscheme])] at h
        cases h
        exact Or.inl ⟨rfl, not_hidden_of_alpha halpha⟩

/-- A host that `urlparse` does not see is let through. -/
theorem safe_next_hidden {raw : String} (h : HiddenHost (sanitize raw.toList)) :
    safe_next check_netloc raw = .ok raw := by
  have hraw : raw ≠ "" := by
    rintro rfl
    exact absurd h (by decide)
  have hnetloc : urlsplit_netloc (sanitize raw.toList) = [] := not_not.mp h.2
  unfold safe_next
  rw [if_neg hraw]
  rcases urlsplit_scheme_cases (sanitize raw.toList) with hscheme | ⟨-, halpha⟩
  · rw [urlparse_plain hscheme hnetloc]
    simp only [bind, Except.bind]
    exact if_neg (by simp)
  · exact absurd h (not_hidden_of_alpha halpha)

end SafeNext

/-! ## The redirect -/

section Redirect

variable {Host : Type} (authority : List Char → Option (Host × Option Nat)) (own : Origin Host)

theorem resolve_default : resolve authority own DEFAULT_NEXT.toList = some own := by
  have hscheme : split_scheme (clean DEFAULT_NEXT.toList) = (none, clean DEFAULT_NEXT.toList) := by
    decide
  have hslashes : two_slashes (clean DEFAULT_NEXT.toList) = false := by decide
  rw [resolve_relative authority own hscheme, hslashes]
  rfl

/-- What is let through stays at the server exactly when no host is hidden, or the server's own. -/
theorem safe_next_stays_iff (check_netloc : List Char → Except PyErr Unit) (next : String) :
    (∀ target, safe_next check_netloc next = .ok target →
        resolve authority own target.toList = some own) ↔
      (HiddenHost (sanitize next.toList) →
        absolute authority own.scheme (clean next.toList) = some own) := by
  constructor
  · intro h hhidden
    have hstays := h next (safe_next_hidden hhidden)
    rcases urlsplit_scheme_cases (sanitize next.toList) with hscheme | ⟨-, halpha⟩
    · have hnone := split_scheme_clean (congrArg Prod.fst hscheme)
      have hslashes : two_slashes (clean next.toList) = true := by
        rw [two_slashes_clean]
        exact hhidden.1
      rw [resolve_relative authority own hnone, hslashes, if_pos rfl] at hstays
      exact hstays
    · exact absurd hhidden (not_hidden_of_alpha halpha)
  · intro h target htarget
    rcases safe_next_cases htarget with ⟨rfl, -⟩ | ⟨rfl, hscheme, hnetloc⟩
    · exact resolve_default authority own
    · have hnone := split_scheme_clean (congrArg Prod.fst hscheme)
      rw [resolve_relative authority own hnone, two_slashes_clean]
      by_cases hslashes : two_slashes (sanitize target.toList) = true
      · rw [if_pos hslashes]
        exact h ⟨hslashes, not_not.mpr hnetloc⟩
      · rw [if_neg hslashes]

end Redirect

/-! ## Signing in -/

section SignIn

variable {check_netloc : List Char → Except PyErr Unit} {settings : LoginSettings}
  {username password next : String}

/-- A sign-in redirects to what `safe_next` gives. -/
theorem login_redirects_iff (mac : List UInt8 → List UInt8 → List UInt8) (now : session_cookie.Time)
    (hvalid : credentials_valid settings username password = true) (target : String) :
    (∃ status_code cookie, login_post check_netloc settings mac now username password next =
        .ok (.redirect target status_code cookie)) ↔ safe_next check_netloc next = .ok target := by
  obtain ⟨sig, hsign⟩ := session_cookie.sign_b64 mac settings.secret_key
    (dumps_dict (session_cookie.payload username now))
  unfold login_post
  rw [hvalid]
  simp only [Bool.not_true, Bool.false_eq_true, if_false, bind, Except.bind]
  cases hnext : safe_next check_netloc next with
  | error e =>
    constructor
    · rintro ⟨status_code, cookie, h⟩
      cases h
    · intro h
      cases h
  | ok url =>
    have hcookie : session_cookie.create_session_cookie mac username settings.secret_key now =
        .ok (session_cookie.b64 (dumps_dict (session_cookie.payload username now)) ++
          session_cookie.dot :: sig) := by
      unfold session_cookie.create_session_cookie
      dsimp only
      rw [hsign]
      rfl
    rw [hcookie]
    constructor
    · rintro ⟨status_code, cookie, h⟩
      cases h
      rfl
    · intro h
      cases h
      exact ⟨_, _, rfl⟩

end SignIn

/-- A browser that signs in stays at the scheme, the host and the port of the server exactly when
the parameter `next` hides no host from `urlparse`, or the server's own. -/
theorem login_stays_iff {Host : Type} (authority : List Char → Option (Host × Option Nat))
    (own : Origin Host) (check_netloc : List Char → Except PyErr Unit) (settings : LoginSettings)
    (mac : List UInt8 → List UInt8 → List UInt8) (now : session_cookie.Time)
    (username password next : String)
    (hvalid : credentials_valid settings username password = true) :
    (∀ target status_code cookie, login_post check_netloc settings mac now username password next =
        .ok (.redirect target status_code cookie) →
        resolve authority own target.toList = some own) ↔
      (HiddenHost (sanitize next.toList) →
        absolute authority own.scheme (clean next.toList) = some own) := by
  rw [← safe_next_stays_iff authority own check_netloc next]
  constructor
  · intro h target htarget
    obtain ⟨status_code, cookie, hpost⟩ := (login_redirects_iff mac now hvalid target).mpr htarget
    exact h target status_code cookie hpost
  · intro h target status_code cookie hpost
    exact h target ((login_redirects_iff mac now hvalid target).mp ⟨status_code, cookie, hpost⟩)

/-- Names of hosts. -/
def host_name (text : List Char) : Option (List Char × Option Nat) :=
  if text = [] then none else some (text, none)

def server_origin : Origin (List Char) := ⟨"https".toList, "mcp.example.com".toList, 443⟩

def login_settings : LoginSettings :=
  { mcp_login_password := "password", secret_key := "secret", environment := "prod" }

theorem a_path_stays_at_the_server :
    credentials_valid login_settings "mcp-admin" "password" = true ∧
      ∀ target status_code cookie,
        login_post (fun _ => .ok ()) login_settings (fun _ _ => [1]) ⟨1000, session_cookie.in_range⟩
            "mcp-admin" "password" "/oauth/authorize?state=a//b" =
          .ok (.redirect target status_code cookie) →
        resolve host_name server_origin target.toList = some server_origin := by
  have hvalid : credentials_valid login_settings "mcp-admin" "password" = true := by decide
  have hplain : ¬ HiddenHost (sanitize "/oauth/authorize?state=a//b".toList) := by decide
  have hstays := login_stays_iff host_name server_origin (fun _ => .ok ()) login_settings
    (fun _ _ => [1]) ⟨1000, session_cookie.in_range⟩ "mcp-admin" "password"
    "/oauth/authorize?state=a//b" hvalid
  exact ⟨hvalid, hstays.mpr fun h => absurd h hplain⟩

/-- Three slashes have no netloc for `urlparse`, and a host for a browser. -/
theorem three_slashes_leave_the_server :
    ¬ ∀ (own : Origin (List Char)) check_netloc settings mac now username password next,
      credentials_valid settings username password = true →
      ∀ target status_code cookie,
        login_post check_netloc settings mac now username password next =
          .ok (.redirect target status_code cookie) →
        resolve host_name own target.toList = some own := by
  intro h
  have hvalid : credentials_valid login_settings "mcp-admin" "password" = true := by decide
  have hnext : safe_next (fun _ => .ok ()) "///evil.com" = .ok "///evil.com" :=
    safe_next_hidden (by decide)
  obtain ⟨status_code, cookie, hpost⟩ := (login_redirects_iff (fun _ _ => [1])
    ⟨1000, session_cookie.in_range⟩ hvalid "///evil.com").mpr hnext
  have hstays := h server_origin _ _ _ _ _ _ _ hvalid _ _ _ hpost
  exact absurd hstays (by decide)

end trading_platform.mcp_server
