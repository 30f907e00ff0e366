-- GET and POST /login: the sign-in form, and the redirect behind a sign-in. The target of the
-- redirect is a parameter of the request, which is looked at by `urllib.parse.urlparse`.
import TradingPlatform.McpServer.SessionCookie

open trading_platform.shared
open url

namespace trading_platform.mcp_server

/-! ## urllib.parse -/

structure ParseResult where
  scheme : List Char
  netloc : List Char
  deriving DecidableEq

/-- What `urlsplit` reads: blanks and controls in front are stripped, and tabs and line ends are
dropped. -/
def sanitize (url : List Char) : List Char :=
  (url.dropWhile (·.toNat ≤ 0x20)).filter fun c => !(c = '\t' || c = '\r' || c = '\n')

/-- The scheme, if what is before the first colon can be one, and what is behind it. -/
def urlsplit_scheme (url : List Char) : List Char × List Char :=
  match cut ':' url with
  | (name, some rest) =>
    if name.head?.any Char.isAlpha ∧ name.all scheme_char then (name.map Char.toLower, rest)
    else ([], url)
  | (_, none) => ([], url)

def netloc_end (c : Char) : Bool := c = '/' || c = '?' || c = '#'

def urlsplit_netloc : List Char → List Char
  | '/' :: '/' :: rest => rest.takeWhile (!netloc_end ·)
  | _ => []

section Login

-- what `urlsplit` raises for a netloc that is not empty: brackets, and characters that NFKC turns
-- into delimiters
variable (check_netloc : List Char → Except PyErr Unit)

/-- `urllib.parse.urlparse`. The path, the query and the fragment are not looked at. -/
def urlparse (raw : String) : Except PyErr ParseResult := do
  let (scheme, url) := urlsplit_scheme (sanitize raw.toList)
  let netloc := urlsplit_netloc url
  if netloc ≠ [] then check_netloc netloc
  return ⟨scheme, netloc⟩

/-! ## The form -/

def DEFAULT_NEXT : String := "/oauth/authorize"

/-- Lines, each with its end. -/
def lines (texts : List String) : List Char := texts.flatMap fun text => text.toList ++ ['\n']

/-- The form up to the error. -/
def form_head : List Char :=
  lines
    ["<!DOCTYPE html>",
      "<html lang=\"en\">",
      "<head>",
      "  <meta charset=\"utf-8\">",
      "  <meta name=\"viewport\" content=\"width=device-width,initial-scale=1\">",
      "  <title>MCP Server — Sign in</title>",
      "  <style>",
      "    *\x7bbox-sizing:border-box\x7d",
      "    body\x7bfont-family:system-ui,sans-serif;margin:0;display:flex;align-items:center;",
      "         justify-content:center;min-height:100vh;background:#f5f5f5\x7d",
      "    .card\x7bbackground:#fff;border-radius:8px;padding:32px 28px;width:340px;",
      "           box-shadow:0 1px 4px rgba(0,0,0,.15)\x7d",
      "    h2\x7bmargin:0 0 20px;font-size:1.1rem;color:#1a1a1a\x7d",
      "    label\x7bdisplay:block;margin-bottom:14px;font-size:.85rem;color:#444\x7d",
      "    input\x7bdisplay:block;width:100%;padding:9px 10px;margin-top:5px;border:1px solid #ccc;",
      "           border-radius:4px;font-size:.95rem\x7d",
      "    input:focus\x7boutline:2px solid #1a73e8;border-color:transparent\x7d",
      "    button\x7bwidth:100%;padding:10px;margin-top:20px;background:#1a73e8;color:#fff;",
      "            border:none;border-radius:4px;font-size:1rem;cursor:pointer\x7d",
      "    button:hover\x7bbackground:#1557b0\x7d",
      "    .err\x7bcolor:#c62828;font-size:.85rem;margin-bottom:14px;",
      "          border-left:3px solid #c62828;padding-left:8px\x7d",
      "  </style>",
      "</head>",
      "<body>",
      "<div class=\"card\">",
      "  <h2>MCP Server — Sign in</h2>"] ++
    "  ".toList

/-- The form between the error and the value of the hidden input. -/
def form_middle : List Char :=
  '\n' :: lines ["  <form method=\"post\" action=\"/login\">"] ++
    "    <input type=\"hidden\" name=\"next\" value=\"".toList

/-- The form behind the value of the hidden input. -/
def form_tail : List Char :=
  lines
    ["\">",
      "    <label>Username<input type=\"text\" name=\"username\" autocomplete=\"username\" required></label>",
      "    <label>Password<input type=\"password\" name=\"password\" autocomplete=\"current-password\" required></label>",
      "    <button type=\"submit\">Sign in</button>",
      "  </form>",
      "</div>",
      "</body>"] ++
    "</html>".toList

/-- `_FORM_TEMPLATE.format(next=next, error=error)`. -/
def form_template (error next : List Char) : List Char :=
  form_head ++ error ++ form_middle ++ next ++ form_tail

/-! ## The endpoints -/

structure LoginSettings where
  mcp_login_username : String := "mcp-admin"
  mcp_login_password : String := ""
  secret_key : String
  environment : String

variable (settings : LoginSettings) (mac : List UInt8 → List UInt8 → List UInt8)

structure SetCookie where
  key : String
  value : PyStr
  max_age : Int
  httponly : Bool
  samesite : String
  secure : Bool
  path : String

inductive LoginResponse where
  | html (content : List Char) (status_code : Nat)
  | redirect (url : String) (status_code : Nat) (cookie : SetCookie)

def safe_next (raw : String) : Except PyErr String := do
  if raw = "" then return DEFAULT_NEXT
  let parsed ← urlparse check_netloc raw
  if parsed.scheme ≠ [] ∨ parsed.netloc ≠ [] then return DEFAULT_NEXT
  return raw

def render_form (next_url : String) (error : String) : Except PyErr LoginResponse := do
  let error_html := if error ≠ "" then "<p class=\"err\">" ++ error ++ "</p>" else ""
  let next ← safe_next check_netloc next_url
  return .html (form_template error_html.toList next.toList) 200

def login_get (next : String) : Except PyErr LoginResponse := render_form check_netloc next ""

def credentials_valid (username password : String) : Bool :=
  if settings.mcp_login_password = "" then false
  else username = settings.mcp_login_username && password = settings.mcp_login_password

def COOKIE_NAME : String := "mcp_login"

def COOKIE_MAX_AGE_S : Int := 86400

def login_post (now : session_cookie.Time) (username password next : String) :
    Except PyErr LoginResponse := do
  if !credentials_valid settings username password then
    render_form check_netloc next "Invalid username or password."
  else
    let safe_next ← safe_next check_netloc next
    let cookie_val ← session_cookie.create_session_cookie mac username settings.secret_key now
    return .redirect safe_next 303
      { key := COOKIE_NAME, value := cookie_val, max_age := COOKIE_MAX_AGE_S, httponly := true,
        samesite := "lax", secure := settings.environment ≠ "dev", path := "/" }

end Login

end trading_platform.mcp_server
