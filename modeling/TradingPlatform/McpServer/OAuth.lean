-- The OAuth endpoints of the MCP server: GET /oauth/authorize gives out a code, and
-- POST /oauth/token exchanges it for a bearer token. Both are kept in Redis with a TTL.
import TradingPlatform.Lib.Base64
import TradingPlatform.McpServer.Auth

open trading_platform.shared

namespace trading_platform.mcp_server

/-! ## What is stored -/

/-- The JSON that is stored for a code. -/
structure AuthCode where
  code_challenge : String
  redirect_uri : String
  client_id : String
  user_id : String
  state : String
  created_at : Int
  deriving DecidableEq

/-- The keys of one kind in Redis, each with its value and the time in ms from which on it
is gone. -/
abbrev Keys (α : Type) := String → Option (α × Nat)

namespace Keys

variable {α : Type} (keys : Keys α)

def live (now : Nat) (key : String) : Option α :=
  match keys key with
  | some (value, t) => if now < t then some value else none
  | none => none

/-- `SETEX key ttl_s value`. -/
def setex (now : Nat) (key : String) (ttl_s : Int) (value : α) : Except PyErr (Keys α) :=
  if 0 < ttl_s then
    .ok fun k => if k = key then some (value, now + 1000 * ttl_s.toNat) else keys k
  else .error ⟨"ResponseError", "invalid expire time in 'setex' command"⟩

def delete (key : String) : Keys α := fun k => if k = key then none else keys k

theorem of_live {now : Nat} {key : String} {value : α} (h : keys.live now key = some value) :
    ∃ t, keys key = some (value, t) := by
  unfold live at h
  cases hkey : keys key with
  | none =>
    rw [hkey] at h
    cases h
  | some entry =>
    obtain ⟨stored, t⟩ := entry
    rw [hkey] at h
    dsimp only at h
    split at h
    · cases h
      exact ⟨t, rfl⟩
    · cases h

theorem of_delete {key k : String} {entry : α × Nat} (h : keys.delete key k = some entry) :
    k ≠ key ∧ keys k = some entry := by
  unfold delete at h
  split at h
  · cases h
  · exact ⟨‹_›, h⟩

end Keys

/-! ## Settings and libraries -/

structure OAuthSettings where
  auth_code_ttl_s : Int := 120
  access_token_ttl_s : Int := 3600
  allowed_client_ids : String := ""
  oauth_demo_mode : Bool := false
  /-- `str.upper`. -/
  upper : String → String
  sha256 : List UInt8 → List UInt8
  /-- `verify_session_cookie` with the secret key of the settings, at a time in ms. -/
  verify_session_cookie : Nat → String → Option String

variable (settings : OAuthSettings)

/-- `text.encode("ascii")`. -/
def encode_ascii (text : String) : Except PyErr (List UInt8) :=
  if text.toList.all (·.toNat < 128) then .ok (text.toList.map fun c => UInt8.ofNat c.toNat)
  else .error ⟨"UnicodeEncodeError", "'ascii' codec can't encode: ordinal not in range(128)"⟩

/-- `secrets.compare_digest` of two strings. -/
def compare_digest (a b : String) : Except PyErr Bool :=
  if (a.toList ++ b.toList).all (·.toNat < 128) then .ok (a = b)
  else .error ⟨"TypeError", "comparing strings with non-ASCII characters is not supported"⟩

/-- The characters of `urlsafe_b64encode`. -/
def urlsafe (c : Char) : Char := if c = '+' then '-' else if c = '/' then '_' else c

/-- `base64.urlsafe_b64encode(digest).rstrip(b"=").decode("ascii")`. -/
def base64url (bytes : List UInt8) : String :=
  String.ofList (((base64.encode bytes).map urlsafe).reverse.dropWhile (· = '=')).reverse

/-- BASE64URL(SHA256(ASCII(code_verifier))) == code_challenge. -/
def verify_pkce_s256 (code_verifier code_challenge : String) : Except PyErr Bool := do
  let ascii ← encode_ascii code_verifier
  compare_digest (base64url (settings.sha256 ascii)) code_challenge

/-! ## Authorize -/

structure AuthorizeRequest where
  response_type : String
  client_id : String
  redirect_uri : String
  code_challenge : String
  code_challenge_method : String
  state : String
  /-- The cookie `mcp_login`. -/
  cookie : Option String
  /-- The query parameter `user_id`. -/
  user_id : Option String
  /-- The path with the query. -/
  path_with_query : String
  deriving DecidableEq

def allowed_clients : List String :=
  ((settings.allowed_client_ids.toList.splitOn ',').map strip).filter (· ≠ "")

/-- A value that Python takes for true. -/
def truthy (text : Option String) : Option String := text.filter (· ≠ "")

/-- The user of the session cookie, or the one that the demo mode falls back to. -/
def resolve_user (now : Nat) (request : AuthorizeRequest) : Option String :=
  match ((truthy request.cookie).bind fun c => truthy (settings.verify_session_cookie now c)) with
  | some uid => some uid
  | none =>
    if settings.oauth_demo_mode then some ((truthy request.user_id).getD "demo-user") else none

def bad_request (detail : String) : PyErr := ⟨"HTTPException", "400: " ++ detail⟩

/-- What `authorize` checks before it looks for the user. -/
def check_authorize (request : AuthorizeRequest) : Except PyErr Unit :=
  if request.response_type ≠ "code" then
    .error (bad_request "only response_type=code is supported")
  else if request.client_id = "" then .error (bad_request "client_id is required")
  else if request.redirect_uri = "" then .error (bad_request "redirect_uri is required")
  else if request.code_challenge = "" then
    .error (bad_request "code_challenge is required (PKCE)")
  else if settings.upper request.code_challenge_method ≠ "S256" then
    .error (bad_request "only code_challenge_method=S256 is supported")
  else if allowed_clients settings ≠ [] ∧ request.client_id ∉ allowed_clients settings then
    .error ⟨"HTTPException", "403: client_id '" ++ request.client_id ++ "' is not permitted"⟩
  else .ok ()

/-- The characters that `urllib.parse.quote` keeps. -/
def unreserved (c : Char) : Bool := c.isAlphanum || c = '_' || c = '.' || c = '-' || c = '~'

def hex_digit (n : Nat) : Char := "0123456789ABCDEF".toList.getD n '0'

/-- `urllib.parse.quote(text, safe="")`. -/
def quote (text : String) : String :=
  String.ofList (text.toUTF8.toList.flatMap fun b =>
    let c := Char.ofNat b.toNat
    if unreserved c then [c] else ['%', hex_digit (b.toNat / 16), hex_digit (b.toNat % 16)])

def login_url (request : AuthorizeRequest) : String :=
  "/login?next=" ++ quote request.path_with_query

/-- The redirect with the code. -/
def redirect_url (request : AuthorizeRequest) (code : String) : String :=
  request.redirect_uri ++ "?code=" ++ code ++
    if request.state ≠ "" then "&state=" ++ request.state else ""

/-! ## The server -/

structure TokenRequest where
  grant_type : String
  code : String
  code_verifier : String
  redirect_uri : String
  client_id : String
  deriving DecidableEq

/-- A code that was given out, for what request, to which user and when. -/
structure Issued where
  code : String
  request : AuthorizeRequest
  user_id : String
  issued_at : Nat
  deriving DecidableEq

/-- What is stored for the code. -/
def Issued.data (c : Issued) : AuthCode :=
  ⟨c.request.code_challenge, c.request.redirect_uri, c.request.client_id, c.user_id,
    c.request.state, c.issued_at / 1000⟩

/-- A token request that passed every check: the data of its code, and the bearer token that
was generated for it. -/
structure Exchange where
  request : TokenRequest
  code_data : AuthCode
  bearer : String
  deriving DecidableEq

structure Granted where
  exchange : Exchange
  payload : BearerPayload
  deriving DecidableEq

structure OAuthServer where
  /-- In ms. -/
  now : Nat := 0
  codes : Keys AuthCode := fun _ => none
  tokens : Keys BearerPayload := fun _ => none
  issued : List Issued := []
  exchanges : List Exchange := []
  /-- The bearer tokens that were stored. -/
  granted : List Granted := []

namespace OAuthServer

variable (self : OAuthServer)

/-- The URL that the client is redirected to. -/
def authorize (request : AuthorizeRequest) (code : String) : Except PyErr String × OAuthServer :=
  match check_authorize settings request with
  | .error e => (.error e, self)
  | .ok () =>
    match resolve_user settings self.now request with
    | none => (.ok (login_url request), self)
    | some user_id =>
      let c : Issued := ⟨code, request, user_id, self.now⟩
      match self.codes.setex self.now code settings.auth_code_ttl_s c.data with
      | .error e => (.error e, self)
      | .ok codes =>
        (.ok (redirect_url request code), { self with codes, issued := c :: self.issued })

/-- MULTI, GET, DELETE, EXEC. -/
def consume_auth_code (code : String) : Option AuthCode × OAuthServer :=
  (self.codes.live self.now code, { self with codes := self.codes.delete code })

/-- What `token` checks before it takes the code. -/
def check_token (request : TokenRequest) : Except PyErr Unit :=
  if request.grant_type ≠ "authorization_code" then
    .error (bad_request "only grant_type=authorization_code is supported")
  else if request.code = "" then .error (bad_request "code is required")
  else if request.code_verifier = "" then .error (bad_request "code_verifier is required")
  else .ok ()

/-- What `token` checks of the data of the code. -/
def check_code_data (request : TokenRequest) (code_data : AuthCode) : Except PyErr Unit := do
  if !(← verify_pkce_s256 settings request.code_verifier code_data.code_challenge) then
    .error (bad_request "invalid_grant: PKCE verification failed")
  else if request.redirect_uri ≠ "" ∧ request.redirect_uri ≠ code_data.redirect_uri then
    .error (bad_request "invalid_grant: redirect_uri mismatch")
  else .ok ()

/-- A token request up to its bearer token, which is not stored yet. The code is gone
whatever the checks say. -/
def token (request : TokenRequest) (bearer : String) : Except PyErr Exchange × OAuthServer :=
  match check_token request with
  | .error e => (.error e, self)
  | .ok () =>
    match self.consume_auth_code request.code with
    | (none, server) => (.error (bad_request "invalid_grant: code not found or expired"), server)
    | (some code_data, server) =>
      match check_code_data settings request code_data with
      | .error e => (.error e, server)
      | .ok () =>
        let x : Exchange := ⟨request, code_data, bearer⟩
        (.ok x, { server with exchanges := x :: server.exchanges })

/-- What is stored for the bearer token of an exchange. -/
def bearer_payload (x : Exchange) : BearerPayload :=
  ⟨x.code_data.user_id, x.code_data.client_id, "mcp", (self.now / 1000 : Nat),
    (self.now / 1000 : Nat) + settings.access_token_ttl_s⟩

structure TokenResponse where
  access_token : String
  token_type : String
  expires_in : Int

/-- The end of a token request. -/
def store_bearer_token (x : Exchange) : Except PyErr TokenResponse × OAuthServer :=
  let payload := self.bearer_payload settings x
  match self.tokens.setex self.now x.bearer settings.access_token_ttl_s payload with
  | .error e => (.error e, self)
  | .ok tokens =>
    (.ok ⟨x.bearer, "bearer", settings.access_token_ttl_s⟩,
      { self with tokens, granted := ⟨x, payload⟩ :: self.granted })

def lookup_bearer_token (token : String) : Option BearerPayload := self.tokens.live self.now token

end OAuthServer

end trading_platform.mcp_server
