-- The bearer tokens of the MCP web gateway. The keys of the authorization server are kept for an
-- hour. A request that finds none waits for them, and others go on meanwhile. The settings are a
-- parameter of `require_token` of a model type: a request may bring its own in its body.
import Mathlib
import TradingPlatform.McpWebGateway.PostedTools

open trading_platform.shared

namespace trading_platform.mcp_web_gateway

/-! ## Settings -/

structure McpWebGatewaySettings where
  oauth_issuer_url : String := ""
  oauth_audience : String := "mcp-web-gateway"
  oauth_jwks_url : String := ""
  oauth_jwt_secret : String := ""
  mcp_resource_url : String := "http://localhost:8007"
  session_timeout_s : Int := 300
  max_sessions : Int := 50

/-- `url.rstrip("/")`. -/
def rstrip_slashes (url : String) : String :=
  String.ofList (url.toList.reverse.dropWhile (· = '/')).reverse

structure HTTPException where
  status_code : Nat
  detail : String
  /-- The header `WWW-Authenticate`. -/
  www_authenticate : Option String := none
  deriving DecidableEq

/-! ## Claims -/

/-- `text.split()`. -/
def words (text : String) : List String :=
  ((text.toList.splitOnP PyFloat.isSpace).filter (· ≠ [])).map String.ofList

/-- `scope_str.split() if scope_str else ()`. -/
def scopes_of (scope : Json) : Except PyErr (List String) :=
  if scope.truthy then
    match scope with
    | .str text => .ok (words text)
    | value => .error ⟨"AttributeError", s!"'{type_name value}' object has no attribute 'split'"⟩
  else .ok []

/-- The client is named by `azp`, `client_id` or `aud`. -/
def client_id_of (payload : Dict) : Json :=
  let client_id := Json.orDefault ((Dict.get payload "azp").getD .null)
    (Json.orDefault ((Dict.get payload "client_id").getD .null)
      ((Dict.get payload "aud").getD (.str "")))
  match client_id with
  | .arr (first :: _) => first
  | .arr [] => .str ""
  | value => value

def TokenClaims.from_payload (payload : Dict) : Except PyErr TokenClaims := do
  return {
    sub := str_json ((Dict.get payload "sub").getD (.str ""))
    client_id := str_json (client_id_of payload)
    granted_scopes := ← scopes_of ((Dict.get payload "scope").getD (.str "")) }

/-! ## Decoding -/

inductive JwtKey where
  | jwks (keys : List Json)
  | secret (secret : String)

/-- The arguments of `jwt.decode`. -/
structure JwtArgs where
  token : String
  key : JwtKey
  algorithms : List String
  audience : Option String
  issuer : Option String := none
  options : List (String × Bool)

inductive JwtFailure where
  | jwt_error
  | other (e : PyErr)

namespace McpWebGatewaySettings

variable (cfg : McpWebGatewaySettings)

def audience : Option String := if cfg.oauth_audience = "" then none else some cfg.oauth_audience

def issuer : Option String :=
  if cfg.oauth_issuer_url = "" then none else some (rstrip_slashes cfg.oauth_issuer_url)

def www_authenticate : String :=
  "Bearer realm=\"mcp-web-gateway\", resource_metadata=\"" ++ rstrip_slashes cfg.mcp_resource_url ++
    "/.well-known/oauth-protected-resource\""

/-- What tokens are checked with. -/
inductive Path where
  | jwks (jwks_url : String)
  | secret (secret : String)
  | unset

def path : Path :=
  if cfg.oauth_jwks_url ≠ "" then .jwks cfg.oauth_jwks_url
  else if cfg.oauth_issuer_url ≠ "" then
    .jwks (rstrip_slashes cfg.oauth_issuer_url ++ "/.well-known/jwks.json")
  else if cfg.oauth_jwt_secret ≠ "" then .secret cfg.oauth_jwt_secret
  else .unset

def jwks_args (token : String) (keys : List Json) : JwtArgs where
  token
  key := .jwks keys
  algorithms := ["RS256", "ES256", "RS384", "ES384"]
  audience := cfg.audience
  issuer := cfg.issuer
  options := [("verify_aud", cfg.audience.isSome), ("verify_iss", cfg.issuer.isSome)]

def secret_args (token secret : String) : JwtArgs where
  token
  key := .secret secret
  algorithms := ["HS256"]
  audience := cfg.audience
  options := [("verify_aud", cfg.audience.isSome)]

def token_failed : HTTPException :=
  ⟨401, "Token validation failed", some cfg.www_authenticate⟩

def malformed : HTTPException :=
  ⟨401, "Missing or malformed Authorization header — expected 'Bearer <token>'",
    some cfg.www_authenticate⟩

end McpWebGatewaySettings

def unavailable : HTTPException :=
  { status_code := 503, detail := "Authorization server JWKS endpoint unavailable" }

def unreachable : HTTPException :=
  { status_code := 503, detail := "Unable to reach authorization server JWKS endpoint" }

def unconfigured : HTTPException where
  status_code := 503
  detail := "Gateway OAuth validator not configured (set OAUTH_JWKS_URL or OAUTH_JWT_SECRET)"

/-- What the server makes of an exception that nothing catches. -/
def internal_error : HTTPException := { status_code := 500, detail := "Internal Server Error" }

/-- `authorization[7:].strip()`, where the header starts with `Bearer `. -/
def bearer (authorization : String) : Option String :=
  if "Bearer ".toList.isPrefixOf authorization.toList then
    some (String.ofList (strip (authorization.toList.drop 7)))
  else none

/-! ## Requests in flight -/

/-- In ms. -/
def JWKS_CACHE_TTL : Nat := 3600000

/-- What comes of the request for the keys. -/
inductive JwksReply where
  | keys (keys : List Json)
  | status_error
  | http_error
  | other

inductive Request where
  | fetching (cfg : McpWebGatewaySettings) (token : String)
  /-- The token is accepted, and the endpoint is not called yet. -/
  | accepted (claims : TokenClaims)

/-- Keys that were read from a URL. -/
structure JwksFetch where
  jwks_url : String
  keys : List Json
  fetched_at : Nat

/-- A token that was accepted. -/
structure Decoded where
  cfg : McpWebGatewaySettings
  args : JwtArgs
  decoded_at : Nat
  claims : TokenClaims

/-- The requests for a stream up to the endpoint, and the cache of keys. -/
structure Auth where
  now : Nat := 0
  cache : String → Option (Nat × List Json) := fun _ => none
  requests : Nat → Option Request := fun _ => none
  answers : List (Nat × HTTPException) := []
  /-- The keys that were read, and the tokens that were accepted, oldest first. -/
  fetched : List JwksFetch := []
  decoded : List Decoded := []
  /-- The settings that requests brought. -/
  brought : List McpWebGatewaySettings := []

namespace Auth

variable (cfg : McpWebGatewaySettings) (jwt : Nat → JwtArgs → Except JwtFailure Dict) (self : Auth)

def answer (id : Nat) (e : HTTPException) : Auth :=
  { self with
    requests := Function.update self.requests id none
    answers := self.answers ++ [(id, e)] }

/-- `jwt.decode`, which goes by the time, and `TokenClaims.from_payload`. -/
def decode (id : Nat) (args : JwtArgs) : Auth :=
  match jwt self.now args with
  | .error .jwt_error => self.answer id cfg.token_failed
  | .error (.other _) => self.answer id internal_error
  | .ok payload =>
    match TokenClaims.from_payload payload with
    | .error _ => self.answer id internal_error
    | .ok claims =>
      { self with
        requests := Function.update self.requests id (some (.accepted claims))
        decoded := self.decoded ++ [⟨cfg, args, self.now, claims⟩] }

/-- The keys in the cache, if they are not too old. -/
def cached (jwks_url : String) : Option (List Json) :=
  match self.cache jwks_url with
  | some (fetched_at, keys) => if self.now - fetched_at < JWKS_CACHE_TTL then some keys else none
  | none => none

/-- The keys are in the cache, or they are asked for. -/
def find_keys (id : Nat) (token jwks_url : String) : Auth :=
  match self.cached jwks_url with
  | some keys => self.decode cfg jwt id (cfg.jwks_args token keys)
  | none => { self with requests := Function.update self.requests id (some (.fetching cfg token)) }

/-- `require_token` with the settings, up to the request for the keys. -/
def check_token (id : Nat) (authorization : String) : Auth :=
  match bearer authorization with
  | none => self.answer id cfg.malformed
  | some token =>
    match cfg.path with
    | .jwks jwks_url => self.find_keys cfg jwt id token jwks_url
    | .secret secret => self.decode cfg jwt id (cfg.secret_args token secret)
    | .unset => self.answer id unconfigured

def bring (body : Option McpWebGatewaySettings) : Auth :=
  { self with brought := self.brought ++ body.toList }

/-- `cfg = cfg or _default_settings`, where `cfg` is the body of the request. -/
def require_token (id : Nat) (authorization : String) (body : Option McpWebGatewaySettings) : Auth :=
  (self.bring body).check_token (body.getD cfg) jwt id authorization

/-- `_JWKS_CACHE[jwks_url] = (time.monotonic(), keys)`. -/
def cache_keys (jwks_url : String) (keys : List Json) : Auth :=
  { self with
    cache := Function.update self.cache jwks_url (some (self.now, keys))
    fetched := self.fetched ++ [⟨jwks_url, keys, self.now⟩] }

/-- The rest of `require_token`. Whoever is later overwrites the cache. -/
def fetch_jwks (id : Nat) (token : String) (reply : JwksReply) : Auth :=
  match cfg.path with
  | .jwks jwks_url =>
    match reply with
    | .keys keys => (self.cache_keys jwks_url keys).decode cfg jwt id (cfg.jwks_args token keys)
    | .status_error => self.answer id unavailable
    | .http_error => self.answer id unreachable
    | .other => self.answer id internal_error
  | _ => self

/-! ## Accepted tokens -/

end Auth

/-- The token was checked with keys that were read from the server less than an hour before, or
with the secret where no server is set, and with the audience and the issuer of the settings. -/
structure Vouched (jwt : Nat → JwtArgs → Except JwtFailure Dict) (fetched : List JwksFetch)
    (d : Decoded) : Prop where
  accepted : ∃ payload,
    jwt d.decoded_at d.args = .ok payload ∧ TokenClaims.from_payload payload = .ok d.claims
  checked : ∃ token,
    (∃ f ∈ fetched, d.cfg.path = .jwks f.jwks_url ∧ d.args = d.cfg.jwks_args token f.keys ∧
      f.fetched_at ≤ d.decoded_at ∧ d.decoded_at < f.fetched_at + JWKS_CACHE_TTL) ∨
    ∃ secret, d.cfg.path = .secret secret ∧ d.args = d.cfg.secret_args token secret

theorem Vouched.mono {jwt : Nat → JwtArgs → Except JwtFailure Dict} {fetched more : List JwksFetch}
    {d : Decoded} (h : Vouched jwt fetched d) (hsub : ∀ f ∈ fetched, f ∈ more) :
    Vouched jwt more d := by
  refine ⟨h.accepted, ?_⟩
  obtain ⟨token, ⟨f, hf, hrest⟩ | hsecret⟩ := h.checked
  · exact ⟨token, Or.inl ⟨f, hsub f hf, hrest⟩⟩
  · exact ⟨token, Or.inr hsecret⟩

namespace Auth

variable {settings cfg : McpWebGatewaySettings} {jwt : Nat → JwtArgs → Except JwtFailure Dict}
  {self : Auth}

/-- The settings are those of the gateway, or a request brought them. -/
def Known (settings : McpWebGatewaySettings) (auth : Auth) (cfg : McpWebGatewaySettings) : Prop :=
  cfg = settings ∨ cfg ∈ auth.brought

structure Good (settings : McpWebGatewaySettings) (jwt : Nat → JwtArgs → Except JwtFailure Dict)
    (auth : Auth) : Prop where
  cache : ∀ {jwks_url fetched_at keys}, auth.cache jwks_url = some (fetched_at, keys) →
    ⟨jwks_url, keys, fetched_at⟩ ∈ auth.fetched ∧ fetched_at ≤ auth.now
  decoded : ∀ d ∈ auth.decoded, Vouched jwt auth.fetched d ∧ auth.Known settings d.cfg
  accepted : ∀ {id claims}, auth.requests id = some (.accepted claims) →
    ∃ d ∈ auth.decoded, d.claims = claims
  fetching : ∀ {id cfg token}, auth.requests id = some (.fetching cfg token) →
    auth.Known settings cfg

theorem of_update {requests : Nat → Option Request} {id id' : Nat} {request : Option Request}
    {found : Request} (h : Function.update requests id request id' = some found) :
    request = some found ∨ requests id' = some found := by
  by_cases he : id' = id
  · subst he
    rw [Function.update_self] at h
    exact Or.inl h
  · rw [Function.update_of_ne he] at h
    exact Or.inr h

/-- A request that is done, or waits for keys. -/
theorem good_requests (h : self.Good settings jwt) {id : Nat} {request : Option Request}
    (haccepted : ∀ claims, request ≠ some (.accepted claims))
    (hfetching : ∀ cfg token, request = some (.fetching cfg token) → self.Known settings cfg)
    (answers : List (Nat × HTTPException)) :
    ({ self with
      requests := Function.update self.requests id request
      answers } : Auth).Good settings jwt where
  cache := h.cache
  decoded := h.decoded
  accepted {_ claims} hid := by
    rcases of_update hid with hnew | hold
    · exact absurd hnew (haccepted claims)
    · exact h.accepted hold
  fetching {_ cfg token} hid := by
    rcases of_update hid with hnew | hold
    · exact hfetching cfg token hnew
    · exact h.fetching hold

theorem good_answer (h : self.Good settings jwt) (id : Nat) (e : HTTPException) :
    (self.answer id e).Good settings jwt := good_requests h (by simp) (by simp) _

theorem good_decode (h : self.Good settings jwt) (hcfg : self.Known settings cfg) (id : Nat)
    {args : JwtArgs} (hchecked : ∀ claims payload, jwt self.now args = .ok payload →
      TokenClaims.from_payload payload = .ok claims →
      Vouched jwt self.fetched ⟨cfg, args, self.now, claims⟩) :
    (self.decode cfg jwt id args).Good settings jwt := by
  unfold decode
  split
  · exact good_answer h id _
  · exact good_answer h id _
  · rename_i payload hpayload
    split
    · exact good_answer h id _
    · rename_i claims hclaims
      refine ⟨h.cache, ?_, ?_, ?_⟩
      · intro d hd
        rcases List.mem_append.mp hd with hd | hd
        · exact h.decoded d hd
        · rw [List.mem_singleton.mp hd]
          exact ⟨hchecked claims payload hpayload hclaims, hcfg⟩
      · intro id' claims' hid
        rcases of_update hid with hnew | hold
        · cases hnew
          exact ⟨_, List.mem_append_right _ (List.mem_singleton.mpr rfl), rfl⟩
        · obtain ⟨d, hd, hclaims'⟩ := h.accepted hold
          exact ⟨d, List.mem_append_left _ hd, hclaims'⟩
      · intro id' cfg' token hid
        rcases of_update hid with hnew | hold
        · cases hnew
        · exact h.fetching hold

theorem good_find_keys (h : self.Good settings jwt) (hcfg : self.Known settings cfg) (id : Nat)
    (token : String) {jwks_url : String} (hpath : cfg.path = .jwks jwks_url) :
    (self.find_keys cfg jwt id token jwks_url).Good settings jwt := by
  unfold find_keys
  split
  · rename_i keys hcached
    refine good_decode h hcfg id ?_
    intro claims payload hpayload hclaims
    refine ⟨⟨payload, hpayload, hclaims⟩, token, Or.inl ?_⟩
    unfold cached at hcached
    split at hcached
    · rename_i fetched_at keys' hcache
      obtain ⟨hmem, hle⟩ := h.cache hcache
      split at hcached
      · rename_i hfresh
        cases hcached
        refine ⟨_, hmem, hpath, rfl, hle, ?_⟩
        show self.now < fetched_at + JWKS_CACHE_TTL
        omega
      · cases hcached
    · cases hcached
  · refine good_requests h (by simp) ?_ _
    intro cfg' token' hrequest
    cases hrequest
    exact hcfg

theorem good_check_token (h : self.Good settings jwt) (hcfg : self.Known settings cfg) (id : Nat)
    (authorization : String) : (self.check_token cfg jwt id authorization).Good settings jwt := by
  unfold check_token
  split
  · exact good_answer h id _
  · rename_i token _
    split
    · rename_i hpath
      exact good_find_keys h hcfg id token hpath
    · rename_i secret hpath
      refine good_decode h hcfg id ?_
      intro claims payload hpayload hclaims
      exact ⟨⟨payload, hpayload, hclaims⟩, token, Or.inr ⟨secret, hpath, rfl⟩⟩
    · exact good_answer h id _

theorem Known.bring (h : self.Known settings cfg) (body : Option McpWebGatewaySettings) :
    (self.bring body).Known settings cfg := h.imp_right fun hmem => List.mem_append_left _ hmem

theorem good_bring (h : self.Good settings jwt) (body : Option McpWebGatewaySettings) :
    (self.bring body).Good settings jwt where
  cache := h.cache
  decoded d hd := ⟨(h.decoded d hd).1, (h.decoded d hd).2.bring body⟩
  accepted := h.accepted
  fetching hid := (h.fetching hid).bring body

theorem good_require_token (h : self.Good settings jwt) (id : Nat) (authorization : String)
    (body : Option McpWebGatewaySettings) :
    (self.require_token settings jwt id authorization body).Good settings jwt := by
  refine good_check_token (good_bring h body) ?_ id authorization
  cases body with
  | none => exact Or.inl rfl
  | some cfg => exact Or.inr (List.mem_append_right _ (List.mem_singleton.mpr rfl))

theorem good_cache_keys (h : self.Good settings jwt) (jwks_url : String) (keys : List Json) :
    (self.cache_keys jwks_url keys).Good settings jwt := by
  refine ⟨?_, ?_, h.accepted, h.fetching⟩
  · intro url fetched_at keys' hcache
    have hcache' : Function.update self.cache jwks_url (some (self.now, keys)) url =
        some (fetched_at, keys') := hcache
    by_cases he : url = jwks_url
    · subst he
      rw [Function.update_self] at hcache'
      cases hcache'
      exact ⟨List.mem_append_right _ (List.mem_singleton.mpr rfl), Nat.le_refl _⟩
    · rw [Function.update_of_ne he] at hcache'
      obtain ⟨hmem, hle⟩ := h.cache hcache'
      exact ⟨List.mem_append_left _ hmem, hle⟩
  · intro d hd
    obtain ⟨hvouched, hknown⟩ := h.decoded d hd
    exact ⟨hvouched.mono fun f hf => List.mem_append_left _ hf, hknown⟩

theorem good_fetch_jwks (h : self.Good settings jwt) (hcfg : self.Known settings cfg) (id : Nat)
    (token : String) (reply : JwksReply) :
    (self.fetch_jwks cfg jwt id token reply).Good settings jwt := by
  unfold fetch_jwks
  split
  · rename_i jwks_url hpath
    split
    · rename_i keys
      refine good_decode (good_cache_keys h jwks_url keys) hcfg id ?_
      intro claims payload hpayload hclaims
      refine ⟨⟨payload, hpayload, hclaims⟩, token, Or.inl ?_⟩
      refine ⟨_, List.mem_append_right _ (List.mem_singleton.mpr rfl), hpath, rfl, Nat.le_refl _, ?_⟩
      show self.now < self.now + JWKS_CACHE_TTL
      simp [JWKS_CACHE_TTL]
    · exact good_answer h id _
    · exact good_answer h id _
    · exact good_answer h id _
  · exact h

theorem good_elapse (h : self.Good settings jwt) (ms : Nat) :
    ({ self with now := self.now + ms } : Auth).Good settings jwt where
  cache hcache := ⟨(h.cache hcache).1, Nat.le_trans (h.cache hcache).2 (Nat.le_add_right _ _)⟩
  decoded := h.decoded
  accepted := h.accepted
  fetching := h.fetching

theorem good_start : ({} : Auth).Good settings jwt where
  cache hcache := nomatch hcache
  decoded := nofun
  accepted hrequest := nomatch hrequest
  fetching hrequest := nomatch hrequest

/-! ## What stays accepted -/

theorem decoded_decode (id : Nat) (args : JwtArgs) :
    ∀ d ∈ self.decoded, d ∈ (self.decode cfg jwt id args).decoded := by
  intro d hd
  unfold decode
  split
  · exact hd
  · exact hd
  · split
    · exact hd
    · exact List.mem_append_left _ hd

theorem decoded_require_token (id : Nat) (authorization : String)
    (body : Option McpWebGatewaySettings) :
    ∀ d ∈ self.decoded, d ∈ (self.require_token settings jwt id authorization body).decoded := by
  intro d hd
  have hbrought : d ∈ (self.bring body).decoded := hd
  unfold require_token check_token
  split
  · exact hbrought
  · split
    · unfold find_keys
      split
      · exact decoded_decode id _ d hbrought
      · exact hbrought
    · exact decoded_decode id _ d hbrought
    · exact hbrought

theorem decoded_fetch_jwks (id : Nat) (token : String) (reply : JwksReply) :
    ∀ d ∈ self.decoded, d ∈ (self.fetch_jwks cfg jwt id token reply).decoded := by
  intro d hd
  unfold fetch_jwks
  split
  · split
    · exact decoded_decode id _ d hd
    · exact hd
    · exact hd
    · exact hd
  · exact hd

end Auth

end trading_platform.mcp_web_gateway
