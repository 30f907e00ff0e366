-- Who calls the MCP server: a bearer token that the OAuth endpoints gave out, or the API key.
import TradingPlatform.Shared.Float

open trading_platform.shared

namespace trading_platform.mcp_server

inductive AuthMethod where
  | oauth
  | api_key
  deriving DecidableEq

structure McpIdentity where
  user_id : String
  client_id : String
  auth_method : AuthMethod
  scope : String := ""
  deriving DecidableEq

/-- What is stored for a bearer token. -/
structure BearerPayload where
  user_id : String
  client_id : String
  scope : String
  created_at : Int
  expires_at : Int
  deriving DecidableEq

/-- `text.strip()`. -/
def strip (cs : List Char) : String :=
  String.ofList ((cs.dropWhile PyFloat.isSpace).reverse.dropWhile PyFloat.isSpace).reverse

/-- The identity of a caller, or HTTP 401. `lookup` is `lookup_bearer_token`. -/
def verify_mcp_auth (mcp_api_key : String) (lookup : String → Option BearerPayload)
    (authorization x_api_key : String) : Except PyErr McpIdentity :=
  if "Bearer ".toList.isPrefixOf authorization.toList then
    match lookup (strip (authorization.toList.drop 7)) with
    | none => .error ⟨"HTTPException", "401: Bearer token invalid or expired"⟩
    | some payload => .ok ⟨payload.user_id, payload.client_id, .oauth, payload.scope⟩
  else if x_api_key ≠ "" ∧ x_api_key = mcp_api_key then
    .ok ⟨"api-key-user", "mcp-api-key", .api_key, ""⟩
  else .error ⟨"HTTPException", "401: Invalid or missing credentials"⟩

end trading_platform.mcp_server
