-- The policy of the MCP web gateway: which tools it exposes, and which scope each of them
-- needs.
import TradingPlatform.McpWebGateway.Proxy

open trading_platform.shared

namespace trading_platform.mcp_web_gateway

/-! ## Policy -/

def ALLOWED_TOOLS : List String :=
  ["get_account_connection_status", "get_stream_health", "get_account_balances",
    "get_account_positions", "get_recent_fills", "get_incidents", "check_live_trade_policy",
    "get_symbol_snapshot", "list_strategies", "get_strategy_details", "get_recent_executions",
    "get_open_orders"]

def BLOCKED_TOOLS : List String :=
  ["request_paper_trade", "update_strategy_state", "simulate_strategy_on_snapshot",
    "simulate_strategy_on_range"]

def TOOL_SCOPE_MAP : List (String × String) :=
  [("get_account_connection_status", "mcp:account:read"),
    ("get_stream_health", "mcp:account:read"),
    ("get_account_balances", "mcp:account:read"),
    ("get_account_positions", "mcp:account:read"),
    ("get_recent_fills", "mcp:account:read"),
    ("get_open_orders", "mcp:account:read"),
    ("check_live_trade_policy", "mcp:account:read"),
    ("get_incidents", "mcp:tools:read"),
    ("get_symbol_snapshot", "mcp:tools:read"),
    ("list_strategies", "mcp:strategy:read"),
    ("get_strategy_details", "mcp:strategy:read"),
    ("get_recent_executions", "mcp:strategy:read")]

/-- A value that can be looked up in a set or a dict. -/
def hashable : Json → Bool
  | .arr _ | .obj _ => false
  | _ => true

def unhashable (value : Json) : PyErr := ⟨"TypeError", s!"unhashable type: '{type_name value}'"⟩

/-- `value in names`. -/
def is_in (names : List String) (value : Json) : Except PyErr Bool :=
  if hashable value then
    match value with
    | .str s => .ok (s ∈ names)
    | _ => .ok false
  else .error (unhashable value)

/-- `TOOL_SCOPE_MAP.get(tool_name)`. -/
def scope_of (tool_name : Json) : Except PyErr (Option String) :=
  if hashable tool_name then
    match tool_name with
    | .str s => .ok ((TOOL_SCOPE_MAP.find? (·.1 = s)).map (·.2))
    | _ => .ok none
  else .error (unhashable tool_name)

/-- What is raised if the tool may not be called. -/
def check_tool_call (tool_name : Json) (granted_scopes : List String) : Except Raised Unit :=
  let name := str_json tool_name
  match is_in BLOCKED_TOOLS tool_name with
  | .error e => .error (.other e)
  | .ok true =>
    .error (.denied
      s!"tool '{name}' is not exposed by this gateway (write/simulation tools are blocked)")
  | .ok false =>
    match is_in ALLOWED_TOOLS tool_name with
    | .error e => .error (.other e)
    | .ok false => .error (.denied s!"tool '{name}' is not available through this gateway")
    | .ok true =>
      match scope_of tool_name with
      | .error e => .error (.other e)
      | .ok none => .ok ()
      | .ok (some scope) =>
        if scope ≠ "" ∧ scope ∉ granted_scopes then
          .error (.denied s!"token missing required scope '{scope}' for tool '{name}'")
        else .ok ()

/-- The tool is one of those that the gateway exposes, and its scope was granted. -/
def Granted (granted_scopes : List String) (tool_name : Json) : Prop :=
  ∃ tool ∈ ALLOWED_TOOLS, tool_name = .str tool ∧
    ∃ scope ∈ granted_scopes, (tool, scope) ∈ TOOL_SCOPE_MAP

/-- A message that calls a tool calls one that was granted. -/
def GrantedCall (granted_scopes : List String) (m : Message) : Prop :=
  m.method = "tools/call" → ∃ tool_name, m.params.get "name" = .ok (some tool_name) ∧
    Granted granted_scopes tool_name

/-! ## The policy as a predicate -/

theorem scope_of_hashable {tool_name : Json} (h : hashable tool_name = true) :
    ∃ scope, scope_of tool_name = .ok scope := by
  unfold scope_of
  rw [if_pos h]
  split
  · exact ⟨_, rfl⟩
  · exact ⟨_, rfl⟩

theorem scope_of_unhashable {tool_name : Json} (h : hashable tool_name ≠ true) :
    scope_of tool_name = .error (unhashable tool_name) := by
  unfold scope_of
  rw [if_neg h]

theorem allowed_not_blocked : ∀ tool ∈ ALLOWED_TOOLS, tool ∉ BLOCKED_TOOLS := by decide +kernel

/-- Every allowed tool has a scope. -/
theorem allowed_has_scope : ∀ tool ∈ ALLOWED_TOOLS, ∃ p ∈ TOOL_SCOPE_MAP, p.1 = tool := by
  decide +kernel

theorem scope_of_entry :
    ∀ p ∈ TOOL_SCOPE_MAP, TOOL_SCOPE_MAP.find? (·.1 = p.1) = some p ∧ p.2 ≠ "" := by
  decide +kernel

/-- A tool that is allowed needs the scope of its entry. -/
theorem check_allowed {tool scope : String} (htool : tool ∈ ALLOWED_TOOLS)
    (hentry : (tool, scope) ∈ TOOL_SCOPE_MAP) (granted_scopes : List String) :
    check_tool_call (.str tool) granted_scopes =
      if scope ∈ granted_scopes then .ok ()
      else .error (.denied s!"token missing required scope '{scope}' for tool '{tool}'") := by
  obtain ⟨hfind, hscope⟩ := scope_of_entry (tool, scope) hentry
  have hblocked : is_in BLOCKED_TOOLS (.str tool) = .ok false := by
    simp [is_in, hashable, allowed_not_blocked tool htool]
  have hallowed : is_in ALLOWED_TOOLS (.str tool) = .ok true := by
    simp [is_in, hashable, htool]
  have hof : scope_of (.str tool) = .ok (some scope) := by
    show Except.ok ((TOOL_SCOPE_MAP.find? (·.1 = tool)).map (·.2)) = _
    rw [hfind]
    rfl
  unfold check_tool_call
  simp only [hblocked, hallowed, hof]
  by_cases hgranted : scope ∈ granted_scopes
  · rw [if_pos hgranted, if_neg (fun h => h.2 hgranted)]
  · rw [if_neg hgranted, if_pos ⟨hscope, hgranted⟩]
    rfl

theorem check_of_granted {granted_scopes : List String} {tool_name : Json}
    (h : Granted granted_scopes tool_name) : check_tool_call tool_name granted_scopes = .ok () := by
  obtain ⟨tool, htool, rfl, scope, hscope, hentry⟩ := h
  rw [check_allowed htool hentry, if_pos hscope]

theorem check_of_not_granted {granted_scopes : List String} {tool_name : Json}
    (hname : hashable tool_name = true) (h : ¬ Granted granted_scopes tool_name) :
    ∃ reason, check_tool_call tool_name granted_scopes = .error (.denied reason) := by
  have hin : ∀ names, is_in names tool_name = .ok true ∨ is_in names tool_name = .ok false := by
    intro names
    unfold is_in
    rw [if_pos hname]
    split
    · rename_i s
      by_cases hs : s ∈ names
      · exact Or.inl (by rw [decide_eq_true hs])
      · exact Or.inr (by rw [decide_eq_false hs])
    · exact Or.inr rfl
  rcases hin BLOCKED_TOOLS with hblocked | hblocked
  · exact ⟨_, by simp only [check_tool_call, hblocked]; rfl⟩
  · rcases hin ALLOWED_TOOLS with hallowed | hallowed
    · have htool : ∃ tool ∈ ALLOWED_TOOLS, tool_name = .str tool := by
        unfold is_in at hallowed
        rw [if_pos hname] at hallowed
        split at hallowed
        · rename_i tool
          exact ⟨tool, by simpa using hallowed, rfl⟩
        · cases hallowed
      obtain ⟨tool, htool, rfl⟩ := htool
      obtain ⟨⟨_, scope⟩, hentry, rfl⟩ := allowed_has_scope tool htool
      have hscope : scope ∉ granted_scopes := by
        intro hscope
        exact h ⟨_, htool, rfl, scope, hscope, hentry⟩
      have hcheck := check_allowed htool hentry granted_scopes
      rw [if_neg hscope] at hcheck
      exact ⟨_, hcheck⟩
    · exact ⟨_, by simp only [check_tool_call, hblocked, hallowed]; rfl⟩

end trading_platform.mcp_web_gateway
