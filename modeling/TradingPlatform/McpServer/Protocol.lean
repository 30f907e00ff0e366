-- The JSON-RPC protocol of the MCP server. A request is answered on one line of the event stream,
-- or it raises and is not answered.
import TradingPlatform.Shared.JsonValue
import TradingPlatform.Lib.EventStream

open event_stream
open trading_platform.shared

namespace trading_platform.mcp_server.protocol

/-! ## Python values -/

def texts (names : List String) : PyJson := .list (names.map fun name => .str (py_text name))

def hex_text (width n : Nat) : List Char :=
  let digits := Nat.toDigits 16 n
  List.replicate (width - digits.length) '0' ++ digits

section Repr

-- `str.isprintable` of a character beyond ASCII
variable (printable : CodePoint → Bool)

/-- One character of `repr` of a string. -/
def repr_point (quote : Char) (p : CodePoint) : PyStr :=
  if p = code_point quote ∨ p = code_point '\\' then [code_point '\\', p]
  else if p = code_point '\n' then py_text "\\n"
  else if p = code_point '\r' then py_text "\\r"
  else if p = code_point '\t' then py_text "\\t"
  else if p.1 < 32 ∨ p.1 = 127 then py_str ('\\' :: 'x' :: hex_text 2 p.1)
  else if p.1 < 127 ∨ printable p then [p]
  else if p.1 < 0x100 then py_str ('\\' :: 'x' :: hex_text 2 p.1)
  else if p.1 < 0x10000 then py_str ('\\' :: 'u' :: hex_text 4 p.1)
  else py_str ('\\' :: 'U' :: hex_text 8 p.1)

def repr_str (s : PyStr) : PyStr :=
  let quote := if code_point '\'' ∈ s ∧ code_point '"' ∉ s then '"' else '\''
  code_point quote :: (s.flatMap (repr_point printable quote) ++ [code_point quote])

def repr_float : PyFloat → PyStr
  | .fin q => py_str (shortest_text q)
  | .inf negative => py_text (if negative then "-inf" else "inf")
  | .nan => py_text "nan"

mutual

/-- `repr(value)`. -/
def repr : PyJson → PyStr
  | .null => py_text "None"
  | .bool true => py_text "True"
  | .bool false => py_text "False"
  | .int n => py_str (dumps_int n)
  | .float x => repr_float x
  | .str s => repr_str printable s
  | .list items => py_text "[" ++ repr_items items ++ py_text "]"
  | .dict fields => py_text "\x7b" ++ repr_fields fields ++ py_text "\x7d"

def repr_items : List PyJson → PyStr
  | [] => []
  | [v] => repr v
  | v :: vs => repr v ++ py_text ", " ++ repr_items vs

def repr_fields : List (PyStr × PyJson) → PyStr
  | [] => []
  | [(key, v)] => repr_str printable key ++ py_text ": " ++ repr v
  | (key, v) :: fields =>
    repr_str printable key ++ py_text ": " ++ repr v ++ py_text ", " ++ repr_fields fields

end

/-- `str(value)`. -/
def str (value : PyJson) : PyStr :=
  match value with
  | .str s => s
  | value => repr printable value

end Repr

/-! ## Tools -/

/-- The schema of a parameter of a tool. -/
inductive Property where
  | plain (type : String)
  | described (type description : String)
  | one_of (type : String) (enum : List String) (description : String)

def Property.json : Property → PyJson
  | plain type => py_dict [("type", .str (py_text type))]
  | described type description =>
    py_dict [("type", .str (py_text type)), ("description", .str (py_text description))]
  | one_of type enum description =>
    py_dict [("type", .str (py_text type)), ("enum", texts enum),
      ("description", .str (py_text description))]

structure ToolDefinition where
  name : String
  description : String
  properties : List (String × Property)
  /-- Without it, the schema has no such key. -/
  required : List String := []

def ToolDefinition.json (self : ToolDefinition) : PyJson :=
  let schema := [("type", .str (py_text "object")),
    ("properties", py_dict (self.properties.map fun p => (p.1, p.2.json)))]
  py_dict [("name", .str (py_text self.name)), ("description", .str (py_text self.description)),
    ("inputSchema", py_dict (if self.required = [] then schema
      else schema ++ [("required", texts self.required)]))]

def TOOL_DEFINITIONS : List ToolDefinition := [
  { name := "get_symbol_snapshot"
    description :=
      "Get the latest market state for a trading symbol. Returns market price, order book " ++
      "metrics, flow analytics (CVD, delta, RVOL), futures data (funding rate, OI, liquidation " ++
      "clusters), and technical indicators. All data is read-only from the analytics hot-state in " ++
      "Redis."
    properties := [
      ("symbol", .described "string" "Trading pair, e.g. BTCUSDT"),
      ("market_type", .one_of "string" ["futures", "spot"] "Market type. Default: futures")]
    required := ["symbol"] },
  { name := "list_strategies"
    description :=
      "List all strategies with optional filters by symbol and lifecycle state. Returns id, name, " ++
      "state, market_type, symbol_filters, and current_version."
    properties := [
      ("symbol", .described "string" "Filter to strategies that include this symbol"),
      ("state", .described "string"
        "Filter by lifecycle state (draft, simulation, paper_active, ...)"),
      ("limit", .described "integer" "Max rows to return (1–100). Default: 50")] },
  { name := "get_strategy_details"
    description :=
      "Get full detail for a single strategy: definition, current version rules, parameters, " ++
      "approval level, and the most recent evaluation result."
    properties := [
      ("strategy_id", .described "string" "Strategy UUID")]
    required := ["strategy_id"] },
  { name := "get_recent_executions"
    description :=
      "List recent execution jobs with their status, symbol, side, and result. Filterable by " ++
      "strategy and symbol."
    properties := [
      ("strategy_id", .described "string" "Filter by strategy UUID"),
      ("symbol", .described "string" "Filter by symbol"),
      ("limit", .described "integer" "Max rows (1–100). Default: 20")] },
  { name := "get_incidents"
    description :=
      "List recent execution incidents. Captures price unavailability errors, adapter failures, " ++
      "stream auth errors, and other execution anomalies. Filterable by symbol and start " ++
      "timestamp."
    properties := [
      ("symbol", .described "string" "Filter by symbol in incident context"),
      ("since_ts", .described "integer"
        "Only incidents after this Unix timestamp in milliseconds"),
      ("limit", .described "integer" "Max rows (1–200). Default: 50")] },
  { name := "simulate_strategy_on_snapshot"
    description :=
      "Dry-run evaluate a strategy against the latest analytics snapshot for a symbol. Returns " ++
      "signal, direction, confidence, explanation, and a hypothetical TradeIntent if the signal " ++
      "fires. Nothing is published to the execution stream."
    properties := [
      ("strategy_id", .described "string" "Strategy UUID"),
      ("symbol", .described "string" "Symbol to evaluate against, e.g. BTCUSDT"),
      ("market_type", .one_of "string" ["futures", "spot"] "Market type. Default: futures")]
    required := ["strategy_id", "symbol"] },
  { name := "simulate_strategy_on_range"
    description :=
      "Request a range-based strategy back-test. NOTE: Full historical replay is not yet " ++
      "implemented. This tool returns a stub response explaining the limitation and recommends " ++
      "simulate_strategy_on_snapshot instead."
    properties := [
      ("strategy_id", .plain "string"),
      ("symbol", .plain "string"),
      ("start_ms", .plain "integer"),
      ("end_ms", .plain "integer")]
    required := ["strategy_id"] },
  { name := "request_paper_trade"
    description :=
      "Submit a paper-mode trade intent for a strategy. The intent is published to " ++
      "stream:strategy:intents and processed by the execution service which enforces risk checks, " ++
      "approval levels, and paper-only mode. The strategy must be in paper_active, assisted_live, " ++
      "or bounded_auto_live state."
    properties := [
      ("strategy_id", .described "string" "Strategy UUID"),
      ("symbol", .described "string" "Trading pair, e.g. BTCUSDT"),
      ("side", .one_of "string" ["BUY", "SELL"] "Trade direction"),
      ("size_usd", .described "number"
        "Notional USD size. Current price is read from Redis to derive size."),
      ("size", .described "number"
        "Asset size in base units (e.g. BTC quantity). Overrides size_usd."),
      ("reason", .described "string"
        "Optional rationale for the trade (logged in intent metadata)")]
    required := ["strategy_id", "symbol", "side"] },
  { name := "update_strategy_state"
    description :=
      "Advance or revert a strategy's lifecycle state. Enforces the strategy state machine " ++
      "(DRAFT→SIMULATION→PAPER_ACTIVE→…) and approval level requirements. Requires a justification " ++
      "for audit logging."
    properties := [
      ("strategy_id", .described "string" "Strategy UUID"),
      ("target_state", .described "string"
        "Target lifecycle state (e.g. simulation, paper_active, paused)"),
      ("justification", .described "string"
        "Required: reason for the transition (used for audit log)"),
      ("approval_level", .described "string"
        ("Caller approval level (l0_readonly … l4_bounded_auto). Optional; enforces minimum " ++
          "required level for target state."))]
    required := ["strategy_id", "target_state", "justification"] },
  { name := "get_account_connection_status"
    description :=
      "Get the live exchange connection and WebSocket stream health for an account. Returns " ++
      "connection_status, stream_status, stream age, last event timestamp, stale flag (true if no " ++
      "event in 120 s), and source_of_truth (redis_live / db_fallback). Useful for diagnosing why " ++
      "live account data may be stale or unavailable."
    properties := [
      ("account_id", .described "string"
        "Exchange account UUID. Omit to get status for all active accounts.")] },
  { name := "get_account_balances"
    description :=
      "Get live account balances (from Redis cache if available, otherwise DB). Shows free, " ++
      "locked, and total for each asset with non-zero balance."
    properties := [
      ("account_id", .described "string" "Exchange account UUID"),
      ("min_total", .described "number"
        "Only include assets with total >= this value. Default: 0")] },
  { name := "get_account_positions"
    description :=
      "Get open positions for an account (futures and spot). Returns symbol, side, quantity, " ++
      "entry price, mark price, and unrealized PnL."
    properties := [
      ("account_id", .described "string" "Exchange account UUID")] },
  { name := "get_open_orders"
    description :=
      "List open orders (NEW or PARTIALLY_FILLED) for an account. Filterable by symbol."
    properties := [
      ("account_id", .described "string" "Exchange account UUID"),
      ("symbol", .described "string" "Filter by trading pair, e.g. BTCUSDT"),
      ("limit", .described "integer" "Max orders to return (1–200). Default: 50")] },
  { name := "get_recent_fills"
    description :=
      "List recent trade fills for an account, ordered by timestamp descending. Includes price, " ++
      "quantity, commission, realized PnL, and maker/taker flag."
    properties := [
      ("account_id", .described "string" "Exchange account UUID"),
      ("symbol", .described "string" "Filter by trading pair"),
      ("limit", .described "integer" "Max fills to return (1–100). Default: 20")] },
  { name := "get_stream_health"
    description :=
      "Report health of all active account WebSocket streams and internal Redis streams. Shows " ++
      "per-account stream status, age, and healthy flag; plus length and consumer-group lag for " ++
      "each internal stream (strategy:intents, execution:events, binance:raw, etc.). Use this to " ++
      "diagnose data pipeline issues or confirm streams are live."
    properties := [] },
  { name := "check_live_trade_policy"
    description :=
      "Dry-run evaluation of the live trading policy for a specific account and symbol. Returns " ++
      "whether all four gates would pass (enabled flag, account allowlist, symbol allowlist, " ++
      "notional cap) WITHOUT submitting any order. Use this to understand the current policy state " ++
      "before attempting live trading."
    properties := [
      ("symbol", .described "string" "Trading pair to evaluate policy against, e.g. BTCUSDT"),
      ("account_id", .described "string" "Exchange account UUID to check against allowlist"),
      ("notional_usd", .described "number"
        "Hypothetical order size in USD to check against the notional cap")]
    required := ["symbol"] }]

/-- The keys of `_HANDLERS`, in their order. -/
def HANDLERS : List String :=
  ["get_symbol_snapshot", "list_strategies", "get_strategy_details", "get_recent_executions",
    "get_incidents", "simulate_strategy_on_snapshot", "simulate_strategy_on_range",
    "request_paper_trade", "update_strategy_state", "get_account_connection_status",
    "get_account_balances", "get_account_positions", "get_open_orders", "get_recent_fills",
    "check_live_trade_policy", "get_stream_health"]

/-- The tools that are listed are the ones that are handled. -/
theorem listed_perm_handlers : (TOOL_DEFINITIONS.map (·.name)).Perm HANDLERS := by
  decide

/-! ## Responses -/

def PROTOCOL_VERSION : String := "2024-11-05"

def result_response (id_ result : PyJson) : PyJson :=
  py_dict [("jsonrpc", .str (py_text "2.0")), ("id", id_), ("result", result)]

def error_response (id_ : PyJson) (code : Int) (message : PyStr) : PyJson :=
  py_dict [("jsonrpc", .str (py_text "2.0")), ("id", id_),
    ("error", py_dict [("code", .int code), ("message", .str message)])]

def ok (id_ result : PyJson) : Except PyErr (List Char) := dumps (result_response id_ result)

def error (id_ : PyJson) (code : Int) (message : PyStr) : Except PyErr (List Char) :=
  dumps (error_response id_ code message)

def content (message : PyStr) (is_error : Bool) : PyJson :=
  py_dict [("content", .list [py_dict [("type", .str (py_text "text")), ("text", .str message)]]),
    ("isError", .bool is_error)]

/-- The result of a tool, as a text. -/
def tool_content (data : PyJson) : Except PyErr PyJson := do
  let written ← dumps data
  return content (py_str written) false

def tool_error (message : PyStr) : PyJson := content message true

def initialize_result (server_name server_version : String) : PyJson :=
  py_dict [("protocolVersion", .str (py_text PROTOCOL_VERSION)),
    ("capabilities", py_dict [("tools", .dict [])]),
    ("serverInfo", py_dict [("name", .str (py_text server_name)), ("version", .str (py_text server_version))])]

def tools_list_result : PyJson := py_dict [("tools", .list (TOOL_DEFINITIONS.map (·.json)))]

/-! ## Requests -/

structure McpServerSettings where
  server_name : String := "trading-platform-mcp"
  server_version : String := "0.1.0"

section Requests

variable (printable : CodePoint → Bool) (settings : McpServerSettings)
-- what a handler makes of its arguments: what it returns, or `str(exc)` of what it raises
variable (handler : String → PyJson → Except PyStr PyJson)

/-- `value == name`. -/
def is_text (value : PyJson) (name : String) : Bool :=
  match value with
  | .str s => s = py_text name
  | _ => false

/-- `value or {}`. -/
def or_empty (value : PyJson) : PyJson := if value.truthy then value else .dict []

def unhashable : PyErr := ⟨"TypeError", "unhashable type"⟩

/-- The handler that a value is the name of. A list and a dict cannot be looked up. -/
def handler_of : PyJson → Except PyErr (Option String)
  | .str s => .ok (HANDLERS.find? fun name => py_text name = s)
  | .list _ => .error unhashable
  | .dict _ => .error unhashable
  | _ => .ok none

def unknown_tool (tool_name : PyJson) : PyStr :=
  py_text "Unknown tool '" ++ str printable tool_name ++ py_text "'. Available: " ++
    repr printable (texts HANDLERS)

/-- The block of `_dispatch` that calls a handler; all that it raises is told to the client. -/
def call_handler (name : String) (id_ arguments : PyJson) : Except PyErr (List Char) :=
  let told (exc : PyStr) := ok id_ (tool_error (py_text "Internal error: " ++ exc))
  match handler name arguments with
  | .error exc => told exc
  | .ok data =>
    match (tool_content data).bind (ok id_) with
    | .ok response => .ok response
    | .error exc => told (py_text exc.msg)

/-- `_dispatch`. -/
def dispatch (method id_ params : PyJson) : Except PyErr (List Char) :=
  if is_text method "initialize" then
    ok id_ (initialize_result settings.server_name settings.server_version)
  else if is_text method "notifications/initialized" then ok id_ (.dict [])
  else if is_text method "tools/list" then ok id_ tools_list_result
  else if is_text method "tools/call" then do
    let tool_name ← params.get "name" (.str [])
    let arguments ← params.get "arguments" .null
    match ← handler_of tool_name with
    | none => ok id_ (tool_error (unknown_tool printable tool_name))
    | some name => call_handler handler name id_ (or_empty arguments)
  else if is_text method "ping" then ok id_ (.dict [])
  else error id_ (-32601) (py_text "Method not found: " ++ str printable method)

/-- `handle_message`: the response that is put on the queue of the session. -/
def handle_message (body : PyJson) : Except PyErr (List Char) := do
  let method ← body.get "method" (.str [])
  let id_ ← body.get "id" .null
  let params ← body.get "params" .null
  dispatch printable settings handler method id_ (or_empty params)

end Requests

/-! ## What is written of a dict -/

/-- The text of a dict stands between braces. -/
theorem dumps_dict_braces {fields : List (PyStr × PyJson)} {response : List Char}
    (h : dumps (.dict fields) = .ok response) : ∃ inner, response = '{' :: (inner ++ ['}']) := by
  rw [dumps] at h
  obtain ⟨inner, -, h⟩ := of_bind_ok h
  cases h
  exact ⟨inner, rfl⟩

theorem writable_tools : Writable tools_list_result := by
  have hproperty : ∀ p : Property, Writable p.json := by
    intro p
    cases p <;> simp [Property.json, texts]
  have htool : ∀ t : ToolDefinition, Writable t.json := by
    intro t
    have hproperties : Writable (py_dict (t.properties.map fun p => (p.1, p.2.json))) := by
      rw [writable_py_dict]
      intro f hf
      obtain ⟨p, -, rfl⟩ := List.mem_map.mp hf
      exact hproperty p.2
    unfold ToolDefinition.json
    dsimp only
    split <;> simp [texts, hproperties]
  simp [tools_list_result, htool]

/-! ## Which requests are answered -/

section Answers

variable {printable : CodePoint → Bool} {settings : McpServerSettings}
  {handler : String → PyJson → Except PyStr PyJson}

/-- A response is one line of printable ASCII, and is read as a JSON-RPC response to the id. -/
structure Responds (id_ : PyJson) (is_result : Bool) (response : List Char) : Prop where
  printable : Printable response
  reply : if is_result then
      ∃ result, json_loads response = .ok (result_response (read_back id_) result)
    else ∃ code message,
      json_loads response = .ok (error_response (read_back id_) code message)

theorem responds_ok {id_ result : PyJson} (hid : Writable id_) (hresult : Writable result) :
    ∃ response, ok id_ result = .ok response ∧
      json_loads response = .ok (result_response (read_back id_) (read_back result)) ∧
        Responds id_ true response := by
  have hwritable : Writable (result_response id_ result) := by simp [result_response, hid, hresult]
  obtain ⟨response, hdumps, hread⟩ := json_loads_dumps hwritable
  have hkeys := read_py_dict [("jsonrpc", .str (py_text "2.0")), ("id", id_),
    ("result", result)] (by simp)
  rw [result_response, hkeys] at hread
  have hversion : build (join (.str (py_text "2.0"))) = .str (py_text "2.0") := by simp [join, build]
  simp only [List.map_cons, List.map_nil, hversion] at hread
  exact ⟨response, hdumps, hread, printable_dumps _ hdumps, _, hread⟩

theorem responds_error {id_ : PyJson} (hid : Writable id_) {code : Int}
    (hcode : Writable (.int code)) (message : PyStr) :
    ∃ response, error id_ code message = .ok response ∧ Responds id_ false response := by
  have hwritable : Writable (error_response id_ code message) := by
    simp [error_response, hid, hcode]
  obtain ⟨response, hdumps, hread⟩ := json_loads_dumps hwritable
  have hkeys := read_py_dict [("jsonrpc", .str (py_text "2.0")), ("id", id_),
    ("error", py_dict [("code", .int code), ("message", .str message)])] (by simp)
  have herror := read_py_dict [("code", .int code), ("message", .str message)] (by simp)
  rw [error_response, hkeys] at hread
  have hversion : build (join (.str (py_text "2.0"))) = .str (py_text "2.0") := by simp [join, build]
  simp only [List.map_cons, List.map_nil, hversion, herror] at hread
  exact ⟨response, hdumps, printable_dumps _ hdumps, code, rejoined message, hread⟩

theorem writable_content (message : PyStr) (is_error : Bool) : Writable (content message is_error) := by
  simp [content]

/-- The result of a call: what the handler returns, as a text, or what it raises. -/
def call_result (handler : String → PyJson → Except PyStr PyJson) (name : String)
    (arguments : PyJson) : PyJson :=
  match handler name arguments with
  | .error exc => tool_error (py_text "Internal error: " ++ exc)
  | .ok data =>
    match dumps data with
    | .ok written => content (py_str written) false
    | .error exc => tool_error (py_text "Internal error: " ++ py_text exc.msg)

theorem writable_call_result (name : String) (arguments : PyJson) :
    Writable (call_result handler name arguments) := by
  unfold call_result
  split
  · exact writable_content _ _
  · split
    · exact writable_content _ _
    · exact writable_content _ _

/-- Whatever a handler does, its call is answered with a result. -/
theorem call_handler_eq {id_ : PyJson} (hid : Writable id_) (name : String) (arguments : PyJson) :
    call_handler handler name id_ arguments = ok id_ (call_result handler name arguments) := by
  unfold call_handler call_result
  cases handler name arguments with
  | error exc => rfl
  | ok data =>
    cases hdumps : dumps data with
    | error exc => simp only [tool_content, hdumps, bind, Except.bind]
    | ok written =>
      obtain ⟨response, hok, -⟩ := responds_ok hid (writable_content (py_str written) false)
      simp only [tool_content, hdumps, bind, Except.bind, pure, Except.pure, hok]

/-- The methods that are answered with a result. -/
def METHODS : List String :=
  ["initialize", "notifications/initialized", "tools/list", "tools/call", "ping"]

/-- A value that can be looked up in a dict. -/
def hashable : PyJson → Bool
  | .list _ => false
  | .dict _ => false
  | _ => true

theorem handler_of_ok_iff {tool_name : PyJson} :
    (∃ name, handler_of tool_name = .ok name) ↔ hashable tool_name = true := by
  cases tool_name <;> simp [handler_of, hashable]

theorem handler_of_text {name : String} (h : name ∈ HANDLERS) :
    handler_of (.str (py_text name)) = .ok (some name) := by
  have hfind : (HANDLERS.find? fun n => py_text n = py_text name) = some name := by
    cases hfound : HANDLERS.find? fun n => py_text n = py_text name with
    | none =>
      have hne := List.find?_eq_none.mp hfound name h
      simp at hne
    | some n =>
      have hname : n = name := by simpa using List.find?_some hfound
      rw [hname]
  exact congrArg Except.ok hfind

/-- The parameters of a call are a dict, with a name that can be looked up. -/
def CallReady (params : PyJson) : Prop :=
  ∃ fields, params = .dict fields ∧
    hashable ((PyJson.lookup "name" fields).getD (.str [])) = true

theorem get_dict (fields : List (PyStr × PyJson)) (key : String) (default : PyJson) :
    (PyJson.dict fields).get key default = .ok ((PyJson.lookup key fields).getD default) := rfl

theorem get_of_not_dict {v : PyJson} (h : ∀ fields, v ≠ .dict fields) (key : String)
    (default : PyJson) : ∃ e, v.get key default = .error e := by
  cases v with
  | dict fields => exact absurd rfl (h fields)
  | _ => exact ⟨_, rfl⟩

theorem eq_of_is_text {value : PyJson} {name : String} (h : is_text value name = true) :
    value = .str (py_text name) := by
  cases value with
  | str s => rw [of_decide_eq_true h]
  | _ => cases h

theorem dispatch_of_call (id_ : PyJson) (params : List (PyStr × PyJson)) :
    dispatch printable settings handler (.str (py_text "tools/call")) id_ (.dict params) = (do
      match ← handler_of ((PyJson.lookup "name" params).getD (.str [])) with
      | none =>
        ok id_ (tool_error (unknown_tool printable ((PyJson.lookup "name" params).getD (.str []))))
      | some name =>
        call_handler handler name id_ (or_empty ((PyJson.lookup "arguments" params).getD .null))) := by
  simp [dispatch, is_text, get_dict, bind, Except.bind]

variable (printable settings handler) in
/-- A call that is ready is answered with a result. -/
theorem dispatch_call_responds {id_ params : PyJson} (hid : Writable id_) (h : CallReady params) :
    ∃ response, dispatch printable settings handler (.str (py_text "tools/call")) id_ params =
      .ok response ∧ Responds id_ true response := by
  obtain ⟨fields, rfl, hname⟩ := h
  obtain ⟨name, hlookup⟩ := handler_of_ok_iff.mpr hname
  rw [dispatch_of_call, hlookup]
  cases name with
  | none =>
    obtain ⟨response, hok, -, hresponds⟩ := responds_ok hid (writable_content _ true)
    exact ⟨response, hok, hresponds⟩
  | some name =>
    have hresult : Writable (call_result handler name
        (or_empty ((PyJson.lookup "arguments" fields).getD .null))) := writable_call_result name _
    obtain ⟨response, hok, -, hresponds⟩ := responds_ok hid hresult
    refine ⟨response, ?_, hresponds⟩
    rw [← hok]
    exact call_handler_eq hid _ _

variable (printable settings handler) in
/-- A call that is not ready raises. -/
theorem dispatch_call_raises (id_ : PyJson) {params : PyJson} (h : ¬ CallReady params) :
    ∃ e, dispatch printable settings handler (.str (py_text "tools/call")) id_ params = .error e := by
  by_cases hdict : ∃ fields, params = .dict fields
  · obtain ⟨fields, rfl⟩ := hdict
    rw [dispatch_of_call]
    cases hname : handler_of ((PyJson.lookup "name" fields).getD (.str [])) with
    | error e => exact ⟨e, rfl⟩
    | ok name => exact absurd ⟨fields, rfl, handler_of_ok_iff.mp ⟨name, hname⟩⟩ h
  · obtain ⟨e, he⟩ := get_of_not_dict (fun fields hfields => hdict ⟨fields, hfields⟩) "name" (.str [])
    refine ⟨e, ?_⟩
    simp [dispatch, is_text, he, bind, Except.bind]

variable (printable settings handler) in
/-- Another method is answered whatever its parameters are. -/
theorem dispatch_responds {method id_ : PyJson} (hid : Writable id_)
    (hmethod : is_text method "tools/call" = false) (params : PyJson) :
    ∃ response, dispatch printable settings handler method id_ params = .ok response ∧
      Responds id_ (METHODS.any fun name => is_text method name) response := by
  have hresult : ∀ {result : PyJson}, Writable result →
      ∃ response, ok id_ result = .ok response ∧ Responds id_ true response := by
    intro result h
    obtain ⟨response, hok, -, hresponds⟩ := responds_ok hid h
    exact ⟨response, hok, hresponds⟩
  have hempty : Writable (.dict []) := trivial
  have hinitialize : Writable (initialize_result settings.server_name settings.server_version) := by
    simp [initialize_result, hempty]
  unfold dispatch METHODS
  simp only [List.any_cons, List.any_nil, hmethod, Bool.false_or, Bool.or_false]
  by_cases h1 : is_text method "initialize" = true
  · simpa [h1] using hresult hinitialize
  by_cases h2 : is_text method "notifications/initialized" = true
  · simpa [h1, h2] using hresult hempty
  by_cases h3 : is_text method "tools/list" = true
  · simpa [h1, h2, h3] using hresult writable_tools
  by_cases h4 : is_text method "ping" = true
  · simpa [h1, h2, h3, h4] using hresult hempty
  · have hcode : Writable (.int (-32601)) := by
      unfold Writable
      decide
    simpa [h1, h2, h3, h4] using responds_error hid hcode _

/-- When a request is answered: its body is a dict, and the parameters of a call are ready. -/
def Answered (body : PyJson) : Prop :=
  ∃ fields, body = .dict fields ∧
    (is_text ((PyJson.lookup "method" fields).getD (.str [])) "tools/call" = true →
      CallReady (or_empty ((PyJson.lookup "params" fields).getD .null)))

/-- The id of a request, and whether its method is one of those that have a result. -/
def id_of (body : PyJson) : PyJson :=
  match body with
  | .dict fields => (PyJson.lookup "id" fields).getD .null
  | _ => .null

def known (body : PyJson) : Bool :=
  match body with
  | .dict fields =>
    METHODS.any fun name => is_text ((PyJson.lookup "method" fields).getD (.str [])) name
  | _ => false

theorem handle_dict (fields : List (PyStr × PyJson)) :
    handle_message printable settings handler (.dict fields) =
      dispatch printable settings handler ((PyJson.lookup "method" fields).getD (.str []))
        ((PyJson.lookup "id" fields).getD .null)
        (or_empty ((PyJson.lookup "params" fields).getD .null)) := rfl

theorem writable_field {fields : List (PyStr × PyJson)} (h : WritableFields fields) (key : String) :
    Writable ((PyJson.lookup key fields).getD .null) := by
  have hfields : ∀ fields, WritableFields fields → ∀ f ∈ fields, Writable f.2 := by
    intro fields
    induction fields with
    | nil => simp
    | cons f fields ih =>
      intro h
      exact List.forall_mem_cons.mpr ⟨h.1, ih h.2⟩
  unfold PyJson.lookup
  cases hfind : fields.reverse.find? (·.1 = py_str key.toList) with
  | none => trivial
  | some f => exact hfields fields h f (List.mem_reverse.mp (List.mem_of_find?_eq_some hfind))

end Answers

end trading_platform.mcp_server.protocol
