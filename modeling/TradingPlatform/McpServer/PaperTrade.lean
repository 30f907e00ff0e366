-- `request_paper_trade`: the tool, the facade behind it, and the intent that it
-- puts on the stream. A size is taken as it is given, or derived from a notional
-- and a looked-up price; neither is looked at before the intent is built.
import TradingPlatform.McpServer.PriceResolver
import TradingPlatform.McpServer.StrategyFacade
import TradingPlatform.Strategy.Strategies

open resumption
open trading_platform.shared
open trading_platform.execution (RedisPy IncidentLog)
open trading_platform.strategy_service (float_of)

namespace trading_platform.mcp_server

open Decimal (Number)

/-! ## What leaves the facade -/

/-- A row of `strategies`, with the market that the facade reads. -/
structure TradedStrategy extends Strategy where
  market_type : String

/-- An entry of the intents stream. The intent is kept as it is, not as its JSON. -/
structure IntentMessage where
  intent : TradeIntent
  evaluation_id : String
  strategy_id : String

inductive PaperCmd where
  | redis (c : RedisCmd)
  | get_strategy (sid : Uuid)
  | insert_incident (incident : IncidentLog)
  | publish (message : IntentMessage)

abbrev PaperCmd.Ans : PaperCmd → Type
  | .redis c => c.Ans
  | .get_strategy _ => Option TradedStrategy
  | .insert_incident _ => Unit
  | .publish _ => Unit

/-- A program of the facade. -/
abbrev PaperPy (α : Type) := Prog PyErr PaperCmd PaperCmd.Ans α

/-- A program of Redis calls, as a program of the facade. -/
def onPaper {α : Type} : RedisPy α → PaperPy α
  | .done a => .done a
  | .raise e => .raise e
  | .call c k => .call (.redis c) fun r => onPaper (k r)

inductive PaperReply where
  | failed (error message : String)
  | queued (intent_id strategy_id symbol side size : String) (size_usd : Option String)
  deriving DecidableEq

/-- The end of a call before its intent is published: an exception, or a reply. -/
inductive Stop where
  | raised (e : PyErr)
  | replied (r : PaperReply)

def stop {α : Type} (error message : String) : Except Stop α := .error (.replied (.failed error message))

def Stop.py : Stop → PaperPy PaperReply
  | .raised e => .raise e
  | .replied r => return r

/-! ## Sizes -/

/-- `Decimal(str(x))`. The text of a float is always one of a decimal. -/
def decimal_of : PyFloat → Number
  | .fin q => .finite q
  | .inf negative => .infinity negative
  | .nan => .nan

/-- `a / b`, for a positive `b`. -/
def divided : Number → Number → Except PyErr Number
  | .nan, _ => .ok .nan
  | _, .nan => .ok .nan
  | .finite a, .finite b => .ok (.finite (a / b))
  | .finite _, .infinity _ => .ok (.finite 0)
  | .infinity negative, .finite _ => .ok (.infinity negative)
  | .infinity _, .infinity _ => .error Decimal.invalid_operation

/-- `x.quantize(Decimal("0.00001"))`. -/
def quantize_size : Number → Except PyErr Number
  | .finite q => (Decimal.quantize 5 q).map .finite
  | .infinity _ => .error Decimal.invalid_operation
  | .nan => .ok .nan

/-- `if price <= 0: raise`. A comparison with NaN raises too. -/
def positive_price : Number → Except PyErr Unit
  | .finite q => if q ≤ 0 then .error ⟨"ValueError", "price must be positive"⟩ else .ok ()
  | .infinity true => .error ⟨"ValueError", "price must be positive"⟩
  | .infinity false => .ok ()
  | .nan => .error Decimal.invalid_operation

/-- The size for a notional at a price. -/
def derived_size (size_usd price : Number) : Except Stop Number :=
  match (do positive_price price
            quantize_size (← divided size_usd price) : Except PyErr Number) with
  | .ok size => .ok size
  | .error exc => stop "size_derivation_error" exc.msg

/-! ## The arguments -/

/-- `side.upper()`, of ASCII letters. -/
def upper (text : String) : String := String.ofList (text.toList.map Char.toUpper)

def side_of (side_upper : String) : Option OrderSide :=
  if side_upper = "BUY" then some .buy else if side_upper = "SELL" then some .sell else none

/-- What a call is about, once its arguments are read. -/
structure PaperRequest where
  strategy_id : String
  sid : Uuid
  symbol : Json
  side : OrderSide
  size_usd : Option PyFloat
  size : Option PyFloat
  reason : Json

/-- The checks before the strategy is loaded. The arguments are what the client sent. -/
def read_request (strategy_id symbol side : Json) (size_usd size : Option PyFloat)
    (reason : Json) : Except Stop PaperRequest :=
  match strategy_id with
  | .str text =>
    match UUID text with
    | .error _ => stop "invalid_strategy_id" s!"Invalid UUID: {text}"
    | .ok sid =>
      match side with
      | .str side_text =>
        match side_of (upper side_text) with
        | none => stop "invalid_side" s!"side must be BUY or SELL, got '{side_text}'"
        | some order_side =>
          if size_usd = none ∧ size = none then
            stop "missing_size" "Provide at least one of size_usd or size."
          else .ok ⟨text, sid, symbol, order_side, size_usd, size, reason⟩
      | _ => .error (.raised ⟨"AttributeError", "object has no attribute 'upper'"⟩)
  | _ => .error (.raised ⟨"AttributeError", "object has no attribute 'replace'"⟩)

/-- `_EMIT_STATES`, sorted. -/
def EMIT_STATES : List String := ["assisted_live", "bounded_auto_live", "paper_active"]

/-- `MarketType(strategy.market_type or "futures")`, and futures for any other text. -/
def market_type_enum (market_type : String) : MarketType :=
  if market_type = "spot" then .spot else .futures

def validation_error (field : String) : PyErr :=
  ⟨"ValidationError", s!"1 validation error for TradeIntent\n{field}"⟩

/-- A decimal that pydantic takes. -/
def finite_or (field : String) : Number → Except PyErr ℚ
  | .finite q => .ok q
  | _ => .error (validation_error field)

/-- `TradeIntent(...)`: pydantic takes texts for the symbol and finite decimals for the sizes. -/
def build_intent (intent_id : Uuid) (request : PaperRequest) (strategy : TradedStrategy)
    (size : Number) : Except PyErr TradeIntent := do
  let symbol ← match request.symbol with
    | .str s => .ok s
    | _ => .error (validation_error "symbol")
  let size ← finite_or "size" size
  let size_usd ← match request.size_usd with
    | none => .ok none
    | some x => (finite_or "size_usd" (decimal_of x)).map some
  return {
    intent_id
    strategy_id := some request.sid
    strategy_version := some strategy.current_version
    symbol
    market_type := market_type_enum strategy.market_type
    side := request.side
    order_type := .market
    size
    size_usd
    metadata := [("source", .str "mcp_paper_trade"), ("reason", request.reason)] }

/-! ## The facade -/

section Facade

variable (loads : String → Except PyErr Json)

/-- The price for the market of the strategy, or for the complementary market. -/
def find_price (market_type symbol : String) : PaperPy (Option Number) := do
  match ← onPaper (resolve_price loads market_type symbol) with
  | some p => return some p
  | none =>
    if market_type = "spot" then onPaper (resolve_price loads "futures" symbol)
    else if market_type = "futures" then onPaper (resolve_price loads "spot" symbol)
    else return none

/-- `strategy.market_type or "futures"`. -/
def TradedStrategy.market (strategy : TradedStrategy) : String :=
  if strategy.market_type = "" then "futures" else strategy.market_type

/-- A float as its JSON. -/
def float_json : PyFloat → Json
  | .fin q => .num (Decimal.str q)
  | .inf negative => .num (if negative then "-Infinity" else "Infinity")
  | .nan => .num "NaN"

def price_unavailable (request : PaperRequest) (market_type : String) : IncidentLog where
  incident_type := "paper_price_unavailable"
  severity := "error"
  description := s!"Price unavailable for {request.symbol.pyStr}/{market_type}: " ++
    "cannot derive size from size_usd"
  job_id := none
  strategy_id := some request.sid
  context := .obj [
    ("symbol", request.symbol),
    ("market_type", .str market_type),
    ("side", .str request.side.value),
    ("size_usd", (request.size_usd.map float_json).getD .null),
    ("strategy_id", .str request.strategy_id),
    ("sources_tried", .arr [
      .str "analytics_snapshot",
      .str "market_price_key",
      .str "book_ticker",
      .str "analytics_snapshot_fallback_mtype",
      .str "market_price_key_fallback_mtype",
      .str "book_ticker_fallback_mtype"])]

/-- The size of the intent: the one that was given, or else the notional at the price of the
moment. -/
def find_size (request : PaperRequest) (strategy : TradedStrategy) :
    PaperPy (Except Stop Number) := do
  match request.size with
  | some size => return .ok (decimal_of size)
  | none =>
    match ← find_price loads strategy.market request.symbol.pyStr with
    | some price =>
      return derived_size (decimal_of (request.size_usd.getD .nan)) price
    | none => do
      (Prog.perform (V := PaperCmd.Ans)
        (.insert_incident (price_unavailable request strategy.market))).swallow
      return stop "price_unavailable"
        ("Cannot derive size from size_usd=" ++
          ((request.size_usd.map float_json).getD .null).pyStr ++
          s!" — no price data available for {request.symbol.pyStr}. " ++
          "Please provide the 'size' parameter directly.")

/-- The intent is built and put on the stream. -/
def publish_intent (intent_id : Uuid) (request : PaperRequest) (strategy : TradedStrategy)
    (size : Number) : PaperPy PaperReply := do
  let intent ← Prog.ofExcept (build_intent intent_id request strategy size)
  Prog.perform (V := PaperCmd.Ans) (.publish ⟨intent, "", request.sid⟩)
  return .queued intent.intent_id request.strategy_id intent.symbol intent.side.value
    (Decimal.str intent.size) ((intent.size_usd.filter (· ≠ 0)).map Decimal.str)

/-- What follows the arguments. -/
def trade (intent_id : Uuid) (request : PaperRequest) : PaperPy PaperReply := do
  match ← Prog.perform (V := PaperCmd.Ans) (.get_strategy request.sid) with
  | none => return .failed "not_found" s!"Strategy {request.strategy_id} not found"
  | some strategy =>
    if strategy.state ∉ EMIT_STATES then
      return .failed "strategy_not_active"
        (s!"Strategy is in state '{strategy.state}'. Must be in one of: " ++
          "['assisted_live', 'bounded_auto_live', 'paper_active'] to request paper trades.")
    else
      match ← find_size loads request strategy with
      | .error s => s.py
      | .ok size => publish_intent intent_id request strategy size

/-- The facade. `intent_id` is the UUID that is drawn for the intent. -/
def request_paper_trade (intent_id : Uuid) (strategy_id symbol side : Json)
    (size_usd size : Option PyFloat) (reason : Json) : PaperPy PaperReply :=
  match read_request strategy_id symbol side size_usd size reason with
  | .error s => s.py
  | .ok request => trade loads intent_id request

/-! ## The tool -/

/-- `args.get(key, "")`. -/
def argument (args : List (String × Json)) (key : String) : Json := (args.lookup key).getD (.str "")

/-- `float(value) if value is not None else None`. -/
def float_argument (args : List (String × Json)) (key : String) : Except PyErr (Option PyFloat) :=
  match args.lookup key with
  | none => .ok none
  | some .null => .ok none
  | some value => (float_of value).map some

/-- The first of the arguments that is missing. -/
def missing_argument (args : List (String × Json)) : Option String :=
  ["strategy_id", "symbol", "side"].find? fun key => !(argument args key).truthy

/-- The tool of that name. -/
def request_paper_trade_tool (intent_id : Uuid) (args : List (String × Json)) :
    PaperPy PaperReply :=
  match missing_argument args with
  | some key => return .failed "missing_argument" s!"'{key}' is required"
  | none => do
    let size_usd ← Prog.ofExcept (float_argument args "size_usd")
    let size ← Prog.ofExcept (float_argument args "size")
    request_paper_trade loads intent_id (argument args "strategy_id") (argument args "symbol")
      (argument args "side") size_usd size (argument args "reason")

/-- What the client gets: the reply, or an error that names the exception. -/
inductive ToolResult where
  | content (reply : PaperReply)
  | tool_error (message : String)

/-- `tools/call` of `_dispatch`. -/
def call_tool (intent_id : Uuid) (args : List (String × Json)) : PaperPy ToolResult := do
  match ← (request_paper_trade_tool loads intent_id args).attempt with
  | .ok reply => return .content reply
  | .error exc => return .tool_error s!"Internal error: {exc.msg}"

/-- An error comes back. -/
def ToolResult.isError : ToolResult → Bool
  | .content (.failed _ _) => true
  | .content (.queued ..) => false
  | .tool_error _ => true

end Facade

end trading_platform.mcp_server
