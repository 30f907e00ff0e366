-- The data that the services exchange: JSON values, the enumerations, trade
-- intents, execution requests, risk limits and risk decisions.
import TradingPlatform.Shared.Decimal

namespace trading_platform.shared

/-! ## JSON -/

/-- A JSON value as `json.loads` gives it. A number is the text that `str`
gives for the Python number. -/
inductive Json where
  | null
  | bool (b : Bool)
  | num (text : String)
  | str (s : String)
  | arr (items : List Json)
  | obj (fields : List (String × Json))
  deriving Inhabited

namespace Json

/-- `d.get(key)` of a dict; a value that is no dict has no `get`. -/
def get (key : String) : Json → Except PyErr (Option Json)
  | .obj fields => .ok ((fields.find? (·.1 = key)).map (·.2))
  | _ => .error ⟨"AttributeError", "object has no attribute 'get'"⟩

/-- Python's truth of the value. -/
def truthy : Json → Bool
  | .null => false
  | .bool b => b
  | .num text => !(text = "0" || text = "0.0" || text = "-0.0")
  | .str s => !(s = "")
  | .arr items => !items.isEmpty
  | .obj fields => !fields.isEmpty

/-- `value or default`. -/
def orDefault (value default : Json) : Json := if value.truthy then value else default

/-- `str(value)`. Of a list or a dict only the bracket is kept: no number and
no keyword starts with one. -/
def pyStr : Json → String
  | .null => "None"
  | .bool true => "True"
  | .bool false => "False"
  | .num text => text
  | .str s => s
  | .arr _ => "["
  | .obj _ => "\x7b"

end Json

/-- `str(x)` of an optional decimal. -/
def strOption : Option ℚ → String
  | some q => Decimal.str q
  | none => "None"

/-! ## Enumerations -/

inductive MarketType where
  | spot | futures
  deriving DecidableEq, Repr

def MarketType.value : MarketType → String
  | .spot => "spot"
  | .futures => "futures"

inductive OrderSide where
  | buy | sell
  deriving DecidableEq, Repr

def OrderSide.value : OrderSide → String
  | .buy => "BUY"
  | .sell => "SELL"

inductive OrderType where
  | limit | market | stop | stop_market | take_profit | take_profit_market
  | trailing_stop_market | limit_maker
  deriving DecidableEq, Repr

def OrderType.value : OrderType → String
  | .limit => "LIMIT"
  | .market => "MARKET"
  | .stop => "STOP"
  | .stop_market => "STOP_MARKET"
  | .take_profit => "TAKE_PROFIT"
  | .take_profit_market => "TAKE_PROFIT_MARKET"
  | .trailing_stop_market => "TRAILING_STOP_MARKET"
  | .limit_maker => "LIMIT_MAKER"

/-- `OrderType(text)`, if the text is one. -/
def OrderType.ofValue (text : String) : Option OrderType :=
  [limit, market, stop, stop_market, take_profit, take_profit_market, trailing_stop_market,
    limit_maker].find? fun t => t.value = text

inductive TimeInForce where
  | GTC | IOC | FOK | GTX | GTD
  deriving DecidableEq, Repr

def TimeInForce.value : TimeInForce → String
  | .GTC => "GTC"
  | .IOC => "IOC"
  | .FOK => "FOK"
  | .GTX => "GTX"
  | .GTD => "GTD"

/-- `TimeInForce(text)`, if the text is one. -/
def TimeInForce.ofValue (text : String) : Option TimeInForce :=
  [GTC, IOC, FOK, GTX, GTD].find? fun t => t.value = text

inductive TradingMode where
  | paper | live
  deriving DecidableEq, Repr

def TradingMode.value : TradingMode → String
  | .paper => "paper"
  | .live => "live"

/-- `TradingMode(text)`. -/
def TradingMode.ofValue (text : String) : Except PyErr TradingMode :=
  if text = "paper" then .ok .paper
  else if text = "live" then .ok .live
  else .error ⟨"ValueError", s!"'{text}' is not a valid TradingMode"⟩

inductive ApprovalLevel where
  | l0_readonly | l1_simulation | l2_paper | l3_assisted_live | l4_bounded_auto
  deriving DecidableEq, Repr

/-- `ApprovalLevel(text)`. -/
def ApprovalLevel.ofValue (text : String) : Except PyErr ApprovalLevel :=
  if text = "l0_readonly" then .ok .l0_readonly
  else if text = "l1_simulation" then .ok .l1_simulation
  else if text = "l2_paper" then .ok .l2_paper
  else if text = "l3_assisted_live" then .ok .l3_assisted_live
  else if text = "l4_bounded_auto" then .ok .l4_bounded_auto
  else .error ⟨"ValueError", s!"'{text}' is not a valid ApprovalLevel"⟩

def ApprovalLevel.value : ApprovalLevel → String
  | .l0_readonly => "l0_readonly"
  | .l1_simulation => "l1_simulation"
  | .l2_paper => "l2_paper"
  | .l3_assisted_live => "l3_assisted_live"
  | .l4_bounded_auto => "l4_bounded_auto"

inductive StrategyState where
  | draft | simulation | paper_active | assisted_live | bounded_auto_live | paused | rolled_back
  | archived
  deriving DecidableEq, Repr

def StrategyState.value : StrategyState → String
  | .draft => "draft"
  | .simulation => "simulation"
  | .paper_active => "paper_active"
  | .assisted_live => "assisted_live"
  | .bounded_auto_live => "bounded_auto_live"
  | .paused => "paused"
  | .rolled_back => "rolled_back"
  | .archived => "archived"

/-- `StrategyState(text)`. -/
def StrategyState.ofValue (text : String) : Except PyErr StrategyState :=
  if text = "draft" then .ok .draft
  else if text = "simulation" then .ok .simulation
  else if text = "paper_active" then .ok .paper_active
  else if text = "assisted_live" then .ok .assisted_live
  else if text = "bounded_auto_live" then .ok .bounded_auto_live
  else if text = "paused" then .ok .paused
  else if text = "rolled_back" then .ok .rolled_back
  else if text = "archived" then .ok .archived
  else .error ⟨"ValueError", s!"'{text}' is not a valid StrategyState"⟩

/-- A text that is a strategy state is the value of that state. -/
theorem StrategyState.eq_value_of_ofValue {text : String} {s : StrategyState}
    (h : StrategyState.ofValue text = .ok s) : text = s.value := by
  unfold StrategyState.ofValue at h
  repeat' split at h
  all_goals first
    | (cases h; assumption)
    | cases h

/-- The place of a level in `_LEVEL_ORDER`. -/
def level_rank : ApprovalLevel → Nat
  | .l0_readonly => 0
  | .l1_simulation => 1
  | .l2_paper => 2
  | .l3_assisted_live => 3
  | .l4_bounded_auto => 4

def check_approval_level (user_level required_level : ApprovalLevel) : Bool :=
  level_rank required_level ≤ level_rank user_level

def can_execute_live (user_level : ApprovalLevel) : Bool :=
  check_approval_level user_level .l3_assisted_live

/-- The level that a strategy needs to enter a state: the table of the source, and
its default. -/
def state_requirement (target_state : StrategyState) : ApprovalLevel :=
  match target_state with
  | .simulation => .l1_simulation
  | .paper_active => .l2_paper
  | .assisted_live => .l3_assisted_live
  | .bounded_auto_live => .l4_bounded_auto
  | _ => .l4_bounded_auto

def can_activate_strategy (user_level : ApprovalLevel) (target_state : StrategyState) : Bool :=
  check_approval_level user_level (state_requirement target_state)

/-! ## Identifiers -/

/-- A UUID, as its canonical text. -/
abbrev Uuid := String

def isHexDigit (c : Char) : Bool :=
  c.isDigit || ('a' ≤ c && c ≤ 'f') || ('A' ≤ c && c ≤ 'F')

/-- Drops a word wherever it starts; `skip` letters of it are still to go. -/
def dropWord (word : List Char) : Nat → List Char → List Char
  | _, [] => []
  | skip + 1, _ :: cs => dropWord word skip cs
  | 0, c :: cs =>
    if word.isPrefixOf (c :: cs) then dropWord word (word.length - 1) cs
    else c :: dropWord word 0 cs

/-- `uuid.UUID(text)`. -/
def UUID (text : String) : Except PyErr Uuid :=
  let cs := dropWord "uuid:".toList 0 (dropWord "urn:".toList 0 text.toList)
  let brace := fun c : Char => c = '{' || c = '}'
  let hex := (((cs.dropWhile brace).reverse.dropWhile brace).reverse.filter (· ≠ '-')).map
    Char.toLower
  if hex.length = 32 ∧ hex.all isHexDigit then
    .ok (String.ofList (hex.take 8 ++ '-' :: (hex.drop 8).take 4 ++ '-' :: (hex.drop 12).take 4 ++
      '-' :: (hex.drop 16).take 4 ++ '-' :: hex.drop 20))
  else .error ⟨"ValueError", "badly formed hexadecimal UUID string"⟩

/-! ## Intents, requests and decisions -/

/-- A `TradeIntent` that pydantic accepted: its decimals are finite. -/
structure TradeIntent where
  intent_id : Uuid
  strategy_id : Option Uuid := none
  symbol : String
  market_type : MarketType
  side : OrderSide
  order_type : OrderType := .market
  size : ℚ
  size_usd : Option ℚ := none
  limit_price : Option ℚ := none
  reduce_only : Bool := false
  time_in_force : TimeInForce := .GTC
  metadata : List (String × Json) := []
  strategy_version : Option Int := none
  stop_loss : Option ℚ := none
  take_profit : Option ℚ := none

structure ExecutionRequest where
  job_id : Uuid
  trade_intent : TradeIntent
  user_id : String
  account_id : String
  trading_mode : TradingMode
  approval_level : ApprovalLevel

structure RiskDecision where
  passed : Bool
  checks : List (String × Bool) := []
  failures : List String := []
  warnings : List String := []
  metadata : List (String × Json) := []

structure RiskLimits where
  max_position_size_usd : ℚ := 1000
  max_daily_loss_usd : ℚ := 500
  max_concurrent_positions : Int := 3
  symbol_cooldown_seconds : Int := 300
  deriving DecidableEq, Repr

end trading_platform.shared
