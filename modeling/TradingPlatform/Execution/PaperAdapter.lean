-- `PaperExecutionAdapter`: the price that a paper order fills at, from the
-- limit price down to the derivation from `size_usd`, and its response.
import TradingPlatform.Execution.Consumer

open resumption
open trading_platform.shared

namespace trading_platform.execution

open Decimal (Number)

/-! ## Prices in Redis -/

/-- `Decimal(str(value))`. -/
def numberOf (value : Json) : Except PyErr Number :=
  match Decimal.parse value.pyStr with
  | some n => .ok n
  | none => .error Decimal.invalid_operation

/-- `candidate if candidate > 0`. A comparison with NaN raises. -/
def candidate : Number → Except PyErr (Option Number)
  | .finite q => .ok (if 0 < q then some (.finite q) else none)
  | .infinity negative => .ok (if negative then none else some (.infinity false))
  | .nan => .error Decimal.invalid_operation

/-- `(bid + ask) / 2`. -/
def midOf : Number → Number → Except PyErr Number
  | .finite bid, .finite ask => .ok (.finite ((bid + ask) / 2))
  | .infinity s, .infinity t =>
    if s = t then .ok (.infinity s) else .error Decimal.invalid_operation
  | .infinity s, .finite _ => .ok (.infinity s)
  | .finite _, .infinity t => .ok (.infinity t)
  | _, _ => .ok .nan

/-- `price.quantize(Decimal("0.01"))`. -/
def quantize_price : Number → Except PyErr ℚ
  | .finite q => Decimal.quantize 2 q
  | _ => .error Decimal.invalid_operation

/-- `value and str(value) not in ("", "0")`. -/
def isQuoted (value : Json) : Bool := value.truthy && !(value.pyStr ∈ ["", "0"])

/-- What follows `json.loads` of the analytics snapshot. -/
def snapshot_price (snapshot : Json) : Except PyErr (Option Number) := do
  let ms := (← snapshot.get "market_state").getD .null
  let ms := if ms.truthy then ms else .obj []
  let p := (← ms.get "price").getD .null
  if p.pyStr ∈ ["", "0", "None"] then return none
  else candidate (← numberOf p)

/-- What follows `json.loads` of the market price key. -/
def trade_price (data : Json) : Except PyErr (Option Number) := do
  let price_str := (← data.get "price").getD .null
  if isQuoted price_str then candidate (← numberOf price_str) else return none

/-- What follows `json.loads` of the book ticker. -/
def book_price (book : Json) : Except PyErr (Option Number) := do
  let bid := (← book.get "bid_price").getD .null
  let ask := (← book.get "ask_price").getD .null
  if isQuoted bid && isQuoted ask then candidate (← midOf (← numberOf bid) (← numberOf ask))
  else return none

/-- `sha256` is the hex digest, and `loads` is `json.loads`. -/
structure PaperExecutionAdapter where
  redis : Bool := true
  sha256 : String → String
  loads : String → Except PyErr Json

namespace PaperExecutionAdapter

variable (self : PaperExecutionAdapter)

/-- The price under a key, if it has a positive one. What raises on the way is
passed over. -/
def price_at (price : Json → Except PyErr (Option Number)) (raw : String) : Option Number :=
  if raw = "" then none
  else match self.loads raw with
    | .error _ => none
    | .ok value =>
      match price value with
      | .error _ => none
      | .ok p => p

/-- The canonical sources of a price, in their order. -/
def sources (market_type : MarketType) (symbol : String) :
    List (String × (Json → Except PyErr (Option Number))) :=
  [(RedisKeys.analytics_snapshot market_type.value symbol, snapshot_price),
    (RedisKeys.market_price market_type.value symbol, trade_price),
    (RedisKeys.market_book_ticker market_type.value symbol, book_price)]

/-- The first source that has a price. -/
def first_price : List (String × (Json → Except PyErr (Option Number))) → RedisPy (Option Number)
  | [] => return none
  | (key, price) :: rest => do
    let raw ← execution.redis (.get key)
    match raw.bind (self.price_at price) with
    | some p => return some p
    | none => first_price rest

def redis_price (market_type : MarketType) (symbol : String) : RedisPy (Option Number) :=
  self.first_price (sources market_type symbol)

/-- The other market type: its price is the proxy of paper mode. -/
def market_type_fallback : MarketType → MarketType
  | .spot => .futures
  | .futures => .spot

/-- The price in Redis, rounded: of the market type, else of the other one. -/
def resolve_redis_price (intent : TradeIntent) : RedisPy (Option ℚ) := do
  match ← self.redis_price intent.market_type intent.symbol with
  | some price => return some (← Prog.ofExcept (quantize_price price))
  | none =>
    match ← self.redis_price (market_type_fallback intent.market_type) intent.symbol with
    | some price => return some (← Prog.ofExcept (quantize_price price))
    | none => return none

/-- The price that `size_usd` and `size` give, rounded. -/
def derived_price (intent : TradeIntent) : Except PyErr (Option ℚ) :=
  match intent.size_usd with
  | some size_usd =>
    if 0 < intent.size then (Decimal.quantize 2 (size_usd / intent.size)).map some else .ok none
  | none => .ok none

def resolve_fill_price (intent : TradeIntent) : RedisPy (Option ℚ) := do
  match intent.limit_price with
  | some limit_price => return some limit_price
  | none =>
    match ← (if self.redis then self.resolve_redis_price intent else pure none) with
    | some price => return some price
    | none => Prog.ofExcept (derived_price intent)

/-! ## The adapter -/

/-- 4 bps. -/
def PAPER_COMMISSION_RATE : ℚ := 4 / 10000

/-- The same fake order id for the same client order id. -/
def fake_oid (client_order_id : String) : String :=
  "PAPER-" ++ String.ofList (((self.sha256 s!"paper:{client_order_id}").toList.take 16).map
    Char.toUpper)

/-- The response of a fill at a positive price. -/
def filled (request : ExecutionRequest) (client_order_id : String) (fill_price : ℚ) :
    Except PyErr AdapterResponse := do
  let fill_qty := request.trade_intent.size
  let commission ← Decimal.quantize 8 (fill_qty * fill_price * PAPER_COMMISSION_RATE)
  return {
    success := true
    client_order_id
    exchange_order_id := some (self.fake_oid client_order_id)
    fill_price := some fill_price
    fill_quantity := some fill_qty
    commission := some commission
    commission_asset := "USDT" }

def price_unavailable (intent : TradeIntent) : String :=
  "paper_price_unavailable: no limit_price, Redis has no current " ++
    s!"price for {intent.symbol}/{intent.market_type.value}, " ++
    "and size_usd/size derivation is not possible"

def submit (request : ExecutionRequest) (client_order_id : String) : RedisPy AdapterResponse := do
  match ← self.resolve_fill_price request.trade_intent with
  | some fill_price =>
    if 0 < fill_price then Prog.ofExcept (self.filled request client_order_id fill_price)
    else return { success := false, client_order_id,
                  error := some (price_unavailable request.trade_intent) }
  | none =>
    return { success := false, client_order_id,
             error := some (price_unavailable request.trade_intent) }

/-- The adapter, as the consumer sees it. -/
def adapter : ExecutionAdapter where
  submit request client_order_id := onRedis (self.submit request client_order_id)
  adapter_name := "paper"

end PaperExecutionAdapter

end trading_platform.execution
