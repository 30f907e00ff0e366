-- The handlers of all the streams on the payloads as they come in, any JSON object, and the
-- router over them. The depth handlers take the levels as texts and go through the book handlers.
import TradingPlatform.Shared.JsonValue
import TradingPlatform.Normalizer.AccountHotState

open trading_platform.shared

namespace trading_platform.normalizer.handlers

/-! ## Python values -/

def value_error (text : List Char) : PyErr :=
  ⟨"ValueError", "invalid literal for int() with base 10: '" ++ String.ofList text ++ "'"⟩

/-- The digits of an integer literal, with single underscores between them. -/
def int_digits (text : List Char) : Option (List Char) :=
  let groups := text.splitOn '_'
  if groups.all fun g => !g.isEmpty && g.all Char.isDigit then some groups.flatten else none

/-- `int(text)`, of ASCII digits. -/
def int_of_text (text : List Char) : Except PyErr Int :=
  let (negative, rest) := scan_sign_or_plus (strip text)
  match int_digits rest with
  | none => .error (value_error text)
  | some ds =>
    if max_str_digits < ds.length then
      .error ⟨"ValueError", "Exceeds the limit (4300 digits) for integer string conversion"⟩
    else .ok (signed negative (Nat.ofDigitChars 10 ds 0))
where
  scan_sign_or_plus : List Char → Bool × List Char
    | '-' :: rest => (true, rest)
    | '+' :: rest => (false, rest)
    | text => (false, text)

/-- `int(value)`. -/
def py_int : PyJson → Except PyErr Int
  | .bool b => .ok (if b then 1 else 0)
  | .int n => .ok n
  | .float (.fin q) => .ok (if q < 0 then ⌈q⌉ else ⌊q⌋)
  | .float (.inf _) => .error ⟨"OverflowError", "cannot convert float infinity to integer"⟩
  | .float .nan => .error ⟨"ValueError", "cannot convert float NaN to integer"⟩
  | .str s => int_of_text (py_shown s).toList
  | _ => .error ⟨"TypeError", "int() argument must be a string, a bytes-like object or a real number"⟩

/-- `str(value)` of a value that can be a key of a dict. -/
def py_str_of : PyJson → Except PyErr String
  | .null => .ok "None"
  | .bool b => .ok (if b then "True" else "False")
  | .int n => (int_repr n).map String.ofList
  | .float (.inf negative) => .ok (if negative then "-inf" else "inf")
  | .float .nan => .ok "nan"
  | .float x => .ok (String.ofList (dumps_float x))
  | .str s => .ok (py_shown s)
  | .list _ => .error ⟨"TypeError", "unhashable type: 'list'"⟩
  | .dict _ => .error ⟨"TypeError", "unhashable type: 'dict'"⟩

/-- `value or default`. -/
def or_else (value default : PyJson) : PyJson := if value.truthy then value else default

def str_value (s : String) : PyJson := .str (py_text s)

def json_dumps (v : PyJson) : Except PyErr String := (dumps v).map String.ofList

/-! ## Events -/

/-- A raw event. Its strings have no lone surrogates. -/
structure RawEvent where
  market_type : MarketType
  source_stream : String
  received_ms : Int
  payload : List (PyStr × PyJson)

structure NormalizedEvent where
  event_type : String
  market_type : MarketType
  symbol : String
  timestamp_ms : Int
  received_ms : Int
  source_stream : String
  data : PyJson

structure HotStateWrite where
  key : String
  value : String
  ttl_s : Nat

structure HandlerResult where
  event : NormalizedEvent
  hot_writes : List HotStateWrite := []

def RawEvent.normalized (event : RawEvent) (event_type symbol : String) (timestamp_ms : Int)
    (data : PyJson) : NormalizedEvent where
  event_type
  market_type := event.market_type
  symbol
  timestamp_ms
  received_ms := event.received_ms
  source_stream := event.source_stream
  data

/-- `normalize_symbol` of a value. -/
def normalize_value : PyJson → Except PyErr String
  | .str s => .ok (normalize_symbol (py_shown s))
  | _ => .error ⟨"AttributeError", "object has no attribute 'upper'"⟩

/-- `normalize_symbol(raw) or symbol_from_stream(source_stream)`, and there must be one. -/
def resolve_symbol (handler : String) (raw : PyJson) (source_stream : String) :
    Except PyErr String := do
  let symbol ← normalize_value raw
  if symbol ≠ "" then return symbol
  match symbol_from_stream source_stream with
  | some symbol => if symbol = "" then throw (normalize_error handler source_stream) else return symbol
  | none => throw (normalize_error handler source_stream)

/-! ## Trades -/

def PRICE_TTL_S : Nat := 60

def price_write (market_type : MarketType) (symbol : String) (price : PyJson) (ts : Int) :
    Except PyErr HotStateWrite := do
  return {
    key := RedisKeys.market_price market_type.value symbol
    value := ← json_dumps (py_dict [("price", price), ("ts", .int ts)])
    ttl_s := PRICE_TTL_S }

def handle_trade (event : RawEvent) : Except PyErr HandlerResult := do
  let d := PyJson.dict event.payload
  let symbol ← resolve_symbol "trade" (← d.get "s" (str_value "")) event.source_stream
  let price ← d.get "p" (str_value "0")
  let qty ← d.get "q" (str_value "0")
  let trade_time_ms ← py_int (← d.get "T" (.int event.received_ms))
  let is_buyer_maker := (← d.get "m" (.bool false)).truthy
  let trade_id ← d.get "t" .null
  let write ← price_write event.market_type symbol price trade_time_ms
  return {
    event := event.normalized "trade" symbol trade_time_ms (py_dict [
      ("trade_id", trade_id), ("price", price), ("qty", qty),
      ("is_buyer_maker", .bool is_buyer_maker), ("trade_time_ms", .int trade_time_ms)])
    hot_writes := [write] }

def handle_agg_trade (event : RawEvent) : Except PyErr HandlerResult := do
  let d := PyJson.dict event.payload
  let symbol ← resolve_symbol "agg_trade" (← d.get "s" (str_value "")) event.source_stream
  let price ← d.get "p" (str_value "0")
  let qty ← d.get "q" (str_value "0")
  let trade_time_ms ← py_int (← d.get "T" (.int event.received_ms))
  let is_buyer_maker := (← d.get "m" (.bool false)).truthy
  let write ← price_write event.market_type symbol price trade_time_ms
  return {
    event := event.normalized "agg_trade" symbol trade_time_ms (py_dict [
      ("agg_trade_id", ← d.get "a" .null), ("price", price), ("qty", qty),
      ("first_trade_id", ← d.get "f" .null), ("last_trade_id", ← d.get "l" .null),
      ("trade_time_ms", .int trade_time_ms), ("is_buyer_maker", .bool is_buyer_maker)])
    hot_writes := [write] }

/-! ## The best bid and ask -/

def BOOK_TICKER_TTL_S : Nat := 10

def handle_book_ticker (event : RawEvent) : Except PyErr HandlerResult := do
  let d := PyJson.dict event.payload
  let symbol ← resolve_symbol "book_ticker" (← d.get "s" (str_value "")) event.source_stream
  let sides := [("bid_price", ← d.get "b" (str_value "0")), ("bid_qty", ← d.get "B" (str_value "0")),
    ("ask_price", ← d.get "a" (str_value "0")), ("ask_qty", ← d.get "A" (str_value "0")),
    ("update_id", ← d.get "u" .null)]
  let value ← json_dumps (py_dict (sides ++ [("ts", .int event.received_ms)]))
  return {
    event := event.normalized "book_ticker" symbol event.received_ms (py_dict sides)
    hot_writes := [{
      key := RedisKeys.market_book_ticker event.market_type.value symbol
      value
      ttl_s := BOOK_TICKER_TTL_S }] }

/-! ## Klines -/

/-- Twice the length of an interval, in seconds. -/
def INTERVAL_TTL : List (String × Nat) :=
  [("1s", 4), ("1m", 120), ("3m", 360), ("5m", 600), ("15m", 1800), ("30m", 3600), ("1h", 7200),
    ("2h", 14400), ("4h", 28800), ("6h", 43200), ("8h", 57600), ("12h", 86400), ("1d", 172800),
    ("3d", 518400), ("1w", 1209600), ("1M", 5184000)]

def DEFAULT_TTL_S : Nat := 300

/-- What follows the first `@kline_`. -/
def after_kline : List Char → Option (List Char)
  | [] => none
  | c :: cs => if "@kline_".toList.isPrefixOf (c :: cs) then some (cs.drop 6) else after_kline cs

def interval_from_stream (source_stream : String) : String :=
  String.ofList ((after_kline source_stream.toList).getD [])

def market_klines (market_type symbol interval : String) : String :=
  "market:" ++ market_type ++ ":" ++ symbol ++ ":klines:" ++ interval

def handle_kline (event : RawEvent) : Except PyErr HandlerResult := do
  let d := PyJson.dict event.payload
  let k ← d.get "k" (.dict [])
  let raw := or_else (← k.get "s" (str_value "")) (← d.get "s" (str_value ""))
  let symbol ← resolve_symbol "kline" raw event.source_stream
  let interval := or_else (← k.get "i" (str_value ""))
    (str_value (interval_from_stream event.source_stream))
  let is_closed := (← k.get "x" (.bool false)).truthy
  let open_time_ms ← py_int (← k.get "t" (.int event.received_ms))
  let close_time_ms ← py_int (← k.get "T" (.int open_time_ms))
  let candle := [("interval", interval), ("open_time_ms", .int open_time_ms),
    ("close_time_ms", .int close_time_ms), ("open", ← k.get "o" (str_value "0")),
    ("high", ← k.get "h" (str_value "0")), ("low", ← k.get "l" (str_value "0")),
    ("close", ← k.get "c" (str_value "0")), ("volume", ← k.get "v" (str_value "0"))]
  let trades ← py_int (← k.get "n" (.int 0))
  let normalized := event.normalized "kline" symbol open_time_ms (py_dict (candle ++ [
    ("quote_volume", ← k.get "q" (str_value "0")), ("trades", .int trades),
    ("taker_buy_volume", ← k.get "V" (str_value "0")),
    ("taker_buy_quote_volume", ← k.get "Q" (str_value "0")), ("is_closed", .bool is_closed)]))
  let name ← py_str_of interval
  let value ← json_dumps (py_dict (candle ++
    [("is_closed", .bool is_closed), ("ts", .int event.received_ms)]))
  return {
    event := normalized
    hot_writes := [{
      key := market_klines event.market_type.value symbol name
      value
      ttl_s := ((INTERVAL_TTL.find? (·.1 = name)).map (·.2)).getD DEFAULT_TTL_S }] }

/-! ## Mark prices -/

def MARK_TTL_S : Nat := 60

def FUNDING_TTL_S : Nat := 3600

def market_mark (market_type symbol : String) : String :=
  "market:" ++ market_type ++ ":" ++ symbol ++ ":mark"

def market_funding (market_type symbol : String) : String :=
  "market:" ++ market_type ++ ":" ++ symbol ++ ":funding"

def handle_mark_price (event : RawEvent) : Except PyErr HandlerResult := do
  let d := PyJson.dict event.payload
  let symbol ← resolve_symbol "mark_price" (← d.get "s" (str_value "")) event.source_stream
  let prices := [("mark_price", ← d.get "p" (str_value "0")),
    ("index_price", ← d.get "i" (str_value "0")),
    ("estimated_settle_price", ← d.get "P" (str_value "0"))]
  let rate ← d.get "r" (str_value "0")
  let next_funding_ms ← py_int (← d.get "T" (.int 0))
  let event_ms ← py_int (← d.get "E" (.int event.received_ms))
  let funding := [("funding_rate", rate), ("next_funding_time_ms", .int next_funding_ms)]
  let mark_value ← json_dumps (py_dict (prices ++ [("ts", .int event_ms)]))
  let funding_value ← json_dumps (py_dict (funding ++ [("ts", .int event_ms)]))
  return {
    event := event.normalized "mark_price" symbol event_ms (py_dict (prices ++ funding))
    hot_writes := [
      { key := market_mark event.market_type.value symbol, value := mark_value, ttl_s := MARK_TTL_S },
      { key := market_funding event.market_type.value symbol
        value := funding_value
        ttl_s := FUNDING_TTL_S }] }

/-! ## Liquidations -/

/-- Nothing of a liquidation is kept. -/
def handle_liquidation (event : RawEvent) : Except PyErr HandlerResult := do
  let d := PyJson.dict event.payload
  let o ← d.get "o" d
  let symbol ← resolve_symbol "liquidation" (← o.get "s" (str_value "")) event.source_stream
  let order_time_ms ← py_int (← o.get "T" (.int event.received_ms))
  return {
    event := event.normalized "liquidation" symbol order_time_ms (py_dict [
      ("side", ← o.get "S" (str_value "")), ("order_type", ← o.get "o" (str_value "")),
      ("time_in_force", ← o.get "f" (str_value "")), ("orig_qty", ← o.get "q" (str_value "0")),
      ("price", ← o.get "p" (str_value "0")), ("avg_price", ← o.get "ap" (str_value "0")),
      ("last_fill_qty", ← o.get "l" (str_value "0")), ("status", ← o.get "X" (str_value "")),
      ("order_time_ms", .int order_time_ms)]) }

/-! ## Order books -/

/-- An entry of a side. Its price and its quantity are texts. -/
def level : PyJson → Except PyErr Level
  | .list (.str price :: .str qty :: _) => .ok (py_shown price, py_shown qty)
  | _ => .error ⟨"TypeError", "a level must be a list of two texts"⟩

def parse_levels : PyJson → Except PyErr (List Level)
  | .list items => items.mapM level
  | _ => .error ⟨"TypeError", "object is not iterable"⟩

def levels_value (levels : List Level) : PyJson :=
  .list (levels.map fun l => .list [str_value l.1, str_value l.2])

def book_value (book : Book) : PyJson :=
  py_dict [("last_update_id", .int book.last_update_id), ("bids", levels_value book.bids),
    ("asks", levels_value book.asks), ("ts", .int book.ts)]

def RawEvent.with_depth (event : RawEvent) (payload : DepthPayload) : shared.RawEvent where
  market_type := event.market_type
  source_stream := event.source_stream
  received_ms := event.received_ms
  payload

/-- What the book handlers give, with the texts of the books. -/
def depth_result (event : RawEvent) (event_type : String) (data : PyJson)
    (result : normalizer.HandlerResult) : Except PyErr HandlerResult := do
  return {
    event := event.normalized event_type result.event.symbol result.event.timestamp_ms data
    hot_writes := ← result.hot_writes.mapM fun w => do
      return ⟨w.key, ← json_dumps (book_value w.value), w.ttl_s.getD 0⟩ }

def handle_orderbook_snapshot (event : RawEvent) : Except PyErr HandlerResult := do
  let _ ← symbol_of "orderbook_snapshot" (event.with_depth {})
  let d := PyJson.dict event.payload
  let lastUpdateId ← py_int (← d.get "lastUpdateId" (.int 0))
  let bids ← parse_levels (← d.get "bids" (.list []))
  let asks ← parse_levels (← d.get "asks" (.list []))
  let result ← normalizer.handle_orderbook_snapshot (event.with_depth { lastUpdateId, bids, asks })
  depth_result event "orderbook_snapshot" (py_dict [("last_update_id", .int lastUpdateId),
    ("bids", levels_value bids), ("asks", levels_value asks)]) result

/-- The sides of a stored book. The rest of it is not read. -/
def book_of (value : PyJson) : Except PyErr Book := do
  let bids ← parse_levels (← value.get "bids" (.list []))
  let asks ← parse_levels (← value.get "asks" (.list []))
  return ⟨0, bids, asks, 0⟩

def handle_orderbook_delta (event : RawEvent) (current_book : Option PyJson) :
    Except PyErr HandlerResult := do
  let _ ← symbol_of "orderbook_delta" (event.with_depth {})
  let d := PyJson.dict event.payload
  let U ← py_int (← d.get "U" (.int 0))
  let u ← py_int (← d.get "u" (.int 0))
  let b ← parse_levels (← d.get "b" (.list []))
  let a ← parse_levels (← d.get "a" (.list []))
  let E ← py_int (← d.get "E" (.int event.received_ms))
  let book ← current_book.mapM book_of
  let result ← normalizer.handle_orderbook_delta (event.with_depth { U, u, b, a, E := some E }) book
  depth_result event "orderbook_delta" (py_dict [("first_update_id", .int U),
    ("last_update_id", .int u), ("bids", levels_value b), ("asks", levels_value a)]) result

/-! ## User data -/

/-- The entries of a list of dicts, each with the keys and the defaults of a table. -/
def entries (table : List (String × String × String)) (items : PyJson) : Except PyErr PyJson := do
  match items with
  | .list items => return .list (← items.mapM fun item => do
      return py_dict (← table.mapM fun row => do
        return (row.1, ← item.get row.2.1 (str_value row.2.2))))
  | _ => throw ⟨"TypeError", "object is not iterable"⟩

def handle_account_update (event : RawEvent) (user_id : String) : Except PyErr HandlerResult := do
  let d := PyJson.dict event.payload
  let a ← d.get "a" (.dict [])
  let event_ms ← py_int (← d.get "E" (.int event.received_ms))
  let reason ← a.get "m" (str_value "")
  let balances ← entries [("asset", "a", ""), ("wallet_balance", "wb", "0"),
    ("cross_wallet_balance", "cw", "0"), ("balance_change", "bc", "0")] (← a.get "B" (.list []))
  let positions ← entries [("symbol", "s", ""), ("position_side", "ps", "BOTH"),
    ("position_amt", "pa", "0"), ("entry_price", "ep", "0"), ("unrealized_pnl", "up", "0"),
    ("accumulated_realized", "cr", "0"), ("margin_type", "mt", ""),
    ("isolated_wallet", "iw", "0")] (← a.get "P" (.list []))
  let normalized := event.normalized "account_update" "" event_ms
    (py_dict [("reason", reason), ("balances", balances), ("positions", positions)])
  if user_id = "" then return { event := normalized }
  return {
    event := normalized
    hot_writes := [
      { key := RedisKeys.account_balances user_id
        value := ← json_dumps (py_dict [("balances", balances), ("ts", .int event_ms)])
        ttl_s := ACCOUNT_TTL_S },
      { key := RedisKeys.account_positions user_id
        value := ← json_dumps (py_dict [("positions", positions), ("ts", .int event_ms)])
        ttl_s := ACCOUNT_TTL_S }] }

/-- `status in _OPEN_STATUSES`. -/
def is_open : PyJson → Except PyErr Bool
  | .str s => .ok (py_shown s ∈ OPEN_STATUSES)
  | .list _ => .error ⟨"TypeError", "unhashable type: 'list'"⟩
  | .dict _ => .error ⟨"TypeError", "unhashable type: 'dict'"⟩
  | _ => .ok false

/-- The symbol of an order is that of its payload alone. -/
def order_symbol (o : PyJson) : Except PyErr String := do
  let symbol_raw ← o.get "s" (str_value "")
  let symbol ← if symbol_raw.truthy then normalize_value symbol_raw else .ok ""
  if symbol = "" then .error missing_symbol else .ok symbol

/-- An order that is still open is kept under the key of the user. -/
def open_order_writes (user_id : String) (status payload : PyJson) :
    Except PyErr (List HotStateWrite) := do
  if user_id = "" then return []
  else if ← is_open status then
    return [{
      key := RedisKeys.account_open_orders user_id
      value := ← json_dumps payload
      ttl_s := ACCOUNT_TTL_S }]
  else return []

def handle_user_order (event : RawEvent) (user_id : String) : Except PyErr HandlerResult := do
  let d := PyJson.dict event.payload
  let o ← d.get "o" d
  let symbol ← order_symbol o
  let trade_time_ms ← py_int (← o.get "T" (.int event.received_ms))
  let status ← o.get "X" (str_value "")
  let client_order_id ← o.get "c" (str_value "")
  let exchange_order_id ← py_str_of (← o.get "i" (str_value ""))
  let side ← o.get "S" (str_value "")
  let price ← o.get "p" (str_value "0")
  let orig_qty ← o.get "q" (str_value "0")
  let filled_qty ← o.get "z" (str_value "0")
  let data := py_dict [
    ("client_order_id", client_order_id), ("exchange_order_id", str_value exchange_order_id),
    ("side", side), ("order_type", ← o.get "o" (str_value "")), ("order_status", status),
    ("price", price), ("orig_qty", orig_qty), ("filled_qty", filled_qty),
    ("avg_price", ← o.get "ap" (str_value "0")),
    ("reduce_only", .bool (← o.get "R" (.bool false)).truthy),
    ("position_side", ← o.get "ps" (str_value "BOTH")),
    ("stop_price", ← o.get "sp" (str_value "0")), ("time_in_force", ← o.get "f" (str_value "GTC")),
    ("trade_time_ms", .int trade_time_ms), ("commission", ← o.get "n" (str_value "0")),
    ("commission_asset", ← o.get "N" (str_value "")), ("realized_pnl", ← o.get "rp" (str_value "0")),
    ("is_maker", .bool (← o.get "m" (.bool false)).truthy)]
  let hot_writes ← open_order_writes user_id status (py_dict [
    ("symbol", str_value symbol), ("client_order_id", client_order_id),
    ("exchange_order_id", str_value exchange_order_id), ("side", side), ("status", status),
    ("price", price), ("orig_qty", orig_qty), ("filled_qty", filled_qty), ("ts", .int trade_time_ms)])
  return { event := event.normalized "user_order" symbol trade_time_ms data, hot_writes }

/-! ## The router -/

def ends_with (text suffix : String) : Bool := suffix.toList.isSuffixOf text.toList

/-- There is no result for an unknown stream. -/
def route (raw_event : RawEvent) (user_id : String) (current_book : Option PyJson) :
    Except PyErr (Option HandlerResult) :=
  let sl := lower raw_event.source_stream
  if sl = "user_data.account_update" then some <$> handle_account_update raw_event user_id
  else if sl = "user_data.order_trade_update" then some <$> handle_user_order raw_event user_id
  else if has "@depth" sl then
    if has "snapshot" sl || PARTIAL_DEPTH_RE sl then some <$> handle_orderbook_snapshot raw_event
    else some <$> handle_orderbook_delta raw_event current_book
  else if has "@kline_" sl then some <$> handle_kline raw_event
  else if ends_with sl "@trade" then some <$> handle_trade raw_event
  else if ends_with sl "@aggtrade" then some <$> handle_agg_trade raw_event
  else if ends_with sl "@bookticker" then some <$> handle_book_ticker raw_event
  else if ends_with sl "@markprice" then some <$> handle_mark_price raw_event
  else if ends_with sl "@forceorder" then some <$> handle_liquidation raw_event
  else .ok none

end trading_platform.normalizer.handlers
