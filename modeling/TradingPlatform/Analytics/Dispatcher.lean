-- The state that the analytics service keeps of a symbol, the dispatcher that
-- updates it with one event, and the consumer that fetches the stored book for the
-- book events before it dispatches them.
import TradingPlatform.Analytics.BookEngines
import TradingPlatform.Analytics.Indicators

open resumption
open keyed
open trading_platform.shared
open trading_platform.shared.PyFloat

namespace trading_platform.analytics

/-! ## State -/

structure AnalyticsSettings where
  batch_size : Nat := 200
  cvd_window_trades : Nat := 1000
  wall_min_notional_usd : ℚ := 100000
  wall_depth_levels : Nat := 10
  rvol_lookback_candles : Nat := 20

structure OpenInterestData where
  open_interest : String
  open_interest_value : Option String
  deriving DecidableEq

structure SymbolState (settings : AnalyticsSettings) where
  symbol : String
  market_type : MarketType
  integrity : BookIntegrityState := {}
  flow : FlowEngine settings.cvd_window_trades := { tape_s := 10 }
  rvol : RvolCalculator settings.rvol_lookback_candles := {}
  liquidations : LiquidationClusterDetector := {}
  walls : WallDetector :=
    { min_notional := fin settings.wall_min_notional_usd, depth := settings.wall_depth_levels }
  indicators : Table (String × IndicatorEngine) Prod.fst := .empty
  last_walls_result : Option WallsResult := none
  last_price : Option PyFloat := none
  last_book_ticker : Option BookTickerData := none
  last_mark : Option MarkPriceData := none
  last_oi : Option OpenInterestData := none
  last_book : Option Book := none
  last_update_ms : Int := 0
  event_timestamps : Table (String × Int) Prod.fst := .empty

variable {settings : AnalyticsSettings}

/-! ## Dispatcher -/

/-- `float(text or 0)`. -/
def float_or_zero (text : String) : Except PyErr PyFloat :=
  if text = "" then .ok (fin 0) else PyFloat.ofText text

/-- Python's truth of a float. -/
def truthy (x : PyFloat) : Bool := x ≠ fin 0

namespace SymbolState

variable (state : SymbolState settings)

/-- A positive number becomes the last price. -/
def set_price : Except PyErr PyFloat → SymbolState settings
  | .ok p => if (fin 0).lt p then { state with last_price := some p } else state
  | .error _ => state

/-- A trade, or an aggregated trade. -/
def on_trade (d : TradeData) (ts : Int) : SymbolState settings :=
  let state := { state with
    flow := state.flow.on_trade d.price d.qty d.is_buyer_maker ts
    rvol := state.rvol.on_trade d.qty ts }
  state.set_price (PyFloat.ofText d.price)

def on_book_ticker (d : BookTickerData) : SymbolState settings :=
  let state := { state with last_book_ticker := some d }
  state.set_price do
    let bid ← float_or_zero d.bid_price
    let ask ← float_or_zero d.ask_price
    return if (fin 0).lt bid && (fin 0).lt ask then (bid + ask).divNat 2
      else if truthy bid then bid else ask

def refresh_walls (ts : Int) : SymbolState settings :=
  match state.last_book, state.last_price with
  | some book, some price =>
    if truthy price then
      let r := state.walls.update book.bids book.asks price ts
      { state with last_walls_result := some r.1, walls := r.2 }
    else state
  | _, _ => state

/-- The middle of the top levels, if both prices are positive. -/
def mid_of (book : Book) : Option PyFloat :=
  match book.bids, book.asks with
  | b :: _, a :: _ =>
    match PyFloat.ofText b.1, PyFloat.ofText a.1 with
    | .ok bid, .ok ask =>
      if (fin 0).lt bid && (fin 0).lt ask then some ((bid + ask).divNat 2) else none
    | _, _ => none
  | _, _ => none

def on_orderbook_snapshot (d : BookData) (current_book : Option Book) (ts : Int) :
    SymbolState settings :=
  let state := { state with
    integrity := state.integrity.on_snapshot d.last_update_id ts
    last_book := current_book.or state.last_book }
  let state := state.refresh_walls ts
  match state.last_book with
  | some book => { state with last_price := (mid_of book).or state.last_price }
  | none => state

def on_orderbook_delta (d : BookData) (current_book : Option Book) (ts : Int) :
    SymbolState settings :=
  let r := state.integrity.on_delta (d.first_update_id.getD 0) d.last_update_id ts
  let state := { state with integrity := r.2 }
  match r.1, current_book with
  | true, some book => { state with last_book := some book }.refresh_walls ts
  | _, _ => state

/-- `get_indicator`, with a call on the engine. -/
def with_indicator (interval : String) (call : IndicatorEngine → IndicatorEngine) :
    SymbolState settings :=
  { state with
    indicators := state.indicators.upsert (interval, call {}) (fun r => (r.1, call r.2))
      fun _ => rfl }

def on_kline (d : KlineData) : SymbolState settings :=
  if d.interval = "" ∨ d.is_closed = false then state
  else state.with_indicator d.interval fun engine =>
    engine.on_kline_close d.open_ d.high d.low d.close d.volume

def on_mark_price (d : MarkPriceData) : SymbolState settings :=
  { state with last_mark := some d }.set_price (float_or_zero d.mark_price)

def on_liquidation (d : LiquidationData) (ts : Int) : SymbolState settings :=
  { state with liquidations := state.liquidations.on_liquidation d.side d.orig_qty d.price ts }

/-- Notes the time of the event. -/
def touch (event : NormalizedEvent) : SymbolState settings :=
  { state with
    last_update_ms := event.timestamp_ms
    event_timestamps := state.event_timestamps.upsert
      (event.data.event_type, event.timestamp_ms) (fun r => (r.1, event.timestamp_ms)) fun _ => rfl }

/-- `AnalyticsDispatcher.update` on the state of the event's symbol. -/
def update (event : NormalizedEvent) (current_book : Option Book) : SymbolState settings :=
  let state := state.touch event
  let ts := event.timestamp_ms
  match event.data with
  | .trade d => state.on_trade d ts
  | .agg_trade d => state.on_trade d ts
  | .book_ticker d => state.on_book_ticker d
  | .orderbook_snapshot d => state.on_orderbook_snapshot d current_book ts
  | .orderbook_delta d => state.on_orderbook_delta d current_book ts
  | .kline d => state.on_kline d
  | .mark_price d => state.on_mark_price d
  | .liquidation d => state.on_liquidation d ts
  | .other _ => state

end SymbolState

/-- The states by symbol and market type. -/
abbrev StateStore (settings : AnalyticsSettings) :=
  String × MarketType → Option (SymbolState settings)

/-- `StateStore.get` makes the state of a symbol that has none. -/
def StateStore.get (store : StateStore settings) (symbol : String) (market_type : MarketType) :
    SymbolState settings :=
  (store (symbol, market_type)).getD { symbol, market_type }

def StateStore.update (store : StateStore settings) (event : NormalizedEvent)
    (current_book : Option Book) : StateStore settings :=
  Function.update store (event.symbol, event.market_type)
    (some ((StateStore.get store event.symbol event.market_type).update event current_book))

/-! ## Consumer -/

inductive MarketCmd where
  | feed (c : FeedCmd)
  /-- `AnalyticsDispatcher.update`, which awaits nothing. -/
  | update (event : NormalizedEvent) (current_book : Option Book)

abbrev MarketCmd.Ans : MarketCmd → Type
  | .feed c => c.Ans
  | .update .. => Unit

/-- What the normalizer and the analytics service work on. -/
structure Market (settings : AnalyticsSettings) where
  feed : Feed
  store : StateStore settings

def Market.exec (s : Market settings) (c : MarketCmd) (o : FeedChoice) :
    Except PyErr c.Ans × Market settings :=
  match c with
  | .feed c => ((s.feed.exec c o).1, { s with feed := (s.feed.exec c o).2 })
  | .update event current_book =>
    (.ok (), { s with store := StateStore.update s.store event current_book })

abbrev MarketPy := Prog PyErr MarketCmd MarketCmd.Ans

def onFeed {α : Type} : Prog PyErr FeedCmd FeedCmd.Ans α → MarketPy α
  | .done a => .done a
  | .raise e => .raise e
  | .call c k => .call (.feed c) fun r => onFeed (k r)

namespace AnalyticsConsumer

def NORMALIZED : String := "stream:binance:normalized"

def market (c : MarketCmd) : MarketPy c.Ans := Prog.perform c

def book_key (event : NormalizedEvent) : String :=
  RedisKeys.market_book event.market_type.value event.symbol

def is_book_event (event : NormalizedEvent) : Bool :=
  match event.data with
  | .orderbook_snapshot _ => true
  | .orderbook_delta _ => true
  | _ => false

/-- A read that fails counts as no book. -/
def fetch_book (event : NormalizedEvent) : MarketPy (Option Book) := do
  match ← (market (.feed (.get_book (book_key event)))).attempt with
  | .ok book => return book
  | .error _ => return none

def current_book_of (event : NormalizedEvent) : MarketPy (Option Book) :=
  if is_book_event event then fetch_book event else return none

def ack (msg_id : Nat) : MarketPy Unit := (market (.feed (.xack NORMALIZED msg_id))).swallow

def process (msg_id : Nat) (event : NormalizedEvent) : MarketPy Unit := do
  let current_book ← current_book_of event
  market (.update event current_book)
  ack msg_id

/-- The entries of one batch. -/
def process_all : List (Nat × NormalizedEvent) → MarketPy Unit
  | [] => return ()
  | (msg_id, event) :: entries => do
    process msg_id event
    process_all entries

/-- One round of the loop. The snapshots that it publishes at the end change no state. -/
def tick (settings : AnalyticsSettings) : MarketPy Unit := do
  let messages ← market (.feed (.xreadgroup settings.batch_size))
  process_all messages

/-- The first `n` rounds of the loop of `start`. -/
def ticks (settings : AnalyticsSettings) : Nat → MarketPy Unit
  | 0 => return ()
  | n + 1 => do
    (tick settings).swallow
    ticks settings n

end AnalyticsConsumer

end trading_platform.analytics
