-- The decision snapshot of a symbol. Each section is built from a part of the state.
-- The book section asks whether the book is valid, and the market section reads the
-- same book without asking.
import TradingPlatform.Analytics.Dispatcher

open keyed
open trading_platform.shared
open trading_platform.shared.PyFloat

namespace trading_platform.analytics

/-! ## Sections -/

-- `Decimal(str(v))` has the value of the float `v`, so a decimal is a `PyFloat` here.

structure MarketState where
  price : Option PyFloat := none
  bid : Option PyFloat := none
  ask : Option PyFloat := none
  bid_size : Option PyFloat := none
  ask_size : Option PyFloat := none
  spread : Option PyFloat := none
  spread_bps : Option PyFloat := none
  deriving DecidableEq

structure WallLevel where
  price : ℚ
  size : ℚ
  notional_usd : PyFloat
  is_spoofing_candidate : Bool
  detected_at_ms : Int
  deriving DecidableEq

structure BookState where
  imbalance_ratio : Option PyFloat := none
  bid_depth_usd : Option PyFloat := none
  ask_depth_usd : Option PyFloat := none
  top_bid_walls : List WallLevel := []
  top_ask_walls : List WallLevel := []
  spoofing_alert : Bool := false
  deriving DecidableEq

structure FlowState where
  delta : Option PyFloat
  cvd : Option PyFloat
  cvd_slope : Option PyFloat
  tape_speed_trades_per_min : Option PyFloat
  aggression_ratio : Option PyFloat
  rvol : Option PyFloat
  buy_volume : Option PyFloat
  sell_volume : Option PyFloat
  large_trade_threshold_usd : Option PyFloat := none
  large_buy_count : Option Nat := none
  large_sell_count : Option Nat := none
  deriving DecidableEq

structure FuturesState where
  mark_price : Option PyFloat := none
  index_price : Option PyFloat := none
  funding_rate : Option PyFloat := none
  next_funding_time_ms : Option Int := none
  open_interest : Option PyFloat := none
  open_interest_value_usd : Option PyFloat := none
  funding_pressure_score : Option PyFloat := none
  liquidation_cluster_long_usd : Option PyFloat := none
  liquidation_cluster_short_usd : Option PyFloat := none
  deriving DecidableEq

structure SnapshotMeta where
  snapshot_timestamp_ms : Int
  symbol : String
  market_type : MarketType
  account_id : Option String
  sources : List String
  staleness_ms : List (String × Int)
  deriving DecidableEq

/-- The sections that are not always empty. -/
structure UnifiedDecisionSnapshot (AccountState RiskState : Type) where
  market_state : MarketState
  book_state : BookState
  flow_state : FlowState
  futures_state : FuturesState
  indicator_state : List (String × IndicatorValues)
  account_state : AccountState
  risk_state : RiskState
  snapshot_meta : SnapshotMeta

/-! ## Section builders -/

/-- A model checks a decimal that it is made with: it must be finite. -/
def finite_number : PyErr := ⟨"ValidationError", "Input should be a finite number"⟩

def field (v : Option PyFloat) : Except PyErr (Option PyFloat) :=
  match v with
  | none => .ok none
  | some x => if x.isFinite then .ok (some x) else .error finite_number

def safe_float (text : String) : Option PyFloat :=
  match float_or_zero text with
  | .ok f => if f = fin 0 then none else some f
  | .error _ => none

/-- The numbers at the top of a book. -/
structure Top where
  bid : PyFloat
  ask : PyFloat
  bid_qty : PyFloat
  ask_qty : PyFloat
  deriving DecidableEq

/-- The first rows of the book, if all their texts are numbers and the prices are
positive. -/
def top_of (book : Book) : Option Top :=
  match book.bids, book.asks with
  | b :: _, a :: _ =>
    match PyFloat.ofText b.1, PyFloat.ofText a.1, PyFloat.ofText b.2, PyFloat.ofText a.2 with
    | .ok bid, .ok ask, .ok bid_qty, .ok ask_qty =>
      if (fin 0).lt bid && (fin 0).lt ask then some ⟨bid, ask, bid_qty, ask_qty⟩ else none
    | _, _, _, _ => none
  | _, _ => none

def MarketState.with_spread (ms : MarketState) : Option SpreadResult → MarketState
  | some sr => { ms with spread := some sr.spread, spread_bps := some sr.spread_bps }
  | none => ms

def MarketState.with_top (ms : MarketState) (top : Top) : MarketState :=
  { ms with
    bid := some top.bid
    ask := some top.ask
    bid_size := some top.bid_qty
    ask_size := some top.ask_qty }.with_spread
      (spread_of top.bid top.ask top.bid_qty top.ask_qty)

def MarketState.with_ticker (ms : MarketState) (bt : BookTickerData) : MarketState :=
  let bid := safe_float bt.bid_price
  let ask := safe_float bt.ask_price
  let ms := { ms with
    bid
    ask
    bid_size := safe_float bt.bid_qty
    ask_size := safe_float bt.ask_qty }
  if bid.isSome && ask.isSome then
    ms.with_spread (compute_spread bt.bid_price bt.ask_price bt.bid_qty bt.ask_qty)
  else ms

def wall_level (w : WallInfo) : Option WallLevel :=
  match Decimal.ofText w.price, Decimal.ofText w.qty, PyFloat.ofText w.price, PyFloat.ofText w.qty with
  | .ok price, .ok size, .ok p, .ok q =>
    some ⟨price, size, p * q, w.is_spoofing_candidate, w.first_seen_ms⟩
  | _, _, _, _ => none

namespace SnapshotBuilder

variable {settings : AnalyticsSettings} (state : SymbolState settings)

/-- The market section, with the price that was checked. Without a ticker the top of
the book is taken. -/
def market_of (price : Option PyFloat) : MarketState :=
  let ms : MarketState := { price }
  match state.last_book_ticker with
  | some bt => ms.with_ticker bt
  | none =>
    match state.last_book with
    | some book =>
      match top_of book with
      | some top => ms.with_top top
      | none => ms
    | none => ms

def build_market_state : Except PyErr MarketState := do
  let price ← field state.last_price
  return market_of state price

/-- The part of the book section that comes from the levels. -/
def with_imbalance (bs : BookState) : Option ImbalanceResult → BookState
  | some imb => { bs with
      imbalance_ratio := some imb.imbalance_ratio
      bid_depth_usd := some imb.bid_depth_usd
      ask_depth_usd := some imb.ask_depth_usd }
  | none => bs

def build_book_state (book : Book) : BookState :=
  let price := match state.last_price with
    | some p => if truthy p then p else fin 0
    | none => fin 0
  let bs := with_imbalance {} (compute_imbalance book.bids book.asks price)
  match state.last_walls_result with
  | some wr => { bs with
      spoofing_alert := wr.spoofing_alert
      top_bid_walls := (wr.bid_walls.take 5).filterMap wall_level
      top_ask_walls := (wr.ask_walls.take 5).filterMap wall_level }
  | none => bs

/-- Whether the book may be shown, and the section without a book if not. -/
def guarded_book_state : BookState :=
  match state.last_book with
  | some book => if state.integrity.is_valid then build_book_state state book else {}
  | none => {}

/-- The last price, if it is a positive number. -/
def positive_price : Option PyFloat :=
  match state.last_price with
  | some price => if (fin 0).lt price then some price else none
  | none => none

def build_flow_state (now_ms : Int) : Except PyErr FlowState := do
  let volumes := state.flow.compute_buy_sell_volumes
  let fs : FlowState := {
    delta := ← field (some state.flow.compute_delta)
    cvd := ← field (some state.flow.cvd)
    cvd_slope := ← field state.flow.cvd_slope
    tape_speed_trades_per_min := ← field (some (state.flow.compute_tape_speed_per_min now_ms))
    aggression_ratio := ← field state.flow.compute_aggression_ratio
    rvol := ← field state.rvol.compute
    buy_volume := ← field (some volumes.1)
    sell_volume := ← field (some volumes.2) }
  match positive_price state with
  | some price =>
    let larges := state.flow.compute_large_trade_stats price (fin 10000)
    return { fs with
      large_trade_threshold_usd := some (fin 10000)
      large_buy_count := some larges.1
      large_sell_count := some larges.2 }
  | none => return fs

def with_mark (fut : FuturesState) (mark : MarkPriceData) : FuturesState :=
  let mark_price := safe_float mark.mark_price
  let index_price := safe_float mark.index_price
  let funding_rate := safe_float mark.funding_rate
  { fut with
    mark_price
    index_price
    funding_rate
    next_funding_time_ms :=
      if mark.next_funding_time_ms = 0 then none else some mark.next_funding_time_ms
    funding_pressure_score :=
      if mark_price.isSome && index_price.isSome && funding_rate.isSome then
        compute_funding_pressure mark.funding_rate mark.mark_price mark.index_price
      else none }

def with_open_interest (fut : FuturesState) (oi : OpenInterestData) : FuturesState :=
  { fut with
    open_interest := safe_float oi.open_interest
    open_interest_value_usd := safe_float (oi.open_interest_value.getD "") }

def with_clusters (fut : FuturesState) (totals : PyFloat × PyFloat) : FuturesState :=
  { fut with
    liquidation_cluster_long_usd := if (fin 0).lt totals.1 then some totals.1 else none
    liquidation_cluster_short_usd := if (fin 0).lt totals.2 then some totals.2 else none }

def build_futures_state (now_ms : Int) : FuturesState :=
  let fut := match state.last_mark with
    | some mark => with_mark {} mark
    | none => {}
  let fut := match state.last_oi with
    | some oi => with_open_interest fut oi
    | none => fut
  match positive_price state with
  | some price => with_clusters fut (state.liquidations.compute_cluster_totals price now_ms)
  | none => fut

/-- The values of an engine, each one checked. -/
def to_indicator_values (v : IndicatorValues) : Except PyErr IndicatorValues := do
  return {
    ema_9 := ← field v.ema_9
    ema_21 := ← field v.ema_21
    ema_50 := ← field v.ema_50
    ema_200 := ← field v.ema_200
    rsi_14 := ← field v.rsi_14
    vwap := ← field v.vwap
    bb_upper := ← field v.bb_upper
    bb_middle := ← field v.bb_middle
    bb_lower := ← field v.bb_lower
    bb_width := ← field v.bb_width
    atr_14 := ← field v.atr_14 }

def build_indicator_state (sqrt : ℚ → ℚ) : Except PyErr (List (String × IndicatorValues)) :=
  state.indicators.rows.mapM fun r => do
    return (r.1, ← to_indicator_values (← r.2.compute sqrt))

def build_meta (account_id : String) (now_ms : Int) : SnapshotMeta where
  snapshot_timestamp_ms := now_ms
  symbol := state.symbol
  market_type := state.market_type
  account_id := if account_id = "" then none else some account_id
  sources := state.event_timestamps.rows.map (·.1)
  staleness_ms := state.event_timestamps.rows.map fun r => (r.1, now_ms - r.2)

/-! ## Redis lookups -/

/-- A model of the snapshot that is kept in Redis: its default and its parser. -/
structure JsonModel (α : Type) where
  default : α
  validate_json : String → Except PyErr α

/-- The stored value of an account, or the default: without an account or a value, and
when the read or the parsing fails. -/
def load {α : Type} (model : JsonModel α) (redis : String → Except PyErr (Option String))
    (account_id key : String) : α :=
  if account_id = "" then model.default
  else match redis key with
    | .ok (some raw) =>
      if raw = "" then model.default
      else match model.validate_json raw with
        | .ok value => value
        | .error _ => model.default
    | _ => model.default

/-- What a build reads besides the state. -/
structure Environment (AccountState RiskState : Type) where
  account_model : JsonModel AccountState
  risk_model : JsonModel RiskState
  redis : String → Except PyErr (Option String)
  account_id : String
  now_ms : Int
  sqrt : ℚ → ℚ

variable {AccountState RiskState : Type} (env : Environment AccountState RiskState)

def build : Except PyErr (UnifiedDecisionSnapshot AccountState RiskState) := do
  let market_state ← build_market_state state
  let flow_state ← build_flow_state state env.now_ms
  let indicator_state ← build_indicator_state state env.sqrt
  return {
    market_state
    book_state := guarded_book_state state
    flow_state
    futures_state := build_futures_state state env.now_ms
    indicator_state
    account_state := load env.account_model env.redis env.account_id
      (RedisKeys.account_snapshot env.account_id)
    risk_state := load env.risk_model env.redis env.account_id
      (RedisKeys.risk_state env.account_id)
    snapshot_meta := build_meta state env.account_id env.now_ms }

/-! ## What the sections read -/

/-- The two states agree on everything but the book and the walls. -/
def AgreeButBook (s t : SymbolState settings) : Prop :=
  t = { s with last_book := t.last_book, last_walls_result := t.last_walls_result }

/-- The sections that read no book can be built. -/
def Buildable (s : SymbolState settings) (env : Environment AccountState RiskState) : Prop :=
  ∃ price flow indicators, field s.last_price = .ok price ∧
    build_flow_state s env.now_ms = .ok flow ∧ build_indicator_state s env.sqrt = .ok indicators

theorem with_spread_top (ms : MarketState) (sr : Option SpreadResult) :
    ((ms.with_spread sr).bid, (ms.with_spread sr).ask, (ms.with_spread sr).bid_size,
      (ms.with_spread sr).ask_size) = (ms.bid, ms.ask, ms.bid_size, ms.ask_size) := by
  cases sr <;> rfl

/-- The market section gives the top of the book away. -/
theorem market_of_inj {s t : SymbolState settings} (h : AgreeButBook s t)
    (hticker : s.last_book_ticker = none) (price : Option PyFloat) :
    market_of s price = market_of t price ↔ s.last_book.bind top_of = t.last_book.bind top_of := by
  have hticker' : t.last_book_ticker = none := by
    rw [h]
    exact hticker
  have hread : ∀ r : SymbolState settings, r.last_book_ticker = none →
      market_of r price = ((r.last_book.bind top_of).map (MarketState.with_top { price })).getD
        { price } := by
    intro r hr
    unfold market_of
    rw [hr]
    cases r.last_book with
    | none => rfl
    | some book => cases htop : top_of book <;> simp [htop]
  rw [hread s hticker, hread t hticker']
  have htop : ∀ top : Top, ((MarketState.with_top { price } top).bid,
      (MarketState.with_top { price } top).ask, (MarketState.with_top { price } top).bid_size,
      (MarketState.with_top { price } top).ask_size) =
        (some top.bid, some top.ask, some top.bid_qty, some top.ask_qty) :=
    fun top => with_spread_top _ _
  constructor
  · intro heq
    cases hs : s.last_book.bind top_of with
    | none =>
      cases ht : t.last_book.bind top_of with
      | none => rfl
      | some top =>
        rw [hs, ht] at heq
        have hbid := congrArg MarketState.bid heq
        have htop := htop top
        simp only [Option.map_none, Option.getD_none, Option.map_some, Option.getD_some] at hbid
        simp [← hbid] at htop
    | some top =>
      cases ht : t.last_book.bind top_of with
      | none =>
        rw [hs, ht] at heq
        have hbid := congrArg MarketState.bid heq
        have htop := htop top
        simp only [Option.map_none, Option.getD_none, Option.map_some, Option.getD_some] at hbid
        simp [hbid] at htop
      | some top' =>
        rw [hs, ht] at heq
        simp only [Option.map_some, Option.getD_some] at heq
        have h1 := htop top
        have h2 := htop top'
        rw [heq] at h1
        rw [h1] at h2
        cases top
        cases top'
        simp_all
  · intro heq
    rw [heq]

/-- A state with an invalid book has no book section, and the other sections are
built from what the two states share. -/
theorem build_of_agree {s t : SymbolState settings} (h : AgreeButBook s t)
    (hinvalid : s.integrity.is_valid = false) :
    guarded_book_state s = guarded_book_state t ∧ field s.last_price = field t.last_price ∧
      build_flow_state s env.now_ms = build_flow_state t env.now_ms ∧
      build_indicator_state s env.sqrt = build_indicator_state t env.sqrt ∧
      build_futures_state s env.now_ms = build_futures_state t env.now_ms ∧
      build_meta s env.account_id env.now_ms = build_meta t env.account_id env.now_ms := by
  have hhidden : ∀ r : SymbolState settings, r.integrity.is_valid = false →
      guarded_book_state r = {} := by
    intro r hr
    unfold guarded_book_state
    cases r.last_book <;> simp [hr]
  have hinvalid' : t.integrity.is_valid = false := by
    rw [h]
    exact hinvalid
  refine ⟨?_, ?_, ?_, ?_, ?_, ?_⟩
  · rw [hhidden s hinvalid, hhidden t hinvalid']
  · rw [h]
  all_goals
    rw [h]
    rfl

/-- Of two states that differ in an invalid book only, the snapshots are the same exactly
when a book ticker hides the book, the two books have the same top, or there is no
snapshot. -/
theorem invalid_book_is_hidden_iff {s t : SymbolState settings} (h : AgreeButBook s t)
    (hinvalid : s.integrity.is_valid = false) :
    build s env = build t env ↔
      (Buildable s env → s.last_book_ticker.isSome = true ∨
        s.last_book.bind top_of = t.last_book.bind top_of) := by
  obtain ⟨hbook, hprice, hflow, hind, hfut, hmeta⟩ := build_of_agree env h hinvalid
  have hticker : t.last_book_ticker = s.last_book_ticker := by
    rw [h]
  unfold build build_market_state Buildable
  rw [hbook, hprice, hflow, hind, hfut, hmeta]
  cases hp : field t.last_price with
  | error e => simp [Bind.bind, Except.bind]
  | ok price =>
    cases hf : build_flow_state t env.now_ms with
    | error e => simp [Bind.bind, Except.bind, Pure.pure, Except.pure]
    | ok flow =>
      cases hi : build_indicator_state t env.sqrt with
      | error e => simp [Bind.bind, Except.bind, Pure.pure, Except.pure]
      | ok indicators =>
        simp only [Bind.bind, Except.bind, Pure.pure, Except.pure]
        cases hbt : s.last_book_ticker with
        | some bt =>
          have hsame : market_of s price = market_of t price := by
            unfold market_of
            rw [hticker, hbt]
          simp [hsame]
        | none =>
          rw [← market_of_inj h hbt price]
          simp

/-- A state of BTCUSDT after a gap, with a book. -/
def after_gap (book : Option Book) : SymbolState {} :=
  { symbol := "BTCUSDT"
    market_type := .spot
    integrity := { has_snapshot := true, last_update_id := 10, is_valid := false }
    last_book := book }

def btc_book (bid : String) : Book := ⟨10, [(bid, "1.0")], [("101.00", "1.0")], 0⟩

/-- An environment without an account. -/
def no_account : Environment Unit Unit :=
  ⟨⟨(), fun _ => .ok ()⟩, ⟨(), fun _ => .ok ()⟩, fun _ => .ok none, "", 0, id⟩

/-- Two invalid books with the same top give the same snapshot. -/
theorem equal_tops_are_hidden :
    build (after_gap (some (btc_book "100.00"))) no_account =
      build (after_gap (some (btc_book "100"))) no_account :=
  (invalid_book_is_hidden_iff no_account (by unfold AgreeButBook; rfl) rfl).mpr
    fun _ => Or.inr (by decide +kernel)

/-- The bid of an invalid book is in the snapshot. -/
theorem an_invalid_bid_is_shown :
    AgreeButBook (after_gap (some (btc_book "100.00"))) (after_gap none) ∧
      (after_gap (some (btc_book "100.00"))).integrity.is_valid = false ∧
      build (after_gap (some (btc_book "100.00"))) no_account ≠
        build (after_gap none) no_account := by
  refine ⟨by unfold AgreeButBook; rfl, rfl, ?_⟩
  intro h
  have hshown : (build (after_gap (some (btc_book "100.00"))) no_account).toOption.map
      (·.market_state.bid) = some (some (fin 100)) := by
    decide +kernel
  have hhidden : (build (after_gap none) no_account).toOption.map (·.market_state.bid) =
      some none := by
    decide +kernel
  rw [h, hhidden] at hshown
  cases hshown

end SnapshotBuilder

end trading_platform.analytics
