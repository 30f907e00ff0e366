-- The executed trades of a symbol come on two streams: one event for each trade, and one for
-- each group of consecutive trades of one price and taker side. The dispatcher feeds both to
-- the flow and to the relative volume.
import TradingPlatform.Analytics.Dispatcher
import Mathlib.Algebra.BigOperators.Group.List.Basic
import Mathlib.Data.List.SplitBy

open trading_platform.shared
open trading_platform.shared.PyFloat

namespace trading_platform.analytics

/-! ## Trades and their events -/

structure ExecutedTrade where
  price : ℚ
  qty : ℚ
  is_buyer_maker : Bool
  positive : 0 < qty

namespace ExecutedTrade

/-- A taker buy counts up, a taker sell down. -/
def signed (t : ExecutedTrade) : ℚ := if t.is_buyer_maker then -t.qty else t.qty

def same_price_and_side (a b : ExecutedTrade) : Bool :=
  a.price = b.price && a.is_buyer_maker = b.is_buyer_maker

end ExecutedTrade

/-- The maximal groups of consecutive trades of one price and taker side. -/
def groups (trades : List ExecutedTrade) : List (List ExecutedTrade) :=
  trades.splitBy ExecutedTrade.same_price_and_side

/-- The texts of an event say a price, a quantity and a taker side. -/
structure Reports (price qty : ℚ) (is_buyer_maker : Bool) (d : TradeData) : Prop where
  price : PyFloat.ofText d.price = .ok (fin price)
  qty : PyFloat.ofText d.qty = .ok (fin qty)
  side : d.is_buyer_maker = is_buyer_maker

/-- The event of one trade. -/
def ReportsTrade (t : ExecutedTrade) (d : TradeData) : Prop :=
  Reports t.price t.qty t.is_buyer_maker d

/-- The event of a group: its price and side, and its total quantity. -/
def ReportsGroup (g : List ExecutedTrade) (d : TradeData) : Prop :=
  ∃ t rest, g = t :: rest ∧ Reports t.price (g.map (·.qty)).sum t.is_buyer_maker d

/-! ## The streams -/

/-- The names of the comma-separated streams of each market. -/
structure BinanceIngestSettings where
  spot_streams : List String := []
  futures_streams : List String := []

def BinanceIngestSettings.streams (ingest : BinanceIngestSettings) : MarketType → List String
  | .spot => ingest.spot_streams
  | .futures => ingest.futures_streams

/-- The stream of a symbol, such as "btcusdt@trade". -/
def stream_name (symbol kind : String) : String :=
  String.ofList (symbol.toList.map Char.toLower) ++ "@" ++ kind

section Symbol

variable (symbol : String) (market_type : MarketType)

/-- The trade or the aggregated trade of the symbol that an event carries. -/
def trade_data (e : NormalizedEvent) : Option TradeData :=
  if e.symbol = symbol ∧ e.market_type = market_type then
    match e.data with
    | .trade d => some d
    | _ => none
  else none

def agg_trade_data (e : NormalizedEvent) : Option TradeData :=
  if e.symbol = symbol ∧ e.market_type = market_type then
    match e.data with
    | .agg_trade d => some d
    | _ => none
  else none

/-- The events that the dispatcher gets, between any others: a `TRADE` for each trade if that
stream is configured, and an `AGG_TRADE` for each group if that one is, each in order. -/
structure Delivered (ingest : BinanceIngestSettings) (trades : List ExecutedTrade)
    (events : List (NormalizedEvent × Option Book)) : Prop where
  each_trade : stream_name symbol "trade" ∈ ingest.streams market_type →
    List.Forall₂ ReportsTrade trades (events.filterMap fun e => trade_data symbol market_type e.1)
  no_trade : stream_name symbol "trade" ∉ ingest.streams market_type →
    events.filterMap (fun e => trade_data symbol market_type e.1) = []
  each_group : stream_name symbol "aggTrade" ∈ ingest.streams market_type →
    List.Forall₂ ReportsGroup (groups trades)
      (events.filterMap fun e => agg_trade_data symbol market_type e.1)
  no_group : stream_name symbol "aggTrade" ∉ ingest.streams market_type →
    events.filterMap (fun e => agg_trade_data symbol market_type e.1) = []

end Symbol

/-! ## What the engines are fed -/

variable {settings : AnalyticsSettings}

/-- The store at the start. -/
def StateStore.empty (settings : AnalyticsSettings) : StateStore settings := fun _ => none

/-- `AnalyticsDispatcher.update` on one event after the other. -/
def StateStore.dispatch (store : StateStore settings)
    (events : List (NormalizedEvent × Option Book)) : StateStore settings :=
  events.foldl (fun store e => store.update e.1 e.2) store

/-- The volume of the bucket that an update closes, if it closes one. -/
def RvolCalculator.closed {n : Nat} (old new : RvolCalculator n) : PyFloat :=
  if old.bucket_start_ms = 0 ∨ new.bucket_start_ms = old.bucket_start_ms then fin 0
  else old.current_volume

/-- The volume of all buckets: those that the events close, and the one that is open after
them. -/
def total_volume (symbol : String) (market_type : MarketType) :
    StateStore settings → List (NormalizedEvent × Option Book) → PyFloat
  | store, [] => (store.get symbol market_type).rvol.current_volume
  | store, e :: events =>
    (store.get symbol market_type).rvol.closed ((store.update e.1 e.2).get symbol market_type).rvol +
      total_volume symbol market_type (store.update e.1 e.2) events

/-! ## One event -/

/-- The numbers of a trade can be read. -/
def Readable (d : TradeData) : Prop :=
  ∃ price qty, PyFloat.ofText d.price = .ok (fin price) ∧ PyFloat.ofText d.qty = .ok (fin qty)

/-- The quantity of a trade, and the same with the sign of its taker side. -/
def volume_of (d : TradeData) : ℚ :=
  match PyFloat.ofText d.qty with
  | .ok (fin qty) => qty
  | _ => 0

def flow_of (d : TradeData) : ℚ := if d.is_buyer_maker then -volume_of d else volume_of d

/-- The running CVD and the open bucket are finite, and a bucket takes time. -/
structure Counts (state : SymbolState settings) (cvd volume : ℚ) : Prop where
  cvd : state.flow.cvd = fin cvd
  volume : state.rvol.current_volume = fin volume
  bucket : 0 < state.rvol.bucket_s

theorem set_price_engines (state : SymbolState settings) (r : Except PyErr PyFloat) :
    (state.set_price r).flow = state.flow ∧ (state.set_price r).rvol = state.rvol := by
  unfold SymbolState.set_price
  split
  · split <;> exact ⟨rfl, rfl⟩
  · exact ⟨rfl, rfl⟩

/-- A trade adds its quantity to the open bucket, or closes it and opens the next one. -/
theorem rvol_on_trade {n : Nat} {r : RvolCalculator n} {volume qty : ℚ} {text : String}
    (hvolume : r.current_volume = fin volume) (hbucket : 0 < r.bucket_s)
    (hqty : PyFloat.ofText text = .ok (fin qty)) (ts : Int) :
    ∃ closed volume', r.closed (r.on_trade text ts) = fin closed ∧
      (r.on_trade text ts).current_volume = fin volume' ∧ closed + volume' = volume + qty ∧
      (r.on_trade text ts).bucket_s = r.bucket_s := by
  by_cases hstart : r.bucket_start_ms = 0
  · have hopen : ¬ r.bucket_s ≤ ((ts - ts : Int) : ℚ) / 1000 := by
      simpa using hbucket
    have hnew : r.on_trade text ts =
        { r with current_volume := r.current_volume + fin qty, bucket_start_ms := ts } := by
      simp only [RvolCalculator.on_trade, hqty, if_pos hstart, if_neg hopen]
    refine ⟨0, volume + qty, ?_, ?_, by ring, ?_⟩
    · simp [RvolCalculator.closed, hstart]
    · simp [hnew, hvolume]
    · rw [hnew]
  · by_cases hover : r.bucket_s ≤ ((ts - r.bucket_start_ms : Int) : ℚ) / 1000
    · have hnew : r.on_trade text ts =
          { r with
            historical := r.historical.append r.current_volume
            current_volume := fin 0 + fin qty
            bucket_start_ms := ts } := by
        simp only [RvolCalculator.on_trade, hqty, if_neg hstart, if_pos hover]
      have hmoved : ¬ ts = r.bucket_start_ms := by
        rintro rfl
        simp only [sub_self, Int.cast_zero, zero_div] at hover
        exact absurd hbucket (not_lt.mpr hover)
      refine ⟨volume, qty, ?_, ?_, rfl, ?_⟩
      · simp [RvolCalculator.closed, hstart, hnew, hmoved, hvolume]
      · simp [hnew]
      · rw [hnew]
    · have hnew : r.on_trade text ts =
          { r with current_volume := r.current_volume + fin qty } := by
        simp only [RvolCalculator.on_trade, hqty, if_neg hstart, if_neg hover]
      refine ⟨0, volume + qty, ?_, ?_, by ring, ?_⟩
      · simp [RvolCalculator.closed, hnew]
      · simp [hnew, hvolume]
      · rw [hnew]

/-- A trade goes to the flow and to the open bucket; a bucket that it closes keeps its
volume. -/
theorem on_trade_counts {state : SymbolState settings} {cvd volume : ℚ}
    (h : Counts state cvd volume) {d : TradeData} (hd : Readable d) (ts : Int) :
    ∃ closed volume', state.rvol.closed (state.on_trade d ts).rvol = fin closed ∧
      closed + volume' = volume + volume_of d ∧
      Counts (state.on_trade d ts) (cvd + flow_of d) volume' := by
  obtain ⟨price, qty, hprice, hqty⟩ := hd
  have hvolume : volume_of d = qty := by
    unfold volume_of
    rw [hqty]
  obtain ⟨hflow, hrvol⟩ := set_price_engines { state with
    flow := state.flow.on_trade d.price d.qty d.is_buyer_maker ts
    rvol := state.rvol.on_trade d.qty ts } (PyFloat.ofText d.price)
  have hcvd : (state.flow.on_trade d.price d.qty d.is_buyer_maker ts).cvd =
      fin (cvd + flow_of d) := by
    unfold FlowEngine.on_trade flow_of
    rw [hprice, hqty, hvolume]
    cases hside : d.is_buyer_maker with
    | true => simp [TradeRecord.delta, h.cvd]
    | false => simp [TradeRecord.delta, h.cvd]
  obtain ⟨closed, volume', hclosed, hopen, hsum, hbucket⟩ :=
    rvol_on_trade h.volume h.bucket hqty ts
  refine ⟨closed, volume', ?_, by rw [hvolume, hsum], ?_⟩
  · unfold SymbolState.on_trade
    rw [hrvol]
    exact hclosed
  · unfold SymbolState.on_trade
    refine ⟨?_, ?_, ?_⟩
    · rw [hflow]
      exact hcvd
    · rw [hrvol]
      exact hopen
    · rw [hrvol]
      show 0 < (state.rvol.on_trade d.qty ts).bucket_s
      rw [hbucket]
      exact h.bucket

/-- An event that carries no trade leaves both engines as they were. -/
theorem update_engines (state : SymbolState settings) (e : NormalizedEvent) (book : Option Book)
    (ht : ∀ d, e.data ≠ .trade d) (ha : ∀ d, e.data ≠ .agg_trade d) :
    (state.update e book).flow = state.flow ∧ (state.update e book).rvol = state.rvol := by
  unfold SymbolState.update
  have hwalls : ∀ (s : SymbolState settings) ts,
      (s.refresh_walls ts).flow = s.flow ∧ (s.refresh_walls ts).rvol = s.rvol := by
    intro s ts
    unfold SymbolState.refresh_walls
    split
    · split <;> exact ⟨rfl, rfl⟩
    · exact ⟨rfl, rfl⟩
  cases hdata : e.data with
  | trade d => exact absurd hdata (ht d)
  | agg_trade d => exact absurd hdata (ha d)
  | book_ticker d => exact set_price_engines _ _
  | mark_price d => exact set_price_engines _ _
  | orderbook_snapshot d =>
    obtain ⟨hf, hr⟩ := hwalls { state.touch e with
      integrity := state.integrity.on_snapshot d.last_update_id e.timestamp_ms
      last_book := book.or state.last_book } e.timestamp_ms
    dsimp only
    unfold SymbolState.on_orderbook_snapshot
    dsimp only
    split
    · exact ⟨hf, hr⟩
    · exact ⟨hf, hr⟩
  | orderbook_delta d =>
    dsimp only
    unfold SymbolState.on_orderbook_delta
    dsimp only
    split
    · exact hwalls _ _
    · exact ⟨rfl, rfl⟩
  | kline d =>
    dsimp only
    unfold SymbolState.on_kline
    split
    · exact ⟨rfl, rfl⟩
    · exact ⟨rfl, rfl⟩
  | liquidation d => exact ⟨rfl, rfl⟩
  | other t => exact ⟨rfl, rfl⟩

/-! ## A run -/

section Run

variable {symbol : String} {market_type : MarketType}

/-- What an event of the symbol feeds to the engines. -/
def fed_data (symbol : String) (market_type : MarketType) (e : NormalizedEvent) :
    Option TradeData :=
  (trade_data symbol market_type e).or (agg_trade_data symbol market_type e)

theorem get_update (store : StateStore settings) (e : NormalizedEvent) (book : Option Book) :
    (store.update e book).get symbol market_type =
      if e.symbol = symbol ∧ e.market_type = market_type then
        (store.get symbol market_type).update e book
      else store.get symbol market_type := by
  unfold StateStore.update StateStore.get
  by_cases hkey : e.symbol = symbol ∧ e.market_type = market_type
  · obtain ⟨rfl, rfl⟩ := hkey
    simp
  · rw [if_neg hkey, Function.update_of_ne]
    intro h
    exact hkey ⟨(Prod.mk.inj h).1.symm, (Prod.mk.inj h).2.symm⟩

/-- One event adds what it feeds to the CVD and to the buckets. -/
theorem update_counts {store : StateStore settings} {cvd volume : ℚ}
    (h : Counts (store.get symbol market_type) cvd volume) (e : NormalizedEvent)
    (book : Option Book) (hread : ∀ d ∈ fed_data symbol market_type e, Readable d) :
    ∃ closed volume', (store.get symbol market_type).rvol.closed
        ((store.update e book).get symbol market_type).rvol = fin closed ∧
      closed + volume' = volume + ((fed_data symbol market_type e).toList.map volume_of).sum ∧
      Counts ((store.update e book).get symbol market_type)
        (cvd + ((fed_data symbol market_type e).toList.map flow_of).sum) volume' := by
  have hsame : ∀ state : SymbolState settings,
      state.flow = (store.get symbol market_type).flow →
      state.rvol = (store.get symbol market_type).rvol →
      fed_data symbol market_type e = none →
      ∃ closed volume', (store.get symbol market_type).rvol.closed state.rvol = fin closed ∧
        closed + volume' = volume + ((fed_data symbol market_type e).toList.map volume_of).sum ∧
        Counts state (cvd + ((fed_data symbol market_type e).toList.map flow_of).sum) volume' := by
    intro state hflow hrvol hnone
    refine ⟨0, volume, ?_, by simp [hnone], ?_⟩
    · simp [RvolCalculator.closed, hrvol]
    · simp only [hnone, Option.toList_none, List.map_nil, List.sum_nil, add_zero]
      exact ⟨by rw [hflow]; exact h.cvd, by rw [hrvol]; exact h.volume,
        by rw [hrvol]; exact h.bucket⟩
  rw [get_update]
  by_cases hkey : e.symbol = symbol ∧ e.market_type = market_type
  · rw [if_pos hkey]
    have htouch : Counts ((store.get symbol market_type).touch e) cvd volume :=
      ⟨h.cvd, h.volume, h.bucket⟩
    have hfeed : ∀ d, fed_data symbol market_type e = some d →
        (store.get symbol market_type).update e book =
          ((store.get symbol market_type).touch e).on_trade d e.timestamp_ms →
        ∃ closed volume', (store.get symbol market_type).rvol.closed
            ((store.get symbol market_type).update e book).rvol = fin closed ∧
          closed + volume' = volume + ((fed_data symbol market_type e).toList.map volume_of).sum ∧
          Counts ((store.get symbol market_type).update e book)
            (cvd + ((fed_data symbol market_type e).toList.map flow_of).sum) volume' := by
      intro d hfed hupdate
      obtain ⟨closed, volume', hclosed, hsum, hcounts⟩ :=
        on_trade_counts htouch (hread d hfed) e.timestamp_ms
      rw [hupdate]
      exact ⟨closed, volume', hclosed, by simpa [hfed] using hsum, by simpa [hfed] using hcounts⟩
    cases hdata : e.data with
    | trade d =>
      exact hfeed d (by simp [fed_data, trade_data, hkey, hdata]) (by
        unfold SymbolState.update
        rw [hdata])
    | agg_trade d =>
      exact hfeed d (by simp [fed_data, trade_data, agg_trade_data, hkey, hdata]) (by
        unfold SymbolState.update
        rw [hdata])
    | _ =>
      obtain ⟨hflow, hrvol⟩ := update_engines (store.get symbol market_type) e book
        (by simp [hdata]) (by simp [hdata])
      exact hsame _ hflow hrvol (by simp [fed_data, trade_data, agg_trade_data, hdata])
  · rw [if_neg hkey]
    exact hsame _ rfl rfl (by simp [fed_data, trade_data, agg_trade_data, hkey])

/-- A run adds what its events feed. -/
theorem dispatch_counts {store : StateStore settings} {cvd volume : ℚ}
    (h : Counts (store.get symbol market_type) cvd volume)
    (events : List (NormalizedEvent × Option Book))
    (hread : ∀ d ∈ events.filterMap fun e => fed_data symbol market_type e.1, Readable d) :
    ((store.dispatch events).get symbol market_type).flow.cvd =
        fin (cvd + ((events.filterMap fun e => fed_data symbol market_type e.1).map flow_of).sum) ∧
      total_volume symbol market_type store events =
        fin (volume +
          ((events.filterMap fun e => fed_data symbol market_type e.1).map volume_of).sum) := by
  induction events generalizing store cvd volume with
  | nil => simp [StateStore.dispatch, total_volume, h.cvd, h.volume]
  | cons e events ih =>
    have hsplit : (e :: events).filterMap (fun e => fed_data symbol market_type e.1) =
        (fed_data symbol market_type e.1).toList ++
          events.filterMap fun e => fed_data symbol market_type e.1 := by
      cases hfed : fed_data symbol market_type e.1 <;> simp [hfed]
    rw [hsplit] at hread ⊢
    obtain ⟨closed, volume', hclosed, hsum, hcounts⟩ := update_counts h e.1 e.2
      (fun d hd => hread d (List.mem_append_left _ (by simpa using hd)))
    obtain ⟨hcvd, htotal⟩ := ih hcounts (fun d hd => hread d (List.mem_append_right _ hd))
    rw [List.map_append, List.map_append, List.sum_append, List.sum_append]
    constructor
    · show ((store.update e.1 e.2).dispatch events |>.get symbol market_type).flow.cvd = _
      rw [hcvd, add_assoc]
    · unfold total_volume
      rw [hclosed, htotal, fin_add, ← add_assoc, hsum, add_assoc]

/-- What is fed comes from the one stream or from the other. -/
theorem sum_fed (f : TradeData → ℚ) (events : List (NormalizedEvent × Option Book)) :
    ((events.filterMap fun e => fed_data symbol market_type e.1).map f).sum =
      ((events.filterMap fun e => trade_data symbol market_type e.1).map f).sum +
        ((events.filterMap fun e => agg_trade_data symbol market_type e.1).map f).sum := by
  induction events with
  | nil => simp
  | cons e events ih =>
    have hone : trade_data symbol market_type e.1 = none ∨
        agg_trade_data symbol market_type e.1 = none := by
      unfold trade_data agg_trade_data
      by_cases hkey : e.1.symbol = symbol ∧ e.1.market_type = market_type
      · cases e.1.data <;> simp
      · simp [hkey]
    cases ht : trade_data symbol market_type e.1 with
    | none =>
      cases ha : agg_trade_data symbol market_type e.1 with
      | none => simpa [fed_data, ht, ha] using ih
      | some d =>
        have hfed : fed_data symbol market_type e.1 = some d := by simp [fed_data, ht, ha]
        simp only [hfed, ht, ha, List.filterMap_cons, List.map_cons, List.sum_cons, ih]
        ring
    | some d =>
      have ha : agg_trade_data symbol market_type e.1 = none := by
        simpa [ht] using hone
      have hfed : fed_data symbol market_type e.1 = some d := by simp [fed_data, ht]
      simp only [hfed, ht, ha, List.filterMap_cons, List.map_cons, List.sum_cons, ih]
      ring

end Run

/-! ## The two streams -/

theorem readable_of_reports {price qty : ℚ} {side : Bool} {d : TradeData}
    (h : Reports price qty side d) : Readable d := ⟨price, qty, h.price, h.qty⟩

theorem volume_of_reports {price qty : ℚ} {side : Bool} {d : TradeData}
    (h : Reports price qty side d) : volume_of d = qty := by
  unfold volume_of
  rw [h.qty]

theorem flow_of_reports {price qty : ℚ} {side : Bool} {d : TradeData}
    (h : Reports price qty side d) : flow_of d = if side then -qty else qty := by
  unfold flow_of
  rw [volume_of_reports h, h.side]

/-- The events of the trades, together. -/
theorem sum_trades {trades : List ExecutedTrade} {ds : List TradeData}
    (h : List.Forall₂ ReportsTrade trades ds) :
    (∀ d ∈ ds, Readable d) ∧ (ds.map volume_of).sum = (trades.map (·.qty)).sum ∧
      (ds.map flow_of).sum = (trades.map (·.signed)).sum := by
  induction h with
  | nil => simp
  | cons hd _ ih =>
    obtain ⟨hread, hvolume, hflow⟩ := ih
    refine ⟨?_, ?_, ?_⟩
    · intro d hmem
      rcases List.mem_cons.mp hmem with rfl | hmem
      · exact readable_of_reports hd
      · exact hread d hmem
    · rw [List.map_cons, List.map_cons, List.sum_cons, List.sum_cons, hvolume,
        volume_of_reports hd]
    · rw [List.map_cons, List.map_cons, List.sum_cons, List.sum_cons, hflow, flow_of_reports hd]
      rfl

/-- The trades of a group have one side. -/
theorem side_of_chain {t : ExecutedTrade} {rest : List ExecutedTrade}
    (h : List.IsChain (fun a b => ExecutedTrade.same_price_and_side a b = true) (t :: rest)) :
    ∀ u ∈ t :: rest, u.is_buyer_maker = t.is_buyer_maker := by
  induction rest generalizing t with
  | nil =>
    intro u hu
    rw [List.mem_singleton.mp hu]
  | cons v rest ih =>
    rw [List.isChain_cons_cons] at h
    have hside : t.is_buyer_maker = v.is_buyer_maker := by
      have hsame := h.1
      simp only [ExecutedTrade.same_price_and_side, Bool.and_eq_true, decide_eq_true_eq] at hsame
      exact hsame.2
    intro u hu
    rcases List.mem_cons.mp hu with rfl | hu
    · rfl
    · rw [hside]
      exact ih h.2 u hu

theorem sum_signed_of_side {g : List ExecutedTrade} {side : Bool}
    (h : ∀ u ∈ g, u.is_buyer_maker = side) :
    (g.map (·.signed)).sum = if side then -(g.map (·.qty)).sum else (g.map (·.qty)).sum := by
  induction g with
  | nil => simp
  | cons u g ih =>
    have hu : u.is_buyer_maker = side := h u List.mem_cons_self
    rw [List.map_cons, List.map_cons, List.sum_cons, List.sum_cons,
      ih fun v hv => h v (List.mem_cons_of_mem _ hv)]
    unfold ExecutedTrade.signed
    rw [hu]
    cases side with
    | true =>
      simp only [if_true]
      ring
    | false => simp

/-- The events of the groups, together. -/
theorem sum_groups {gs : List (List ExecutedTrade)} {ds : List TradeData}
    (h : List.Forall₂ ReportsGroup gs ds)
    (hchain : ∀ g ∈ gs,
      List.IsChain (fun a b => ExecutedTrade.same_price_and_side a b = true) g) :
    (∀ d ∈ ds, Readable d) ∧ (ds.map volume_of).sum = (gs.flatten.map (·.qty)).sum ∧
      (ds.map flow_of).sum = (gs.flatten.map (·.signed)).sum := by
  induction h with
  | nil => simp
  | @cons g d gs ds hd _ ih =>
    obtain ⟨hread, hvolume, hflow⟩ := ih fun g hg => hchain g (List.mem_cons_of_mem _ hg)
    obtain ⟨t, rest, rfl, hreports⟩ := hd
    refine ⟨?_, ?_, ?_⟩
    · intro d hmem
      rcases List.mem_cons.mp hmem with rfl | hmem
      · exact readable_of_reports hreports
      · exact hread d hmem
    · rw [List.map_cons, List.sum_cons, hvolume, volume_of_reports hreports, List.flatten_cons,
        List.map_append, List.sum_append]
    · rw [List.map_cons, List.sum_cons, hflow, flow_of_reports hreports, List.flatten_cons,
        List.map_append, List.sum_append,
        sum_signed_of_side (side_of_chain (hchain _ List.mem_cons_self))]

/-! ## Once -/

/-- After the events the running CVD is the signed quantity of the trades, and the buckets
have their quantity. -/
structure CountedOnce (settings : AnalyticsSettings) (symbol : String) (market_type : MarketType)
    (trades : List ExecutedTrade) (events : List (NormalizedEvent × Option Book)) : Prop where
  cvd : (((StateStore.empty settings).dispatch events).get symbol market_type).flow.cvd =
    fin (trades.map (·.signed)).sum
  volume : total_volume symbol market_type (StateStore.empty settings) events =
    fin (trades.map (·.qty)).sum

theorem sum_qty_eq_zero {trades : List ExecutedTrade} :
    (trades.map (·.qty)).sum = 0 ↔ trades = [] := by
  constructor
  · intro h
    cases trades with
    | nil => rfl
    | cons t trades =>
      have hrest : 0 ≤ (trades.map (·.qty)).sum := by
        apply List.sum_nonneg
        intro q hq
        obtain ⟨u, -, rfl⟩ := List.mem_map.mp hq
        exact u.positive.le
      have hpos := t.positive
      rw [List.map_cons, List.sum_cons] at h
      linarith
  · rintro rfl
    rfl

/-- What a stream brings: all the trades if it is configured, and nothing otherwise. -/
structure Brings (configured : Prop) [Decidable configured] (trades : List ExecutedTrade)
    (ds : List TradeData) : Prop where
  readable : ∀ d ∈ ds, Readable d
  volume : (ds.map volume_of).sum = if configured then (trades.map (·.qty)).sum else 0
  flow : (ds.map flow_of).sum = if configured then (trades.map (·.signed)).sum else 0

theorem brings_nothing {configured : Prop} [Decidable configured] (h : ¬ configured)
    (trades : List ExecutedTrade) : Brings configured trades [] := by
  refine ⟨fun d hd => absurd hd List.not_mem_nil, ?_, ?_⟩
  · rw [if_neg h]
    rfl
  · rw [if_neg h]
    rfl

section Streams

variable {symbol : String} {market_type : MarketType} {ingest : BinanceIngestSettings}
  {trades : List ExecutedTrade} {events : List (NormalizedEvent × Option Book)}

theorem brings_trades (h : Delivered symbol market_type ingest trades events) :
    Brings (stream_name symbol "trade" ∈ ingest.streams market_type) trades
      (events.filterMap fun e => trade_data symbol market_type e.1) := by
  by_cases hstream : stream_name symbol "trade" ∈ ingest.streams market_type
  · obtain ⟨hread, hvolume, hflow⟩ := sum_trades (h.each_trade hstream)
    exact ⟨hread, by rw [if_pos hstream, hvolume], by rw [if_pos hstream, hflow]⟩
  · rw [h.no_trade hstream]
    exact brings_nothing hstream trades

theorem brings_groups (h : Delivered symbol market_type ingest trades events) :
    Brings (stream_name symbol "aggTrade" ∈ ingest.streams market_type) trades
      (events.filterMap fun e => agg_trade_data symbol market_type e.1) := by
  by_cases hstream : stream_name symbol "aggTrade" ∈ ingest.streams market_type
  · have hchain : ∀ g ∈ groups trades,
        List.IsChain (fun a b => ExecutedTrade.same_price_and_side a b = true) g :=
      fun g hg => List.isChain_of_mem_splitBy hg
    have hflatten : (groups trades).flatten = trades := List.flatten_splitBy _ _
    obtain ⟨hread, hvolume, hflow⟩ := sum_groups (h.each_group hstream) hchain
    rw [hflatten] at hvolume hflow
    exact ⟨hread, by rw [if_pos hstream, hvolume], by rw [if_pos hstream, hflow]⟩
  · rw [h.no_group hstream]
    exact brings_nothing hstream trades

end Streams

/-- Two streams bring each trade once exactly when one of them is configured and the other
one is not, or there is none. -/
theorem brought_once_iff {p q : Prop} [Decidable p] [Decidable q] {trades : List ExecutedTrade} :
    ((if p then (trades.map (·.signed)).sum else 0) +
        (if q then (trades.map (·.signed)).sum else 0) = (trades.map (·.signed)).sum ∧
      (if p then (trades.map (·.qty)).sum else 0) +
        (if q then (trades.map (·.qty)).sum else 0) = (trades.map (·.qty)).sum) ↔
      (p ↔ ¬ q) ∨ trades = [] := by
  have hempty : trades = [] → (trades.map (·.signed)).sum = 0 ∧ (trades.map (·.qty)).sum = 0 := by
    rintro rfl
    exact ⟨rfl, rfl⟩
  by_cases hp : p
  · by_cases hq : q
    · simp only [hp, hq, if_true, not_true_eq_false, iff_false, false_or]
      constructor
      · rintro ⟨-, hqty⟩
        exact sum_qty_eq_zero.mp (by linarith)
      · intro hnone
        obtain ⟨h1, h2⟩ := hempty hnone
        rw [h1, h2]
        exact ⟨add_zero 0, add_zero 0⟩
    · simp [hp, hq]
  · by_cases hq : q
    · simp [hp, hq]
    · simp only [hp, hq, if_false, not_false_eq_true, iff_true, false_or, add_zero]
      constructor
      · rintro ⟨-, hqty⟩
        exact sum_qty_eq_zero.mp hqty.symm
      · intro hnone
        obtain ⟨h1, h2⟩ := hempty hnone
        rw [h1, h2]
        exact ⟨rfl, rfl⟩

/-- Each executed trade is counted once exactly where one of the two streams is configured
and the other one is not, or nothing is traded. -/
theorem trades_are_counted_once_iff (settings : AnalyticsSettings)
    (ingest : BinanceIngestSettings) (symbol : String) (market_type : MarketType)
    (trades : List ExecutedTrade) (events : List (NormalizedEvent × Option Book))
    (h : Delivered symbol market_type ingest trades events) :
    CountedOnce settings symbol market_type trades events ↔
      (stream_name symbol "trade" ∈ ingest.streams market_type ↔
        stream_name symbol "aggTrade" ∉ ingest.streams market_type) ∨ trades = [] := by
  have hstart : Counts ((StateStore.empty settings).get symbol market_type) 0 0 := by
    refine ⟨rfl, rfl, ?_⟩
    show (0 : ℚ) < 300
    norm_num
  have htrade := brings_trades h
  have hgroup := brings_groups h
  have hread : ∀ d ∈ events.filterMap fun e => fed_data symbol market_type e.1, Readable d := by
    intro d hd
    obtain ⟨e, he, hfed⟩ := List.mem_filterMap.mp hd
    rcases Option.or_eq_some_iff.mp hfed with hone | ⟨-, hone⟩
    · exact htrade.readable d (List.mem_filterMap.mpr ⟨e, he, hone⟩)
    · exact hgroup.readable d (List.mem_filterMap.mpr ⟨e, he, hone⟩)
  obtain ⟨hcvd, htotal⟩ := dispatch_counts hstart events hread
  rw [sum_fed, zero_add, htrade.flow, hgroup.flow] at hcvd
  rw [sum_fed, zero_add, htrade.volume, hgroup.volume] at htotal
  rw [← brought_once_iff]
  constructor
  · rintro ⟨h1, h2⟩
    exact ⟨PyFloat.fin.inj (hcvd.symm.trans h1), PyFloat.fin.inj (htotal.symm.trans h2)⟩
  · rintro ⟨h1, h2⟩
    exact ⟨hcvd.trans (congrArg fin h1), htotal.trans (congrArg fin h2)⟩

/-- A sale of two coins. -/
def demo_trade : ExecutedTrade := ⟨100, 2, true, by norm_num⟩

def demo_data : TradeData := ⟨"100", "2", true⟩

def demo_event (data : EventData) : NormalizedEvent × Option Book :=
  (⟨.binance, .futures, "BTCUSDT", 1, 1, none, data⟩, none)

theorem demo_reports : Reports 100 2 true demo_data :=
  ⟨by decide +kernel, by decide +kernel, rfl⟩

theorem demo_group : List.Forall₂ ReportsGroup (groups [demo_trade]) [demo_data] := by
  refine .cons ⟨demo_trade, [], rfl, ?_⟩ .nil
  simpa [demo_trade] using demo_reports

/-- With the aggregated stream alone, the sale counts once. -/
theorem an_aggregated_sale_counts_once :
    CountedOnce {} "BTCUSDT" .futures [demo_trade] [demo_event (.agg_trade demo_data)] :=
  (trades_are_counted_once_iff {} { futures_streams := ["btcusdt@aggTrade"] } "BTCUSDT" .futures
    [demo_trade] [demo_event (.agg_trade demo_data)]
    { each_trade := fun h => absurd h (by decide)
      no_trade := fun _ => rfl
      each_group := fun _ => demo_group
      no_group := fun h => absurd (by decide) h }).mpr (Or.inl (by decide))

/-- With both streams, the sale counts twice. -/
theorem a_sale_counts_twice :
    let events := [demo_event (.trade demo_data), demo_event (.agg_trade demo_data)]
    Delivered "BTCUSDT" .futures { futures_streams := ["btcusdt@trade", "btcusdt@aggTrade"] }
        [demo_trade] events ∧
      ¬ CountedOnce {} "BTCUSDT" .futures [demo_trade] events := by
  refine ⟨?_, ?_⟩
  · exact
      { each_trade := fun _ => .cons demo_reports .nil
        no_trade := fun h => absurd (by decide) h
        each_group := fun _ => demo_group
        no_group := fun h => absurd (by decide) h }
  · intro h
    have hcvd := h.cvd
    have htwice : (((StateStore.empty {}).dispatch
        [demo_event (.trade demo_data), demo_event (.agg_trade demo_data)]).get "BTCUSDT"
          .futures).flow.cvd = fin (-4) := by decide +kernel
    rw [htwice] at hcvd
    have hsigned : (([demo_trade].map (·.signed)).sum : ℚ) = -2 := by decide +kernel
    rw [hsigned] at hcvd
    exact absurd (PyFloat.fin.inj hcvd) (by norm_num)

end trading_platform.analytics
