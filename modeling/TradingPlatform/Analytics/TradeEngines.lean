-- The engines that read trades, liquidations and the funding rate. Each one keeps
-- the last records only, and what it computes is a function of them.
import TradingPlatform.Lib.Series
import TradingPlatform.Shared.Float

open series
open trading_platform.shared
open trading_platform.shared.PyFloat

namespace trading_platform.analytics

/-- `int(q)` cuts off towards zero. -/
def trunc (q : ℚ) : Int := if q < 0 then ⌈q⌉ else ⌊q⌋

/-- A whole time is not before a cutoff that is cut off exactly when it is not before it. -/
theorem sub_trunc_le_iff {w : ℚ} (hw : 0 ≤ w) (now t : Int) :
    now - trunc w ≤ t ↔ (now : ℚ) - w ≤ t := by
  rw [trunc, if_neg (not_lt.mpr hw), sub_le_comm, Int.le_floor, Int.cast_sub, sub_le_comm]

/-- A quotient that is not taken when the divisor is zero. -/
def ratio (x y : PyFloat) : Option PyFloat :=
  match div x y with
  | .ok q => some q
  | .error _ => none

/-! ## Trade flow -/

structure TradeRecord where
  price : PyFloat
  qty : PyFloat
  is_buyer_maker : Bool
  timestamp_ms : Int
  deriving DecidableEq

/-- A taker buy counts up, a taker sell down. -/
def TradeRecord.delta (t : TradeRecord) : PyFloat := if t.is_buyer_maker then -t.qty else t.qty

structure FlowEngine (cvd_window : Nat) where
  trades : Deque TradeRecord cvd_window := .empty
  cvd : PyFloat := fin 0
  tape_s : ℚ
  agg_n : Nat := 100

namespace FlowEngine

variable {cvd_window : Nat} (self : FlowEngine cvd_window)

/-- A trade whose numbers cannot be read is dropped. -/
def on_trade (price qty : String) (is_buyer_maker : Bool) (timestamp_ms : Int) :
    FlowEngine cvd_window :=
  match PyFloat.ofText price, PyFloat.ofText qty with
  | .ok price, .ok qty =>
    let rec_ : TradeRecord := ⟨price, qty, is_buyer_maker, timestamp_ms⟩
    { self with trades := self.trades.append rec_, cvd := self.cvd + rec_.delta }
  | _, _ => self

def reset_cvd : FlowEngine cvd_window := { self with cvd := fin 0 }

/-- The last `window` trades. -/
def recent (window : Nat) : List TradeRecord := self.trades.items.rtake window

def compute_delta : PyFloat := sum ((self.recent 50).map (·.delta))

/-- The quantity of the trades of one side. -/
def volume (is_buyer_maker : Bool) (ts : List TradeRecord) : PyFloat :=
  sum ((ts.filter (·.is_buyer_maker = is_buyer_maker)).map (·.qty))

def compute_aggression_ratio : Option PyFloat :=
  let recent := self.recent self.agg_n
  if recent = [] then none
  else ratio (volume false recent) (sum (recent.map (·.qty)))

def compute_tape_speed_per_min (now_ms : Int) : PyFloat :=
  if self.tape_s ≤ 0 then fin 0
  else
    let cutoff := now_ms - trunc (self.tape_s * 1000)
    let count := (self.trades.items.filter fun t => cutoff ≤ t.timestamp_ms).length
    fin (count / self.tape_s * 60)

def compute_buy_sell_volumes : PyFloat × PyFloat :=
  (volume false (self.recent 100), volume true (self.recent 100))

/-- The trades of one side that are worth the threshold at the price. -/
def large (is_buyer_maker : Bool) (price threshold_usd : PyFloat) : Nat :=
  ((self.recent 100).filter fun t =>
    t.is_buyer_maker = is_buyer_maker && threshold_usd.le (t.qty * price)).length

def compute_large_trade_stats (price threshold_usd : PyFloat) : Nat × Nat :=
  if (fin 0).lt price && (fin 0).lt threshold_usd then
    (self.large false price threshold_usd, self.large true price threshold_usd)
  else (0, 0)

/-- The slope of the line through the cumulative deltas of the last 20 trades. -/
def cvd_slope : Option PyFloat :=
  let recent := self.recent 20
  if recent.length < 3 then none
  else
    let cumulative := ((recent.map (·.delta)).scanl (· + ·) (fin 0)).tail
    let n := cumulative.length
    let x_mean : ℚ := (n - 1) / 2
    let y_mean := (sum cumulative).divNat n
    let num := sum (cumulative.mapIdx fun i y => fin (i - x_mean) * (y - y_mean))
    let den : ℚ := ((List.range n).map fun i : Nat => (i - x_mean) ^ 2).sum
    ratio num (fin den)

end FlowEngine

/-! ## Relative volume -/

structure RvolCalculator (lookback_buckets : Nat) where
  bucket_s : ℚ := 300
  historical : Deque PyFloat lookback_buckets := .empty
  current_volume : PyFloat := fin 0
  bucket_start_ms : Int := 0

namespace RvolCalculator

variable {lookback_buckets : Nat} (self : RvolCalculator lookback_buckets)

def on_trade (qty : String) (timestamp_ms : Int) : RvolCalculator lookback_buckets :=
  match PyFloat.ofText qty with
  | .error _ => self
  | .ok vol =>
    let start := if self.bucket_start_ms = 0 then timestamp_ms else self.bucket_start_ms
    if self.bucket_s ≤ ((timestamp_ms - start : Int) : ℚ) / 1000 then
      { self with
        historical := self.historical.append self.current_volume
        current_volume := fin 0 + vol
        bucket_start_ms := timestamp_ms }
    else { self with current_volume := self.current_volume + vol, bucket_start_ms := start }

def compute : Option PyFloat :=
  if self.historical.items = [] then none
  else ratio self.current_volume ((sum self.historical.items).divNat self.historical.length)

end RvolCalculator

/-! ## Liquidations -/

structure LiquidationRecord where
  side : String
  qty : PyFloat
  price : PyFloat
  timestamp_ms : Int

structure LiquidationClusterDetector where
  window_s : ℚ := 60
  records : Deque LiquidationRecord 500 := .empty

namespace LiquidationClusterDetector

variable (self : LiquidationClusterDetector)

def on_liquidation (side qty price : String) (timestamp_ms : Int) : LiquidationClusterDetector :=
  match PyFloat.ofText qty, PyFloat.ofText price with
  | .ok qty, .ok price => { self with records := self.records.append ⟨side, qty, price, timestamp_ms⟩ }
  | _, _ => self

/-- The value of the recent liquidations of one side. -/
def usd (side : String) (now_ms : Int) : PyFloat :=
  let cutoff_ms := now_ms - trunc (self.window_s * 1000)
  let recent := self.records.items.filter fun r => cutoff_ms ≤ r.timestamp_ms
  sum ((recent.filter (·.side = side)).map fun r => r.qty * r.price)

/-- A forced sale closes a long position, a forced purchase a short one. -/
def compute_cluster_totals (_current_price : PyFloat) (now_ms : Int) : PyFloat × PyFloat :=
  (self.usd "SELL" now_ms, self.usd "BUY" now_ms)

end LiquidationClusterDetector

/-! ## Funding -/

def compute_funding_pressure (funding_rate mark_price index_price : String) : Option PyFloat :=
  match PyFloat.ofText funding_rate, PyFloat.ofText mark_price, PyFloat.ofText index_price with
  | .ok rate, .ok mark, .ok index =>
    let base_score := rate * fin 10000
    let divergence_bps :=
      if (fin 0).lt index then
        match ratio (mark - index) index with
        | some q => q * fin 10000
        | none => fin 0
      else fin 0
    some (base_score + divergence_bps * fin (1 / 2))
  | _, _, _ => none

end trading_platform.analytics
