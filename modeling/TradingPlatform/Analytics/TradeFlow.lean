-- What the flow engine says of a history of trades. It keeps the last trades only: the
-- tape speed counts those of them that are in its window, and the slope is that of the
-- running delta of the last ones, which starts at zero with the first of them.
import TradingPlatform.Lib.LeastSquares
import TradingPlatform.Analytics.TradeEngines

open least_squares
open series
open trading_platform.shared
open trading_platform.shared.PyFloat

namespace trading_platform.analytics

/-- A trade as the engine is told of it. Its numbers can be read. -/
structure FlowTrade where
  price : String
  qty : String
  is_buyer_maker : Bool
  timestamp_ms : Int
  price_value : ℚ
  qty_value : ℚ
  reads_price : PyFloat.ofText price = .ok (fin price_value)
  reads_qty : PyFloat.ofText qty = .ok (fin qty_value)

namespace FlowTrade

def record (t : FlowTrade) : TradeRecord :=
  ⟨fin t.price_value, fin t.qty_value, t.is_buyer_maker, t.timestamp_ms⟩

/-- A taker buy counts up, a taker sell down. -/
def signed (t : FlowTrade) : ℚ := if t.is_buyer_maker then -t.qty_value else t.qty_value

theorem record_delta (t : FlowTrade) : t.record.delta = fin t.signed := by
  unfold TradeRecord.delta record signed
  cases t.is_buyer_maker <;> rfl

/-- Trades in the order of their times. -/
def InOrder (ts : List FlowTrade) : Prop := ts.Pairwise fun t t' => t.timestamp_ms ≤ t'.timestamp_ms

/-- The trade is not older than the window. -/
def in_window (window_s : ℚ) (now_ms : Int) (t : FlowTrade) : Bool :=
  (now_ms : ℚ) - window_s * 1000 ≤ t.timestamp_ms

end FlowTrade

namespace FlowEngine

variable {cvd_window : Nat}

def init (aggression_window : Nat) (tape_speed_window_s : ℚ) : FlowEngine cvd_window :=
  { tape_s := tape_speed_window_s, agg_n := aggression_window }

def on_trades (engine : FlowEngine cvd_window) (ts : List FlowTrade) : FlowEngine cvd_window :=
  ts.foldl (fun e t => e.on_trade t.price t.qty t.is_buyer_maker t.timestamp_ms) engine

/-- The engine after the trades since its start. -/
def after (aggression_window : Nat) (tape_speed_window_s : ℚ) (ts : List FlowTrade) :
    FlowEngine cvd_window :=
  (init aggression_window tape_speed_window_s).on_trades ts

/-- The total of the signed quantities. -/
def total_delta (ts : List FlowTrade) : ℚ := (ts.map FlowTrade.signed).sum

theorem on_trade_record (engine : FlowEngine cvd_window) (t : FlowTrade) :
    engine.on_trade t.price t.qty t.is_buyer_maker t.timestamp_ms =
      { engine with
        trades := engine.trades.append t.record
        cvd := engine.cvd + fin t.signed } := by
  rw [← t.record_delta]
  simp only [on_trade, t.reads_price, t.reads_qty]
  rfl

/-- The state as a function of the trades. -/
theorem after_eq (agg : Nat) (tape_s : ℚ) (ts : List FlowTrade) :
    (after agg tape_s ts : FlowEngine cvd_window) =
      { trades := .of (ts.map FlowTrade.record)
        cvd := fin (total_delta ts)
        tape_s := tape_s
        agg_n := agg } := by
  induction ts using List.reverseRecOn with
  | nil => rfl
  | append_singleton ts t ih =>
    have hsnoc : (after agg tape_s (ts ++ [t]) : FlowEngine cvd_window) =
        (after agg tape_s ts).on_trade t.price t.qty t.is_buyer_maker t.timestamp_ms := by
      simp [after, on_trades, List.foldl_append]
    rw [hsnoc, on_trade_record, ih]
    simp [Deque.append_of, total_delta]

/-! ## The tape speed -/

/-- The trades that are kept and in the window. -/
theorem count_kept (agg : Nat) {tape_s : ℚ} (htape : 0 < tape_s) (ts : List FlowTrade) (now_ms : Int) :
    (after agg tape_s ts : FlowEngine cvd_window).compute_tape_speed_per_min now_ms =
      fin (60 / tape_s * ((ts.rtake cvd_window).filter (FlowTrade.in_window tape_s now_ms)).length) := by
  have hwindow : 0 ≤ tape_s * 1000 := by linarith
  have hsame : (fun t : FlowTrade => decide (now_ms - trunc (tape_s * 1000) ≤ t.timestamp_ms)) =
      FlowTrade.in_window tape_s now_ms := by
    funext t
    exact decide_eq_decide.mpr (sub_trunc_le_iff hwindow now_ms t.timestamp_ms)
  rw [after_eq, compute_tape_speed_per_min, if_neg (not_le.mpr htape), ← Deque.map_of]
  simp only [List.filter_map, List.length_map]
  congr 1
  rw [← hsame]
  have hcomp : (fun r : TradeRecord => decide (now_ms - trunc (tape_s * 1000) ≤ r.timestamp_ms)) ∘
      FlowTrade.record = fun t => decide (now_ms - trunc (tape_s * 1000) ≤ t.timestamp_ms) := rfl
  rw [hcomp]
  show ((((ts.rtake cvd_window).filter _).length : ℚ)) / tape_s * 60 = _
  ring

/-- The trade counts for the window, and the trades after it do too. -/
theorem in_window_mono {ts : List FlowTrade} (h : FlowTrade.InOrder ts) (window_s : ℚ) (now_ms : Int) :
    ts.Pairwise fun t t' => FlowTrade.in_window window_s now_ms t = true →
      FlowTrade.in_window window_s now_ms t' = true := by
  apply h.imp
  intro t t' hle hin
  have hcast : (t.timestamp_ms : ℚ) ≤ t'.timestamp_ms := by exact_mod_cast hle
  exact decide_eq_true (le_trans (of_decide_eq_true hin) hcast)

/-- The tape speed counts each trade of its window exactly when the engine has room for them. -/
theorem tape_speed_counts_iff (cvd_window agg : Nat) (tape_s : ℚ) (htape : 0 < tape_s)
    (ts : List FlowTrade) (horder : FlowTrade.InOrder ts) (now_ms : Int) :
    (after agg tape_s ts : FlowEngine cvd_window).compute_tape_speed_per_min now_ms =
        fin (60 / tape_s * (ts.filter (FlowTrade.in_window tape_s now_ms)).length) ↔
      (ts.filter (FlowTrade.in_window tape_s now_ms)).length ≤ cvd_window := by
  rw [count_kept agg htape]
  constructor
  · intro h
    have hfactor : (60 / tape_s : ℚ) ≠ 0 := ne_of_gt (by positivity)
    have hcount : ((ts.rtake cvd_window).filter (FlowTrade.in_window tape_s now_ms)).length =
        (ts.filter (FlowTrade.in_window tape_s now_ms)).length := by
      exact_mod_cast mul_left_cancel₀ hfactor (PyFloat.fin.inj h)
    rw [← hcount]
    calc ((ts.rtake cvd_window).filter (FlowTrade.in_window tape_s now_ms)).length
        ≤ (ts.rtake cvd_window).length := List.length_filter_le _ _
      _ ≤ cvd_window := by
        rw [length_rtake]
        omega
  · intro hroom
    rw [filter_rtake ((none_dropped_iff (in_window_mono horder tape_s now_ms)).mpr hroom)]

/-- A trade of the quantity one that its taker bought. -/
def bought_at (timestamp_ms : Int) : FlowTrade :=
  ⟨"100", "1", false, timestamp_ms, 100, 1, float_hundred, float_one⟩

/-- An engine with room for two trades counts the two trades of its window. -/
theorem two_trades_are_counted :
    (after 100 10 [bought_at 1000, bought_at 20000, bought_at 21000] :
      FlowEngine 2).compute_tape_speed_per_min 25000 =
        fin (60 / 10 * ([bought_at 1000, bought_at 20000, bought_at 21000].filter
          (FlowTrade.in_window 10 25000)).length) :=
  (tape_speed_counts_iff 2 100 10 (by norm_num) [bought_at 1000, bought_at 20000, bought_at 21000]
    (by unfold FlowTrade.InOrder; decide) 25000).2 (by decide +kernel)

/-- It does not count three. -/
theorem third_trade_is_not_counted :
    (after 100 10 [bought_at 20000, bought_at 21000, bought_at 22000] :
      FlowEngine 2).compute_tape_speed_per_min 25000 ≠
        fin (60 / 10 * ([bought_at 20000, bought_at 21000, bought_at 22000].filter
          (FlowTrade.in_window 10 25000)).length) := by
  decide +kernel

/-! ## The slope of the running delta -/

/-- `cvd_slope(window)`: the slope of the line through the cumulative deltas of the last
`window` trades. -/
def cvd_slope_over (self : FlowEngine cvd_window) (window : Nat) : Option PyFloat :=
  let recent := self.recent window
  if recent.length < 3 then none
  else
    let cumulative := ((recent.map (·.delta)).scanl (· + ·) (fin 0)).tail
    let n := cumulative.length
    let x_mean : ℚ := (n - 1) / 2
    let y_mean := (sum cumulative).divNat n
    let num := sum (cumulative.mapIdx fun i y => fin (i - x_mean) * (y - y_mean))
    let den : ℚ := ((List.range n).map fun i : Nat => (i - x_mean) ^ 2).sum
    ratio num (fin den)

/-- The window is 20 trades when none is given. -/
theorem cvd_slope_eq (engine : FlowEngine cvd_window) : engine.cvd_slope = engine.cvd_slope_over 20 :=
  rfl

/-- What is computed from some values is the slope of the line of least squares through them. -/
theorem slope_of_values {ys : List ℚ} (hys : 2 ≤ ys.length) :
    ratio (sum ((ys.map fin).mapIdx fun i y =>
        fin (i - ((ys.length : ℚ) - 1) / 2) * (y - (sum (ys.map fin)).divNat ys.length)))
      (fin ((List.range ys.length).map fun i : Nat => ((i : ℚ) - ((ys.length : ℚ) - 1) / 2) ^ 2).sum) =
    some (fin (slope (numbered ys))) := by
  have hne : ys ≠ [] := List.ne_nil_of_length_pos (by omega)
  have hx := mean_x_numbered hne
  have hy := mean_y_numbered ys
  have hnum : ((ys.map fin).mapIdx fun i y =>
      fin (i - ((ys.length : ℚ) - 1) / 2) * (y - (sum (ys.map fin)).divNat ys.length)) =
      ((numbered ys).map fun p =>
        (p.1 - mean_x (numbered ys)) * (p.2 - mean_y (numbered ys))).map fin := by
    rw [map_numbered, hx, hy, sum_fin, divNat_fin]
    apply List.ext_getElem?
    intro i
    cases hi : ys[i]? <;> simp [hi]
  have hden : ((List.range ys.length).map fun i : Nat => ((i : ℚ) - ((ys.length : ℚ) - 1) / 2) ^ 2) =
      (numbered ys).map fun p => (p.1 - mean_x (numbered ys)) ^ 2 := by
    rw [map_numbered, hx]
    apply List.ext_getElem?
    intro i
    by_cases hi : i < ys.length
    · simp [hi]
    · simp [hi]
  have hvary : vary (numbered ys) (mean_x (numbered ys)) ≠ 0 := ne_of_gt (vary_numbered_pos hys _)
  rw [hnum, hden, sum_fin]
  unfold ratio least_squares.slope
  rw [div_fin (by exact hvary)]
  rfl

/-- The slope does not depend on where the running delta starts. -/
theorem slope_rtake (qs : List ℚ) (window : Nat) :
    slope (numbered (running (qs.rtake window))) = slope (numbered ((running qs).rtake window)) := by
  have hmove : ((qs.rdrop window).sum + · : ℚ → ℚ) = fun y => y + (qs.rdrop window).sum := by
    funext y
    exact add_comm _ y
  rw [running_rtake, hmove, numbered_map, slope_move]

/-- The running delta of the last trades, as the engine computes it. -/
theorem cumulative_eq (ts : List FlowTrade) :
    (((ts.map FlowTrade.record).map (·.delta)).scanl (· + ·) (fin 0)).tail =
      (running (ts.map FlowTrade.signed)).map fin := by
  have hdelta : (ts.map FlowTrade.record).map (·.delta) = (ts.map FlowTrade.signed).map fin := by
    simp [Function.comp_def, FlowTrade.record_delta]
  have hscan : ∀ (qs : List ℚ) (a : ℚ),
      (qs.map fin).scanl (· + ·) (fin a) = (qs.scanl (· + ·) a).map fin := by
    intro qs
    induction qs with
    | nil => exact fun a => rfl
    | cons q qs ih =>
      intro a
      rw [List.map_cons, List.scanl_cons, List.scanl_cons, List.map_cons, fin_add, ih]
  rw [hdelta, hscan, ← List.map_tail, running]

/-- The engine holds the last trades of the window. -/
theorem recent_after (agg : Nat) (tape_s : ℚ) (ts : List FlowTrade) {window : Nat}
    (hw : window ≤ cvd_window) :
    (after agg tape_s ts : FlowEngine cvd_window).recent window =
      (ts.rtake window).map FlowTrade.record := by
  rw [recent, after_eq, Deque.rtake_of _ hw, map_rtake]

/-- The slope is that of the one line with the least squared error against the points of the
cumulative delta, which runs over all trades, at the last trades of the window. -/
theorem cvd_slope_is_least_squares (cvd_window agg : Nat) (tape_s : ℚ) (ts : List FlowTrade)
    (window : Nat) (hthree : 3 ≤ window) (hw : window ≤ cvd_window)
    (hkept : 3 ≤ (after agg tape_s ts : FlowEngine cvd_window).trades.length) :
    ∃ cvds : List ℚ,
      ts.inits.tail.map (fun before => (after agg tape_s before : FlowEngine cvd_window).cvd) =
        cvds.map fin ∧
      ∃ m c : ℚ, (after agg tape_s ts : FlowEngine cvd_window).cvd_slope_over window = some (fin m) ∧
        Best (numbered (cvds.rtake window)) m c := by
  have hlong : 3 ≤ ts.length := by
    rw [after_eq, Deque.length_of, List.length_map] at hkept
    omega
  have hlen : (running ((ts.map FlowTrade.signed).rtake window)).length = (ts.rtake window).length := by
    rw [length_running, ← map_rtake, List.length_map]
  have hrecent : 3 ≤ (ts.rtake window).length := by
    rw [length_rtake]
    omega
  have hvalues : 2 ≤ ((running (ts.map FlowTrade.signed)).rtake window).length := by
    rw [length_rtake, length_running, List.length_map]
    omega
  refine ⟨running (ts.map FlowTrade.signed), ?_,
    slope (numbered ((running (ts.map FlowTrade.signed)).rtake window)),
    intercept (numbered ((running (ts.map FlowTrade.signed)).rtake window)), ?_, ?_⟩
  · rw [running_map, List.map_map]
    apply List.map_congr_left
    intro before _
    rw [after_eq]
    rfl
  · unfold cvd_slope_over
    rw [recent_after agg tape_s ts hw]
    dsimp only
    rw [if_neg (by rw [List.length_map]; omega), cumulative_eq, List.length_map, map_rtake, ← slope_rtake]
    exact slope_of_values (by omega)
  · apply best_of_vary
    · intro hnil
      have hzero := congrArg List.length hnil
      rw [length_numbered, List.length_nil] at hzero
      omega
    · exact vary_numbered_pos hvalues _

/-- Three trades in a row that were bought: the slope is their quantity. -/
theorem three_bought_trades :
    ∃ cvds : List ℚ,
      [bought_at 1, bought_at 2, bought_at 3, bought_at 4].inits.tail.map
        (fun before => (after 100 10 before : FlowEngine 20).cvd) = cvds.map fin ∧
      ∃ m c : ℚ, (after 100 10 [bought_at 1, bought_at 2, bought_at 3, bought_at 4] :
          FlowEngine 20).cvd_slope_over 3 = some (fin m) ∧
        Best (numbered (cvds.rtake 3)) m c :=
  cvd_slope_is_least_squares 20 100 10 [bought_at 1, bought_at 2, bought_at 3, bought_at 4] 3
    (by decide) (by decide) (by decide +kernel)

example : (after 100 10 [bought_at 1, bought_at 2, bought_at 3, bought_at 4] :
    FlowEngine 20).cvd_slope_over 3 = some (fin 1) := by
  decide +kernel

end FlowEngine

end trading_platform.analytics
