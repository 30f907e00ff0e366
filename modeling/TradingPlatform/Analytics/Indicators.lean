-- The indicator engine of one kline interval. It updates each indicator with one
-- closed kline at a time and remembers the last klines only. Its state is a
-- function of the whole history (`of_history`), so what it computes are the
-- definitions of the indicators over that history.
import TradingPlatform.Lib.Series
import TradingPlatform.Shared.Float
import Mathlib.Algebra.Order.BigOperators.Group.List
import Mathlib.Tactic.NormNum

open series
open trading_platform.shared

namespace trading_platform.analytics

/-! ## The engine -/

structure IndicatorValues where
  ema_9 : Option PyFloat := none
  ema_21 : Option PyFloat := none
  ema_50 : Option PyFloat := none
  ema_200 : Option PyFloat := none
  rsi_14 : Option PyFloat := none
  vwap : Option PyFloat := none
  bb_upper : Option PyFloat := none
  bb_middle : Option PyFloat := none
  bb_lower : Option PyFloat := none
  bb_width : Option PyFloat := none
  atr_14 : Option PyFloat := none

def EMA_PERIODS : List Nat := [9, 21, 50, 200]
def RSI_PERIOD : Nat := 14
def BB_PERIOD : Nat := 20
def ATR_PERIOD : Nat := 14
def MAX_HISTORY : Nat := 250

structure IndicatorEngine where
  closes : Deque PyFloat MAX_HISTORY := .empty
  highs : Deque PyFloat MAX_HISTORY := .empty
  lows : Deque PyFloat MAX_HISTORY := .empty
  volumes : Deque PyFloat MAX_HISTORY := .empty
  ema : Nat → Option PyFloat := fun _ => none
  rsi_avg_gain : Option PyFloat := none
  rsi_avg_loss : Option PyFloat := none
  tr_buffer : Deque PyFloat (ATR_PERIOD + 5) := .empty
  atr : Option PyFloat := none
  prev_close : Option PyFloat := none
  vwap_num : PyFloat := .fin 0
  vwap_den : PyFloat := .fin 0

namespace IndicatorEngine

open PyFloat

variable (self : IndicatorEngine)

/-- The new entry of one period. -/
def update_ema (close : PyFloat) (period : Nat) : Option PyFloat :=
  match self.ema period with
  | none =>
    if period ≤ self.closes.length then
      let seed := self.closes.items.rtake period
      some ((sum seed).divNat period)
    else none
  | some ema =>
    let k := fin (2 / (period + 1))
    some (close * k + ema * (fin 1 - k))

def update_emas (close : PyFloat) : IndicatorEngine :=
  { self with
    ema := EMA_PERIODS.foldl
      (fun ema period => Function.update ema period (self.update_ema close period)) self.ema }

def update_rsi (close : PyFloat) : IndicatorEngine :=
  match self.prev_close with
  | none => self
  | some prev_close =>
    let change := close - prev_close
    let gain := PyFloat.max (fin 0) change
    let loss := PyFloat.max (fin 0) (-change)
    match self.rsi_avg_gain with
    | none =>
      if self.closes.length = RSI_PERIOD + 1 then
        let closes_list := self.closes.items
        let gains := neighbours (fun a b => PyFloat.max (fin 0) (b - a)) closes_list
        let losses := neighbours (fun a b => PyFloat.max (fin 0) (a - b)) closes_list
        { self with
          rsi_avg_gain := some ((sum gains).divNat RSI_PERIOD)
          rsi_avg_loss := some ((sum losses).divNat RSI_PERIOD) }
      else self
    | some avg_gain =>
      let n := RSI_PERIOD
      { self with
        rsi_avg_gain := some ((avg_gain * fin (n - 1) + gain).divNat n)
        rsi_avg_loss := self.rsi_avg_loss.map fun avg_loss =>
          (avg_loss * fin (n - 1) + loss).divNat n }

def update_atr (high low _close : PyFloat) : IndicatorEngine :=
  let tr := match self.prev_close with
    | none => high - low
    | some prev_close =>
      PyFloat.max (PyFloat.max (high - low) (high - prev_close).abs) (low - prev_close).abs
  let tr_buffer := self.tr_buffer.append tr
  { self with
    tr_buffer := tr_buffer
    atr := match self.atr with
      | none =>
        if ATR_PERIOD ≤ tr_buffer.length then
          some ((sum (tr_buffer.items.rtake ATR_PERIOD)).divNat ATR_PERIOD)
        else none
      | some atr => some ((atr * fin (ATR_PERIOD - 1) + tr).divNat ATR_PERIOD) }

def update_vwap (high low close volume : PyFloat) : IndicatorEngine :=
  let typical := (high + low + close).divNat 3
  { self with
    vwap_num := self.vwap_num + typical * volume
    vwap_den := self.vwap_den + volume }

/-- A kline whose numbers were read. -/
def on_floats (h lo c v : PyFloat) : IndicatorEngine :=
  let self := { self with
    closes := self.closes.append c
    highs := self.highs.append h
    lows := self.lows.append lo
    volumes := self.volumes.append v }
  let self := self.update_emas c
  let self := self.update_rsi c
  let self := self.update_atr h lo c
  let self := self.update_vwap h lo c v
  { self with prev_close := some c }

def on_kline_close (_open high low close volume : String) : IndicatorEngine :=
  match PyFloat.ofText close, PyFloat.ofText high, PyFloat.ofText low, PyFloat.ofText volume with
  | .ok c, .ok h, .ok lo, .ok v => self.on_floats h lo c v
  | _, _, _, _ => self

def reset_vwap : IndicatorEngine := { self with vwap_num := fin 0, vwap_den := fin 0 }

/-- The relative strength index of the two averages. -/
def compute_rsi : Except PyErr (Option PyFloat) :=
  match self.rsi_avg_gain, self.rsi_avg_loss with
  | some avg_gain, some avg_loss =>
    if avg_loss = fin 0 then .ok (some (fin 100))
    else do
      let rs ← div avg_gain avg_loss
      let q ← div (fin 100) (fin 1 + rs)
      return some (fin 100 - q)
  | _, _ => .ok none

def compute_vwap : Except PyErr (Option PyFloat) :=
  if (fin 0).lt self.vwap_den then (div self.vwap_num self.vwap_den).map some
  else .ok none

/-- Writes the Bollinger bands to `vals`. -/
def compute_bands (sqrt : ℚ → ℚ) (vals : IndicatorValues) : Except PyErr IndicatorValues :=
  if BB_PERIOD ≤ self.closes.length then do
    let recent := self.closes.items.rtake BB_PERIOD
    let sma := (sum recent).divNat BB_PERIOD
    let variance := (sum (recent.map fun x => (x - sma) * (x - sma))).divNat BB_PERIOD
    let std ← math_sqrt sqrt variance
    let bb_upper := sma + fin 2 * std
    let bb_lower := sma - fin 2 * std
    let bb_width ←
      if sma = fin 0 then .ok none else (div (bb_upper - bb_lower) sma).map some
    return { vals with
      bb_middle := some sma
      bb_upper := some bb_upper
      bb_lower := some bb_lower
      bb_width := bb_width }
  else .ok vals

def compute (sqrt : ℚ → ℚ) : Except PyErr IndicatorValues := do
  let rsi_14 ← self.compute_rsi
  let vwap ← self.compute_vwap
  let vals ← self.compute_bands sqrt
    { ema_9 := self.ema 9
      ema_21 := self.ema 21
      ema_50 := self.ema 50
      ema_200 := self.ema 200
      rsi_14 := rsi_14
      vwap := vwap }
  return { vals with atr_14 := self.atr }

end IndicatorEngine

/-! ## The definitions over a whole history -/

/-- A well-formed kline: its numbers are finite. -/
structure Kline where
  high : ℚ
  low : ℚ
  close : ℚ
  volume : ℚ

def mean (xs : List ℚ) : ℚ := xs.sum / xs.length

/-- The exponential moving average, from the mean of the first `p` closes. -/
def ema_of (p : Nat) (closes : List ℚ) : Option ℚ :=
  seeded p mean (fun ema close => close * (2 / (p + 1)) + ema * (1 - 2 / (p + 1))) closes

/-- Wilder's smoothing, from the mean of the first `n` entries. -/
def wilder (n : Nat) (xs : List ℚ) : Option ℚ :=
  seeded n mean (fun avg x => (avg * (n - 1) + x) / n) xs

def gains (closes : List ℚ) : List ℚ := neighbours (fun a b => max 0 (b - a)) closes

def losses (closes : List ℚ) : List ℚ := neighbours (fun a b => max 0 (a - b)) closes

def rsi_of (closes : List ℚ) : Option ℚ :=
  match wilder 14 (gains closes), wilder 14 (losses closes) with
  | some gain, some loss => some (if loss = 0 then 100 else 100 - 100 / (1 + gain / loss))
  | _, _ => none

/-- The range of a kline after a close `prev`; the first kline has none before it. -/
def true_range (prev : Option ℚ) (k : Kline) : ℚ :=
  match prev with
  | none => k.high - k.low
  | some prev => max (max (k.high - k.low) |k.high - prev|) |k.low - prev|

def true_ranges (ks : List Kline) : List ℚ :=
  match ks with
  | [] => []
  | k :: _ => true_range none k :: neighbours (fun a b => true_range (some a.close) b) ks

def atr_of (ks : List Kline) : Option ℚ := wilder 14 (true_ranges ks)

def Kline.typical (k : Kline) : ℚ := (k.high + k.low + k.close) / 3

/-- The mean of the typical prices, weighted by the volumes. -/
def vwap_of (ks : List Kline) : Option ℚ :=
  let volume := (ks.map (·.volume)).sum
  if 0 < volume then some ((ks.map fun k => k.typical * k.volume).sum / volume) else none

def variance (xs : List ℚ) : ℚ := mean (xs.map fun x => (x - mean xs) * (x - mean xs))

/-- The indicators of a history and of the klines since the last reset. -/
def indicators_of (sqrt : ℚ → ℚ) (ks session : List Kline) : IndicatorValues :=
  let closes := ks.map (·.close)
  let recent := closes.rtake 20
  let band {α : Type} (x : α) : Option α := if 20 ≤ closes.length then some x else none
  let middle := mean recent
  let width := 2 * sqrt (variance recent)
  { ema_9 := (ema_of 9 closes).map .fin
    ema_21 := (ema_of 21 closes).map .fin
    ema_50 := (ema_of 50 closes).map .fin
    ema_200 := (ema_of 200 closes).map .fin
    rsi_14 := (rsi_of closes).map .fin
    vwap := (vwap_of session).map .fin
    bb_upper := band (.fin (middle + width))
    bb_middle := band (.fin middle)
    bb_lower := band (.fin (middle - width))
    bb_width := if middle = 0 then none
      else band (.fin ((middle + width - (middle - width)) / middle))
    atr_14 := (atr_of ks).map .fin }

/-! ## The state as a function of the history -/

open PyFloat

/-- The state of the engine after the klines `ks`, of which `session` came since
the last reset. -/
def of_history (ks session : List Kline) : IndicatorEngine where
  closes := .of (ks.map fun k => fin k.close)
  highs := .of (ks.map fun k => fin k.high)
  lows := .of (ks.map fun k => fin k.low)
  volumes := .of (ks.map fun k => fin k.volume)
  ema := fun p => if p ∈ EMA_PERIODS then (ema_of p (ks.map (·.close))).map fin else none
  rsi_avg_gain := (wilder 14 (gains (ks.map (·.close)))).map fin
  rsi_avg_loss := (wilder 14 (losses (ks.map (·.close)))).map fin
  tr_buffer := .of ((true_ranges ks).map fin)
  atr := (atr_of ks).map fin
  prev_close := ks.getLast?.map fun k => fin k.close
  vwap_num := fin (session.map fun k => k.typical * k.volume).sum
  vwap_den := fin (session.map (·.volume)).sum

theorem mean_of_length {xs : List ℚ} {n : Nat} (h : xs.length = n) :
    fin (mean xs) = (sum (xs.map fin)).divNat n := by
  rw [sum_fin, divNat_fin, mean, h]

/-- The closes that the engine holds are the last ones of the history. -/
theorem closes_rtake (ks : List Kline) {n : Nat} (h : n ≤ MAX_HISTORY) :
    (Deque.of (ks.map fun k => fin k.close) : Deque PyFloat MAX_HISTORY).items.rtake n =
      ((ks.map (·.close)).rtake n).map fin := by
  rw [Deque.rtake_of _ h, map_rtake, List.map_map]
  rfl

theorem closes_length (ks : List Kline) :
    (Deque.of (ks.map fun k => fin k.close) : Deque PyFloat MAX_HISTORY).length =
      min MAX_HISTORY ks.length := by
  rw [Deque.length_of, List.length_map]

/-! ### The moving averages -/

theorem ema_of_snoc (p : Nat) (closes : List ℚ) (c : ℚ) :
    ema_of p (closes ++ [c]) =
      match ema_of p closes with
      | some ema => some (c * (2 / (p + 1)) + ema * (1 - 2 / (p + 1)))
      | none => if closes.length + 1 = p then some (mean (closes ++ [c])) else none := by
  unfold ema_of
  rw [seeded_snoc]
  cases seeded p mean _ closes <;> rfl

/-- One close more, in the entry of one period. -/
theorem update_ema_of_history {engine : IndicatorEngine} {ks : List Kline} {k : Kline} {p : Nat}
    (hp : p ≤ MAX_HISTORY) (hc : engine.closes = .of ((ks ++ [k]).map fun k => fin k.close))
    (he : engine.ema p = (ema_of p (ks.map (·.close))).map fin) :
    engine.update_ema (fin k.close) p = (ema_of p ((ks ++ [k]).map (·.close))).map fin := by
  have hlen : (ks.map (·.close)).length = ks.length := List.length_map _
  rw [List.map_append, List.map_singleton, ema_of_snoc, IndicatorEngine.update_ema, he, hc]
  cases hv : ema_of p (ks.map (·.close)) with
  | some ema => simp
  | none =>
    have hlt : ks.length < p := hlen ▸ seeded_eq_none.mp hv
    simp only [Option.map_none, hlen, closes_length, List.length_append, List.length_singleton]
    by_cases heq : ks.length + 1 = p
    · have hle : p ≤ min MAX_HISTORY (ks.length + 1) := by omega
      have hall : ((ks ++ [k]).map (·.close)).rtake p = ks.map (·.close) ++ [k.close] := by
        rw [rtake_of_length_le (by simp [heq]), List.map_append, List.map_singleton]
      have hmean : (ks.map (·.close) ++ [k.close]).length = p := by simp [heq]
      rw [if_pos hle, if_pos heq, closes_rtake _ hp, hall, Option.map_some, mean_of_length hmean]
    · have hle : ¬ p ≤ min MAX_HISTORY (ks.length + 1) := by omega
      rw [if_neg hle, if_neg heq]
      rfl

theorem foldl_update {α : Type} (g : Nat → α) (ps : List Nat) (f : Nat → α) (p : Nat) :
    ps.foldl (fun f p => Function.update f p (g p)) f p = if p ∈ ps then g p else f p := by
  induction ps generalizing f with
  | nil => simp
  | cons q ps ih =>
    rw [List.foldl_cons, ih]
    by_cases hp : p ∈ ps
    · simp [hp]
    · by_cases hq : p = q
      · simp [hq]
      · simp [hp, hq]

/-- One close more, in the table of the averages. -/
theorem update_emas_of_history (engine : IndicatorEngine) (ks : List Kline) (k : Kline)
    (hc : engine.closes = .of ((ks ++ [k]).map fun k => fin k.close))
    (he : engine.ema =
      fun p => if p ∈ EMA_PERIODS then (ema_of p (ks.map (·.close))).map fin else none) :
    (engine.update_emas (fin k.close)).ema = fun p =>
      if p ∈ EMA_PERIODS then (ema_of p ((ks ++ [k]).map (·.close))).map fin else none := by
  funext p
  unfold IndicatorEngine.update_emas
  dsimp only
  rw [foldl_update (engine.update_ema (fin k.close))]
  by_cases hp : p ∈ EMA_PERIODS
  · have hmax : ∀ q ∈ EMA_PERIODS, q ≤ MAX_HISTORY := by decide
    rw [if_pos hp, if_pos hp, update_ema_of_history (hmax p hp) hc]
    rw [he]
    exact if_pos hp
  · rw [if_neg hp, if_neg hp, he]
    exact if_neg hp

/-! ### The relative strength index -/

theorem wilder_snoc (n : Nat) (xs : List ℚ) (x : ℚ) :
    wilder n (xs ++ [x]) =
      match wilder n xs with
      | some avg => some ((avg * (n - 1) + x) / n)
      | none => if xs.length + 1 = n then some (mean (xs ++ [x])) else none := by
  unfold wilder
  rw [seeded_snoc]
  cases seeded n mean _ xs <;> rfl

theorem gains_map (closes : List ℚ) :
    neighbours (fun a b => PyFloat.max (fin 0) (b - a)) (closes.map fin) =
      (gains closes).map fin := by
  rw [neighbours_map, gains, map_neighbours]
  simp

theorem losses_map (closes : List ℚ) :
    neighbours (fun a b => PyFloat.max (fin 0) (a - b)) (closes.map fin) =
      (losses closes).map fin := by
  rw [neighbours_map, losses, map_neighbours]
  simp

theorem length_gains (closes : List ℚ) : (gains closes).length = closes.length - 1 :=
  length_neighbours _ _

theorem length_losses (closes : List ℚ) : (losses closes).length = closes.length - 1 :=
  length_neighbours _ _

/-- The two averages of the engine, and nothing else, change with a close. -/
theorem update_rsi_frame (engine : IndicatorEngine) (c : PyFloat) :
    engine.update_rsi c = { engine with
      rsi_avg_gain := (engine.update_rsi c).rsi_avg_gain
      rsi_avg_loss := (engine.update_rsi c).rsi_avg_loss } := by
  unfold IndicatorEngine.update_rsi
  split
  · rfl
  · dsimp only
    split
    · split <;> rfl
    · rfl

/-- One close more, in the averages of the gains and of the losses. -/
theorem update_rsi_of_history (engine : IndicatorEngine) (ks : List Kline) (k : Kline)
    (hprev : engine.prev_close = ks.getLast?.map fun k => fin k.close)
    (hc : engine.closes = .of ((ks ++ [k]).map fun k => fin k.close))
    (hg : engine.rsi_avg_gain = (wilder 14 (gains (ks.map (·.close)))).map fin)
    (hl : engine.rsi_avg_loss = (wilder 14 (losses (ks.map (·.close)))).map fin) :
    (engine.update_rsi (fin k.close)).rsi_avg_gain =
        (wilder 14 (gains ((ks ++ [k]).map (·.close)))).map fin ∧
      (engine.update_rsi (fin k.close)).rsi_avg_loss =
        (wilder 14 (losses ((ks ++ [k]).map (·.close)))).map fin := by
  induction ks using List.reverseRecOn with
  | nil =>
    -- the first close is no change
    rw [IndicatorEngine.update_rsi, hprev]
    exact ⟨hg, hl⟩
  | append_singleton ys a _ =>
    have hgain : gains ((ys ++ [a] ++ [k]).map (·.close)) =
        gains ((ys ++ [a]).map (·.close)) ++ [max 0 (k.close - a.close)] := by
      simp only [List.map_append, List.map_singleton]
      exact neighbours_snoc _ _ _ _
    have hloss : losses ((ys ++ [a] ++ [k]).map (·.close)) =
        losses ((ys ++ [a]).map (·.close)) ++ [max 0 (a.close - k.close)] := by
      simp only [List.map_append, List.map_singleton]
      exact neighbours_snoc _ _ _ _
    have hprev' : engine.prev_close = some (fin a.close) := by simpa using hprev
    have hsame : (losses ((ys ++ [a]).map (·.close))).length =
        (gains ((ys ++ [a]).map (·.close))).length := by
      rw [length_losses, length_gains]
    have hcount : (gains ((ys ++ [a]).map (·.close))).length = ys.length := by
      simp [length_gains]
    rw [IndicatorEngine.update_rsi, hprev']
    simp only [fin_sub, fin_neg, max_fin, neg_sub]
    generalize hgs : gains ((ys ++ [a]).map (·.close)) = gs at *
    generalize hls : losses ((ys ++ [a]).map (·.close)) = ls at *
    rw [hgain, hloss, wilder_snoc, wilder_snoc, hg]
    cases hw : wilder 14 gs with
    | some avg =>
      have hnot : ¬ gs.length < 14 := by
        intro hlt
        have hnone : wilder 14 gs = none := seeded_eq_none.mpr hlt
        rw [hw] at hnone
        cases hnone
      cases hwl : wilder 14 ls with
      | none => exact absurd (hsame ▸ seeded_eq_none.mp hwl) hnot
      | some avg' => simp [RSI_PERIOD, hl, hwl]
    | none =>
      have hlt : gs.length < 14 := seeded_eq_none.mp hw
      have hwl : wilder 14 ls = none := seeded_eq_none.mpr (hsame ▸ hlt)
      rw [hw] at hg
      rw [hwl] at hl ⊢
      have hlen : engine.closes.length = min MAX_HISTORY (ys.length + 2) := by
        rw [hc, closes_length]
        simp
      by_cases heq : ys.length + 1 = 14
      · -- fifteen closes: all of them are in the deque
        have hfull : engine.closes.length = RSI_PERIOD + 1 := by
          rw [hlen]
          show min 250 (ys.length + 2) = 15
          omega
        have hitems : engine.closes.items =
            ((ys ++ [a] ++ [k]).map (·.close)).map fin := by
          rw [hc, Deque.items_of, List.map_map]
          · rfl
          · simp [MAX_HISTORY]
            omega
        have hgl : (gs ++ [max 0 (k.close - a.close)]).length = 14 := by
          rw [List.length_append, hcount]
          exact heq
        have hll : (ls ++ [max 0 (a.close - k.close)]).length = 14 := by
          rw [List.length_append, hsame, hcount]
          exact heq
        simp only [Option.map_none, if_pos hfull, hitems, gains_map, losses_map, hgain, hloss]
        rw [hsame, hcount, if_pos heq, if_pos heq, Option.map_some, Option.map_some,
          mean_of_length hgl, mean_of_length hll]
        exact ⟨rfl, rfl⟩
      · have hnot : ¬ engine.closes.length = RSI_PERIOD + 1 := by
          rw [hlen]
          show ¬ min 250 (ys.length + 2) = 15
          omega
        simp only [Option.map_none, if_neg hnot]
        rw [hsame, hcount, if_neg heq, if_neg heq]
        exact ⟨hg, hl⟩

/-! ### The true range -/

theorem length_true_ranges (ks : List Kline) : (true_ranges ks).length = ks.length := by
  cases ks with
  | nil => rfl
  | cons k ks => simp [true_ranges, length_neighbours]

theorem true_ranges_snoc (ks : List Kline) (k : Kline) :
    true_ranges (ks ++ [k]) = true_ranges ks ++ [true_range (ks.getLast?.map (·.close)) k] := by
  induction ks using List.reverseRecOn with
  | nil => rfl
  | append_singleton ys a _ =>
    have hlast : (ys ++ [a]).getLast?.map (·.close) = some a.close := by simp
    rw [hlast]
    cases ys with
    | nil => rfl
    | cons y ys =>
      show _ :: neighbours _ (y :: ys ++ [a] ++ [k]) = (_ :: neighbours _ (y :: ys ++ [a])) ++ _
      rw [neighbours_snoc]
      rfl

/-- The range that the engine takes is the true range. -/
theorem true_range_fin (prev : Option ℚ) (k : Kline) :
    (match prev.map fin with
      | none => fin k.high - fin k.low
      | some prev_close => PyFloat.max
          (PyFloat.max (fin k.high - fin k.low) (fin k.high - prev_close).abs)
          (fin k.low - prev_close).abs) = fin (true_range prev k) := by
  cases prev <;> simp [true_range]

/-- One kline more, in the ranges and in their average. -/
theorem update_atr_of_history (engine : IndicatorEngine) (ks : List Kline) (k : Kline)
    (hprev : engine.prev_close = ks.getLast?.map fun k => fin k.close)
    (hb : engine.tr_buffer = .of ((true_ranges ks).map fin))
    (ha : engine.atr = (atr_of ks).map fin) :
    engine.update_atr (fin k.high) (fin k.low) (fin k.close) = { engine with
      tr_buffer := .of ((true_ranges (ks ++ [k])).map fin)
      atr := (atr_of (ks ++ [k])).map fin } := by
  have hprev' : engine.prev_close = (ks.getLast?.map (·.close)).map fin := by
    rw [hprev, Option.map_map]
    rfl
  have hbuffer : engine.tr_buffer.append (fin (true_range (ks.getLast?.map (·.close)) k)) =
      .of ((true_ranges (ks ++ [k])).map fin) := by
    rw [hb, Deque.append_of, true_ranges_snoc, List.map_append]
    rfl
  have hlen : (Deque.of ((true_ranges (ks ++ [k])).map fin) :
      Deque PyFloat (ATR_PERIOD + 5)).length = min 19 (ks.length + 1) := by
    rw [Deque.length_of, List.length_map, length_true_ranges, List.length_append]
    rfl
  unfold IndicatorEngine.update_atr
  rw [hprev']
  simp only [true_range_fin, hbuffer]
  congr 1
  rw [ha]
  unfold atr_of
  rw [true_ranges_snoc, wilder_snoc]
  cases hw : wilder 14 (true_ranges ks) with
  | some avg => simp [ATR_PERIOD]
  | none =>
    have hlt : ks.length < 14 := length_true_ranges ks ▸ seeded_eq_none.mp hw
    have hlast := hlen
    rw [true_ranges_snoc] at hlast
    rw [length_true_ranges]
    simp only [Option.map_none, hlast]
    by_cases heq : ks.length + 1 = 14
    · have hle : ATR_PERIOD ≤ min 19 (ks.length + 1) := by
        show 14 ≤ _
        omega
      have hall : (true_ranges ks ++ [true_range (ks.getLast?.map (·.close)) k]).length = 14 := by
        rw [List.length_append, length_true_ranges]
        exact heq
      rw [if_pos hle, if_pos heq, Option.map_some, mean_of_length hall, Deque.rtake_of _ (by decide),
        rtake_of_length_le]
      · rfl
      · rw [List.length_map, hall]
        exact Nat.le_refl _
    · have hnot : ¬ ATR_PERIOD ≤ min 19 (ks.length + 1) := by
        show ¬ 14 ≤ _
        omega
      rw [if_neg hnot, if_neg heq]
      rfl

/-! ### The whole engine -/

/-- The engine after a kline was appended to its deques. -/
def appended (ks session : List Kline) (k : Kline) : IndicatorEngine :=
  { of_history ks session with
    closes := .of ((ks ++ [k]).map fun k => fin k.close)
    highs := .of ((ks ++ [k]).map fun k => fin k.high)
    lows := .of ((ks ++ [k]).map fun k => fin k.low)
    volumes := .of ((ks ++ [k]).map fun k => fin k.volume) }

/-- A deque of one field of the klines, after one kline more. -/
theorem append_field (ks : List Kline) (k : Kline) (field : Kline → ℚ) {n : Nat} :
    (Deque.of (ks.map fun k => fin (field k)) : Deque PyFloat n).append (fin (field k)) =
      .of ((ks ++ [k]).map fun k => fin (field k)) := by
  rw [Deque.append_of, List.map_append]
  rfl

/-- The engine after the averages took the close of the kline too. -/
def averaged (ks session : List Kline) (k : Kline) : IndicatorEngine :=
  { of_history (ks ++ [k]) session with
    tr_buffer := .of ((true_ranges ks).map fin)
    atr := (atr_of ks).map fin
    prev_close := ks.getLast?.map fun k => fin k.close }

theorem update_averages (ks session : List Kline) (k : Kline) :
    ((appended ks session k).update_emas (fin k.close)).update_rsi (fin k.close) =
      averaged ks session k := by
  have hema := update_emas_of_history (appended ks session k) ks k rfl rfl
  have hrsi := update_rsi_of_history ((appended ks session k).update_emas (fin k.close)) ks k
    rfl rfl rfl rfl
  rw [update_rsi_frame, hrsi.1, hrsi.2, hema]
  rfl

/-- One kline more. -/
theorem on_floats_of_history (ks session : List Kline) (k : Kline) :
    (of_history ks session).on_floats (fin k.high) (fin k.low) (fin k.close) (fin k.volume) =
      of_history (ks ++ [k]) (session ++ [k]) := by
  have happended : { of_history ks session with
      closes := (of_history ks session).closes.append (fin k.close)
      highs := (of_history ks session).highs.append (fin k.high)
      lows := (of_history ks session).lows.append (fin k.low)
      volumes := (of_history ks session).volumes.append (fin k.volume) } =
      appended ks session k := by
    unfold appended of_history
    simp only [append_field]
  have hatr := update_atr_of_history (averaged ks session k) ks k rfl rfl rfl
  have hnum : (of_history ks session).vwap_num +
      (fin k.high + fin k.low + fin k.close).divNat 3 * fin k.volume =
        fin ((session ++ [k]).map fun k => k.typical * k.volume).sum := by
    simp [of_history, Kline.typical]
  have hden : (of_history ks session).vwap_den + fin k.volume =
      fin ((session ++ [k]).map (·.volume)).sum := by
    simp [of_history]
  have hlast : (ks ++ [k]).getLast?.map (fun k => fin k.close) = some (fin k.close) := by simp
  unfold IndicatorEngine.on_floats
  rw [happended]
  simp only [update_averages, hatr]
  unfold IndicatorEngine.update_vwap
  unfold of_history at hnum hden ⊢
  simp only [averaged, of_history] at hnum hden ⊢
  rw [hnum, hden, hlast]

theorem reset_vwap_of_history (ks session : List Kline) :
    (of_history ks session).reset_vwap = of_history ks [] := rfl

/-! ### What the engine computes -/

theorem wilder_nonneg {n : Nat} (hn : 1 ≤ n) {xs : List ℚ} (hxs : ∀ x ∈ xs, 0 ≤ x) {v : ℚ}
    (hv : wilder n xs = some v) : 0 ≤ v := by
  refine seeded_all (P := fun v => 0 ≤ v) (Q := fun x => 0 ≤ x) ?_ ?_ hxs hv
  · intro ys hys
    exact div_nonneg (List.sum_nonneg hys) (Nat.cast_nonneg _)
  · intro avg x havg hx
    have h1 : (0 : ℚ) ≤ n - 1 := by
      have : (1 : ℚ) ≤ n := by exact_mod_cast hn
      linarith
    exact div_nonneg (add_nonneg (mul_nonneg havg h1) hx) (Nat.cast_nonneg _)

theorem compute_rsi_of_history (ks session : List Kline) :
    (of_history ks session).compute_rsi = .ok ((rsi_of (ks.map (·.close))).map fin) := by
  unfold IndicatorEngine.compute_rsi rsi_of of_history
  dsimp only
  cases hg : wilder 14 (gains (ks.map (·.close))) with
  | none => rfl
  | some gain =>
    cases hl : wilder 14 (losses (ks.map (·.close))) with
    | none => rfl
    | some loss =>
      have hgain : 0 ≤ gain := wilder_nonneg (by decide)
        (neighbours_all (fun a b => le_max_left _ _) _) hg
      have hloss : 0 ≤ loss := wilder_nonneg (by decide)
        (neighbours_all (fun a b => le_max_left _ _) _) hl
      simp only [Option.map_some]
      by_cases hz : loss = 0
      · rw [if_pos (congrArg fin hz), if_pos hz]
      · have hrs : (0 : ℚ) ≤ gain / loss := div_nonneg hgain hloss
        have hne : (1 : ℚ) + gain / loss ≠ 0 := by linarith
        have hz' : ¬ fin loss = fin 0 := fun h => hz (by injection h)
        have hq := div_fin hne 100
        rw [if_neg hz', if_neg hz, div_fin hz]
        simp only [bind, Except.bind, fin_add, hq, pure, Except.pure, fin_sub]

theorem compute_vwap_of_history (ks session : List Kline) :
    (of_history ks session).compute_vwap = .ok ((vwap_of session).map fin) := by
  have hden : (of_history ks session).vwap_den = fin (session.map (·.volume)).sum := rfl
  have hnum : (of_history ks session).vwap_num =
      fin (session.map fun k => k.typical * k.volume).sum := rfl
  unfold IndicatorEngine.compute_vwap vwap_of
  rw [hden, hnum, lt_fin]
  by_cases hpos : 0 < (session.map (·.volume)).sum
  · rw [if_pos (decide_eq_true hpos), div_fin hpos.ne']
    simp only [if_pos hpos]
    rfl
  · rw [if_neg (by simpa using hpos)]
    simp only [if_neg hpos]
    rfl

theorem variance_nonneg (xs : List ℚ) : 0 ≤ variance xs := by
  refine div_nonneg (List.sum_nonneg ?_) (Nat.cast_nonneg _)
  intro y hy
  obtain ⟨x, -, rfl⟩ := List.mem_map.mp hy
  exact mul_self_nonneg _

/-- The variance that the engine computes. -/
theorem variance_fin {xs : List ℚ} {n : Nat} (h : xs.length = n) :
    (sum ((xs.map fin).map fun x => (x - fin (mean xs)) * (x - fin (mean xs)))).divNat n =
      fin (variance xs) := by
  have hmap : ((xs.map fin).map fun x => (x - fin (mean xs)) * (x - fin (mean xs))) =
      (xs.map fun x => (x - mean xs) * (x - mean xs)).map fin := by
    simp only [List.map_map]
    refine List.map_congr_left fun x _ => ?_
    simp
  rw [hmap, variance, mean_of_length (n := n) (by rw [List.length_map, h])]

theorem compute_bands_of_history (sqrt : ℚ → ℚ) (ks session : List Kline) (vals : IndicatorValues)
    (hvals : vals.bb_upper = none ∧ vals.bb_middle = none ∧ vals.bb_lower = none ∧
      vals.bb_width = none) :
    (of_history ks session).compute_bands sqrt vals = .ok { vals with
      bb_upper := (indicators_of sqrt ks session).bb_upper
      bb_middle := (indicators_of sqrt ks session).bb_middle
      bb_lower := (indicators_of sqrt ks session).bb_lower
      bb_width := (indicators_of sqrt ks session).bb_width } := by
  have hlen : (of_history ks session).closes.length = min 250 ks.length := closes_length ks
  have hrecent : (of_history ks session).closes.items.rtake BB_PERIOD =
      ((ks.map (·.close)).rtake 20).map fin := closes_rtake ks (by decide)
  unfold IndicatorEngine.compute_bands
  rw [hlen, hrecent]
  by_cases h20 : 20 ≤ ks.length
  · have hle : BB_PERIOD ≤ min 250 ks.length := by
      show 20 ≤ _
      omega
    have hclose : 20 ≤ (ks.map (·.close)).length := by
      rw [List.length_map]
      exact h20
    have hcount : ((ks.map (·.close)).rtake 20).length = BB_PERIOD := by
      rw [length_rtake]
      exact Nat.min_eq_left hclose
    have hroot := math_sqrt_fin sqrt (variance_nonneg ((ks.map (·.close)).rtake 20))
    rw [if_pos hle]
    simp only [← mean_of_length hcount, variance_fin hcount, hroot, bind, Except.bind, fin_mul,
      fin_add, fin_sub, indicators_of, if_pos hclose]
    by_cases hz : mean ((ks.map (·.close)).rtake 20) = 0
    · rw [if_pos (congrArg fin hz)]
      simp only [if_pos hz]
      rfl
    · have hz' : ¬ fin (mean ((ks.map (·.close)).rtake 20)) = fin 0 :=
        fun h => hz (by injection h)
      rw [if_neg hz', div_fin hz]
      simp only [if_neg hz]
      rfl
  · have hle : ¬ BB_PERIOD ≤ min 250 ks.length := by
      show ¬ 20 ≤ _
      omega
    have hclose : ¬ 20 ≤ (ks.map (·.close)).length := by
      rw [List.length_map]
      exact h20
    rw [if_neg hle]
    simp only [indicators_of, if_neg hclose, ite_self]
    cases vals
    obtain ⟨rfl, rfl, rfl, rfl⟩ := hvals
    rfl

/-- The engine computes the definitions of the indicators. -/
theorem compute_of_history (sqrt : ℚ → ℚ) (ks session : List Kline) :
    (of_history ks session).compute sqrt = .ok (indicators_of sqrt ks session) := by
  unfold IndicatorEngine.compute
  rw [compute_rsi_of_history, compute_vwap_of_history]
  simp only [bind, Except.bind]
  rw [compute_bands_of_history sqrt ks session _ ⟨rfl, rfl, rfl, rfl⟩]
  rfl

/-! ## Runs -/

inductive Call where
  | on_kline_close (_open high low close volume : String)
  | reset_vwap

def IndicatorEngine.call (self : IndicatorEngine) : Call → IndicatorEngine
  | .on_kline_close open_ high low close volume =>
    self.on_kline_close open_ high low close volume
  | .reset_vwap => self.reset_vwap

/-- A fresh engine after a sequence of calls. -/
def run (calls : List Call) : IndicatorEngine := calls.foldl IndicatorEngine.call {}

/-- The finite number that a text is. -/
def number (text : String) : Option ℚ :=
  match PyFloat.ofText text with
  | .ok (.fin q) => some q
  | _ => none

/-- The kline of a call, if it is well formed. -/
def Call.kline : Call → Option Kline
  | .on_kline_close _ high low close volume =>
    match number close, number high, number low, number volume with
    | some c, some h, some lo, some v => some ⟨h, lo, c, v⟩
    | _, _, _, _ => none
  | .reset_vwap => none

def Call.isReset : Call → Bool
  | .reset_vwap => true
  | _ => false

/-- A kline of which a high, low, close or volume is not a finite number. -/
def Call.Malformed (call : Call) : Prop := call.isReset = false ∧ call.kline = none

/-- The well-formed klines of a sequence of calls. -/
def history (calls : List Call) : List Kline := calls.filterMap Call.kline

/-- The well-formed klines since the last reset. -/
def session (calls : List Call) : List Kline :=
  (calls.rtakeWhile fun call => !call.isReset).filterMap Call.kline

/-- After each of the calls the engine computes the definitions over the history,
and each malformed kline changes no field. -/
structure FollowsDefinitions (sqrt : ℚ → ℚ) (calls : List Call) : Prop where
  values : ∀ pre, pre <+: calls →
    (run pre).compute sqrt = .ok (indicators_of sqrt (history pre) (session pre))
  malformed : ∀ pre call, pre ++ [call] <+: calls → call.Malformed → run (pre ++ [call]) = run pre

/-- `float` takes all four texts of the kline, one of them for NaN or an infinity. -/
def Call.ReadsSpecial : Call → Prop
  | .on_kline_close _ high low close volume =>
    (∀ text ∈ [close, high, low, volume], ∃ x, PyFloat.ofText text = .ok x) ∧
      ∃ text ∈ [close, high, low, volume], number text = none
  | .reset_vwap => False

theorem run_snoc (calls : List Call) (call : Call) : run (calls ++ [call]) = (run calls).call call := by
  simp [run, List.foldl_append]

theorem history_snoc (calls : List Call) (call : Call) :
    history (calls ++ [call]) = history calls ++ call.kline.toList := by
  unfold history
  rw [List.filterMap_append]
  cases h : call.kline <;> simp [h]

theorem session_snoc (calls : List Call) (call : Call) :
    session (calls ++ [call]) =
      if call.isReset then [] else session calls ++ call.kline.toList := by
  unfold session
  rw [List.rtakeWhile_concat]
  cases hr : call.isReset with
  | true => simp
  | false =>
    simp only [Bool.not_false, if_true, List.filterMap_append, Bool.false_eq_true, if_false]
    cases h : call.kline <;> simp [h]

theorem of_history_nil : of_history [] [] = {} := by
  have hema : (of_history [] []).ema = fun _ => none := by
    funext p
    show (if p ∈ EMA_PERIODS then (ema_of p []).map fin else none) = none
    by_cases hp : p ∈ EMA_PERIODS
    · have hpos : ∀ q ∈ EMA_PERIODS, 0 < q := by decide
      rw [if_pos hp, ema_of, seeded_nil (hpos p hp)]
      rfl
    · rw [if_neg hp]
  have hfields : of_history [] [] = { of_history [] [] with ema := fun _ => none } := by
    rw [← hema]
  rw [hfields]
  rfl

theorem number_of_ofText {text : String} {x : PyFloat} (h : PyFloat.ofText text = .ok x)
    {q : ℚ} (hx : x = fin q) : number text = some q := by
  rw [number, h, hx]

theorem ofText_of_number {text : String} {q : ℚ} (h : number text = some q) :
    PyFloat.ofText text = .ok (fin q) := by
  unfold number at h
  split at h
  · rename_i q' hq
    rw [hq, Option.some.inj h]
  · cases h

/-- One call, on the state of a history: a well-formed kline is added to it, a reset
ends the session, and any other kline is dropped, unless it has NaN or an
infinity. -/
theorem call_of_history (ks ss : List Kline) {call : Call} (h : ¬ call.ReadsSpecial) :
    (of_history ks ss).call call =
      of_history (ks ++ call.kline.toList) (if call.isReset then [] else ss ++ call.kline.toList) := by
  cases call with
  | reset_vwap =>
    show of_history ks [] = of_history (ks ++ []) []
    rw [List.append_nil]
  | on_kline_close open_ high low close volume =>
    show (of_history ks ss).on_kline_close open_ high low close volume = _
    cases hk : (Call.on_kline_close open_ high low close volume).kline with
    | some k =>
      unfold Call.kline at hk
      dsimp only at hk
      split at hk
      · rename_i c hh lo v h1 h2 h3 h4
        obtain rfl := Option.some.inj hk
        unfold IndicatorEngine.on_kline_close
        rw [ofText_of_number h1, ofText_of_number h2, ofText_of_number h3, ofText_of_number h4]
        exact on_floats_of_history ks ss ⟨hh, lo, c, v⟩
      · cases hk
    | none =>
      show _ = of_history (ks ++ []) (ss ++ [])
      rw [List.append_nil, List.append_nil]
      unfold IndicatorEngine.on_kline_close
      split
      · -- all four texts are read, so one of them is special
        rename_i c hh lo v h1 h2 h3 h4
        refine absurd ⟨?_, ?_⟩ h
        · simp [h1, h2, h3, h4]
        · by_contra hall
          simp only [List.mem_cons, List.not_mem_nil, or_false, exists_eq_or_imp, exists_eq_left,
            not_or, ← ne_eq, Option.ne_none_iff_exists'] at hall
          obtain ⟨⟨c, hc⟩, ⟨hh, hhh⟩, ⟨lo, hlo⟩, ⟨v, hv⟩⟩ := hall
          simp [Call.kline, hc, hhh, hlo, hv] at hk
      · rfl

/-- A run without NaN and the infinities is at the state of its history. -/
theorem run_of_history {calls : List Call} (h : ∀ call ∈ calls, ¬ call.ReadsSpecial) :
    run calls = of_history (history calls) (session calls) := by
  induction calls using List.reverseRecOn with
  | nil => exact of_history_nil.symm
  | append_singleton calls call ih =>
    have hcalls : ∀ c ∈ calls, ¬ c.ReadsSpecial :=
      fun c hc => h c (List.mem_append_left _ hc)
    have hcall : ¬ call.ReadsSpecial := h call (by simp)
    rw [run_snoc, ih hcalls, call_of_history _ _ hcall, history_snoc, session_snoc]

/-- A kline that was read is the last one in the deques. -/
theorem on_floats_deques (engine : IndicatorEngine) (h lo c v : PyFloat) :
    (engine.on_floats h lo c v).closes = engine.closes.append c ∧
      (engine.on_floats h lo c v).highs = engine.highs.append h ∧
      (engine.on_floats h lo c v).lows = engine.lows.append lo ∧
      (engine.on_floats h lo c v).volumes = engine.volumes.append v := by
  have hkeeps : ∀ e : IndicatorEngine, (e.update_rsi c).closes = e.closes ∧
      (e.update_rsi c).highs = e.highs ∧ (e.update_rsi c).lows = e.lows ∧
      (e.update_rsi c).volumes = e.volumes := by
    intro e
    rw [update_rsi_frame]
    exact ⟨rfl, rfl, rfl, rfl⟩
  exact hkeeps (IndicatorEngine.update_emas { engine with
    closes := engine.closes.append c
    highs := engine.highs.append h
    lows := engine.lows.append lo
    volumes := engine.volumes.append v } c)

/-- What is appended to finite numbers without a change is finite. -/
theorem finite_of_append_eq {n : Nat} (hn : 0 < n) (ks : List Kline) (field : Kline → ℚ)
    {x : PyFloat}
    (h : (Deque.of (ks.map fun k => fin (field k)) : Deque PyFloat n).append x =
      .of (ks.map fun k => fin (field k))) : ∃ q, x = fin q := by
  have hlast := Deque.getLast?_append hn (Deque.of (ks.map fun k => fin (field k))) x
  rw [h] at hlast
  have hmem : x ∈ (ks.map fun k => fin (field k)).rtake n := List.mem_of_getLast? hlast
  obtain ⟨k, -, hk⟩ := List.mem_map.mp (mem_of_mem_rtake hmem)
  exact ⟨_, hk.symm⟩

theorem max_history_pos : 0 < MAX_HISTORY := by decide

/-- A kline with NaN or an infinity changes the engine. -/
theorem special_changes {ks ss : List Kline} {call : Call} (h : call.ReadsSpecial) :
    (of_history ks ss).call call ≠ of_history ks ss := by
  intro hsame
  cases call with
  | reset_vwap => exact h
  | on_kline_close open_ high low close volume =>
    obtain ⟨hread, text, htext, hnone⟩ := h
    obtain ⟨c, hc⟩ := hread close (by simp)
    obtain ⟨hh, hhh⟩ := hread high (by simp)
    obtain ⟨lo, hlo⟩ := hread low (by simp)
    obtain ⟨v, hv⟩ := hread volume (by simp)
    have hcall : (of_history ks ss).call (.on_kline_close open_ high low close volume) =
        (of_history ks ss).on_floats hh lo c v := by
      show (of_history ks ss).on_kline_close open_ high low close volume = _
      rw [IndicatorEngine.on_kline_close, hc, hhh, hlo, hv]
    rw [hcall] at hsame
    obtain ⟨h1, h2, h3, h4⟩ := on_floats_deques (of_history ks ss) hh lo c v
    rw [hsame] at h1 h2 h3 h4
    obtain ⟨q1, hq1⟩ := finite_of_append_eq max_history_pos ks (·.close) h1.symm
    obtain ⟨q2, hq2⟩ := finite_of_append_eq max_history_pos ks (·.high) h2.symm
    obtain ⟨q3, hq3⟩ := finite_of_append_eq max_history_pos ks (·.low) h3.symm
    obtain ⟨q4, hq4⟩ := finite_of_append_eq max_history_pos ks (·.volume) h4.symm
    simp only [List.mem_cons, List.not_mem_nil, or_false] at htext
    rcases htext with rfl | rfl | rfl | rfl
    · rw [number_of_ofText hc hq1] at hnone
      cases hnone
    · rw [number_of_ofText hhh hq2] at hnone
      cases hnone
    · rw [number_of_ofText hlo hq3] at hnone
      cases hnone
    · rw [number_of_ofText hv hq4] at hnone
      cases hnone

theorem malformed_of_special {call : Call} (h : call.ReadsSpecial) : call.Malformed := by
  cases call with
  | reset_vwap => exact h.elim
  | on_kline_close open_ high low close volume =>
    refine ⟨rfl, ?_⟩
    obtain ⟨-, text, htext, hnone⟩ := h
    unfold Call.kline
    dsimp only
    split
    · rename_i h1 h2 h3 h4
      simp only [List.mem_cons, List.not_mem_nil, or_false] at htext
      rcases htext with rfl | rfl | rfl | rfl
      all_goals simp_all
    · rfl

/-- The engine follows the definitions over every sequence of calls if, and only if,
no kline of it has four texts that `float` takes, one of them for NaN or an
infinity. -/
theorem indicators_follow_their_definitions_iff (sqrt : ℚ → ℚ) (calls : List Call) :
    FollowsDefinitions sqrt calls ↔ ∀ call ∈ calls, ¬ call.ReadsSpecial := by
  constructor
  · intro hf
    induction calls using List.reverseRecOn with
    | nil => exact fun call hc => absurd hc List.not_mem_nil
    | append_singleton calls call ih =>
      have hprefix : calls <+: calls ++ [call] := List.prefix_append _ _
      have hcalls := ih ⟨fun pre hp => hf.values pre (hp.trans hprefix),
        fun pre c hp => hf.malformed pre c (hp.trans hprefix)⟩
      intro c hc
      rcases List.mem_append.mp hc with hc | hc
      · exact hcalls c hc
      · obtain rfl := List.mem_singleton.mp hc
        intro hspecial
        have hsame := hf.malformed calls c (List.prefix_refl _) (malformed_of_special hspecial)
        rw [run_snoc, run_of_history hcalls] at hsame
        exact special_changes hspecial hsame
  · intro h
    have hrun : ∀ pre, pre <+: calls → run pre = of_history (history pre) (session pre) :=
      fun pre hp => run_of_history fun call hc => h call (hp.subset hc)
    refine ⟨fun pre hp => ?_, fun pre call hp hm => ?_⟩
    · rw [hrun pre hp]
      exact compute_of_history sqrt _ _
    · rw [hrun _ hp, hrun pre ((List.prefix_append _ _).trans hp), history_snoc, session_snoc,
        hm.1, hm.2]
      simp

/-- A close that reads `nan` stays in the engine. -/
theorem a_nan_close_is_kept :
    ¬ FollowsDefinitions id [.on_kline_close "1" "1" "1" "nan" "1"] := by
  intro hf
  have hsame := hf.malformed [] (.on_kline_close "1" "1" "1" "nan" "1") (List.prefix_refl _)
    (by unfold Call.Malformed; decide +kernel)
  have hcloses : (run [.on_kline_close "1" "1" "1" "nan" "1"]).closes.items = [.nan] := by
    decide +kernel
  rw [List.nil_append] at hsame
  rw [hsame] at hcloses
  exact absurd hcloses (by decide)

end trading_platform.analytics
