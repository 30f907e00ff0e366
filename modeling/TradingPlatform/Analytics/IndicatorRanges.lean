-- Where the indicators lie. The moving averages, the price by volume and the middle
-- band are averages with weights, so each one lies among the prices it is made of. The
-- others come from averages of amounts that are not negative.
import TradingPlatform.Lib.Average
import TradingPlatform.Analytics.Indicators

open series
open average
open trading_platform.shared
open trading_platform.shared.PyFloat

namespace trading_platform.analytics

/-! ## Ranges -/

/-- The number is not less than the smallest of the lows and not greater than the largest of
the highs. -/
def Between (lows highs : List ℚ) (q : ℚ) : Prop :=
  ∃ lo hi, lows.min? = some lo ∧ highs.max? = some hi ∧ lo ≤ q ∧ q ≤ hi

theorem between_of_bounds {lows highs : List ℚ} {q : ℚ} (hlows : lows ≠ []) (hhighs : highs ≠ [])
    (h : ∀ a b, (∀ x ∈ lows, a ≤ x) → (∀ x ∈ highs, x ≤ b) → a ≤ q ∧ q ≤ b) :
    Between lows highs q := by
  obtain ⟨lo, hmin⟩ := Option.isSome_iff_exists.mp (List.isSome_min?_of_ne_nil hlows)
  obtain ⟨hi, hmax⟩ := Option.isSome_iff_exists.mp (List.isSome_max?_of_ne_nil hhighs)
  refine ⟨lo, hi, hmin, hmax, h lo hi ?_ ?_⟩
  · exact (List.min?_eq_some_iff.mp hmin).2
  · exact (List.max?_eq_some_iff.mp hmax).2

/-- A kline as the market has it. -/
structure Kline.Proper (k : Kline) : Prop where
  low_pos : 0 < k.low
  low_le : k.low ≤ k.close
  close_le : k.close ≤ k.high
  volume_nonneg : 0 ≤ k.volume

/-! ## Averages -/

/-- The entries as lots of one size. -/
def lots_of (xs : List ℚ) : List (Lot ℚ) := xs.map fun x => ⟨x, 1⟩

theorem mean_lots (xs : List ℚ) : average.mean (lots_of xs) = mean xs := by
  have hsize : size (lots_of xs) = xs.length := by
    simp [lots_of, size, Function.comp_def]
  have hcost : cost (lots_of xs) = xs.sum := by
    simp [lots_of, cost, Function.comp_def]
  rw [average.mean, hsize, hcost, mean]

theorem size_lots_pos {xs : List ℚ} (hxs : xs ≠ []) : 0 < size (lots_of xs) := by
  have hlen : 0 < xs.length := List.length_pos_of_ne_nil hxs
  simp [lots_of, size, Function.comp_def, hlen]

theorem mean_within_of {xs : List ℚ} (hxs : xs ≠ []) {a b : ℚ} (h : ∀ x ∈ xs, a ≤ x ∧ x ≤ b) :
    a ≤ mean xs ∧ mean xs ≤ b := by
  rw [← mean_lots]
  apply mean_within _ (size_lots_pos hxs)
  · intro l hl
    obtain ⟨x, hx, rfl⟩ := List.mem_map.mp hl
    exact h x hx
  · intro l hl
    obtain ⟨x, -, rfl⟩ := List.mem_map.mp hl
    exact zero_le_one

theorem mean_between {xs : List ℚ} (hxs : xs ≠ []) : Between xs xs (mean xs) := by
  apply between_of_bounds hxs hxs
  intro a b ha hb
  exact mean_within_of hxs fun x hx => ⟨ha x hx, hb x hx⟩

/-- The step of a moving average, as lots of the new close and of the average before. -/
def ema_lots (p : Nat) (ema close : ℚ) : List (Lot ℚ) :=
  [⟨close, 2 / (p + 1)⟩, ⟨ema, 1 - 2 / (p + 1)⟩]

theorem ema_lots_size (p : Nat) (ema close : ℚ) : size (ema_lots p ema close) = 1 := by
  simp [ema_lots]

theorem ema_lots_nonneg {p : Nat} (hp : 0 < p) (ema close : ℚ) :
    ∀ l ∈ ema_lots p ema close, 0 ≤ l.size := by
  have hp' : (1 : ℚ) ≤ p := by exact_mod_cast hp
  have hle : (2 : ℚ) / (p + 1) ≤ 1 := by
    rw [div_le_one (by linarith)]
    linarith
  intro l hl
  rcases List.mem_pair.mp hl with rfl | rfl
  · exact div_nonneg two_pos.le (by linarith)
  · show (0 : ℚ) ≤ 1 - 2 / (p + 1)
    linarith

theorem mean_ema_lots (p : Nat) (ema close : ℚ) :
    average.mean (ema_lots p ema close) = close * (2 / (p + 1)) + ema * (1 - 2 / (p + 1)) := by
  rw [average.mean, ema_lots_size, div_one, ema_lots, cost_cons, cost_cons, cost_nil, add_zero]

theorem ema_step_within {p : Nat} (hp : 0 < p) {a b ema close : ℚ} (hema : a ≤ ema ∧ ema ≤ b)
    (hclose : a ≤ close ∧ close ≤ b) :
    a ≤ close * (2 / (p + 1)) + ema * (1 - 2 / (p + 1)) ∧
      close * (2 / (p + 1)) + ema * (1 - 2 / (p + 1)) ≤ b := by
  rw [← mean_ema_lots]
  apply mean_within (ema_lots_nonneg hp ema close)
  · rw [ema_lots_size]
    exact one_pos
  · intro l hl
    rcases List.mem_pair.mp hl with rfl | rfl
    · exact hclose
    · exact hema

/-- A moving average lies among the closes. -/
theorem ema_between {p : Nat} (hp : 0 < p) {closes : List ℚ} {q : ℚ} (h : ema_of p closes = some q) :
    Between closes closes q := by
  have hcloses : closes ≠ [] := by
    rintro rfl
    rw [ema_of, seeded_nil hp] at h
    cases h
  apply between_of_bounds hcloses hcloses
  intro a b ha hb
  refine seeded_all_of_length (P := fun v => a ≤ v ∧ v ≤ b) (Q := fun x => a ≤ x ∧ x ≤ b) ?_ ?_ ?_ h
  · intro ys hlen hys
    exact mean_within_of (List.ne_nil_of_length_pos (by omega)) hys
  · intro ema close hema hclose
    exact ema_step_within hp hema hclose
  · intro x hx
    exact ⟨ha x hx, hb x hx⟩

/-- The klines of a session as lots of their typical prices. -/
def session_lots (ks : List Kline) : List (Lot ℚ) := ks.map fun k => ⟨k.typical, k.volume⟩

theorem vwap_of_lots (ks : List Kline) :
    vwap_of ks = if 0 < size (session_lots ks) then some (average.mean (session_lots ks)) else none := by
  have hsize : size (session_lots ks) = (ks.map (·.volume)).sum := by
    simp [session_lots, size, Function.comp_def]
  have hcost : cost (session_lots ks) = (ks.map fun k => k.typical * k.volume).sum := by
    simp [session_lots, cost, Function.comp_def]
  rw [average.mean, hsize, hcost]
  rfl

theorem low_le_typical {k : Kline} (h : k.Proper) : k.low ≤ k.typical := by
  have h1 := h.low_le
  have h2 := h.close_le
  unfold Kline.typical
  linarith

theorem typical_le_high {k : Kline} (h : k.Proper) : k.typical ≤ k.high := by
  have h1 := h.low_le
  have h2 := h.close_le
  unfold Kline.typical
  linarith

/-- The price by volume lies between the lows and the highs of the session. -/
theorem vwap_between {ks : List Kline} (hks : ∀ k ∈ ks, k.Proper) {q : ℚ} (h : vwap_of ks = some q) :
    Between (ks.map (·.low)) (ks.map (·.high)) q := by
  rw [vwap_of_lots] at h
  split at h
  · rename_i hpos
    obtain rfl := Option.some.inj h
    have hne : ks ≠ [] := by
      rintro rfl
      exact lt_irrefl _ hpos
    have hsize : ∀ l ∈ session_lots ks, 0 ≤ l.size := by
      intro l hl
      obtain ⟨k, hk, rfl⟩ := List.mem_map.mp hl
      exact (hks k hk).volume_nonneg
    apply between_of_bounds (by simpa using hne) (by simpa using hne)
    intro a b ha hb
    apply mean_within hsize hpos
    intro l hl
    obtain ⟨k, hk, rfl⟩ := List.mem_map.mp hl
    constructor
    · exact (ha _ (List.mem_map_of_mem hk)).trans (low_le_typical (hks k hk))
    · exact (typical_le_high (hks k hk)).trans (hb _ (List.mem_map_of_mem hk))
  · cases h

/-! ## Amounts that are not negative -/

theorem rsi_range {closes : List ℚ} {q : ℚ} (h : rsi_of closes = some q) : 0 ≤ q ∧ q ≤ 100 := by
  unfold rsi_of at h
  split at h
  · rename_i gain loss hg hl
    obtain rfl := Option.some.inj h
    have hgain : 0 ≤ gain := wilder_nonneg (by decide)
      (neighbours_all (fun a b => le_max_left _ _) _) hg
    have hloss : 0 ≤ loss := wilder_nonneg (by decide)
      (neighbours_all (fun a b => le_max_left _ _) _) hl
    by_cases hz : loss = 0
    · rw [if_pos hz]
      norm_num
    · have hrs : 0 ≤ gain / loss := div_nonneg hgain hloss
      have hpart : 0 ≤ 100 / (1 + gain / loss) := div_nonneg (by norm_num) (by linarith)
      have hall : 100 / (1 + gain / loss) ≤ 100 := div_le_self (by norm_num) (by linarith)
      rw [if_neg hz]
      constructor
      · linarith
      · linarith
  · cases h

theorem true_range_nonneg {prev : Option ℚ} {k : Kline} (h : k.Proper) : 0 ≤ true_range prev k := by
  have hrange : 0 ≤ k.high - k.low := by linarith [h.low_le, h.close_le]
  cases prev with
  | none => exact hrange
  | some prev => exact le_max_of_le_left (le_max_of_le_left hrange)

theorem true_ranges_nonneg {ks : List Kline} (hks : ∀ k ∈ ks, k.Proper) :
    ∀ r ∈ true_ranges ks, 0 ≤ r := by
  induction ks using List.reverseRecOn with
  | nil =>
    intro r hr
    cases hr
  | append_singleton ks k ih =>
    intro r hr
    rw [true_ranges_snoc, List.mem_append, List.mem_singleton] at hr
    rcases hr with hr | rfl
    · exact ih (fun k hk => hks k (List.mem_append_left _ hk)) r hr
    · exact true_range_nonneg (hks k (by simp))

theorem atr_nonneg {ks : List Kline} (hks : ∀ k ∈ ks, k.Proper) {q : ℚ} (h : atr_of ks = some q) :
    0 ≤ q :=
  wilder_nonneg (by decide) (true_ranges_nonneg hks) h

/-! ## The bands -/

/-- The last closes, which the bands are made of. -/
def IndicatorEngine.band_closes (self : IndicatorEngine) : List PyFloat :=
  self.closes.items.rtake BB_PERIOD

/-- The variance that the bands are made of. -/
def IndicatorEngine.band_variance (self : IndicatorEngine) : PyFloat :=
  let sma := (sum self.band_closes).divNat BB_PERIOD
  (sum (self.band_closes.map fun x => (x - sma) * (x - sma))).divNat BB_PERIOD

/-- The bands are the mean of the closes and the root of the variance. -/
theorem compute_bands_eq (engine : IndicatorEngine) (sqrt : ℚ → ℚ) (vals : IndicatorValues) :
    engine.compute_bands sqrt vals =
      if BB_PERIOD ≤ engine.closes.length then do
        let sma := (sum engine.band_closes).divNat BB_PERIOD
        let std ← math_sqrt sqrt engine.band_variance
        let bb_width ←
          if sma = fin 0 then .ok none
          else (div (sma + fin 2 * std - (sma - fin 2 * std)) sma).map some
        return { vals with
          bb_middle := some sma
          bb_upper := some (sma + fin 2 * std)
          bb_lower := some (sma - fin 2 * std)
          bb_width := bb_width }
      else .ok vals :=
  rfl

theorem band_variance_of_history {ks : List Kline} (h : 20 ≤ ks.length) (session : List Kline) :
    (of_history ks session).band_variance = fin (variance ((ks.map (·.close)).rtake 20)) := by
  have hcount : ((ks.map (·.close)).rtake 20).length = BB_PERIOD := by
    rw [length_rtake, List.length_map]
    exact Nat.min_eq_left h
  have hrecent : (of_history ks session).band_closes = ((ks.map (·.close)).rtake 20).map fin :=
    closes_rtake ks (by decide)
  unfold IndicatorEngine.band_variance
  rw [hrecent]
  simp only [← mean_of_length hcount, variance_fin hcount]

/-! ## Runs -/

/-- The call is a reset, or a kline as the market has it. -/
def Call.Proper (call : Call) : Prop := call.isReset = true ∨ ∃ k, call.kline = some k ∧ k.Proper

theorem reads_no_special {call : Call} (h : call.Proper) : ¬ call.ReadsSpecial := by
  cases call with
  | reset_vwap => exact fun hs => hs
  | on_kline_close open_ high low close volume =>
    rintro ⟨-, text, htext, hnone⟩
    rcases h with h | ⟨k, hk, -⟩
    · cases h
    · unfold Call.kline at hk
      dsimp only at hk
      split at hk
      · rename_i hc hh hl hv
        have hsome : ∀ t ∈ [close, high, low, volume], number t ≠ none := by
          simp [hc, hh, hl, hv]
        exact hsome text htext hnone
      · cases hk

theorem history_proper {calls : List Call} (h : ∀ call ∈ calls, call.Proper) :
    ∀ k ∈ history calls, k.Proper := by
  intro k hk
  obtain ⟨call, hcall, hkline⟩ := List.mem_filterMap.mp hk
  rcases h call hcall with hreset | ⟨k', hk', hproper⟩
  · cases call with
    | on_kline_close => cases hreset
    | reset_vwap => cases hkline
  · obtain rfl := Option.some.inj (hkline.symm.trans hk')
    exact hproper

theorem session_proper {calls : List Call} (h : ∀ call ∈ calls, call.Proper) :
    ∀ k ∈ session calls, k.Proper := by
  have hlast : ∀ call ∈ calls.rtakeWhile fun call => !call.isReset, call.Proper := by
    intro call hcall
    exact h call ((List.rtakeWhile_suffix _ calls).subset hcall)
  intro k hk
  exact history_proper hlast k hk

/-- The values lie in their ranges. -/
structure InRange (ks session : List Kline) (vals : IndicatorValues) : Prop where
  rsi : ∀ x, vals.rsi_14 = some x → ∃ q, x = fin q ∧ 0 ≤ q ∧ q ≤ 100
  atr : ∀ x, vals.atr_14 = some x → ∃ q, x = fin q ∧ 0 ≤ q
  ema : ∀ x, some x ∈ [vals.ema_9, vals.ema_21, vals.ema_50, vals.ema_200] →
    ∃ q, x = fin q ∧ Between (ks.map (·.close)) (ks.map (·.close)) q
  vwap : ∀ x, vals.vwap = some x →
    ∃ q, x = fin q ∧ Between (session.map (·.low)) (session.map (·.high)) q
  middle : ∀ x, vals.bb_middle = some x →
    ∃ q, x = fin q ∧ Between ((ks.map (·.close)).rtake 20) ((ks.map (·.close)).rtake 20) q

theorem map_fin_cases {o : Option ℚ} {x : PyFloat} (h : o.map fin = some x) :
    ∃ q, o = some q ∧ x = fin q := by
  obtain ⟨q, hq, rfl⟩ := Option.map_eq_some_iff.mp h
  exact ⟨q, hq, rfl⟩

/-- The indicators of proper klines lie in their ranges. -/
theorem indicators_of_range (sqrt : ℚ → ℚ) {ks session : List Kline} (hks : ∀ k ∈ ks, k.Proper)
    (hsession : ∀ k ∈ session, k.Proper) : InRange ks session (indicators_of sqrt ks session) := by
  constructor
  · intro x hx
    obtain ⟨q, hq, rfl⟩ := map_fin_cases hx
    exact ⟨q, rfl, rsi_range hq⟩
  · intro x hx
    obtain ⟨q, hq, rfl⟩ := map_fin_cases hx
    exact ⟨q, rfl, atr_nonneg hks hq⟩
  · intro x hx
    have hone : ∃ p : Nat, 0 < p ∧ (ema_of p (ks.map (·.close))).map fin = some x := by
      simp only [List.mem_cons, List.not_mem_nil, or_false] at hx
      rcases hx with hx | hx | hx | hx
      · exact ⟨9, by decide, hx.symm⟩
      · exact ⟨21, by decide, hx.symm⟩
      · exact ⟨50, by decide, hx.symm⟩
      · exact ⟨200, by decide, hx.symm⟩
    obtain ⟨p, hp, hx⟩ := hone
    obtain ⟨q, hq, rfl⟩ := map_fin_cases hx
    exact ⟨q, rfl, ema_between hp hq⟩
  · intro x hx
    obtain ⟨q, hq, rfl⟩ := map_fin_cases hx
    exact ⟨q, rfl, vwap_between hsession hq⟩
  · intro x hx
    unfold indicators_of at hx
    dsimp only at hx
    split at hx
    · rename_i hlen
      obtain rfl := Option.some.inj hx
      refine ⟨_, rfl, mean_between ?_⟩
      apply List.ne_nil_of_length_pos
      rw [length_rtake]
      omega
    · cases hx

end trading_platform.analytics
