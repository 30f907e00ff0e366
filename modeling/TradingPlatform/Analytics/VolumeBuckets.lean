-- The buckets of the relative volume against a grid of buckets of one duration that
-- starts with the first trade. A bucket of the calculator starts with the trade that
-- closed the one before it, wherever in the grid that trade is.
import TradingPlatform.Analytics.TradeEngines
import Mathlib.Data.Rat.Floor

open series
open trading_platform.shared
open trading_platform.shared.PyFloat

namespace trading_platform.analytics

/-- A trade as the calculator is told of it. -/
structure VolumeTrade where
  text : String
  timestamp_ms : Int
  qty : ℚ
  reads : PyFloat.ofText text = .ok (fin qty)
  nonneg : 0 ≤ qty

/-! ## The grid -/

/-- The bucket of the grid that holds a time. -/
def grid_bucket (bucket_s : ℚ) (first : VolumeTrade) (t : VolumeTrade) : Nat :=
  ⌊((t.timestamp_ms - first.timestamp_ms : Int) : ℚ) / 1000 / bucket_s⌋₊

theorem grid_bucket_mono {bucket_s : ℚ} (h : 0 ≤ bucket_s) (first : VolumeTrade)
    {t t' : VolumeTrade} (ht : t.timestamp_ms ≤ t'.timestamp_ms) :
    grid_bucket bucket_s first t ≤ grid_bucket bucket_s first t' := by
  unfold grid_bucket
  apply Nat.floor_mono
  have hcast : ((t.timestamp_ms - first.timestamp_ms : Int) : ℚ) ≤
      ((t'.timestamp_ms - first.timestamp_ms : Int) : ℚ) := by
    exact_mod_cast Int.sub_le_sub_right ht _
  gcongr

theorem grid_bucket_first (bucket_s : ℚ) (first : VolumeTrade) :
    grid_bucket bucket_s first first = 0 := by
  simp [grid_bucket]

/-! ## The calculator -/

namespace RvolCalculator

variable {lookback_buckets : Nat}

def init (bucket_duration_s : ℚ) : RvolCalculator lookback_buckets :=
  { bucket_s := max bucket_duration_s 1 }

def on_trades (r : RvolCalculator lookback_buckets) (ts : List VolumeTrade) :
    RvolCalculator lookback_buckets :=
  ts.foldl (fun r t => r.on_trade t.text t.timestamp_ms) r

theorem on_trades_snoc (r : RvolCalculator lookback_buckets) (ts : List VolumeTrade)
    (t : VolumeTrade) :
    r.on_trades (ts ++ [t]) = (r.on_trades ts).on_trade t.text t.timestamp_ms := by
  simp [on_trades, List.foldl_append]

/-- A trade at this time closes the open bucket. A start of zero counts as none. -/
def Closes (r : RvolCalculator lookback_buckets) (timestamp_ms : Int) : Prop :=
  r.bucket_start_ms ≠ 0 ∧ r.bucket_s ≤ ((timestamp_ms - r.bucket_start_ms : Int) : ℚ) / 1000

instance (r : RvolCalculator lookback_buckets) (ts : Int) : Decidable (r.Closes ts) :=
  inferInstanceAs (Decidable (_ ∧ _))

variable {r : RvolCalculator lookback_buckets}

theorem on_trade_closes (t : VolumeTrade) (h : r.Closes t.timestamp_ms) :
    (r.on_trade t.text t.timestamp_ms).historical = r.historical.append r.current_volume ∧
      (r.on_trade t.text t.timestamp_ms).current_volume = fin t.qty := by
  obtain ⟨hstart, hover⟩ := h
  simp only [on_trade, t.reads, if_neg hstart, if_pos hover]
  simp

theorem on_trade_adds (hr : 0 < r.bucket_s) (t : VolumeTrade) (h : ¬ r.Closes t.timestamp_ms) :
    (r.on_trade t.text t.timestamp_ms).historical = r.historical ∧
      (r.on_trade t.text t.timestamp_ms).current_volume = r.current_volume + fin t.qty := by
  by_cases hstart : r.bucket_start_ms = 0
  · have hopen : ¬ r.bucket_s ≤ 0 := not_le.mpr hr
    simp [on_trade, t.reads, hstart, hopen]
  · have hopen : ¬ r.bucket_s ≤ ((t.timestamp_ms - r.bucket_start_ms : Int) : ℚ) / 1000 :=
      fun hover => h ⟨hstart, hover⟩
    simp only [on_trade, t.reads, if_neg hstart, if_neg hopen]
    exact ⟨trivial, trivial⟩

theorem on_trade_bucket_s (text : String) (ts : Int) : (r.on_trade text ts).bucket_s = r.bucket_s := by
  unfold on_trade
  cases PyFloat.ofText text with
  | error e => rfl
  | ok vol => simp only [apply_ite RvolCalculator.bucket_s, ite_self]

theorem on_trades_bucket_s (ts : List VolumeTrade) : (r.on_trades ts).bucket_s = r.bucket_s := by
  induction ts using List.reverseRecOn with
  | nil => rfl
  | append_singleton ts t ih => rw [on_trades_snoc, on_trade_bucket_s, ih]

/-! ## One trade after the other -/

section Grid

variable (bucket_duration_s : ℚ) (first : VolumeTrade)

/-- The bucket of the grid that holds a trade. A bucket takes at least a second. -/
def slot (t : VolumeTrade) : Nat := grid_bucket (max bucket_duration_s 1) first t

/-- The bucket of the last trade. -/
def last_slot (before : List VolumeTrade) : Nat :=
  slot bucket_duration_s first (before.getLastD first)

/-- The calculator after the first trade and the ones that follow it. -/
def after (before : List VolumeTrade) : RvolCalculator lookback_buckets :=
  (init bucket_duration_s).on_trades (first :: before)

/-- The history holds the volumes of the last buckets of the grid before the one of the last
trade, empty ones among them, and the current volume is that of its bucket. -/
structure OnGrid (before : List VolumeTrade) (r : RvolCalculator lookback_buckets) : Prop where
  historical : r.historical = Deque.of ((totals (slot bucket_duration_s first) VolumeTrade.qty
    (first :: before) (last_slot bucket_duration_s first before)).map fin)
  current : r.current_volume = fin (total (slot bucket_duration_s first) VolumeTrade.qty
    (first :: before) (last_slot bucket_duration_s first before))

/-- The trade is in the bucket of the trade before it when the calculator keeps its bucket
open, and in the next one when it closes it. -/
def InTurn (r : RvolCalculator lookback_buckets) (before : List VolumeTrade) (t : VolumeTrade) :
    Prop :=
  slot bucket_duration_s first t =
    last_slot bucket_duration_s first before + if r.Closes t.timestamp_ms then 1 else 0

instance (r : RvolCalculator lookback_buckets) (before : List VolumeTrade) (t : VolumeTrade) :
    Decidable (InTurn bucket_duration_s first r before t) := inferInstanceAs (Decidable (_ = _))

variable {bucket_duration_s first}

theorem after_snoc (before : List VolumeTrade) (t : VolumeTrade) :
    (after bucket_duration_s first (before ++ [t]) : RvolCalculator lookback_buckets) =
      (after bucket_duration_s first before).on_trade t.text t.timestamp_ms :=
  on_trades_snoc _ (first :: before) t

theorem last_slot_snoc (before : List VolumeTrade) (t : VolumeTrade) :
    last_slot bucket_duration_s first (before ++ [t]) = slot bucket_duration_s first t := by
  simp [last_slot]

theorem after_bucket_pos (before : List VolumeTrade) :
    0 < (after bucket_duration_s first before : RvolCalculator lookback_buckets).bucket_s := by
  unfold after
  rw [on_trades_bucket_s]
  exact lt_of_lt_of_le one_pos (le_max_right bucket_duration_s 1)

/-- Trades in the order of their times. -/
def InOrder (ts : List VolumeTrade) : Prop := ts.Pairwise fun t t' => t.timestamp_ms ≤ t'.timestamp_ms

theorem slot_le_slot {t t' : VolumeTrade} (h : t.timestamp_ms ≤ t'.timestamp_ms) :
    slot bucket_duration_s first t ≤ slot bucket_duration_s first t' := by
  apply grid_bucket_mono _ first h
  exact le_trans zero_le_one (le_max_right bucket_duration_s 1)

/-- No trade so far is in a later bucket than the last one. -/
theorem slot_le_last {before : List VolumeTrade} (h : InOrder (first :: before)) {t : VolumeTrade}
    (ht : t ∈ first :: before) :
    slot bucket_duration_s first t ≤ last_slot bucket_duration_s first before := by
  induction before using List.reverseRecOn with
  | nil =>
    obtain rfl := List.mem_singleton.mp ht
    exact le_refl _
  | append_singleton before last ih =>
    rw [last_slot_snoc]
    rw [← List.cons_append] at h ht
    obtain ⟨-, -, hlast⟩ := List.pairwise_append.mp h
    rcases List.mem_append.mp ht with hmem | hmem
    · exact slot_le_slot (hlast t hmem last (by simp))
    · obtain rfl := List.mem_singleton.mp hmem
      exact le_refl _

theorem on_grid_first :
    OnGrid bucket_duration_s first []
      (after bucket_duration_s first [] : RvolCalculator lookback_buckets) := by
  have hslot : slot bucket_duration_s first first = 0 := grid_bucket_first _ first
  have hopen : ¬ (init bucket_duration_s : RvolCalculator lookback_buckets).Closes
      first.timestamp_ms := fun h => h.1 rfl
  have hpos : 0 < (init bucket_duration_s : RvolCalculator lookback_buckets).bucket_s :=
    lt_of_lt_of_le one_pos (le_max_right bucket_duration_s 1)
  obtain ⟨hhist, hcur⟩ := on_trade_adds hpos first hopen
  refine ⟨?_, ?_⟩
  · simp only [after, on_trades, List.foldl_cons, List.foldl_nil, hhist]
    simp [last_slot, hslot, totals, init, Deque.empty]
  · simp only [after, on_trades, List.foldl_cons, List.foldl_nil, hcur]
    simp [last_slot, hslot, total, init]

/-- A trade in its turn keeps the calculator on the grid. -/
theorem on_grid_step {before : List VolumeTrade} {t : VolumeTrade}
    (horder : InOrder (first :: (before ++ [t])))
    (h : OnGrid bucket_duration_s first before
      (after bucket_duration_s first before : RvolCalculator lookback_buckets))
    (hturn : InTurn bucket_duration_s first
      (after bucket_duration_s first before : RvolCalculator lookback_buckets) before t) :
    OnGrid bucket_duration_s first (before ++ [t])
      (after bucket_duration_s first (before ++ [t]) : RvolCalculator lookback_buckets) := by
  have hbefore : InOrder (first :: before) :=
    horder.sublist (List.Sublist.cons_cons _ (List.sublist_append_left before [t]))
  unfold InTurn at hturn
  by_cases hclose : (after bucket_duration_s first before :
      RvolCalculator lookback_buckets).Closes t.timestamp_ms
  · rw [if_pos hclose] at hturn
    obtain ⟨hhist, hcur⟩ := on_trade_closes t hclose
    have hnone : total (slot bucket_duration_s first) VolumeTrade.qty (first :: before)
        (slot bucket_duration_s first t) = 0 := by
      apply total_eq_zero
      intro x hx
      have hle : slot bucket_duration_s first x ≤ last_slot bucket_duration_s first before :=
        slot_le_last hbefore hx
      omega
    have hle : last_slot bucket_duration_s first before ≤ slot bucket_duration_s first t := by omega
    refine ⟨?_, ?_⟩
    · rw [after_snoc, hhist, h.historical, h.current, Deque.append_of, last_slot_snoc, ← List.cons_append,
        totals_snoc _ _ _ (le_refl _), hturn, totals_succ, List.map_append]
      rfl
    · rw [after_snoc, hcur, last_slot_snoc, ← List.cons_append, total_snoc, hnone, if_pos rfl, zero_add]
  · rw [if_neg hclose, add_zero] at hturn
    obtain ⟨hhist, hcur⟩ := on_trade_adds (after_bucket_pos before) t hclose
    refine ⟨?_, ?_⟩
    · rw [after_snoc, hhist, h.historical, last_slot_snoc, ← List.cons_append,
        totals_snoc _ _ _ (le_refl _), hturn]
    · rw [after_snoc, hcur, h.current, last_slot_snoc, ← List.cons_append, total_snoc, if_pos rfl, hturn]
      rfl

/-- After the trades and after each part of them the calculator is on the grid. -/
def KeepsGrid (lookback_buckets : Nat) (bucket_duration_s : ℚ) (first : VolumeTrade)
    (rest : List VolumeTrade) : Prop :=
  ∀ before, before <+: rest → OnGrid bucket_duration_s first before
    (after bucket_duration_s first before : RvolCalculator lookback_buckets)

/-- Each trade comes in its turn. -/
def TakesTurns (lookback_buckets : Nat) (bucket_duration_s : ℚ) (first : VolumeTrade)
    (rest : List VolumeTrade) : Prop :=
  ∀ before t, before ++ [t] <+: rest → InTurn bucket_duration_s first
    (after bucket_duration_s first before : RvolCalculator lookback_buckets) before t

theorem in_order_of_initial {rest before : List VolumeTrade} (h : InOrder (first :: rest))
    (hpre : before <+: rest) : InOrder (first :: before) :=
  h.sublist (List.Sublist.cons_cons _ hpre.sublist)

theorem keeps_grid_of_turns {rest : List VolumeTrade} (horder : InOrder (first :: rest))
    (h : TakesTurns lookback_buckets bucket_duration_s first rest) :
    KeepsGrid lookback_buckets bucket_duration_s first rest := by
  intro before hpre
  induction before using List.reverseRecOn with
  | nil => exact on_grid_first
  | append_singleton before t ih =>
    have hbefore := ih ((List.prefix_append before [t]).trans hpre)
    exact on_grid_step (in_order_of_initial horder hpre) hbefore (h before t hpre)

theorem last_slot_le {before : List VolumeTrade} {t : VolumeTrade}
    (h : InOrder (first :: (before ++ [t]))) :
    last_slot bucket_duration_s first before ≤ slot bucket_duration_s first t := by
  rcases List.eq_nil_or_concat before with rfl | ⟨init, last, rfl⟩
  · have hfirst : slot bucket_duration_s first first = 0 := grid_bucket_first _ first
    simp [last_slot, hfirst]
  · rw [List.concat_eq_append, last_slot_snoc]
    rw [← List.cons_append] at h
    obtain ⟨-, -, hlast⟩ := List.pairwise_append.mp h
    exact slot_le_slot (hlast last (by simp) t (by simp))

/-- The open bucket of the last trade has a volume when each trade has one. -/
theorem last_total_pos {before : List VolumeTrade} (hpos : ∀ t ∈ first :: before, 0 < t.qty) :
    0 < total (slot bucket_duration_s first) VolumeTrade.qty (first :: before)
      (last_slot bucket_duration_s first before) := by
  obtain ⟨init, last, hlast⟩ : ∃ init last, first :: before = init ++ [last] ∧
      before.getLastD first = last := by
    rcases List.eq_nil_or_concat before with rfl | ⟨init, last, rfl⟩
    · exact ⟨[], first, rfl, rfl⟩
    · exact ⟨first :: init, last, by simp, by simp⟩
  obtain ⟨hsplit, hlastD⟩ := hlast
  have hlastpos : 0 < last.qty := hpos last (by rw [hsplit]; simp)
  have hsum : 0 ≤ total (slot bucket_duration_s first) VolumeTrade.qty init
      (last_slot bucket_duration_s first before) := by
    apply List.sum_nonneg
    intro q hq
    obtain ⟨t, -, rfl⟩ := List.mem_map.mp hq
    exact t.nonneg
  rw [hsplit, total_snoc]
  unfold last_slot at hsum ⊢
  rw [hlastD] at hsum ⊢
  rw [if_pos rfl]
  linarith

/-- The buckets behind that of the last trade are empty. -/
theorem total_after_last {before : List VolumeTrade} (h : InOrder (first :: before)) {k : Nat}
    (hk : last_slot bucket_duration_s first before < k) :
    total (slot bucket_duration_s first) VolumeTrade.qty (first :: before) k = 0 := by
  apply total_eq_zero
  intro x hx
  have hle : slot bucket_duration_s first x ≤ last_slot bucket_duration_s first before :=
    slot_le_last h hx
  omega

/-- Where each trade has a volume and the history holds something, a trade out of its turn
takes the calculator off the grid. -/
theorem in_turn_of_grid (hn : 0 < lookback_buckets) {before : List VolumeTrade} {t : VolumeTrade}
    (horder : InOrder (first :: (before ++ [t])))
    (hpos : ∀ t ∈ first :: before, 0 < t.qty)
    (h : OnGrid bucket_duration_s first before
      (after bucket_duration_s first before : RvolCalculator lookback_buckets))
    (hnext : OnGrid bucket_duration_s first (before ++ [t])
      (after bucket_duration_s first (before ++ [t]) : RvolCalculator lookback_buckets)) :
    InTurn bucket_duration_s first
      (after bucket_duration_s first before : RvolCalculator lookback_buckets) before t := by
  have hbefore : InOrder (first :: before) := in_order_of_initial horder (List.prefix_append _ _)
  have hvolume : 0 < total (slot bucket_duration_s first) VolumeTrade.qty (first :: before)
      (last_slot bucket_duration_s first before) := last_total_pos hpos
  have hmono : last_slot bucket_duration_s first before ≤ slot bucket_duration_s first t :=
    last_slot_le horder
  have hcur := hnext.current
  have hhist := hnext.historical
  rw [after_snoc] at hcur hhist
  rw [last_slot_snoc, ← List.cons_append, total_snoc, if_pos rfl] at hcur
  rw [last_slot_snoc, ← List.cons_append, totals_snoc _ _ _ (le_refl _)] at hhist
  unfold InTurn
  by_cases hclose : (after bucket_duration_s first before :
      RvolCalculator lookback_buckets).Closes t.timestamp_ms
  · rw [if_pos hclose]
    obtain ⟨hhist', hcur'⟩ := on_trade_closes t hclose
    rw [hcur'] at hcur
    rw [hhist', h.current] at hhist
    have heq := PyFloat.fin.inj hcur
    have hmoved : last_slot bucket_duration_s first before ≠ slot bucket_duration_s first t := by
      intro hsame
      rw [← hsame] at heq
      linarith
    by_contra hne
    -- The bucket before the one of the trade is empty, and the history ends with a volume.
    obtain ⟨k, hk⟩ : ∃ k, slot bucket_duration_s first t = k + 1 :=
      Nat.exists_eq_succ_of_ne_zero (by omega)
    have hlast : last_slot bucket_duration_s first before < k := by omega
    have hempty := total_after_last hbefore hlast
    have hends := congrArg (fun d => d.items.getLast?) hhist
    rw [hk, totals_succ, List.map_append, List.map_singleton, ← Deque.append_of,
      Deque.getLast?_append hn, Deque.getLast?_append hn, hempty] at hends
    have hzero := PyFloat.fin.inj (Option.some.inj hends)
    exact absurd hzero (ne_of_gt hvolume)
  · rw [if_neg hclose, add_zero]
    obtain ⟨hhist', hcur'⟩ := on_trade_adds (after_bucket_pos before) t hclose
    rw [hcur', h.current, fin_add] at hcur
    have heq := PyFloat.fin.inj hcur
    by_contra hne
    have hgt : last_slot bucket_duration_s first before < slot bucket_duration_s first t := by omega
    rw [total_after_last hbefore hgt] at heq
    linarith

/-- The calculator keeps to the grid when each trade comes in its turn, and where each trade has
a volume and the history holds something, it keeps to the grid only then. -/
theorem keeps_grid_iff_turns (lookback_buckets : Nat) (bucket_duration_s : ℚ) (first : VolumeTrade)
    (rest : List VolumeTrade) (horder : InOrder (first :: rest)) :
    (TakesTurns lookback_buckets bucket_duration_s first rest →
      KeepsGrid lookback_buckets bucket_duration_s first rest) ∧
    (0 < lookback_buckets → (∀ t ∈ first :: rest, 0 < t.qty) →
      KeepsGrid lookback_buckets bucket_duration_s first rest →
      TakesTurns lookback_buckets bucket_duration_s first rest) := by
  refine ⟨keeps_grid_of_turns horder, ?_⟩
  intro hn hpos hgrid before t hpre
  have hbefore : before <+: rest := (List.prefix_append before [t]).trans hpre
  apply in_turn_of_grid hn (in_order_of_initial horder hpre)
  · intro x hx
    exact hpos x (((List.prefix_cons_inj first).mpr hbefore).subset hx)
  · exact hgrid before hbefore
  · exact hgrid (before ++ [t]) hpre

theorem takes_turns_of_take {rest : List VolumeTrade}
    (h : ∀ i : Fin rest.length, InTurn bucket_duration_s first
      (after bucket_duration_s first (rest.take i) : RvolCalculator lookback_buckets)
      (rest.take i) (rest.get i)) :
    TakesTurns lookback_buckets bucket_duration_s first rest := by
  rintro before t ⟨later, rfl⟩
  have hturn := h ⟨before.length, by simp⟩
  simpa using hturn

/-- A trade of the quantity one. -/
def one_at (timestamp_ms : Int) : VolumeTrade :=
  ⟨"1", timestamp_ms, 1, float_one, zero_le_one⟩

/-- Two trades in one bucket, one in the next and one in the bucket after it. -/
theorem dense_trades_keep_grid :
    KeepsGrid 20 300 (one_at 1000) [one_at 1000, one_at 301000, one_at 650000] :=
  (keeps_grid_iff_turns 20 300 (one_at 1000) [one_at 1000, one_at 301000, one_at 650000]
    (by unfold InOrder; decide)).1 (takes_turns_of_take (by decide +kernel))

/-- The second trade comes in the middle of the second bucket of the grid, and the third one,
in the third bucket, is less than a bucket behind it. -/
theorem late_trade_moves_the_buckets :
    ¬ KeepsGrid 20 300 (one_at 1000) [one_at 451000, one_at 651000] := by
  intro h
  have hcur := (h [one_at 451000, one_at 651000] (List.prefix_refl _)).current
  revert hcur
  decide +kernel

end Grid

end RvolCalculator

end trading_platform.analytics
