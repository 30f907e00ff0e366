-- Liquidations by price. The detector keeps the last 500 of them, whatever its window
-- is, and groups those of them that are in the window into buckets of one width.
import TradingPlatform.Lib.Table
import TradingPlatform.Analytics.TradeEngines
import Mathlib

open keyed
open series
open trading_platform.shared
open trading_platform.shared.PyFloat

namespace trading_platform.analytics

/-! ## The clusters -/

/-- `int(x)` of a float. -/
def int_of : PyFloat → Except PyErr Int
  | fin q => .ok (trunc q)
  | inf _ => .error ⟨"OverflowError", "cannot convert float infinity to integer"⟩
  | nan => .error ⟨"ValueError", "cannot convert float NaN to integer"⟩

structure LiquidationCluster where
  price_mid : PyFloat
  bucket_low : PyFloat
  bucket_high : PyFloat
  count : Nat
  total_qty : PyFloat
  total_usd : PyFloat
  long_qty : PyFloat
  short_qty : PyFloat
  deriving DecidableEq

namespace LiquidationClusterDetector

/-- The numbers that a detector is made with. -/
structure Settings where
  window_s : ℚ := 60
  bucket_pct : ℚ := 1 / 4
  min_cluster_count : Int := 2
  window_nonneg : 0 ≤ window_s := by norm_num
  bucket_pos : 0 < bucket_pct := by norm_num

/-- Adds the record to the bucket of its price. -/
def into_bucket (bucket_size : PyFloat) (buckets : Table (Int × List LiquidationRecord) Prod.fst)
    (rec_ : LiquidationRecord) : Except PyErr (Table (Int × List LiquidationRecord) Prod.fst) := do
  let idx ← int_of (← div rec_.price bucket_size)
  return buckets.put idx rec_

/-- What a cluster says of the records of a bucket. -/
def cluster (bucket_size : PyFloat) (bucket : Int × List LiquidationRecord) : LiquidationCluster :=
  let bucket_low := fin bucket.1 * bucket_size
  let bucket_high := fin (bucket.1 + 1) * bucket_size
  let qty (recs : List LiquidationRecord) := sum (recs.map (·.qty))
  { price_mid := (bucket_low + bucket_high).divNat 2
    bucket_low := bucket_low
    bucket_high := bucket_high
    count := bucket.2.length
    total_qty := qty bucket.2
    total_usd := sum (bucket.2.map fun r => r.qty * r.price)
    long_qty := qty (bucket.2.filter (·.side = "SELL"))
    short_qty := qty (bucket.2.filter (·.side = "BUY")) }

/-- The buckets of enough records, sorted by their value, the largest one first. -/
def compute_clusters (settings : Settings) (self : LiquidationClusterDetector)
    (current_price : PyFloat) (now_ms : Int) : Except PyErr (List LiquidationCluster) :=
  if current_price.le (fin 0) then .ok []
  else
    let cutoff_ms := now_ms - trunc (self.window_s * 1000)
    let recent := self.records.items.filter fun r => cutoff_ms ≤ r.timestamp_ms
    if recent.isEmpty then .ok []
    else
      let bucket_size := current_price * fin (settings.bucket_pct / 100)
      if bucket_size.le (fin 0) then .ok []
      else do
        let buckets ← recent.foldlM (into_bucket bucket_size) .empty
        let enough := buckets.rows.filter fun b => settings.min_cluster_count ≤ b.2.length
        return (enough.map (cluster bucket_size)).insertionSort
          fun c d => c.total_usd.lt d.total_usd = false

/-! ## The liquidations that are reported -/

/-- A liquidation as the detector is told of it: a forced sale or a forced purchase of a
positive quantity at a positive price. -/
structure Liquidation where
  side : String
  qty : String
  price : String
  timestamp_ms : Int
  qty_value : ℚ
  price_value : ℚ
  reads_qty : PyFloat.ofText qty = .ok (fin qty_value)
  reads_price : PyFloat.ofText price = .ok (fin price_value)
  qty_pos : 0 < qty_value
  price_pos : 0 < price_value
  one_side : side = "SELL" ∨ side = "BUY"

namespace Liquidation

def record (l : Liquidation) : LiquidationRecord :=
  ⟨l.side, fin l.qty_value, fin l.price_value, l.timestamp_ms⟩

def usd (l : Liquidation) : ℚ := l.qty_value * l.price_value

theorem usd_pos (l : Liquidation) : 0 < l.usd := mul_pos l.qty_pos l.price_pos

/-- The liquidation is not older than the window. -/
def in_window (window_s : ℚ) (now_ms : Int) (l : Liquidation) : Bool :=
  (now_ms : ℚ) - window_s * 1000 ≤ l.timestamp_ms

/-- The bucket number `k` holds the price. -/
def in_bucket (size : ℚ) (k : Int) (l : Liquidation) : Bool :=
  k * size ≤ l.price_value && l.price_value < (k + 1) * size

end Liquidation

def init (settings : Settings) : LiquidationClusterDetector := { window_s := settings.window_s }

def on_liquidations (detector : LiquidationClusterDetector) (ls : List Liquidation) :
    LiquidationClusterDetector :=
  ls.foldl (fun d l => d.on_liquidation l.side l.qty l.price l.timestamp_ms) detector

/-- The detector after the liquidations that were reported to it. -/
def after (settings : Settings) (ls : List Liquidation) : LiquidationClusterDetector :=
  (init settings).on_liquidations ls

/-- The state as a function of the liquidations. -/
theorem after_eq (settings : Settings) (ls : List Liquidation) :
    after settings ls =
      { window_s := settings.window_s, records := .of (ls.map Liquidation.record) } := by
  induction ls using List.reverseRecOn with
  | nil => rfl
  | append_singleton ls l ih =>
    have hsnoc : after settings (ls ++ [l]) =
        (after settings ls).on_liquidation l.side l.qty l.price l.timestamp_ms := by
      simp [after, on_liquidations, List.foldl_append]
    rw [hsnoc, ih]
    simp only [on_liquidation, l.reads_qty, l.reads_price]
    simp [Deque.append_of, Liquidation.record]

/-! ## What is to be computed -/

/-- The value of the liquidations of one side. -/
def side_usd (side : String) (ls : List Liquidation) : ℚ :=
  ((ls.filter (·.side = side)).map (·.usd)).sum

def bucket (size : ℚ) (ls : List Liquidation) (k : Int) : List Liquidation :=
  ls.filter (Liquidation.in_bucket size k)

def qty_of (ls : List Liquidation) : ℚ := (ls.map (·.qty_value)).sum

/-- The cluster of the bucket number `k`. -/
def cluster_of (size : ℚ) (ls : List Liquidation) (k : Int) : LiquidationCluster :=
  let recs := bucket size ls k
  { price_mid := fin ((k * size + (k + 1) * size) / 2)
    bucket_low := fin (k * size)
    bucket_high := fin ((k + 1) * size)
    count := recs.length
    total_qty := fin (qty_of recs)
    total_usd := fin (recs.map (·.usd)).sum
    long_qty := fin (qty_of (recs.filter (·.side = "SELL")))
    short_qty := fin (qty_of (recs.filter (·.side = "BUY"))) }

/-- The clusters of some liquidations for a width of the buckets. -/
structure Clusters (size : ℚ) (min_count : Int) (ls : List Liquidation)
    (clusters : List LiquidationCluster) : Prop where
  one_bucket : ∀ l ∈ ls, ∃! k : Int, k * size ≤ l.price_value ∧ l.price_value < (k + 1) * size
  buckets : ∃ ks : List Int, ks.Nodup ∧
    (∀ k, k ∈ ks ↔ bucket size ls k ≠ [] ∧ min_count ≤ (bucket size ls k).length) ∧
    clusters.Perm (ks.map (cluster_of size ls))
  largest_first : clusters.Pairwise fun c d => d.total_usd.le c.total_usd = true

/-- The liquidations in the window. -/
def reported (settings : Settings) (ls : List Liquidation) (now_ms : Int) : List Liquidation :=
  ls.filter (Liquidation.in_window settings.window_s now_ms)

/-- What the detector says at a time is right for the liquidations in the window. -/
structure LosesNothing (settings : Settings) (ls : List Liquidation) (current_price : ℚ)
    (now_ms : Int) : Prop where
  totals : (after settings ls).compute_cluster_totals (fin current_price) now_ms =
    (fin (side_usd "SELL" (reported settings ls now_ms)),
      fin (side_usd "BUY" (reported settings ls now_ms)))
  clusters : ∃ cs, (after settings ls).compute_clusters settings (fin current_price) now_ms = .ok cs ∧
    Clusters (current_price * (settings.bucket_pct / 100)) settings.min_cluster_count
      (reported settings ls now_ms) cs

/-! ## The buckets of the code -/

section Buckets

variable {size : ℚ}

/-- A price is in the bucket that its quotient is cut off to. -/
theorem floor_div_eq_iff (hsize : 0 < size) (p : ℚ) (k : Int) :
    ⌊p / size⌋ = k ↔ k * size ≤ p ∧ p < (k + 1) * size := by
  rw [Int.floor_eq_iff, le_div_iff₀ hsize, div_lt_iff₀ hsize]

theorem one_bucket_of_price (hsize : 0 < size) (p : ℚ) :
    ∃! k : Int, k * size ≤ p ∧ p < (k + 1) * size := by
  refine ⟨⌊p / size⌋, (floor_div_eq_iff hsize p _).mp rfl, ?_⟩
  intro k hk
  exact ((floor_div_eq_iff hsize p k).mpr hk).symm

/-- The number of the bucket of a record. -/
def idx_of (size : ℚ) (rec_ : LiquidationRecord) : Int :=
  match rec_.price with
  | fin p => ⌊p / size⌋
  | _ => 0

theorem into_bucket_record (hsize : 0 < size)
    (t : Table (Int × List LiquidationRecord) Prod.fst) (l : Liquidation) :
    into_bucket (fin size) t l.record = .ok (t.put (idx_of size l.record) l.record) := by
  have hdiv : div l.record.price (fin size) = .ok (fin (l.price_value / size)) :=
    div_fin (ne_of_gt hsize) _
  have hnonneg : ¬ l.price_value / size < 0 := not_lt.mpr (div_pos l.price_pos hsize).le
  rw [into_bucket, hdiv]
  simp only [Bind.bind, Except.bind, int_of, trunc, if_neg hnonneg]
  rfl

/-- The records are put into the buckets of their prices. -/
theorem foldlM_into_bucket (hsize : 0 < size) (ls : List Liquidation) :
    (ls.map Liquidation.record).foldlM (into_bucket (fin size)) .empty =
      .ok (Table.grouped (idx_of size) (ls.map Liquidation.record)) := by
  have h : ∀ t, (ls.map Liquidation.record).foldlM (into_bucket (fin size)) t =
      .ok ((ls.map Liquidation.record).foldl (fun t r => t.put (idx_of size r) r) t) := by
    induction ls with
    | nil => exact fun t => rfl
    | cons l ls ih =>
      intro t
      rw [List.map_cons, List.foldlM_cons, into_bucket_record hsize]
      exact ih _
  exact h .empty

/-- The records of one bucket are those of the liquidations in it. -/
theorem filter_idx (hsize : 0 < size) (ls : List Liquidation) (k : Int) :
    (ls.map Liquidation.record).filter (fun r => idx_of size r = k) =
      (bucket size ls k).map Liquidation.record := by
  have hsame : (fun r => decide (idx_of size r = k)) ∘ Liquidation.record =
      Liquidation.in_bucket size k := by
    funext l
    have hidx : (idx_of size l.record = k) ↔ _ := floor_div_eq_iff hsize l.price_value k
    simp only [Function.comp_apply, Liquidation.in_bucket, ← Bool.decide_and]
    exact decide_eq_decide.mpr hidx
  rw [List.filter_map, hsame, bucket]

theorem sum_qty (ls : List Liquidation) :
    sum ((ls.map Liquidation.record).map (·.qty)) = fin (qty_of ls) := by
  rw [List.map_map, qty_of, ← sum_fin, List.map_map]
  rfl

theorem sum_usd (ls : List Liquidation) :
    sum ((ls.map Liquidation.record).map fun r => r.qty * r.price) = fin (ls.map (·.usd)).sum := by
  rw [List.map_map, ← sum_fin, List.map_map]
  rfl

theorem filter_side (side : String) (ls : List Liquidation) :
    (ls.map Liquidation.record).filter (·.side = side) =
      (ls.filter (·.side = side)).map Liquidation.record := by
  rw [List.filter_map]
  rfl

theorem cluster_bucket (ls : List Liquidation) (k : Int) :
    cluster (fin size) (k, (bucket size ls k).map Liquidation.record) = cluster_of size ls k := by
  unfold cluster cluster_of
  simp only [sum_qty, sum_usd, filter_side, List.length_map, fin_mul, fin_add, divNat_fin]
  simp

/-- The numbers of the buckets with enough liquidations. -/
def enough_idx (size : ℚ) (min_count : Int) (ls : List Liquidation) : List Int :=
  ((Table.grouped (idx_of size) (ls.map Liquidation.record)).rows.map Prod.fst).filter
    fun k => min_count ≤ (bucket size ls k).length

theorem mem_enough_idx (hsize : 0 < size) {min_count : Int} {ls : List Liquidation} {k : Int} :
    k ∈ enough_idx size min_count ls ↔
      bucket size ls k ≠ [] ∧ min_count ≤ (bucket size ls k).length := by
  rw [enough_idx, List.mem_filter, Table.mem_keys_grouped, filter_idx hsize]
  simp

theorem enough_idx_nodup (size : ℚ) (min_count : Int) (ls : List Liquidation) :
    (enough_idx size min_count ls).Nodup :=
  (Table.grouped (idx_of size) (ls.map Liquidation.record)).unique.filter _

/-- The clusters of the buckets with enough liquidations, in the order of the buckets. -/
theorem clusters_of_enough (hsize : 0 < size) (min_count : Int) (ls : List Liquidation) :
    ((Table.grouped (idx_of size) (ls.map Liquidation.record)).rows.filter
        fun b => min_count ≤ b.2.length).map (cluster (fin size)) =
      (enough_idx size min_count ls).map (cluster_of size ls) := by
  rw [Table.rows_grouped, List.filter_map, List.map_map, enough_idx]
  have hlen : ((fun b : Int × List LiquidationRecord => decide (min_count ≤ b.2.length)) ∘
      fun k => (k, (ls.map Liquidation.record).filter fun r => idx_of size r = k)) =
      fun k => decide (min_count ≤ (bucket size ls k).length) := by
    funext k
    simp [filter_idx hsize]
  rw [hlen]
  apply List.map_congr_left
  intro k _
  simp only [Function.comp_apply, filter_idx hsize, cluster_bucket]

/-- The clusters in the order of their values. -/
def sorted_idx (size : ℚ) (min_count : Int) (ls : List Liquidation) : List Int :=
  (enough_idx size min_count ls).insertionSort
    fun j k => ((bucket size ls k).map (·.usd)).sum ≤ ((bucket size ls j).map (·.usd)).sum

theorem sorted_clusters (size : ℚ) (min_count : Int) (ls : List Liquidation) :
    ((enough_idx size min_count ls).map (cluster_of size ls)).insertionSort
        (fun c d => c.total_usd.lt d.total_usd = false) =
      (sorted_idx size min_count ls).map (cluster_of size ls) := by
  symm
  apply List.map_insertionSort
  intro j _ k _
  simp [cluster_of]

/-- The clusters that are computed of the liquidations in the window. -/
theorem clusters_sorted (hsize : 0 < size) (min_count : Int) (ls : List Liquidation) :
    Clusters size min_count ls ((sorted_idx size min_count ls).map (cluster_of size ls)) := by
  refine ⟨fun l _ => one_bucket_of_price hsize l.price_value, ?_, ?_⟩
  · refine ⟨enough_idx size min_count ls, enough_idx_nodup size min_count ls, ?_, ?_⟩
    · intro k
      exact mem_enough_idx hsize
    · exact (List.perm_insertionSort _ _).map _
  · have htotal : Std.Total fun j k : Int =>
        ((bucket size ls k).map (·.usd)).sum ≤ ((bucket size ls j).map (·.usd)).sum :=
      ⟨fun j k => le_total _ _⟩
    have htrans : IsTrans Int fun j k : Int =>
        ((bucket size ls k).map (·.usd)).sum ≤ ((bucket size ls j).map (·.usd)).sum :=
      ⟨fun _ _ _ hij hjk => le_trans hjk hij⟩
    have hsorted := List.pairwise_insertionSort (fun j k : Int =>
      ((bucket size ls k).map (·.usd)).sum ≤ ((bucket size ls j).map (·.usd)).sum)
      (enough_idx size min_count ls)
    apply List.pairwise_map.mpr
    apply hsorted.imp
    intro j k hle
    rcases lt_or_eq_of_le hle with hlt | heq
    · simp [cluster_of, PyFloat.le, hlt]
    · simp [cluster_of, PyFloat.le, heq]

end Buckets

/-! ## The window -/

section Window

variable (settings : Settings) (ls : List Liquidation) (now_ms : Int)

/-- The liquidations in the window that the detector still holds. -/
def kept : List Liquidation :=
  (ls.rtake 500).filter (Liquidation.in_window settings.window_s now_ms)

theorem recent_after :
    ((after settings ls).records.items.filter fun r =>
        now_ms - trunc ((after settings ls).window_s * 1000) ≤ r.timestamp_ms) =
      (kept settings ls now_ms).map Liquidation.record := by
  have hwindow : 0 ≤ settings.window_s * 1000 := mul_nonneg settings.window_nonneg (by norm_num)
  have hsame : ((fun r : LiquidationRecord =>
      decide (now_ms - trunc (settings.window_s * 1000) ≤ r.timestamp_ms)) ∘ Liquidation.record) =
      Liquidation.in_window settings.window_s now_ms := by
    funext l
    exact decide_eq_decide.mpr (sub_trunc_le_iff hwindow now_ms l.timestamp_ms)
  rw [after_eq]
  dsimp only
  rw [← Deque.map_of, List.filter_map, hsame, kept, Deque.of]

theorem usd_after (side : String) :
    (after settings ls).usd side now_ms = fin (side_usd side (kept settings ls now_ms)) := by
  unfold usd
  dsimp only
  rw [recent_after, filter_side, sum_usd]
  rfl

/-- The totals are those of the liquidations that are held. -/
theorem totals_after (current_price : PyFloat) :
    (after settings ls).compute_cluster_totals current_price now_ms =
      (fin (side_usd "SELL" (kept settings ls now_ms)),
        fin (side_usd "BUY" (kept settings ls now_ms))) := by
  rw [compute_cluster_totals, usd_after, usd_after]

/-- And so are the clusters. -/
theorem clusters_after {current_price : ℚ} (hprice : 0 < current_price) :
    ∃ cs, (after settings ls).compute_clusters settings (fin current_price) now_ms = .ok cs ∧
      Clusters (current_price * (settings.bucket_pct / 100)) settings.min_cluster_count
        (kept settings ls now_ms) cs := by
  have hpct : 0 < settings.bucket_pct / 100 := div_pos settings.bucket_pos (by norm_num)
  have hsize : 0 < current_price * (settings.bucket_pct / 100) := mul_pos hprice hpct
  have hpos : ∀ {q : ℚ}, 0 < q → (fin q).le (fin 0) = false := by
    intro q hq
    simp [PyFloat.le, hq.le, ne_of_gt hq]
  refine ⟨(sorted_idx (current_price * (settings.bucket_pct / 100)) settings.min_cluster_count
    (kept settings ls now_ms)).map (cluster_of _ (kept settings ls now_ms)), ?_,
    clusters_sorted hsize _ _⟩
  unfold compute_clusters
  dsimp only
  rw [hpos hprice, if_neg Bool.false_ne_true, recent_after]
  by_cases hnone : kept settings ls now_ms = []
  · rw [hnone]
    rfl
  · have hsome : ((kept settings ls now_ms).map Liquidation.record).isEmpty = false := by
      simpa using hnone
    rw [hsome, if_neg Bool.false_ne_true, fin_mul, hpos hsize, if_neg Bool.false_ne_true,
      foldlM_into_bucket hsize]
    show Except.ok _ = _
    rw [clusters_of_enough hsize, sorted_clusters]

variable {settings ls now_ms}

/-- A liquidation that is dropped within the window is missing in the total of its side. -/
theorem missing_of_dropped {l : Liquidation} (hdropped : l ∈ ls.rdrop 500)
    (hin : Liquidation.in_window settings.window_s now_ms l = true) :
    side_usd l.side (kept settings ls now_ms) < side_usd l.side (reported settings ls now_ms) := by
  have hsplit : reported settings ls now_ms =
      (ls.rdrop 500).filter (Liquidation.in_window settings.window_s now_ms) ++
        kept settings ls now_ms := by
    unfold reported kept
    rw [← List.filter_append, rdrop_append_rtake]
  have hpos : 0 < side_usd l.side
      ((ls.rdrop 500).filter (Liquidation.in_window settings.window_s now_ms)) := by
    apply List.sum_pos
    · intro q hq
      obtain ⟨l', -, rfl⟩ := List.mem_map.mp hq
      exact l'.usd_pos
    · apply List.ne_nil_of_mem (a := l.usd)
      apply List.mem_map_of_mem
      exact List.mem_filter.mpr ⟨List.mem_filter.mpr ⟨hdropped, hin⟩, by simp⟩
  rw [hsplit]
  unfold side_usd at hpos ⊢
  rw [List.filter_append, List.map_append, List.sum_append]
  linarith

/-- The detector loses nothing exactly when each liquidation that it has dropped, one that 500
others came after, is older than the window. -/
theorem loses_nothing_iff (settings : Settings) (ls : List Liquidation) (current_price : ℚ)
    (hprice : 0 < current_price) (now_ms : Int) :
    LosesNothing settings ls current_price now_ms ↔
      ∀ l ∈ ls.rdrop 500, ¬ Liquidation.in_window settings.window_s now_ms l = true := by
  constructor
  · rintro ⟨htotals, -⟩ l hdropped hin
    have hmissing := missing_of_dropped hdropped hin
    rw [totals_after] at htotals
    obtain ⟨hsell, hbuy⟩ := Prod.mk.inj htotals
    rcases l.one_side with hside | hside
    · rw [hside] at hmissing
      exact absurd (PyFloat.fin.inj hsell) (ne_of_lt hmissing)
    · rw [hside] at hmissing
      exact absurd (PyFloat.fin.inj hbuy) (ne_of_lt hmissing)
  · intro hnone
    have hkept : kept settings ls now_ms = reported settings ls now_ms := filter_rtake hnone
    constructor
    · rw [totals_after, hkept]
    · rw [← hkept]
      exact clusters_after settings ls now_ms hprice

end Window

/-- A forced sale of one at the price 100. -/
theorem hundred_pos : (0 : ℚ) < 100 := by norm_num

def sold_at (timestamp_ms : Int) : Liquidation :=
  ⟨"SELL", "1", "100", timestamp_ms, 1, 100, float_one, float_hundred, one_pos, hundred_pos,
    Or.inl rfl⟩

/-- Two forced sales. -/
theorem two_sales_are_kept : LosesNothing {} [sold_at 1000, sold_at 2000] 100 3000 :=
  (loses_nothing_iff {} [sold_at 1000, sold_at 2000] 100 (by norm_num) 3000).2
    (by rw [List.rdrop]; simp)

/-- A cascade of 501 forced sales within a second. -/
theorem cascade_is_cut : ¬ LosesNothing {} (List.replicate 501 (sold_at 1000)) 100 2000 := by
  intro h
  have htotals := h.totals
  revert htotals
  decide +kernel

end LiquidationClusterDetector

end trading_platform.analytics
