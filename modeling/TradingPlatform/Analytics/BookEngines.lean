-- The engines that read the order book: the continuity of its updates, the spread
-- and the imbalance of its top, and the walls in it.
import TradingPlatform.Lib.Replica
import TradingPlatform.Lib.Table
import TradingPlatform.Analytics.TradeEngines
import TradingPlatform.Shared.MarketFeed

open keyed
open replica
open trading_platform.shared
open trading_platform.shared.PyFloat

namespace trading_platform.analytics

/-! ## Continuity -/

structure BookIntegrityState where
  has_snapshot : Bool := false
  last_update_id : Int := 0
  is_valid : Bool := false
  gap_detected_at_ms : Option Int := none
  invalidated_reason : Option String := none
  snapshot_received_at_ms : Int := 0
  deltas_applied : Nat := 0
  deltas_skipped : Nat := 0
  deriving DecidableEq

namespace BookIntegrityState

/-- A snapshot leaves nothing of the state before it. -/
def on_snapshot (_self : BookIntegrityState) (last_update_id received_ms : Int) :
    BookIntegrityState where
  has_snapshot := true
  last_update_id := last_update_id
  is_valid := true
  gap_detected_at_ms := none
  invalidated_reason := none
  snapshot_received_at_ms := received_ms
  deltas_applied := 0
  deltas_skipped := 0

variable (self : BookIntegrityState)

def sequence_gap (expected_next first_update_id : Int) : String :=
  "sequence gap: expected first_update_id<=" ++ toString expected_next ++ ", got " ++
    toString first_update_id ++ " (gap=" ++ toString (first_update_id - expected_next) ++ ")"

/-- Whether the delta is in sequence, and the state after it. -/
def on_delta (first_update_id last_update_id received_ms : Int) : Bool × BookIntegrityState :=
  let skipped := { self with deltas_skipped := self.deltas_skipped + 1 }
  if self.has_snapshot = false then (false, skipped)
  else if last_update_id ≤ self.last_update_id then (false, skipped)
  else
    let expected_next := self.last_update_id + 1
    if expected_next < first_update_id then
      (false, { skipped with
        is_valid := false
        gap_detected_at_ms := some received_ms
        invalidated_reason := some (sequence_gap expected_next first_update_id) })
    else
      (true, { self with
        last_update_id := last_update_id
        deltas_applied := self.deltas_applied + 1 })

def invalidate (reason : String) (received_ms : Int) : BookIntegrityState :=
  { self with
    is_valid := false
    gap_detected_at_ms := some received_ms
    invalidated_reason := some reason }

/-- The delta is in sequence. -/
def Accepts (first_update_id last_update_id : Int) : Prop :=
  self.has_snapshot = true ∧ Takes self.last_update_id first_update_id last_update_id

instance (U u : Int) : Decidable (self.Accepts U u) := inferInstanceAs (Decidable (_ ∧ _))

/-- A delta in sequence moves the last id and nothing else that is read. -/
theorem on_delta_accepted {U u : Int} (h : self.Accepts U u) (ms : Int) :
    self.on_delta U u ms =
      (true, { self with last_update_id := u, deltas_applied := self.deltas_applied + 1 }) := by
  obtain ⟨hs, hpast, hnext⟩ := h
  have h1 : ¬ u ≤ self.last_update_id := by omega
  have h2 : ¬ self.last_update_id + 1 < U := by omega
  simp [on_delta, hs, h1, h2]

/-- Any other delta is refused. It may make the book invalid, never valid. -/
theorem on_delta_refused {U u : Int} (h : ¬ self.Accepts U u) (ms : Int) :
    (self.on_delta U u ms).1 = false ∧
      (self.on_delta U u ms).2.has_snapshot = self.has_snapshot ∧
      (self.on_delta U u ms).2.last_update_id = self.last_update_id ∧
      ((self.on_delta U u ms).2.is_valid = true → self.is_valid = true) := by
  unfold on_delta
  by_cases hs : self.has_snapshot = false
  · simp [hs]
  · by_cases h1 : u ≤ self.last_update_id
    · simp [hs, h1]
    · by_cases h2 : self.last_update_id + 1 < U
      · simp [hs, h1, h2]
      · have hacc : self.Accepts U u := by
          refine ⟨by simpa using hs, ?_, ?_⟩
          · omega
          · omega
        exact absurd hacc h

/-- What the state says of the ids, as a copy without a content. -/
def copy : Option (Copy Unit) := if self.has_snapshot then some ⟨self.last_update_id, ()⟩ else none

/-- A snapshot and a delta move the last id as a replica moves it. -/
theorem copy_on_snapshot (last ms : Int) :
    (self.on_snapshot last ms).copy = follow (fun _ (_ : Unit) => ()) self.copy (.snapshot last ()) := by
  cases h : self.copy <;> simp [copy, on_snapshot, follow]

theorem copy_on_delta (U u ms : Int) :
    (self.on_delta U u ms).2.copy = follow (fun _ (_ : Unit) => ()) self.copy (.delta U u ()) := by
  by_cases h : self.Accepts U u
  · rw [on_delta_accepted self h]
    simp [copy, follow, h.1, h.2]
  · obtain ⟨-, hs, hlast, -⟩ := on_delta_refused self h ms
    unfold copy
    rw [hs, hlast]
    by_cases hsnap : self.has_snapshot = true
    · have ht : ¬ Takes self.last_update_id U u := fun ht => h ⟨hsnap, ht⟩
      simp [hsnap, follow, ht]
    · simp [hsnap, follow]

end BookIntegrityState

/-! ## The top of the book -/

structure SpreadResult where
  spread : PyFloat
  spread_bps : PyFloat
  mid_price : PyFloat
  bid : PyFloat
  ask : PyFloat
  bid_size : PyFloat
  ask_size : PyFloat
  deriving DecidableEq

/-- The spread of two prices that are read as numbers. -/
def spread_of (b a bs as_ : PyFloat) : Option SpreadResult :=
  if b.le (fin 0) || a.le (fin 0) || a.le b then none
  else
    let mid := (b + a).divNat 2
    let spread := a - b
    (ratio spread mid).map fun q => ⟨spread, q * fin 10000, mid, b, a, bs, as_⟩

def compute_spread (bid ask bid_size ask_size : String) : Option SpreadResult :=
  match PyFloat.ofText bid, PyFloat.ofText ask, PyFloat.ofText bid_size, PyFloat.ofText ask_size with
  | .ok b, .ok a, .ok bs, .ok as_ => spread_of b a bs as_
  | _, _, _, _ => none

structure ImbalanceResult where
  imbalance_ratio : PyFloat
  bid_depth_usd : PyFloat
  ask_depth_usd : PyFloat
  deriving DecidableEq

/-- The sum of the quantities of the levels. -/
def total_qty (levels : List Level) : Except PyErr PyFloat := do
  let qtys ← levels.mapM fun l => PyFloat.ofText l.2
  return PyFloat.sum qtys

def compute_imbalance (bids asks : List Level) (price : PyFloat) : Option ImbalanceResult :=
  match total_qty (bids.take 10), total_qty (asks.take 10) with
  | .ok bid_qty, .ok ask_qty =>
    (ratio (bid_qty - ask_qty) (bid_qty + ask_qty)).map fun q =>
      ⟨q, bid_qty * price, ask_qty * price⟩
  | _, _ => none

/-! ## Walls -/

structure WallInfo where
  price : String
  qty : String
  side : String
  first_seen_ms : Int
  last_seen_ms : Int
  is_spoofing_candidate : Bool := false
  disappear_count : Nat := 0
  deriving DecidableEq

def WallInfo.key (w : WallInfo) : String × String := (w.side, w.price)

structure WallsResult where
  bid_walls : List WallInfo
  ask_walls : List WallInfo
  spoofing_alert : Bool
  deriving DecidableEq

structure WallDetector where
  min_notional : PyFloat
  threshold : PyFloat := fin 3
  depth : Nat
  spoof_age_s : ℚ := 30
  known : Table WallInfo WallInfo.key := .empty

namespace WallDetector

variable (self : WallDetector)

/-- The average of the positive quantities, if there is one. -/
def average_qty (levels : List Level) : Option PyFloat :=
  let qtys := levels.filterMap fun l =>
    match PyFloat.ofText l.2 with
    | .ok q => if (fin 0).lt q then some q else none
    | .error _ => none
  if qtys = [] then none else some ((PyFloat.sum qtys).divNat qtys.length)

/-- The level is large against the average and worth enough. -/
def is_wall (price avg_qty : PyFloat) (l : Level) : Bool :=
  match PyFloat.ofText l.1, PyFloat.ofText l.2 with
  | .ok _, .ok q =>
    !(q.le (fin 0)) && !((q * price).lt self.min_notional) && !(avg_qty = fin 0) &&
      !(q.lt (avg_qty * self.threshold))
  | _, _ => false

/-- Writes a wall of the side to the known ones. -/
def see (side : String) (now_ms : Int) (known : Table WallInfo WallInfo.key) (l : Level) :
    Table WallInfo WallInfo.key :=
  known.upsert ⟨l.1, l.2, side, now_ms, now_ms, false, 0⟩
    (fun w => { w with last_seen_ms := now_ms, qty := l.2 }) fun _ => rfl

/-- The walls of one side, and the known walls after it. A price that is listed twice
is one wall, which the result has twice. -/
def scan_side (known : Table WallInfo WallInfo.key) (levels : List Level) (side : String)
    (price : PyFloat) (now_ms : Int) : List WallInfo × Table WallInfo WallInfo.key :=
  match average_qty levels with
  | none => ([], known)
  | some avg_qty =>
    let walls := levels.filter (self.is_wall price avg_qty)
    let known := walls.foldl (see side now_ms) known
    (walls.filterMap fun l => known.find (side, l.1), known)

/-- A known wall that is gone, with the mark of a spoof if it was short-lived. -/
def vanish (now_ms : Int) (w : WallInfo) : Option WallInfo :=
  if ((now_ms - w.first_seen_ms : Int) : ℚ) / 1000 < self.spoof_age_s then
    some { w with is_spoofing_candidate := true, disappear_count := w.disappear_count + 1 }
  else none

def update (bids asks : List Level) (price : PyFloat) (now_ms : Int) :
    WallsResult × WallDetector :=
  let (bid_walls, known) := self.scan_side self.known (bids.take self.depth) "bid" price now_ms
  let (ask_walls, known) := self.scan_side known (asks.take self.depth) "ask" price now_ms
  let active := (bid_walls ++ ask_walls).map WallInfo.key
  let gone := (known.rows.filter fun w => w.key ∉ active)
  let vanished := gone.filterMap (self.vanish now_ms)
  let bid_walls := bid_walls ++ vanished.filter (·.side = "bid")
  let ask_walls := ask_walls ++ vanished.filter (·.side ≠ "bid")
  (⟨bid_walls, ask_walls, (bid_walls ++ ask_walls).any (·.is_spoofing_candidate)⟩,
    { self with known := gone.foldl (fun t w => t.erase w.key) known })

end WallDetector

end trading_platform.analytics
