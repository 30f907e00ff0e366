-- The balances and positions that the account facade answers with. It reads the cache of the
-- writer, and the tables where there is no cache; the two ways filter the rows differently.
import TradingPlatform.Execution.AccountColumns

open keyed
open trading_platform.shared
open trading_platform.shared.PyFloat
open trading_platform.execution.account_stream

namespace trading_platform.mcp_server

/-! ## The facade -/

def BALANCE_STALE_MS : Nat := 300000

/-- The latest time that is not zero. -/
def last_updated (times : List Nat) : Option Nat := (times.filter (· ≠ 0)).max?

def is_stale (now_ms : Nat) (last_updated_ms : Option Nat) : Bool :=
  match last_updated_ms with
  | none => true
  | some last => BALANCE_STALE_MS < (now_ms : Int) - last

structure BalancesReply where
  account_id : String
  source : String
  last_updated_ms : Option Nat
  checked_at_ms : Nat
  stale : Bool
  balances : List CachedBalance
  count : Nat

/-- A position of a reply. -/
structure PositionItem where
  symbol : String
  market_type : String
  side : String
  quantity : ℚ
  entry_price : ℚ
  unrealized_pnl : Option ℚ
  updated_at_ms : Nat

structure PositionsReply where
  account_id : String
  source : String
  last_updated_ms : Option Nat
  checked_at_ms : Nat
  stale : Bool
  positions : List PositionItem
  count : Nat
  note : Option String

def EMPTY_NOTE : String :=
  "No open positions. Paper trades do not create position records — " ++
    "use get_recent_fills to see paper execution history."

section Facade

-- the store has the caches that are under the keys of the account
variable (s : Store) (now_ms : Nat) (account_id : String)

/-- The rows of the balances that the cache path answers with. -/
def cached_balances (min_total : PyFloat) (cached : List CachedBalance) : List CachedBalance :=
  if (fin 0).lt min_total then cached.filter fun b => min_total.le (of_decimal b.total) else cached

/-- The rows of the balances that the database path answers with. -/
def database_balances (aid : Uuid) (min_total : PyFloat) : List CachedBalance :=
  ((s.balances.rows.filter fun r => r.account_id = aid).filter fun r =>
    min_total.le (of_decimal r.total)).map fun r =>
      ⟨r.asset, r.free, r.locked, r.total, r.updated_at_ms⟩

/-- The error is the code that is answered. -/
def get_account_balances (min_total : PyFloat) : Except String BalancesReply :=
  match UUID account_id with
  | .error _ => .error "invalid_account_id"
  | .ok aid =>
    match liveAt s.live_balances now_ms with
    | some cached =>
      let balances := cached_balances min_total cached
      let last_updated_ms := last_updated (balances.map (·.updated_at_ms))
      .ok ⟨account_id, "redis_cache", last_updated_ms, now_ms, is_stale now_ms last_updated_ms,
        balances, balances.length⟩
    | none =>
      let balances := database_balances s aid min_total
      .ok ⟨account_id, "database", last_updated (balances.map (·.updated_at_ms)), now_ms, true,
        balances, balances.length⟩

/-- The writer puts a text into the cache for each pnl, also for zero. -/
def cached_position (p : CachedPosition) : PositionItem :=
  ⟨p.symbol, p.market_type, p.side, p.quantity, p.entry_price, some p.unrealized_pnl,
    p.updated_at_ms⟩

/-- `str(r.unrealized_pnl) if r.unrealized_pnl else None`. -/
def database_position (r : Position) : PositionItem :=
  ⟨r.symbol, r.market_type, r.side, r.quantity, r.entry_price,
    if r.unrealized_pnl = 0 then none else some r.unrealized_pnl, r.updated_at_ms⟩

def database_positions (aid : Uuid) : List PositionItem :=
  ((s.positions.rows.filter fun r => r.account_id = aid).filter fun r =>
    of_decimal r.quantity ≠ fin 0).map database_position

def empty_note (positions : List PositionItem) : Option String :=
  if positions.isEmpty then some EMPTY_NOTE else none

def get_account_positions : Except String PositionsReply :=
  match UUID account_id with
  | .error _ => .error "invalid_account_id"
  | .ok aid =>
    match liveAt s.live_positions now_ms with
    | some cached =>
      let positions := cached.map cached_position
      let last_updated_ms := last_updated (positions.map (·.updated_at_ms))
      .ok ⟨account_id, "redis_cache", last_updated_ms, now_ms, is_stale now_ms last_updated_ms,
        positions, positions.length, empty_note positions⟩
    | none =>
      let positions := database_positions s aid
      .ok ⟨account_id, "database", last_updated (positions.map (·.updated_at_ms)), now_ms, true,
        positions, positions.length, empty_note positions⟩

end Facade

/-! ## The two ways -/

/-- The amounts of the balances in a reply. -/
def balance_amounts : Except String BalancesReply → List (String × ℚ × ℚ × ℚ)
  | .ok reply => reply.balances.map fun b => (b.asset, b.free, b.locked, b.total)
  | .error _ => []

/-- The positions in a reply, without their times. -/
def position_amounts :
    Except String PositionsReply → List (String × String × String × ℚ × ℚ × Option ℚ)
  | .ok reply => reply.positions.map fun p =>
    (p.symbol, p.market_type, p.side, p.quantity, p.entry_price, p.unrealized_pnl)
  | .error _ => []

/-- The store when the keys of the caches are gone. -/
def without_cache (s : Store) : Store := { s with live_balances := none, live_positions := none }

/-- The facade says the same with the caches and without them. -/
structure SameAnswers (account_id : String) (s : Store) (now_ms : Nat) (min_total : PyFloat) :
    Prop where
  balances : ∀ x, x ∈ balance_amounts (get_account_balances s now_ms account_id min_total) ↔
    x ∈ balance_amounts (get_account_balances (without_cache s) now_ms account_id min_total)
  positions : ∀ x, x ∈ position_amounts (get_account_positions s now_ms account_id) ↔
    x ∈ position_amounts (get_account_positions (without_cache s) now_ms account_id)

/-- No row is shown as a zero: where there is a cache, no balance of nothing is asked for, and no
open position has a pnl of zero. -/
structure NothingZero (account_id : Uuid) (s : Store) (now_ms : Nat) (min_total : PyFloat) :
    Prop where
  totals : (liveAt s.live_balances now_ms).isSome = true → min_total = fin 0 →
    ∀ r ∈ s.balances.rows, r.account_id = account_id → r.total ≠ 0
  pnls : (liveAt s.live_positions now_ms).isSome = true →
    ∀ r ∈ s.positions.rows, r.account_id = account_id → r.quantity ≠ 0 → r.unrealized_pnl ≠ 0

section Same

variable {account_id : Uuid} {s : Store} {now_ms : Nat}

theorem live_value {α : Type} {cached : Option (Cached α)} {value : α}
    (h : liveAt cached now_ms = some value) : ∃ c, cached = some c ∧ c.value = value := by
  unfold liveAt at h
  split at h
  · rename_i c
    split at h
    · exact ⟨c, rfl, Option.some.inj h⟩
    · cases h
  · cases h

/-- A bound that is not negative is zero or positive. -/
theorem zero_or_pos {m : PyFloat} (h : (fin 0).le m = true) : m = fin 0 ∨ (fin 0).lt m = true := by
  unfold le at h
  rw [Bool.or_eq_true, Bool.and_eq_true, decide_eq_true_iff] at h
  rcases h with hlt | ⟨heq, -⟩
  · exact Or.inr hlt
  · exact Or.inl heq.symm

/-- What is at least a positive bound is positive. -/
theorem pos_of_le_of_decimal {m : PyFloat} {q : ℚ} (hm : (fin 0).lt m = true)
    (h : m.le (of_decimal q) = true) : 0 < q := by
  apply pos_of_lt_of_decimal
  unfold le at h
  rw [Bool.or_eq_true, Bool.and_eq_true, decide_eq_true_iff] at h
  rcases h with hlt | ⟨rfl, -⟩
  · exact pos_of_pos_of_lt hm hlt
  · exact hm

/-! ### Balances -/

/-- A positive bound lets through only what the cache has. -/
theorem cached_eq_database_of_pos {min_total : PyFloat} (hmin : (fin 0).lt min_total = true) :
    cached_balances min_total (cache_balances account_id s.balances) =
      database_balances s account_id min_total := by
  unfold cached_balances cache_balances database_balances
  rw [if_pos hmin, List.filter_map, List.filter_filter]
  congr 1
  apply List.filter_congr
  intro r _
  by_cases hle : min_total.le (of_decimal r.total) = true
  · have hpos := pos_of_le_of_decimal hmin hle
    simp [hle, hpos]
  · simp [hle]

/-- Where the bound is zero, the table also lets through the totals of zero. -/
theorem cached_eq_database_of_zero (hcolumns : ∀ r ∈ s.balances.rows, r.InColumns)
    (htotals : ∀ r ∈ s.balances.rows, r.account_id = account_id → r.total ≠ 0) :
    cached_balances (fin 0) (cache_balances account_id s.balances) =
      database_balances s account_id (fin 0) := by
  unfold cached_balances cache_balances database_balances
  rw [if_neg (by decide)]
  congr 1
  apply List.filter_congr
  intro r hr
  obtain ⟨hmem, haccount⟩ := List.mem_filter.mp hr
  have hnonneg := zero_le_of_decimal_iff (not_tiny_of_column (hcolumns r hmem).total)
  have hne := htotals r hmem (of_decide_eq_true haccount)
  rw [Bool.eq_iff_iff, hnonneg, decide_eq_true_iff]
  exact ⟨le_of_lt, fun h => lt_of_le_of_ne h hne.symm⟩

/-- The balances of the two ways are the same when the bound is positive or no total is zero. -/
theorem same_balances_iff (hkept : Kept account_id s) {min_total : PyFloat}
    (hmin : (fin 0).le min_total = true) :
    (∀ x, x ∈ (cached_balances min_total (cache_balances account_id s.balances)).map
        (fun b => (b.asset, b.free, b.locked, b.total)) ↔
      x ∈ (database_balances s account_id min_total).map
        fun b => (b.asset, b.free, b.locked, b.total)) ↔
      (min_total = fin 0 →
        ∀ r ∈ s.balances.rows, r.account_id = account_id → r.total ≠ 0) := by
  constructor
  · rintro hsame rfl r hr haccount hzero
    have hdatabase : (r.asset, r.free, r.locked, r.total) ∈
        (database_balances s account_id (fin 0)).map
          fun b => (b.asset, b.free, b.locked, b.total) := by
      refine List.mem_map.mpr ⟨⟨r.asset, r.free, r.locked, r.total, r.updated_at_ms⟩, ?_, rfl⟩
      refine List.mem_map.mpr ⟨r, ?_, rfl⟩
      have hnonneg := zero_le_of_decimal_iff (not_tiny_of_column (hkept.balances r hr).total)
      simp only [List.mem_filter, decide_eq_true_iff]
      exact ⟨⟨hr, haccount⟩, hnonneg.mpr hzero.ge⟩
    obtain ⟨b, hb, hpair⟩ := List.mem_map.mp ((hsame _).mpr hdatabase)
    unfold cached_balances cache_balances at hb
    rw [if_neg (by decide)] at hb
    obtain ⟨r', hr', rfl⟩ := List.mem_map.mp hb
    have hpos := of_decide_eq_true (List.mem_filter.mp hr').2
    simp only [Prod.mk.injEq] at hpair
    rw [hpair.2.2.2, hzero] at hpos
    exact lt_irrefl 0 hpos
  · intro htotals x
    rcases zero_or_pos hmin with rfl | hpos
    · rw [cached_eq_database_of_zero hkept.balances (htotals rfl)]
    · rw [cached_eq_database_of_pos hpos]

/-! ### Positions -/

theorem database_positions_eq (hkept : Kept account_id s) :
    database_positions s account_id =
      ((s.positions.rows.filter fun r => r.account_id = account_id).filter fun r =>
        r.quantity ≠ 0).map database_position := by
  unfold database_positions
  congr 1
  apply List.filter_congr
  intro r hr
  have hrow := (List.mem_filter.mp hr).1
  have hzero := of_decimal_eq_zero_iff (not_tiny_of_column (hkept.positions r hrow).quantity)
  simp [hzero]

/-- The positions of the two ways are the same when no open one has a pnl of zero. -/
theorem same_positions_iff (hkept : Kept account_id s) :
    (∀ x, x ∈ ((cache_positions account_id s.positions).map cached_position).map
        (fun p => (p.symbol, p.market_type, p.side, p.quantity, p.entry_price, p.unrealized_pnl)) ↔
      x ∈ (database_positions s account_id).map
        fun p => (p.symbol, p.market_type, p.side, p.quantity, p.entry_price, p.unrealized_pnl)) ↔
      ∀ r ∈ s.positions.rows, r.account_id = account_id → r.quantity ≠ 0 →
        r.unrealized_pnl ≠ 0 := by
  rw [database_positions_eq hkept]
  unfold cache_positions
  constructor
  · intro hsame r hr haccount hopen hzero
    have hdatabase := (hsame (r.symbol, r.market_type, r.side, r.quantity, r.entry_price, none)).mpr
      (by
        refine List.mem_map.mpr ⟨database_position r, ?_, ?_⟩
        · refine List.mem_map_of_mem ?_
          simp [hr, haccount, hopen]
        · simp [database_position, hzero])
    -- every position of the cache has a pnl
    simp [cached_position] at hdatabase
  · intro hpnls x
    have hrows : ((s.positions.rows.filter fun r => r.account_id = account_id).filter fun r =>
        r.quantity ≠ 0).map (cached_position ∘ fun r => ⟨r.symbol, r.market_type, r.side, r.quantity,
          r.entry_price, r.unrealized_pnl, r.updated_at_ms⟩) =
        ((s.positions.rows.filter fun r => r.account_id = account_id).filter fun r =>
          r.quantity ≠ 0).map database_position := by
      apply List.map_congr_left
      intro r hr
      simp only [List.mem_filter, decide_eq_true_iff] at hr
      obtain ⟨⟨hr, haccount⟩, hopen⟩ := hr
      unfold database_position
      rw [if_neg (hpnls r hr haccount hopen)]
      rfl
    rw [List.map_map (l := List.filter _ _), hrows]

/-! ### The answers -/

/-- The facade says the same with the caches and without them exactly when nothing is zero. -/
theorem same_answers_iff (hid : UUID account_id = .ok account_id) (hkept : Kept account_id s)
    {min_total : PyFloat} (hmin : (fin 0).le min_total = true) :
    SameAnswers account_id s now_ms min_total ↔ NothingZero account_id s now_ms min_total := by
  have hbalances : (∀ x, x ∈ balance_amounts (get_account_balances s now_ms account_id min_total) ↔
      x ∈ balance_amounts (get_account_balances (without_cache s) now_ms account_id min_total)) ↔
      ((liveAt s.live_balances now_ms).isSome = true → min_total = fin 0 →
        ∀ r ∈ s.balances.rows, r.account_id = account_id → r.total ≠ 0) := by
    unfold get_account_balances
    rw [hid]
    cases hlive : liveAt s.live_balances now_ms with
    | none => simp [without_cache, liveAt, database_balances]
    | some cached =>
      obtain ⟨c, hc, rfl⟩ := live_value hlive
      rw [hkept.live_balances c hc, Option.isSome_some]
      simp only [true_imp_iff]
      exact same_balances_iff hkept hmin
  have hpositions : (∀ x, x ∈ position_amounts (get_account_positions s now_ms account_id) ↔
      x ∈ position_amounts (get_account_positions (without_cache s) now_ms account_id)) ↔
      ((liveAt s.live_positions now_ms).isSome = true →
        ∀ r ∈ s.positions.rows, r.account_id = account_id → r.quantity ≠ 0 →
          r.unrealized_pnl ≠ 0) := by
    unfold get_account_positions
    rw [hid]
    cases hlive : liveAt s.live_positions now_ms with
    | none => simp [without_cache, liveAt, database_positions]
    | some cached =>
      obtain ⟨c, hc, rfl⟩ := live_value hlive
      rw [hkept.live_positions c hc, Option.isSome_some]
      simp only [true_imp_iff]
      exact same_positions_iff hkept
  constructor
  · intro h
    exact ⟨hbalances.mp h.balances, hpositions.mp h.positions⟩
  · intro h
    exact ⟨hbalances.mpr h.totals, hpositions.mpr h.pnls⟩

end Same

/-! ## Runs of the writer -/

/-- After any updates, the facade says the same with the caches and without them exactly when
nothing is zero. -/
theorem cache_equals_database_iff (writer : AccountStateWriter)
    (hid : UUID writer.account_id = .ok writer.account_id) {s : Store}
    (hkept : Kept writer.account_id s) (updates : List (Nat × AccountUpdate)) (now_ms : Nat)
    {min_total : PyFloat} (hmin : (fin 0).le min_total = true) :
    SameAnswers writer.account_id (writer.run s updates) now_ms min_total ↔
      NothingZero writer.account_id (writer.run s updates) now_ms min_total :=
  same_answers_iff hid (kept_run hkept updates) hmin

def demo_writer : AccountStateWriter := ⟨"00000000-0000-0000-0000-000000000001"⟩

/-- A balance of BTC, with nothing locked. -/
def btc_update (free : String) : AccountUpdate :=
  .upsert_balances 1 [[("a", "BTC"), ("f", free), ("l", "0")]]

theorem one_coin_is_answered :
    SameAnswers demo_writer.account_id (demo_writer.run .empty [(1, btc_update "1")]) 2 (fin 0) := by
  have hkept : Kept demo_writer.account_id .empty := kept_of_rows _ (by simp [Table.empty])
    (by simp [Table.empty])
  apply (cache_equals_database_iff demo_writer (by decide +kernel) hkept _ 2 (by decide)).mpr
  constructor
  · intro _ _
    decide +kernel
  · decide +kernel

/-- A balance that is gone is answered from the table, and not from the cache. -/
theorem empty_balance_is_answered_once :
    ¬ SameAnswers demo_writer.account_id (demo_writer.run .empty [(1, btc_update "0")]) 2
      (fin 0) := by
  intro h
  have hdatabase : ("BTC", 0, 0, 0) ∈ balance_amounts (get_account_balances
      (without_cache (demo_writer.run .empty [(1, btc_update "0")])) 2 demo_writer.account_id
        (fin 0)) := by
    decide +kernel
  have hcache : ("BTC", 0, 0, 0) ∉ balance_amounts (get_account_balances
      (demo_writer.run .empty [(1, btc_update "0")]) 2 demo_writer.account_id (fin 0)) := by
    decide +kernel
  exact hcache ((h.balances _).mpr hdatabase)

end trading_platform.mcp_server
