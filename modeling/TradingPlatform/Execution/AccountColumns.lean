-- The balances and positions of one account as the columns hold them, and the two caches that
-- the writer fills from what it has just committed.
import TradingPlatform.Execution.AccountTables
import TradingPlatform.Shared.Double
import Mathlib.Tactic.Linarith

open keyed
open trading_platform.shared

namespace trading_platform.execution.account_stream

/-! ## Columns -/

/-- What `Numeric(30, 12)` makes of a number: twelve places, halves away from zero. -/
def numeric (q : ℚ) : ℚ :=
  (if q < 0 then -⌊-q * 10 ^ 12 + 1 / 2⌋ else ⌊q * 10 ^ 12 + 1 / 2⌋ : Int) / 10 ^ 12

def numeric_overflow : PyErr := ⟨"DataError", "numeric field overflow"⟩

/-- A number that fits the thirty digits of the column. -/
def fits (q : ℚ) : Bool := |numeric q| < 10 ^ 18

/-- A number that the column can hold. -/
def InColumn (q : ℚ) : Prop := ∃ n : Int, q = n / 10 ^ 12

theorem numeric_in_column (q : ℚ) : InColumn (numeric q) := ⟨_, rfl⟩

/-- A number of the column stays what it is. -/
theorem numeric_of_column {q : ℚ} (h : InColumn q) : numeric q = q := by
  obtain ⟨n, rfl⟩ := h
  have hhalf : ∀ m : Int, ⌊(m : ℚ) + 1 / 2⌋ = m := by
    intro m
    rw [Int.floor_intCast_add, show ⌊(1 / 2 : ℚ)⌋ = 0 by norm_num, add_zero]
  have hscale : (n : ℚ) / 10 ^ 12 * 10 ^ 12 = n := div_mul_cancel₀ _ (by norm_num)
  have hscale' : -((n : ℚ) / 10 ^ 12) * 10 ^ 12 = ((-n : Int) : ℚ) := by
    push_cast
    rw [neg_mul, hscale]
  unfold numeric
  rw [hscale, hscale', hhalf, hhalf, neg_neg, ite_self]

/-- A number of the column is not too small for a float. -/
theorem not_tiny_of_column {q : ℚ} (h : InColumn q) : NotTiny q := by
  obtain ⟨n, rfl⟩ := h
  by_cases hn : n = 0
  · left
    rw [hn, Int.cast_zero, zero_div]
  · right
    have hone : (1 : ℚ) ≤ |(n : ℚ)| := by exact_mod_cast Int.one_le_abs hn
    have hplaces : |(10 : ℚ) ^ 12| = 10 ^ 12 := abs_of_pos (by norm_num)
    rw [abs_div, hplaces, le_div_iff₀ (by norm_num)]
    calc (2 : ℚ) ^ (-1074 : Int) * 10 ^ 12 ≤ 2 ^ (-40 : Int) * 10 ^ 12 := by
          apply mul_le_mul_of_nonneg_right _ (by norm_num)
          exact zpow_le_zpow_right₀ (by norm_num) (by norm_num)
      _ ≤ 1 := by norm_num
      _ ≤ |(n : ℚ)| := hone

def Balance.stored (b : Balance) : Balance :=
  { b with free := numeric b.free, locked := numeric b.locked, total := numeric b.total }

def Balance.fits (b : Balance) : Bool :=
  account_stream.fits b.free && account_stream.fits b.locked && account_stream.fits b.total

def Position.stored (p : Position) : Position :=
  { p with
    quantity := numeric p.quantity
    entry_price := numeric p.entry_price
    unrealized_pnl := numeric p.unrealized_pnl }

def Position.fits (p : Position) : Bool :=
  account_stream.fits p.quantity && account_stream.fits p.entry_price &&
    account_stream.fits p.unrealized_pnl

/-- The commit of a table: each number is brought to its column, or does not fit. -/
def commit {ρ κ : Type} {key : ρ → κ} (fits : ρ → Bool) (stored : ρ → ρ)
    (hkey : ∀ r, key (stored r) = key r) (t : Table ρ key) : Except PyErr (Table ρ key) :=
  if t.rows.all fits then .ok (t.map stored hkey) else .error numeric_overflow

/-! ## The writer -/

/-- A call of the writer, with its `timestamp_ms`; zero is none. -/
inductive AccountUpdate where
  | upsert_balances (timestamp_ms : Nat) (balances : List Entry)
  | upsert_positions (timestamp_ms : Nat) (positions : List Entry)

structure AccountStateWriter where
  account_id : Uuid

namespace AccountStateWriter

variable (self : AccountStateWriter)

/-- The rows are committed together, and the cache is filled from what was committed. -/
def upsert_balances (now timestamp_ms : Nat) (balances : List Entry) (s : Store) :
    Except PyErr Unit × Store :=
  match balances.foldlM (upsert_balance self.account_id (stamp timestamp_ms now)) s.balances >>=
      commit Balance.fits Balance.stored (fun _ => rfl) with
  | .error e => (.error e, s)
  | .ok t => (.ok (), { s with
      balances := t
      live_balances :=
        some ⟨cache_balances self.account_id t, now + 1000 * BALANCE_CACHE_TTL_S⟩ })

def upsert_positions (now timestamp_ms : Nat) (positions : List Entry) (s : Store) :
    Except PyErr Unit × Store :=
  match positions.foldlM (upsert_position self.account_id (stamp timestamp_ms now)) s.positions >>=
      commit Position.fits Position.stored (fun _ => rfl) with
  | .error e => (.error e, s)
  | .ok t => (.ok (), { s with
      positions := t
      live_positions :=
        some ⟨cache_positions self.account_id t, now + 1000 * POSITION_CACHE_TTL_S⟩ })

def apply (now : Nat) (update : AccountUpdate) (s : Store) : Store :=
  match update with
  | .upsert_balances timestamp_ms balances => (self.upsert_balances now timestamp_ms balances s).2
  | .upsert_positions timestamp_ms positions =>
    (self.upsert_positions now timestamp_ms positions s).2

/-- The store after some updates, each at its time. -/
def run (s : Store) (updates : List (Nat × AccountUpdate)) : Store :=
  updates.foldl (fun s u => self.apply u.1 u.2 s) s

end AccountStateWriter

/-! ## What the writer keeps -/

structure Balance.InColumns (b : Balance) : Prop where
  free : InColumn b.free
  locked : InColumn b.locked
  total : InColumn b.total

structure Position.InColumns (p : Position) : Prop where
  quantity : InColumn p.quantity
  entry_price : InColumn p.entry_price
  unrealized_pnl : InColumn p.unrealized_pnl

/-- The tables hold what their columns can, and the caches what the tables say. -/
structure Kept (account_id : Uuid) (s : Store) : Prop where
  balances : ∀ r ∈ s.balances.rows, r.InColumns
  positions : ∀ r ∈ s.positions.rows, r.InColumns
  live_balances : ∀ c, s.live_balances = some c → c.value = cache_balances account_id s.balances
  live_positions : ∀ c, s.live_positions = some c → c.value = cache_positions account_id s.positions

/-- A store without caches. -/
theorem kept_of_rows (account_id : Uuid) {balances : Table Balance Balance.key}
    {positions : Table Position Position.key} (hbalances : ∀ r ∈ balances.rows, r.InColumns)
    (hpositions : ∀ r ∈ positions.rows, r.InColumns) :
    Kept account_id ⟨balances, positions, none, none⟩ := by
  constructor
  · exact hbalances
  · exact hpositions
  · rintro c ⟨⟩
  · rintro c ⟨⟩

/-- A committed row is a stored one. -/
theorem stored_of_commit {ρ κ : Type} {key : ρ → κ} {fits : ρ → Bool} {stored : ρ → ρ}
    {hkey : ∀ r, key (stored r) = key r} {t t' : Table ρ key} (h : commit fits stored hkey t = .ok t')
    {r : ρ} (hr : r ∈ t'.rows) : ∃ r', r = stored r' := by
  unfold commit at h
  split at h
  · cases h
    obtain ⟨r', -, rfl⟩ := List.mem_map.mp hr
    exact ⟨r', rfl⟩
  · cases h

theorem bind_eq_ok {α β : Type} {x : Except PyErr α} {f : α → Except PyErr β} {b : β}
    (h : x >>= f = .ok b) : ∃ a, x = .ok a ∧ f a = .ok b := by
  cases x with
  | error e => cases h
  | ok a => exact ⟨a, rfl, h⟩

section Keeps

variable {self : AccountStateWriter} {s : Store}

theorem kept_upsert_balances (h : Kept self.account_id s) (now timestamp_ms : Nat)
    (balances : List Entry) :
    Kept self.account_id (self.upsert_balances now timestamp_ms balances s).2 := by
  unfold AccountStateWriter.upsert_balances
  split
  · exact h
  · rename_i t hcommit
    obtain ⟨t', -, hstored⟩ := bind_eq_ok hcommit
    constructor
    · intro r hr
      obtain ⟨r', rfl⟩ := stored_of_commit hstored hr
      exact ⟨numeric_in_column _, numeric_in_column _, numeric_in_column _⟩
    · exact h.positions
    · rintro c ⟨⟩
      rfl
    · exact h.live_positions

theorem kept_upsert_positions (h : Kept self.account_id s) (now timestamp_ms : Nat)
    (positions : List Entry) :
    Kept self.account_id (self.upsert_positions now timestamp_ms positions s).2 := by
  unfold AccountStateWriter.upsert_positions
  split
  · exact h
  · rename_i t hcommit
    obtain ⟨t', -, hstored⟩ := bind_eq_ok hcommit
    constructor
    · exact h.balances
    · intro r hr
      obtain ⟨r', rfl⟩ := stored_of_commit hstored hr
      exact ⟨numeric_in_column _, numeric_in_column _, numeric_in_column _⟩
    · exact h.live_balances
    · rintro c ⟨⟩
      rfl

theorem kept_apply (h : Kept self.account_id s) (now : Nat) (update : AccountUpdate) :
    Kept self.account_id (self.apply now update s) := by
  cases update with
  | upsert_balances timestamp_ms balances => exact kept_upsert_balances h now timestamp_ms balances
  | upsert_positions timestamp_ms positions =>
    exact kept_upsert_positions h now timestamp_ms positions

/-- The writer keeps the caches as the tables say, over any run. -/
theorem kept_run (h : Kept self.account_id s) (updates : List (Nat × AccountUpdate)) :
    Kept self.account_id (self.run s updates) := by
  unfold AccountStateWriter.run
  induction updates generalizing s with
  | nil => exact h
  | cons u updates ih => exact ih (kept_apply h u.1 u.2)

end Keeps

end trading_platform.execution.account_stream
