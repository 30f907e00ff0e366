-- The open positions of an account, counted twice: the gate counts the rows with a positive
-- quantity, and the cached list has every row whose quantity is not zero.
import TradingPlatform.Execution.PositionTable
import TradingPlatform.Execution.Risk

open keyed
open trading_platform.shared

namespace trading_platform.execution.account_stream

/-! ## The two counts -/

/-- A row of the table, as the repository of the execution service reads it. -/
def Position.row (r : Position) : execution.Position where
  account_id := r.account_id
  symbol := r.symbol
  market_type := r.market_type
  side := r.side
  quantity := r.quantity

/-- The tables that the repository finds. -/
def Store.db (s : Store) : Db := { Db.empty with positions := s.positions.rows.map (·.row) }

/-- `get_open_positions_count` of an account text, which it reads as an id. -/
def open_positions_count (s : Store) (account : String) : Except PyErr Nat :=
  (get_open_positions_count account s.db).map (·.1)

/-- The rows of an account that are long, short and not zero. -/
def long_count (account_id : Uuid) (s : Store) : Nat :=
  s.positions.rows.countP fun r => r.account_id = account_id ∧ 0 < r.quantity

def short_count (account_id : Uuid) (s : Store) : Nat :=
  s.positions.rows.countP fun r => r.account_id = account_id ∧ r.quantity < 0

theorem open_positions_count_eq {account : String} {account_id : Uuid}
    (hid : UUID account = .ok account_id) (s : Store) :
    open_positions_count s account = .ok (long_count account_id s) := by
  unfold open_positions_count get_open_positions_count
  rw [hid]
  show Except.ok (List.countP _ (s.positions.rows.map _)) = _
  rw [List.countP_map]
  rfl

/-- A row that is not zero is long or short. -/
theorem countP_not_zero (account_id : Uuid) (rows : List Position) :
    rows.countP (fun r => r.account_id = account_id ∧ r.quantity ≠ 0) =
      rows.countP (fun r => r.account_id = account_id ∧ 0 < r.quantity) +
        rows.countP (fun r => r.account_id = account_id ∧ r.quantity < 0) := by
  induction rows with
  | nil => rfl
  | cons r rows ih =>
    simp only [List.countP_cons, ih]
    by_cases hacc : r.account_id = account_id
    · rcases lt_trichotomy r.quantity 0 with hq | hq | hq
      · simp [hacc, hq, hq.ne, not_lt.mpr hq.le]
        omega
      · simp [hacc, hq]
      · simp [hacc, hq, hq.ne', not_lt.mpr hq.le]
        omega
    · simp [hacc]

/-- The cached list has the long rows and the short ones. -/
theorem cached_length {account_id : Uuid} {s : Store} (hc : CacheAgrees account_id s) {now : Nat}
    {list : List CachedPosition} (h : liveAt s.live_positions now = some list) :
    list.length = long_count account_id s + short_count account_id s := by
  rw [hc now list h, List.length_map, ← List.countP_eq_length_filter]
  exact countP_not_zero account_id s.positions.rows

/-! ## The cache of an account with rows -/

/-- The account has no row and no cached list yet. -/
structure Fresh (account_id : Uuid) (s : Store) : Prop where
  rows : ∀ r ∈ s.positions.rows, r.account_id ≠ account_id
  cache : s.live_positions = none

theorem Fresh.agrees {account_id : Uuid} {s : Store} (h : Fresh account_id s) :
    CacheAgrees account_id s := by
  intro now list hlive
  rw [h.cache] at hlive
  cases hlive

/-- Some reader can still find a cached list, or the account has no row. -/
def CachedOnceStored (account_id : Uuid) (s : Store) : Prop :=
  (∃ now list, liveAt s.live_positions now = some list) ∨
    ∀ r ∈ s.positions.rows, r.account_id ≠ account_id

theorem upsert_positions_cached (account_id : Uuid) (now ts : Nat) (ps : List Entry) {s : Store}
    (h : CachedOnceStored account_id s) :
    CachedOnceStored account_id (upsert_positions account_id now ts ps s).2 := by
  unfold upsert_positions
  split
  · exact h
  · rename_i t _
    refine Or.inl ⟨now, cache_positions account_id t, ?_⟩
    unfold liveAt
    dsimp only
    rw [if_pos]
    unfold POSITION_CACHE_TTL_S
    omega

theorem handle_event_cached (account_id : Uuid) (now : Nat) (e : AccountEvent) {s : Store}
    (h : CachedOnceStored account_id s) :
    CachedOnceStored account_id (handle_event account_id now e.payload s).2 := by
  have hbalances : ∀ ts bs, CachedOnceStored account_id (upsert_balances account_id now ts bs s).2 := by
    intro ts bs
    obtain ⟨hp, hl⟩ := upsert_balances_positions account_id now ts bs s
    unfold CachedOnceStored
    rw [hp, hl]
    exact h
  cases e with
  | outbound_account_position E B => exact hbalances _ _
  | balance_update E asset delta =>
    unfold AccountEvent.payload handle_event
    dsimp only
    split
    · exact h
    · exact hbalances _ _
  | account_update E B P =>
    have hfirst : CachedOnceStored account_id (if (B.map (·.entry)).isEmpty then (Except.ok (), s)
        else upsert_balances account_id now (E.getD now) (B.map (·.entry)) s :
          Except PyErr Unit × Store).2 := by
      split
      · exact h
      · exact hbalances _ _
    unfold AccountEvent.payload handle_event
    dsimp only
    split
    · rename_i heq
      rw [heq] at hfirst
      exact hfirst
    · rename_i heq
      rw [heq] at hfirst
      split
      · exact hfirst
      · exact upsert_positions_cached account_id now _ _ hfirst

theorem run_cached (account_id : Uuid) {s : Store} (h : CachedOnceStored account_id s)
    (events : List (Nat × AccountEvent)) : CachedOnceStored account_id (run account_id s events) := by
  induction events using List.reverseRecOn with
  | nil => exact h
  | append_singleton events e ih =>
    rw [run_snoc]
    exact handle_event_cached account_id e.1 e.2 ih

/-! ## The gate -/

/-- While the cached list can be read, the gate counts its entries, and it blocks an account
that has as many as it may have. -/
def CountsAgree (account : String) (s : Store) : Prop :=
  ∀ now list, liveAt s.live_positions now = some list →
    open_positions_count s account = .ok list.length ∧
    ∀ n max_concurrent, open_positions_count s account = .ok n →
      max_concurrent ≤ (list.length : Int) →
      (check_max_concurrent_exposure_placeholder (some n) max_concurrent).passed = false

/-- The latest amount of each symbol, margin type and side is not negative. -/
def NoShort (account_id : Uuid) (events : List (Nat × AccountEvent)) : Prop :=
  ∀ k p, lastOf (FuturesPosition.key account_id) (named (entries events)) k = some p →
    0 ≤ p.position_amt.value

/-- The exposure check blocks at the count that it is given. -/
theorem blocked_at {n : Nat} {max_concurrent : Int} (h : max_concurrent ≤ n) :
    (check_max_concurrent_exposure_placeholder (some n) max_concurrent).passed = false := by
  simp [check_max_concurrent_exposure_placeholder, h]

/-- The two counts agree when no row of the account is short, if the list can be read. -/
theorem counts_agree_iff {account : String} {account_id : Uuid}
    (hid : UUID account = .ok account_id) {s : Store} (hc : CacheAgrees account_id s)
    (hstored : CachedOnceStored account_id s) :
    CountsAgree account s ↔ short_count account_id s = 0 := by
  constructor
  · intro h
    rcases hstored with ⟨now, list, hlive⟩ | hnone
    · have hcount := (h now list hlive).1
      rw [open_positions_count_eq hid] at hcount
      have hlong := Except.ok.inj hcount
      have hlength := cached_length hc hlive
      omega
    · refine List.countP_eq_zero.mpr ?_
      intro r hr
      simp [hnone r hr]
  · intro hshort now list hlive
    have hlength := cached_length hc hlive
    rw [hshort, Nat.add_zero] at hlength
    rw [open_positions_count_eq hid, hlength]
    refine ⟨rfl, ?_⟩
    intro n max_concurrent hn hmax
    obtain rfl := Except.ok.inj hn
    exact blocked_at hmax

/-- After the events, an account that had no row is short nowhere exactly when no latest
amount is negative. -/
theorem no_short_row_iff {account_id : Uuid} {s : Store} (hs : Fresh account_id s)
    (events : List (Nat × AccountEvent)) :
    short_count account_id (run account_id s events) = 0 ↔ NoShort account_id events := by
  have hmem := mem_run_iff account_id s hs.agrees events
  have hstart : ∀ k : PositionKey, k.1 = account_id → quantities s.positions k = none := by
    intro k hk
    unfold quantities
    rw [Option.map_eq_none_iff, Table.find_eq_none]
    intro r hr hkey
    exact hs.rows r hr (by rw [← hk, ← hkey]; rfl)
  unfold short_count
  rw [List.countP_eq_zero]
  constructor
  · intro h k p hlast
    obtain ⟨-, hkey⟩ := lastOf_eq_some hlast
    have hassigned : assign_amounts account_id (entries events) (quantities s.positions) k =
        some p.position_amt.value := by
      rw [assign_amounts_apply, hlast]
      rfl
    obtain ⟨r, hr, hrk, hq⟩ := (hmem k p.position_amt.value).mpr hassigned
    have hacc : r.account_id = account_id := congrArg Prod.fst (hrk.trans hkey.symm)
    have hnot := h r hr
    simpa [hacc, hq] using hnot
  · intro h r hr
    by_cases hacc : r.account_id = account_id
    · have hassigned := (hmem r.key r.quantity).mp ⟨r, hr, rfl, rfl⟩
      rw [assign_amounts_apply, hstart r.key hacc] at hassigned
      cases hlast : lastOf (FuturesPosition.key account_id) (named (entries events)) r.key with
      | none => simp [hlast] at hassigned
      | some p =>
        have hq : p.position_amt.value = r.quantity := by simpa [hlast] using hassigned
        have hpos := h r.key p hlast
        simp [hacc, ← hq, hpos]
    · simp [hacc]

/-- After every event the gate counts the positions of the cached list exactly where no
position is short after any event. -/
theorem open_positions_are_counted_iff (account : String) (account_id : Uuid)
    (hid : UUID account = .ok account_id) (s : Store) (hs : Fresh account_id s)
    (events : List (Nat × AccountEvent)) :
    (∀ pre, pre <+: events → CountsAgree account (run account_id s pre)) ↔
      ∀ pre, pre <+: events → NoShort account_id pre := by
  refine forall_congr' fun pre => imp_congr_right fun _ => ?_
  have hc := (run_positions account_id s hs.agrees pre).2
  rw [counts_agree_iff hid hc (run_cached account_id (Or.inr hs.rows) pre)]
  exact no_short_row_iff hs pre

/-- An entry of BTCUSDT with an amount, in one-way mode. -/
def btc_amount (amt : Amount) : AccountEvent := btc_position amt "cross"

def demo_account : String := "00000000-0000-0000-0000-000000000001"

theorem fresh_empty (account_id : Uuid) : Fresh account_id .empty :=
  ⟨fun _ hr => (nomatch hr), rfl⟩

/-- A long position that is closed again is counted. -/
theorem a_long_position_is_counted :
    Fresh demo_account .empty ∧
      ∀ pre, pre <+: [(0, btc_amount ⟨"1", 1, Decimal.decimal_one⟩),
          (1, btc_amount ⟨"0", 0, Decimal.decimal_zero⟩)] →
        CountsAgree demo_account (run demo_account .empty pre) :=
  ⟨fresh_empty demo_account, (open_positions_are_counted_iff demo_account demo_account
    (by decide +kernel) .empty (fresh_empty demo_account) _).mpr <| by
      intro pre hpre k p hlast
      have hp := (lastOf_eq_some hlast).1
      have hmem : p ∈ entries [(0, btc_amount ⟨"1", 1, Decimal.decimal_one⟩),
          (1, btc_amount ⟨"0", 0, Decimal.decimal_zero⟩)] := by
        obtain ⟨post, hpost⟩ := hpre
        rw [← hpost, entries, List.flatMap_append]
        exact List.mem_append_left _ (List.mem_filter.mp hp).1
      simp only [entries, btc_amount, btc_position, AccountEvent.positions, List.flatMap_cons,
        List.flatMap_nil, List.append_nil, List.singleton_append, List.mem_cons,
        List.not_mem_nil, or_false] at hmem
      rcases hmem with rfl | rfl <;> decide⟩

/-- A short position is in the cached list, and the gate counts none: an account that may
have one position passes the check. -/
theorem a_short_position_is_not_counted :
    ¬ CountsAgree demo_account
      (run demo_account .empty [(0, btc_amount ⟨"-1", -1, by decide +kernel⟩)]) := by
  intro h
  have hlive : liveAt (run demo_account .empty
      [(0, btc_amount ⟨"-1", -1, by decide +kernel⟩)]).live_positions 0 =
      some [⟨"BTCUSDT", "cross", "BOTH", -1, 0, 0, 1⟩] := by decide +kernel
  have hcount : open_positions_count (run demo_account .empty
      [(0, btc_amount ⟨"-1", -1, by decide +kernel⟩)]) demo_account = .ok 0 := by decide +kernel
  have hagree := (h 0 _ hlive).1
  rw [hcount] at hagree
  cases hagree

end trading_platform.execution.account_stream
