-- The positions of one account over runs of events. The writer keeps the margin
-- type of a position in the column of the market type, which is part of the
-- unique key; so a symbol and side gets one row for each margin type that it
-- is reported with.
import TradingPlatform.Execution.BalanceLedger

open keyed
open trading_platform.shared

namespace trading_platform.execution.account_stream

/-! ## What the writer does -/

abbrev PositionKey := Uuid × String × String × String

/-- What the writer takes for the market type of an entry. -/
def FuturesPosition.market_type (p : FuturesPosition) : String := p.margin_type.getD "futures"

def FuturesPosition.side (p : FuturesPosition) : String := p.position_side.getD "BOTH"

/-- The key under which the writer keeps an entry. -/
def FuturesPosition.key (account_id : Uuid) (p : FuturesPosition) : PositionKey :=
  (account_id, p.symbol, p.market_type, p.side)

/-- The quantity of the row of each key. -/
def quantities (t : Table Position Position.key) : PositionKey → Option ℚ :=
  fun k => (t.find k).map (·.quantity)

/-- The writer skips the entries without a symbol. -/
def named (ps : List FuturesPosition) : List FuturesPosition := ps.filter fun p => p.symbol ≠ ""

/-- Assigns the amount of each entry to its key. -/
def assign_amounts (account_id : Uuid) (ps : List FuturesPosition) (m : PositionKey → Option ℚ) :
    PositionKey → Option ℚ :=
  (named ps).foldl
    (fun m p => Function.update m (p.key account_id) (some p.position_amt.value)) m

theorem assign_amounts_append (account_id : Uuid) (ps qs : List FuturesPosition)
    (m : PositionKey → Option ℚ) :
    assign_amounts account_id (ps ++ qs) m =
      assign_amounts account_id qs (assign_amounts account_id ps m) := by
  simp [assign_amounts, named, List.filter_append, List.foldl_append]

theorem assign_amounts_apply (account_id : Uuid) (ps : List FuturesPosition)
    (m : PositionKey → Option ℚ) (k : PositionKey) :
    assign_amounts account_id ps m k =
      ((lastOf (FuturesPosition.key account_id) (named ps) k).map
        fun p => some p.position_amt.value).getD (m k) :=
  foldl_update _ _ _ _ _

theorem get_entry (p : FuturesPosition) :
    p.entry.getD "s" "" = p.symbol ∧ p.entry.getD "mt" "futures" = p.market_type ∧
      p.entry.getD "ps" "BOTH" = p.side ∧ p.entry.getD "pa" "0" = p.position_amt.text ∧
      p.entry.getD "ep" "0" = p.entry_price.text ∧ p.entry.getD "up" "0" = p.unrealized_pnl.text := by
  unfold FuturesPosition.entry FuturesPosition.market_type FuturesPosition.side Entry.getD Entry.get
  cases p.margin_type <;> cases p.position_side <;> simp

/-- One entry: its amount is stored under its key. -/
theorem upsert_position_entry (account_id : Uuid) (now_ms : Nat) (t : Table Position Position.key)
    (p : FuturesPosition) :
    ∃ t', upsert_position account_id now_ms t p.entry = .ok t' ∧
      quantities t' = assign_amounts account_id [p] (quantities t) := by
  obtain ⟨h1, h2, h3, h4, h5, h6⟩ := get_entry p
  unfold upsert_position amount assign_amounts named
  simp only [h1, h2, h3, h4, h5, h6, p.position_amt.parses, p.entry_price.parses,
    p.unrealized_pnl.parses]
  by_cases hs : p.symbol = ""
  · rw [if_pos hs]
    exact ⟨t, rfl, by simp [hs]⟩
  · rw [if_neg hs]
    refine ⟨_, rfl, ?_⟩
    simp only [hs, List.filter_cons, List.filter_nil, ne_eq, not_false_eq_true, decide_true,
      if_true, List.foldl_cons, List.foldl_nil]
    exact Table.map_find_upsert (fun r : Position => r.quantity) rfl rfl fun r => rfl

/-- A list of entries: each amount is stored under its key. -/
theorem upsert_position_entries (account_id : Uuid) (now_ms : Nat) (ps : List FuturesPosition)
    (t : Table Position Position.key) :
    ∃ t', (ps.map (·.entry)).foldlM (upsert_position account_id now_ms) t = .ok t' ∧
      quantities t' = assign_amounts account_id ps (quantities t) := by
  induction ps generalizing t with
  | nil => exact ⟨t, rfl, rfl⟩
  | cons p ps ih =>
    obtain ⟨t1, hone, hq1⟩ := upsert_position_entry account_id now_ms t p
    obtain ⟨t', hrest, hq'⟩ := ih t1
    refine ⟨t', ?_, ?_⟩
    · rw [List.map_cons, List.foldlM_cons, hone]
      exact hrest
    · rw [hq', hq1, ← assign_amounts_append]
      rfl

/-! ## The cache -/

def Position.cached (r : Position) : CachedPosition :=
  ⟨r.symbol, r.market_type, r.side, r.quantity, r.entry_price, r.unrealized_pnl, r.updated_at_ms⟩

/-- While the cached list is live, it has exactly the rows of the account whose
quantity is not zero. -/
def CacheAgrees (account_id : Uuid) (s : Store) : Prop :=
  ∀ now list, liveAt s.live_positions now = some list →
    list = (s.positions.rows.filter fun r => r.account_id = account_id ∧ r.quantity ≠ 0).map
      Position.cached

theorem cache_positions_eq (account_id : Uuid) (t : Table Position Position.key) :
    cache_positions account_id t =
      (t.rows.filter fun r => r.account_id = account_id ∧ r.quantity ≠ 0).map Position.cached := by
  unfold cache_positions
  rw [List.filter_filter]
  congr 1
  refine List.filter_congr fun r _ => ?_
  rw [← Bool.decide_and, decide_eq_decide, and_comm]

/-! ## One event -/

def AccountEvent.positions : AccountEvent → List FuturesPosition
  | .account_update _ _ P => P
  | _ => []

theorem upsert_balances_positions (account_id : Uuid) (now ts : Nat) (bs : List Entry) (s : Store) :
    (upsert_balances account_id now ts bs s).2.positions = s.positions ∧
      (upsert_balances account_id now ts bs s).2.live_positions = s.live_positions := by
  unfold upsert_balances
  split <;> exact ⟨rfl, rfl⟩

/-- The writer stores a list of positions and caches the table after it. -/
theorem upsert_positions_amounts (account_id : Uuid) (now ts : Nat) (ps : List FuturesPosition)
    (s : Store) :
    quantities (upsert_positions account_id now ts (ps.map (·.entry)) s).2.positions =
        assign_amounts account_id ps (quantities s.positions) ∧
      CacheAgrees account_id (upsert_positions account_id now ts (ps.map (·.entry)) s).2 := by
  obtain ⟨t', hfold, hq'⟩ := upsert_position_entries account_id (stamp ts now) ps s.positions
  unfold upsert_positions
  rw [hfold]
  refine ⟨hq', ?_⟩
  intro now' list hlive
  unfold liveAt at hlive
  dsimp only at hlive
  split at hlive
  · rw [← Option.some.inj hlive]
    exact cache_positions_eq account_id t'
  · cases hlive

/-- One event: the amounts of its positions are stored, and the cache agrees. -/
theorem handle_event_positions (account_id : Uuid) (now : Nat) (e : AccountEvent) (s : Store)
    (hc : CacheAgrees account_id s) :
    quantities (handle_event account_id now e.payload s).2.positions =
        assign_amounts account_id e.positions (quantities s.positions) ∧
      CacheAgrees account_id (handle_event account_id now e.payload s).2 := by
  have hkeep : ∀ s' : Store, s'.positions = s.positions ∧ s'.live_positions = s.live_positions →
      quantities s'.positions = quantities s.positions ∧ CacheAgrees account_id s' := by
    rintro s' ⟨hp, hl⟩
    unfold CacheAgrees
    rw [hp, hl]
    exact ⟨rfl, hc⟩
  cases e with
  | outbound_account_position E B =>
    exact hkeep _ (upsert_balances_positions account_id now _ _ s)
  | balance_update E asset delta =>
    unfold AccountEvent.payload handle_event
    dsimp only
    split
    · exact ⟨rfl, hc⟩
    · exact hkeep _ (upsert_balances_positions account_id now _ _ s)
  | account_update E B P =>
    -- the balances come first, and they do not fail
    have hbalances : ∃ s', (if (B.map (·.entry)).isEmpty then (Except.ok (), s)
        else upsert_balances account_id now (E.getD now) (B.map (·.entry)) s) = (.ok (), s') ∧
        s'.positions = s.positions ∧ s'.live_positions = s.live_positions := by
      by_cases hB : (B.map (·.entry)).isEmpty = true
      · exact ⟨s, if_pos hB, rfl, rfl⟩
      · have hok := (upsert_balances_reads account_id now (E.getD now) _ _ _ B
          (fun b _ => reads_futures b) s).1
        refine ⟨_, ?_, upsert_balances_positions account_id now (E.getD now) (B.map (·.entry)) s⟩
        rw [if_neg hB]
        exact Prod.ext hok rfl
    obtain ⟨s', hs', hpos, hlive⟩ := hbalances
    obtain ⟨hq, hc'⟩ := hkeep s' ⟨hpos, hlive⟩
    unfold AccountEvent.payload handle_event
    simp only [hs']
    by_cases hP : (P.map (·.entry)).isEmpty = true
    · rw [if_pos hP]
      rw [List.isEmpty_iff, List.map_eq_nil_iff] at hP
      subst hP
      exact ⟨hq, hc'⟩
    · rw [if_neg hP]
      have h := upsert_positions_amounts account_id now (E.getD now) P s'
      rw [hq] at h
      exact h

/-! ## Runs -/

/-- The position entries of a sequence of events, oldest first. -/
def entries (events : List (Nat × AccountEvent)) : List FuturesPosition :=
  events.flatMap fun e => e.2.positions

theorem run_positions (account_id : Uuid) (s : Store) (hc : CacheAgrees account_id s)
    (events : List (Nat × AccountEvent)) :
    quantities (run account_id s events).positions =
        assign_amounts account_id (entries events) (quantities s.positions) ∧
      CacheAgrees account_id (run account_id s events) := by
  induction events using List.reverseRecOn with
  | nil => exact ⟨rfl, hc⟩
  | append_singleton events e ih =>
    obtain ⟨hq, hc'⟩ := ih
    have hstep := handle_event_positions account_id e.1 e.2 _ hc'
    rw [run_snoc]
    refine ⟨?_, hstep.2⟩
    rw [hstep.1, hq, ← assign_amounts_append]
    simp [entries]

/-- The table and the cache after the events: one row for each symbol and side, with
the amount of the last entry that names them, and the cached list has the rows
that are not zero. -/
structure PositionsAgree (account_id : Uuid) (s : Store) (events : List (Nat × AccountEvent)) :
    Prop where
  one : ∀ r ∈ (run account_id s events).positions.rows,
    ∀ r' ∈ (run account_id s events).positions.rows,
    r.account_id = account_id → r'.account_id = account_id → r.symbol = r'.symbol →
    r.side = r'.side → r = r'
  latest : ∀ symbol side p, symbol ≠ "" →
    lastOf (fun p : FuturesPosition => (p.symbol, p.side)) (entries events) (symbol, side) = some p →
    ∃ r ∈ (run account_id s events).positions.rows, r.account_id = account_id ∧
      r.symbol = symbol ∧ r.side = side ∧ r.quantity = p.position_amt.value
  cached : CacheAgrees account_id (run account_id s events)

/-- The symbol, side and market type of each row that the account has and of each
entry that the writer stores. -/
def sources (account_id : Uuid) (s : Store) (events : List (Nat × AccountEvent)) :
    List (String × String × String) :=
  ((s.positions.rows.filter fun r => r.account_id = account_id).map
    fun r => (r.symbol, r.side, r.market_type)) ++
  (named (entries events)).map fun p => (p.symbol, p.side, p.market_type)

/-- No symbol and side comes with two margin types. -/
def OneMarginType (account_id : Uuid) (s : Store) (events : List (Nat × AccountEvent)) : Prop :=
  ∀ x ∈ sources account_id s events, ∀ y ∈ sources account_id s events,
    x.1 = y.1 → x.2.1 = y.2.1 → x.2.2 = y.2.2

/-- A row of the account, and what the entries and the rows of the start say of its
key. -/
theorem mem_run_iff (account_id : Uuid) (s : Store) (hc : CacheAgrees account_id s)
    (events : List (Nat × AccountEvent)) (k : PositionKey) (q : ℚ) :
    (∃ r ∈ (run account_id s events).positions.rows, r.key = k ∧ r.quantity = q) ↔
      assign_amounts account_id (entries events) (quantities s.positions) k = some q := by
  rw [← (run_positions account_id s hc events).1]
  unfold quantities
  rw [Option.map_eq_some_iff]
  constructor
  · rintro ⟨r, hr, hk, hq⟩
    exact ⟨r, Table.find_eq_some.mpr ⟨hr, hk⟩, hq⟩
  · rintro ⟨r, hf, hq⟩
    obtain ⟨hr, hk⟩ := Table.find_eq_some.mp hf
    exact ⟨r, hr, hk, hq⟩

/-- Each source has a row at the end of the run. -/
theorem row_of_source {account_id : Uuid} {s : Store} (hc : CacheAgrees account_id s)
    {events : List (Nat × AccountEvent)} {x : String × String × String}
    (hx : x ∈ sources account_id s events) :
    ∃ r ∈ (run account_id s events).positions.rows, r.key = (account_id, x.1, x.2.2, x.2.1) := by
  have hsome : ∃ q, assign_amounts account_id (entries events) (quantities s.positions)
      (account_id, x.1, x.2.2, x.2.1) = some q := by
    rw [assign_amounts_apply]
    rcases List.mem_append.mp hx with hx | hx
    · obtain ⟨r, hr, rfl⟩ := List.mem_map.mp hx
      obtain ⟨hrow, hdec⟩ := List.mem_filter.mp hr
      have hacc : r.account_id = account_id := of_decide_eq_true hdec
      subst hacc
      have hfind : s.positions.find (r.account_id, r.symbol, r.market_type, r.side) = some r :=
        Table.find_eq_some.mpr ⟨hrow, rfl⟩
      cases lastOf (FuturesPosition.key r.account_id) (named (entries events))
          (r.account_id, r.symbol, r.market_type, r.side) with
      | some p => exact ⟨_, rfl⟩
      | none =>
        refine ⟨r.quantity, ?_⟩
        show quantities s.positions _ = _
        unfold quantities
        rw [hfind]
        rfl
    · obtain ⟨p, hp, rfl⟩ := List.mem_map.mp hx
      obtain ⟨p', hp'⟩ := exists_lastOf (FuturesPosition.key account_id) hp
      refine ⟨p'.position_amt.value, ?_⟩
      show ((lastOf _ _ (FuturesPosition.key account_id p)).map _).getD _ = _
      rw [hp']
      rfl
  obtain ⟨q, hq⟩ := hsome
  obtain ⟨r, hr, hk, -⟩ := (mem_run_iff account_id s hc events _ q).mpr hq
  exact ⟨r, hr, hk⟩

/-- Each row of the account at the end of the run has a source. -/
theorem source_of_row {account_id : Uuid} {s : Store} (hc : CacheAgrees account_id s)
    {events : List (Nat × AccountEvent)} {r : Position}
    (hr : r ∈ (run account_id s events).positions.rows) (hacc : r.account_id = account_id) :
    (r.symbol, r.side, r.market_type) ∈ sources account_id s events := by
  have hq := (mem_run_iff account_id s hc events r.key r.quantity).mp ⟨r, hr, rfl, rfl⟩
  rw [assign_amounts_apply] at hq
  cases hlast : lastOf (FuturesPosition.key account_id) (named (entries events)) r.key with
  | some p =>
    obtain ⟨hp, hk⟩ := lastOf_eq_some hlast
    refine List.mem_append_right _ (List.mem_map.mpr ⟨p, hp, ?_⟩)
    simp only [FuturesPosition.key, Position.key, Prod.mk.injEq] at hk
    obtain ⟨-, h1, h2, h3⟩ := hk
    rw [h1, h2, h3]
  | none =>
    rw [hlast] at hq
    obtain ⟨r0, hf, -⟩ := Option.map_eq_some_iff.mp hq
    obtain ⟨hr0, hk⟩ := Table.find_eq_some.mp hf
    simp only [Position.key, Prod.mk.injEq] at hk
    obtain ⟨h0, h1, h2, h3⟩ := hk
    refine List.mem_append_left _ (List.mem_map.mpr ⟨r0, ?_, ?_⟩)
    · refine List.mem_filter.mpr ⟨hr0, ?_⟩
      simp [h0, hacc]
    · rw [h1, h2, h3]

theorem sources_mono {account_id : Uuid} {s : Store} {pre events : List (Nat × AccountEvent)}
    (hpre : pre <+: events) {x : String × String × String} (hx : x ∈ sources account_id s pre) :
    x ∈ sources account_id s events := by
  obtain ⟨post, rfl⟩ := hpre
  unfold sources entries named at *
  rw [List.flatMap_append, List.filter_append, List.map_append, ← List.append_assoc]
  exact List.mem_append_left _ hx

/-- With one margin type for each symbol and side, the last entry of a symbol and
side is the last one of its key. -/
theorem last_of_key {account_id : Uuid} {s : Store} {events : List (Nat × AccountEvent)}
    (hone : OneMarginType account_id s events) {symbol side : String} (hs : symbol ≠ "")
    {p : FuturesPosition}
    (hp : lastOf (fun p : FuturesPosition => (p.symbol, p.side)) (entries events) (symbol, side) =
      some p) :
    lastOf (FuturesPosition.key account_id) (named (entries events)) (p.key account_id) = some p := by
  obtain ⟨hmem, hname⟩ := lastOf_eq_some hp
  obtain ⟨rfl, rfl⟩ := Prod.mk.inj hname
  have hsource : ∀ b ∈ entries events, b.symbol ≠ "" →
      (b.symbol, b.side, b.market_type) ∈ sources account_id s events := by
    intro b hb hbs
    refine List.mem_append_right _ (List.mem_map.mpr ⟨b, ?_, rfl⟩)
    exact List.mem_filter.mpr ⟨hb, by simpa using hbs⟩
  rw [← hp]
  unfold lastOf named
  rw [List.filter_filter]
  congr 1
  refine List.filter_congr fun b hb => ?_
  rw [← Bool.decide_and, decide_eq_decide]
  constructor
  · rintro ⟨hk, -⟩
    simp only [FuturesPosition.key, Prod.mk.injEq] at hk
    exact Prod.ext hk.2.1 hk.2.2.2
  · intro hk
    obtain ⟨h1, h2⟩ := Prod.mk.inj hk
    have hbs : b.symbol ≠ "" := h1 ▸ hs
    have hmt := hone _ (hsource b hb hbs) _ (hsource p hmem hs) h1 h2
    refine ⟨?_, hbs⟩
    unfold FuturesPosition.key
    rw [h1, h2, show b.market_type = p.market_type from hmt]

/-- The positions agree with the events after each of them if, and only if, no symbol
and side comes with two margin types. -/
theorem positions_agree_iff (account_id : Uuid) (s : Store) (hc : CacheAgrees account_id s)
    (events : List (Nat × AccountEvent)) :
    (∀ pre, pre <+: events → PositionsAgree account_id s pre) ↔
      OneMarginType account_id s events := by
  constructor
  · intro h x hx y hy hsymbol hside
    obtain ⟨r, hr, hrk⟩ := row_of_source hc hx
    obtain ⟨r', hr', hrk'⟩ := row_of_source hc hy
    simp only [Position.key, Prod.mk.injEq] at hrk hrk'
    obtain ⟨h0, h1, h2, h3⟩ := hrk
    obtain ⟨h0', h1', h2', h3'⟩ := hrk'
    have hsame : r = r' := (h events (List.prefix_refl _)).one r hr r' hr' h0 h0'
      (by rw [h1, h1', hsymbol]) (by rw [h3, h3', hside])
    rw [← h2, ← h2', hsame]
  · intro hall pre hpre
    have hone : OneMarginType account_id s pre :=
      fun x hx y hy => hall x (sources_mono hpre hx) y (sources_mono hpre hy)
    refine ⟨?_, ?_, (run_positions account_id s hc pre).2⟩
    · intro r hr r' hr' hacc hacc' hsymbol hside
      have hmt := hone _ (source_of_row hc hr hacc) _ (source_of_row hc hr' hacc') hsymbol hside
      have hkey : r.key = r'.key := by
        unfold Position.key
        rw [hacc, hacc', hsymbol, hside, show r.market_type = r'.market_type from hmt]
      have hf := Table.find_eq_some.mpr ⟨hr, hkey⟩
      have hf' := Table.find_eq_some.mpr ⟨hr', rfl⟩
      exact Option.some.inj (hf.symm.trans hf')
    · intro symbol side p hs hp
      have hlast := last_of_key hone hs hp
      have hq : assign_amounts account_id (entries pre) (quantities s.positions)
          (p.key account_id) = some p.position_amt.value := by
        rw [assign_amounts_apply, hlast]
        rfl
      obtain ⟨r, hr, hk, hqty⟩ := (mem_run_iff account_id s hc pre _ _).mpr hq
      simp only [Position.key, FuturesPosition.key, Prod.mk.injEq] at hk
      obtain ⟨h0, h1, -, h3⟩ := hk
      obtain ⟨hsym, hside⟩ := Prod.mk.inj (lastOf_eq_some hp).2
      exact ⟨r, hr, h0, h1.trans hsym, h3.trans hside, hqty⟩

/-- An entry of BTCUSDT with an amount and a margin type. -/
def btc_position (amt : Amount) (margin_type : String) : AccountEvent :=
  .account_update (some 1) []
    [⟨"BTCUSDT", none, amt, ⟨"0", 0, Decimal.decimal_zero⟩, ⟨"0", 0, Decimal.decimal_zero⟩,
      some margin_type⟩]

/-- A position that is opened and closed with one margin type. -/
theorem a_closed_position_is_one_row :
    PositionsAgree "acc" .empty [(0, btc_position ⟨"1", 1, Decimal.decimal_one⟩ "cross"),
      (1, btc_position ⟨"0", 0, Decimal.decimal_zero⟩ "cross")] :=
  (positions_agree_iff "acc" .empty (fun _ _ h => nomatch h) _).mpr
    (by unfold OneMarginType; decide +kernel) _ List.prefix_rfl

/-- A position that is opened as cross and closed as isolated has two rows, and the
first one stays open. -/
theorem a_closed_position_stays_open :
    ¬ PositionsAgree "acc" .empty [(0, btc_position ⟨"1", 1, Decimal.decimal_one⟩ "cross"),
      (1, btc_position ⟨"0", 0, Decimal.decimal_zero⟩ "isolated")] := by
  intro hf
  have hrows : (run "acc" .empty [(0, btc_position ⟨"1", 1, Decimal.decimal_one⟩ "cross"),
      (1, btc_position ⟨"0", 0, Decimal.decimal_zero⟩ "isolated")]).positions.rows =
      [⟨"acc", "BTCUSDT", "cross", "BOTH", 1, 0, 0, 1⟩,
        ⟨"acc", "BTCUSDT", "isolated", "BOTH", 0, 0, 0, 1⟩] := by decide +kernel
  have hone := hf.one
  rw [hrows] at hone
  have hsame := hone ⟨"acc", "BTCUSDT", "cross", "BOTH", 1, 0, 0, 1⟩ (by simp)
    ⟨"acc", "BTCUSDT", "isolated", "BOTH", 0, 0, 0, 1⟩ (by simp) rfl rfl rfl rfl
  exact absurd hsame (by decide)

end trading_platform.execution.account_stream
