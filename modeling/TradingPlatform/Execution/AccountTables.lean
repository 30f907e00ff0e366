-- The balances and positions of one exchange account. `AccountStateWriter`
-- upserts them from the events of the user data stream, and writes what is not
-- zero to a cache in Redis. `AccountStreamListener` hands it each event.
import TradingPlatform.Lib.Table
import TradingPlatform.Shared.Schemas

open keyed
open trading_platform.shared

namespace trading_platform.execution.account_stream

/-! ## The tables and the caches -/

structure Balance where
  account_id : Uuid
  asset : String
  free : ℚ
  locked : ℚ
  total : ℚ
  updated_at_ms : Nat
  deriving DecidableEq

structure Position where
  account_id : Uuid
  symbol : String
  market_type : String
  side : String
  quantity : ℚ
  entry_price : ℚ
  unrealized_pnl : ℚ
  updated_at_ms : Nat
  deriving DecidableEq

/-- The unique columns of a balance. -/
def Balance.key (b : Balance) : Uuid × String := (b.account_id, b.asset)

/-- The unique columns of a position. -/
def Position.key (p : Position) : Uuid × String × String × String :=
  (p.account_id, p.symbol, p.market_type, p.side)

structure CachedBalance where
  asset : String
  free : ℚ
  locked : ℚ
  total : ℚ
  updated_at_ms : Nat
  deriving DecidableEq

structure CachedPosition where
  symbol : String
  market_type : String
  side : String
  quantity : ℚ
  entry_price : ℚ
  unrealized_pnl : ℚ
  updated_at_ms : Nat
  deriving DecidableEq

/-- A key of Redis that was set with an expiry. -/
structure Cached (α : Type) where
  value : α
  expires_at : Nat

/-- What a reader finds under the key. -/
def liveAt {α : Type} (cached : Option (Cached α)) (now : Nat) : Option α :=
  match cached with
  | some c => if now < c.expires_at then some c.value else none
  | none => none

structure Store where
  balances : Table Balance Balance.key
  positions : Table Position Position.key
  live_balances : Option (Cached (List CachedBalance)) := none
  live_positions : Option (Cached (List CachedPosition)) := none

def Store.empty : Store := ⟨.empty, .empty, none, none⟩

def BALANCE_CACHE_TTL_S : Nat := 300
def POSITION_CACHE_TTL_S : Nat := 300

/-! ## The entries of an event -/

/-- A dict of texts. -/
abbrev Entry := List (String × String)

/-- `entry.get(field)`. -/
def Entry.get (e : Entry) (field : String) : Option String := (e.find? (·.1 = field)).map (·.2)

/-- `entry.get(field, default)`. -/
def Entry.getD (e : Entry) (field default : String) : String := (e.get field).getD default

/-- `entry.get(field) or entry.get(field', default)`. -/
def Entry.getOr (e : Entry) (field field' default : String) : String :=
  match e.get field with
  | some text => if text = "" then e.getD field' default else text
  | none => e.getD field' default

/-- `timestamp_ms or now`. -/
def stamp (timestamp_ms now : Nat) : Nat := if timestamp_ms = 0 then now else timestamp_ms

/-- What an amount column stores of a text. -/
def amount (text : String) : Except PyErr ℚ := Decimal.ofText text

/-- `str(Decimal(free) + Decimal(locked))`, or zero when a text is no number. -/
def total_of (free locked : String) : ℚ :=
  match Decimal.ofText free, Decimal.ofText locked with
  | .ok f, .ok l => f + l
  | _, _ => 0

/-! ## The writer -/

section Writer

variable (account_id : Uuid)

/-- One entry of the list of balances. -/
def upsert_balance (now_ms : Nat) (t : Table Balance Balance.key) (b : Entry) :
    Except PyErr (Table Balance Balance.key) :=
  let asset := b.getOr "a" "asset" ""
  let free := b.getOr "f" "free" "0"
  let locked := b.getOr "l" "locked" "0"
  if asset = "" then .ok t
  else
    let total := total_of free locked
    match amount free, amount locked with
    | .ok free, .ok locked =>
      .ok (t.upsert ⟨account_id, asset, free, locked, total, now_ms⟩
        (fun existing => { existing with
          free := free, locked := locked, total := total, updated_at_ms := now_ms })
        fun _ => rfl)
    | .error e, _ => .error e
    | _, .error e => .error e

/-- The balances that are not zero. -/
def cache_balances (t : Table Balance Balance.key) : List CachedBalance :=
  ((t.rows.filter fun r => r.account_id = account_id).filter fun r => 0 < r.total).map fun r =>
    ⟨r.asset, r.free, r.locked, r.total, r.updated_at_ms⟩

/-- All entries are committed together. -/
def upsert_balances (now timestamp_ms : Nat) (balances : List Entry) (s : Store) :
    Except PyErr Unit × Store :=
  match balances.foldlM (upsert_balance account_id (stamp timestamp_ms now)) s.balances with
  | .error e => (.error e, s)
  | .ok t => (.ok (), { s with
      balances := t
      live_balances := some ⟨cache_balances account_id t, now + 1000 * BALANCE_CACHE_TTL_S⟩ })

/-- One entry of the list of positions. -/
def upsert_position (now_ms : Nat) (t : Table Position Position.key) (p : Entry) :
    Except PyErr (Table Position Position.key) :=
  let symbol := p.getD "s" ""
  let market_type := p.getD "mt" "futures"
  let side := p.getD "ps" "BOTH"
  let qty := p.getD "pa" "0"
  let entry_price := p.getD "ep" "0"
  let unrealized_pnl := p.getD "up" "0"
  if symbol = "" then .ok t
  else
    match amount qty, amount entry_price, amount unrealized_pnl with
    | .ok qty, .ok entry_price, .ok unrealized_pnl =>
      .ok (t.upsert
        ⟨account_id, symbol, market_type, side, qty, entry_price, unrealized_pnl, now_ms⟩
        (fun existing => { existing with
          quantity := qty, entry_price := entry_price, unrealized_pnl := unrealized_pnl
          updated_at_ms := now_ms })
        fun _ => rfl)
    | .error e, _, _ => .error e
    | _, .error e, _ => .error e
    | _, _, .error e => .error e

/-- The positions that are not zero. -/
def cache_positions (t : Table Position Position.key) : List CachedPosition :=
  ((t.rows.filter fun r => r.account_id = account_id).filter fun r => r.quantity ≠ 0).map fun r =>
    ⟨r.symbol, r.market_type, r.side, r.quantity, r.entry_price, r.unrealized_pnl, r.updated_at_ms⟩

/-- All entries are committed together. -/
def upsert_positions (now timestamp_ms : Nat) (positions : List Entry) (s : Store) :
    Except PyErr Unit × Store :=
  match positions.foldlM (upsert_position account_id (stamp timestamp_ms now)) s.positions with
  | .error e => (.error e, s)
  | .ok t => (.ok (), { s with
      positions := t
      live_positions := some ⟨cache_positions account_id t, now + 1000 * POSITION_CACHE_TTL_S⟩ })

/-! ## The listener -/

/-- The payloads of the three events of balances and positions. `E` is the time of
the event, which may be missing. -/
inductive Payload where
  | outboundAccountPosition (E : Option Nat) (B : List Entry)
  | balanceUpdate (E : Option Nat) (a d : String)
  | ACCOUNT_UPDATE (E : Option Nat) (B P : List Entry)

def handle_event (now : Nat) (payload : Payload) (s : Store) : Except PyErr Unit × Store :=
  match payload with
  | .outboundAccountPosition E B => upsert_balances account_id now (E.getD now) B s
  | .balanceUpdate E asset delta =>
    if asset = "" then (.ok (), s)
    else upsert_balances account_id now (E.getD now) [[("a", asset), ("f", delta), ("l", "0")]] s
  | .ACCOUNT_UPDATE E balances positions =>
    let ts_ms := E.getD now
    match if balances.isEmpty then (.ok (), s)
      else upsert_balances account_id now ts_ms balances s with
    | (.error e, s) => (.error e, s)
    | (.ok (), s) =>
      if positions.isEmpty then (.ok (), s)
      else upsert_positions account_id now ts_ms positions s

end Writer

/-! ## The events of the exchange -/

/-- The text of a decimal. -/
structure Amount where
  text : String
  value : ℚ
  parses : Decimal.ofText text = .ok value

/-- An entry of an outboundAccountPosition. -/
structure SpotBalance where
  asset : String
  free : Amount
  locked : Amount

def SpotBalance.entry (b : SpotBalance) : Entry :=
  [("a", b.asset), ("f", b.free.text), ("l", b.locked.text)]

/-- A balance entry of an ACCOUNT_UPDATE. -/
structure FuturesBalance where
  asset : String
  wallet_balance : Amount
  cross_wallet_balance : Amount
  balance_change : Amount

def FuturesBalance.entry (b : FuturesBalance) : Entry :=
  [("a", b.asset), ("wb", b.wallet_balance.text), ("cw", b.cross_wallet_balance.text),
    ("bc", b.balance_change.text)]

/-- A position entry of an ACCOUNT_UPDATE. Its position side and its margin type may
be missing. -/
structure FuturesPosition where
  symbol : String
  position_side : Option String
  position_amt : Amount
  entry_price : Amount
  unrealized_pnl : Amount
  margin_type : Option String

def FuturesPosition.entry (p : FuturesPosition) : Entry :=
  [("s", p.symbol), ("pa", p.position_amt.text), ("ep", p.entry_price.text),
    ("up", p.unrealized_pnl.text)] ++
    (p.margin_type.map fun mt => ("mt", mt)).toList ++
    (p.position_side.map fun ps => ("ps", ps)).toList

inductive AccountEvent where
  | outbound_account_position (E : Option Nat) (B : List SpotBalance)
  | balance_update (E : Option Nat) (asset : String) (delta : Amount)
  | account_update (E : Option Nat) (B : List FuturesBalance) (P : List FuturesPosition)

def AccountEvent.payload : AccountEvent → Payload
  | .outbound_account_position E B => .outboundAccountPosition E (B.map (·.entry))
  | .balance_update E asset delta => .balanceUpdate E asset delta.text
  | .account_update E B P => .ACCOUNT_UPDATE E (B.map (·.entry)) (P.map (·.entry))

/-- The listener takes one event after the other; an error of one of them is
logged. Each comes with the time of its arrival. -/
def run (account_id : Uuid) (s : Store) (events : List (Nat × AccountEvent)) : Store :=
  events.foldl (fun s e => (handle_event account_id e.1 e.2.payload s).2) s

theorem run_snoc (account_id : Uuid) (s : Store) (events : List (Nat × AccountEvent))
    (e : Nat × AccountEvent) :
    run account_id s (events ++ [e]) =
      (handle_event account_id e.1 e.2.payload (run account_id s events)).2 := by
  simp [run, List.foldl_append]

theorem Amount.text_ne_empty (x : Amount) : x.text ≠ "" := by
  intro he
  have h := x.parses
  rw [he] at h
  cases h

end trading_platform.execution.account_stream
