-- The hot state of an account: what the normalizer writes for the events of the user data
-- stream. Each event overwrites a key of the user with the entries that it carries, so the
-- keys agree with the events only where an event repeats all that came before it.
import TradingPlatform.Lib.Latest
import TradingPlatform.Normalizer.OrderBook

open keyed
open trading_platform.shared

namespace trading_platform.normalizer

/-! ## User data events -/

/-- The object `o` of `ORDER_TRADE_UPDATE`, with the defaults of its keys. -/
structure OrderPayload where
  s : String := ""
  c : String := ""
  i : String := ""
  S : String := ""
  o : String := ""
  X : String := ""
  p : String := "0"
  q : String := "0"
  z : String := "0"
  ap : String := "0"
  R : Bool := false
  ps : String := "BOTH"
  sp : String := "0"
  f : String := "GTC"
  n : String := "0"
  N : String := ""
  rp : String := "0"
  m : Bool := false
  T : Option Int := none

/-- An entry of `B` of `ACCOUNT_UPDATE`. -/
structure BalancePayload where
  a : String := ""
  wb : String := "0"
  cw : String := "0"
  bc : String := "0"

/-- An entry of `P` of `ACCOUNT_UPDATE`. -/
structure PositionPayload where
  s : String := ""
  ps : String := "BOTH"
  pa : String := "0"
  ep : String := "0"
  up : String := "0"
  cr : String := "0"
  mt : String := ""
  iw : String := "0"

/-- The payload of `ACCOUNT_UPDATE`: its time, and the object `a`. -/
structure AccountPayload where
  E : Option Int := none
  m : String := ""
  B : List BalancePayload := []
  P : List PositionPayload := []

inductive UserPayload where
  | order_trade_update (o : OrderPayload)
  | account_update (a : AccountPayload)

/-- A raw event of the private stream. Its source stream is named after its payload. -/
structure UserEvent where
  market_type : MarketType
  received_ms : Int
  payload : UserPayload

def UserEvent.source_stream (event : UserEvent) : String :=
  match event.payload with
  | .order_trade_update _ => "user_data.ORDER_TRADE_UPDATE"
  | .account_update _ => "user_data.ACCOUNT_UPDATE"

/-! ## Normalized events and hot state -/

structure UserOrderData where
  client_order_id : String
  exchange_order_id : String
  side : String
  order_type : String
  order_status : String
  price : String
  orig_qty : String
  filled_qty : String
  avg_price : String
  reduce_only : Bool
  position_side : String
  stop_price : String
  time_in_force : String
  trade_time_ms : Int
  commission : String
  commission_asset : String
  realized_pnl : String
  is_maker : Bool

structure Balance where
  asset : String
  wallet_balance : String
  cross_wallet_balance : String
  balance_change : String
  deriving DecidableEq

structure Position where
  symbol : String
  position_side : String
  position_amt : String
  entry_price : String
  unrealized_pnl : String
  accumulated_realized : String
  margin_type : String
  isolated_wallet : String
  deriving DecidableEq

structure AccountUpdateData where
  reason : String
  balances : List Balance
  positions : List Position

inductive UserEventData where
  | user_order (d : UserOrderData)
  | account_update (d : AccountUpdateData)

structure NormalizedUserEvent where
  market_type : MarketType
  symbol : String
  timestamp_ms : Int
  received_ms : Int
  source_stream : String
  data : UserEventData

/-- The document under the open-orders key. -/
structure OpenOrder where
  symbol : String
  client_order_id : String
  exchange_order_id : String
  side : String
  status : String
  price : String
  orig_qty : String
  filled_qty : String
  ts : Int
  deriving DecidableEq

/-- The JSON documents of the account keys. -/
inductive HotValue where
  | open_order (o : OpenOrder)
  | balances (balances : List Balance) (ts : Int)
  | positions (positions : List Position) (ts : Int)

structure AccountWrite where
  key : String
  value : HotValue
  ttl_s : Option Nat

structure UserResult where
  event : NormalizedUserEvent
  hot_writes : List AccountWrite := []

def RedisKeys.account_balances (user_id : String) : String := "account:" ++ user_id ++ ":balances"

def RedisKeys.account_positions (user_id : String) : String := "account:" ++ user_id ++ ":positions"

def RedisKeys.account_open_orders (user_id : String) : String :=
  "account:" ++ user_id ++ ":open_orders"

/-! ## Handlers -/

def ACCOUNT_TTL_S : Nat := 300

def OPEN_STATUSES : List String := ["NEW", "PARTIALLY_FILLED"]

def missing_symbol : PyErr := ⟨"NormalizeError", "user_order: missing symbol in payload"⟩

def OrderPayload.open_order (o : OrderPayload) (ts : Int) : OpenOrder where
  symbol := normalize_symbol o.s
  client_order_id := o.c
  exchange_order_id := o.i
  side := o.S
  status := o.X
  price := o.p
  orig_qty := o.q
  filled_qty := o.z
  ts

def handle_user_order (event : UserEvent) (o : OrderPayload) (user_id : String) :
    Except PyErr UserResult := do
  let symbol := if o.s = "" then "" else normalize_symbol o.s
  if symbol = "" then throw missing_symbol
  let trade_time_ms := o.T.getD event.received_ms
  return {
    event := {
      market_type := event.market_type
      symbol
      timestamp_ms := trade_time_ms
      received_ms := event.received_ms
      source_stream := event.source_stream
      data := .user_order {
        client_order_id := o.c
        exchange_order_id := o.i
        side := o.S
        order_type := o.o
        order_status := o.X
        price := o.p
        orig_qty := o.q
        filled_qty := o.z
        avg_price := o.ap
        reduce_only := o.R
        position_side := o.ps
        stop_price := o.sp
        time_in_force := o.f
        trade_time_ms
        commission := o.n
        commission_asset := o.N
        realized_pnl := o.rp
        is_maker := o.m } }
    hot_writes :=
      if user_id ≠ "" ∧ o.X ∈ OPEN_STATUSES then [{
        key := RedisKeys.account_open_orders user_id
        value := .open_order (o.open_order trade_time_ms)
        ttl_s := some ACCOUNT_TTL_S }]
      else [] }

def BalancePayload.balance (b : BalancePayload) : Balance where
  asset := b.a
  wallet_balance := b.wb
  cross_wallet_balance := b.cw
  balance_change := b.bc

def PositionPayload.position (p : PositionPayload) : Position where
  symbol := p.s
  position_side := p.ps
  position_amt := p.pa
  entry_price := p.ep
  unrealized_pnl := p.up
  accumulated_realized := p.cr
  margin_type := p.mt
  isolated_wallet := p.iw

def handle_account_update (event : UserEvent) (a : AccountPayload) (user_id : String) :
    UserResult :=
  let event_ms := a.E.getD event.received_ms
  let balances := a.B.map BalancePayload.balance
  let positions := a.P.map PositionPayload.position
  { event := {
      market_type := event.market_type
      symbol := ""
      timestamp_ms := event_ms
      received_ms := event.received_ms
      source_stream := event.source_stream
      data := .account_update { reason := a.m, balances, positions } }
    hot_writes :=
      if user_id ≠ "" then
        [{ key := RedisKeys.account_balances user_id
           value := .balances balances event_ms
           ttl_s := some ACCOUNT_TTL_S },
         { key := RedisKeys.account_positions user_id
           value := .positions positions event_ms
           ttl_s := some ACCOUNT_TTL_S }]
      else [] }

/-- The private branches of `route`. -/
def route_user (event : UserEvent) (user_id : String) : Except PyErr UserResult :=
  match event.payload with
  | .order_trade_update o => handle_user_order event o user_id
  | .account_update a => .ok (handle_account_update event a user_id)

/-! ## The consumer -/

/-- The account keys. They do not expire here. -/
abbrev HotState := String → Option HotValue

/-- `HotStateWriter.write_all`. -/
def HotState.write_all (hot : HotState) (writes : List AccountWrite) : HotState :=
  writes.foldl (fun hot w => Function.update hot w.key (some w.value)) hot

/-- What the handling of an event leaves. An event that a handler refuses is acknowledged
like the others. -/
def HotState.process (hot : HotState) (user_id : String) (event : UserEvent) : HotState :=
  match route_user event user_id with
  | .ok result => hot.write_all result.hot_writes
  | .error _ => hot

def hot_after (user_id : String) (events : List UserEvent) : HotState :=
  events.foldl (fun hot event => hot.process user_id event) fun _ => none

/-! ## What the events report -/

/-- The order that an event reports. An update that names no symbol reports none. -/
def order_report (event : UserEvent) : Option OpenOrder :=
  match event.payload with
  | .order_trade_update o =>
    if o.s = "" ∨ normalize_symbol o.s = "" then none
    else some (o.open_order (o.T.getD event.received_ms))
  | .account_update _ => none

def balance_report (event : UserEvent) : Option (List Balance) :=
  match event.payload with
  | .order_trade_update _ => none
  | .account_update a => some (a.B.map BalancePayload.balance)

def position_report (event : UserEvent) : Option (List Position) :=
  match event.payload with
  | .order_trade_update _ => none
  | .account_update a => some (a.P.map PositionPayload.position)

def OpenOrder.is_open (o : OpenOrder) : Bool := OPEN_STATUSES.contains o.status

def Position.name (p : Position) : String × String := (p.symbol, p.position_side)

/-- The orders that the open-orders key lists. -/
def HotState.open_orders (hot : HotState) (user_id : String) : Option OpenOrder :=
  match hot (RedisKeys.account_open_orders user_id) with
  | some (.open_order o) => some o
  | _ => none

def HotState.balances (hot : HotState) (user_id : String) : List Balance :=
  match hot (RedisKeys.account_balances user_id) with
  | some (.balances balances _) => balances
  | _ => []

def HotState.positions (hot : HotState) (user_id : String) : List Position :=
  match hot (RedisKeys.account_positions user_id) with
  | some (.positions positions _) => positions
  | _ => []

section Fold

variable {κ : Type} [DecidableEq κ] (identity : OpenOrder → κ)

/-- The keys of a user say what the events reported last. `identity` tells orders apart. -/
structure Current (user_id : String) (hot : HotState) (events : List UserEvent) : Prop where
  open_orders : ∀ o, o ∈ hot.open_orders user_id ↔
    lastOf identity (events.filterMap order_report) (identity o) = some o ∧ o.is_open = true
  balances : ∀ asset, lastOf Balance.asset (hot.balances user_id) asset =
    lastOf Balance.asset (events.filterMap balance_report).flatten asset
  positions : ∀ name, lastOf Position.name (hot.positions user_id) name =
    lastOf Position.name (events.filterMap position_report).flatten name

/-- Every event repeats all that is to be kept of the events before it. -/
structure RepeatsAll (events : List UserEvent) : Prop where
  orders : (events.filterMap order_report).Pairwise (KeepsFlag identity OpenOrder.is_open)
  balances : (events.filterMap balance_report).Pairwise (Covers Balance.asset)
  positions : (events.filterMap position_report).Pairwise (Covers Position.name)

end Fold

/-! ## One event -/

section Laws

variable {user_id : String}

theorem open_orders_ne_balances :
    RedisKeys.account_open_orders user_id ≠ RedisKeys.account_balances user_id := by
  intro h
  have hlist := congrArg String.toList h
  simp [RedisKeys.account_open_orders, RedisKeys.account_balances] at hlist

theorem open_orders_ne_positions :
    RedisKeys.account_open_orders user_id ≠ RedisKeys.account_positions user_id := by
  intro h
  have hlist := congrArg String.toList h
  simp [RedisKeys.account_open_orders, RedisKeys.account_positions] at hlist

theorem balances_ne_positions :
    RedisKeys.account_balances user_id ≠ RedisKeys.account_positions user_id := by
  intro h
  have hlist := congrArg String.toList h
  simp [RedisKeys.account_balances, RedisKeys.account_positions] at hlist

/-- An update of an order writes the open-orders key, if its status is an open one. -/
theorem process_order {event : UserEvent} {o : OrderPayload}
    (hpayload : event.payload = .order_trade_update o) (huser : user_id ≠ "") (hot : HotState) :
    hot.process user_id event =
      match order_report event with
      | some report =>
        if report.is_open then
          Function.update hot (RedisKeys.account_open_orders user_id) (some (.open_order report))
        else hot
      | none => hot := by
  unfold HotState.process route_user order_report
  rw [hpayload]
  dsimp only
  unfold handle_user_order
  by_cases hsymbol : o.s = ""
  · simp [hsymbol, bind, Except.bind, throw, throwThe, MonadExceptOf.throw]
  · by_cases hnormal : normalize_symbol o.s = ""
    · simp [hsymbol, hnormal, bind, Except.bind, throw, throwThe, MonadExceptOf.throw]
    · by_cases hstatus : o.X ∈ OPEN_STATUSES
      · simp [hsymbol, hnormal, hstatus, huser, pure, Except.pure, HotState.write_all,
          OpenOrder.is_open, OrderPayload.open_order]
      · simp [hsymbol, hnormal, hstatus, pure, Except.pure, HotState.write_all,
          OpenOrder.is_open, OrderPayload.open_order]

theorem process_account {event : UserEvent} {a : AccountPayload}
    (hpayload : event.payload = .account_update a) (huser : user_id ≠ "") (hot : HotState) :
    hot.process user_id event =
      Function.update
        (Function.update hot (RedisKeys.account_balances user_id)
          (some (.balances (a.B.map BalancePayload.balance) (a.E.getD event.received_ms))))
        (RedisKeys.account_positions user_id)
        (some (.positions (a.P.map PositionPayload.position) (a.E.getD event.received_ms))) := by
  unfold HotState.process route_user
  rw [hpayload]
  simp [handle_account_update, HotState.write_all, huser]

theorem process_open_orders (huser : user_id ≠ "") (hot : HotState) (event : UserEvent) :
    (hot.process user_id event).open_orders user_id =
      match order_report event with
      | some report => if report.is_open then some report else hot.open_orders user_id
      | none => hot.open_orders user_id := by
  cases hpayload : event.payload with
  | order_trade_update o =>
    rw [process_order hpayload huser]
    cases order_report event with
    | none => rfl
    | some report =>
      dsimp only
      split
      · simp [HotState.open_orders]
      · rfl
  | account_update a =>
    rw [process_account hpayload huser]
    have hnone : order_report event = none := by
      unfold order_report
      rw [hpayload]
    rw [hnone]
    unfold HotState.open_orders
    rw [Function.update_of_ne open_orders_ne_positions,
      Function.update_of_ne open_orders_ne_balances]

/-- An update of an order leaves the other keys. -/
theorem process_order_other {event : UserEvent} {o : OrderPayload}
    (hpayload : event.payload = .order_trade_update o) (huser : user_id ≠ "") (hot : HotState)
    {key : String} (hkey : key ≠ RedisKeys.account_open_orders user_id) :
    hot.process user_id event key = hot key := by
  rw [process_order hpayload huser]
  cases order_report event with
  | none => rfl
  | some report =>
    dsimp only
    split
    · exact Function.update_of_ne hkey _ _
    · rfl

theorem process_balances (huser : user_id ≠ "") (hot : HotState) (event : UserEvent) :
    (hot.process user_id event).balances user_id =
      (balance_report event).getD (hot.balances user_id) := by
  unfold balance_report HotState.balances
  cases hpayload : event.payload with
  | order_trade_update o =>
    rw [process_order_other hpayload huser hot open_orders_ne_balances.symm]
    rfl
  | account_update a =>
    rw [process_account hpayload huser, Function.update_of_ne balances_ne_positions,
      Function.update_self]
    rfl

theorem process_positions (huser : user_id ≠ "") (hot : HotState) (event : UserEvent) :
    (hot.process user_id event).positions user_id =
      (position_report event).getD (hot.positions user_id) := by
  unfold position_report HotState.positions
  cases hpayload : event.payload with
  | order_trade_update o =>
    rw [process_order_other hpayload huser hot open_orders_ne_positions.symm]
    rfl
  | account_update a =>
    rw [process_account hpayload huser, Function.update_self]
    rfl

/-! ## Runs -/

theorem hot_after_snoc (events : List UserEvent) (event : UserEvent) :
    hot_after user_id (events ++ [event]) = (hot_after user_id events).process user_id event := by
  simp [hot_after]

/-- The open-orders key has the last order that was reported open. -/
theorem open_orders_after (huser : user_id ≠ "") (events : List UserEvent) :
    (hot_after user_id events).open_orders user_id =
      ((events.filterMap order_report).filter OpenOrder.is_open).getLast? := by
  induction events using List.reverseRecOn with
  | nil => rfl
  | append_singleton events event ih =>
    rw [hot_after_snoc, process_open_orders huser, ih, List.filterMap_append]
    cases hreport : order_report event with
    | none => simp [hreport]
    | some report =>
      by_cases hopen : report.is_open = true
      · simp [hreport, hopen]
      · simp [hreport, hopen]

/-- The balances key has the last batch. -/
theorem balances_after (huser : user_id ≠ "") (events : List UserEvent) :
    (hot_after user_id events).balances user_id =
      (events.filterMap balance_report).getLast?.getD [] :=
  foldl_last_report (fun hot event => HotState.process hot user_id event)
    (fun hot => HotState.balances hot user_id) (process_balances huser) (fun _ => none) events

theorem positions_after (huser : user_id ≠ "") (events : List UserEvent) :
    (hot_after user_id events).positions user_id =
      (events.filterMap position_report).getLast?.getD [] :=
  foldl_last_report (fun hot event => HotState.process hot user_id event)
    (fun hot => HotState.positions hot user_id) (process_positions huser) (fun _ => none) events

end Laws

/-- After each event the keys of the user are the fold of the events exactly where every
event repeats what is to be kept of the events before it. -/
theorem hot_state_is_fold_iff {κ : Type} [DecidableEq κ] (identity : OpenOrder → κ)
    (user_id : String) (events : List UserEvent) (huser : user_id ≠ "") :
    (∀ before, before <+: events → Current identity user_id (hot_after user_id before) before) ↔
      RepeatsAll identity events := by
  have horders := @forall_prefix_filterMap _ _ order_report (Shows identity OpenOrder.is_open)
    events
  have hbalances := @forall_prefix_filterMap _ _ balance_report
    (fun pre => ∀ k, lastOf Balance.asset (pre.getLast?.getD []) k =
      lastOf Balance.asset pre.flatten k) events
  have hpositions := @forall_prefix_filterMap _ _ position_report
    (fun pre => ∀ k, lastOf Position.name (pre.getLast?.getD []) k =
      lastOf Position.name pre.flatten k) events
  rw [shows_iff] at horders
  rw [last_batch_iff] at hbalances hpositions
  constructor
  · intro h
    refine ⟨horders.mp fun before hbefore o => ?_, hbalances.mp fun before hbefore asset => ?_,
      hpositions.mp fun before hbefore name => ?_⟩
    · rw [← open_orders_after huser]
      exact (h before hbefore).open_orders o
    · rw [← balances_after huser]
      exact (h before hbefore).balances asset
    · rw [← positions_after huser]
      exact (h before hbefore).positions name
  · intro h before hbefore
    refine ⟨fun o => ?_, fun asset => ?_, fun name => ?_⟩
    · rw [open_orders_after huser]
      exact horders.mpr h.orders before hbefore o
    · rw [balances_after huser]
      exact hbalances.mpr h.balances before hbefore asset
    · rw [positions_after huser]
      exact hpositions.mpr h.positions before hbefore name

/-- An update of an order of BTCUSDT. -/
def order_event (c X : String) : UserEvent where
  market_type := .futures
  received_ms := 1
  payload := .order_trade_update { s := "BTCUSDT", c, X }

/-- An order that stays open is listed. -/
theorem a_partial_fill_is_listed :
    "u1" ≠ "" ∧
      ∀ before, before <+: [order_event "c1" "NEW", order_event "c1" "PARTIALLY_FILLED"] →
        Current OpenOrder.client_order_id "u1" (hot_after "u1" before) before :=
  ⟨by decide, (hot_state_is_fold_iff OpenOrder.client_order_id "u1"
    [order_event "c1" "NEW", order_event "c1" "PARTIALLY_FILLED"] (by decide)).mpr
    { orders := by decide +kernel
      balances := List.Pairwise.nil
      positions := List.Pairwise.nil }⟩

/-- What the update of a new order reports. -/
def new_order : OpenOrder where
  symbol := "BTCUSDT"
  client_order_id := "c1"
  exchange_order_id := ""
  side := ""
  status := "NEW"
  price := "0"
  orig_qty := "0"
  filled_qty := "0"
  ts := 1

/-- An order that was filled stays listed. -/
theorem a_filled_order_is_listed :
    ¬ ∀ before, before <+: [order_event "c1" "NEW", order_event "c1" "FILLED"] →
      Current OpenOrder.client_order_id "u1" (hot_after "u1" before) before := by
  intro h
  have hlisted : (hot_after "u1" [order_event "c1" "NEW", order_event "c1" "FILLED"]).open_orders
      "u1" = some new_order := by decide +kernel
  obtain ⟨hlast, -⟩ := ((h _ (List.prefix_refl _)).open_orders new_order).mp hlisted
  exact absurd hlast (by decide +kernel)

end trading_platform.normalizer
