-- The tables of the execution service and the methods of
-- `ExecutionRepository`. Each method is one transaction: it gives its value
-- and the new tables, or it raises and the tables stay as they were.
import TradingPlatform.Shared.Redis
import TradingPlatform.Execution.Lifecycle

open trading_platform.shared

namespace trading_platform.execution

/-! ## Rows -/

/-- What any execution adapter returns. -/
structure AdapterResponse where
  success : Bool
  client_order_id : String
  exchange_order_id : Option String := none
  fill_price : Option ℚ := none
  fill_quantity : Option ℚ := none
  commission : Option ℚ := none
  commission_asset : String := "USDT"
  error : Option String := none
  deriving Inhabited

structure ExchangeAccount where
  id : Uuid
  user_id : String
  trading_mode : String := "paper"
  approval_level : String := "l0_readonly"

structure ApprovalLevelRecord where
  account_id : Uuid
  level : String := "l0_readonly"
  allowed_symbols : Option (List String) := none
  denied_symbols : List String := []
  paper_only : Bool := true

structure RiskPolicy where
  account_id : Uuid
  max_position_size_usd : ℚ := 1000
  max_daily_loss_usd : ℚ := 500
  max_concurrent_positions : Int := 3
  symbol_cooldown_seconds : Int := 300

structure ApiCredentialRef where
  account_id : Uuid

structure ExecutionJob where
  id : Uuid
  account_id : Uuid
  trade_intent_id : Uuid
  strategy_id : Option Uuid
  trading_mode : String
  status : JobStatus
  deterministic_client_order_id : String
  symbol : String
  market_type : String
  side : String
  intent_json : TradeIntent
  result_json : Option Json := none
  error : Option String := none

/-- A row of `execution_events`, written together with each job status. Its
`event_type` is `job_` and the status. -/
structure ExecutionEvent where
  job_id : Uuid
  status : JobStatus
  data : Json
  timestamp_ms : Nat

def ExecutionEvent.event_type (e : ExecutionEvent) : String := s!"job_{e.status.value}"

structure Order where
  id : Nat
  account_id : Uuid
  job_id : Option Uuid := none
  exchange_order_id : Option String
  client_order_id : String
  symbol : String
  market_type : String
  side : String
  order_type : String
  status : String
  quantity : ℚ
  filled_qty : ℚ
  price : Option ℚ := none
  avg_fill_price : Option ℚ := none
  reduce_only : Bool := false
  time_in_force : String := "GTC"
  created_at_ms : Nat
  updated_at_ms : Nat
  deriving DecidableEq

structure Fill where
  order_id : Nat
  account_id : Uuid
  exchange_trade_id : String
  symbol : String
  side : String
  price : ℚ
  qty : ℚ
  quote_qty : ℚ
  commission : ℚ := 0
  commission_asset : String := "USDT"
  realized_pnl : Option ℚ := none
  is_maker : Bool := false
  timestamp_ms : Nat
  deriving DecidableEq

structure Position where
  account_id : Uuid
  symbol : String
  market_type : String
  side : String
  quantity : ℚ

structure IncidentLog where
  incident_type : String
  severity : String
  description : String
  job_id : Option Uuid
  strategy_id : Option Uuid
  context : Json

structure Db where
  accounts : List ExchangeAccount
  approvals : List ApprovalLevelRecord
  policies : List RiskPolicy
  credentials : List ApiCredentialRef
  jobs : List ExecutionJob
  events : List ExecutionEvent
  orders : List Order
  fills : List Fill
  positions : List Position
  incidents : List IncidentLog
  /-- The source of the keys and UUIDs that the service draws. -/
  next_id : Nat

def Db.empty : Db := ⟨[], [], [], [], [], [], [], [], [], [], 0⟩

/-! ## The methods of the repository -/

/-- A transaction: its value and the new tables, or an exception. -/
abbrev Txn (α : Type) := Db → Except PyErr (α × Db)

def integrity_error (constraint : String) : PyErr := ⟨"IntegrityError", constraint⟩

/-- `uuid.UUID(request.account_id) if request.account_id else uuid.uuid4()`. A
fresh UUID is the id of no account, so the insert that uses it fails. -/
def account_uuid (db : Db) (request : ExecutionRequest) : Except PyErr Uuid :=
  if request.account_id = "" then .error (integrity_error "account_id")
  else match UUID request.account_id with
    | .error e => .error e
    | .ok u =>
      if db.accounts.any (·.id = u) then .ok u else .error (integrity_error "account_id")

def create_job (now : Nat) (job_id : Uuid) (request : ExecutionRequest) (client_order_id : String) :
    Txn Unit := fun db =>
  match account_uuid db request with
  | .error e => .error e
  | .ok account_id =>
    if db.jobs.any (·.id = job_id) then .error (integrity_error "execution_jobs_pkey")
    else if db.jobs.any (·.deterministic_client_order_id = client_order_id) then
      .error (integrity_error "deterministic_client_order_id")
    else .ok ((), { db with
      jobs := db.jobs ++ [{
        id := job_id
        account_id
        trade_intent_id := request.trade_intent.intent_id
        strategy_id := request.trade_intent.strategy_id
        trading_mode := request.trading_mode.value
        status := .queued
        deterministic_client_order_id := client_order_id
        symbol := request.trade_intent.symbol
        market_type := request.trade_intent.market_type.value
        side := request.trade_intent.side.value
        intent_json := request.trade_intent }]
      events := db.events ++ [{
        job_id
        status := .queued
        data := .obj [("client_order_id", .str client_order_id)]
        timestamp_ms := now }] })

def get_job_by_client_order_id (client_order_id : String) : Txn (Option ExecutionJob) := fun db =>
  .ok (db.jobs.find? (·.deterministic_client_order_id = client_order_id), db)

/-- The row of a job after a status write. -/
def ExecutionJob.written (job : ExecutionJob) (new_status : JobStatus) (result_json : Option Json)
    (error : Option String) : ExecutionJob :=
  { job with
    status := new_status
    result_json := result_json.or job.result_json
    error := error.or job.error }

/-- Writes the status without a look at the one that is there. -/
def update_job_status (now : Nat) (job_id : Uuid) (new_status : JobStatus)
    (event_data result_json : Option Json) (error : Option String) : Txn Unit := fun db =>
  if db.jobs.any (·.id = job_id) then
    .ok ((), { db with
      jobs := db.jobs.map fun job =>
        if job.id = job_id then job.written new_status result_json error else job
      events := db.events ++ [{
        job_id
        status := new_status
        data := event_data.getD (.obj [])
        timestamp_ms := now }] })
  else .ok ((), db)

def create_order (now : Nat) (job_id : Uuid) (request : ExecutionRequest)
    (client_order_id : String) (response : AdapterResponse) : Txn Nat := fun db =>
  match account_uuid db request with
  | .error e => .error e
  | .ok account_id =>
    if ¬ db.jobs.any (·.id = job_id) then .error (integrity_error "job_id")
    else if db.orders.any (·.client_order_id = client_order_id) then
      .error (integrity_error "client_order_id")
    else
      let intent := request.trade_intent
      .ok (db.next_id, { db with
        next_id := db.next_id + 1
        orders := db.orders ++ [{
          id := db.next_id
          account_id
          job_id := some job_id
          exchange_order_id := response.exchange_order_id
          client_order_id
          symbol := intent.symbol
          market_type := intent.market_type.value
          side := intent.side.value
          order_type := intent.order_type.value
          status := if response.success then "FILLED" else "FAILED"
          quantity := intent.size
          filled_qty := response.fill_quantity.getD 0
          price := intent.limit_price.filter (· ≠ 0)
          avg_fill_price := response.fill_price.filter (· ≠ 0)
          reduce_only := intent.reduce_only
          time_in_force := intent.time_in_force.value
          created_at_ms := now
          updated_at_ms := now }] })

/-- Adds a fill row under the foreign keys and `uq_fills_account_trade`. -/
def add_fill (fill : Fill) : Txn Unit := fun db =>
  if ¬ db.orders.any (·.id = fill.order_id) then .error (integrity_error "order_id")
  else if ¬ db.accounts.any (·.id = fill.account_id) then .error (integrity_error "account_id")
  else if db.fills.any (fun f => f.account_id = fill.account_id ∧
      f.exchange_trade_id = fill.exchange_trade_id) then
    .error (integrity_error "uq_fills_account_trade")
  else .ok ((), { db with fills := db.fills ++ [fill] })

/-- `str(uuid.uuid4())`, drawn from the counter of the tables. -/
def fresh_uuid (db : Db) : String := s!"uuid4-{db.next_id}"

/-- `response.exchange_order_id or str(uuid.uuid4())`. -/
def fill_trade_id (db : Db) (response : AdapterResponse) : String :=
  match response.exchange_order_id with
  | some oid => if oid = "" then fresh_uuid db else oid
  | none => fresh_uuid db

def save_fill (now : Nat) (order_id : Nat) (request : ExecutionRequest)
    (response : AdapterResponse) : Txn Unit := fun db =>
  match response.fill_price, response.fill_quantity with
  | some fill_price, some fill_qty =>
    if fill_price = 0 ∨ fill_qty = 0 then .ok ((), db)
    else
      match Decimal.quantize 8 (fill_qty * fill_price), account_uuid db request with
      | .error e, _ => .error e
      | _, .error e => .error e
      | .ok quote_qty, .ok account_id =>
        add_fill {
          order_id
          account_id
          exchange_trade_id := fill_trade_id db response
          symbol := request.trade_intent.symbol
          side := request.trade_intent.side.value
          price := fill_price
          qty := fill_qty
          quote_qty
          commission := response.commission.getD 0
          commission_asset := response.commission_asset
          timestamp_ms := now } { db with next_id := db.next_id + 1 }
  | _, _ => .ok ((), db)

def get_order_by_client_order_id (client_order_id : String) : Txn (Option Order) := fun db =>
  .ok (db.orders.find? (·.client_order_id = client_order_id), db)

def get_fill_by_exchange_trade_id (account_id : Uuid) (exchange_trade_id : String) :
    Txn (Option Fill) := fun db =>
  .ok (db.fills.find? (fun f =>
    f.account_id = account_id ∧ f.exchange_trade_id = exchange_trade_id), db)

/-- The arguments of `insert_fill`. -/
structure FillArgs where
  order_id : Nat
  account_id : Uuid
  exchange_trade_id : String
  symbol : String
  side : String
  price : ℚ
  qty : ℚ
  commission : ℚ
  commission_asset : String
  trade_time_ms : Nat
  realized_pnl : Option ℚ

def insert_fill (args : FillArgs) : Txn Unit := fun db =>
  match Decimal.quantize 8 (args.price * args.qty) with
  | .error e => .error e
  | .ok quote_qty =>
    add_fill {
      order_id := args.order_id
      account_id := args.account_id
      exchange_trade_id := args.exchange_trade_id
      symbol := args.symbol
      side := args.side
      price := args.price
      qty := args.qty
      quote_qty
      commission := args.commission
      commission_asset := args.commission_asset
      realized_pnl := args.realized_pnl
      timestamp_ms := args.trade_time_ms } db

/-- The row of an order after a fill. -/
def Order.filled_to (order : Order) (now : Nat) (filled_qty avg_fill_price : ℚ)
    (new_status : Option String) : Order :=
  { order with
    filled_qty
    avg_fill_price := some avg_fill_price
    status := new_status.getD order.status
    updated_at_ms := now }

def update_order_filled_qty (now : Nat) (order_id : Nat) (filled_qty avg_fill_price : ℚ)
    (new_status : Option String) : Txn Unit := fun db =>
  .ok ((), { db with
    orders := db.orders.map fun order =>
      if order.id = order_id then order.filled_to now filled_qty avg_fill_price new_status
      else order })

/-- The losses of the fills since midnight, as a magnitude. An account id that
is no UUID has none. -/
def get_daily_realized_loss_usd (now : Nat) (account_id : String) : Txn ℚ := fun db =>
  match UUID account_id with
  | .error _ => .ok (0, db)
  | .ok account =>
    let since_ms := now - now % 86400000
    let losses := db.fills.filterMap fun f =>
      if f.account_id = account ∧ since_ms ≤ f.timestamp_ms then f.realized_pnl.filter (· < 0)
      else none
    .ok (|losses.sum|, db)

def get_open_positions_count (account_id : String) : Txn Nat := fun db =>
  match UUID account_id with
  | .error _ => .ok (0, db)
  | .ok account =>
    .ok (db.positions.countP (fun p => p.account_id = account ∧ 0 < p.quantity), db)

/-- What one session of `AccountContextLoader.load` reads. -/
structure AccountRows where
  account : ExchangeAccount
  approval : Option ApprovalLevelRecord
  policy : Option RiskPolicy
  has_credentials : Bool

def select_account (account : Uuid) : Txn (Option AccountRows) := fun db =>
  .ok ((db.accounts.find? (·.id = account)).map fun row => {
    account := row
    approval := db.approvals.find? (·.account_id = account)
    policy := db.policies.find? (·.account_id = account)
    has_credentials := db.credentials.any (·.account_id = account) }, db)

def insert_incident (incident : IncidentLog) : Txn Unit := fun db =>
  .ok ((), { db with incidents := db.incidents ++ [incident] })

/-! ## Rows and sums -/

/-- An update that keeps the column of a search finds the updated row. -/
theorem find?_map_of_keeps {α : Type} {f : α → α} {p : α → Bool} (h : ∀ x, p (f x) = p x)
    (l : List α) : (l.map f).find? p = (l.find? p).map f := by
  rw [List.find?_map, show p ∘ f = p from funext h]

/-- The quantity of the fill rows of an order. -/
def Db.filled (db : Db) (order_id : Nat) : ℚ :=
  ((db.fills.filter (·.order_id = order_id)).map (·.qty)).sum

/-- The trade ids that an account has fill rows for. -/
def Db.trade_ids (db : Db) (account_id : Uuid) : List String :=
  (db.fills.filter (·.account_id = account_id)).map (·.exchange_trade_id)

theorem find_fill_eq_none {db : Db} {account_id : Uuid} {key : String} :
    db.fills.find? (fun f => f.account_id = account_id ∧ f.exchange_trade_id = key) = none ↔
      key ∉ db.trade_ids account_id := by
  simp [Db.trade_ids]

/-- One more fill row adds its quantity to its order and its id to its account. -/
theorem add_fill_adds {fill : Fill} {db db' : Db} (h : add_fill fill db = .ok ((), db')) :
    db' = { db with fills := db.fills ++ [fill] } ∧
      db'.filled fill.order_id = db.filled fill.order_id + fill.qty ∧
      db'.trade_ids fill.account_id = db.trade_ids fill.account_id ++ [fill.exchange_trade_id] := by
  unfold add_fill at h
  split_ifs at h
  cases h
  exact ⟨rfl, by simp [Db.filled, List.filter_append],
    by simp [Db.trade_ids, List.filter_append]⟩

end trading_platform.execution
