-- `NormalizedEventConsumer._process`: one entry of the normalized stream. An
-- event of one of our orders moves its job and its order row, and adds the
-- fill that the event reports.
import TradingPlatform.Execution.Consumer

open resumption
open trading_platform.shared

namespace trading_platform.execution

/-! ## Events -/

/-- The `data` of a USER_ORDER event. Amounts are texts, as the normalizer
passes them on; a field that is absent has its default. -/
structure UserOrder where
  client_order_id : String := ""
  exchange_order_id : String := ""
  order_status : String := ""
  filled_qty : String := "0"
  orig_qty : String := "0"
  avg_price : String := "0"
  commission : String := "0"
  commission_asset : String := "USDT"
  realized_pnl : String := "0"
  trade_time_ms : Nat := 0

/-- The field `event` of a stream entry, as pydantic reads it. -/
inductive EventField where
  | empty
  | malformed
  /-- An event of another type: it is acknowledged and nothing more. -/
  | other
  | user_order (symbol : String) (data : UserOrder)

structure EventEntry where
  msg_id : String
  event : EventField

/-- What the fill handlers get besides the job. -/
structure FillReport where
  client_order_id : String
  exchange_order_id : String
  cumulative_filled_qty : ℚ
  orig_qty : ℚ
  avg_price : ℚ
  commission : ℚ
  commission_asset : String
  realized_pnl : ℚ
  trade_time_ms : Nat
  symbol : String

/-- The report of an event. A text that is no number raises. A row holds no
NaN and no infinity, so a fill with one of them raises as well. -/
def UserOrder.report (data : UserOrder) (symbol : String) : Except PyErr FillReport := do
  let cumulative_filled_qty ← Decimal.ofText data.filled_qty
  let orig_qty ← Decimal.ofText data.orig_qty
  let avg_price ← Decimal.ofText data.avg_price
  let commission ← Decimal.ofText data.commission
  let realized_pnl ← Decimal.ofText data.realized_pnl
  return {
    client_order_id := data.client_order_id
    exchange_order_id := data.exchange_order_id
    cumulative_filled_qty
    orig_qty
    avg_price
    commission
    commission_asset := data.commission_asset
    realized_pnl
    trade_time_ms := data.trade_time_ms
    symbol }

/-- The amounts are read before the status is looked at: a text that is no
number raises for every status. -/
def UserOrder.readable (data : UserOrder) : Except PyErr Unit :=
  if [data.filled_qty, data.orig_qty, data.avg_price, data.commission, data.realized_pnl].all
      (Decimal.parse · |>.isSome) then .ok ()
  else .error Decimal.invalid_operation

/-- `f"{exchange_order_id}:t{trade_time_ms}"`. -/
def FillReport.exchange_trade_id (report : FillReport) : String :=
  s!"{report.exchange_order_id}:t{report.trade_time_ms}"

/-- The arguments of `insert_fill` for one leg. -/
def FillReport.fill (report : FillReport) (job : ExecutionJob) (order : Order) (leg : ℚ) :
    FillArgs where
  order_id := order.id
  account_id := job.account_id
  exchange_trade_id := report.exchange_trade_id
  symbol := if report.symbol = "" then order.symbol else report.symbol
  side := order.side
  price := report.avg_price
  qty := leg
  commission := report.commission
  commission_asset := report.commission_asset
  trade_time_ms := report.trade_time_ms
  realized_pnl := some report.realized_pnl

/-- Only orders that the service submitted carry this prefix. -/
def is_ours (client_order_id : String) : Bool :=
  "tp2-".toList.isPrefixOf client_order_id.toList

def jsonDecimal (q : ℚ) : Json := .str (Decimal.str q)

structure NormalizedEventConsumer where
  settings : ExecutionSettings := {}
  repository : Bool := true
  incident_logger : Bool := true

namespace NormalizedEventConsumer

variable (self : NormalizedEventConsumer)

def ack (msg_id : String) : Py Unit :=
  (onRedis (redis (.xack StreamNames.NORMALIZED self.settings.recon_consumer_group
    msg_id))).swallow

/-! ## Cancel, partial fill, full fill -/

def handle_cancel (job : ExecutionJob) (exchange_order_id order_status : String)
    (trade_time_ms : Nat) : Py Unit := do
  if ¬ can_transition job.status .canceled then
    ExecutionEventPublisher.publish "reconciliation_mismatch" job.id
      [("reason", .str s!"cannot_cancel_from_{job.status.value}"),
        ("exchange_status", .str order_status)]
  else
    if self.repository then
      repo (.update_job_status job.id .canceled
        (some (.obj [
          ("exchange_order_id", .str exchange_order_id),
          ("exchange_status", .str order_status),
          ("trade_time_ms", .num (toString trade_time_ms)),
          ("source", .str "reconciliation")])) none none)
    ExecutionEventPublisher.publish "job_canceled" job.id
      [("exchange_order_id", .str exchange_order_id), ("exchange_status", .str order_status)]

/-- The last status. `job` is the job as it was read at the start. -/
def finalize_fill (job : ExecutionJob) (exchange_order_id : String) (filled_qty avg_price : ℚ) :
    Py Unit := do
  if ¬ can_transition job.status .filled then return ()
  else
    let amounts := [("exchange_order_id", .str exchange_order_id),
      ("filled_qty", jsonDecimal filled_qty), ("avg_price", jsonDecimal avg_price)]
    let data := Json.obj (amounts ++ [("source", .str "reconciliation")])
    if self.repository then
      repo (.update_job_status job.id .filled (some data) (some data) none)
    ExecutionEventPublisher.publish "job_reconciled" job.id amounts

def order_record_not_found (job : ExecutionJob) (client_order_id : String) : Py Unit :=
  ExecutionEventPublisher.publish "reconciliation_mismatch" job.id
    [("reason", .str "order_record_not_found"), ("client_order_id", .str client_order_id)]

/-- The job status of a partial fill, unless the job has it already. -/
def mark_partially_filled (job : ExecutionJob) (report : FillReport) (leg : ℚ) : Py Unit := do
  if job.status ≠ .partially_filled ∧ can_transition job.status .partially_filled then
    repo (.update_job_status job.id .partially_filled
      (some (.obj [
        ("exchange_order_id", .str report.exchange_order_id),
        ("cumulative_filled_qty", jsonDecimal report.cumulative_filled_qty),
        ("fill_leg_qty", jsonDecimal leg),
        ("source", .str "reconciliation")])) none none)

/-- A partial fill that reaches the whole quantity ends the job. -/
def finalize_if_complete (job : ExecutionJob) (report : FillReport) : Py Unit := do
  if report.orig_qty ≤ report.cumulative_filled_qty then
    self.finalize_fill job report.exchange_order_id report.cumulative_filled_qty report.avg_price

/-- What a partial fill does once its leg is known to be new. -/
def record_partial_fill (job : ExecutionJob) (report : FillReport) (order : Order) (leg : ℚ) :
    Py Unit := do
  repo (.insert_fill (report.fill job order leg))
  repo (.update_order_filled_qty order.id report.cumulative_filled_qty report.avg_price
    (some (if report.orig_qty ≤ report.cumulative_filled_qty then "FILLED"
      else "PARTIALLY_FILLED")))
  mark_partially_filled job report leg
  ExecutionEventPublisher.publish "job_partially_filled" job.id
    [("exchange_order_id", .str report.exchange_order_id),
      ("fill_leg_qty", jsonDecimal leg),
      ("cumulative_filled_qty", jsonDecimal report.cumulative_filled_qty),
      ("orig_qty", jsonDecimal report.orig_qty),
      ("avg_price", jsonDecimal report.avg_price),
      ("exchange_trade_id", .str report.exchange_trade_id)]
  self.finalize_if_complete job report

def handle_partial_fill (job : ExecutionJob) (report : FillReport) : Py Unit := do
  match ← repo (.get_order_by_client_order_id report.client_order_id) with
  | none => order_record_not_found job report.client_order_id
  | some order =>
    let leg := report.cumulative_filled_qty - order.filled_qty
    -- a duplicate: this cumulative level is recorded
    if leg ≤ 0 then return ()
    else
      match ← repo (.get_fill_by_exchange_trade_id job.account_id report.exchange_trade_id) with
      | some _ => return ()
      | none => self.record_partial_fill job report order leg

/-- The row of the last leg. Unlike a partial fill, a full fill goes on when
the row is there. -/
def insert_last_leg (job : ExecutionJob) (report : FillReport) (order : Order) (leg : ℚ) :
    Py Unit := do
  if 0 < leg then
    match ← repo (.get_fill_by_exchange_trade_id job.account_id report.exchange_trade_id) with
    | some _ => return ()
    | none => repo (.insert_fill (report.fill job order leg))

def handle_full_fill (job : ExecutionJob) (report : FillReport) : Py Unit := do
  match ← repo (.get_order_by_client_order_id report.client_order_id) with
  | none => order_record_not_found job report.client_order_id
  | some order =>
    insert_last_leg job report order (report.cumulative_filled_qty - order.filled_qty)
    repo (.update_order_filled_qty order.id report.cumulative_filled_qty report.avg_price
      (some "FILLED"))
    self.finalize_fill job report.exchange_order_id report.cumulative_filled_qty report.avg_price

/-! ## USER_ORDER -/

/-- An event of a job that is not terminal. -/
def dispatch (job : ExecutionJob) (symbol : String) (data : UserOrder) : Py Unit := do
  Prog.ofExcept data.readable
  if data.order_status ∈ ["CANCELED", "REJECTED", "EXPIRED"] then
    self.handle_cancel job data.exchange_order_id data.order_status data.trade_time_ms
  else if data.order_status = "PARTIALLY_FILLED" then
    let report ← Prog.ofExcept (data.report symbol)
    self.handle_partial_fill job report
  else if data.order_status = "FILLED" then
    let report ← Prog.ofExcept (data.report symbol)
    self.handle_full_fill job report

def handle_user_order (symbol : String) (data : UserOrder) : Py Unit := do
  if ¬ is_ours data.client_order_id then
    ExecutionEventPublisher.publish "orphan_exchange_update" "unknown"
      [("client_order_id", .str data.client_order_id),
        ("exchange_order_id", .str data.exchange_order_id),
        ("order_status", .str data.order_status), ("reason", .str "not_our_order")]
  else if ¬ self.repository then return ()
  else
    match ← repo (.get_job_by_client_order_id data.client_order_id) with
    | none =>
      ExecutionEventPublisher.publish "orphan_exchange_update" "unknown"
        [("client_order_id", .str data.client_order_id),
          ("order_status", .str data.order_status), ("reason", .str "job_not_found")]
      if self.incident_logger then
        log_incident {
          incident_type := "orphan_exchange_update"
          severity := "warning"
          description := s!"Exchange update for unknown client_order_id={data.client_order_id}"
          job_id := none
          strategy_id := none
          context := .obj [("client_order_id", .str data.client_order_id),
            ("order_status", .str data.order_status)] }
    | some job =>
      if is_terminal job.status then
        ExecutionEventPublisher.publish "orphan_exchange_update" job.id
          [("reason", .str "already_terminal"), ("current_status", .str job.status.value),
            ("exchange_status", .str data.order_status),
            ("client_order_id", .str data.client_order_id)]
      else self.dispatch job symbol data

/-- Only the events of orders are handled. -/
def handle (event : EventField) : Py Unit :=
  match event with
  | .user_order symbol data => self.handle_user_order symbol data
  | _ => return ()

/-- `NormalizedEventConsumer._process`. -/
def process (entry : EventEntry) : Py Unit := do
  self.handle entry.event
  self.ack entry.msg_id

end NormalizedEventConsumer

end trading_platform.execution
