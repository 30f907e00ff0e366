-- `ExecutionConsumer._process`: one entry of the intents stream, from the lock
-- to the fill. The parts of the method stand under the titles that its
-- comments give them.
import TradingPlatform.Execution.Account
import TradingPlatform.Execution.Risk

open resumption
open trading_platform.shared

namespace trading_platform.execution

/-! ## What the consumer is made of -/

structure ExecutionSettings where
  consumer_group : String := "execution"
  job_lock_ttl_s : Int := 30
  symbol_cooldown_s : Int := 300
  default_account_id : String := ""
  default_user_id : String := ""
  default_approval_level : String := "l2_paper"
  trading_mode : TradingMode := .paper
  recon_consumer_group : String := "execution-reconcile"

/-- `ExecutionAdapterBase`: `submit` and `adapter_name`. -/
structure ExecutionAdapter where
  submit : ExecutionRequest → String → Py AdapterResponse
  adapter_name : String

/-- Any adapter, seen from outside: one call, and the answer it gives. -/
def some_adapter : ExecutionAdapter where
  submit request client_order_id := Prog.perform (V := Ans) (.submit request client_order_id)
  adapter_name := "adapter"

/-- A consumer. The flags say which of the optional parts it was built with. -/
structure ExecutionConsumer where
  settings : ExecutionSettings := {}
  repository : Bool := true
  context_loader : Bool := true
  incident_logger : Bool := true
  adapter : ExecutionAdapter := some_adapter
  risk_engine : ExecutionRiskEngine := {}

/-- The field `intent` of a stream entry, as pydantic reads it. -/
inductive IntentField where
  | empty
  | malformed
  | valid (intent : TradeIntent)

structure IntentEntry where
  msg_id : String
  intent : IntentField

/-- A deterministic client order id: `tp2-` and 32 hex digits of the hash. -/
def make_client_order_id (sha256 : String → String) (intent_id account_id symbol side : String) :
    String :=
  let raw := s!"{intent_id}:{account_id}:{symbol}:{side}"
  "tp2-" ++ String.ofList ((sha256 raw).toList.take 32)

/-! ## Events and incidents -/

namespace ExecutionEventPublisher

def publish (event_type job_id : String) (data : List (String × Json)) : Py Unit := do
  let ms ← Prog.perform (V := Ans) .time_ms
  onRedis (redis (.xadd StreamNames.EXECUTION_EVENTS
    [("event_type", .str event_type), ("job_id", .str job_id), ("data", .obj data),
      ("timestamp_ms", .str (toString ms))]))

end ExecutionEventPublisher

/-- `IncidentLogger.log_incident`, which swallows its own failure. -/
def log_incident (incident : IncidentLog) : Py Unit :=
  (repo (.insert_incident incident)).swallow

/-- `needle in text`. -/
def inText (needle text : String) : Bool := decide (needle.toList <:+: text.toList)

def jsonOption : Option String → Json
  | some s => .str s
  | none => .null

def decimalOption : Option ℚ → Json
  | some q => .str (Decimal.str q)
  | none => .null

namespace ExecutionConsumer

variable (self : ExecutionConsumer)

/-- `self._settings.default_account_id or "default"`. -/
def account_id : String :=
  if self.settings.default_account_id = "" then "default" else self.settings.default_account_id

/-- The client order id of an intent. -/
def client_order_id (sha256 : String → String) (intent : TradeIntent) : String :=
  make_client_order_id sha256 intent.intent_id self.account_id intent.symbol intent.side.value

def ack (msg_id : String) : Py Unit :=
  (onRedis (redis (.xack StreamNames.STRATEGY_INTENTS self.settings.consumer_group msg_id))).swallow

/-- A status write of the consumer: its failure is logged and nothing more. -/
def try_status (job_id : Uuid) (status : JobStatus) (event_data : Option Json := none)
    (error : Option String := none) : Py Unit := do
  if self.repository then
    (repo (.update_job_status job_id status event_data none error)).swallow

def on_blocked (job_id : Uuid) (client_order_id : String) (failures : List String)
    (metadata : List (String × Json)) : Py Unit := do
  let event_type :=
    if "kill_switch_active" ∈ failures then "kill_switch_blocked"
    else if "symbol_on_cooldown" ∈ failures then "cooldown_blocked"
    else "job_blocked"
  self.try_status job_id .blocked
    (some (.obj [("failures", .arr (failures.map .str)), ("metadata", .obj metadata)]))
  ExecutionEventPublisher.publish event_type job_id
    ([("failures", .arr (failures.map .str)), ("client_order_id", .str client_order_id)] ++ metadata)

def on_failed (job_id : Uuid) (client_order_id reason error : String)
    (intent : Option TradeIntent := none) (account_id : String := "") : Py Unit := do
  self.try_status job_id .failed (some (.obj [("reason", .str reason), ("error", .str error)]))
    (some error)
  ExecutionEventPublisher.publish "job_failed" job_id
    [("reason", .str reason), ("error", .str error), ("client_order_id", .str client_order_id)]
  match self.incident_logger, intent with
  | true, some intent =>
    log_incident {
      incident_type :=
        if inText "paper_price_unavailable" error then "paper_price_unavailable"
        else "execution_failure"
      severity := "error"
      description := s!"Execution failed ({reason}): {error}"
      job_id := some job_id
      strategy_id := intent.strategy_id
      context := .obj [
        ("symbol", .str intent.symbol),
        ("market_type", .str intent.market_type.value),
        ("side", .str intent.side.value),
        ("size", .str (Decimal.str intent.size)),
        ("size_usd", decimalOption (intent.size_usd.filter (· ≠ 0))),
        ("account_id", .str account_id),
        ("client_order_id", .str client_order_id),
        ("reason", .str reason)] }
  | _, _ => return ()

/-! ## submitted, acknowledged, filled -/

/-- The two statuses that follow an accepted submission. -/
def acknowledge (job_id : Uuid) (response : AdapterResponse) : Py Unit := do
  self.try_status job_id .submitted
  ExecutionEventPublisher.publish "job_submitted" job_id
    [("exchange_order_id", jsonOption response.exchange_order_id)]
  self.try_status job_id .acknowledged
  ExecutionEventPublisher.publish "job_acknowledged" job_id
    [("exchange_order_id", jsonOption response.exchange_order_id)]

/-- The order row, the fill row and the last status: three transactions under
one handler. -/
def persist_fill (job_id : Uuid) (request : ExecutionRequest) (client_order_id : String)
    (response : AdapterResponse) : Py Unit := do
  if self.repository then
    Prog.swallow do
      let order_id ← repo (.create_order job_id request client_order_id response)
      repo (.save_fill order_id request response)
      repo (.update_job_status job_id .filled none
        (some (.obj [
          ("exchange_order_id", jsonOption response.exchange_order_id),
          ("fill_price", .str (strOption response.fill_price)),
          ("fill_quantity", .str (strOption response.fill_quantity)),
          ("adapter", .str self.adapter.adapter_name)])) none)

/-- What follows a response that says success. -/
def on_filled (msg_id : String) (job_id : Uuid) (request : ExecutionRequest)
    (client_order_id : String) (response : AdapterResponse) : Py Unit := do
  self.acknowledge job_id response
  self.persist_fill job_id request client_order_id response
  ExecutionEventPublisher.publish "job_filled" job_id
    [("exchange_order_id", jsonOption response.exchange_order_id),
      ("fill_price", .str (strOption response.fill_price)),
      ("fill_quantity", .str (strOption response.fill_quantity)),
      ("commission", .str (strOption response.commission)),
      ("adapter", .str self.adapter.adapter_name)]
  onRedis (CooldownControl.set_cooldown request.account_id request.trade_intent.symbol
    self.settings.symbol_cooldown_s)
  self.ack msg_id

/-! ## Submit to adapter -/

/-- What follows the risk gate for an approved request. -/
def submit_approved (msg_id : String) (job_id : Uuid) (request : ExecutionRequest)
    (client_order_id : String) (decision : RiskDecision) : Py Unit := do
  self.try_status job_id .approved
    (some (.obj [("checks", .obj (decision.checks.map fun c => (c.1, .bool c.2)))]))
  ExecutionEventPublisher.publish "job_approved" job_id
    [("checks_passed", .arr (decision.checks.map fun c => .str c.1))]
  match ← (self.adapter.submit request client_order_id).attempt with
  | .error exc =>
    self.on_failed job_id client_order_id "adapter_error" exc.msg
    self.ack msg_id
  | .ok response =>
    if ¬ response.success then
      let error_msg := match response.error with
        | some e => if e = "" then "unknown" else e
        | none => "unknown"
      self.on_failed job_id client_order_id "adapter_rejected" error_msg
        (some request.trade_intent) request.account_id
      self.ack msg_id
    else self.on_filled msg_id job_id request client_order_id response

/-! ## Account context and live risk data -/

def limits_override (account_id : String) : Py (Option RiskLimits) := do
  if self.context_loader then
    match ← (AccountContextLoader.load account_id).attempt with
    | .ok (some ctx) => return some ctx.limits
    | _ => return none
  else return none

/-- The daily loss and the open positions. When the second query raises, the
first value stays. -/
def risk_data (account_id : String) : Py (Option ℚ × Option Nat) := do
  if self.repository then
    match ← (repo (.get_daily_realized_loss_usd account_id)).attempt with
    | .error _ => return (none, none)
    | .ok loss =>
      match ← (repo (.get_open_positions_count account_id)).attempt with
      | .error _ => return (some loss, none)
      | .ok n => return (some loss, some n)
  else return (none, none)

/-! ## Risk gate -/

def risk_gate (msg_id : String) (job_id : Uuid) (request : ExecutionRequest)
    (client_order_id : String) : Py Unit := do
  let limits ← self.limits_override request.account_id
  let (daily_loss_usd, open_positions) ← self.risk_data request.account_id
  match ← (onRedis (self.risk_engine.evaluate request daily_loss_usd open_positions
      limits)).attempt with
  | .error exc =>
    self.on_failed job_id client_order_id "risk_engine_error" exc.msg
    self.ack msg_id
  | .ok decision =>
    if ¬ decision.passed then
      self.on_blocked job_id client_order_id decision.failures decision.metadata
      self.ack msg_id
    else self.submit_approved msg_id job_id request client_order_id decision

/-! ## Build request, persist job -/

/-- The request that the consumer builds. The approval level is the one of the
settings, which may be no level at all. -/
def build_request (job_id : Uuid) (intent : TradeIntent) : Except PyErr ExecutionRequest :=
  match ApprovalLevel.ofValue self.settings.default_approval_level with
  | .error e => .error e
  | .ok approval_level =>
    .ok {
      job_id
      trade_intent := intent
      user_id :=
        if self.settings.default_user_id = "" then "system" else self.settings.default_user_id
      account_id := self.account_id
      trading_mode := self.settings.trading_mode
      approval_level }

/-- What follows the lock. -/
def process_locked (msg_id : String) (job_id : Uuid) (intent : TradeIntent)
    (client_order_id : String) : Py Unit := do
  let request ← Prog.ofExcept (self.build_request job_id intent)
  if self.repository then
    (repo (.create_job job_id request client_order_id)).swallow
  ExecutionEventPublisher.publish "job_queued" job_id
    [("client_order_id", .str client_order_id),
      ("symbol", .str intent.symbol),
      ("side", .str intent.side.value),
      ("intent_id", .str intent.intent_id)]
  self.risk_gate msg_id job_id request client_order_id

/-! ## Deduplication via Redis SETNX -/

/-- A valid intent. `job_id` is the UUID that the consumer draws for it. -/
def process_intent (sha256 : String → String) (msg_id : String) (job_id : Uuid)
    (intent : TradeIntent) : Py Unit := do
  let client_order_id := self.client_order_id sha256 intent
  let acquired ← onRedis (redis (.set (RedisKeys.job_lock client_order_id) job_id true
    (some self.settings.job_lock_ttl_s)))
  if ¬ acquired then
    ExecutionEventPublisher.publish "duplicate_blocked" job_id
      [("client_order_id", .str client_order_id), ("intent_id", .str intent.intent_id),
        ("reason", .str "duplicate_job")]
    self.ack msg_id
  else self.process_locked msg_id job_id intent client_order_id

/-- `ExecutionConsumer._process`. -/
def process (sha256 : String → String) (job_id : Uuid) (entry : IntentEntry) : Py Unit :=
  match entry.intent with
  | .empty => self.ack entry.msg_id
  | .malformed => self.ack entry.msg_id
  | .valid intent => self.process_intent sha256 entry.msg_id job_id intent

end ExecutionConsumer

end trading_platform.execution
