-- The gate in front of the adapter. `_process` calls the adapter once at most,
-- and only after it took the lock of the client order id, read each of the
-- five control keys as absent, and saw every structural check pass on the
-- limits, the loss and the positions that it read.
import TradingPlatform.Execution.Consumer

open resumption
open trading_platform.shared

namespace trading_platform.execution

/-! ## Programs that only report -/

/-- The commands that report and decide nothing: events, acks, incidents and
the clock. -/
def Cmd.reports : Cmd → Prop
  | .redis (.xadd ..) => True
  | .redis (.xack ..) => True
  | .repo (.insert_incident _) => True
  | .time_ms => True
  | _ => False

/-- The reports, and the writes of a job status. -/
def Cmd.logs : Cmd → Prop
  | .repo (.update_job_status ..) => True
  | c => c.reports

theorem logs_of_reports {c : Cmd} (h : c.reports) : c.logs := by
  unfold Cmd.logs
  split
  · trivial
  · exact h

theorem publish_calls (event_type job_id : String) (data : List (String × Json)) :
    (ExecutionEventPublisher.publish event_type job_id data).Calls Cmd.reports :=
  calls_bind (calls_perform trivial) fun _ => ⟨trivial, fun r => by cases r <;> trivial⟩

theorem log_incident_calls (incident : IncidentLog) :
    (log_incident incident).Calls Cmd.reports := calls_swallow (calls_perform trivial)

namespace ExecutionConsumer

variable (self : ExecutionConsumer)

theorem ack_calls (msg_id : String) : (self.ack msg_id).Calls Cmd.reports :=
  calls_swallow ⟨trivial, fun r => by cases r <;> trivial⟩

theorem try_status_calls (job_id : Uuid) (status : JobStatus) (event_data : Option Json)
    (error : Option String) : (self.try_status job_id status event_data error).Calls Cmd.logs := by
  unfold try_status
  split
  · exact calls_swallow (calls_perform trivial)
  · trivial

theorem on_blocked_calls (job_id : Uuid) (client_order_id : String) (failures : List String)
    (metadata : List (String × Json)) :
    (self.on_blocked job_id client_order_id failures metadata).Calls Cmd.logs :=
  calls_bind (self.try_status_calls ..) fun _ =>
    calls_mono (publish_calls ..) fun _ => logs_of_reports

theorem on_failed_calls (job_id : Uuid) (client_order_id reason error : String)
    (intent : Option TradeIntent) (account_id : String) :
    (self.on_failed job_id client_order_id reason error intent account_id).Calls Cmd.logs := by
  refine calls_bind (self.try_status_calls ..) fun _ =>
    calls_bind (calls_mono (publish_calls ..) fun _ => logs_of_reports) fun _ => ?_
  split
  · exact calls_mono (log_incident_calls _) fun _ => logs_of_reports
  · trivial

theorem acknowledge_calls (job_id : Uuid) (response : AdapterResponse) :
    (self.acknowledge job_id response).Calls Cmd.logs :=
  calls_bind (self.try_status_calls ..) fun _ =>
    calls_bind (calls_mono (publish_calls ..) fun _ => logs_of_reports) fun _ =>
    calls_bind (self.try_status_calls ..) fun _ =>
      calls_mono (publish_calls ..) fun _ => logs_of_reports

end ExecutionConsumer

/-! ## What is read before the adapter is called -/

/-- The questions to the tables before the controls are read. -/
def Cmd.asks : Cmd → Prop
  | .repo (.select_account _) => True
  | .repo (.get_daily_realized_loss_usd _) => True
  | .repo (.get_open_positions_count _) => True
  | _ => False

/-- A read of one of the keys. -/
def ReadsOf (keys : List String) : RedisCmd → Prop
  | .exists key => key ∈ keys
  | .ttl key => key ∈ keys
  | _ => False

namespace ExecutionConsumer

variable (self : ExecutionConsumer)

-- The parser of UUIDs need not be unfolded to see what a program calls.
attribute [local irreducible] UUID

theorem load_calls (account_id : String) :
    (AccountContextLoader.load account_id).Calls Cmd.asks := by
  unfold AccountContextLoader.load
  split
  · trivial
  · refine calls_bind (calls_perform trivial) fun rows => ?_
    cases rows with
    | none => trivial
    | some rows =>
      dsimp only
      cases context_of account_id rows <;> trivial

theorem limits_override_calls (account_id : String) :
    (self.limits_override account_id).Calls Cmd.asks := by
  unfold limits_override
  split
  · refine calls_bind (calls_attempt (load_calls account_id)) ?_
    rintro (e | _ | ctx) <;> trivial
  · trivial

theorem risk_data_calls (account_id : String) : (self.risk_data account_id).Calls Cmd.asks := by
  unfold risk_data
  split
  · apply calls_bind (calls_attempt (calls_perform trivial))
    rintro (e | loss)
    · trivial
    · apply calls_bind (calls_attempt (calls_perform trivial))
      rintro (e | n) <;> trivial
  · trivial

end ExecutionConsumer

/-- The evaluation asks Redis for the controls of its request and nothing else. -/
theorem evaluate_calls (engine : ExecutionRiskEngine) (request : ExecutionRequest)
    (loss : Option ℚ) (positions : Option Nat) (limits : Option RiskLimits) :
    (engine.evaluate request loss positions limits).Calls
      (ReadsOf (control_keys request.account_id request.trade_intent.symbol)) := by
  have hcontrol {keys : List String} {k : String} {blocked rest : RedisPy RiskDecision}
      (hk : k ∈ keys) (hblocked : blocked.Calls (ReadsOf keys))
      (hrest : rest.Calls (ReadsOf keys)) :
      (redis (.exists k) >>= fun b => if b = true then blocked else rest).Calls
        (ReadsOf keys) := by
    refine calls_bind (calls_perform ?_) fun b => ?_
    · exact hk
    · split
      · exact hblocked
      · exact hrest
  unfold ExecutionRiskEngine.evaluate
  apply hcontrol (by simp [control_keys])
  · trivial
  apply hcontrol (by simp [control_keys])
  · trivial
  apply hcontrol (by simp [control_keys])
  · trivial
  apply hcontrol (by simp [control_keys])
  · trivial
  apply hcontrol (by simp [control_keys])
  · -- on cooldown: the TTL is read for the report only
    refine calls_bind (calls_perform ?_) fun ttl => trivial
    simp [ReadsOf, control_keys]
  · trivial

/-! ## The gate as a ghost automaton -/

/-- What a run of `_process` has seen since it took the lock. -/
structure Seen where
  /-- The control keys that it read as absent. -/
  clear : List String := []
  limits : Option RiskLimits := none
  loss : Option ℚ := none
  positions : Option Nat := none

inductive Gate where
  | start
  | refused
  | locked (seen : Seen)
  | submitted

/-- The limits that a context gives; the account id is the one of the request. -/
def limitsRead (account_id : String) : Except PyErr (Option AccountRows) → Option RiskLimits
  | .ok (some rows) =>
    match context_of account_id rows with
    | .ok ctx => some ctx.limits
    | .error _ => none
  | _ => none

namespace ExecutionConsumer

variable (self : ExecutionConsumer)

/-- Every structural check passes on what was seen. -/
def ChecksPass (request : ExecutionRequest) (seen : Seen) : Prop :=
  ∀ r ∈ self.risk_engine.sync_results request (seen.limits.getD self.risk_engine.limits) seen.loss
    seen.positions, r.passed = true

instance (request : ExecutionRequest) (seen : Seen) : Decidable (self.ChecksPass request seen) :=
  inferInstanceAs (Decidable (∀ r ∈ _, _))

/-- The gate of one intent: when its adapter call is allowed. -/
def gate (sha256 : String → String) (job_id : Uuid) (intent : TradeIntent) :
    Protocol PyErr Cmd Ans Gate where
  allows g c := match g, c with
    | .start, .redis (.set key _ nx _) =>
      key = RedisKeys.job_lock (self.client_order_id sha256 intent) ∧ nx = true
    | .start, _ => False
    | .locked seen, .submit request c =>
      self.build_request job_id intent = .ok request ∧
        c = self.client_order_id sha256 intent ∧
        (∀ k ∈ control_keys self.account_id intent.symbol, k ∈ seen.clear) ∧
        self.ChecksPass request seen
    -- the limits, the loss and the positions are read before the controls
    | .locked seen, .repo (.select_account _) => seen.clear = []
    | .locked seen, .repo (.get_daily_realized_loss_usd _) => seen.clear = []
    | .locked seen, .repo (.get_open_positions_count _) => seen.clear = []
    | .submitted, .redis (.set key ..) =>
      key = RedisKeys.symbol_cooldown self.account_id intent.symbol
    | _, .redis (.set ..) => False
    | _, .redis (.delete _) => False
    | _, .submit .. => False
    | _, .post_order _ => False
    | _, _ => True
  next g c r := match g, c, r with
    | .start, .redis (.set ..), .ok true => .locked {}
    | .start, _, _ => .refused
    | .locked seen, .redis (.exists k), .ok false => .locked { seen with clear := seen.clear ++ [k] }
    | .locked seen, .repo (.select_account _), r =>
      .locked { seen with limits := limitsRead self.account_id r }
    | .locked seen, .repo (.get_daily_realized_loss_usd _), .ok loss =>
      .locked { seen with loss := some loss }
    | .locked seen, .repo (.get_open_positions_count _), .ok n =>
      .locked { seen with positions := some n }
    | .locked _, .submit .., _ => .submitted
    | g, _, _ => g

/-! ## `_process` keeps to the gate -/

section Gate

variable (sha256 : String → String) (job_id : Uuid) (intent : TradeIntent)

/-- Past the start, reports and status writes leave the gate where it is. -/
theorem gate_logs {g : Gate} (hg : g ≠ .start) (c : Cmd) (h : c.logs) :
    (self.gate sha256 job_id intent).allows g c ∧
      ∀ r, (self.gate sha256 job_id intent).next g c r = g := by
  cases g with
  | start => exact absurd rfl hg
  | refused | locked _ | submitted =>
    cases c with
    | redis c => cases c <;> first | exact absurd h id | exact ⟨trivial, fun _ => rfl⟩
    | repo c => cases c <;> first | exact absurd h id | exact ⟨trivial, fun _ => rfl⟩
    | submit _ _ => exact absurd h id
    | post_order _ => exact absurd h id
    | time_ms => exact ⟨trivial, fun _ => rfl⟩

theorem gate_submitted_repo (c : Cmd) (h : ∃ d, c = .repo d) :
    (self.gate sha256 job_id intent).allows .submitted c ∧
      ∀ r, (self.gate sha256 job_id intent).next .submitted c r = .submitted := by
  obtain ⟨d, rfl⟩ := h
  exact ⟨trivial, fun _ => rfl⟩

theorem persist_fill_calls (request : ExecutionRequest) (client_order_id : String)
    (response : AdapterResponse) :
    (self.persist_fill job_id request client_order_id response).Calls
      fun c => ∃ d, c = .repo d := by
  unfold persist_fill
  split
  · exact calls_swallow (calls_bind (calls_perform ⟨_, rfl⟩) fun _ =>
      calls_bind (calls_perform ⟨_, rfl⟩) fun _ => calls_perform ⟨_, rfl⟩)
  · trivial

theorem gate_on_filled (msg_id client_order_id : String) (request : ExecutionRequest)
    (response : AdapterResponse) (ha : request.account_id = self.account_id)
    (hi : request.trade_intent = intent) :
    Obeys (self.gate sha256 job_id intent) .submitted
      (self.on_filled msg_id job_id request client_order_id response) fun _ _ => True := by
  have hlogs := self.gate_logs sha256 job_id intent (g := .submitted) (by simp)
  unfold on_filled
  refine obeys_bind_of_calls (self.acknowledge_calls ..) hlogs (fun _ => ?_) fun _ => trivial
  refine obeys_bind_of_calls (self.persist_fill_calls ..)
    (self.gate_submitted_repo sha256 job_id intent) (fun _ => ?_) fun _ => trivial
  refine obeys_bind_of_calls (publish_calls ..) (fun c h => hlogs c (logs_of_reports h))
    (fun _ => ?_) fun _ => trivial
  rw [ha, hi, obeys_bind, obeys_onRedis]
  refine ⟨rfl, fun r => ?_⟩
  cases r with
  | error e => trivial
  | ok b =>
    show Obeys (self.gate sha256 job_id intent) .submitted (self.ack msg_id) _
    exact obeys_of_calls (self.ack_calls msg_id) (fun c h => hlogs c (logs_of_reports h))
      fun _ => trivial

theorem gate_on_failed {g : Gate} (hg : g ≠ .start)
    (msg_id client_order_id reason error account_id : String) (i : Option TradeIntent) :
    Obeys (self.gate sha256 job_id intent) g
      (do self.on_failed job_id client_order_id reason error i account_id; self.ack msg_id)
      fun _ _ => True := by
  have hlogs := self.gate_logs sha256 job_id intent hg
  exact obeys_of_calls (calls_bind (self.on_failed_calls ..) fun _ =>
    calls_mono (self.ack_calls msg_id) fun _ => logs_of_reports) hlogs fun _ => trivial

/-- With every control read as absent and every check passed, the adapter may
be called, once. -/
theorem gate_submit_approved (hadapter : self.adapter = some_adapter) (msg_id : String)
    (request : ExecutionRequest) (decision : RiskDecision) (seen : Seen)
    (hreq : self.build_request job_id intent = .ok request)
    (ha : request.account_id = self.account_id) (hi : request.trade_intent = intent)
    (hclear : ∀ k ∈ control_keys self.account_id intent.symbol, k ∈ seen.clear)
    (hpass : self.ChecksPass request seen) :
    Obeys (self.gate sha256 job_id intent) (.locked seen)
      (self.submit_approved msg_id job_id request (self.client_order_id sha256 intent) decision)
      fun _ _ => True := by
  have hlogs := self.gate_logs sha256 job_id intent (g := .locked seen) (by simp)
  unfold submit_approved
  refine obeys_bind_of_calls (self.try_status_calls ..) hlogs (fun _ => ?_) fun _ => trivial
  refine obeys_bind_of_calls (publish_calls ..) (fun c h => hlogs c (logs_of_reports h))
    (fun _ => ?_) fun _ => trivial
  rw [obeys_bind, obeys_attempt, hadapter]
  refine obeys_perform.mpr ⟨⟨hreq, rfl, hclear, hpass⟩, fun r => ?_⟩
  cases r with
  | error e => exact self.gate_on_failed sha256 job_id intent (by simp [gate]) ..
  | ok response =>
    dsimp only
    split
    · exact self.gate_on_failed sha256 job_id intent (by simp [gate]) ..
    · exact self.gate_on_filled sha256 job_id intent msg_id _ request response ha hi

/-- An outcome of the evaluation: when it passes, the five controls were read
as absent and every structural check passes. -/
def Evaluated (request : ExecutionRequest) (r : Except PyErr RiskDecision) (g : Gate) : Prop :=
  g ≠ .start ∧ ∀ decision, r = .ok decision → decision.passed = true →
    ∃ seen, g = .locked seen ∧ self.ChecksPass request seen ∧
      ∀ k ∈ control_keys self.account_id intent.symbol, k ∈ seen.clear

theorem evaluated_error (request : ExecutionRequest) (seen : Seen) (e : PyErr) :
    self.Evaluated intent request (.error e) (.locked seen) :=
  ⟨by simp, fun _ h => nomatch h⟩

theorem evaluated_blocked (request : ExecutionRequest) (seen : Seen) (d : RiskDecision)
    (hd : d.passed = false) : self.Evaluated intent request (.ok d) (.locked seen) := by
  refine ⟨by simp, fun d' h hp => ?_⟩
  cases h
  rw [hd] at hp
  cases hp

/-- One control: a key read as present blocks, a key read as absent is noted. -/
theorem gate_read (k : String) {seen : Seen} {blocked rest : RedisPy RiskDecision}
    {Q : Except PyErr RiskDecision → Gate → Prop}
    (herr : ∀ e, Q (.error e) (.locked seen))
    (hblocked : Obeys (redisPart (self.gate sha256 job_id intent)) (.locked seen) blocked Q)
    (hrest : Obeys (redisPart (self.gate sha256 job_id intent))
      (.locked { seen with clear := seen.clear ++ [k] }) rest Q) :
    Obeys (redisPart (self.gate sha256 job_id intent)) (.locked seen)
      (redis (.exists k) >>= fun b => if b = true then blocked else rest) Q :=
  obeys_exists trivial herr hblocked hrest

theorem gate_evaluate (request : ExecutionRequest) (seen : Seen) (hseen : seen.clear = [])
    (ha : request.account_id = self.account_id) (hi : request.trade_intent = intent) :
    Obeys (redisPart (self.gate sha256 job_id intent)) (.locked seen)
      (self.risk_engine.evaluate request seen.loss seen.positions seen.limits)
      (self.Evaluated intent request) := by
  have herr := self.evaluated_error intent request
  have hblocked := self.evaluated_blocked intent request
  unfold ExecutionRiskEngine.evaluate
  refine self.gate_read sha256 job_id intent _ (herr _) (hblocked _ _ rfl) ?_
  refine self.gate_read sha256 job_id intent _ (herr _) (hblocked _ _ rfl) ?_
  refine self.gate_read sha256 job_id intent _ (herr _) (hblocked _ _ rfl) ?_
  refine self.gate_read sha256 job_id intent _ (herr _) (hblocked _ _ rfl) ?_
  refine self.gate_read sha256 job_id intent _ (herr _) ?_ ?_
  · -- on cooldown: the TTL is read for the report only
    rw [obeys_bind]
    refine obeys_perform.mpr ⟨trivial, fun r => ?_⟩
    cases r with
    | error e => exact herr _ e
    | ok ttl => exact hblocked _ _ rfl
  · refine ⟨by simp, fun decision h hp => ⟨_, rfl, ?_, ?_⟩⟩
    · cases h
      exact (ExecutionRiskEngine.sync_decision_passed ..).mp hp
    · simp [control_keys, hseen, ha, hi]

/-- The limits that the context gives are the ones that the gate notes. -/
theorem gate_limits_override :
    Obeys (self.gate sha256 job_id intent) (.locked {}) (self.limits_override self.account_id)
      fun r g => ∃ limits, r = .ok limits ∧ g = .locked { limits } := by
  unfold limits_override
  split
  · rw [obeys_bind, obeys_attempt]
    unfold AccountContextLoader.load
    split
    · exact ⟨none, rfl, rfl⟩
    · rw [obeys_bind]
      refine obeys_perform.mpr ⟨rfl, ?_⟩
      rintro (e | _ | rows)
      · exact ⟨none, rfl, rfl⟩
      · exact ⟨none, rfl, rfl⟩
      · cases hctx : context_of self.account_id rows with
        | error e =>
          simp only [hctx]
          exact ⟨none, rfl, by simp [gate, limitsRead, hctx]⟩
        | ok ctx =>
          simp only [hctx]
          exact ⟨some ctx.limits, rfl, by simp [gate, limitsRead, hctx]⟩
  · exact ⟨none, rfl, rfl⟩

/-- The loss and the positions that the queries give are the ones that the
gate notes. -/
theorem gate_risk_data (account_id : String) (limits : Option RiskLimits) :
    Obeys (self.gate sha256 job_id intent) (.locked { limits }) (self.risk_data account_id)
      fun r g => ∃ loss positions, r = .ok (loss, positions) ∧
        g = .locked { limits, loss, positions } := by
  unfold risk_data
  split
  · rw [obeys_bind, obeys_attempt]
    refine obeys_perform.mpr ⟨rfl, ?_⟩
    rintro (e | loss)
    · exact ⟨none, none, rfl, rfl⟩
    · dsimp only
      rw [obeys_bind, obeys_attempt]
      refine obeys_perform.mpr ⟨rfl, ?_⟩
      rintro (e | n)
      · exact ⟨some loss, none, rfl, rfl⟩
      · exact ⟨some loss, some n, rfl, rfl⟩
  · exact ⟨none, none, rfl, rfl⟩

/-- The risk gate and all that follows it. -/
theorem gate_risk_gate (hadapter : self.adapter = some_adapter) (msg_id : String)
    (request : ExecutionRequest) (hreq : self.build_request job_id intent = .ok request)
    (ha : request.account_id = self.account_id) (hi : request.trade_intent = intent) :
    Obeys (self.gate sha256 job_id intent) (.locked {})
      (self.risk_gate msg_id job_id request (self.client_order_id sha256 intent))
      fun _ _ => True := by
  unfold risk_gate
  rw [ha, obeys_bind]
  refine obeys_mono (self.gate_limits_override sha256 job_id intent) ?_
  rintro _ _ ⟨limits, rfl, rfl⟩
  dsimp only
  rw [obeys_bind]
  refine obeys_mono (self.gate_risk_data sha256 job_id intent self.account_id limits) ?_
  rintro _ _ ⟨loss, positions, rfl, rfl⟩
  dsimp only
  rw [obeys_bind, obeys_attempt, obeys_onRedis]
  refine obeys_mono (self.gate_evaluate sha256 job_id intent request
    { limits, loss, positions } rfl ha hi) ?_
  rintro (exc | decision) g ⟨hg, hpassed⟩
  · exact self.gate_on_failed sha256 job_id intent hg ..
  · have hlogs := self.gate_logs sha256 job_id intent hg
    dsimp only
    split
    · exact obeys_of_calls (calls_bind (self.on_blocked_calls ..) fun _ =>
        calls_mono (self.ack_calls msg_id) fun _ => logs_of_reports) hlogs fun _ => trivial
    · rename_i hp
      obtain ⟨seen, rfl, hpass, hclear⟩ := hpassed decision rfl (by simpa using hp)
      exact self.gate_submit_approved sha256 job_id intent hadapter msg_id request decision seen
        hreq ha hi hclear hpass

theorem build_request_fields {request : ExecutionRequest}
    (h : self.build_request job_id intent = .ok request) :
    request.account_id = self.account_id ∧ request.trade_intent = intent ∧
      request.trading_mode = self.settings.trading_mode := by
  unfold build_request at h
  split at h
  · cases h
  · cases h
    exact ⟨rfl, rfl, rfl⟩

/-- `_process` of a valid intent keeps to the gate. -/
theorem process_keeps_to_the_gate (hadapter : self.adapter = some_adapter) (msg_id : String) :
    Obeys (self.gate sha256 job_id intent) .start
      (self.process sha256 job_id ⟨msg_id, .valid intent⟩) fun _ _ => True := by
  unfold process process_intent
  dsimp only
  rw [obeys_bind, obeys_onRedis]
  refine obeys_perform.mpr ⟨⟨rfl, rfl⟩, ?_⟩
  rintro (e | _ | _)
  · trivial
  · -- the lock is held
    have hlogs := self.gate_logs sha256 job_id intent (g := .refused) (by simp)
    exact obeys_of_calls (calls_bind (publish_calls ..) fun _ => self.ack_calls msg_id)
      (fun c h => hlogs c (logs_of_reports h)) fun _ => trivial
  · have hlogs := self.gate_logs sha256 job_id intent (g := .locked {}) (by simp)
    show Obeys (self.gate sha256 job_id intent) (.locked {})
      (self.process_locked msg_id job_id intent (self.client_order_id sha256 intent)) _
    unfold process_locked
    cases hreq : self.build_request job_id intent with
    | error e => trivial
    | ok request =>
      obtain ⟨ha, hi, -⟩ := self.build_request_fields job_id intent hreq
      have hjob : ((repo (.create_job job_id request
          (self.client_order_id sha256 intent))).swallow).Calls
          (fun c => ∃ d e f, c = .repo (.create_job d e f)) :=
        calls_swallow (calls_perform ⟨_, _, _, rfl⟩)
      have hrest : Obeys (self.gate sha256 job_id intent) (.locked {}) (do
          ExecutionEventPublisher.publish "job_queued" job_id
            [("client_order_id", .str (self.client_order_id sha256 intent)),
              ("symbol", .str intent.symbol), ("side", .str intent.side.value),
              ("intent_id", .str intent.intent_id)]
          self.risk_gate msg_id job_id request (self.client_order_id sha256 intent))
          fun _ _ => True :=
        obeys_bind_of_calls (publish_calls ..) (fun c h => hlogs c (logs_of_reports h))
          (fun _ => self.gate_risk_gate sha256 job_id intent hadapter msg_id request hreq ha hi)
          fun _ => trivial
      simp only [Prog.ofExcept, Prog.done_bind]
      split
      · refine obeys_bind_of_calls hjob ?_ (fun _ => hrest) fun _ => trivial
        rintro _ ⟨_, _, _, rfl⟩
        exact ⟨trivial, fun _ => rfl⟩
      · exact hrest

end Gate

end ExecutionConsumer

end trading_platform.execution
