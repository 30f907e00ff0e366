-- The dry run of a live order: what it reports and what it logs, against what the same
-- order does without it. The policy counts a dry run as not allowed, so the adapter takes
-- every dry run for a blocked order.
import TradingPlatform.Execution.LiveGate

open resumption
open trading_platform.shared

namespace trading_platform.execution

/-! ## What a run of the adapter does -/

/-- An order is posted to the exchange. -/
def Posts (p : Py AdapterResponse) (w : World) (os : List Choice) : Prop :=
  ∃ params, Cmd.post_order params ∈ performed World.exec .idle p w os

/-- An incident says that the policy blocked an order. -/
def LogsBlock (p : Py AdapterResponse) (w : World) (os : List Choice) : Prop :=
  ∃ incident, Cmd.repo (.insert_incident incident) ∈ performed World.exec .idle p w os ∧
    incident.incident_type = "live_trade_blocked_by_policy"

/-- The text of a preview that says that the gates pass. -/
def says_pass (error : String) : Bool :=
  "dry_run_preview: policy=would_allow".toList.isPrefixOf error.toList ||
    "dry_run_preview: all policy gates pass".toList.isPrefixOf error.toList

def ReportsPass (r : Except PyErr AdapterResponse) : Prop :=
  ∃ response error, r = .ok response ∧ response.error = some error ∧ says_pass error = true

/-! ## A request and its dry run -/

def without_dry_run (request : ExecutionRequest) : ExecutionRequest :=
  { request with trade_intent := { request.trade_intent with
      metadata := request.trade_intent.metadata.filter (·.1 ≠ "dry_run") } }

def with_dry_run (request : ExecutionRequest) : ExecutionRequest :=
  { request with trade_intent := { request.trade_intent with
      metadata := ("dry_run", .bool true) ::
        request.trade_intent.metadata.filter (·.1 ≠ "dry_run") } }

namespace LiveExecutionAdapter

variable (self : LiveExecutionAdapter) (upper : String → String) (request : ExecutionRequest)
  (client_order_id : String)

theorem dry_run_with : dry_run (with_dry_run request).trade_intent = true := rfl

theorem dry_run_without : dry_run (without_dry_run request).trade_intent = false := by
  have hnone : (request.trade_intent.metadata.filter (·.1 ≠ "dry_run")).find?
      (·.1 = "dry_run") = none := by
    rw [List.find?_eq_none]
    intro entry hentry
    simpa using (List.mem_filter.mp hentry).2
  unfold dry_run without_dry_run
  rw [hnone]
  rfl

/-- The four gates of the policy pass the request. -/
def GatesPass : Prop :=
  self.policy.enabled = true ∧ request.account_id ∈ self.policy.account_allowlist ∧
    upper request.trade_intent.symbol ∈ self.policy.symbol_allowlist ∧
    ∀ n ∈ notional request.trade_intent, n ≤ self.policy.max_notional

/-- The gates do not look at the metadata. -/
theorem reasons_with : (self.policy_result upper (with_dry_run request)).blocked_reasons = [] ↔
    self.GatesPass upper request :=
  self.policy.reasons_eq_nil_iff upper _ _ _

theorem allowed_with : (self.policy_result upper (with_dry_run request)).allowed = false := by
  rw [← Bool.not_eq_true, policy_result, LiveTradingPolicy.evaluate_allowed, dry_run_with]
  simp

theorem allowed_without : (self.policy_result upper (without_dry_run request)).allowed = true ↔
    self.GatesPass upper request := by
  rw [policy_result, LiveTradingPolicy.evaluate_allowed, dry_run_without]
  simp only [true_and]
  exact Iff.rfl

/-! ## The runs -/

theorem performed_log_incident {α : Type} (incident : IncidentLog) (a : α) (w : World)
    (os : List Choice) :
    performed World.exec .idle (log_incident incident >>= fun _ => .done a) w os =
      [Cmd.repo (.insert_incident incident)] := by
  unfold log_incident repo
  rw [performed_bind, performed_swallow, performed_perform, run_swallow]
  rfl

/-- A blocked order is logged by one incident, when there is a logger, and not sent. -/
theorem performed_log {α : Type} (result : PolicyResult) (a : α) (w : World) (os : List Choice) :
    ∃ incident : IncidentLog, incident.incident_type = "live_trade_blocked_by_policy" ∧
      performed World.exec .idle
        (self.log_policy_block request client_order_id result >>= fun _ => .done a) w os =
        if self.incident_logger = true then [Cmd.repo (.insert_incident incident)] else [] := by
  unfold log_policy_block
  by_cases hlogger : self.incident_logger = true
  · simp only [hlogger, if_true]
    refine ⟨_, ?type, performed_log_incident _ a w os⟩
    case type => rfl
  · refine ⟨⟨"live_trade_blocked_by_policy", "", "", none, none, .null⟩, rfl, ?_⟩
    simp only [hlogger]
    rfl

/-- An order that the policy does not allow is logged and answered with the reasons. -/
theorem submit_blocked (h : (self.policy_result upper request).allowed = false) :
    self.submit upper request client_order_id =
      (self.log_policy_block request client_order_id (self.policy_result upper request)
        >>= fun _ => .done {
          success := false
          client_order_id
          error := some (block_error (self.policy_result upper request)) }) := by
  unfold submit
  simp [h]

theorem not_posts_of_blocked (h : (self.policy_result upper request).allowed = false) (w : World)
    (os : List Choice) : ¬ Posts (self.submit upper request client_order_id) w os := by
  rintro ⟨params, hparams⟩
  rw [self.submit_blocked upper request client_order_id h] at hparams
  obtain ⟨incident, -, hperformed⟩ := self.performed_log request client_order_id
    (self.policy_result upper request) _ w os
  rw [hperformed] at hparams
  split at hparams
  · simp at hparams
  · cases hparams

theorem submit_with : self.submit upper (with_dry_run request) client_order_id =
    (self.log_policy_block (with_dry_run request) client_order_id
      (self.policy_result upper (with_dry_run request)) >>= fun _ => .done {
        success := false
        client_order_id
        error := some (block_error (self.policy_result upper (with_dry_run request))) }) :=
  self.submit_blocked upper (with_dry_run request) client_order_id (self.allowed_with upper request)

/-- A dry run ends with the report of a blocked order. -/
theorem run_with (w : World) (os : List Choice) :
    (w.run (self.submit upper (with_dry_run request) client_order_id) os).1 = .ok {
      success := false
      client_order_id
      error := some (block_error (self.policy_result upper (with_dry_run request))) } := by
  rw [submit_with]
  unfold World.run log_policy_block log_incident
  by_cases hlogger : self.incident_logger = true
  · simp only [hlogger, if_true, run_bind, run_swallow]
    rfl
  · simp [hlogger]

/-- What the report of a dry run says of the gates. -/
theorem says_pass_iff (result : PolicyResult) (h : result.is_dry_run = true) :
    says_pass (block_error result) = true ↔ result.blocked_reasons = [] := by
  unfold block_error
  by_cases hr : result.blocked_reasons = []
  · simp [says_pass, h, hr, toString]
  · simp [says_pass, h, hr, toString]

/-- Without the dry run the order is posted when the gates pass it. The clock before it does
not fail. -/
theorem posts_without (w : World) (os : List Choice) :
    Posts (self.submit upper (without_dry_run request) client_order_id) w os ↔
      self.GatesPass upper request := by
  rw [← self.allowed_without upper request]
  by_cases hallowed : (self.policy_result upper (without_dry_run request)).allowed = true
  · have hsubmit : self.submit upper (without_dry_run request) client_order_id =
        self.submit_to_exchange (without_dry_run request) client_order_id := by
      unfold submit
      simp [hallowed, dry_run_without]
    simp only [hallowed, iff_true]
    rw [hsubmit]
    unfold submit_to_exchange Prog.perform
    refine ⟨self.order_params (without_dry_run request) client_order_id w.now, ?_⟩
    exact List.mem_cons_of_mem Cmd.time_ms List.mem_cons_self
  · have hblocked : (self.policy_result upper (without_dry_run request)).allowed = false :=
      Bool.not_eq_true _ ▸ hallowed
    exact iff_of_false
      (self.not_posts_of_blocked upper (without_dry_run request) client_order_id hblocked w os)
      hallowed

/-! ## The dry run and the order -/

/-- A dry run sends nothing, reports that the gates pass when the order would be sent, and
logs an incident when a gate does not pass. -/
structure DryRunFaithful (live : LiveExecutionAdapter) (upper : String → String)
    (request : ExecutionRequest) (client_order_id : String) : Prop where
  sends_nothing : ∀ (w : World) (os : List Choice),
    ¬ Posts (live.submit upper (with_dry_run request) client_order_id) w os
  reports : ∀ (w : World) (os : List Choice) (w' : World) (os' : List Choice),
    ReportsPass (w.run (live.submit upper (with_dry_run request) client_order_id) os).1 ↔
      Posts (live.submit upper (without_dry_run request) client_order_id) w' os'
  logs : ∀ (w : World) (os : List Choice),
    LogsBlock (live.submit upper (with_dry_run request) client_order_id) w os ↔
      ¬ live.GatesPass upper request

theorem with_sends_nothing (w : World) (os : List Choice) :
    ¬ Posts (self.submit upper (with_dry_run request) client_order_id) w os :=
  self.not_posts_of_blocked upper (with_dry_run request) client_order_id
    (self.allowed_with upper request) w os

theorem with_reports_pass (w : World) (os : List Choice) :
    ReportsPass (w.run (self.submit upper (with_dry_run request) client_order_id) os).1 ↔
      self.GatesPass upper request := by
  rw [run_with, ← self.reasons_with upper request, ← says_pass_iff _ rfl]
  constructor
  · rintro ⟨response, error, hr, herror, hpass⟩
    obtain rfl := Except.ok.inj hr
    obtain rfl := Option.some.inj herror
    exact hpass
  · intro hpass
    exact ⟨_, _, rfl, rfl, hpass⟩

/-- A dry run is logged whenever there is a logger, whatever the gates say. -/
theorem with_logs (w : World) (os : List Choice) :
    LogsBlock (self.submit upper (with_dry_run request) client_order_id) w os ↔
      self.incident_logger = true := by
  unfold LogsBlock
  rw [submit_with]
  obtain ⟨incident, htype, hperformed⟩ := self.performed_log (with_dry_run request)
    client_order_id (self.policy_result upper (with_dry_run request)) _ w os
  rw [hperformed]
  by_cases hlogger : self.incident_logger = true
  · simp only [hlogger, if_true, iff_true]
    exact ⟨incident, by simp, htype⟩
  · simp [hlogger]

/-- The dry run is faithful exactly when there is an incident to log and a logger for it, or
neither. -/
theorem dry_run_faithful_iff : self.DryRunFaithful upper request client_order_id ↔
    (self.incident_logger = true ↔ ¬ self.GatesPass upper request) := by
  constructor
  · intro h
    rw [← self.with_logs upper request client_order_id .empty []]
    exact h.logs .empty []
  · intro h
    refine ⟨self.with_sends_nothing upper request client_order_id, ?_, ?_⟩
    · intro w os w' os'
      rw [with_reports_pass, posts_without]
    · intro w os
      rw [with_logs]
      exact h

/-- All gates pass the dry run, and it is logged as blocked. -/
theorem a_passing_dry_run_is_logged :
    ¬ demo_live.DryRunFaithful id (demo_request demo_intent) "c" := by
  intro h
  have hlogs : LogsBlock (demo_live.submit id (with_dry_run (demo_request demo_intent)) "c")
      .empty [] := by
    refine ⟨_, List.mem_cons_self, rfl⟩
  have hgates : demo_live.GatesPass id (demo_request demo_intent) := by
    unfold GatesPass
    decide +kernel
  exact (h.logs .empty []).mp hlogs hgates

end LiveExecutionAdapter

end trading_platform.execution
