-- The fill events of an order against the handling of its intent. The consumer stores the
-- order row some time after the exchange accepted the order, and the job status `filled`
-- right after it. An event that comes before the row, or after that status, is
-- acknowledged without a fill row.
import TradingPlatform.Execution.FillPersistence
import TradingPlatform.Execution.TwoWriters

open resumption
open trading_platform.shared

namespace trading_platform.execution

open NormalizedEventConsumer (levelOf isFilled)

/-! ## The delivery of the events -/

/-- The entries that are delivered, one after another. -/
def NormalizedEventConsumer.process_all (self : NormalizedEventConsumer) :
    List EventEntry → Py Unit
  | [] => return ()
  | entry :: entries => do
    self.process entry
    process_all self entries

/-- A PARTIALLY_FILLED or FILLED event of the order. -/
def IsFillOf (client_order_id : String) (entry : EventEntry) : Prop :=
  match entry.event with
  | .user_order _ data =>
    data.client_order_id = client_order_id ∧
      (data.order_status = "PARTIALLY_FILLED" ∨ data.order_status = "FILLED")
  | _ => False

instance (client_order_id : String) (entry : EventEntry) :
    Decidable (IsFillOf client_order_id entry) := by
  obtain ⟨_, event⟩ := entry
  unfold IsFillOf
  induction event using EventField.casesOn <;> infer_instance

/-- The sum of the fill rows of the client order id. -/
def Db.filled_for (db : Db) (client_order_id : String) : ℚ :=
  ((db.fills.filter fun f => db.orders.any fun o =>
    o.id = f.order_id ∧ o.client_order_id = client_order_id).map (·.qty)).sum

/-! ## How far the two have come -/

inductive Progress where
  /-- The consumer has not stored the order row. -/
  | unordered
  /-- It stored the row, and will store the fill of the response. -/
  | ordered (order_id : Nat) (response : AdapterResponse)
  | saved (order_id : Nat)
  /-- The fill of the response was not stored. -/
  | failed
  /-- The reconciler has these entries to handle. -/
  | idle (entries : List EventEntry)
  /-- It found a job that is not terminal, and will read the order row. -/
  | reading (entry : EventEntry) (entries : List EventEntry)
  /-- It read a row below the entry. -/
  | adding (entry : EventEntry) (order : Order) (entries : List EventEntry)
  /-- It will set the row to the entry. -/
  | setting (entry : EventEntry) (order : Order) (entries : List EventEntry)

/-- The entries that are not done, the one in progress first. -/
def Progress.entries : Progress → List EventEntry
  | .idle entries => entries
  | .reading entry entries => entry :: entries
  | .adding entry _ entries => entry :: entries
  | .setting entry _ entries => entry :: entries
  | _ => []

/-- What follows once nothing is to be added for the entry: only a FILLED event still sets
the row. -/
def Progress.unless_filled (entry : EventEntry) (order : Order) (entries : List EventEntry) :
    Progress :=
  if isFilled entry then .setting entry order entries else .idle entries

theorem unless_filled_of_filled {entry : EventEntry} {order : Order} {entries : List EventEntry}
    (h : isFilled entry = true) :
    Progress.unless_filled entry order entries = .setting entry order entries := if_pos h

theorem unless_filled_of_open {entry : EventEntry} {order : Order} {entries : List EventEntry}
    (h : isFilled entry = false) :
    Progress.unless_filled entry order entries = .idle entries := if_neg (by simp [h])

/-- The commands that neither read nor write orders and fills, and read no job. -/
def Cmd.off_ledger : Cmd → Prop
  | .repo (.create_job ..) => True
  | .repo (.update_job_status ..) => True
  | .repo (.get_daily_realized_loss_usd _) => True
  | .repo (.get_open_positions_count _) => True
  | .repo (.select_account _) => True
  | .repo (.insert_incident _) => True
  | .repo _ => False
  | _ => True

/-- What the consumer and the reconciler call for one client order id. -/
def recording (client_order_id : String) : Protocol PyErr Cmd Ans Progress where
  allows g c := match g, c with
    | .unordered, .repo (.create_order _ _ x _) => x = client_order_id
    | .ordered order_id response, .repo (.save_fill id _ r) => id = order_id ∧ r = response
    | .idle (_ :: _), .repo (.get_job_by_client_order_id x) => x = client_order_id
    | .reading _ _, .repo (.get_order_by_client_order_id x) => x = client_order_id
    | .adding _ _ _, .repo (.get_fill_by_exchange_trade_id ..) => True
    | .adding entry order _, .repo (.insert_fill args) =>
      args.order_id = order.id ∧ args.qty = levelOf entry - order.filled_qty
    | .setting entry order _, .repo (.update_order_filled_qty id z ..) =>
      id = order.id ∧ z = levelOf entry
    | .unordered, c => c.off_ledger
    | .saved _, c => c.off_ledger
    | .failed, c => c.off_ledger
    | .idle _, c => c.off_ledger
    | _, _ => False
  next g c r := match g, c, r with
    | .unordered, .repo (.create_order _ _ _ response), .ok order_id => .ordered order_id response
    | .ordered order_id _, .repo (.save_fill ..), .ok _ => .saved order_id
    | .ordered _ _, .repo (.save_fill ..), .error _ => .failed
    | .idle (entry :: entries), .repo (.get_job_by_client_order_id _), .ok (some job) =>
      if is_terminal job.status then .idle entries else .reading entry entries
    | .idle (_ :: entries), .repo (.get_job_by_client_order_id _), _ => .idle entries
    | .reading entry entries, .repo (.get_order_by_client_order_id _), .ok (some order) =>
      if order.filled_qty < levelOf entry then .adding entry order entries
      else .unless_filled entry order entries
    | .reading _ entries, .repo (.get_order_by_client_order_id _), _ => .idle entries
    | .adding entry order entries, .repo (.get_fill_by_exchange_trade_id ..), .ok (some _) =>
      .unless_filled entry order entries
    | .adding entry order entries, .repo (.insert_fill _), .ok _ => .setting entry order entries
    | .setting _ _ entries, .repo (.update_order_filled_qty ..), .ok _ => .idle entries
    | g, _, _ => g

/-- The program calls nothing else from here. -/
def Progress.Rests : Progress → Prop
  | .unordered | .saved _ | .failed | .idle _ => True
  | _ => False

theorem rests_unordered : Progress.unordered.Rests := trivial

section Programs

variable {client_order_id : String}

theorem recording_off_ledger {g : Progress} (hg : g.Rests) (c : Cmd) (h : c.off_ledger) :
    (recording client_order_id).allows g c ∧
      ∀ r, (recording client_order_id).next g c r = g := by
  rcases g with _ | _ | _ | _ | (_ | _) | _ | _ | _
  all_goals first | exact absurd hg id | skip
  all_goals
    cases c with
    | repo c =>
      cases c <;> first
        | exact absurd h id
        | exact ⟨trivial, fun _ => rfl⟩
    | redis _ | submit _ _ | post_order _ | time_ms => exact ⟨trivial, fun _ => rfl⟩

theorem off_ledger_of_plain {c : Cmd} (h : c.plain) : c.off_ledger := by
  cases c with
  | repo c =>
    cases c <;> first
      | exact absurd h id
      | trivial
  | _ => trivial

theorem off_ledger_of_reports {c : Cmd} (h : c.reports) : c.off_ledger := by
  cases c with
  | repo c =>
    cases c <;> first
      | exact absurd h id
      | trivial
  | _ => trivial

theorem publish_off_ledger (event_type job_id : String) (data : List (String × Json)) :
    (ExecutionEventPublisher.publish event_type job_id data).Calls Cmd.off_ledger :=
  calls_mono (publish_calls ..) fun _ => off_ledger_of_reports

/-- A program that leaves the ledger alone, and what follows it. -/
theorem recording_skip {g : Progress} (hg : g.Rests) {α β : Type} {p : Py α} {rest : α → Py β}
    {Q : Except PyErr β → Progress → Prop} (hp : p.Calls Cmd.off_ledger)
    (hrest : ∀ a, Obeys (recording client_order_id) g (rest a) Q)
    (hQ : ∀ e, Q (.error e) g) :
    Obeys (recording client_order_id) g (p >>= rest) Q :=
  obeys_bind_of_calls hp (recording_off_ledger hg) hrest hQ

theorem recording_end {g : Progress} (hg : g.Rests) {α : Type} {p : Py α}
    {Q : Except PyErr α → Progress → Prop} (hp : p.Calls Cmd.off_ledger) (hQ : ∀ r, Q r g) :
    Obeys (recording client_order_id) g p Q :=
  obeys_of_calls hp (recording_off_ledger hg) hQ

/-! ## The consumer -/

namespace ExecutionConsumer

variable (self : ExecutionConsumer)

theorem ack_off_ledger (msg_id : String) : (self.ack msg_id).Calls Cmd.off_ledger :=
  calls_mono (self.ack_plain msg_id) fun _ => off_ledger_of_plain

/-- The order row, and at once the fill of the response. -/
theorem recording_persist_fill (job_id : Uuid) (request : ExecutionRequest)
    (response : AdapterResponse) :
    Obeys (recording client_order_id) .unordered
      (self.persist_fill job_id request client_order_id response) fun _ g => g.Rests := by
  unfold persist_fill
  apply obeys_ite.mpr
  refine ⟨fun _ => ?_, fun _ => trivial⟩
  apply obeys_swallow.mpr
  apply obeys_bind.mpr
  apply obeys_perform.mpr
  refine ⟨rfl, ?_⟩
  rintro (e | order_id)
  · trivial
  · apply obeys_bind.mpr
    apply obeys_perform.mpr
    refine ⟨⟨rfl, rfl⟩, ?_⟩
    rintro (e | _)
    · trivial
    · exact recording_end (g := .saved order_id) trivial (calls_perform trivial) fun _ => trivial

theorem recording_on_filled (msg_id : String) (job_id : Uuid) (request : ExecutionRequest)
    (response : AdapterResponse) :
    Obeys (recording client_order_id) .unordered
      (self.on_filled msg_id job_id request client_order_id response) fun _ g => g.Rests := by
  unfold on_filled
  apply recording_skip rests_unordered
  · exact calls_mono (self.acknowledge_plain job_id response) fun _ => off_ledger_of_plain
  · intro _
    apply obeys_bind_of (self.recording_persist_fill job_id request response)
    · intro _ g hg
      apply recording_skip hg (publish_off_ledger ..)
      · intro _
        apply recording_skip hg
        · unfold CooldownControl.set_cooldown
          refine ⟨trivial, fun r => ?_⟩
          cases r <;> trivial
        · intro _
          exact recording_end hg (self.ack_off_ledger msg_id) fun _ => hg
        · intro _
          exact hg
      · intro _
        exact hg
    · intro _ _ hg
      exact hg
  · intro _
    trivial

/-- A failure is reported, and the entry acknowledged. -/
theorem recording_reported {p : Py Unit} (hp : p.Calls Cmd.plain) (msg_id : String) :
    Obeys (recording client_order_id) .unordered (p >>= fun _ => self.ack msg_id)
      fun _ g => g.Rests := by
  apply recording_end rests_unordered
  · exact calls_mono (calls_bind hp fun _ => self.ack_plain msg_id) fun _ => off_ledger_of_plain
  · intro _
    trivial

variable (hadapter : ∀ request x, (self.adapter.submit request x).Calls Cmd.off_ledger)

include hadapter

theorem recording_submit_approved (msg_id : String) (job_id : Uuid) (request : ExecutionRequest)
    (decision : RiskDecision) :
    Obeys (recording client_order_id) .unordered
      (self.submit_approved msg_id job_id request client_order_id decision)
      fun _ g => g.Rests := by
  unfold submit_approved
  apply recording_skip rests_unordered
  · exact calls_mono (self.try_status_plain job_id (by decide) _ _) fun _ => off_ledger_of_plain
  · intro _
    apply recording_skip rests_unordered (publish_off_ledger ..)
    · intro _
      apply recording_skip rests_unordered (calls_attempt (hadapter request client_order_id))
      · rintro (e | response)
        · exact self.recording_reported (self.on_failed_plain ..) msg_id
        · dsimp only
          split
          · exact self.recording_reported (self.on_failed_plain ..) msg_id
          · exact self.recording_on_filled msg_id job_id request response
      · intro _
        trivial
    · intro _
      trivial
  · intro _
    trivial

theorem recording_risk_gate (msg_id : String) (job_id : Uuid) (request : ExecutionRequest) :
    Obeys (recording client_order_id) .unordered
      (self.risk_gate msg_id job_id request client_order_id) fun _ g => g.Rests := by
  unfold risk_gate
  apply recording_skip rests_unordered
  · exact calls_mono (self.limits_override_plain _) fun _ => off_ledger_of_plain
  · intro limits
    apply recording_skip rests_unordered
    · exact calls_mono (self.risk_data_plain _) fun _ => off_ledger_of_plain
    · rintro ⟨loss, positions⟩
      apply recording_skip rests_unordered
      · exact calls_mono (calls_attempt (evaluate_plain ..))
          fun _ => off_ledger_of_plain
      · rintro (e | decision)
        · exact self.recording_reported (self.on_failed_plain ..) msg_id
        · dsimp only
          split
          · exact self.recording_reported (self.on_blocked_plain ..) msg_id
          · exact self.recording_submit_approved hadapter msg_id job_id request decision
      · intro _
        trivial
    · intro _
      trivial
  · intro _
    trivial

theorem recording_process (sha256 : String → String) (job_id : Uuid) (msg_id : String)
    (intent : TradeIntent) :
    Obeys (recording (self.client_order_id sha256 intent)) .unordered
      (self.process sha256 job_id ⟨msg_id, .valid intent⟩) fun _ g => g.Rests := by
  unfold process process_intent
  dsimp only
  apply recording_skip rests_unordered
  · exact calls_mono (calls_onRedis (p := redis (.set ..)) (calls_perform trivial))
      fun _ => off_ledger_of_plain
  · rintro (_ | _)
    · exact self.recording_reported (publish_plain (by decide) _ _) msg_id
    · show Obeys _ _ (self.process_locked msg_id job_id intent _) _
      unfold process_locked
      cases self.build_request job_id intent with
      | error e => trivial
      | ok request =>
        show Obeys _ _ (if self.repository = true then _ else _) _
        have hrest : Obeys (recording (self.client_order_id sha256 intent)) .unordered
            (do
              ExecutionEventPublisher.publish "job_queued" job_id
                [("client_order_id", .str (self.client_order_id sha256 intent)),
                  ("symbol", .str intent.symbol), ("side", .str intent.side.value),
                  ("intent_id", .str intent.intent_id)]
              self.risk_gate msg_id job_id request (self.client_order_id sha256 intent))
            fun _ g => g.Rests := by
          apply recording_skip rests_unordered (publish_off_ledger ..)
          · intro _
            exact self.recording_risk_gate hadapter msg_id job_id request
          · intro _
            trivial
        split
        · apply recording_skip rests_unordered
          · exact calls_swallow (calls_perform trivial)
          · intro _
            exact hrest
          · intro _
            trivial
        · exact hrest
  · intro _
    trivial

end ExecutionConsumer

/-! ## The reconciler -/

namespace NormalizedEventConsumer

variable (self : NormalizedEventConsumer)

/-- A handler that came back has only the entries after its own left. -/
def Leaves (entries : List EventEntry) (r : Except PyErr Unit) (g : Progress) : Prop :=
  r = .ok () → g = .idle entries

theorem leaves_error {entries : List EventEntry} (e : PyErr) (g : Progress) :
    Leaves entries (.error e) g := by
  intro h
  cases h

theorem idle_end {entries : List EventEntry} {p : Py Unit} (hp : p.Calls Cmd.off_ledger) :
    Obeys (recording client_order_id) (.idle entries) p (Leaves entries) :=
  recording_end (g := .idle entries) trivial hp fun _ _ => rfl

theorem finalize_fill_off_ledger (job : ExecutionJob) (exchange_order_id : String) (z price : ℚ) :
    (self.finalize_fill job exchange_order_id z price).Calls Cmd.off_ledger := by
  unfold finalize_fill
  split
  · exact calls_done _
  · dsimp only
    split
    · exact calls_bind (calls_perform trivial) fun _ => publish_off_ledger ..
    · exact publish_off_ledger ..

theorem mark_partially_filled_off_ledger (job : ExecutionJob) (report : FillReport) (leg : ℚ) :
    (mark_partially_filled job report leg).Calls Cmd.off_ledger := by
  unfold mark_partially_filled
  split
  · exact calls_perform trivial
  · exact calls_done _

variable {entry : EventEntry} {entries : List EventEntry}

theorem recording_leg (job : ExecutionJob) {report : FillReport} {order : Order}
    (hlevel : report.cumulative_filled_qty = levelOf entry) :
    Obeys (recording client_order_id) (.adding entry order entries)
      (self.record_partial_fill job report order (report.cumulative_filled_qty - order.filled_qty))
      (Leaves entries) := by
  unfold record_partial_fill
  apply obeys_bind.mpr
  apply obeys_perform.mpr
  refine ⟨⟨rfl, by rw [← hlevel]; rfl⟩, ?_⟩
  rintro (e | _)
  · exact leaves_error e _
  · apply obeys_bind.mpr
    apply obeys_perform.mpr
    refine ⟨⟨rfl, hlevel⟩, ?_⟩
    rintro (e | _)
    · exact leaves_error e _
    · apply idle_end
      apply calls_bind (mark_partially_filled_off_ledger ..)
      intro _
      apply calls_bind (publish_off_ledger ..)
      intro _
      unfold finalize_if_complete
      split
      · exact self.finalize_fill_off_ledger ..
      · exact calls_done _

theorem recording_partial (job : ExecutionJob) {report : FillReport}
    (hid : report.client_order_id = client_order_id)
    (hlevel : report.cumulative_filled_qty = levelOf entry) (hpart : isFilled entry = false) :
    Obeys (recording client_order_id) (.reading entry entries)
      (self.handle_partial_fill job report) (Leaves entries) := by
  unfold handle_partial_fill
  apply obeys_bind.mpr
  apply obeys_perform.mpr
  refine ⟨hid, ?_⟩
  rintro (e | _ | order)
  · exact leaves_error e _
  · exact idle_end (publish_off_ledger ..)
  · dsimp only
    by_cases hbelow : order.filled_qty < levelOf entry
    · have hnext : (recording client_order_id).next (.reading entry entries)
          (.repo (.get_order_by_client_order_id report.client_order_id)) (.ok (some order)) =
            .adding entry order entries := if_pos hbelow
      rw [hnext, if_neg (by rw [hlevel]; linarith)]
      apply obeys_bind.mpr
      apply obeys_perform.mpr
      refine ⟨trivial, ?_⟩
      rintro (e | _ | fill)
      · exact leaves_error e _
      · exact self.recording_leg job hlevel
      · intro _
        exact unless_filled_of_open hpart
    · have hnext : (recording client_order_id).next (.reading entry entries)
          (.repo (.get_order_by_client_order_id report.client_order_id)) (.ok (some order)) =
            .idle entries := (if_neg hbelow).trans (unless_filled_of_open hpart)
      rw [hnext, if_pos (by rw [hlevel]; linarith)]
      intro _
      rfl

theorem recording_last_leg (job : ExecutionJob) {report : FillReport} {order : Order}
    (hlevel : report.cumulative_filled_qty = levelOf entry) (hfull : isFilled entry = true)
    (hbelow : order.filled_qty < levelOf entry) :
    Obeys (recording client_order_id) (.adding entry order entries)
      (insert_last_leg job report order (report.cumulative_filled_qty - order.filled_qty))
      fun r g => r = .ok () → g = .setting entry order entries := by
  unfold insert_last_leg
  rw [if_pos (by rw [hlevel]; linarith)]
  apply obeys_bind.mpr
  apply obeys_perform.mpr
  refine ⟨trivial, ?_⟩
  rintro (e | _ | fill)
  · intro h
    cases h
  · apply obeys_perform.mpr
    refine ⟨⟨rfl, by rw [← hlevel]; rfl⟩, ?_⟩
    rintro (e | _)
    · intro h
      cases h
    · intro _
      rfl
  · intro _
    exact unless_filled_of_filled hfull

theorem recording_full (job : ExecutionJob) {report : FillReport}
    (hid : report.client_order_id = client_order_id)
    (hlevel : report.cumulative_filled_qty = levelOf entry) (hfull : isFilled entry = true) :
    Obeys (recording client_order_id) (.reading entry entries)
      (self.handle_full_fill job report) (Leaves entries) := by
  have hset : ∀ order : Order, Obeys (recording client_order_id) (.setting entry order entries)
      (do
        repo (.update_order_filled_qty order.id report.cumulative_filled_qty report.avg_price
          (some "FILLED"))
        self.finalize_fill job report.exchange_order_id report.cumulative_filled_qty
          report.avg_price) (Leaves entries) := by
    intro order
    apply obeys_bind.mpr
    apply obeys_perform.mpr
    refine ⟨⟨rfl, hlevel⟩, ?_⟩
    rintro (e | _)
    · exact leaves_error e _
    · exact idle_end (self.finalize_fill_off_ledger ..)
  unfold handle_full_fill
  apply obeys_bind.mpr
  apply obeys_perform.mpr
  refine ⟨hid, ?_⟩
  rintro (e | _ | order)
  · exact leaves_error e _
  · exact idle_end (publish_off_ledger ..)
  · dsimp only
    by_cases hbelow : order.filled_qty < levelOf entry
    · have hnext : (recording client_order_id).next (.reading entry entries)
          (.repo (.get_order_by_client_order_id report.client_order_id)) (.ok (some order)) =
            .adding entry order entries := if_pos hbelow
      rw [hnext]
      apply obeys_bind_of (recording_last_leg job hlevel hfull hbelow)
      · intro _ g hg
        rw [hg rfl]
        exact hset order
      · intro e g _
        exact leaves_error e g
    · have hnext : (recording client_order_id).next (.reading entry entries)
          (.repo (.get_order_by_client_order_id report.client_order_id)) (.ok (some order)) =
            .setting entry order entries := (if_neg hbelow).trans (unless_filled_of_filled hfull)
      rw [hnext]
      unfold insert_last_leg
      rw [if_neg (by rw [hlevel]; linarith)]
      exact hset order

theorem recording_dispatch (job : ExecutionJob) {symbol : String} {data : UserOrder}
    (hentry : entry.event = .user_order symbol data) (hfill : IsFillOf client_order_id entry) :
    Obeys (recording client_order_id) (.reading entry entries)
      (self.dispatch job symbol data) (Leaves entries) := by
  unfold IsFillOf at hfill
  rw [hentry] at hfill
  obtain ⟨hid, hstatus⟩ := hfill
  have hfilled : isFilled entry = decide (data.order_status = "FILLED") := by
    unfold isFilled
    rw [hentry]
  unfold dispatch
  cases data.readable with
  | error e => exact leaves_error e _
  | ok _ =>
    cases hreport : data.report symbol with
    | error e =>
      rcases hstatus with hst | hst
      · simp only [Prog.ofExcept, Prog.done_bind, Prog.raise_bind, hst]
        exact leaves_error e _
      · simp only [Prog.ofExcept, Prog.done_bind, Prog.raise_bind, hst]
        exact leaves_error e _
    | ok report =>
      obtain ⟨hid', hz, -⟩ := report_ok hreport
      have hlevel : report.cumulative_filled_qty = levelOf entry := by
        unfold levelOf
        rw [hentry]
        simp only
        rw [hz]
        rfl
      rcases hstatus with hst | hst
      · simp only [Prog.ofExcept, Prog.done_bind, hst]
        apply self.recording_partial job (hid'.trans hid) hlevel
        rw [hfilled, hst]
        decide
      · simp only [Prog.ofExcept, Prog.done_bind, hst]
        apply self.recording_full job (hid'.trans hid) hlevel
        rw [hfilled, hst]
        decide

theorem recording_process (hrepo : self.repository = true) (hours : is_ours client_order_id = true)
    (hfill : IsFillOf client_order_id entry) :
    Obeys (recording client_order_id) (.idle (entry :: entries)) (self.process entry)
      (Leaves entries) := by
  have hack : Obeys (recording client_order_id) (.idle entries) (self.ack entry.msg_id)
      (Leaves entries) := by
    apply idle_end
    apply calls_swallow
    refine ⟨trivial, fun r => ?_⟩
    cases r <;> trivial
  unfold process
  refine obeys_bind_of (R := Leaves entries) ?_ ?_ ?_
  · unfold handle
    cases hentry : entry.event with
    | user_order symbol data =>
      have hid : data.client_order_id = client_order_id := by
        unfold IsFillOf at hfill
        rw [hentry] at hfill
        exact hfill.1
      dsimp only
      unfold handle_user_order
      rw [if_neg (by rw [hid, hours]; simp), if_neg (by simp [hrepo])]
      apply obeys_bind.mpr
      apply obeys_perform.mpr
      refine ⟨hid, ?_⟩
      rintro (e | _ | job)
      · exact leaves_error e _
      · apply idle_end
        apply calls_bind (publish_off_ledger ..)
        intro _
        split
        · exact calls_mono (log_incident_calls _) fun _ => off_ledger_of_reports
        · exact calls_done _
      · dsimp only
        by_cases hterminal : is_terminal job.status = true
        · rw [if_pos hterminal]
          have hnext : (recording client_order_id).next (.idle (entry :: entries))
              (.repo (.get_job_by_client_order_id data.client_order_id)) (.ok (some job)) =
                .idle entries := if_pos hterminal
          rw [hnext]
          exact idle_end (publish_off_ledger ..)
        · rw [if_neg hterminal]
          have hnext : (recording client_order_id).next (.idle (entry :: entries))
              (.repo (.get_job_by_client_order_id data.client_order_id)) (.ok (some job)) =
                .reading entry entries := if_neg hterminal
          rw [hnext]
          exact self.recording_dispatch job hentry hfill
    | _ =>
      unfold IsFillOf at hfill
      rw [hentry] at hfill
      exact absurd hfill id
  · intro _ g hg
    rw [hg rfl]
    exact hack
  · intro e g _
    exact leaves_error e g

theorem recording_process_all (hrepo : self.repository = true)
    (hours : is_ours client_order_id = true)
    (hfills : ∀ entry ∈ entries, IsFillOf client_order_id entry) :
    Obeys (recording client_order_id) (.idle entries) (self.process_all entries) (Leaves []) := by
  induction entries with
  | nil => exact fun _ => rfl
  | cons entry entries ih =>
    apply obeys_bind_of (self.recording_process hrepo hours (hfills entry List.mem_cons_self))
    · intro _ g hg
      rw [hg rfl]
      exact ih fun e he => hfills e (List.mem_cons_of_mem _ he)
    · intro e g _
      exact leaves_error e g

end NormalizedEventConsumer

end Programs

/-! ## The books of the order -/

/-- The order row of the client order id, filled to `z`. -/
structure RowAt (db : Db) (client_order_id : String) (order_id : Nat) (z : ℚ) : Prop where
  row : ∃ o ∈ db.orders, o.id = order_id ∧ o.client_order_id = client_order_id
  only : ∀ o ∈ db.orders, o.client_order_id = client_order_id →
    o.id = order_id ∧ o.filled_qty = z

/-- An entry that reaches the whole quantity is not done. -/
def Awaited (whole : ℚ) (entries : List EventEntry) : Prop :=
  ∃ entry ∈ entries, levelOf entry = whole

/-- The fill rows, with the quantity that is still to be stored of the response, make up the
filled quantity of the row. The row has the whole quantity, or an entry for it is not done. -/
def Accounted (client_order_id : String) (whole : ℚ) (db : Db) (order_id : Nat) (pending : ℚ) :
    Progress → Prop
  | .idle entries => ∃ z ≤ whole, RowAt db client_order_id order_id z ∧
      db.filled order_id + pending = z ∧ (z = whole ∨ Awaited whole entries)
  | .reading entry entries => ∃ z ≤ whole, RowAt db client_order_id order_id z ∧
      db.filled order_id + pending = z ∧ (z = whole ∨ Awaited whole (entry :: entries))
  | .adding entry order entries => order.id = order_id ∧ order.filled_qty ≤ whole ∧
      RowAt db client_order_id order_id order.filled_qty ∧
      db.filled order_id + pending = order.filled_qty ∧ Awaited whole (entry :: entries)
  | .setting entry order entries => order.id = order_id ∧
      (∃ z, RowAt db client_order_id order_id z) ∧
      db.filled order_id + pending = levelOf entry ∧ Awaited whole (entry :: entries)
  | _ => False

/-- How the tables stand to the consumer, at `g`, and the reconciler, at `h`. -/
def Account (client_order_id : String) (whole : ℚ) (db : Db) (g h : Progress) : Prop :=
  match g, h with
  | .unordered, .idle entries => ¬ HasOrder db client_order_id ∧ Awaited whole entries
  | .unordered, .reading entry entries =>
    ¬ HasOrder db client_order_id ∧ Awaited whole (entry :: entries)
  | .ordered order_id response, h =>
    Accounted client_order_id whole db order_id (stored_quantity response) h
  | .saved order_id, h => Accounted client_order_id whole db order_id 0 h
  | _, _ => False

/-- What is true of the tables and the two threads. -/
structure Books (client_order_id : String) (whole : ℚ) (w : World) (γ : Nat → Progress) : Prop where
  drawn : Drawn w.db
  levels : ∀ entry ∈ (γ 1).entries, levelOf entry ≤ whole
  account : Account client_order_id whole w.db (γ 0) (γ 1)
  others : ∀ i, 1 < i → γ i = .idle []

/-! ## What a step keeps -/

/-- No call of the repository fails. -/
def NoRepoCallFails (w : World) (c : Cmd) (o : Choice) : Prop :=
  match c with
  | .repo c => (w.exec (.repo c) o).1.isOk = true
  | _ => True

instance (w : World) (c : Cmd) (o : Choice) : Decidable (NoRepoCallFails w c o) := by
  unfold NoRepoCallFails
  induction c using Cmd.casesOn <;> infer_instance

/-- An entry that reaches the whole quantity finds a job that is not terminal, or the row has
the whole quantity; it finds the row, and the key of its leg free. A FILLED event never finds
a row beyond it, nor its key taken. The consumer stores a response that has a price for its
quantity, which is within the whole. -/
def Recordable (whole : ℚ) (w : World) (g : Progress) (c : Cmd) : Prop :=
  match g, c with
  | .unordered, .repo (.create_order _ _ _ response) =>
    stored_quantity response = response.fill_quantity.getD 0 ∧ stored_quantity response ≤ whole
  | .idle (entry :: _), .repo (.get_job_by_client_order_id x) => levelOf entry = whole →
    (∃ job ∈ w.db.jobs.find? (·.deterministic_client_order_id = x), is_terminal job.status = false) ∨
      ∃ o ∈ w.db.orders.find? (·.client_order_id = x), o.filled_qty = whole
  | .reading entry _, .repo (.get_order_by_client_order_id x) =>
    (levelOf entry = whole → HasOrder w.db x) ∧
      (isFilled entry = true →
        ∀ o ∈ w.db.orders.find? (·.client_order_id = x), o.filled_qty ≤ levelOf entry)
  | .adding entry _ _, .repo (.get_fill_by_exchange_trade_id account_id key) =>
    levelOf entry = whole ∨ isFilled entry = true → key ∉ w.db.trade_ids account_id
  | _, _ => True

instance (whole : ℚ) (w : World) (g : Progress) (c : Cmd) : Decidable (Recordable whole w g c) := by
  unfold Recordable
  induction c using Cmd.casesOn with
  | repo c =>
    induction g using Progress.casesOn with
    | idle entries =>
      induction entries using List.casesOn <;> induction c using RepoCmd.casesOn <;> infer_instance
    | _ => induction c using RepoCmd.casesOn <;> infer_instance
  | _ =>
    induction g using Progress.casesOn with
    | idle entries => induction entries using List.casesOn <;> infer_instance
    | _ => infer_instance

section Step

variable {client_order_id : String} {whole pending : ℚ} {db db' : Db} {order_id : Nat}
  {g h : Progress}

/-- A call that does not fail makes its transaction and answers with its value. -/
theorem txn_of_ok {w : World} {c : RepoCmd} {o : Choice} (h : NoRepoCallFails w (.repo c) o) :
    ∃ a, (w.exec (.repo c) o).1 = .ok a ∧ c.txn w.now w.db = .ok (a, (w.exec (.repo c) o).2.db) := by
  rcases World.exec_repo_cases w c o with hok | ⟨⟨e, he⟩, -⟩
  · exact hok
  · have hok : (w.exec (.repo c) o).1.isOk = true := h
    rw [he] at hok
    cases hok

theorem rowAt_congr {z : ℚ} (hrow : RowAt db client_order_id order_id z)
    (ho : db'.orders = db.orders) : RowAt db' client_order_id order_id z :=
  ⟨by rw [ho]; exact hrow.row, by rw [ho]; exact hrow.only⟩

/-- The row is what a search for its client order id finds. -/
theorem rowAt_find {z : ℚ} (hrow : RowAt db client_order_id order_id z) :
    ∃ o, db.orders.find? (·.client_order_id = client_order_id) = some o ∧ o.id = order_id ∧
      o.filled_qty = z := by
  cases hf : db.orders.find? (·.client_order_id = client_order_id) with
  | none =>
    obtain ⟨o, ho, -, hcid⟩ := hrow.row
    rw [List.find?_eq_none] at hf
    exact absurd hcid (by simpa using hf o ho)
  | some o =>
    have hcid : o.client_order_id = client_order_id := by simpa using List.find?_some hf
    exact ⟨o, rfl, hrow.only o (List.mem_of_find?_eq_some hf) hcid⟩

theorem hasOrder_of_find {o : Order}
    (hf : db.orders.find? (·.client_order_id = client_order_id) = some o) :
    HasOrder db client_order_id :=
  ⟨o, List.mem_of_find?_eq_some hf, by simpa using List.find?_some hf⟩

/-- Tables with the same orders and the same fills of the row. -/
theorem accounted_congr (hacc : Accounted client_order_id whole db order_id pending h)
    (ho : db'.orders = db.orders) {pending' : ℚ}
    (hsum : db'.filled order_id + pending' = db.filled order_id + pending) :
    Accounted client_order_id whole db' order_id pending' h := by
  unfold Accounted at hacc ⊢
  cases h with
  | idle entries =>
    obtain ⟨z, hz, hrow, hbal, haw⟩ := hacc
    exact ⟨z, hz, rowAt_congr hrow ho, hsum.trans hbal, haw⟩
  | reading entry entries =>
    obtain ⟨z, hz, hrow, hbal, haw⟩ := hacc
    exact ⟨z, hz, rowAt_congr hrow ho, hsum.trans hbal, haw⟩
  | adding entry order entries =>
    obtain ⟨hid, hle, hrow, hbal, haw⟩ := hacc
    exact ⟨hid, hle, rowAt_congr hrow ho, hsum.trans hbal, haw⟩
  | setting entry order entries =>
    obtain ⟨hid, ⟨z, hrow⟩, hbal, haw⟩ := hacc
    exact ⟨hid, ⟨z, rowAt_congr hrow ho⟩, hsum.trans hbal, haw⟩
  | _ => exact hacc

theorem row_of_accounted (hacc : Accounted client_order_id whole db order_id pending h) :
    ∃ o ∈ db.orders, o.id = order_id := by
  have hrow : ∃ z, RowAt db client_order_id order_id z := by
    unfold Accounted at hacc
    cases h with
    | idle entries => exact hacc.imp fun z hz => hz.2.1
    | reading entry entries => exact hacc.imp fun z hz => hz.2.1
    | adding entry order entries => exact ⟨_, hacc.2.2.1⟩
    | setting entry order entries => exact hacc.2.1
    | _ => exact absurd hacc id
  obtain ⟨z, ⟨o, ho, hid, -⟩, -⟩ := hrow
  exact ⟨o, ho, hid⟩

theorem account_congr (hacc : Account client_order_id whole db g h)
    (ho : db'.orders = db.orders) (hf : db'.fills = db.fills) :
    Account client_order_id whole db' g h := by
  have hsame : ∀ id q, Accounted client_order_id whole db id q h →
      Accounted client_order_id whole db' id q h := by
    intro id q hq
    apply accounted_congr hq ho
    rw [filled_congr hf]
  unfold Account at hacc ⊢
  unfold HasOrder at hacc ⊢
  rw [ho]
  cases g with
  | unordered => cases h <;> exact hacc
  | ordered id response => exact hsame _ _ hacc
  | saved id => exact hsame _ _ hacc
  | _ => exact hacc

theorem beside_of_off_ledger {c : Cmd} (hc : c.off_ledger) : c.beside := by
  cases c with
  | repo c =>
    cases c <;> first
      | exact absurd hc id
      | trivial
  | _ => trivial

/-- A step that leaves the ledger alone. -/
theorem books_off_ledger {w : World} {γ : Nat → Progress} {c : Cmd} (hc : c.off_ledger)
    (hb : Books client_order_id whole w γ) (o : Choice) :
    Books client_order_id whole (w.exec c o).2 γ := by
  obtain ⟨ho, hf, hn⟩ := exec_beside w c o (beside_of_off_ledger hc)
  exact ⟨drawn_congr hb.drawn ho hf hn, hb.levels, account_congr hb.account ho hf, hb.others⟩

/-- The consumer steps: the levels of the entries and the other threads stay. -/
theorem books_consumer {w w' : World} {γ : Nat → Progress} (hb : Books client_order_id whole w γ)
    {g : Progress} (hdrawn : Drawn w'.db) (hacc : Account client_order_id whole w'.db g (γ 1)) :
    Books client_order_id whole w' (Function.update γ 0 g) := by
  refine ⟨hdrawn, ?_, ?_, ?_⟩
  · rw [Function.update_of_ne (by decide)]
    exact hb.levels
  · rw [Function.update_self, Function.update_of_ne (by decide)]
    exact hacc
  · intro i hi
    rw [Function.update_of_ne (by omega)]
    exact hb.others i hi

/-- The reconciler steps: the other threads stay. -/
theorem books_reconciler {w w' : World} {γ : Nat → Progress} (hb : Books client_order_id whole w γ)
    {h : Progress} (hdrawn : Drawn w'.db)
    (hlevels : ∀ entry ∈ h.entries, levelOf entry ≤ whole)
    (hacc : Account client_order_id whole w'.db (γ 0) h) :
    Books client_order_id whole w' (Function.update γ 1 h) := by
  refine ⟨hdrawn, ?_, ?_, ?_⟩
  · rw [Function.update_self]
    exact hlevels
  · rw [Function.update_self, Function.update_of_ne (by decide)]
    exact hacc
  · intro i hi
    rw [Function.update_of_ne (by omega)]
    exact hb.others i hi

/-- A step that leaves the tables as they were, and changes the progress of the reconciler. -/
theorem books_read {w w' : World} {γ : Nat → Progress} (hb : Books client_order_id whole w γ)
    (hdb : w'.db = w.db) {h : Progress} (hlevels : ∀ entry ∈ h.entries, levelOf entry ≤ whole)
    (hacc : Account client_order_id whole w.db (γ 0) h) :
    Books client_order_id whole w' (Function.update γ 1 h) := by
  rw [← hdb] at hacc
  refine books_reconciler hb ?_ hlevels hacc
  rw [hdb]
  exact hb.drawn

/-! ### The consumer -/

/-- The order row comes with the quantity of the response, whose fill is still to come. -/
theorem books_create_order {w : World} {γ : Nat → Progress} {o : Choice} {job_id : Uuid}
    {request : ExecutionRequest} {response : AdapterResponse}
    (hb : Books client_order_id whole w γ) (hg : γ 0 = .unordered)
    (hok : NoRepoCallFails w (.repo (.create_order job_id request client_order_id response)) o)
    (hstored : stored_quantity response = response.fill_quantity.getD 0)
    (hle : stored_quantity response ≤ whole) :
    Books client_order_id whole
      (w.exec (.repo (.create_order job_id request client_order_id response)) o).2
      (Function.update γ 0 ((recording client_order_id).next (γ 0)
        (.repo (.create_order job_id request client_order_id response))
        (w.exec (.repo (.create_order job_id request client_order_id response)) o).1)) := by
  obtain ⟨new_id, hans, htxn⟩ := txn_of_ok hok
  obtain ⟨hid, hno, -, -, hfills, -, row, horders, hrid, hrcid, -, hfilled, -⟩ :=
    create_order_adds htxn
  have hacc := hb.account
  have hdrawn := hb.drawn
  rw [hg] at hacc ⊢
  rw [hans]
  have hnext : (recording client_order_id).next .unordered
      (.repo (.create_order job_id request client_order_id response)) (.ok new_id) =
        .ordered new_id response := rfl
  rw [hnext]
  have hrow : RowAt (w.exec (.repo (.create_order job_id request client_order_id response)) o).2.db
      client_order_id new_id (stored_quantity response) := by
    constructor
    · rw [horders]
      exact ⟨row, by simp, hrid.trans hid.symm, hrcid⟩
    · rw [horders]
      intro x hx hxc
      rcases List.mem_append.mp hx with hx | hx
      · exact absurd ⟨x, hx, hxc⟩ hno
      · obtain rfl := List.mem_singleton.mp hx
        exact ⟨hrid.trans hid.symm, hfilled.trans hstored.symm⟩
  have hzero : (w.exec (.repo (.create_order job_id request client_order_id response))
      o).2.db.filled new_id = 0 := by
    rw [filled_congr hfills, hid]
    exact filled_eq_zero_of_drawn hdrawn
  refine books_consumer hb (drawn_of_create hdrawn htxn) ?_
  cases hγ : γ 1 with
  | idle entries =>
    rw [hγ] at hacc
    exact ⟨_, hle, hrow, by rw [hzero, zero_add], Or.inr hacc.2⟩
  | reading entry entries =>
    rw [hγ] at hacc
    exact ⟨_, hle, hrow, by rw [hzero, zero_add], Or.inr hacc.2⟩
  | _ =>
    rw [hγ] at hacc
    exact absurd hacc id

/-- The fill of the response is stored. -/
theorem books_save_fill {w : World} {γ : Nat → Progress} {o : Choice}
    {request : ExecutionRequest} {response : AdapterResponse}
    (hb : Books client_order_id whole w γ) (hg : γ 0 = .ordered order_id response)
    (hok : NoRepoCallFails w (.repo (.save_fill order_id request response)) o) :
    Books client_order_id whole (w.exec (.repo (.save_fill order_id request response)) o).2
      (Function.update γ 0 ((recording client_order_id).next (γ 0)
        (.repo (.save_fill order_id request response))
        (w.exec (.repo (.save_fill order_id request response)) o).1)) := by
  obtain ⟨u, hans, htxn⟩ := txn_of_ok hok
  obtain ⟨-, horders, -, hsum, -, -⟩ := save_fill_adds htxn
  have hacc := hb.account
  rw [hg] at hacc ⊢
  rw [hans]
  have hnext : (recording client_order_id).next (.ordered order_id response)
      (.repo (.save_fill order_id request response)) (.ok u) = .saved order_id := rfl
  rw [hnext]
  have hacc' : Accounted client_order_id whole w.db order_id (stored_quantity response) (γ 1) := hacc
  refine books_consumer hb (drawn_of_save hb.drawn (row_of_accounted hacc') htxn) ?_
  apply accounted_congr hacc' horders
  rw [hsum, add_zero]

/-! ### The reconciler -/

/-- The row is there and accounted for, or there is none. -/
theorem account_cases (hacc : Account client_order_id whole db g h) :
    (g = .unordered ∧ ¬ HasOrder db client_order_id) ∨
      ∃ id q, Accounted client_order_id whole db id q h ∧
        ∀ db' h', Accounted client_order_id whole db' id q h' →
          Account client_order_id whole db' g h' := by
  cases g with
  | unordered =>
    left
    cases h with
    | idle entries => exact ⟨rfl, hacc.1⟩
    | reading entry entries => exact ⟨rfl, hacc.1⟩
    | _ => exact absurd hacc id
  | ordered id response => exact Or.inr ⟨id, _, hacc, fun _ _ h' => h'⟩
  | saved id => exact Or.inr ⟨id, _, hacc, fun _ _ h' => h'⟩
  | _ => exact absurd hacc (by unfold Account; simp)

variable {entry : EventEntry} {order : Order} {entries : List EventEntry}

/-- An entry is done without a fill: it does not reach the whole quantity, or the row has
it. -/
theorem account_skip (hacc : Account client_order_id whole db g (.reading entry entries))
    (hreached : levelOf entry = whole →
      ∃ o ∈ db.orders.find? (·.client_order_id = client_order_id), o.filled_qty = whole) :
    Account client_order_id whole db g (.idle entries) := by
  rcases account_cases hacc with ⟨rfl, hno⟩ | ⟨id, q, ⟨z, hz, hrow, hbal, haw⟩, hback⟩
  · obtain ⟨-, e, he, hlevel⟩ := hacc
    refine ⟨hno, ?_⟩
    rcases List.mem_cons.mp he with rfl | he
    · obtain ⟨o, ho, -⟩ := hreached hlevel
      exact absurd (hasOrder_of_find ho) hno
    · exact ⟨e, he, hlevel⟩
  · apply hback
    refine ⟨z, hz, hrow, hbal, ?_⟩
    rcases haw with hwhole | ⟨e, he, hlevel⟩
    · exact Or.inl hwhole
    · rcases List.mem_cons.mp he with rfl | he
      · obtain ⟨o, ho, hfilled⟩ := hreached hlevel
        obtain ⟨o', ho', -, hz'⟩ := rowAt_find hrow
        rw [show _ = some o from ho] at ho'
        cases ho'
        exact Or.inl (hz'.symm.trans hfilled)
      · exact Or.inr ⟨e, he, hlevel⟩

theorem books_get_job {w : World} {γ : Nat → Progress} {o : Choice}
    (hb : Books client_order_id whole w γ) (hg : γ 1 = .idle (entry :: entries))
    (hok : NoRepoCallFails w (.repo (.get_job_by_client_order_id client_order_id)) o)
    (hrec : Recordable whole w (γ 1) (.repo (.get_job_by_client_order_id client_order_id))) :
    Books client_order_id whole
      (w.exec (.repo (.get_job_by_client_order_id client_order_id)) o).2
      (Function.update γ 1 ((recording client_order_id).next (γ 1)
        (.repo (.get_job_by_client_order_id client_order_id))
        (w.exec (.repo (.get_job_by_client_order_id client_order_id)) o).1)) := by
  obtain ⟨found, hans, htxn⟩ := txn_of_ok hok
  simp only [RepoCmd.txn, execution.get_job_by_client_order_id, Except.ok.injEq,
    Prod.mk.injEq] at htxn
  obtain ⟨hfound, hdb⟩ := htxn
  rw [hg] at hrec ⊢
  rw [hans]
  have hlevels : ∀ e ∈ entry :: entries, levelOf e ≤ whole := by
    have h := hb.levels
    rw [hg] at h
    exact h
  have hacc : Account client_order_id whole w.db (γ 0) (.reading entry entries) := by
    have h := hb.account
    rw [hg] at h
    unfold Account at h ⊢
    cases hγ : γ 0 <;> rw [hγ] at h <;> exact h
  have hskip : (∀ job, found = some job → is_terminal job.status = true) →
      Books client_order_id whole
        (w.exec (.repo (.get_job_by_client_order_id client_order_id)) o).2
        (Function.update γ 1 (.idle entries)) := by
    intro hterminal
    apply books_read (h := .idle entries) hb hdb.symm fun e he =>
      hlevels e (List.mem_cons_of_mem _ he)
    apply account_skip hacc
    intro hlevel
    rcases hrec hlevel with ⟨job, hjob, hopen⟩ | hreached
    · have hsome : found = some job := hfound.symm.trans hjob
      rw [hterminal job hsome] at hopen
      cases hopen
    · exact hreached
  cases found with
  | none => exact hskip fun job hjob => by cases hjob
  | some job =>
    by_cases hterminal : is_terminal job.status = true
    · have hnext : (recording client_order_id).next (.idle (entry :: entries))
          (.repo (.get_job_by_client_order_id client_order_id)) (.ok (some job)) =
            .idle entries := if_pos hterminal
      rw [hnext]
      apply hskip
      rintro job' ⟨⟩
      exact hterminal
    · have hnext : (recording client_order_id).next (.idle (entry :: entries))
          (.repo (.get_job_by_client_order_id client_order_id)) (.ok (some job)) =
            .reading entry entries := if_neg hterminal
      rw [hnext]
      exact books_read hb hdb.symm hlevels hacc

theorem books_get_order {w : World} {γ : Nat → Progress} {o : Choice}
    (hb : Books client_order_id whole w γ) (hg : γ 1 = .reading entry entries)
    (hok : NoRepoCallFails w (.repo (.get_order_by_client_order_id client_order_id)) o)
    (hrec : Recordable whole w (γ 1) (.repo (.get_order_by_client_order_id client_order_id))) :
    Books client_order_id whole
      (w.exec (.repo (.get_order_by_client_order_id client_order_id)) o).2
      (Function.update γ 1 ((recording client_order_id).next (γ 1)
        (.repo (.get_order_by_client_order_id client_order_id))
        (w.exec (.repo (.get_order_by_client_order_id client_order_id)) o).1)) := by
  obtain ⟨found, hans, htxn⟩ := txn_of_ok hok
  simp only [RepoCmd.txn, execution.get_order_by_client_order_id, Except.ok.injEq,
    Prod.mk.injEq] at htxn
  obtain ⟨hfound, hdb⟩ := htxn
  rw [hg] at hrec ⊢
  rw [hans]
  obtain ⟨hthere, hbeyond⟩ := hrec
  have hlevels : ∀ e ∈ entry :: entries, levelOf e ≤ whole := by
    have h := hb.levels
    rw [hg] at h
    exact h
  have hrest : ∀ e ∈ entries, levelOf e ≤ whole := fun e he => hlevels e (List.mem_cons_of_mem _ he)
  have hacc := hb.account
  rw [hg] at hacc
  cases found with
  | none =>
    apply books_read (h := .idle entries) hb hdb.symm hrest
    apply account_skip hacc
    intro hlevel
    obtain ⟨row, hrow, hcid⟩ := hthere hlevel
    rw [List.find?_eq_none] at hfound
    exact absurd hcid (by simpa using hfound row hrow)
  | some order =>
    rcases account_cases hacc with ⟨-, hno⟩ | ⟨id, q, ⟨z, hz, hrow, hbal, haw⟩, hback⟩
    · exact absurd (hasOrder_of_find hfound) hno
    obtain ⟨row, hrowf, hid, hfilled⟩ := rowAt_find hrow
    rw [hfound] at hrowf
    cases hrowf
    by_cases hbelow : order.filled_qty < levelOf entry
    · have hnext : (recording client_order_id).next (.reading entry entries)
          (.repo (.get_order_by_client_order_id client_order_id)) (.ok (some order)) =
            .adding entry order entries := if_pos hbelow
      rw [hnext]
      apply books_read (h := .adding entry order entries) hb hdb.symm hlevels
      apply hback
      rw [← hfilled] at hz hrow hbal haw
      refine ⟨hid, hz, hrow, hbal, ?_⟩
      rcases haw with hwhole | haw
      · have := hlevels entry List.mem_cons_self
        linarith
      · exact haw
    · have hnext : (recording client_order_id).next (.reading entry entries)
          (.repo (.get_order_by_client_order_id client_order_id)) (.ok (some order)) =
            .unless_filled entry order entries := if_neg hbelow
      rw [hnext]
      unfold Progress.unless_filled
      by_cases hfull : isFilled entry = true
      · rw [if_pos hfull]
        have hle : order.filled_qty ≤ levelOf entry := hbeyond hfull order hfound
        have hlevel : z = levelOf entry := by linarith
        apply books_read (h := .setting entry order entries) hb hdb.symm hlevels
        apply hback
        refine ⟨hid, ⟨z, hrow⟩, by rw [hbal, hlevel], ?_⟩
        rcases haw with hwhole | haw
        · exact ⟨entry, List.mem_cons_self, by rw [← hlevel, hwhole]⟩
        · exact haw
      · rw [if_neg hfull]
        apply books_read (h := .idle entries) hb hdb.symm hrest
        apply account_skip hacc
        intro hlevel
        exact ⟨order, hfound, by linarith⟩

theorem books_get_fill {w : World} {γ : Nat → Progress} {o : Choice} {account_id : Uuid}
    {key : String} (hb : Books client_order_id whole w γ) (hg : γ 1 = .adding entry order entries)
    (hok : NoRepoCallFails w (.repo (.get_fill_by_exchange_trade_id account_id key)) o)
    (hrec : Recordable whole w (γ 1) (.repo (.get_fill_by_exchange_trade_id account_id key))) :
    Books client_order_id whole
      (w.exec (.repo (.get_fill_by_exchange_trade_id account_id key)) o).2
      (Function.update γ 1 ((recording client_order_id).next (γ 1)
        (.repo (.get_fill_by_exchange_trade_id account_id key))
        (w.exec (.repo (.get_fill_by_exchange_trade_id account_id key)) o).1)) := by
  obtain ⟨found, hans, htxn⟩ := txn_of_ok hok
  simp only [RepoCmd.txn, execution.get_fill_by_exchange_trade_id, Except.ok.injEq,
    Prod.mk.injEq] at htxn
  obtain ⟨hfound, hdb⟩ := htxn
  rw [hg] at hrec ⊢
  rw [hans]
  have hlevels := hb.levels
  have hacc := hb.account
  rw [hg] at hlevels hacc
  cases found with
  | none => exact books_read (h := .adding entry order entries) hb hdb.symm hlevels hacc
  | some fill =>
    -- the key is taken: it is neither the key of a FILLED event nor of the whole quantity
    have hfree : ¬ (levelOf entry = whole ∨ isFilled entry = true) := by
      intro h
      rw [find_fill_eq_none.mpr (hrec h)] at hfound
      cases hfound
    have hnext : (recording client_order_id).next (.adding entry order entries)
        (.repo (.get_fill_by_exchange_trade_id account_id key)) (.ok (some fill)) =
          .idle entries := if_neg fun h => hfree (Or.inr h)
    rw [hnext]
    apply books_read (h := .idle entries) hb hdb.symm fun e he =>
      hlevels e (List.mem_cons_of_mem _ he)
    rcases account_cases hacc with ⟨hγ, -⟩ | ⟨id, q, ⟨-, hle, hrow, hbal, e, he, hlevel⟩, hback⟩
    · rw [hγ] at hacc
      exact absurd hacc id
    · apply hback
      refine ⟨order.filled_qty, hle, hrow, hbal, Or.inr ?_⟩
      rcases List.mem_cons.mp he with rfl | he
      · exact absurd (Or.inl hlevel) hfree
      · exact ⟨e, he, hlevel⟩

/-- A leg is one more fill row of its order. -/
theorem insert_fill_adds {args : FillArgs} (hi : insert_fill args db = .ok ((), db')) :
    db'.orders = db.orders ∧ db'.next_id = db.next_id ∧
      db'.filled args.order_id = db.filled args.order_id + args.qty ∧
      ∀ f ∈ db'.fills, f ∈ db.fills ∨ f.order_id = args.order_id := by
  unfold insert_fill at hi
  split at hi
  · cases hi
  · obtain ⟨rfl, hsum, -⟩ := add_fill_adds hi
    refine ⟨rfl, rfl, hsum, ?_⟩
    intro f hf
    rcases List.mem_append.mp hf with hf | hf
    · exact Or.inl hf
    · obtain rfl := List.mem_singleton.mp hf
      exact Or.inr rfl

/-- The leg of the entry is stored: the fill rows reach the entry before the row does. -/
theorem books_insert_fill {w : World} {γ : Nat → Progress} {o : Choice} {args : FillArgs}
    (hb : Books client_order_id whole w γ) (hg : γ 1 = .adding entry order entries)
    (hargs : args.order_id = order.id ∧ args.qty = levelOf entry - order.filled_qty)
    (hok : NoRepoCallFails w (.repo (.insert_fill args)) o) :
    Books client_order_id whole (w.exec (.repo (.insert_fill args)) o).2
      (Function.update γ 1 ((recording client_order_id).next (γ 1) (.repo (.insert_fill args))
        (w.exec (.repo (.insert_fill args)) o).1)) := by
  obtain ⟨u, hans, htxn⟩ := txn_of_ok hok
  obtain ⟨horders, hnext_id, hsum, hnew⟩ := insert_fill_adds htxn
  have hlevels := hb.levels
  have hacc := hb.account
  have hdrawn := hb.drawn
  rw [hg] at hlevels hacc ⊢
  rw [hans]
  have hnext : (recording client_order_id).next (.adding entry order entries)
      (.repo (.insert_fill args)) (.ok u) = .setting entry order entries := rfl
  rw [hnext]
  rcases account_cases hacc with ⟨hγ, -⟩ | ⟨id, q, hadding, hback⟩
  · rw [hγ] at hacc
    exact absurd hacc id
  obtain ⟨row, hmem, hrid⟩ := row_of_accounted hadding
  obtain ⟨hid, -, hrow, hbal, haw⟩ := hadding
  refine books_reconciler hb ⟨?_, ?_⟩ hlevels ?_
  · rw [horders, hnext_id]
    exact hdrawn.orders
  · rw [hnext_id]
    intro f hf
    rcases hnew f hf with hf | hf
    · exact hdrawn.fills f hf
    · have := hdrawn.orders row hmem
      rw [hf, hargs.1, hid, ← hrid]
      exact this
  · apply hback
    refine ⟨hid, ⟨_, rowAt_congr hrow horders⟩, ?_, haw⟩
    rw [hargs.1, hargs.2, hid] at hsum
    linarith

theorem update_order_sets {now : Nat} {z z' price : ℚ} {status : Option String}
    (hu : update_order_filled_qty now order_id z' price status db = .ok ((), db'))
    (hrow : RowAt db client_order_id order_id z) (hdrawn : Drawn db) :
    RowAt db' client_order_id order_id z' ∧ db'.fills = db.fills ∧ Drawn db' := by
  unfold update_order_filled_qty at hu
  cases hu
  have hset : ∀ o : Order, (if o.id = order_id then o.filled_to now z' price status else o).id = o.id ∧
      (if o.id = order_id then o.filled_to now z' price status else o).client_order_id =
        o.client_order_id := by
    intro o
    split
    · exact ⟨rfl, rfl⟩
    · exact ⟨rfl, rfl⟩
  refine ⟨⟨?_, ?_⟩, rfl, ⟨?_, hdrawn.fills⟩⟩
  · obtain ⟨o, ho, hid, hcid⟩ := hrow.row
    exact ⟨_, List.mem_map_of_mem ho, (hset o).1.trans hid, (hset o).2.trans hcid⟩
  · intro x hx hcid
    obtain ⟨o, ho, rfl⟩ := List.mem_map.mp hx
    have hid := (hrow.only o ho ((hset o).2.symm.trans hcid)).1
    refine ⟨(hset o).1.trans hid, ?_⟩
    rw [if_pos hid]
    rfl
  · intro x hx
    obtain ⟨o, ho, rfl⟩ := List.mem_map.mp hx
    rw [(hset o).1]
    exact hdrawn.orders o ho

/-- The row is set to the entry, whose leg is stored. -/
theorem books_update_order {w : World} {γ : Nat → Progress} {o : Choice} {price : ℚ}
    {status : Option String} (hb : Books client_order_id whole w γ)
    (hg : γ 1 = .setting entry order entries)
    (hok : NoRepoCallFails w
      (.repo (.update_order_filled_qty order.id (levelOf entry) price status)) o) :
    Books client_order_id whole
      (w.exec (.repo (.update_order_filled_qty order.id (levelOf entry) price status)) o).2
      (Function.update γ 1 ((recording client_order_id).next (γ 1)
        (.repo (.update_order_filled_qty order.id (levelOf entry) price status))
        (w.exec (.repo (.update_order_filled_qty order.id (levelOf entry) price status)) o).1)) := by
  obtain ⟨u, hans, htxn⟩ := txn_of_ok hok
  have hlevels := hb.levels
  have hacc := hb.account
  rw [hg] at hlevels hacc ⊢
  rw [hans]
  have hnext : (recording client_order_id).next (.setting entry order entries)
      (.repo (.update_order_filled_qty order.id (levelOf entry) price status)) (.ok u) =
        .idle entries := rfl
  rw [hnext]
  rcases account_cases hacc with ⟨hγ, -⟩ | ⟨id, q, ⟨hid, ⟨z, hrow⟩, hbal, e, he, hlevel⟩, hback⟩
  · rw [hγ] at hacc
    exact absurd hacc id
  rw [← hid] at hrow hbal
  obtain ⟨hrow', hfills, hdrawn'⟩ := update_order_sets htxn hrow hb.drawn
  refine books_reconciler hb hdrawn' ?_ ?_
  · intro e he
    exact hlevels e (List.mem_cons_of_mem _ he)
  · apply hback
    rw [← hid]
    refine ⟨levelOf entry, hlevels entry List.mem_cons_self, hrow', ?_, ?_⟩
    · rw [filled_congr hfills]
      exact hbal
    · rcases List.mem_cons.mp he with rfl | he
      · exact Or.inl hlevel
      · exact Or.inr ⟨e, he, hlevel⟩

/-- What a thread may call, by its progress. -/
theorem recording_cases {c : Cmd} (ha : (recording client_order_id).allows g c) :
    (g.Rests ∧ c.off_ledger) ∨
    (∃ job_id request response, g = .unordered ∧
      c = .repo (.create_order job_id request client_order_id response)) ∨
    (∃ id request response, g = .ordered id response ∧
      c = .repo (.save_fill id request response)) ∨
    (∃ entry entries, g = .idle (entry :: entries) ∧
      c = .repo (.get_job_by_client_order_id client_order_id)) ∨
    (∃ entry entries, g = .reading entry entries ∧
      c = .repo (.get_order_by_client_order_id client_order_id)) ∨
    (∃ entry order entries account_id key, g = .adding entry order entries ∧
      c = .repo (.get_fill_by_exchange_trade_id account_id key)) ∨
    (∃ entry order entries args, g = .adding entry order entries ∧ c = .repo (.insert_fill args) ∧
      args.order_id = order.id ∧ args.qty = levelOf entry - order.filled_qty) ∨
    ∃ entry order entries price status, g = .setting entry order entries ∧
      c = .repo (.update_order_filled_qty order.id (levelOf entry) price status) := by
  cases g with
  | unordered =>
    cases c with
    | repo c =>
      cases c with
      | create_order job_id request x response =>
        obtain rfl : x = client_order_id := ha
        exact Or.inr (Or.inl ⟨job_id, request, response, rfl, rfl⟩)
      | _ => exact Or.inl ⟨trivial, ha⟩
    | _ => exact Or.inl ⟨trivial, ha⟩
  | ordered order_id response =>
    cases c with
    | repo c =>
      cases c with
      | save_fill x request r =>
        obtain ⟨rfl, rfl⟩ : x = order_id ∧ r = response := ha
        exact Or.inr (Or.inr (Or.inl ⟨x, request, r, rfl, rfl⟩))
      | _ => exact ha.elim
    | _ => exact ha.elim
  | saved id => exact Or.inl ⟨trivial, ha⟩
  | failed => exact Or.inl ⟨trivial, ha⟩
  | idle entries =>
    cases entries with
    | nil => exact Or.inl ⟨trivial, ha⟩
    | cons entry entries =>
      cases c with
      | repo c =>
        cases c with
        | get_job_by_client_order_id x =>
          obtain rfl : x = client_order_id := ha
          exact Or.inr (Or.inr (Or.inr (Or.inl ⟨entry, entries, rfl, rfl⟩)))
        | _ => exact Or.inl ⟨trivial, ha⟩
      | _ => exact Or.inl ⟨trivial, ha⟩
  | reading entry entries =>
    cases c with
    | repo c =>
      cases c with
      | get_order_by_client_order_id x =>
        obtain rfl : x = client_order_id := ha
        exact Or.inr (Or.inr (Or.inr (Or.inr (Or.inl ⟨entry, entries, rfl, rfl⟩))))
      | _ => exact ha.elim
    | _ => exact ha.elim
  | adding entry order entries =>
    right; right; right; right; right
    cases c with
    | repo c =>
      cases c with
      | get_fill_by_exchange_trade_id account_id key =>
        exact Or.inl ⟨entry, order, entries, account_id, key, rfl, rfl⟩
      | insert_fill args => exact Or.inr (Or.inl ⟨entry, order, entries, args, rfl, rfl, ha⟩)
      | _ => exact ha.elim
    | _ => exact ha.elim
  | setting entry order entries =>
    right; right; right; right; right; right; right
    cases c with
    | repo c =>
      cases c with
      | update_order_filled_qty x z price status =>
        obtain ⟨rfl, rfl⟩ : x = order.id ∧ z = levelOf entry := ha
        exact ⟨entry, order, entries, price, status, rfl, rfl⟩
      | _ => exact ha.elim
    | _ => exact ha.elim

/-- The consumer is thread 0 and the reconciler thread 1. -/
theorem books_threads {w : World} {γ : Nat → Progress} (hb : Books client_order_id whole w γ)
    (i : Nat) :
    (γ i = .unordered ∨ (∃ id response, γ i = .ordered id response) → i = 0) ∧
      ((γ i).entries ≠ [] → i = 1) := by
  have hacc := hb.account
  rcases Nat.lt_trichotomy i 1 with hi | rfl | hi
  · obtain rfl : i = 0 := by omega
    refine ⟨fun _ => rfl, fun hne => ?_⟩
    cases hγ : γ 0 with
    | idle _ | reading _ _ | adding _ _ _ | setting _ _ _ =>
      rw [hγ] at hacc
      exact absurd hacc (by unfold Account; simp)
    | _ =>
      rw [hγ] at hne
      exact absurd rfl hne
  · refine ⟨fun h => ?_, fun _ => rfl⟩
    have hnone : ∀ g h, (h = .unordered ∨ ∃ id response, h = .ordered id response) →
        ¬ Account client_order_id whole w.db g h := by
      rintro g h (rfl | ⟨id, response, rfl⟩)
      · cases g <;> simp [Account, Accounted]
      · cases g <;> simp [Account, Accounted]
    exact absurd hacc (hnone _ _ h)
  · rw [hb.others i hi]
    refine ⟨?_, fun hne => absurd rfl hne⟩
    rintro (h | ⟨_, _, h⟩) <;> cases h

/-- Every allowed call of the two threads keeps the books, if no repository call fails and the
entries can be recorded. -/
theorem books_step (w : World) (γ : Nat → Progress) (i : Nat) (c : Cmd) (o : Choice)
    (hb : Books client_order_id whole w γ) (ha : (recording client_order_id).allows (γ i) c)
    (hK : NoRepoCallFails w c o ∧ Recordable whole w (γ i) c) :
    Books client_order_id whole (w.exec c o).2
      (Function.update γ i ((recording client_order_id).next (γ i) c (w.exec c o).1)) := by
  obtain ⟨hok, hrec⟩ := hK
  obtain ⟨hconsumer, hreconciler⟩ := books_threads hb i
  rcases recording_cases ha with ⟨hrests, hoff⟩ | ⟨job_id, request, response, hg, rfl⟩ |
    ⟨id, request, response, hg, rfl⟩ | ⟨entry, entries, hg, rfl⟩ | ⟨entry, entries, hg, rfl⟩ |
    ⟨entry, order, entries, account_id, key, hg, rfl⟩ | ⟨entry, order, entries, args, hg, rfl, hargs⟩ |
    ⟨entry, order, entries, price, status, hg, rfl⟩
  · rw [(recording_off_ledger hrests c hoff).2, Function.update_eq_self]
    exact books_off_ledger hoff hb o
  · obtain rfl := hconsumer (Or.inl hg)
    rw [hg] at hrec
    exact books_create_order hb hg hok hrec.1 hrec.2
  · obtain rfl := hconsumer (Or.inr ⟨id, response, hg⟩)
    exact books_save_fill hb hg hok
  all_goals
    obtain rfl := hreconciler (by rw [hg]; simp [Progress.entries])
  · exact books_get_job hb hg hok hrec
  · exact books_get_order hb hg hok hrec
  · exact books_get_fill hb hg hok hrec
  · exact books_insert_fill hb hg hargs hok
  · exact books_update_order hb hg hok

end Step

/-! ## Every interleaving -/

/-- The client order ids that the service makes are its own. -/
theorem is_ours_client_order_id (consumer : ExecutionConsumer) (sha256 : String → String)
    (intent : TradeIntent) : is_ours (consumer.client_order_id sha256 intent) = true := by
  unfold is_ours ExecutionConsumer.client_order_id make_client_order_id
  simp only
  rw [String.toList_append]
  exact List.isPrefixOf_iff_prefix.mpr (List.prefix_append _ _)

theorem filled_for_of_rowAt {db : Db} {client_order_id : String} {order_id : Nat} {z : ℚ}
    (h : RowAt db client_order_id order_id z) : db.filled_for client_order_id = db.filled order_id := by
  have hfilter : (db.fills.filter fun f => db.orders.any fun o =>
      o.id = f.order_id ∧ o.client_order_id = client_order_id) =
        db.fills.filter (·.order_id = order_id) := by
    apply List.filter_congr
    intro f _
    rw [Bool.eq_iff_iff, List.any_eq_true, decide_eq_true_iff]
    constructor
    · rintro ⟨o, ho, hof⟩
      obtain ⟨hid, hcid⟩ := of_decide_eq_true hof
      exact hid.symm.trans (h.only o ho hcid).1
    · intro hf
      obtain ⟨o, ho, hid, hcid⟩ := h.row
      exact ⟨o, ho, decide_eq_true ⟨hid.trans hf.symm, hcid⟩⟩
  unfold Db.filled_for Db.filled
  rw [hfilter]

/-- The handling of an intent, and the delivery of the events of its order. -/
def order_threads (consumer : ExecutionConsumer) (reconciler : NormalizedEventConsumer)
    (sha256 : String → String) (job_id : Uuid) (msg_id : String) (intent : TradeIntent)
    (entries : List EventEntry) : List (Py Unit) :=
  [consumer.process sha256 job_id ⟨msg_id, .valid intent⟩, reconciler.process_all entries]

def first_progress (entries : List EventEntry) : Nat → Progress
  | 0 => .unordered
  | 1 => .idle entries
  | _ => .idle []

/-- What a thread has come to when it ends. -/
def Finished (i : Nat) (r : Except PyErr Unit) (g : Progress) : Prop :=
  if i = 0 then g.Rests else NormalizedEventConsumer.Leaves [] r g

/-- For every interleaving of the handling of an intent with the delivery of the events of its
order, up to the end of both and without a failing repository call: if each step meets
`Recordable`, the fill rows of the order add up to the largest cumulative quantity. -/
theorem no_fill_is_lost (consumer : ExecutionConsumer) (reconciler : NormalizedEventConsumer)
    (sha256 : String → String) (job_id : Uuid) (msg_id : String) (intent : TradeIntent)
    (entries : List EventEntry) (whole : ℚ) (w : World) (acts : List (Act Choice))
    (hadapter : ∀ request x, (consumer.adapter.submit request x).Calls Cmd.off_ledger)
    (hrepo : reconciler.repository = true) (hdrawn : Drawn w.db)
    (hnew : ¬ HasOrder w.db (consumer.client_order_id sha256 intent))
    (hfills : ∀ entry ∈ entries, IsFillOf (consumer.client_order_id sha256 intent) entry)
    (hwhole : whole ∈ entries.map levelOf ∧ ∀ z ∈ entries.map levelOf, z ≤ whole)
    (hmeets : (Config.start w
      (order_threads consumer reconciler sha256 job_id msg_id intent entries)).Meets World.exec
        (recording (consumer.client_order_id sha256 intent)) (first_progress entries)
        (fun w g c o => NoRepoCallFails w c o ∧ Recordable whole w g c) acts) :
    let cfg := (Config.start w
      (order_threads consumer reconciler sha256 job_id msg_id intent entries)).run World.exec acts
    cfg.Returned →
      cfg.shared.db.filled_for (consumer.client_order_id sha256 intent) = whole := by
  intro cfg hreturned
  have hawaited : Awaited whole entries := by
    obtain ⟨entry, hentry, hlevel⟩ := List.mem_map.mp hwhole.1
    exact ⟨entry, hentry, hlevel⟩
  have hstart : (Config.start w
      (order_threads consumer reconciler sha256 job_id msg_id intent entries)).Kept
        (recording (consumer.client_order_id sha256 intent)) (first_progress entries)
        (Books (consumer.client_order_id sha256 intent) whole) Finished := by
    apply Config.kept_start
    · refine ⟨hdrawn, ?_, ⟨hnew, hawaited⟩, ?_⟩
      · intro entry hentry
        exact hwhole.2 _ (List.mem_map_of_mem hentry)
      · intro i hi
        rcases i with _ | _ | i
        · omega
        · omega
        · rfl
    · intro i p hp
      rcases i with _ | _ | i
      · cases hp
        exact consumer.recording_process hadapter sha256 job_id msg_id intent
      · cases hp
        exact reconciler.recording_process_all hrepo (is_ours_client_order_id ..) hfills
      · cases hp
  have hkept := Config.run_keeps books_step hstart hmeets
  have hended : ∀ i p, cfg.threads[i]? = some p → Finished i (.ok ())
      (cfg.ghost (recording (consumer.client_order_id sha256 intent)) (first_progress entries) i) := by
    intro i p hp
    obtain ⟨u, rfl⟩ := Prog.eq_done_of_returned (hreturned p (List.mem_of_getElem? hp))
    exact hkept.obeys i _ hp
  have hlen : cfg.threads.length = 2 := Config.run_length World.exec _ acts
  have hg0 := hended 0 _ (List.getElem?_eq_getElem (by omega))
  have hg1 : cfg.ghost _ _ 1 = Progress.idle [] := hended 1 _ (List.getElem?_eq_getElem (by omega)) rfl
  have hnone : ¬ Awaited whole [] := by
    rintro ⟨entry, hentry, -⟩
    exact List.not_mem_nil hentry
  have hacc := hkept.inv.account
  rw [hg1] at hacc
  cases hγ : cfg.ghost (recording (consumer.client_order_id sha256 intent)) (first_progress entries) 0 with
  | unordered =>
    rw [hγ] at hacc
    exact absurd hacc.2 hnone
  | ordered order_id response =>
    rw [hγ] at hg0
    exact hg0.elim
  | saved order_id =>
    rw [hγ] at hacc
    obtain ⟨z, -, hrow, hbal, haw⟩ := hacc
    rw [filled_for_of_rowAt hrow, ← haw.resolve_right hnone, ← hbal, add_zero]
  | _ =>
    rw [hγ] at hacc
    exact absurd hacc (by unfold Account; simp)

/-- The live adapter leaves the ledger alone. -/
theorem LiveExecutionAdapter.submit_off_ledger (self : LiveExecutionAdapter)
    (upper : String → String) (request : ExecutionRequest) (client_order_id : String) :
    (self.submit upper request client_order_id).Calls Cmd.off_ledger := by
  unfold submit
  dsimp only
  split
  · apply calls_bind
    · unfold log_policy_block
      split
      · exact calls_mono (log_incident_calls _) fun _ => off_ledger_of_reports
      · exact calls_done _
    · intro _
      exact calls_done _
  · split
    · exact calls_done _
    · unfold submit_to_exchange
      apply calls_bind (calls_perform trivial)
      intro timestamp
      apply calls_bind
      · apply calls_attempt
        apply calls_bind (calls_perform trivial)
        intro resp
        cases read_reply client_order_id resp <;> trivial
      · rintro (e | response) <;> trivial

/-! ## An event before the order row -/

/-- The whole order of the intent is filled. -/
def demo_last_fill : EventEntry where
  msg_id := "9-0"
  event := .user_order "BTCUSDT" {
    client_order_id := live_consumer.client_order_id id demo_intent
    exchange_order_id := "5"
    order_status := "FILLED"
    filled_qty := "1"
    orig_qty := "1"
    avg_price := "100"
    trade_time_ms := 7 }

/-- The consumer makes `n` calls, the event is delivered, and the consumer goes on. -/
def delivered_after (n : Nat) : List (Act Choice) :=
  List.replicate n ⟨0, resting⟩ ++ List.replicate 10 ⟨1, resting⟩ ++ List.replicate 30 ⟨0, resting⟩

/-- The event comes when the exchange has accepted the order. Nothing fails, and the order of
1 has no fill. -/
theorem an_early_fill_is_lost :
    let cfg := (Config.start demo_world
      (order_threads live_consumer {} id "j1" "1-0" demo_intent [demo_last_fill])).run World.exec
        (delivered_after 17)
    cfg.Returned ∧ (∀ e ∈ cfg.trace, e.2.answered = true) ∧ levelOf demo_last_fill = 1 ∧
      cfg.shared.db.filled_for (live_consumer.client_order_id id demo_intent) = 0 := by
  decide +kernel

/-- The event comes between the order row and the status `filled`. -/
theorem a_fill_in_time_is_stored :
    ((Config.start demo_world
      (order_threads live_consumer {} id "j1" "1-0" demo_intent [demo_last_fill])).run World.exec
        (delivered_after 25)).shared.db.filled_for
          (live_consumer.client_order_id id demo_intent) = 1 := by
  apply no_fill_is_lost live_consumer {} id "j1" "1-0" demo_intent [demo_last_fill] 1 demo_world
    (delivered_after 25)
  · exact LiveExecutionAdapter.demo_live.submit_off_ledger id
  · rfl
  · exact (unstored_demo_world "j1" "").drawn
  · decide
  · decide +kernel
  · decide +kernel
  · decide +kernel
  · decide +kernel

end trading_platform.execution
