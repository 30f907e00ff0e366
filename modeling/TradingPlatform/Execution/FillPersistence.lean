-- What is stored of an accepted submission. The order row, the fill row and
-- the job status `filled` are three transactions under one handler: each is
-- made only after the one before it came back, so a failure or a crash leaves
-- some of them out, the last ones first.
import TradingPlatform.Execution.JobHistory
import TradingPlatform.Execution.LiveGate

open resumption
open trading_platform.shared

namespace trading_platform.execution

/-! ## The commands of `_process` -/

/-- The fields of an event of the type `job_filled`. -/
def publishesFilled (fields : List (String × Json)) : Bool :=
  match fields with
  | ("event_type", .str event_type) :: _ => event_type = "job_filled"
  | _ => false

/-- The commands of `_process` that neither store a fill nor report one. -/
def Cmd.plain : Cmd → Prop
  | .redis (.xadd _ fields) => publishesFilled fields = false
  | .redis _ => True
  | .repo (.create_job ..) => True
  | .repo (.update_job_status _ status ..) => status ≠ .filled
  | .repo (.get_daily_realized_loss_usd _) => True
  | .repo (.get_open_positions_count _) => True
  | .repo (.select_account _) => True
  | .repo (.insert_incident _) => True
  | .time_ms => True
  | _ => False

theorem publish_plain {event_type : String} (h : event_type ≠ "job_filled") (job_id : String)
    (data : List (String × Json)) :
    (ExecutionEventPublisher.publish event_type job_id data).Calls Cmd.plain := by
  apply calls_bind (calls_perform trivial)
  intro ms
  refine ⟨?_, fun r => by cases r <;> trivial⟩
  simpa [Cmd.plain, publishesFilled] using h

theorem evaluate_plain (engine : ExecutionRiskEngine) (request : ExecutionRequest)
    (loss : Option ℚ) (positions : Option Nat) (limits : Option RiskLimits) :
    (onRedis (engine.evaluate request loss positions limits)).Calls Cmd.plain := by
  apply calls_onRedis
  apply calls_mono (evaluate_calls ..)
  intro c hc
  cases c <;> trivial

theorem plain_of_asks {c : Cmd} (h : c.asks) : c.plain := by
  cases c with
  | repo d => cases d <;> trivial
  | redis _ | submit _ _ | post_order _ | time_ms => exact absurd h id

namespace ExecutionConsumer

variable (self : ExecutionConsumer)

theorem ack_plain (msg_id : String) : (self.ack msg_id).Calls Cmd.plain :=
  calls_swallow (calls_onRedis (calls_perform trivial))

theorem try_status_plain (job_id : Uuid) {status : JobStatus} (h : status ≠ .filled)
    (event_data : Option Json) (error : Option String) :
    (self.try_status job_id status event_data error).Calls Cmd.plain := by
  unfold try_status
  split
  · exact calls_swallow (calls_perform h)
  · trivial

theorem on_blocked_plain (job_id : Uuid) (client_order_id : String) (failures : List String)
    (metadata : List (String × Json)) :
    (self.on_blocked job_id client_order_id failures metadata).Calls Cmd.plain := by
  unfold on_blocked
  apply calls_bind (self.try_status_plain job_id (by decide) _ _)
  intro _
  apply publish_plain
  split
  · decide
  · split
    · decide
    · decide

theorem on_failed_plain (job_id : Uuid) (client_order_id reason error : String)
    (intent : Option TradeIntent) (account_id : String) :
    (self.on_failed job_id client_order_id reason error intent account_id).Calls Cmd.plain := by
  unfold on_failed
  apply calls_bind (self.try_status_plain job_id (by decide) _ _)
  intro _
  apply calls_bind (publish_plain (by decide) _ _)
  intro _
  split
  · exact calls_swallow (calls_perform trivial)
  · trivial

theorem acknowledge_plain (job_id : Uuid) (response : AdapterResponse) :
    (self.acknowledge job_id response).Calls Cmd.plain := by
  unfold acknowledge
  apply calls_bind (self.try_status_plain job_id (by decide) _ _)
  intro _
  apply calls_bind (publish_plain (by decide) _ _)
  intro _
  apply calls_bind (self.try_status_plain job_id (by decide) _ _)
  intro _
  exact publish_plain (by decide) _ _

theorem limits_override_plain (account_id : String) :
    (self.limits_override account_id).Calls Cmd.plain :=
  calls_mono (self.limits_override_calls account_id) fun _ => plain_of_asks

theorem risk_data_plain (account_id : String) : (self.risk_data account_id).Calls Cmd.plain :=
  calls_mono (self.risk_data_calls account_id) fun _ => plain_of_asks

end ExecutionConsumer

/-! ## How far the storing has come -/

/-- How many of the three calls came back. -/
inductive StoreStage where
  | unordered
  | ordered (order_id : Nat)
  | saved (order_id : Nat)
  | filled (order_id : Nat)
  deriving DecidableEq

/-- The ghost state: the accepted response, the stage, whether one of the three
calls raised, and whether `job_filled` was published. -/
structure Storing where
  response : Option AdapterResponse := none
  stage : StoreStage := .unordered
  raised : Bool := false
  published : Bool := false

/-- The response that an adapter call gives, when it says success. -/
def accepted_response : Except PyErr AdapterResponse → Option AdapterResponse
  | .ok response => if response.success then some response else none
  | .error _ => none

/-- The three calls in their order, for one request and its client order id. -/
def storing (job_id : Uuid) (request : ExecutionRequest) (client_order_id : String) :
    Protocol PyErr Cmd Ans Storing where
  allows g c := match c with
    | .submit r c => r = request ∧ c = client_order_id ∧ g.response = none
    | .repo (.create_order j r c response) =>
      j = job_id ∧ r = request ∧ c = client_order_id ∧ g.response = some response ∧
        g.stage = .unordered ∧ g.raised = false
    | .repo (.save_fill order_id r response) =>
      r = request ∧ g.response = some response ∧ g.stage = .ordered order_id ∧ g.raised = false
    | .repo (.update_job_status j .filled ..) =>
      j = job_id ∧ (∃ order_id, g.stage = .saved order_id) ∧ g.raised = false
    -- an earlier status is not written once storing has begun
    | .repo (.update_job_status ..) => g.stage = .unordered
    | .redis (.xadd _ fields) =>
      publishesFilled fields = true → g.raised = true ∨ ∃ order_id, g.stage = .filled order_id
    | c => c.plain
  next g c r := match c, r with
    | .submit .., r => { g with response := accepted_response r }
    | .repo (.create_order ..), .ok order_id => { g with stage := .ordered order_id }
    | .repo (.create_order ..), .error _ => { g with raised := true }
    | .repo (.save_fill order_id ..), .ok _ => { g with stage := .saved order_id }
    | .repo (.save_fill ..), .error _ => { g with raised := true }
    | .repo (.update_job_status _ .filled ..), .ok _ =>
      match g.stage with
      | .saved order_id => { g with stage := .filled order_id }
      | _ => g
    | .repo (.update_job_status _ .filled ..), .error _ => { g with raised := true }
    | .redis (.xadd _ fields), _ =>
      if publishesFilled fields then { g with published := true } else g
    | _, _ => g

/-! ## `_process` keeps to that order -/

/-- Before anything is stored, the plain commands are allowed and change
nothing. -/
theorem storing_plain {job_id : Uuid} {request : ExecutionRequest} {client_order_id : String}
    {g : Storing} (hg : g.stage = .unordered) (c : Cmd) (h : c.plain) :
    (storing job_id request client_order_id).allows g c ∧
      ∀ r, (storing job_id request client_order_id).next g c r = g := by
  cases c with
  | redis c =>
    cases c with
    | xadd stream fields =>
      have hno : publishesFilled fields = false := h
      refine ⟨?_, fun r => ?_⟩
      · intro hyes
        rw [hno] at hyes
        cases hyes
      · simp [storing, hno]
    | set _ _ _ _ | get _ | «exists» _ | delete _ | ttl _ | xack _ _ _ =>
      exact ⟨trivial, fun r => rfl⟩
  | repo c =>
    cases c with
    | update_job_status j status data result error =>
      cases status with
      | filled => exact absurd rfl h
      | _ => exact ⟨hg, fun r => rfl⟩
    | create_job _ _ _ | get_daily_realized_loss_usd _ | get_open_positions_count _
      | select_account _ | insert_incident _ => exact ⟨trivial, fun r => rfl⟩
    | _ => exact absurd h id
  | submit _ _ | post_order _ => exact absurd h id
  | time_ms => exact ⟨trivial, fun r => rfl⟩

/-- Plain commands of Redis and the clock, at any stage. -/
def Cmd.late (c : Cmd) : Prop := c.plain ∧ ∀ d, c ≠ .repo d

theorem storing_late {job_id : Uuid} {request : ExecutionRequest} {client_order_id : String}
    {g : Storing} (c : Cmd) (h : c.late) :
    (storing job_id request client_order_id).allows g c ∧
      ∀ r, (storing job_id request client_order_id).next g c r = g := by
  obtain ⟨hplain, hrepo⟩ := h
  cases c with
  | repo d => exact absurd rfl (hrepo d)
  | redis c =>
    cases c with
    | xadd stream fields =>
      have hno : publishesFilled fields = false := hplain
      refine ⟨?_, fun r => ?_⟩
      · intro hyes
        rw [hno] at hyes
        cases hyes
      · simp [storing, hno]
    | set _ _ _ _ | get _ | «exists» _ | delete _ | ttl _ | xack _ _ _ =>
      exact ⟨trivial, fun r => rfl⟩
  | submit _ _ | post_order _ => exact absurd hplain id
  | time_ms => exact ⟨trivial, fun r => rfl⟩

namespace ExecutionConsumer

variable (self : ExecutionConsumer)

section Storing

variable {job_id : Uuid} {request : ExecutionRequest} {client_order_id : String}

/-- The three calls came back, or one of them raised. -/
def Stored (g : Storing) : Prop := g.raised = true ∨ ∃ order_id, g.stage = .filled order_id

/-- At the end nothing was stored, or the storing was gone through. -/
def Over (g : Storing) : Prop := g.stage = .unordered ∨ Stored g

theorem stores_in_order (hrepo : self.repository = true) {g : Storing}
    {response : AdapterResponse} (hresponse : g.response = some response)
    (hstage : g.stage = .unordered) (hraised : g.raised = false) :
    Obeys (storing job_id request client_order_id) g
      (self.persist_fill job_id request client_order_id response) fun _ g' => Stored g' := by
  unfold persist_fill
  rw [if_pos hrepo, obeys_swallow, obeys_bind]
  apply obeys_perform.mpr
  refine ⟨⟨rfl, rfl, rfl, hresponse, hstage, hraised⟩, ?_⟩
  rintro (e | order_id)
  · exact Or.inl rfl
  dsimp only
  rw [obeys_bind]
  apply obeys_perform.mpr
  refine ⟨⟨rfl, hresponse, rfl, hraised⟩, ?_⟩
  rintro (e | _)
  · exact Or.inl rfl
  dsimp only
  apply obeys_perform.mpr
  refine ⟨⟨rfl, ⟨order_id, rfl⟩, hraised⟩, ?_⟩
  rintro (e | _)
  · exact Or.inl rfl
  · exact Or.inr ⟨order_id, rfl⟩

theorem ack_late (msg_id : String) : (self.ack msg_id).Calls Cmd.late := by
  apply calls_swallow
  refine ⟨⟨trivial, fun d h => nomatch h⟩, fun r => ?_⟩
  cases r <;> trivial

theorem storing_on_filled (hrepo : self.repository = true) (msg_id : String) {g : Storing}
    {response : AdapterResponse} (hresponse : g.response = some response)
    (hstage : g.stage = .unordered) (hraised : g.raised = false) :
    Obeys (storing job_id request client_order_id) g
      (self.on_filled msg_id job_id request client_order_id response) fun _ g' => Over g' := by
  unfold on_filled
  apply obeys_bind_of_calls (self.acknowledge_plain job_id response) (storing_plain hstage)
  · intro _
    apply obeys_bind_of (self.stores_in_order hrepo hresponse hstage hraised)
    · intro _ g' hstored
      unfold ExecutionEventPublisher.publish
      rw [Prog.bind_assoc, obeys_bind]
      apply obeys_perform.mpr
      refine ⟨trivial, ?_⟩
      rintro (e | ms)
      · exact Or.inr hstored
      dsimp only
      rw [obeys_bind]
      refine ⟨fun _ => hstored, ?_⟩
      rintro (e | _)
      · exact Or.inr hstored
      show Obeys _ _ (onRedis (CooldownControl.set_cooldown request.account_id
        request.trade_intent.symbol self.settings.symbol_cooldown_s) >>= fun _ =>
          self.ack msg_id) _
      apply obeys_of_calls _ storing_late fun _ => Or.inr hstored
      apply calls_bind
      · refine ⟨⟨trivial, fun d h => nomatch h⟩, fun r => ?_⟩
        cases r <;> trivial
      · intro _
        exact self.ack_late msg_id
    · intro e g' hstored
      exact Or.inr hstored
  · intro e
    exact Or.inl hstage

/-- A failure is reported, and the entry acknowledged. -/
theorem storing_reported {g : Storing} (hg : g.stage = .unordered) {p : Py Unit}
    (hp : p.Calls Cmd.plain) (msg_id : String) :
    Obeys (storing job_id request client_order_id) g (p >>= fun _ => self.ack msg_id)
      fun _ g' => Over g' := by
  apply obeys_of_calls _ (storing_plain hg) fun _ => Or.inl hg
  exact calls_bind hp fun _ => self.ack_plain msg_id

/-- The submission, and what follows its answer. -/
theorem storing_submit_approved (hrepo : self.repository = true)
    (hadapter : self.adapter = some_adapter) (msg_id : String) (decision : RiskDecision) :
    Obeys (storing job_id request client_order_id) {}
      (self.submit_approved msg_id job_id request client_order_id decision) fun _ g' => Over g' := by
  unfold submit_approved
  apply obeys_bind_of_calls (self.try_status_plain job_id (by decide) _ _) (storing_plain rfl) _
    (fun _ => Or.inl rfl)
  intro _
  apply obeys_bind_of_calls (publish_plain (by decide) _ _) (storing_plain rfl) _
    (fun _ => Or.inl rfl)
  intro _
  rw [obeys_bind, obeys_attempt, hadapter]
  apply obeys_perform.mpr
  refine ⟨⟨rfl, rfl, rfl⟩, ?_⟩
  rintro (e | response)
  · exact self.storing_reported rfl (self.on_failed_plain ..) msg_id
  · dsimp only
    split
    · exact self.storing_reported rfl (self.on_failed_plain ..) msg_id
    · rename_i hsuccess
      apply self.storing_on_filled hrepo msg_id
      · simp [storing, accepted_response, of_not_not hsuccess]
      · rfl
      · rfl

theorem storing_risk_gate (hrepo : self.repository = true)
    (hadapter : self.adapter = some_adapter) (msg_id : String) :
    Obeys (storing job_id request client_order_id) {}
      (self.risk_gate msg_id job_id request client_order_id) fun _ g' => Over g' := by
  unfold risk_gate
  apply obeys_bind_of_calls (self.limits_override_plain _) (storing_plain rfl) _
    (fun _ => Or.inl rfl)
  intro limits
  apply obeys_bind_of_calls (self.risk_data_plain _) (storing_plain rfl) _ (fun _ => Or.inl rfl)
  rintro ⟨loss, positions⟩
  apply obeys_bind_of_calls (calls_attempt (evaluate_plain ..))
    (storing_plain rfl) _ (fun _ => Or.inl rfl)
  rintro (exc | decision)
  · exact self.storing_reported rfl (self.on_failed_plain ..) msg_id
  · dsimp only
    split
    · exact self.storing_reported rfl (self.on_blocked_plain ..) msg_id
    · exact self.storing_submit_approved hrepo hadapter msg_id decision

/-- `_process` stores what it stores in this order. -/
theorem process_stores_in_order (hrepo : self.repository = true)
    (hadapter : self.adapter = some_adapter) (sha256 : String → String) (msg_id : String)
    (intent : TradeIntent)
    (hrequest : ∀ r, self.build_request job_id intent = .ok r → r = request) :
    Obeys (storing job_id request (self.client_order_id sha256 intent)) {}
      (self.process sha256 job_id ⟨msg_id, .valid intent⟩) fun _ g' => Over g' := by
  unfold process process_intent
  dsimp only
  apply obeys_bind_of_calls (calls_onRedis (p := redis (.set ..)) (calls_perform trivial))
    (storing_plain rfl) _ (fun _ => Or.inl rfl)
  rintro (_ | _)
  · exact self.storing_reported rfl (publish_plain (by decide) _ _) msg_id
  · show Obeys _ _ (self.process_locked msg_id job_id intent _) _
    unfold process_locked
    cases hbuilt : self.build_request job_id intent with
    | error e => exact Or.inl rfl
    | ok r =>
      obtain rfl := hrequest r hbuilt
      show Obeys _ _ (if self.repository = true then _ else _) _
      rw [if_pos hrepo]
      apply obeys_bind_of_calls (calls_swallow (calls_perform trivial)) (storing_plain rfl) _
        (fun _ => Or.inl rfl)
      intro _
      apply obeys_bind_of_calls (publish_plain (by decide) _ _) (storing_plain rfl) _
        (fun _ => Or.inl rfl)
      intro _
      exact self.storing_risk_gate hrepo hadapter msg_id

end Storing

end ExecutionConsumer

/-! ## The rows of a submission -/

/-- Ids are drawn from the counter of the tables. -/
structure Drawn (db : Db) : Prop where
  orders : ∀ o ∈ db.orders, o.id < db.next_id
  fills : ∀ f ∈ db.fills, f.order_id < db.next_id

/-- The job has the status `filled`. -/
def IsFilled (db : Db) (job_id : Uuid) : Prop :=
  ∃ job ∈ db.jobs, job.id = job_id ∧ job.status = .filled

instance (db : Db) (job_id : Uuid) : Decidable (IsFilled db job_id) :=
  inferInstanceAs (Decidable (∃ job ∈ db.jobs, _))

/-- The order row of a client order id is there. -/
def HasOrder (db : Db) (client_order_id : String) : Prop :=
  ∃ o ∈ db.orders, o.client_order_id = client_order_id

instance (db : Db) (client_order_id : String) : Decidable (HasOrder db client_order_id) :=
  inferInstanceAs (Decidable (∃ o ∈ db.orders, _))

/-- A fill row of that order is there. -/
def HasFill (db : Db) (client_order_id : String) : Prop :=
  ∃ f ∈ db.fills, ∃ o ∈ db.orders, o.id = f.order_id ∧ o.client_order_id = client_order_id

instance (db : Db) (client_order_id : String) : Decidable (HasFill db client_order_id) :=
  inferInstanceAs (Decidable (∃ f ∈ db.fills, ∃ o ∈ db.orders, _))

/-- The quantity that `save_fill` stores of a response. -/
def stored_quantity (response : AdapterResponse) : ℚ :=
  match response.fill_price, response.fill_quantity with
  | some fill_price, some fill_qty => if fill_price = 0 ∨ fill_qty = 0 then 0 else fill_qty
  | _, _ => 0

/-- The one order row of a submission. -/
structure OrderedAs (request : ExecutionRequest) (client_order_id : String) (order_id : Nat)
    (db : Db) : Prop where
  row : ∃ o ∈ db.orders, o.id = order_id ∧ o.client_order_id = client_order_id
  only : ∀ o ∈ db.orders, o.client_order_id = client_order_id →
    o.id = order_id ∧ o.quantity = request.trade_intent.size ∧ o.status = "FILLED"

/-- The fill row of a response, if it has one. -/
structure SavedAs (response : AdapterResponse) (order_id : Nat) (db : Db) : Prop where
  quantity : db.filled order_id = stored_quantity response
  row : stored_quantity response ≠ 0 → ∃ f ∈ db.fills, f.order_id = order_id

/-- What the tables hold at each stage. -/
structure StoredAs (job_id : Uuid) (request : ExecutionRequest) (client_order_id : String)
    (db : Db) (g : Storing) : Prop where
  drawn : Drawn db
  accepted : ∀ response ∈ g.response, response.success = true
  unordered : g.stage = .unordered → ¬ IsFilled db job_id ∧
    (g.raised = false → ¬ HasOrder db client_order_id)
  ordered : ∀ order_id, g.stage = .ordered order_id → g.response ≠ none ∧
    ¬ IsFilled db job_id ∧ OrderedAs request client_order_id order_id db ∧
    (g.raised = false → db.filled order_id = 0) ∧ ∃ job ∈ db.jobs, job.id = job_id
  saved : ∀ order_id, g.stage = .saved order_id → OrderedAs request client_order_id order_id db ∧
    (∃ response ∈ g.response, SavedAs response order_id db) ∧ ∃ job ∈ db.jobs, job.id = job_id
  filled : ∀ order_id, g.stage = .filled order_id →
    OrderedAs request client_order_id order_id db ∧
    (∃ response ∈ g.response, SavedAs response order_id db) ∧ IsFilled db job_id

section Rows

variable {job_id : Uuid} {request : ExecutionRequest} {client_order_id : String} {db db' : Db}
  {g : Storing} {response : AdapterResponse} {order_id : Nat}

theorem filled_congr (hf : db'.fills = db.fills) : db'.filled order_id = db.filled order_id := by
  unfold Db.filled
  rw [hf]

theorem drawn_congr (hd : Drawn db) (ho : db'.orders = db.orders) (hf : db'.fills = db.fills)
    (hn : db'.next_id = db.next_id) : Drawn db' :=
  ⟨by rw [ho, hn]; exact hd.orders, by rw [hf, hn]; exact hd.fills⟩

theorem orderedAs_congr (ho : OrderedAs request client_order_id order_id db)
    (horders : db'.orders = db.orders) : OrderedAs request client_order_id order_id db' :=
  ⟨by rw [horders]; exact ho.row, by rw [horders]; exact ho.only⟩

theorem savedAs_congr (hs : SavedAs response order_id db) (hfills : db'.fills = db.fills) :
    SavedAs response order_id db' := by
  refine ⟨?_, by rw [hfills]; exact hs.row⟩
  rw [filled_congr hfills]
  exact hs.quantity

/-- What the tables hold need be shown at the stage that was reached only. -/
theorem storedAs_at_unordered (hstage : g.stage = .unordered) (hdrawn : Drawn db)
    (haccepted : ∀ response ∈ g.response, response.success = true)
    (hunordered : ¬ IsFilled db job_id ∧ (g.raised = false → ¬ HasOrder db client_order_id)) :
    StoredAs job_id request client_order_id db g where
  drawn := hdrawn
  accepted := haccepted
  unordered _ := hunordered
  ordered _ he := nomatch hstage.symm.trans he
  saved _ he := nomatch hstage.symm.trans he
  filled _ he := nomatch hstage.symm.trans he

theorem storedAs_at_ordered (hstage : g.stage = .ordered order_id) (hdrawn : Drawn db)
    (haccepted : ∀ response ∈ g.response, response.success = true)
    (hordered : g.response ≠ none ∧ ¬ IsFilled db job_id ∧
      OrderedAs request client_order_id order_id db ∧
      (g.raised = false → db.filled order_id = 0) ∧ ∃ job ∈ db.jobs, job.id = job_id) :
    StoredAs job_id request client_order_id db g where
  drawn := hdrawn
  accepted := haccepted
  unordered he := nomatch hstage.symm.trans he
  ordered _ he := by
    cases hstage.symm.trans he
    exact hordered
  saved _ he := nomatch hstage.symm.trans he
  filled _ he := nomatch hstage.symm.trans he

theorem storedAs_at_saved (hstage : g.stage = .saved order_id) (hdrawn : Drawn db)
    (haccepted : ∀ response ∈ g.response, response.success = true)
    (hsaved : OrderedAs request client_order_id order_id db ∧
      (∃ response ∈ g.response, SavedAs response order_id db) ∧ ∃ job ∈ db.jobs, job.id = job_id) :
    StoredAs job_id request client_order_id db g where
  drawn := hdrawn
  accepted := haccepted
  unordered he := nomatch hstage.symm.trans he
  ordered _ he := nomatch hstage.symm.trans he
  saved _ he := by
    cases hstage.symm.trans he
    exact hsaved
  filled _ he := nomatch hstage.symm.trans he

theorem storedAs_at_filled (hstage : g.stage = .filled order_id) (hdrawn : Drawn db)
    (haccepted : ∀ response ∈ g.response, response.success = true)
    (hfilled : OrderedAs request client_order_id order_id db ∧
      (∃ response ∈ g.response, SavedAs response order_id db) ∧ IsFilled db job_id) :
    StoredAs job_id request client_order_id db g where
  drawn := hdrawn
  accepted := haccepted
  unordered he := nomatch hstage.symm.trans he
  ordered _ he := nomatch hstage.symm.trans he
  saved _ he := nomatch hstage.symm.trans he
  filled _ he := by
    cases hstage.symm.trans he
    exact hfilled

/-- Tables with the same orders and fills, and a job with the same status. -/
theorem storedAs_congr (h : StoredAs job_id request client_order_id db g)
    (horders : db'.orders = db.orders) (hfills : db'.fills = db.fills)
    (hnext : db'.next_id = db.next_id) (hfilled : IsFilled db' job_id ↔ IsFilled db job_id)
    (hjob : (∃ job ∈ db.jobs, job.id = job_id) → ∃ job ∈ db'.jobs, job.id = job_id) :
    StoredAs job_id request client_order_id db' g := by
  refine ⟨drawn_congr h.drawn horders hfills hnext, h.accepted, ?_, ?_, ?_, ?_⟩
  · intro hstage
    rw [hfilled]
    unfold HasOrder
    rw [horders]
    exact h.unordered hstage
  · intro id hstage
    obtain ⟨hr, hn, ho, hs, hj⟩ := h.ordered id hstage
    rw [hfilled, filled_congr hfills]
    exact ⟨hr, hn, orderedAs_congr ho horders, hs, hjob hj⟩
  · intro id hstage
    obtain ⟨ho, ⟨r, hr, hs⟩, hj⟩ := h.saved id hstage
    exact ⟨orderedAs_congr ho horders, ⟨r, hr, savedAs_congr hs hfills⟩, hjob hj⟩
  · intro id hstage
    obtain ⟨ho, ⟨r, hr, hs⟩, hf⟩ := h.filled id hstage
    rw [hfilled]
    exact ⟨orderedAs_congr ho horders, ⟨r, hr, savedAs_congr hs hfills⟩, hf⟩

/-- The same tables at another ghost state with the same response and stage. -/
theorem storedAs_raised (h : StoredAs job_id request client_order_id db g) :
    StoredAs job_id request client_order_id db { g with raised := true } := by
  refine ⟨h.drawn, h.accepted, ?_, ?_, h.saved, h.filled⟩
  · intro hstage
    exact ⟨(h.unordered hstage).1, fun hno => nomatch hno⟩
  · intro id hstage
    obtain ⟨hr, hn, ho, -, hj⟩ := h.ordered id hstage
    exact ⟨hr, hn, ho, (fun hno => nomatch hno), hj⟩

/-- `create_order` adds the order row, FILLED from the start. -/
theorem create_order_adds {now : Nat}
    (hc : create_order now job_id request client_order_id response db = .ok (order_id, db')) :
    order_id = db.next_id ∧ ¬ HasOrder db client_order_id ∧ (∃ job ∈ db.jobs, job.id = job_id) ∧
      db'.jobs = db.jobs ∧ db'.fills = db.fills ∧ db'.next_id = db.next_id + 1 ∧
      ∃ o, db'.orders = db.orders ++ [o] ∧ o.id = db.next_id ∧
        o.client_order_id = client_order_id ∧ o.quantity = request.trade_intent.size ∧
        o.filled_qty = response.fill_quantity.getD 0 ∧
        (response.success = true → o.status = "FILLED") := by
  unfold create_order at hc
  split at hc
  · cases hc
  · split at hc
    · cases hc
    rename_i hjob
    split at hc
    · cases hc
    rename_i hdup
    cases hc
    refine ⟨rfl, ?_, by simpa using hjob, rfl, rfl, rfl, _, rfl, rfl, rfl, rfl, rfl, ?_⟩
    · rintro ⟨o, ho, hcid⟩
      apply hdup
      exact List.any_eq_true.mpr ⟨o, ho, decide_eq_true hcid⟩
    · intro hsuccess
      simp [hsuccess]

theorem drawn_of_create {now : Nat} (h : Drawn db)
    (hc : create_order now job_id request client_order_id response db = .ok (order_id, db')) :
    Drawn db' := by
  obtain ⟨-, -, -, -, hfills, hnext, o, horders, hid, -⟩ := create_order_adds hc
  constructor
  · rw [horders, hnext]
    intro x hx
    rcases List.mem_append.mp hx with hx | hx
    · have := h.orders x hx
      omega
    · obtain rfl := List.mem_singleton.mp hx
      omega
  · rw [hfills, hnext]
    intro f hf
    have := h.fills f hf
    omega

theorem filled_eq_zero_of_drawn (h : Drawn db) : db.filled db.next_id = 0 := by
  have hnil : db.fills.filter (fun f => f.order_id = db.next_id) = [] := by
    rw [List.filter_eq_nil_iff]
    intro f hf
    have := h.fills f hf
    simp
    omega
  unfold Db.filled
  rw [hnil]
  rfl

theorem isFilled_congr (h : db'.jobs = db.jobs) : IsFilled db' job_id ↔ IsFilled db job_id := by
  unfold IsFilled
  rw [h]

theorem ordered_of_create {now : Nat} (h : StoredAs job_id request client_order_id db g)
    (hresponse : g.response = some response) (hstage : g.stage = .unordered)
    (hc : create_order now job_id request client_order_id response db = .ok (order_id, db')) :
    StoredAs job_id request client_order_id db' { g with stage := .ordered order_id } := by
  obtain ⟨rfl, hno, hjob, hjobs, hfills, hnext, o, horders, hid, hcid, hquantity, -, hstatus⟩ :=
    create_order_adds hc
  have hsuccess := h.accepted response hresponse
  have hdrawn := drawn_of_create h.drawn hc
  refine storedAs_at_ordered rfl hdrawn h.accepted ⟨by rw [hresponse]; simp, ?_, ⟨?_, ?_⟩, ?_, ?_⟩
  · rw [isFilled_congr hjobs]
    exact (h.unordered hstage).1
  · rw [horders]
    exact ⟨o, by simp, hid, hcid⟩
  · rw [horders]
    intro x hx hxc
    rcases List.mem_append.mp hx with hx | hx
    · exact absurd ⟨x, hx, hxc⟩ hno
    · obtain rfl := List.mem_singleton.mp hx
      exact ⟨hid, hquantity, hstatus hsuccess⟩
  · intro _
    unfold Db.filled
    rw [hfills]
    exact filled_eq_zero_of_drawn h.drawn
  · rw [hjobs]
    exact hjob

/-- Order row added, but its answer lost: the job is not filled. -/
theorem unordered_of_create {now : Nat} (h : StoredAs job_id request client_order_id db g)
    (hresponse : g.response = some response) (hstage : g.stage = .unordered)
    (hc : create_order now job_id request client_order_id response db = .ok (order_id, db')) :
    StoredAs job_id request client_order_id db' { g with raised := true } := by
  have hnew := ordered_of_create h hresponse hstage hc
  obtain ⟨-, -, -, hjobs, -⟩ := create_order_adds hc
  refine storedAs_at_unordered (g := { g with raised := true }) hstage hnew.drawn h.accepted ?_
  rw [isFilled_congr hjobs]
  exact ⟨(h.unordered hstage).1, fun hno => nomatch hno⟩

/-- `save_fill` adds the fill row of the response, if it has one. -/
theorem save_fill_adds {now : Nat}
    (hs : save_fill now order_id request response db = .ok ((), db')) :
    db'.jobs = db.jobs ∧ db'.orders = db.orders ∧ db.next_id ≤ db'.next_id ∧
      db'.filled order_id = db.filled order_id + stored_quantity response ∧
      (stored_quantity response ≠ 0 → ∃ f ∈ db'.fills, f.order_id = order_id) ∧
      ∀ f ∈ db'.fills, f ∈ db.fills ∨ f.order_id = order_id := by
  have hsame : stored_quantity response = 0 → db' = db →
      db'.jobs = db.jobs ∧ db'.orders = db.orders ∧ db.next_id ≤ db'.next_id ∧
      db'.filled order_id = db.filled order_id + stored_quantity response ∧
      (stored_quantity response ≠ 0 → ∃ f ∈ db'.fills, f.order_id = order_id) ∧
      ∀ f ∈ db'.fills, f ∈ db.fills ∨ f.order_id = order_id := by
    rintro hzero rfl
    refine ⟨rfl, rfl, Nat.le_refl _, by rw [hzero, add_zero], fun hne => absurd hzero hne, ?_⟩
    intro f hf
    exact Or.inl hf
  unfold save_fill at hs
  split at hs
  · rename_i p q hp hq
    split at hs
    · rename_i hzero
      cases hs
      refine hsame ?_ rfl
      simp only [stored_quantity, hp, hq]
      exact if_pos hzero
    · rename_i hzero
      split at hs
      · cases hs
      · cases hs
      · obtain ⟨rfl, hsum, -⟩ := add_fill_adds hs
        have hstored : stored_quantity response = q := by
          simp only [stored_quantity, hp, hq]
          exact if_neg hzero
        refine ⟨rfl, rfl, Nat.le_succ _, ?_,
          fun _ => ⟨_, List.mem_append_right _ (List.mem_singleton.mpr rfl), rfl⟩, ?_⟩
        · rw [hstored]
          exact hsum
        · intro f hf
          rcases List.mem_append.mp hf with hf | hf
          · exact Or.inl hf
          · obtain rfl := List.mem_singleton.mp hf
            exact Or.inr rfl
  · rename_i hnone
    cases hs
    refine hsame ?_ rfl
    unfold stored_quantity
    split
    · rename_i p q hp hq
      exact (hnone p q hp hq).elim
    · rfl

theorem drawn_of_save {now : Nat} (h : Drawn db) (ho : ∃ o ∈ db.orders, o.id = order_id)
    (hs : save_fill now order_id request response db = .ok ((), db')) : Drawn db' := by
  obtain ⟨-, horders, hnext, -, -, hnew⟩ := save_fill_adds hs
  constructor
  · rw [horders]
    intro o hmem
    have := h.orders o hmem
    omega
  · intro f hf
    rcases hnew f hf with hf | hf
    · have := h.fills f hf
      omega
    · obtain ⟨o, hmem, hid⟩ := ho
      have := h.orders o hmem
      omega

theorem saved_of_save {now : Nat} (h : StoredAs job_id request client_order_id db g)
    (hresponse : g.response = some response) (hstage : g.stage = .ordered order_id)
    (hraised : g.raised = false)
    (hs : save_fill now order_id request response db = .ok ((), db')) :
    StoredAs job_id request client_order_id db' { g with stage := .saved order_id } ∧
      StoredAs job_id request client_order_id db' { g with raised := true } := by
  obtain ⟨hjobs, horders, -, hsum, hrow, -⟩ := save_fill_adds hs
  obtain ⟨-, hn, ho, hzero, hj⟩ := h.ordered order_id hstage
  have ho' := orderedAs_congr ho horders
  have hdrawn : Drawn db' := by
    obtain ⟨o, hmem, hid, -⟩ := ho.row
    exact drawn_of_save h.drawn ⟨o, hmem, hid⟩ hs
  have hsaved : SavedAs response order_id db' := by
    refine ⟨?_, hrow⟩
    rw [hsum, hzero hraised, zero_add]
  have hj' : ∃ job ∈ db'.jobs, job.id = job_id := by
    rw [hjobs]
    exact hj
  constructor
  · exact storedAs_at_saved rfl hdrawn h.accepted ⟨ho', ⟨response, hresponse, hsaved⟩, hj'⟩
  · refine storedAs_at_ordered (g := { g with raised := true }) hstage hdrawn h.accepted ?_
    refine ⟨by rw [hresponse]; simp, ?_, ho', (fun hno => nomatch hno), hj'⟩
    rw [isFilled_congr hjobs]
    exact hn

/-- A status other than `filled` fills no job. -/
theorem update_job_status_plain {now : Nat} {j : Uuid} {status : JobStatus}
    {data result : Option Json} {error : Option String} (hstatus : status ≠ .filled)
    (hn : ¬ IsFilled db job_id)
    (hu : update_job_status now j status data result error db = .ok ((), db')) :
    db'.orders = db.orders ∧ db'.fills = db.fills ∧ db'.next_id = db.next_id ∧
      ¬ IsFilled db' job_id := by
  unfold update_job_status at hu
  split at hu
  · cases hu
    refine ⟨rfl, rfl, rfl, ?_⟩
    rintro ⟨job, hjob, hid, hfilled⟩
    obtain ⟨row, hrow, hwritten⟩ := List.mem_map.mp hjob
    split at hwritten
    · subst hwritten
      exact hstatus hfilled
    · subst hwritten
      exact hn ⟨row, hrow, hid, hfilled⟩
  · cases hu
    exact ⟨rfl, rfl, rfl, hn⟩

theorem filled_of_update {now : Nat} {data result : Option Json} {error : Option String}
    (h : StoredAs job_id request client_order_id db g) (hstage : g.stage = .saved order_id)
    (hu : update_job_status now job_id .filled data result error db = .ok ((), db')) :
    StoredAs job_id request client_order_id db' { g with stage := .filled order_id } ∧
      StoredAs job_id request client_order_id db' { g with raised := true } := by
  obtain ⟨ho, ⟨response, hresponse, hsaved⟩, job, hjob, hid⟩ := h.saved order_id hstage
  unfold update_job_status at hu
  rw [if_pos (List.any_eq_true.mpr ⟨job, hjob, decide_eq_true hid⟩)] at hu
  cases hu
  have hfilled : ∃ row ∈ db.jobs.map (fun row => if row.id = job_id then
      row.written .filled result error else row), row.id = job_id ∧ row.status = .filled := by
    refine ⟨job.written .filled result error, ?_, hid, rfl⟩
    exact List.mem_map.mpr ⟨job, hjob, if_pos hid⟩
  constructor
  · exact storedAs_at_filled rfl ⟨h.drawn.orders, h.drawn.fills⟩ h.accepted
      ⟨orderedAs_congr ho rfl, ⟨response, hresponse, savedAs_congr hsaved rfl⟩, hfilled⟩
  · obtain ⟨row, hrow, hrid, -⟩ := hfilled
    exact storedAs_at_saved (g := { g with raised := true }) hstage
      ⟨h.drawn.orders, h.drawn.fills⟩ h.accepted
      ⟨orderedAs_congr ho rfl, ⟨response, hresponse, savedAs_congr hsaved rfl⟩, row, hrow, hrid⟩

/-- A new job is queued. -/
theorem create_job_plain {now : Nat} {j : Uuid} {r : ExecutionRequest} {c : String}
    (hc : create_job now j r c db = .ok ((), db')) :
    db'.orders = db.orders ∧ db'.fills = db.fills ∧ db'.next_id = db.next_id ∧
      (IsFilled db' job_id ↔ IsFilled db job_id) ∧
      ((∃ job ∈ db.jobs, job.id = job_id) → ∃ job ∈ db'.jobs, job.id = job_id) := by
  unfold create_job at hc
  split at hc
  · cases hc
  split at hc
  · cases hc
  split at hc
  · cases hc
  cases hc
  refine ⟨rfl, rfl, rfl, ⟨?_, ?_⟩, ?_⟩
  · rintro ⟨job, hjob, hid, hfilled⟩
    rcases List.mem_append.mp hjob with hjob | hjob
    · exact ⟨job, hjob, hid, hfilled⟩
    · obtain rfl := List.mem_singleton.mp hjob
      cases hfilled
  · rintro ⟨job, hjob, h⟩
    exact ⟨job, List.mem_append_left _ hjob, h⟩
  · rintro ⟨job, hjob, h⟩
    exact ⟨job, List.mem_append_left _ hjob, h⟩

end Rows

/-! ## One call -/

section Step

variable {job_id : Uuid} {request : ExecutionRequest} {client_order_id : String}

/-- A transaction that leaves jobs, orders and fills as they were. -/
theorem storedAs_same {db db' : Db} {g : Storing}
    (h : StoredAs job_id request client_order_id db g) (hjobs : db'.jobs = db.jobs)
    (horders : db'.orders = db.orders) (hfills : db'.fills = db.fills)
    (hnext : db'.next_id = db.next_id) : StoredAs job_id request client_order_id db' g := by
  apply storedAs_congr h horders hfills hnext (isFilled_congr hjobs)
  intro hj
  rw [hjobs]
  exact hj

/-- A ghost state that differs in the publication only. -/
theorem storedAs_published {db : Db} {g : Storing} {b : Bool}
    (h : StoredAs job_id request client_order_id db g) :
    StoredAs job_id request client_order_id db { g with published := b } :=
  ⟨h.drawn, h.accepted, h.unordered, h.ordered, h.saved, h.filled⟩

/-- Before the order row, only the jobs matter. -/
theorem storedAs_unordered {db db' : Db} {g : Storing}
    (h : StoredAs job_id request client_order_id db g) (hstage : g.stage = .unordered)
    (horders : db'.orders = db.orders) (hfills : db'.fills = db.fills)
    (hnext : db'.next_id = db.next_id) (hn : ¬ IsFilled db' job_id) :
    StoredAs job_id request client_order_id db' g := by
  refine storedAs_at_unordered hstage (drawn_congr h.drawn horders hfills hnext) h.accepted
    ⟨hn, ?_⟩
  unfold HasOrder
  rw [horders]
  exact (h.unordered hstage).2

/-- The reads of the risk gate, and the incidents. -/
def RepoCmd.looks : RepoCmd → Prop
  | .get_daily_realized_loss_usd _ => True
  | .get_open_positions_count _ => True
  | .select_account _ => True
  | .insert_incident _ => True
  | _ => False

theorem storedAs_looks {w : World} {g : Storing} {c : RepoCmd} {o : Choice} (hc : c.looks)
    (h : StoredAs job_id request client_order_id w.db g) :
    StoredAs job_id request client_order_id (w.exec (.repo c) o).2.db g := by
  have htxn : ∀ a db, c.txn w.now w.db = .ok (a, db) →
      StoredAs job_id request client_order_id db g := by
    intro a db htxn
    cases c with
    | get_daily_realized_loss_usd account_id =>
      simp only [RepoCmd.txn, get_daily_realized_loss_usd] at htxn
      split at htxn
      · cases htxn
        exact h
      · cases htxn
        exact h
    | get_open_positions_count account_id =>
      simp only [RepoCmd.txn, get_open_positions_count] at htxn
      split at htxn
      · cases htxn
        exact h
      · cases htxn
        exact h
    | select_account account =>
      cases htxn
      exact h
    | insert_incident incident =>
      cases htxn
      exact storedAs_same h rfl rfl rfl rfl
    | _ => exact absurd hc id
  rcases World.exec_repo_cases w c o with ⟨a, -, ht⟩ | ⟨-, hdb | ⟨a, ht⟩⟩
  · exact htxn a _ ht
  · rw [hdb]
    exact h
  · exact htxn a _ ht

theorem storedAs_status {w : World} {g : Storing} {j : Uuid} {status : JobStatus}
    {data result : Option Json} {error : Option String} {o : Choice} (hstatus : status ≠ .filled)
    (hstage : g.stage = .unordered) (h : StoredAs job_id request client_order_id w.db g) :
    StoredAs job_id request client_order_id
      (w.exec (.repo (.update_job_status j status data result error)) o).2.db g := by
  have htxn : ∀ u db, update_job_status w.now j status data result error w.db = .ok (u, db) →
      StoredAs job_id request client_order_id db g := by
    intro u db htxn
    obtain ⟨h1, h2, h3, h4⟩ := update_job_status_plain hstatus (h.unordered hstage).1 htxn
    exact storedAs_unordered h hstage h1 h2 h3 h4
  rcases World.exec_repo_cases w (.update_job_status j status data result error) o with
    ⟨u, -, ht⟩ | ⟨-, hdb | ⟨u, ht⟩⟩
  · exact htxn u _ ht
  · rw [hdb]
    exact h
  · exact htxn u _ ht

/-- The adapter answers, while no response was accepted before. -/
theorem storedAs_submit {db : Db} {g : Storing} (h : StoredAs job_id request client_order_id db g)
    (hnone : g.response = none) (answer : Except PyErr AdapterResponse) :
    StoredAs job_id request client_order_id db { g with response := accepted_response answer } := by
  refine ⟨h.drawn, ?_, h.unordered, ?_, ?_, ?_⟩
  · intro response hresponse
    unfold accepted_response at hresponse
    split at hresponse
    · split at hresponse
      · cases hresponse
        assumption
      · cases hresponse
    · cases hresponse
  · intro id hstage
    exact absurd hnone (h.ordered id hstage).1
  · intro id hstage
    obtain ⟨-, ⟨response, hresponse, -⟩, -⟩ := h.saved id hstage
    rw [hnone] at hresponse
    cases hresponse
  · intro id hstage
    obtain ⟨-, ⟨response, hresponse, -⟩, -⟩ := h.filled id hstage
    rw [hnone] at hresponse
    cases hresponse

theorem storedAs_step (w : World) (g : Storing) (c : Cmd) (o : Choice)
    (h : StoredAs job_id request client_order_id w.db g)
    (ha : (storing job_id request client_order_id).allows g c) :
    StoredAs job_id request client_order_id (w.exec c o).2.db
      ((storing job_id request client_order_id).next g c (w.exec c o).1) := by
  cases c with
  | redis c =>
    rw [World.exec_db w _ o (by simp)]
    cases c with
    | xadd stream fields =>
      show StoredAs _ _ _ _ (if publishesFilled fields = true then _ else _)
      split
      · exact storedAs_published h
      · exact h
    | set _ _ _ _ | get _ | «exists» _ | delete _ | ttl _ | xack _ _ _ => exact h
  | submit r c =>
    rw [World.exec_db w _ o (by simp)]
    exact storedAs_submit h ha.2.2 _
  | post_order _ => exact absurd ha id
  | time_ms =>
    rw [World.exec_db w _ o (by simp)]
    exact h
  | repo c =>
    cases c with
    | create_order j r c response =>
      obtain ⟨rfl, rfl, rfl, hresponse, hstage, -⟩ := ha
      rcases World.exec_repo_cases w (.create_order j r c response) o with
        ⟨id, hok, htxn⟩ | ⟨⟨e, herr⟩, hdb | ⟨id, htxn⟩⟩
      · rw [hok]
        exact ordered_of_create h hresponse hstage htxn
      · rw [herr, hdb]
        exact storedAs_raised h
      · rw [herr]
        exact unordered_of_create h hresponse hstage htxn
    | save_fill id r response =>
      obtain ⟨rfl, hresponse, hstage, hraised⟩ := ha
      rcases World.exec_repo_cases w (.save_fill id r response) o with
        ⟨u, hok, htxn⟩ | ⟨⟨e, herr⟩, hdb | ⟨u, htxn⟩⟩
      · rw [hok]
        exact (saved_of_save h hresponse hstage hraised htxn).1
      · rw [herr, hdb]
        exact storedAs_raised h
      · rw [herr]
        exact (saved_of_save h hresponse hstage hraised htxn).2
    | update_job_status j status data result error =>
      cases status with
      | filled =>
        obtain ⟨rfl, ⟨id, hstage⟩, -⟩ := ha
        rcases World.exec_repo_cases w (.update_job_status j .filled data result error) o with
          ⟨u, hok, htxn⟩ | ⟨⟨e, herr⟩, hdb | ⟨u, htxn⟩⟩
        · rw [hok]
          show StoredAs _ _ _ _ (match g.stage with
            | .saved order_id => { g with stage := .filled order_id }
            | _ => g)
          rw [hstage]
          exact (filled_of_update h hstage htxn).1
        · rw [herr, hdb]
          exact storedAs_raised h
        · rw [herr]
          exact (filled_of_update h hstage htxn).2
      | queued | approved | submitted | acknowledged | partially_filled | canceled | blocked
        | failed | rolled_back => exact storedAs_status (by decide) ha h
    | create_job j r c =>
      have hnew : (storing job_id request client_order_id).next g (.repo (.create_job j r c))
          (w.exec (.repo (.create_job j r c)) o).1 = g := rfl
      rw [hnew]
      rcases World.exec_repo_cases w (.create_job j r c) o with
        ⟨u, -, htxn⟩ | ⟨-, hdb | ⟨u, htxn⟩⟩
      · obtain ⟨h1, h2, h3, h4, h5⟩ := create_job_plain htxn
        exact storedAs_congr h h1 h2 h3 h4 h5
      · rw [hdb]
        exact h
      · obtain ⟨h1, h2, h3, h4, h5⟩ := create_job_plain htxn
        exact storedAs_congr h h1 h2 h3 h4 h5
    | get_daily_realized_loss_usd _ | get_open_positions_count _ | select_account _
      | insert_incident _ => exact storedAs_looks trivial h
    | get_job_by_client_order_id _ | get_order_by_client_order_id _
      | get_fill_by_exchange_trade_id _ _ | insert_fill _ | update_order_filled_qty _ _ _ _
      | upsert_futures_report _ _ _ => exact absurd ha id

end Step

/-! ## What a log tells -/

/-- One of the three calls of the storing. -/
def Cmd.stores : Cmd → Bool
  | .repo (.create_order ..) => true
  | .repo (.save_fill ..) => true
  | .repo (.update_job_status _ .filled ..) => true
  | _ => false

/-- The call that publishes `job_filled`. -/
def Cmd.publishes_filled : Cmd → Bool
  | .redis (.xadd _ fields) => publishesFilled fields
  | _ => false

/-- The response that a call comes to store. -/
def Cmd.order_response : Cmd → Option AdapterResponse
  | .repo (.create_order _ _ _ response) => some response
  | _ => none

/-- The response of an adapter call, when it says success. -/
def accepted_by : Event PyErr Cmd Ans → Option AdapterResponse
  | ⟨.submit .., answer⟩ => accepted_response answer
  | _ => none

/-- A log of a submission and the ghost state that it leads to. -/
structure Told (es : List (Event PyErr Cmd Ans)) (g : Storing) : Prop where
  accepted : ∀ response ∈ g.response, ∃ e ∈ es, response ∈ accepted_by e
  ordered : g.stage ≠ .unordered →
    ∃ e ∈ es, ∃ response, e.call.order_response = some response ∧ g.response = some response
  orders : ∀ e ∈ es, ∀ response, e.call.order_response = some response →
    g.response = some response ∧ (g.raised = true ∨ g.stage ≠ .unordered)
  raised : g.raised = true → ∃ e ∈ es, e.call.stores = true ∧ e.answered = false
  publishes : ∀ e ∈ es, e.call.publishes_filled = true → g.published = true
  published : g.published = true → ExecutionConsumer.Stored g

section Told

variable {job_id : Uuid} {request : ExecutionRequest} {client_order_id : String}

theorem accepted_snoc {es : List (Event PyErr Cmd Ans)} {e : Event PyErr Cmd Ans}
    {response : AdapterResponse} (h : ∃ x ∈ es, response ∈ accepted_by x) :
    ∃ x ∈ es ++ [e], response ∈ accepted_by x := by
  obtain ⟨x, hx, he⟩ := h
  exact ⟨x, List.mem_append_left _ hx, he⟩

/-- A call that is none of the storing or the adapter. -/
theorem told_publish {es : List (Event PyErr Cmd Ans)} {g : Storing} {e : Event PyErr Cmd Ans}
    (h : Told es g) (horder : e.call.order_response = none) {b : Bool}
    (hpublishes : ∀ x ∈ es ++ [e], x.call.publishes_filled = true → b = true)
    (hstored : b = true → ExecutionConsumer.Stored g) :
    Told (es ++ [e]) { g with published := b } := by
  refine ⟨fun r hr => accepted_snoc (h.accepted r hr), ?_, ?_, ?_, hpublishes, hstored⟩
  · intro hstage
    obtain ⟨x, hx, r, hr⟩ := h.ordered hstage
    exact ⟨x, List.mem_append_left _ hx, r, hr⟩
  · intro x hx r hr
    rcases List.mem_append.mp hx with hx | hx
    · exact h.orders x hx r hr
    · obtain rfl := List.mem_singleton.mp hx
      rw [horder] at hr
      cases hr
  · intro hraised
    obtain ⟨x, hx, hstores⟩ := h.raised hraised
    exact ⟨x, List.mem_append_left _ hx, hstores⟩

/-- A call that is none of the storing, the adapter or the publication. -/
theorem told_aside {es : List (Event PyErr Cmd Ans)} {g : Storing} {e : Event PyErr Cmd Ans}
    (h : Told es g) (horder : e.call.order_response = none)
    (hpublish : e.call.publishes_filled = false) : Told (es ++ [e]) g := by
  have hpublishes : ∀ x ∈ es ++ [e], x.call.publishes_filled = true → g.published = true := by
    intro x hx hp
    rcases List.mem_append.mp hx with hx | hx
    · exact h.publishes x hx hp
    · obtain rfl := List.mem_singleton.mp hx
      rw [hpublish] at hp
      cases hp
  exact told_publish h horder hpublishes h.published

/-- The adapter answers, while no response was accepted before. -/
theorem told_submit {es : List (Event PyErr Cmd Ans)} {g : Storing} (h : Told es g)
    (hnone : g.response = none) (req : ExecutionRequest) (c : String)
    (answer : Except PyErr AdapterResponse) :
    Told (es ++ [⟨.submit req c, answer⟩]) { g with response := accepted_response answer } := by
  have hstage : g.stage = .unordered := by
    by_contra hne
    obtain ⟨x, hx, y, hy, hg⟩ := h.ordered hne
    rw [hnone] at hg
    cases hg
  have hnew := told_aside h (e := ⟨.submit req c, answer⟩) rfl rfl
  refine ⟨?_, ?_, ?_, hnew.raised, hnew.publishes, hnew.published⟩
  · intro response hresponse
    exact ⟨_, List.mem_append_right _ (List.mem_singleton.mpr rfl), hresponse⟩
  · exact fun hne => absurd hstage hne
  · intro x hx y hy
    have hold := (hnew.orders x hx y hy).1
    rw [hnone] at hold
    cases hold

/-- A call of the storing that raises. -/
theorem told_raise {es : List (Event PyErr Cmd Ans)} {g : Storing} {e : Event PyErr Cmd Ans}
    (h : Told es g) (hstores : e.call.stores = true) (hanswer : e.answered = false)
    (hpublish : e.call.publishes_filled = false)
    (horder : ∀ r, e.call.order_response = some r → g.response = some r) :
    Told (es ++ [e]) { g with raised := true } := by
  refine ⟨fun r hr => accepted_snoc (h.accepted r hr), ?_, ?_, ?_, ?_, fun _ => Or.inl rfl⟩
  · intro hstage
    obtain ⟨x, hx, r, hr⟩ := h.ordered hstage
    exact ⟨x, List.mem_append_left _ hx, r, hr⟩
  · intro x hx r hr
    refine ⟨?_, Or.inl rfl⟩
    rcases List.mem_append.mp hx with hx | hx
    · exact (h.orders x hx r hr).1
    · obtain rfl := List.mem_singleton.mp hx
      exact horder r hr
  · intro _
    exact ⟨e, by simp, hstores, hanswer⟩
  · intro x hx hp
    rcases List.mem_append.mp hx with hx | hx
    · exact h.publishes x hx hp
    · obtain rfl := List.mem_singleton.mp hx
      rw [hpublish] at hp
      cases hp

/-- A call of the storing that comes back. -/
theorem told_stage {es : List (Event PyErr Cmd Ans)} {g : Storing} {e : Event PyErr Cmd Ans}
    {stage : StoreStage} (h : Told es g) (hnew : stage ≠ .unordered)
    (hraised : g.raised = false) (hopen : ∀ id, g.stage ≠ .filled id)
    (hpublish : e.call.publishes_filled = false)
    (horder : ∀ r, e.call.order_response = some r → g.response = some r)
    (hordered : g.stage ≠ .unordered ∨ ∃ r, e.call.order_response = some r) :
    Told (es ++ [e]) { g with stage } := by
  refine ⟨fun r hr => accepted_snoc (h.accepted r hr), ?_, ?_, ?_, ?_, ?_⟩
  · intro _
    rcases hordered with hold | ⟨r, hr⟩
    · obtain ⟨x, hx, r, hr⟩ := h.ordered hold
      exact ⟨x, List.mem_append_left _ hx, r, hr⟩
    · exact ⟨e, by simp, r, hr, horder r hr⟩
  · intro x hx r hr
    refine ⟨?_, Or.inr hnew⟩
    rcases List.mem_append.mp hx with hx | hx
    · exact (h.orders x hx r hr).1
    · obtain rfl := List.mem_singleton.mp hx
      exact horder r hr
  · intro hr
    rw [show g.raised = true from hr] at hraised
    cases hraised
  · intro x hx hp
    rcases List.mem_append.mp hx with hx | hx
    · exact h.publishes x hx hp
    · obtain rfl := List.mem_singleton.mp hx
      rw [hpublish] at hp
      cases hp
  · intro hp
    rcases h.published hp with hr | ⟨id, hid⟩
    · rw [hr] at hraised
      cases hraised
    · exact absurd hid (hopen id)

theorem told_step (es : List (Event PyErr Cmd Ans)) (g : Storing) (e : Event PyErr Cmd Ans)
    (h : Told es g) (ha : (storing job_id request client_order_id).allows g e.call) :
    Told (es ++ [e]) ((storing job_id request client_order_id).next g e.call e.answer) := by
  obtain ⟨c, r⟩ := e
  cases c with
  | redis c =>
    cases c with
    | xadd stream fields =>
      show Told _ (if publishesFilled fields = true then { g with published := true } else g)
      by_cases hp : publishesFilled fields = true
      · rw [if_pos hp]
        exact told_publish h rfl (fun _ _ _ => rfl) fun _ => ha hp
      · rw [if_neg hp]
        exact told_aside h rfl (Bool.not_eq_true _ ▸ hp)
    | set _ _ _ _ | get _ | «exists» _ | delete _ | ttl _ | xack _ _ _ =>
      exact told_aside h rfl rfl
  | submit req c =>
    exact told_submit h ha.2.2 req c r
  | post_order _ => exact absurd ha id
  | time_ms => exact told_aside h rfl rfl
  | repo c =>
    cases c with
    | create_order j req c response =>
      obtain ⟨-, -, -, hresponse, hstage, hraised⟩ := ha
      have horder : ∀ y, (Cmd.repo (.create_order j req c response)).order_response = some y →
          g.response = some y := by
        rintro y ⟨⟩
        exact hresponse
      rcases r with x | order_id
      · exact told_raise h rfl rfl rfl horder
      · apply told_stage h (by simp) hraised _ rfl horder
        · exact Or.inr ⟨response, rfl⟩
        · intro id hid
          rw [hstage] at hid
          cases hid
    | save_fill id req response =>
      obtain ⟨-, -, hstage, hraised⟩ := ha
      rcases r with x | u
      · exact told_raise h rfl rfl rfl (by rintro y ⟨⟩)
      · apply told_stage h (by simp) hraised _ rfl (by rintro y ⟨⟩)
        · left
          rw [hstage]
          simp
        · intro id' hid
          rw [hstage] at hid
          cases hid
    | update_job_status j status data result error =>
      cases status with
      | filled =>
        obtain ⟨-, ⟨id, hstage⟩, hraised⟩ := ha
        rcases r with x | u
        · exact told_raise h rfl rfl rfl (by rintro y ⟨⟩)
        · show Told _ (match g.stage with
            | .saved order_id => { g with stage := .filled order_id }
            | _ => g)
          rw [hstage]
          apply told_stage h (by simp) hraised _ rfl
            (by rintro y ⟨⟩)
          · left
            rw [hstage]
            simp
          · intro id' hid
            rw [hstage] at hid
            cases hid
      | queued | approved | submitted | acknowledged | partially_filled | canceled | blocked
        | failed | rolled_back => exact told_aside h rfl rfl
    | create_job _ _ _ | get_daily_realized_loss_usd _ | get_open_positions_count _
      | select_account _ | insert_incident _ => exact told_aside h rfl rfl
    | get_job_by_client_order_id _ | get_order_by_client_order_id _
      | get_fill_by_exchange_trade_id _ _ | insert_fill _ | update_order_filled_qty _ _ _ _
      | upsert_futures_report _ _ _ => exact absurd ha id

end Told

/-! ## One submission, whole -/

/-- Nothing of the submission is stored yet. -/
structure Unstored (job_id : Uuid) (client_order_id : String) (db : Db) : Prop where
  drawn : Drawn db
  no_order : ¬ HasOrder db client_order_id
  not_filled : ¬ IsFilled db job_id

section Whole

variable {consumer : ExecutionConsumer} {sha256 : String → String} {job_id : Uuid}
  {intent : TradeIntent}

/-- The configuration of one handler, alone, after the steps. -/
abbrev handled (consumer : ExecutionConsumer) (sha256 : String → String) (job_id : Uuid)
    (msg_id : String) (intent : TradeIntent) (w : World) (acts : List (Act Choice)) :
    Config World PyErr Cmd Ans Unit :=
  (Config.start w [consumer.process sha256 job_id ⟨msg_id, .valid intent⟩]).run World.exec acts

/-- What is true of the handling of an intent at any point of it. -/
theorem handled_keeps (hrepo : consumer.repository = true)
    (hadapter : consumer.adapter = some_adapter) {request : ExecutionRequest}
    (hrequest : ∀ r, consumer.build_request job_id intent = .ok r → r = request) {w : World}
    (hw : Unstored job_id (consumer.client_order_id sha256 intent) w.db) (msg_id : String)
    (acts : List (Act Choice)) :
    ∃ g, StoredAs job_id request (consumer.client_order_id sha256 intent)
        (handled consumer sha256 job_id msg_id intent w acts).shared.db g ∧
      Told ((handled consumer sha256 job_id msg_id intent w acts).log 0) g ∧
      ((handled consumer sha256 job_id msg_id intent w acts).Ended 0 →
        ExecutionConsumer.Over g) := by
  have hstart : StoredAs job_id request (consumer.client_order_id sha256 intent) w.db {} := by
    refine ⟨hw.drawn, (by rintro r ⟨⟩), fun _ => ⟨hw.not_filled, fun _ => hw.no_order⟩,
      (by rintro id ⟨⟩), (by rintro id ⟨⟩), by rintro id ⟨⟩⟩
  have hrun := Config.run_keeps_alone World.exec
    (storing job_id request (consumer.client_order_id sha256 intent))
    (I := fun w g => StoredAs job_id request (consumer.client_order_id sha256 intent) w.db g)
    (fun w g c o h ha => storedAs_step w g c o h ha)
    (consumer.process_stores_in_order hrepo hadapter sha256 msg_id intent hrequest) hstart acts
  obtain ⟨hstored, hobeys, hallowed⟩ := hrun
  refine ⟨_, hstored, ?_, ?_⟩
  · apply Protocol.allowed_induction _ (fun es g e h ha => told_step es g e h ha) hallowed
    refine ⟨(by rintro r ⟨⟩), fun hne => absurd rfl hne, ?_, (fun hr => nomatch hr), ?_,
      fun hp => nomatch hp⟩
    · intro e he
      exact absurd he List.not_mem_nil
    · intro e he
      exact absurd he List.not_mem_nil
  · intro hended
    have hlen : (handled consumer sha256 job_id msg_id intent w acts).threads.length = 1 :=
      Config.run_length World.exec _ acts
    obtain ⟨p, hp⟩ : ∃ p, (handled consumer sha256 job_id msg_id intent w acts).threads[0]? =
        some p := ⟨_, List.getElem?_eq_getElem (by omega)⟩
    have hob := hobeys p hp
    cases p with
    | done a => exact hob
    | raise e => exact hob
    | call c k => exact absurd hp (hended c k)

/-- A request that the intent gives, if it gives one. -/
theorem exists_request (consumer : ExecutionConsumer) (job_id : Uuid) (intent : TradeIntent) :
    ∃ request : ExecutionRequest, request.trade_intent = intent ∧
      ∀ r, consumer.build_request job_id intent = .ok r → r = request := by
  cases h : consumer.build_request job_id intent with
  | error e => exact ⟨⟨"", intent, "", "", .paper, .l2_paper⟩, rfl, fun r hr => nomatch hr⟩
  | ok request =>
    refine ⟨request, (consumer.build_request_fields job_id intent h).2.1, ?_⟩
    rintro r ⟨⟩
    rfl

end Whole

theorem unstored_demo_world (job_id : Uuid) (client_order_id : String) :
    Unstored job_id client_order_id demo_world.db where
  drawn := ⟨fun o ho => absurd ho List.not_mem_nil, fun f hf => absurd hf List.not_mem_nil⟩
  no_order := by
    rintro ⟨o, ho, -⟩
    exact List.not_mem_nil ho
  not_filled := by
    rintro ⟨job, hjob, -⟩
    exact List.not_mem_nil hjob

/-- `n` steps of the handler in which nothing fails and the adapter fills. -/
def filling (n : Nat) : List (Act Choice) := List.replicate n ⟨0, demo_filled⟩

section Whole

variable {consumer : ExecutionConsumer} {sha256 : String → String} {job_id : Uuid}
  {intent : TradeIntent}

/-- An order row that says FILLED, with a job that says `filled`, has fill rows
of its whole quantity. -/
def FilledMeansFilled (db : Db) (job_id : Uuid) (client_order_id : String) : Prop :=
  ∀ o ∈ db.orders, o.client_order_id = client_order_id → o.status = "FILLED" →
    IsFilled db job_id → db.filled o.id = o.quantity ∧ 0 < o.quantity

instance (db : Db) (job_id : Uuid) (client_order_id : String) :
    Decidable (FilledMeansFilled db job_id client_order_id) :=
  inferInstanceAs (Decidable (∀ o ∈ db.orders, _))

/-- The response fills the intent: it has a price, and the whole of a positive
quantity. -/
structure FillsWhole (intent : TradeIntent) (response : AdapterResponse) : Prop where
  price : ∃ p ∈ response.fill_price, p ≠ 0
  quantity : response.fill_quantity = some intent.size
  positive : 0 < intent.size

theorem fillsWhole_iff (intent : TradeIntent) (response : AdapterResponse) :
    FillsWhole intent response ↔
      stored_quantity response = intent.size ∧ 0 < intent.size := by
  unfold stored_quantity
  constructor
  · rintro ⟨⟨p, hp, hne⟩, hq, hpos⟩
    rw [show response.fill_price = some p from hp, hq]
    exact ⟨if_neg (by simp [hne, hpos.ne']), hpos⟩
  · rintro ⟨hsum, hpos⟩
    split at hsum
    · rename_i p q hp hq
      split at hsum
      · exact absurd hsum hpos.ne
      · rename_i hne
        refine ⟨⟨p, hp, fun h => hne (Or.inl h)⟩, ?_, hpos⟩
        rw [hq, hsum]
    · exact absurd hsum hpos.ne

instance (intent : TradeIntent) (response : AdapterResponse) :
    Decidable (FillsWhole intent response) :=
  decidable_of_iff _ (fillsWhole_iff intent response).symm

/-- For every intent and every answer of the adapter, once `_process` has ended
and no call of the repository failed: FILLED and `filled` mean that the fill
rows make up the order exactly when every response that the consumer came to
store fills the whole intent. -/
theorem filled_means_filled_iff (consumer : ExecutionConsumer) (hrepo : consumer.repository = true)
    (hadapter : consumer.adapter = some_adapter) (sha256 : String → String) (job_id : Uuid)
    (msg_id : String) (intent : TradeIntent) (w : World)
    (hw : Unstored job_id (consumer.client_order_id sha256 intent) w.db)
    (acts : List (Act Choice))
    (hended : (handled consumer sha256 job_id msg_id intent w acts).Ended 0)
    (hrepo_ok : ∀ e ∈ (handled consumer sha256 job_id msg_id intent w acts).log 0,
      e.call.stores = true → e.answered = true) :
    FilledMeansFilled (handled consumer sha256 job_id msg_id intent w acts).shared.db job_id
        (consumer.client_order_id sha256 intent) ↔
      ∀ e ∈ (handled consumer sha256 job_id msg_id intent w acts).log 0,
        ∀ response ∈ e.call.order_response, FillsWhole intent response := by
  obtain ⟨request, hintent, hrequest⟩ := exists_request consumer job_id intent
  obtain ⟨g, hstored, htold, hover⟩ := handled_keeps hrepo hadapter hrequest hw msg_id acts
  have hraised : g.raised = false := by
    by_contra hr
    obtain ⟨e, he, hstores, hanswer⟩ := htold.raised (by simpa using hr)
    rw [hrepo_ok e he hstores] at hanswer
    cases hanswer
  rcases hover hended with hstage | hr | ⟨id, hstage⟩
  · -- nothing was stored
    constructor
    · intro _ e he response hresponse
      rcases (htold.orders e he response hresponse).2 with hr | hne
      · rw [hraised] at hr
        cases hr
      · exact absurd hstage hne
    · intro _ o ho hcid
      exact absurd ⟨o, ho, hcid⟩ ((hstored.unordered hstage).2 hraised)
  · rw [hraised] at hr
    cases hr
  · obtain ⟨hordered, ⟨response, hresponse, hsaved⟩, hfilled⟩ := hstored.filled id hstage
    constructor
    · intro hmeans e he r hr
      have hrg := (htold.orders e he r hr).1
      rw [show g.response = some response from hresponse] at hrg
      cases hrg
      obtain ⟨o, ho, hid, hcid⟩ := hordered.row
      obtain ⟨-, hquantity, hstatus⟩ := hordered.only o ho hcid
      have hsum := hmeans o ho hcid hstatus hfilled
      rw [hid, hsaved.quantity, hquantity, hintent] at hsum
      exact (fillsWhole_iff intent response).mpr hsum
    · intro hwhole o ho hcid _ _
      obtain ⟨hid, hquantity, -⟩ := hordered.only o ho hcid
      obtain ⟨e, he, r, hr, hrg⟩ := htold.ordered (by rw [hstage]; simp)
      rw [show g.response = some response from hresponse] at hrg
      cases hrg
      rw [hid, hsaved.quantity, hquantity, hintent]
      exact (fillsWhole_iff intent response).mp (hwhole e he response hr)

end Whole

/-- A consumer that trades live, with an engine that lets it. -/
def live_consumer : ExecutionConsumer where
  settings := { default_account_id := demo_account, trading_mode := .live }
  adapter := LiveExecutionAdapter.demo_live.adapter id
  risk_engine := { paper_only := false, has_credentials := true }

/-- The exchange accepts the order and does not fill it. -/
def resting : Choice where
  http := {
    status_code := 200
    json := some (.obj [("orderId", .num "5"), ("status", .str "NEW"),
      ("executedQty", .str "0.00"), ("fills", .arr [])])
    text := "" }

/-- A resting live order is FILLED, its job is `filled`, and it has no fill. -/
theorem a_resting_order_is_filled :
    ¬ FilledMeansFilled (handled live_consumer id "j1" "1-0" demo_intent demo_world
      (List.replicate 40 ⟨0, resting⟩)).shared.db "j1"
      (live_consumer.client_order_id id demo_intent) := by
  decide +kernel

/-- A response that fills the whole intent. -/
theorem a_filled_order_is_filled :
    FilledMeansFilled (handled demo_consumer id "j1" "1-0" demo_intent demo_world
      (filling 29)).shared.db "j1" (demo_consumer.client_order_id id demo_intent) := by
  refine (filled_means_filled_iff demo_consumer rfl rfl id "j1" "1-0" demo_intent demo_world
    (unstored_demo_world _ _) (filling 29) (by decide +kernel) (by decide +kernel)).mpr ?_
  decide +kernel

end trading_platform.execution
