-- The histories of the job statuses. Two consumers write the same column, and
-- neither looks at it in the transaction that writes. Each of them goes along
-- the edges of the state machine from the status that it saw or wrote last;
-- so a history can leave the machine only at a write that finds another status.
import TradingPlatform.Execution.EventConsumer
import TradingPlatform.Execution.IntentOnce

open resumption
open trading_platform.shared

namespace trading_platform.execution

/-! ## Statuses in the tables -/

/-- The status that the row of a job holds. -/
def Db.status (db : Db) (job_id : Uuid) : Option JobStatus :=
  (db.jobs.find? (·.id = job_id)).map (·.status)

/-- The statuses written to a job, oldest first: its execution events. -/
def Db.history (db : Db) (job_id : Uuid) : List JobStatus :=
  (db.events.filter (·.job_id = job_id)).map (·.status)

/-- The history of a job follows the state machine and ends with the status of
its row. A job that is not there has no history. -/
structure Db.Logged (db : Db) (job_id : Uuid) : Prop where
  valid : ValidHistory (db.history job_id)
  last : (db.history job_id).getLast? = db.status job_id

theorem Db.logged_congr {db db' : Db} {job_id : Uuid} (hj : db'.jobs = db.jobs)
    (he : db'.events = db.events) (h : db.Logged job_id) : db'.Logged job_id := by
  obtain ⟨h1, h2⟩ := h
  unfold Db.history at h1 h2
  unfold Db.status at h2
  exact ⟨by rw [Db.history, he]; exact h1, by rw [Db.history, Db.status, he, hj]; exact h2⟩

theorem Db.status_of_any {db : Db} {job_id : Uuid} :
    db.jobs.any (·.id = job_id) = (db.status job_id).isSome := by
  rw [Bool.eq_iff_iff, List.any_eq_true, Db.status, Option.isSome_map, List.find?_isSome]

/-- The status of a job after a status write of a job that is there. -/
theorem status_map_written (jobs : List ExecutionJob) (j job_id : Uuid) (s : JobStatus)
    (result_json : Option Json) (error : Option String) :
    (((jobs.map fun job => if job.id = j then job.written s result_json error else job).find?
      (·.id = job_id)).map (·.status)) =
      ((jobs.find? (·.id = job_id)).map (·.status)).map fun b => if j = job_id then s else b := by
  rw [find?_map_of_keeps (fun job => by split <;> rfl)]
  cases hf : jobs.find? (·.id = job_id) with
  | none => rfl
  | some job =>
    have hid : job.id = job_id := by simpa using List.find?_some hf
    by_cases hj : j = job_id
    · simp [hid, hj, ExecutionJob.written]
    · have hne : ¬ job_id = j := fun he => hj he.symm
      simp [hid, hj, hne]

/-- A status write of another job. -/
theorem update_job_status_other {now : Nat} {j job_id : Uuid} {s : JobStatus}
    {event_data result_json : Option Json} {error : Option String} {db db' : Db} (hj : j ≠ job_id)
    (h : update_job_status now j s event_data result_json error db = .ok ((), db')) :
    db'.status job_id = db.status job_id ∧ db'.history job_id = db.history job_id := by
  unfold update_job_status at h
  split at h
  · cases h
    refine ⟨?_, by simp [Db.history, List.filter_append, hj]⟩
    rw [Db.status, status_map_written, Db.status]
    simp only [hj, if_false, Option.map_id']
  · cases h
    exact ⟨rfl, rfl⟩

/-- A status write of the job: it is logged when the job is there. -/
theorem update_job_status_same {now : Nat} {job_id : Uuid} {s : JobStatus}
    {event_data result_json : Option Json} {error : Option String} {db db' : Db}
    (h : update_job_status now job_id s event_data result_json error db = .ok ((), db')) :
    (db.status job_id = none ∧ db' = db) ∨
      ((db.status job_id).isSome ∧ db'.status job_id = some s ∧
        db'.history job_id = db.history job_id ++ [s]) := by
  unfold update_job_status at h
  rw [Db.status_of_any] at h
  cases hs : db.status job_id with
  | none =>
    simp only [hs, Option.isSome_none, Bool.false_eq_true, if_false] at h
    cases h
    exact Or.inl ⟨rfl, rfl⟩
  | some b =>
    simp only [hs, Option.isSome_some, if_true] at h
    cases h
    refine Or.inr ⟨rfl, ?_, by simp [Db.history, List.filter_append]⟩
    rw [Db.status] at hs
    rw [Db.status, status_map_written, hs]
    simp

/-- A job that is created was not there, and starts its history. -/
theorem create_job_logs {now : Nat} {j : Uuid} (job_id : Uuid) {request : ExecutionRequest}
    {client_order_id : String} {db db' : Db}
    (h : create_job now j request client_order_id db = .ok ((), db')) :
    (j ≠ job_id ∧ db'.status job_id = db.status job_id ∧
        db'.history job_id = db.history job_id) ∨
      (j = job_id ∧ db.status job_id = none ∧ db'.status job_id = some .queued ∧
        db'.history job_id = db.history job_id ++ [.queued]) := by
  unfold create_job at h
  split at h
  · cases h
  · rw [Db.status_of_any] at h
    split at h
    · cases h
    · rename_i hnone
      split at h
      · cases h
      · cases h
        have hnone : db.status j = none := by simpa using hnone
        by_cases hj : j = job_id
        · subst hj
          refine Or.inr ⟨rfl, hnone, ?_, by simp [Db.history, List.filter_append]⟩
          have hf : db.jobs.find? (fun job => decide (job.id = j)) = none := by
            simpa [Db.status] using hnone
          simp [Db.status, List.find?_append, hf]
        · exact Or.inl ⟨hj, by simp [Db.status, List.find?_append, hj],
            by simp [Db.history, List.filter_append, hj]⟩

/-! ## The other transactions -/

/-- The repository calls that write no job. -/
def RepoCmd.KeepsJobs : RepoCmd → Prop
  | .create_job .. => False
  | .update_job_status .. => False
  | _ => True

theorem add_fill_keeps_jobs {fill : Fill} {db db' : Db} (h : add_fill fill db = .ok ((), db')) :
    db'.jobs = db.jobs ∧ db'.events = db.events := by
  unfold add_fill at h
  split_ifs at h
  cases h
  exact ⟨rfl, rfl⟩

theorem save_fill_keeps_jobs {now order_id : Nat} {request : ExecutionRequest}
    {response : AdapterResponse} {db db' : Db}
    (h : save_fill now order_id request response db = .ok ((), db')) :
    db'.jobs = db.jobs ∧ db'.events = db.events := by
  unfold save_fill at h
  split at h
  · split at h
    · cases h; exact ⟨rfl, rfl⟩
    · split at h
      · cases h
      · cases h
      · have hadd := add_fill_keeps_jobs h
        exact hadd
  · cases h; exact ⟨rfl, rfl⟩

theorem create_order_keeps_jobs {now : Nat} {job_id : Uuid} {request : ExecutionRequest}
    {client_order_id : String} {response : AdapterResponse} {db db' : Db} {order_id : Nat}
    (h : create_order now job_id request client_order_id response db = .ok (order_id, db')) :
    db'.jobs = db.jobs ∧ db'.events = db.events := by
  unfold create_order at h
  split at h
  · cases h
  · split at h
    · cases h
    · split at h
      · cases h
      · cases h; exact ⟨rfl, rfl⟩

theorem insert_fill_keeps_jobs {args : FillArgs} {db db' : Db}
    (h : insert_fill args db = .ok ((), db')) :
    db'.jobs = db.jobs ∧ db'.events = db.events := by
  unfold insert_fill at h
  split at h
  · cases h
  · exact add_fill_keeps_jobs h

theorem report_order_keeps_jobs {account_id : Uuid} {found : Option Order}
    {report : FuturesReport} {db db' : Db} {order_id : Nat}
    (h : report_order account_id found report db = .ok (order_id, db')) :
    db'.jobs = db.jobs ∧ db'.events = db.events := by
  cases found with
  | some order =>
    obtain ⟨-, z, avg, -, rfl⟩ := report_order_some h
    exact ⟨rfl, rfl⟩
  | none =>
    unfold report_order at h
    cases hz : Decimal.ofText report.filled_qty with
    | error e => rw [hz] at h; cases h
    | ok z =>
      rw [hz] at h
      cases havg : optionalPrice report.avg_fill with
      | error e => rw [havg] at h; cases h
      | ok avg =>
        rw [havg] at h
        cases hq : Decimal.ofText report.qty with
        | error e => rw [hq] at h; cases h
        | ok qty =>
          rw [hq] at h
          cases hp : optionalPrice report.price with
          | error e => rw [hp] at h; cases h
          | ok price =>
            rw [hp] at h
            simp only [bind, Except.bind, pure, Except.pure] at h
            split at h
            · cases h
            · split at h
              · cases h
              · cases h
                exact ⟨rfl, rfl⟩

theorem report_fill_keeps_jobs {account_id : Uuid} {order_id : Nat} {report : FuturesReport}
    {db db' : Db} (h : report_fill account_id order_id report db = .ok ((), db')) :
    db'.jobs = db.jobs ∧ db'.events = db.events := by
  by_cases hnew : report.trade_id ∈ db.trade_ids account_id
  · unfold report_fill at h
    rw [if_pos hnew] at h
    cases h
    exact ⟨rfl, rfl⟩
  · obtain ⟨fill, -, -, -, -, hadd⟩ := report_fill_new hnew h
    exact add_fill_keeps_jobs hadd

theorem upsert_keeps_jobs {account_id : Uuid} {found : Option Order} {report : FuturesReport}
    {db db' : Db} (h : upsert_futures_report account_id found report db = .ok ((), db')) :
    db'.jobs = db.jobs ∧ db'.events = db.events := by
  unfold upsert_futures_report at h
  cases ho : report_order account_id found report db with
  | error e => rw [ho] at h; cases h
  | ok r =>
    obtain ⟨order_id, db1⟩ := r
    rw [ho] at h
    have h1 := report_order_keeps_jobs ho
    simp only [bind, Except.bind] at h
    split at h
    · have h2 := report_fill_keeps_jobs h
      exact ⟨h2.1.trans h1.1, h2.2.trans h1.2⟩
    · cases h
      exact h1

/-- A transaction that writes no job leaves jobs and events as they were. -/
theorem txn_keeps_jobs {now : Nat} {c : RepoCmd} {a : c.Ans} {db db' : Db} (hc : c.KeepsJobs)
    (h : c.txn now db = .ok (a, db')) : db'.jobs = db.jobs ∧ db'.events = db.events := by
  cases c with
  | create_job _ _ _ => exact absurd hc id
  | update_job_status _ _ _ _ _ => exact absurd hc id
  | create_order _ _ _ _ => exact create_order_keeps_jobs h
  | save_fill _ _ _ => exact save_fill_keeps_jobs h
  | insert_fill _ => exact insert_fill_keeps_jobs h
  | upsert_futures_report _ _ _ => exact upsert_keeps_jobs h
  | get_daily_realized_loss_usd account_id =>
    simp only [RepoCmd.txn, execution.get_daily_realized_loss_usd] at h
    split at h <;> cases h <;> exact ⟨rfl, rfl⟩
  | get_open_positions_count account_id =>
    simp only [RepoCmd.txn, execution.get_open_positions_count] at h
    split at h <;> cases h <;> exact ⟨rfl, rfl⟩
  | get_job_by_client_order_id _ | get_order_by_client_order_id _
  | get_fill_by_exchange_trade_id _ _ | update_order_filled_qty _ _ _ _ | select_account _
  | insert_incident _ =>
    cases h
    exact ⟨rfl, rfl⟩

/-! ## What a writer believes -/

/-- The status of a job that a writer saw or wrote last. A writer may write a
status that follows it. A write that raised counts: the consumer logs the
exception and goes on. -/
def belief (job_id : Uuid) : Protocol PyErr Cmd Ans (Option JobStatus) where
  allows g c := match c with
    | .repo (.update_job_status j s ..) => j = job_id → ∃ b ∈ g, Follows b s
    | _ => True
  next g c r := match c, r with
    | .repo (.create_job j ..), _ => if j = job_id then some .queued else g
    | .repo (.update_job_status j s ..), _ => if j = job_id then some s else g
    | .repo (.get_job_by_client_order_id _), .ok (some job) =>
      if job.id = job_id then some job.status else g
    | _, _ => g

/-- A status write is fresh when the row holds what its writer believes, or,
when it does not, a status that the new one still follows. -/
def Fresh (job_id : Uuid) (w : World) (g : Option JobStatus) (c : Cmd) (_ : Choice) : Prop :=
  match c with
  | .repo (.update_job_status j s ..) =>
    j = job_id → w.db.status job_id ≠ g → ∀ b ∈ w.db.status job_id, Follows b s
  | _ => True

instance (job_id : Uuid) (w : World) (g : Option JobStatus) (c : Cmd) (o : Choice) :
    Decidable (Fresh job_id w g c o) := by
  unfold Fresh
  split <;> infer_instance

/-- One fresh call of a writer keeps the history of the job on the machine. -/
theorem logged_step {job_id : Uuid} {w : World} {g : Option JobStatus} {c : Cmd} {o : Choice}
    (h : w.db.Logged job_id) (ha : (belief job_id).allows g c) (hf : Fresh job_id w g c o) :
    (w.exec c o).2.db.Logged job_id := by
  cases c with
  | redis _ | submit _ _ | post_order _ | time_ms =>
    rw [World.exec_db _ _ _ (by simp)]
    exact h
  | repo c =>
    rcases World.exec_repo w c o with ⟨he, -⟩ | ⟨a, db, htxn, he, -⟩
    · rw [he]; exact h
    · rw [he]
      cases c with
      | create_job j request client_order_id =>
        rcases create_job_logs job_id htxn with ⟨-, hs, hh⟩ | ⟨-, hnone, hs, hh⟩
        · exact ⟨hh ▸ h.valid, by rw [hh, hs]; exact h.last⟩
        · refine ⟨?_, by rw [hh, hs]; simp⟩
          rw [hh]
          refine validHistory_snoc h.valid fun x hx => ?_
          rw [h.last, hnone] at hx
          cases hx
      | update_job_status j s event_data result_json error =>
        by_cases hj : j = job_id
        · subst hj
          rcases update_job_status_same htxn with ⟨-, rfl⟩ | ⟨-, hs, hh⟩
          · exact h
          · refine ⟨?_, by rw [hh, hs]; simp⟩
            rw [hh]
            refine validHistory_snoc h.valid fun x hx => ?_
            rw [h.last] at hx
            by_cases hg : w.db.status j = g
            · -- the row holds what the writer believes
              obtain ⟨b, hb, hfollows⟩ := ha rfl
              rw [hg, Option.mem_def] at hx
              rw [Option.mem_def, hx, Option.some.injEq] at hb
              rwa [hb]
            · exact hf rfl hg x hx
        · obtain ⟨hs, hh⟩ := update_job_status_other hj htxn
          exact ⟨hh ▸ h.valid, by rw [hh, hs]; exact h.last⟩
      | _ =>
        have hkeeps := txn_keeps_jobs (by trivial) htxn
        exact Db.logged_congr hkeeps.1 hkeeps.2 h

/-! ## Calls that no belief depends on -/

/-- Every command but those that read or write a job. -/
def Cmd.aside : Cmd → Prop
  | .repo (.create_job ..) => False
  | .repo (.update_job_status ..) => False
  | .repo (.get_job_by_client_order_id _) => False
  | _ => True

theorem aside_of_reports {c : Cmd} (h : c.reports) : c.aside := by
  cases c with
  | repo c => cases c <;> trivial
  | _ => trivial

theorem belief_aside (job_id : Uuid) (g : Option JobStatus) (c : Cmd) (h : c.aside) :
    (belief job_id).allows g c ∧ ∀ r, (belief job_id).next g c r = g := by
  cases c with
  | repo c => cases c <;> first | exact ⟨trivial, fun _ => rfl⟩ | exact absurd h id
  | redis _ | submit _ _ | post_order _ | time_ms => exact ⟨trivial, fun _ => rfl⟩

theorem onRedis_calls {α : Type} {A : Cmd → Prop} (p : RedisPy α) (hA : ∀ c, A (.redis c)) :
    (onRedis p).Calls A := calls_onRedis (calls_all p hA)

theorem aside_of_asks {c : Cmd} (h : c.asks) : c.aside := by
  cases c with
  | repo d => cases d <;> trivial
  | redis _ | submit _ _ | post_order _ | time_ms => exact absurd h id

theorem publish_aside (event_type job_id : String) (data : List (String × Json)) :
    (ExecutionEventPublisher.publish event_type job_id data).Calls Cmd.aside :=
  calls_mono (publish_calls ..) fun _ => aside_of_reports

section Belief

variable {job_id : Uuid} {g : Option JobStatus}

/-- Calls that no belief depends on, with more to come. -/
theorem belief_skip {α β : Type} {p : Py α} {rest : α → Py β}
    {Q : Except PyErr β → Option JobStatus → Prop} (hp : p.Calls Cmd.aside)
    (hrest : ∀ a, Obeys (belief job_id) g (rest a) Q) (herr : ∀ e, Q (.error e) g) :
    Obeys (belief job_id) g (p >>= rest) Q :=
  obeys_bind_of_calls hp (belief_aside job_id g) hrest herr

/-- Calls that no belief depends on, at the end. -/
theorem belief_calls {α : Type} {p : Py α} {Q : Except PyErr α → Option JobStatus → Prop}
    (hp : p.Calls Cmd.aside) (hQ : ∀ r, Q r g) : Obeys (belief job_id) g p Q :=
  obeys_of_calls hp (belief_aside job_id g) hQ

end Belief

namespace ExecutionConsumer

variable (self : ExecutionConsumer)

theorem ack_aside (msg_id : String) : (self.ack msg_id).Calls Cmd.aside :=
  calls_mono (self.ack_calls msg_id) fun _ => aside_of_reports

theorem limits_override_aside (account_id : String) :
    (self.limits_override account_id).Calls Cmd.aside :=
  calls_mono (self.limits_override_calls account_id) fun _ => aside_of_asks

theorem risk_data_aside (account_id : String) : (self.risk_data account_id).Calls Cmd.aside :=
  calls_mono (self.risk_data_calls account_id) fun _ => aside_of_asks

/-! ## The consumer goes along the edges -/

section Belief

variable {job_id jid : Uuid} {g : Option JobStatus}

/-- The consumer, when it writes the job at all, believes `b`. -/
def Believes (job_id jid : Uuid) (b : JobStatus) (g : Option JobStatus) : Prop :=
  self.repository = true → jid = job_id → g = some b

/-- A status write of the consumer along an edge, with more of it to come. -/
theorem belief_status {α : Type} {b s : JobStatus} (hg : self.Believes job_id jid b g)
    (hbs : Follows b s) (event_data : Option Json) (error : Option String) {rest : Unit → Py α}
    {Q : Except PyErr α → Option JobStatus → Prop}
    (hrest : ∀ g', self.Believes job_id jid s g' → Obeys (belief job_id) g' (rest ()) Q) :
    Obeys (belief job_id) g (self.try_status jid s event_data error >>= rest) Q := by
  unfold try_status
  split
  · rename_i hr
    rw [obeys_bind, obeys_swallow]
    refine obeys_perform.mpr ⟨fun hj => ⟨b, hg hr hj, hbs⟩, fun _ => hrest _ fun _ hj => ?_⟩
    simp [belief, hj]
  · rename_i hr
    exact hrest _ fun h => absurd h hr

theorem belief_on_failed {b : JobStatus} (hg : self.Believes job_id jid b g)
    (hb : Follows b .failed) (client_order_id reason error : String)
    (intent : Option TradeIntent) (account_id : String) :
    Obeys (belief job_id) g
      (self.on_failed jid client_order_id reason error intent account_id) fun _ _ => True := by
  unfold on_failed
  refine self.belief_status hg hb _ _ fun g' _ => ?_
  refine belief_skip (publish_aside ..) (fun _ => ?_) fun _ => trivial
  split
  · exact belief_calls (calls_mono (log_incident_calls _) fun _ => aside_of_reports)
      fun _ => trivial
  · trivial

theorem belief_on_blocked (hg : self.Believes job_id jid .queued g) (client_order_id : String)
    (failures : List String) (metadata : List (String × Json)) :
    Obeys (belief job_id) g (self.on_blocked jid client_order_id failures metadata)
      fun _ _ => True := by
  unfold on_blocked
  refine self.belief_status hg (by decide) _ _ fun g' _ => ?_
  exact belief_calls (publish_aside ..) fun _ => trivial

/-- A last status, and the acknowledgement of the entry. -/
theorem belief_then_ack {p : Py Unit} (msg_id : String)
    (hp : Obeys (belief job_id) g p fun _ _ => True) :
    Obeys (belief job_id) g (do p; self.ack msg_id) fun _ _ => True :=
  obeys_bind_of hp (fun _ _ _ => belief_calls (self.ack_aside msg_id) fun _ => trivial)
    fun _ _ _ => trivial

theorem belief_persist_fill (hg : self.Believes job_id jid .acknowledged g)
    (request : ExecutionRequest) (client_order_id : String) (response : AdapterResponse) :
    Obeys (belief job_id) g (self.persist_fill jid request client_order_id response)
      fun _ _ => True := by
  unfold persist_fill
  split
  · rename_i hr
    rw [obeys_swallow]
    refine belief_skip (calls_perform trivial) (fun order_id => ?_) fun _ => trivial
    refine belief_skip (calls_perform trivial) (fun _ => ?_) fun _ => trivial
    exact obeys_perform.mpr ⟨fun hj => ⟨_, hg hr hj, by decide⟩, fun _ => trivial⟩
  · trivial

theorem belief_on_filled (hg : self.Believes job_id jid .approved g) (msg_id : String)
    (request : ExecutionRequest) (client_order_id : String) (response : AdapterResponse) :
    Obeys (belief job_id) g (self.on_filled msg_id jid request client_order_id response)
      fun _ _ => True := by
  unfold on_filled acknowledge
  rw [Prog.bind_assoc]
  refine self.belief_status hg (by decide) _ _ fun g1 hg1 => ?_
  rw [Prog.bind_assoc]
  refine belief_skip (publish_aside ..) (fun _ => ?_) fun _ => trivial
  rw [Prog.bind_assoc]
  refine self.belief_status hg1 (by decide) _ _ fun g2 hg2 => ?_
  refine belief_skip (publish_aside ..) (fun _ => ?_) fun _ => trivial
  refine obeys_bind_of (self.belief_persist_fill hg2 ..) (fun _ g3 _ => ?_) fun _ _ _ => trivial
  refine belief_skip (publish_aside ..) (fun _ => ?_) fun _ => trivial
  refine belief_skip (onRedis_calls _ fun _ => trivial) (fun _ => ?_) fun _ => trivial
  exact belief_calls (self.ack_aside msg_id) fun _ => trivial

theorem belief_submit_approved (hadapter : self.adapter = some_adapter)
    (hg : self.Believes job_id jid .queued g) (msg_id : String) (request : ExecutionRequest)
    (client_order_id : String) (decision : RiskDecision) :
    Obeys (belief job_id) g
      (self.submit_approved msg_id jid request client_order_id decision) fun _ _ => True := by
  unfold submit_approved
  refine self.belief_status hg (by decide) _ _ fun g1 hg1 => ?_
  refine belief_skip (publish_aside ..) (fun _ => ?_) fun _ => trivial
  rw [hadapter]
  refine belief_skip (calls_attempt (calls_perform trivial)) (fun r => ?_) fun _ => trivial
  cases r with
  | error exc => exact self.belief_then_ack msg_id (self.belief_on_failed hg1 (by decide) ..)
  | ok response =>
    dsimp only
    split
    · exact self.belief_then_ack msg_id (self.belief_on_failed hg1 (by decide) ..)
    · exact self.belief_on_filled hg1 ..

theorem belief_risk_gate (hadapter : self.adapter = some_adapter)
    (hg : self.Believes job_id jid .queued g) (msg_id : String) (request : ExecutionRequest)
    (client_order_id : String) :
    Obeys (belief job_id) g (self.risk_gate msg_id jid request client_order_id)
      fun _ _ => True := by
  unfold risk_gate
  refine belief_skip (self.limits_override_aside _) (fun limits => ?_) fun _ => trivial
  refine belief_skip (self.risk_data_aside _) (fun data => ?_) fun _ => trivial
  refine belief_skip (calls_attempt (onRedis_calls _ fun _ => trivial)) (fun r => ?_)
    fun _ => trivial
  cases r with
  | error exc => exact self.belief_then_ack msg_id (self.belief_on_failed hg (by decide) ..)
  | ok decision =>
    dsimp only
    split
    · exact self.belief_then_ack msg_id (self.belief_on_blocked hg ..)
    · exact self.belief_submit_approved hadapter hg ..

/-- `_process` writes statuses along the edges, whatever it started with. -/
theorem process_goes_along_edges (hadapter : self.adapter = some_adapter)
    (sha256 : String → String) (entry : IntentEntry) :
    Obeys (belief job_id) g (self.process sha256 jid entry) fun _ _ => True := by
  unfold process
  split
  · exact belief_calls (self.ack_aside _) fun _ => trivial
  · exact belief_calls (self.ack_aside _) fun _ => trivial
  · rename_i intent _
    unfold process_intent
    refine belief_skip (onRedis_calls _ fun _ => trivial) (fun acquired => ?_) fun _ => trivial
    split
    · refine belief_skip (publish_aside ..) (fun _ => ?_) fun _ => trivial
      exact belief_calls (self.ack_aside _) fun _ => trivial
    · unfold process_locked
      cases self.build_request jid intent with
      | error e => trivial
      | ok request =>
        have hrest : ∀ g', self.Believes job_id jid .queued g' →
            Obeys (belief job_id) g' (do
              ExecutionEventPublisher.publish "job_queued" jid
                [("client_order_id", .str (self.client_order_id sha256 intent)),
                  ("symbol", .str intent.symbol), ("side", .str intent.side.value),
                  ("intent_id", .str intent.intent_id)]
              self.risk_gate entry.msg_id jid request (self.client_order_id sha256 intent))
              fun _ _ => True := fun g' hg' =>
          belief_skip (publish_aside ..) (fun _ => self.belief_risk_gate hadapter hg' ..)
            fun _ => trivial
        simp only [Prog.ofExcept, Prog.done_bind]
        split
        · rw [obeys_bind, obeys_swallow]
          refine obeys_perform.mpr ⟨trivial, fun _ => hrest _ fun _ hj => ?_⟩
          simp [belief, hj]
        · rename_i hr
          exact hrest g fun h => absurd h hr

end Belief

end ExecutionConsumer

/-! ## The reconciler goes along the edges -/

namespace NormalizedEventConsumer

variable (self : NormalizedEventConsumer)

section Belief

variable {job_id : Uuid} {g : Option JobStatus} {job : ExecutionJob}

theorem belief_publish (event_type job_id' : String) (data : List (String × Json)) :
    Obeys (belief job_id) g (ExecutionEventPublisher.publish event_type job_id' data)
      fun _ _ => True := belief_calls (publish_aside ..) fun _ => trivial

/-- A write of the job that was read, along an edge. -/
theorem belief_write {s : JobStatus} (hg : job.id = job_id → ∃ b ∈ g, Follows b s)
    (event_data result_json : Option Json) (error : Option String) :
    Obeys (belief job_id) g (repo (.update_job_status job.id s event_data result_json error))
      fun _ g' => job.id = job_id → g' = some s :=
  obeys_perform.mpr ⟨hg, fun _ hj => by simp [belief, hj]⟩

theorem belief_handle_cancel (hg : job.id = job_id → g = some job.status)
    (exchange_order_id order_status : String) (trade_time_ms : Nat) :
    Obeys (belief job_id) g
      (self.handle_cancel job exchange_order_id order_status trade_time_ms)
      fun _ _ => True := by
  unfold handle_cancel
  split
  · exact belief_publish ..
  · rename_i hcan
    have hcan : can_transition job.status .canceled = true := by simpa using hcan
    split
    · exact obeys_bind_of (belief_write (fun hj => ⟨_, hg hj, Or.inr hcan⟩) _ _ _)
        (fun _ _ _ => belief_publish ..) fun _ _ _ => trivial
    · exact belief_publish ..

theorem belief_finalize_fill
    (hg : can_transition job.status .filled = true → job.id = job_id → ∃ b ∈ g, Follows b .filled)
    (exchange_order_id : String) (filled_qty avg_price : ℚ) :
    Obeys (belief job_id) g (self.finalize_fill job exchange_order_id filled_qty avg_price)
      fun _ _ => True := by
  unfold finalize_fill
  split
  · trivial
  · rename_i hcan
    have hcan : can_transition job.status .filled = true := by simpa using hcan
    dsimp only
    split
    · exact obeys_bind_of (belief_write (hg hcan) _ _ _) (fun _ _ _ => belief_publish ..)
        fun _ _ _ => trivial
    · exact belief_publish ..

/-- After the write of a partial fill the job may still go to `filled`. -/
theorem belief_mark_partially_filled (hg : job.id = job_id → g = some job.status)
    (report : FillReport) (leg : ℚ) :
    Obeys (belief job_id) g (mark_partially_filled job report leg) fun _ g' =>
      can_transition job.status .filled = true → job.id = job_id → ∃ b ∈ g', Follows b .filled := by
  unfold mark_partially_filled
  split
  · rename_i hcan
    exact obeys_mono (belief_write (fun hj => ⟨_, hg hj, Or.inr hcan.2⟩) _ _ _)
      fun _ g' hg' _ hj => ⟨_, hg' hj, by decide⟩
  · exact fun hcan hj => ⟨_, hg hj, Or.inr hcan⟩

theorem belief_record_partial_fill (hg : job.id = job_id → g = some job.status)
    (report : FillReport) (order : Order) (leg : ℚ) :
    Obeys (belief job_id) g (self.record_partial_fill job report order leg)
      fun _ _ => True := by
  unfold record_partial_fill
  refine belief_skip (calls_perform trivial) (fun _ => ?_) fun _ => trivial
  refine belief_skip (calls_perform trivial) (fun _ => ?_) fun _ => trivial
  refine obeys_bind_of (belief_mark_partially_filled hg report leg) (fun _ g' hg' => ?_)
    fun _ _ _ => trivial
  refine belief_skip (publish_aside ..) (fun _ => ?_) fun _ => trivial
  unfold finalize_if_complete
  by_cases hfull : report.orig_qty ≤ report.cumulative_filled_qty
  · rw [if_pos hfull]
    exact self.belief_finalize_fill hg' ..
  · rw [if_neg hfull]
    trivial

theorem belief_handle_partial_fill (hg : job.id = job_id → g = some job.status)
    (report : FillReport) :
    Obeys (belief job_id) g (self.handle_partial_fill job report) fun _ _ => True := by
  unfold handle_partial_fill
  refine belief_skip (calls_perform trivial) (fun order => ?_) fun _ => trivial
  cases order with
  | none => exact belief_publish ..
  | some order =>
    dsimp only
    split
    · trivial
    · refine belief_skip (calls_perform trivial) (fun fill => ?_) fun _ => trivial
      cases fill with
      | some _ => trivial
      | none => exact self.belief_record_partial_fill hg ..

theorem insert_last_leg_aside (report : FillReport) (order : Order) (leg : ℚ) :
    (insert_last_leg job report order leg).Calls Cmd.aside := by
  unfold insert_last_leg
  by_cases hleg : 0 < leg
  · rw [if_pos hleg]
    refine calls_bind (calls_perform trivial) fun fill => ?_
    cases fill with
    | some _ => exact calls_done _
    | none => exact calls_perform trivial
  · rw [if_neg hleg]
    exact calls_done _

theorem belief_handle_full_fill (hg : job.id = job_id → g = some job.status)
    (report : FillReport) :
    Obeys (belief job_id) g (self.handle_full_fill job report) fun _ _ => True := by
  unfold handle_full_fill
  refine belief_skip (calls_perform trivial) (fun order => ?_) fun _ => trivial
  cases order with
  | none => exact belief_publish ..
  | some order =>
    refine belief_skip (insert_last_leg_aside ..) (fun _ => ?_) fun _ => trivial
    refine belief_skip (calls_perform trivial) (fun _ => ?_) fun _ => trivial
    exact self.belief_finalize_fill (fun hcan hj => ⟨_, hg hj, Or.inr hcan⟩) ..

theorem belief_dispatch (hg : job.id = job_id → g = some job.status) (symbol : String)
    (data : UserOrder) :
    Obeys (belief job_id) g (self.dispatch job symbol data) fun _ _ => True := by
  unfold dispatch
  cases data.readable with
  | error e => trivial
  | ok _ =>
    simp only [Prog.ofExcept, Prog.done_bind]
    split
    · exact self.belief_handle_cancel hg ..
    · split
      · cases data.report symbol with
        | error e => trivial
        | ok report => exact self.belief_handle_partial_fill hg report
      · split
        · cases data.report symbol with
          | error e => trivial
          | ok report => exact self.belief_handle_full_fill hg report
        · trivial

theorem belief_handle_user_order (symbol : String) (data : UserOrder) :
    Obeys (belief job_id) g (self.handle_user_order symbol data) fun _ _ => True := by
  unfold handle_user_order
  split
  · exact belief_publish ..
  · split
    · trivial
    · rw [obeys_bind]
      refine obeys_perform.mpr ⟨trivial, ?_⟩
      rintro (e | _ | job)
      · trivial
      · refine belief_skip (publish_aside ..) (fun _ => ?_) fun _ => trivial
        split
        · exact belief_calls (calls_mono (log_incident_calls _) fun _ => aside_of_reports)
            fun _ => trivial
        · trivial
      · dsimp only
        split
        · exact belief_publish ..
        · exact self.belief_dispatch (fun hj => by simp [belief, hj]) symbol data

/-- `_process` writes statuses along the edges from the status that it read. -/
theorem process_goes_along_edges (entry : EventEntry) :
    Obeys (belief job_id) g (self.process entry) fun _ _ => True := by
  have hack : ∀ g', Obeys (belief job_id) g' (self.ack entry.msg_id) fun _ _ => True := fun g' =>
    belief_calls (calls_swallow ⟨trivial, fun r => by cases r <;> trivial⟩) fun _ => trivial
  unfold process handle
  refine obeys_bind_of (R := fun _ _ => True) ?_ (fun _ g' _ => hack g') fun _ _ _ => trivial
  split
  · exact self.belief_handle_user_order ..
  · trivial

end Belief

end NormalizedEventConsumer

/-! ## Every interleaving -/

/-- One entry in work: an intent at the execution consumer, with the UUID that
is drawn for its job, or an event at the reconciler. -/
inductive Handler where
  | intent (job_id : Uuid) (entry : IntentEntry)
  | event (entry : EventEntry)

def Handler.program (consumer : ExecutionConsumer) (reconciler : NormalizedEventConsumer)
    (sha256 : String → String) : Handler → Py Unit
  | .intent job_id entry => consumer.process sha256 job_id entry
  | .event entry => reconciler.process entry

/-- Nothing but the same status comes after a terminal one. -/
theorem eq_of_terminal {l pre post : List JobStatus} {s : JobStatus} (h : ValidHistory l)
    (hl : l = pre ++ s :: post) (hs : is_terminal s = true) : ∀ x ∈ post, x = s := by
  subst hl
  have hchain : (s :: post).IsChain Follows := (List.isChain_append.mp h).2.1
  clear h
  induction post with
  | nil => simp
  | cons y post ih =>
    rw [List.isChain_cons_cons] at hchain
    have hy : y = s := eq_of_follows_terminal hs hchain.1
    subst hy
    intro x hx
    rcases List.mem_cons.mp hx with rfl | hx
    · rfl
    · exact ih hchain.2 x hx

/-- An event of the order of `demo_intent`. -/
def demo_event (order_status : String) : EventEntry where
  msg_id := "9-0"
  event := .user_order "BTCUSDT" {
    client_order_id := demo_consumer.client_order_id id demo_intent
    exchange_order_id := "x"
    order_status }

/-- An intent, and an event of its order. -/
def demo_handlers (order_status : String) : List Handler :=
  [.intent "j1" ⟨"1-0", .valid demo_intent⟩, .event (demo_event order_status)]

/-- `n` steps of a thread in which every call passes. -/
def demo_steps (n thread : Nat) : List (Act Choice) := List.replicate n ⟨thread, demo_filled⟩

end trading_platform.execution
