-- A fill event that is handled again after its handler stopped on the way. The
-- fill row, the order row and the job status are written in transactions of
-- their own. A full fill that comes again makes the missing ones. A partial
-- fill takes the fill row, or the level of the order, as the sign that nothing
-- is missing.
import TradingPlatform.Execution.FillLedger

open resumption
open trading_platform.shared

namespace trading_platform.execution

/-! ## What a stop leaves behind -/

/-- The world in which a program that runs alone stands after its first `n` calls. -/
def World.stopped {α : Type} (w : World) (n : Nat) (p : Py α) : World :=
  resumption.stopped World.exec .idle n p w

@[simp] theorem World.stopped_zero {α : Type} (w : World) (p : Py α) : w.stopped 0 p = w :=
  resumption.stopped_zero p

@[simp] theorem World.stopped_done {α : Type} (w : World) (n : Nat) (a : α) :
    w.stopped n (.done a) = w :=
  resumption.stopped_done n a

/-- A repository call, and the stops behind it. -/
theorem World.stopped_repo_bind {α : Type} (w : World) (n : Nat) (c : RepoCmd) (f : c.Ans → Py α) :
    w.stopped (n + 1) (repo c >>= f) =
      match c.txn w.now w.db with
      | .ok (a, db) => World.stopped { w with db } n (f a)
      | .error _ => w := by
  unfold stopped repo
  rw [stopped_perform_bind]
  simp only [exec, Choice.faultOf, Choice.idle, called, effect]
  cases c.txn w.now w.db <;> rfl

/-- Late stops are the end of the run. -/
theorem World.exists_stopped {α : Type} (w : World) (p : Py α) :
    ∃ n, ∀ m, n ≤ m → w.stopped m p = w.after p := resumption.exists_stopped p w

/-- A repository call, and what holds at a stop behind it. -/
theorem World.stopped_write_bind {α : Type} {w : World} {n : Nat} {c : RepoCmd} {f : c.Ans → Py α}
    {P : World → Prop}
    (hok : ∀ a db, c.txn w.now w.db = .ok (a, db) → P (World.stopped { w with db } n (f a)))
    (herr : ∀ e, c.txn w.now w.db = .error e → P w) : P (w.stopped (n + 1) (repo c >>= f)) := by
  rw [World.stopped_repo_bind]
  cases h : c.txn w.now w.db with
  | ok r => exact hok r.1 r.2 h
  | error e => exact herr e h

section Reads

variable {α : Type} {w : World} {client_order_id : String}

/-- The read of a job. -/
theorem World.stopped_get_job_bind {found : Option ExecutionJob}
    (h : w.db.jobs.find? (·.deterministic_client_order_id = client_order_id) = found) (n : Nat)
    (f : Option ExecutionJob → Py α) :
    w.stopped (n + 1) (repo (.get_job_by_client_order_id client_order_id) >>= f) =
      w.stopped n (f found) := by
  subst h
  exact World.stopped_repo_bind w n (.get_job_by_client_order_id _) f

/-- The read of an order row. -/
theorem World.stopped_get_order_bind {found : Option Order}
    (h : w.db.orders.find? (·.client_order_id = client_order_id) = found) (n : Nat)
    (f : Option Order → Py α) :
    w.stopped (n + 1) (repo (.get_order_by_client_order_id client_order_id) >>= f) =
      w.stopped n (f found) := by
  subst h
  exact World.stopped_repo_bind w n (.get_order_by_client_order_id _) f

/-- The read of a fill row. -/
theorem World.stopped_get_fill_bind {account_id : Uuid} {key : String} {found : Option Fill}
    (h : w.db.fills.find? (fun f => f.account_id = account_id ∧ f.exchange_trade_id = key) = found)
    (n : Nat) (f : Option Fill → Py α) :
    w.stopped (n + 1) (repo (.get_fill_by_exchange_trade_id account_id key) >>= f) =
      w.stopped n (f found) := by
  subst h
  exact World.stopped_repo_bind w n (.get_fill_by_exchange_trade_id _ _) f

end Reads

/-- An event is published in two calls, and the tables stay as they are. -/
theorem World.stopped_publish_bind {α : Type} (w : World) (n : Nat) (event_type job_id : String)
    (data : List (String × Json)) (f : Unit → Py α) :
    ∃ redis, w.stopped (n + 2) (ExecutionEventPublisher.publish event_type job_id data >>= f) =
      World.stopped { w with redis } n (f ()) :=
  ⟨(w.after (ExecutionEventPublisher.publish event_type job_id data)).redis, rfl⟩

/-- The tables that a fill is about are the same. -/
structure SameTables (db db' : Db) : Prop where
  jobs : db'.jobs = db.jobs
  orders : db'.orders = db.orders
  fills : db'.fills = db.fills
  accounts : db'.accounts = db.accounts

theorem SameTables.refl (db : Db) : SameTables db db := ⟨rfl, rfl, rfl, rfl⟩

theorem SameTables.symm {db db' : Db} (h : SameTables db db') : SameTables db' db :=
  ⟨h.jobs.symm, h.orders.symm, h.fills.symm, h.accounts.symm⟩

theorem SameTables.trans {db db' db'' : Db} (h : SameTables db db') (h' : SameTables db' db'') :
    SameTables db db'' :=
  ⟨h'.jobs.trans h.jobs, h'.orders.trans h.orders, h'.fills.trans h.fills,
    h'.accounts.trans h.accounts⟩

/-- A program that only reports leaves the tables as they are, wherever it stops. -/
theorem World.stopped_of_reports {α : Type} {p : Py α} (hp : p.Calls Cmd.reports) (w : World)
    (n : Nat) : SameTables w.db (w.stopped n p).db := by
  refine stopped_of_calls (I := fun w' : World => SameTables w.db w'.db) hp ?_ (.refl w.db) n
  intro w' c hc h
  refine h.trans ?_
  cases c with
  | repo c =>
    cases c with
    | insert_incident incident => exact ⟨rfl, rfl, rfl, rfl⟩
    | _ => exact absurd hc id
  | redis c =>
    rw [World.exec_db w' _ _ (by simp)]
    exact .refl _
  | submit request client_order_id => exact absurd hc id
  | post_order params => exact absurd hc id
  | time_ms => exact .refl _

/-! ## What is compared -/

/-- The row of an order without the time of its last write. -/
def Order.untimed (order : Order) : Order := { order with updated_at_ms := 0 }

/-- The order row, the fill rows and the job status. -/
structure OrderState where
  order : Option Order
  fills : List Fill
  job_status : Option JobStatus
  deriving DecidableEq

def Db.order_state (db : Db) (client_order_id : String) : OrderState where
  order := (db.orders.find? (·.client_order_id = client_order_id)).map (·.untimed)
  fills := db.fills
  job_status :=
    (db.jobs.find? (·.deterministic_client_order_id = client_order_id)).map (·.status)

theorem SameTables.order_state {db db' : Db} (h : SameTables db db') (client_order_id : String) :
    db'.order_state client_order_id = db.order_state client_order_id := by
  unfold Db.order_state
  rw [h.jobs, h.orders, h.fills]

/-- The order row, the fill rows, and the status of the job `job_id`. -/
def Stands (db : Db) (client_order_id : String) (job_id : Uuid) (order : Order) (fills : List Fill)
    (status : JobStatus) : Prop :=
  db.orders.find? (·.client_order_id = client_order_id) = some order ∧ db.fills = fills ∧
    ∃ job, db.jobs.find? (·.deterministic_client_order_id = client_order_id) = some job ∧
      job.id = job_id ∧ job.status = status

section Stands

variable {db db' : Db} {client_order_id : String} {job_id : Uuid} {order : Order}
  {fills : List Fill} {status : JobStatus} {now : Nat}

theorem Stands.order_state (h : Stands db client_order_id job_id order fills status) :
    db.order_state client_order_id = ⟨some order.untimed, fills, some status⟩ := by
  obtain ⟨horder, hfills, job, hjob, -, hs⟩ := h
  unfold Db.order_state
  rw [horder, hjob, hfills, ← hs]
  rfl

theorem Stands.of_same (h : Stands db client_order_id job_id order fills status)
    (hsame : SameTables db db') : Stands db' client_order_id job_id order fills status := by
  unfold Stands at *
  rw [hsame.orders, hsame.fills, hsame.jobs]
  exact h

/-- The fill of an order sets its row. -/
theorem Stands.update_order (h : Stands db client_order_id job_id order fills status)
    {z price : ℚ} {order_status : Option String}
    (htxn : update_order_filled_qty now order.id z price order_status db = .ok ((), db')) :
    Stands db' client_order_id job_id (order.filled_to now z price order_status) fills status := by
  cases htxn
  refine ⟨?_, h.2⟩
  rw [find?_map_of_keeps (fun o => by split <;> rfl), h.1]
  simp

/-- A status write sets the status. -/
theorem Stands.update_job (h : Stands db client_order_id job_id order fills status)
    {s : JobStatus} {event_data result_json : Option Json} {error : Option String}
    (htxn : update_job_status now job_id s event_data result_json error db = .ok ((), db')) :
    Stands db' client_order_id job_id order fills s := by
  obtain ⟨horder, hfills, job, hjob, hid, -⟩ := h
  have hany : db.jobs.any (·.id = job_id) = true := by
    rw [List.any_eq_true]
    exact ⟨job, List.mem_of_find?_eq_some hjob, by simpa using hid⟩
  unfold update_job_status at htxn
  rw [if_pos hany] at htxn
  cases htxn
  refine ⟨horder, hfills, job.written s result_json error, ?_, hid, rfl⟩
  rw [find?_map_of_keeps (fun j => by split <;> rfl), hjob]
  simp [hid]

end Stands

/-- The row of the order after a fill. -/
def FillReport.filled_row (report : FillReport) (order : Order) (now : Nat) (status : String) :
    Order :=
  order.filled_to now report.cumulative_filled_qty report.avg_price (some status)

/-- The order status of a partial fill. -/
def FillReport.partial_order_status (report : FillReport) : String :=
  if report.orig_qty ≤ report.cumulative_filled_qty then "FILLED" else "PARTIALLY_FILLED"

/-- The same tables take the same fill rows. -/
theorem SameTables.insert_fill_passes {db db' : Db} (h : SameTables db db') (args : FillArgs) :
    (insert_fill args db').isOk = (insert_fill args db).isOk := by
  unfold insert_fill add_fill
  rw [h.orders, h.accounts, h.fills]
  cases Decimal.quantize 8 (args.price * args.qty) with
  | error e => rfl
  | ok quote_qty =>
    dsimp only
    split_ifs <;> rfl

/-- A fill row goes in behind the others. -/
theorem insert_fill_row {args : FillArgs} {db db' : Db}
    (h : insert_fill args db = .ok ((), db')) :
    args.exchange_trade_id ∉ db.trade_ids args.account_id ∧
      args.exchange_trade_id ∈ db'.trade_ids args.account_id ∧
      ∃ fill, db' = { db with fills := db.fills ++ [fill] } ∧ fill.order_id = args.order_id ∧
        fill.price = args.price ∧ fill.qty = args.qty := by
  unfold insert_fill at h
  split at h
  · cases h
  · obtain ⟨hdb, -, hids⟩ := add_fill_adds h
    unfold add_fill at h
    split_ifs at h with h1 h2 h3
    refine ⟨?_, ?_, _, hdb, rfl, rfl, rfl⟩
    · simpa [Db.trade_ids] using h3
    · rw [hids]
      simp

theorem db_of_passes {r : Except PyErr (Unit × Db)} (h : r.isOk = true) :
    ∃ db, r = .ok ((), db) := by
  cases r with
  | error e => cases h
  | ok r => exact ⟨r.2, rfl⟩

/-- The event of a job that is not terminal and that has an order row. -/
structure Live (consumer : NormalizedEventConsumer) (db : Db) (symbol : String) (data : UserOrder)
    (job : ExecutionJob) (order : Order) (report : FillReport) : Prop where
  repository : consumer.repository = true
  ours : is_ours data.client_order_id = true
  job_row : db.jobs.find? (·.deterministic_client_order_id = data.client_order_id) = some job
  job_live : is_terminal job.status = false
  readable : data.report symbol = .ok report
  order_row : db.orders.find? (·.client_order_id = data.client_order_id) = some order

/-- The event adds a fill row: its level is higher than the one of the order, and
the row passes. -/
structure NewLeg (consumer : NormalizedEventConsumer) (db : Db) (symbol : String)
    (data : UserOrder) (job : ExecutionJob) (order : Order) (report : FillReport) : Prop
    extends Live consumer db symbol data job order report where
  higher : order.filled_qty < report.cumulative_filled_qty
  passes : (insert_fill (report.fill job order (report.cumulative_filled_qty - order.filled_qty))
    db).isOk = true

namespace NormalizedEventConsumer

variable (self : NormalizedEventConsumer)

/-- The event, handled again from what the first `n` calls left behind, ends as one
handling does that nothing stops. -/
def Converges (w : World) (symbol : String) (data : UserOrder) (n : Nat) : Prop :=
  ∀ w' : World, w'.db = (w.stopped n (self.handle_user_order symbol data)).db →
    (w'.after (self.handle_user_order symbol data)).db.order_state data.client_order_id =
      (w.after (self.handle_user_order symbol data)).db.order_state data.client_order_id

section Handler

variable {w : World} {symbol : String} {data : UserOrder} {job : ExecutionJob} {order : Order}
  {report : FillReport}

/-! ## The way to the two handlers -/

/-- A fill with an amount that is no number raises. -/
theorem dispatch_of_unreadable {e : PyErr}
    (hstatus : data.order_status = "PARTIALLY_FILLED" ∨ data.order_status = "FILLED")
    (h : data.report symbol = .error e) : ∃ e', self.dispatch job symbol data = .raise e' := by
  unfold dispatch
  cases data.readable with
  | error e' => exact ⟨e', rfl⟩
  | ok _ =>
    refine ⟨e, ?_⟩
    rcases hstatus with hst | hst
    · simp [hst, h, Prog.ofExcept]
    · simp [hst, h, Prog.ofExcept]

theorem dispatch_of_partial (hstatus : data.order_status = "PARTIALLY_FILLED")
    (h : data.report symbol = .ok report) :
    self.dispatch job symbol data = self.handle_partial_fill job report := by
  unfold dispatch
  rw [readable_of_report h]
  simp [hstatus, h, Prog.ofExcept]

theorem dispatch_of_filled (hstatus : data.order_status = "FILLED")
    (h : data.report symbol = .ok report) :
    self.dispatch job symbol data = self.handle_full_fill job report := by
  unfold dispatch
  rw [readable_of_report h]
  simp [hstatus, h, Prog.ofExcept]

/-- The first call reads the job, and the event of a live one is dispatched. -/
theorem stopped_of_job (symbol : String) (hours : is_ours data.client_order_id = true)
    (hrepo : self.repository = true)
    (hjob : w.db.jobs.find? (·.deterministic_client_order_id = data.client_order_id) = some job)
    (hlive : is_terminal job.status = false) (n : Nat) :
    w.stopped (n + 1) (self.handle_user_order symbol data) =
      w.stopped n (self.dispatch job symbol data) := by
  unfold handle_user_order
  rw [if_neg (by simp [hours]), if_neg (by simp [hrepo]),
    World.stopped_get_job_bind hjob]
  dsimp only
  rw [if_neg (by simp [hlive])]

/-! ## Events that write nothing -/

/-- An event without a live job or without an order row only reports. -/
theorem stopped_of_not_live (h : ¬ ∃ job order report, Live self w.db symbol data job order report)
    (hstatus : data.order_status = "PARTIALLY_FILLED" ∨ data.order_status = "FILLED") (n : Nat) :
    SameTables w.db (w.stopped n (self.handle_user_order symbol data)).db := by
  by_cases hours : is_ours data.client_order_id = true
  · by_cases hrepo : self.repository = true
    · cases n with
      | zero => exact .refl _
      | succ n =>
        cases hjob : w.db.jobs.find? (·.deterministic_client_order_id = data.client_order_id) with
        | none =>
          unfold handle_user_order
          rw [if_neg (by simp [hours]), if_neg (by simp [hrepo]),
            World.stopped_get_job_bind hjob]
          refine World.stopped_of_reports (calls_bind (publish_calls ..) fun _ => ?_) w n
          split
          · exact log_incident_calls _
          · trivial
        | some job =>
          cases hlive : is_terminal job.status with
          | true =>
            unfold handle_user_order
            rw [if_neg (by simp [hours]), if_neg (by simp [hrepo]),
              World.stopped_get_job_bind hjob]
            dsimp only
            rw [if_pos hlive]
            exact World.stopped_of_reports (publish_calls ..) w n
          | false =>
            rw [self.stopped_of_job symbol hours hrepo hjob hlive]
            cases hreport : data.report symbol with
            | error e =>
              obtain ⟨e', he⟩ := self.dispatch_of_unreadable hstatus hreport
              rw [he]
              unfold World.stopped
              rw [stopped_raise]
              exact .refl _
            | ok report =>
              have horder : w.db.orders.find? (·.client_order_id = data.client_order_id) = none := by
                rw [Option.eq_none_iff_forall_ne_some]
                intro order horder
                exact h ⟨job, order, report, hrepo, hours, hjob, hlive, hreport, horder⟩
              cases n with
              | zero => exact .refl _
              | succ n =>
                rcases hstatus with hst | hst
                · rw [self.dispatch_of_partial hst hreport]
                  unfold handle_partial_fill
                  rw [(report_ok hreport).1, World.stopped_get_order_bind horder]
                  exact World.stopped_of_reports (publish_calls ..) w n
                · rw [self.dispatch_of_filled hst hreport]
                  unfold handle_full_fill
                  rw [(report_ok hreport).1, World.stopped_get_order_bind horder]
                  exact World.stopped_of_reports (publish_calls ..) w n
    · unfold handle_user_order
      rw [if_neg (by simp [hours]), if_pos (by simpa using hrepo)]
      rw [show (return () : Py Unit) = .done () from rfl, World.stopped_done]
      exact .refl _
  · unfold handle_user_order
    rw [if_pos hours]
    exact World.stopped_of_reports (publish_calls ..) w n

/-- A partial fill whose leg is recorded, or whose row does not pass. -/
theorem stopped_partial_of_not_new (hl : Live self w.db symbol data job order report)
    (hstatus : data.order_status = "PARTIALLY_FILLED")
    (h : ¬ NewLeg self w.db symbol data job order report) (n : Nat) :
    (w.stopped n (self.handle_user_order symbol data)).db = w.db := by
  rcases n with _ | _ | n
  · rfl
  · rw [self.stopped_of_job symbol hl.ours hl.repository hl.job_row hl.job_live, World.stopped_zero]
  · rw [self.stopped_of_job symbol hl.ours hl.repository hl.job_row hl.job_live,
      self.dispatch_of_partial hstatus hl.readable]
    unfold handle_partial_fill
    rw [(report_ok hl.readable).1, World.stopped_get_order_bind hl.order_row]
    dsimp only
    by_cases hleg : report.cumulative_filled_qty - order.filled_qty ≤ 0
    · rw [if_pos hleg]
      exact congrArg World.db (World.stopped_done w n ())
    · rw [if_neg hleg]
      cases n with
      | zero => rfl
      | succ n =>
        cases hfound : w.db.fills.find? (fun f => f.account_id = job.account_id ∧
            f.exchange_trade_id = report.exchange_trade_id) with
        | some fill =>
          rw [World.stopped_get_fill_bind hfound]
          exact congrArg World.db (World.stopped_done w n ())
        | none =>
          rw [World.stopped_get_fill_bind hfound]
          cases n with
          | zero => rfl
          | succ n =>
            unfold record_partial_fill
            refine World.stopped_write_bind (P := fun w' => w'.db = w.db) (fun _ db htxn => ?_)
              fun e htxn => rfl
            refine absurd ⟨hl, by linarith, ?_⟩ h
            rw [show insert_fill _ w.db = .ok ((), db) from htxn]
            rfl

/-! ## The stops of a partial fill -/

/-- A partial fill ends the job when the whole quantity is done. -/
def completes (job : ExecutionJob) (report : FillReport) : Prop :=
  report.orig_qty ≤ report.cumulative_filled_qty ∧ can_transition job.status .filled = true

instance : Decidable (completes job report) := inferInstanceAs (Decidable (_ ∧ _))

/-- A partial fill marks a job that is not marked yet. -/
def marks (job : ExecutionJob) : Prop :=
  job.status ≠ .partially_filled ∧ can_transition job.status .partially_filled = true

instance : Decidable (marks job) := inferInstanceAs (Decidable (_ ∧ _))

/-- The job status after the first `n` calls behind the write of the order row: the mark,
the event in two calls, the last status. -/
def status_at (job : ExecutionJob) (report : FillReport) (n : Nat) : JobStatus :=
  if (if marks job then 4 else 3) ≤ n ∧ completes job report then .filled
  else if 1 ≤ n ∧ marks job then .partially_filled
  else job.status

/-- The calls of a partial fill up to its last write. The first three read, the next two
write the fill row and the order row. -/
def last_write (job : ExecutionJob) (report : FillReport) : Nat :=
  if completes job report then (if marks job then 9 else 8) else if marks job then 6 else 5

section Stops

variable {client_order_id : String} {fills : List Fill} {status : JobStatus} {n : Nat}

/-- A status write of the job, and an event behind it. -/
theorem stands_update_job_bind {job_id : Uuid}
    (h : Stands w.db client_order_id job_id order fills status)
    {s : JobStatus} {event_data result_json : Option Json} {error : Option String} {p : Py Unit}
    {goal : JobStatus}
    (hp : ∀ w' : World, Stands w'.db client_order_id job_id order fills s →
      Stands (w'.stopped n p).db client_order_id job_id order fills goal) :
    Stands (w.stopped (n + 1)
      (repo (.update_job_status job_id s event_data result_json error) >>= fun _ => p)).db
      client_order_id job_id order fills goal := by
  refine World.stopped_write_bind
    (P := fun w' => Stands w'.db client_order_id job_id order fills goal)
    (fun _ db htxn => ?_) fun e htxn => absurd htxn update_job_status_passes
  exact hp { w with db } (h.update_job htxn)

/-- The stops of the last status. -/
theorem stands_finalize_fill (hrepo : self.repository = true)
    (h : Stands w.db client_order_id job.id order fills status) {exchange_order_id : String}
    {z price : ℚ} :
    Stands (w.stopped n (self.finalize_fill job exchange_order_id z price)).db client_order_id
      job.id order fills
      (if 1 ≤ n ∧ can_transition job.status .filled = true then .filled else status) := by
  unfold finalize_fill
  by_cases hc : can_transition job.status .filled = true
  · rw [if_neg (by simp [hc])]
    dsimp only
    rw [if_pos hrepo]
    cases n with
    | zero => simpa using h
    | succ n =>
      rw [if_pos ⟨by omega, hc⟩]
      refine stands_update_job_bind h fun w' h' => ?_
      exact h'.of_same (World.stopped_of_reports (publish_calls ..) w' n)
  · rw [if_pos hc, if_neg (c := 1 ≤ n ∧ _) fun h => hc h.2]
    rw [show (return () : Py Unit) = .done () from rfl, World.stopped_done]
    exact h

theorem stands_finalize_if_complete (report : FillReport) (hrepo : self.repository = true)
    (h : Stands w.db client_order_id job.id order fills status) :
    Stands (w.stopped n (self.finalize_if_complete job report)).db client_order_id job.id order
      fills (if 1 ≤ n ∧ completes job report then .filled else status) := by
  unfold finalize_if_complete completes
  by_cases hz : report.orig_qty ≤ report.cumulative_filled_qty
  · simp only [hz, true_and, if_true]
    exact self.stands_finalize_fill hrepo h
  · simp only [hz, false_and, and_false, if_false]
    rw [show (return () : Py Unit) = .done () from rfl, World.stopped_done]
    exact h

/-- The stops behind the write of the order row. -/
theorem stands_behind_order_row (hrepo : self.repository = true)
    (h : Stands w.db client_order_id job.id order fills job.status) {leg : ℚ} {event_type : String}
    {event : List (String × Json)} :
    Stands (w.stopped n (do
      mark_partially_filled job report leg
      ExecutionEventPublisher.publish event_type job.id event
      self.finalize_if_complete job report)).db client_order_id job.id order fills
        (status_at job report n) := by
  -- the event, from a row with the status `s`
  have hevent (s : JobStatus) (w : World) (m : Nat)
      (hw : Stands w.db client_order_id job.id order fills s) :
      Stands (w.stopped m (do
        ExecutionEventPublisher.publish event_type job.id event
        self.finalize_if_complete job report)).db client_order_id job.id order fills
          (if 3 ≤ m ∧ completes job report then .filled else s) := by
    rcases m with _ | _ | m
    · exact hw
    · exact hw
    · obtain ⟨redis, he⟩ := World.stopped_publish_bind w m event_type job.id event
        fun _ => self.finalize_if_complete job report
      rw [he]
      have hfin := self.stands_finalize_if_complete (w := { w with redis }) (n := m)
        report hrepo hw
      by_cases hm : 1 ≤ m ∧ completes job report
      · rw [if_pos hm] at hfin
        rw [if_pos ⟨by omega, hm.2⟩]
        exact hfin
      · rw [if_neg hm] at hfin
        rw [if_neg (c := 3 ≤ m + 1 + 1 ∧ completes job report) fun h => hm ⟨by omega, h.2⟩]
        exact hfin
  unfold mark_partially_filled status_at
  by_cases hm : marks job
  · rw [if_pos (c := job.status ≠ .partially_filled ∧ _) hm, if_pos hm]
    cases n with
    | zero => simpa using h
    | succ n =>
      refine stands_update_job_bind h fun w' h' => ?_
      have he := hevent .partially_filled w' n h'
      by_cases hc : 3 ≤ n ∧ completes job report
      · rw [if_pos hc] at he
        rw [if_pos ⟨by omega, hc.2⟩]
        exact he
      · rw [if_neg hc] at he
        rw [if_neg (c := 4 ≤ n + 1 ∧ completes job report) fun h => hc ⟨by omega, h.2⟩,
          if_pos ⟨by omega, hm⟩]
        exact he
  · rw [if_neg (c := job.status ≠ .partially_filled ∧ _) hm, if_neg hm,
      if_neg (c := 1 ≤ n ∧ marks job) fun h => hm h.2]
    exact hevent job.status w n h

/-- The last status stands exactly behind the last write. -/
theorem status_at_eq_iff (hlive : is_terminal job.status = false) {m : Nat} (hm : 4 ≤ m) (n : Nat) :
    status_at job report n = status_at job report m ↔ last_write job report ≤ n + 5 := by
  have hfilled : job.status ≠ .filled := by
    intro h
    rw [h] at hlive
    cases hlive
  unfold status_at last_write
  by_cases hc : completes job report
  · by_cases hk : marks job
    · simp only [hc, hk, and_true, if_true]
      rw [if_pos hm]
      by_cases h4 : 4 ≤ n
      · simp [h4]
      · rw [if_neg h4]
        have : ¬ 9 ≤ n + 5 := by omega
        by_cases h1 : 1 ≤ n
        · simp [h1, this]
        · simp [h1, this, hfilled]
    · simp only [hc, hk, and_true, and_false, if_true, if_false]
      rw [if_pos (by omega : 3 ≤ m)]
      by_cases h3 : 3 ≤ n
      · simp [h3]
      · have : ¬ 8 ≤ n + 5 := by omega
        simp [h3, this, hfilled]
  · by_cases hk : marks job
    · simp only [hc, hk, and_true, and_false, if_true, if_false]
      rw [if_pos (by omega : 1 ≤ m)]
      by_cases h1 : 1 ≤ n
      · simp [h1]
      · have : ¬ 6 ≤ n + 5 := by omega
        simp [h1, this, hk.1]
    · simp [hc, hk]

end Stops

/-! ## A partial fill that comes again -/

/-- A partial fill that adds no leg writes nothing. -/
theorem stopped_partial_idle (symbol : String) (hstatus : data.order_status = "PARTIALLY_FILLED")
    (h : ∀ job order report, ¬ NewLeg self w.db symbol data job order report) (n : Nat) :
    SameTables w.db (w.stopped n (self.handle_user_order symbol data)).db := by
  by_cases hl : ∃ job order report, Live self w.db symbol data job order report
  · obtain ⟨job, order, report, hl⟩ := hl
    rw [self.stopped_partial_of_not_new hl hstatus (h job order report)]
    exact .refl _
  · exact self.stopped_of_not_live hl (Or.inl hstatus) n

/-- A partial fill that adds a leg, behind its three reads. -/
theorem stopped_record (hstatus : data.order_status = "PARTIALLY_FILLED")
    (hl : NewLeg self w.db symbol data job order report) (n : Nat) :
    w.stopped (n + 3) (self.handle_user_order symbol data) =
      w.stopped n (self.record_partial_fill job report order
        (report.cumulative_filled_qty - order.filled_qty)) := by
  have hleg : ¬ report.cumulative_filled_qty - order.filled_qty ≤ 0 := by
    have := hl.higher
    linarith
  obtain ⟨db, hins⟩ := db_of_passes hl.passes
  have hnone : w.db.fills.find? (fun f => f.account_id = job.account_id ∧
      f.exchange_trade_id = report.exchange_trade_id) = none :=
    find_fill_eq_none.mpr (insert_fill_row hins).1
  rw [self.stopped_of_job symbol hl.ours hl.repository hl.job_row hl.job_live (n + 2),
    self.dispatch_of_partial hstatus hl.readable]
  unfold handle_partial_fill
  rw [(report_ok hl.readable).1, World.stopped_get_order_bind hl.order_row]
  dsimp only
  rw [if_neg hleg, World.stopped_get_fill_bind hnone]

/-- Nothing is written before the fill row. -/
theorem stopped_partial_early (hstatus : data.order_status = "PARTIALLY_FILLED")
    (hl : NewLeg self w.db symbol data job order report) {n : Nat} (hn : n ≤ 3) :
    (w.stopped n (self.handle_user_order symbol data)).db = w.db := by
  have hjob := fun n => self.stopped_of_job symbol hl.ours hl.repository hl.job_row
    hl.job_live n
  rw [self.dispatch_of_partial hstatus hl.readable] at hjob
  rcases n with _ | _ | _ | _ | n
  · rfl
  · rw [hjob, World.stopped_zero]
  · rw [hjob]
    unfold handle_partial_fill
    rw [(report_ok hl.readable).1, World.stopped_get_order_bind hl.order_row,
      World.stopped_zero]
  · rw [self.stopped_record hstatus hl, World.stopped_zero]
  · omega

/-- The stops of a partial fill that adds a leg: the three reads, the fill row, the order
row, and what follows. -/
theorem stopped_new_leg (hstatus : data.order_status = "PARTIALLY_FILLED")
    (hl : NewLeg self w.db symbol data job order report) {fill : Fill}
    (hins : insert_fill (report.fill job order (report.cumulative_filled_qty - order.filled_qty))
      w.db = .ok ((), { w.db with fills := w.db.fills ++ [fill] })) :
    (∀ n, n ≤ 3 → (w.stopped n (self.handle_user_order symbol data)).db = w.db) ∧
      (w.stopped 4 (self.handle_user_order symbol data)).db =
        { w.db with fills := w.db.fills ++ [fill] } ∧
      ∀ n, Stands (w.stopped (n + 5) (self.handle_user_order symbol data)).db
        data.client_order_id job.id (report.filled_row order w.now report.partial_order_status)
        (w.db.fills ++ [fill]) (status_at job report n) := by
  have hrow (n : Nat) : w.stopped (n + 4) (self.handle_user_order symbol data) =
      World.stopped { w with db := { w.db with fills := w.db.fills ++ [fill] } } n (do
        repo (.update_order_filled_qty order.id report.cumulative_filled_qty report.avg_price
          (some report.partial_order_status))
        mark_partially_filled job report (report.cumulative_filled_qty - order.filled_qty)
        ExecutionEventPublisher.publish "job_partially_filled" job.id
          [("exchange_order_id", .str report.exchange_order_id),
            ("fill_leg_qty", jsonDecimal (report.cumulative_filled_qty - order.filled_qty)),
            ("cumulative_filled_qty", jsonDecimal report.cumulative_filled_qty),
            ("orig_qty", jsonDecimal report.orig_qty),
            ("avg_price", jsonDecimal report.avg_price),
            ("exchange_trade_id", .str report.exchange_trade_id)]
        self.finalize_if_complete job report) := by
    rw [self.stopped_record hstatus hl (n + 1)]
    unfold record_partial_fill
    rw [World.stopped_repo_bind]
    dsimp only [RepoCmd.txn]
    rw [hins]
    rfl
  refine ⟨fun n hn => self.stopped_partial_early hstatus hl hn, ?_, fun n => ?_⟩
  · rw [show 4 = 0 + 4 from rfl, hrow, World.stopped_zero]
  · rw [show n + 5 = n + 1 + 4 from rfl, hrow]
    refine World.stopped_write_bind (P := fun w' : World => Stands w'.db data.client_order_id job.id
      (report.filled_row order w.now report.partial_order_status) (w.db.fills ++ [fill])
      (status_at job report n)) (fun _ db' htxn => ?_) fun e htxn => by cases htxn
    have hstands : Stands { w.db with fills := w.db.fills ++ [fill] } data.client_order_id job.id
        order (w.db.fills ++ [fill]) job.status := ⟨hl.order_row, rfl, job, hl.job_row, rfl, rfl⟩
    exact self.stands_behind_order_row (w := { w with db := db' }) hl.repository
      (hstands.update_order htxn)

/-- A partial fill, handled again, stays as it is: its level is reached or its key is in
use. -/
theorem after_partial_again (hstatus : data.order_status = "PARTIALLY_FILLED")
    (hl : NewLeg self w.db symbol data job order report) {w' : World}
    {order' : Order} {status : JobStatus} {job_id : Uuid} {fills : List Fill}
    (hw : Stands w'.db data.client_order_id job_id order' fills status)
    (hdone : report.cumulative_filled_qty ≤ order'.filled_qty ∨
      ∀ row, w'.db.jobs.find? (·.deterministic_client_order_id = data.client_order_id) = some row →
        report.exchange_trade_id ∈ w'.db.trade_ids row.account_id) :
    (w'.after (self.handle_user_order symbol data)).db.order_state data.client_order_id =
      ⟨some order'.untimed, fills, some status⟩ := by
  obtain ⟨n, hn⟩ := w'.exists_stopped (self.handle_user_order symbol data)
  have hsame := self.stopped_partial_idle (w := w') symbol hstatus ?_ n
  · rw [hn n le_rfl] at hsame
    exact (hw.of_same hsame).order_state
  · intro row order'' report' hnew
    have hreport : report' = report := by
      have h := hnew.readable
      rw [hl.readable, Except.ok.injEq] at h
      exact h.symm
    have horder : order'' = order' := by
      have h := hnew.order_row
      rw [hw.1, Option.some.injEq] at h
      exact h.symm
    subst hreport horder
    rcases hdone with hz | hkey
    · exact absurd hnew.higher (not_lt.mpr hz)
    · obtain ⟨db, hins⟩ := db_of_passes hnew.passes
      exact (insert_fill_row hins).1 (hkey row hnew.job_row)

/-- A partial fill that adds a leg, handled to its end. -/
theorem after_new_leg (hstatus : data.order_status = "PARTIALLY_FILLED")
    (hl : NewLeg self w.db symbol data job order report) {fill : Fill}
    (hins : insert_fill (report.fill job order (report.cumulative_filled_qty - order.filled_qty))
      w.db = .ok ((), { w.db with fills := w.db.fills ++ [fill] })) :
    (w.after (self.handle_user_order symbol data)).db.order_state data.client_order_id =
      ⟨some (report.filled_row order 0 report.partial_order_status), w.db.fills ++ [fill],
        some (status_at job report 4)⟩ := by
  obtain ⟨n, hn⟩ := w.exists_stopped (self.handle_user_order symbol data)
  have hlate := (self.stopped_new_leg hstatus hl hins).2.2 (n + 4)
  rw [hn (n + 4 + 5) (by omega)] at hlate
  rw [hlate.order_state, (status_at_eq_iff hl.job_live (le_refl 4) (n + 4)).mpr ?_]
  · rfl
  · unfold last_write
    split_ifs <;> omega

/-- A partial fill that adds a leg converges when it stops before the fill row or behind
its last write, and only then. -/
theorem converges_new_leg_iff (hstatus : data.order_status = "PARTIALLY_FILLED")
    (hl : NewLeg self w.db symbol data job order report) (n : Nat) :
    self.Converges w symbol data n ↔ n ≤ 3 ∨ last_write job report ≤ n := by
  obtain ⟨db, hins⟩ := db_of_passes hl.passes
  obtain ⟨-, hkey, fill, rfl, -⟩ := insert_fill_row hins
  obtain ⟨hearly, hrow, hlate⟩ := self.stopped_new_leg hstatus hl hins
  unfold Converges
  rw [self.after_new_leg hstatus hl hins]
  by_cases h3 : n ≤ 3
  · -- nothing is written yet
    refine iff_of_true (fun w' hw' => ?_) (Or.inl h3)
    rw [hearly n h3] at hw'
    rw [← hw'] at hl hins
    rw [self.after_new_leg hstatus hl hins, hw']
  · by_cases h4 : n = 4
    · -- the fill row is there and the order row is not
      subst h4
      have hlast : ¬ (4 ≤ 3 ∨ last_write job report ≤ 4) := by
        unfold last_write
        split_ifs <;> omega
      refine iff_of_false (fun h => ?_) hlast
      have hstands : Stands (w.stopped 4 (self.handle_user_order symbol data)).db
          data.client_order_id job.id order (w.db.fills ++ [fill]) job.status := by
        rw [hrow]
        exact ⟨hl.order_row, rfl, job, hl.job_row, rfl, rfl⟩
      have hw := h _ rfl
      rw [self.after_partial_again hstatus hl hstands (Or.inr ?_)] at hw
      · have hlevel : order.filled_qty = report.cumulative_filled_qty :=
          congrArg (fun state : OrderState => (state.order.map Order.filled_qty).getD 0) hw
        exact absurd hlevel (ne_of_lt hl.higher)
      · intro row hr
        rw [hrow] at hr
        rw [show row = job from Option.some.inj (hr.symm.trans hl.job_row), hrow]
        exact hkey
    · -- the order row is written
      obtain ⟨m, rfl⟩ : ∃ m, n = m + 5 := ⟨n - 5, by omega⟩
      have hagain (w' : World)
          (hw' : w'.db = (w.stopped (m + 5) (self.handle_user_order symbol data)).db) :=
        self.after_partial_again hstatus hl (hw'.symm ▸ hlate m) (Or.inl le_rfl)
      rw [← status_at_eq_iff hl.job_live (le_refl 4) m]
      constructor
      · intro h
        have hw := h _ rfl
        rw [hagain _ rfl] at hw
        exact Or.inr (by simpa using congrArg OrderState.job_status hw)
      · intro h w' hw'
        rw [hagain w' hw', h.resolve_left (by omega)]
        rfl

/-! ## A full fill that comes again -/

/-- The tables behind the fill row of a full fill: the row goes in when the level is
higher and the key is free. -/
def LastLeg (db : Db) (job : ExecutionJob) (order : Order) (report : FillReport) (db' : Db) :
    Prop :=
  if order.filled_qty < report.cumulative_filled_qty ∧
      report.exchange_trade_id ∉ db.trade_ids job.account_id then
    insert_fill (report.fill job order (report.cumulative_filled_qty - order.filled_qty)) db =
      .ok ((), db')
  else db' = db

/-- The status that a full fill leaves. -/
def full_status (job : ExecutionJob) : JobStatus :=
  if can_transition job.status .filled then .filled else job.status

/-- What follows the fill row of a full fill. -/
def full_fill_end (job : ExecutionJob) (order : Order) (report : FillReport) : Py Unit := do
  repo (.update_order_filled_qty order.id report.cumulative_filled_qty report.avg_price
    (some "FILLED"))
  self.finalize_fill job report.exchange_order_id report.cumulative_filled_qty report.avg_price

/-- The stops behind the fill row: the order row, and the last status. -/
theorem stands_full_fill_end (hl : Live self w.db symbol data job order report) {db : Db}
    (hstands : Stands db data.client_order_id job.id order db.fills job.status) (n : Nat) :
    Stands (World.stopped { w with db } (n + 1) (self.full_fill_end job order report)).db
      data.client_order_id job.id (report.filled_row order w.now "FILLED") db.fills
      (if 1 ≤ n ∧ can_transition job.status .filled = true then .filled else job.status) := by
  refine World.stopped_write_bind (P := fun w' : World => Stands w'.db data.client_order_id
    job.id (report.filled_row order w.now "FILLED") db.fills _)
    (fun _ db' htxn => ?_) fun e htxn => by cases htxn
  exact self.stands_finalize_fill (w := { w with db := db' }) hl.repository
    (hstands.update_order htxn)

/-- The stops of a full fill before its fill row: two reads. -/
theorem stopped_full_early (hl : Live self w.db symbol data job order report) {n : Nat}
    (hn : n < 2) :
    (w.stopped n (self.handle_user_order symbol data)).db = w.db := by
  rcases n with _ | _ | n
  · rfl
  · rw [self.stopped_of_job symbol hl.ours hl.repository hl.job_row hl.job_live,
      World.stopped_zero]
  · omega

theorem stopped_full_leg (hstatus : data.order_status = "FILLED")
    (hl : Live self w.db symbol data job order report) (n : Nat) :
    w.stopped (n + 2) (self.handle_user_order symbol data) =
      w.stopped n (do
        insert_last_leg job report order (report.cumulative_filled_qty - order.filled_qty)
        self.full_fill_end job order report) := by
  rw [self.stopped_of_job symbol hl.ours hl.repository hl.job_row hl.job_live,
    self.dispatch_of_filled hstatus hl.readable]
  unfold handle_full_fill
  rw [(report_ok hl.readable).1, World.stopped_get_order_bind hl.order_row]
  rfl

/-- The level is reached: there is no fill row to insert. -/
theorem stopped_full_of_level (hstatus : data.order_status = "FILLED")
    (hl : Live self w.db symbol data job order report)
    (hz : ¬ order.filled_qty < report.cumulative_filled_qty) (n : Nat) :
    w.stopped (n + 2) (self.handle_user_order symbol data) =
      w.stopped n (self.full_fill_end job order report) := by
  rw [self.stopped_full_leg hstatus hl]
  unfold insert_last_leg
  rw [if_neg (by linarith)]
  rfl

/-- The level is higher: the handler looks for the row. -/
theorem stopped_full_read (hstatus : data.order_status = "FILLED")
    (hl : Live self w.db symbol data job order report)
    (hz : order.filled_qty < report.cumulative_filled_qty) {found : Option Fill}
    (hfound : w.db.fills.find? (fun f => f.account_id = job.account_id ∧
      f.exchange_trade_id = report.exchange_trade_id) = found) (n : Nat) :
    w.stopped (n + 3) (self.handle_user_order symbol data) =
      w.stopped n ((match found with
        | some _ => return ()
        | none => repo (.insert_fill (report.fill job order
            (report.cumulative_filled_qty - order.filled_qty)))) >>= fun _ =>
          self.full_fill_end job order report) := by
  rw [self.stopped_full_leg hstatus hl (n + 1)]
  unfold insert_last_leg
  rw [if_pos (by linarith), Prog.bind_assoc, World.stopped_get_fill_bind hfound]
  cases found with
  | none => rfl
  | some fill => rfl

/-- The stops of a full fill: some calls that write no order row, the fill row if there is
one, the order row, and the last status. -/
theorem stopped_full_fill (hstatus : data.order_status = "FILLED")
    (hl : Live self w.db symbol data job order report) {db : Db}
    (hleg : LastLeg w.db job order report db) :
    ∃ k, (∀ n, n < k → (w.stopped n (self.handle_user_order symbol data)).db = w.db) ∧
      (w.stopped k (self.handle_user_order symbol data)).db = db ∧
      ∀ n, Stands (w.stopped (k + 1 + n) (self.handle_user_order symbol data)).db
        data.client_order_id job.id (report.filled_row order w.now "FILLED") db.fills
        (if 1 ≤ n ∧ can_transition job.status .filled = true then .filled else job.status) := by
  have hstands : Stands w.db data.client_order_id job.id order w.db.fills job.status :=
    ⟨hl.order_row, rfl, job, hl.job_row, rfl, rfl⟩
  unfold LastLeg at hleg
  by_cases hz : order.filled_qty < report.cumulative_filled_qty
  · cases hfound : w.db.fills.find? (fun f => f.account_id = job.account_id ∧
        f.exchange_trade_id = report.exchange_trade_id) with
    | some fill =>
      -- the row is there
      have hkey : ¬ report.exchange_trade_id ∉ w.db.trade_ids job.account_id := by
        rw [← find_fill_eq_none, hfound]
        simp
      rw [if_neg fun h => hkey h.2] at hleg
      subst hleg
      have hread := self.stopped_full_read hstatus hl hz hfound
      refine ⟨3, fun n hn => ?_, ?_, fun n => ?_⟩
      · by_cases h2 : n < 2
        · exact self.stopped_full_early hl h2
        · rw [show n = 0 + 2 by omega, self.stopped_full_leg hstatus hl, World.stopped_zero]
      · rw [show 3 = 0 + 3 from rfl, hread, World.stopped_zero]
      · rw [show 3 + 1 + n = n + 1 + 3 by omega, hread]
        exact self.stands_full_fill_end hl hstands n
    | none =>
      -- the row goes in
      rw [if_pos ⟨hz, find_fill_eq_none.mp hfound⟩] at hleg
      obtain ⟨-, -, fill, rfl, -⟩ := insert_fill_row hleg
      have hread := self.stopped_full_read hstatus hl hz hfound
      have hrow (n : Nat) : w.stopped (n + 4) (self.handle_user_order symbol data) =
          World.stopped { w with db := { w.db with fills := w.db.fills ++ [fill] } } n
            (self.full_fill_end job order report) := by
        rw [hread (n + 1)]
        dsimp only
        rw [World.stopped_repo_bind]
        dsimp only [RepoCmd.txn]
        rw [hleg]
      refine ⟨4, fun n hn => ?_, ?_, fun n => ?_⟩
      · by_cases h2 : n < 2
        · exact self.stopped_full_early hl h2
        · by_cases h3 : n = 2
          · rw [show n = 0 + 2 by omega, self.stopped_full_leg hstatus hl, World.stopped_zero]
          · rw [show n = 0 + 3 by omega, hread, World.stopped_zero]
      · rw [show 4 = 0 + 4 from rfl, hrow, World.stopped_zero]
      · rw [show 4 + 1 + n = n + 1 + 4 by omega, hrow]
        have hinserted : Stands { w.db with fills := w.db.fills ++ [fill] } data.client_order_id
            job.id order (w.db.fills ++ [fill]) job.status :=
          ⟨hl.order_row, rfl, job, hl.job_row, rfl, rfl⟩
        exact self.stands_full_fill_end hl hinserted n
  · rw [if_neg fun h => hz h.1] at hleg
    subst hleg
    have hlevel := self.stopped_full_of_level hstatus hl hz
    refine ⟨2, fun n hn => self.stopped_full_early hl hn, ?_, fun n => ?_⟩
    · rw [show 2 = 0 + 2 from rfl, hlevel, World.stopped_zero]
    · rw [show 2 + 1 + n = n + 1 + 2 by omega, hlevel]
      exact self.stands_full_fill_end hl hstands n

/-- A full fill, handled to its end. -/
theorem after_full_fill (hstatus : data.order_status = "FILLED")
    (hl : Live self w.db symbol data job order report) {db : Db}
    (hleg : LastLeg w.db job order report db) :
    (w.after (self.handle_user_order symbol data)).db.order_state data.client_order_id =
      ⟨some (report.filled_row order 0 "FILLED"), db.fills, some (full_status job)⟩ := by
  obtain ⟨k, -, -, hlate⟩ := self.stopped_full_fill hstatus hl hleg
  obtain ⟨n, hn⟩ := w.exists_stopped (self.handle_user_order symbol data)
  have hend := hlate (n + 1)
  rw [hn (k + 1 + (n + 1)) (by omega)] at hend
  rw [hend.order_state]
  unfold full_status
  simp only [Nat.le_add_left, true_and]
  rfl

/-- A full fill whose row does not pass writes nothing. -/
theorem stopped_full_of_no_leg (hstatus : data.order_status = "FILLED")
    (hl : Live self w.db symbol data job order report)
    (hleg : ∀ db, ¬ LastLeg w.db job order report db) (n : Nat) :
    (w.stopped n (self.handle_user_order symbol data)).db = w.db := by
  unfold LastLeg at hleg
  by_cases hnew : order.filled_qty < report.cumulative_filled_qty ∧
      report.exchange_trade_id ∉ w.db.trade_ids job.account_id
  · simp only [if_pos hnew] at hleg
    rcases n with _ | _ | _ | n
    · rfl
    · exact self.stopped_full_early hl (by omega)
    · rw [self.stopped_full_leg hstatus hl, World.stopped_zero]
    · rw [self.stopped_full_read hstatus hl hnew.1 (find_fill_eq_none.mpr hnew.2)]
      dsimp only
      cases n with
      | zero => rw [World.stopped_zero]
      | succ n =>
        refine World.stopped_write_bind (P := fun w' => w'.db = w.db) (fun _ db htxn => ?_)
          fun e htxn => rfl
        exact absurd htxn (hleg db)
  · simp only [if_neg hnew] at hleg
    exact absurd rfl (hleg w.db)

/-! ## Both handlers -/

/-- A job and an order that are there are there in the same tables. -/
theorem live_of_same {db db' : Db} (hl : Live self db symbol data job order report)
    (h : SameTables db db') : Live self db' symbol data job order report := by
  refine { hl with job_row := ?_, order_row := ?_ }
  · rw [h.jobs]
    exact hl.job_row
  · rw [h.orders]
    exact hl.order_row

theorem newLeg_of_same {db db' : Db} (hl : NewLeg self db symbol data job order report)
    (h : SameTables db db') : NewLeg self db' symbol data job order report := by
  refine { self.live_of_same hl.toLive h with higher := hl.higher, passes := ?_ }
  rw [h.insert_fill_passes]
  exact hl.passes

/-- An event that writes nothing in any world with these tables converges. -/
theorem converges_of_idle
    (h : ∀ w' : World, SameTables w.db w'.db →
      ∀ m, SameTables w'.db (w'.stopped m (self.handle_user_order symbol data)).db) (n : Nat) :
    self.Converges w symbol data n := by
  have hafter (w' : World) (hw' : SameTables w.db w'.db) :
      SameTables w.db (w'.after (self.handle_user_order symbol data)).db := by
    obtain ⟨m, hm⟩ := w'.exists_stopped (self.handle_user_order symbol data)
    rw [← hm m le_rfl]
    exact hw'.trans (h w' hw' m)
  intro w' hw'
  have hstop : SameTables w.db w'.db := by
    rw [hw']
    exact h w (.refl _) n
  rw [(hafter w' hstop).order_state, (hafter w (.refl _)).order_state]

theorem lastLeg_of_same {db db' : Db} (h : SameTables db db') {after : Db}
    (hleg : LastLeg db' job order report after) : ∃ before, LastLeg db job order report before := by
  unfold LastLeg at *
  rw [show db'.trade_ids = db.trade_ids by unfold Db.trade_ids; rw [h.fills]] at hleg
  by_cases hnew : order.filled_qty < report.cumulative_filled_qty ∧
      report.exchange_trade_id ∉ db.trade_ids job.account_id
  · rw [if_pos hnew] at hleg
    have hpasses : (insert_fill (report.fill job order
        (report.cumulative_filled_qty - order.filled_qty)) db').isOk = true := by
      rw [hleg]
      rfl
    rw [h.insert_fill_passes] at hpasses
    obtain ⟨before, hbefore⟩ := db_of_passes hpasses
    exact ⟨before, by rw [if_pos hnew]; exact hbefore⟩
  · exact ⟨db, by rw [if_neg hnew]⟩

/-- Behind its fill row, a full fill needs no other one. -/
theorem lastLeg_behind {db db' : Db} (hleg : LastLeg db job order report db') :
    db'.jobs = db.jobs ∧ db'.orders = db.orders ∧ LastLeg db' job order report db' := by
  unfold LastLeg at *
  by_cases hnew : order.filled_qty < report.cumulative_filled_qty ∧
      report.exchange_trade_id ∉ db.trade_ids job.account_id
  · rw [if_pos hnew] at hleg
    obtain ⟨-, hkey, fill, rfl, -⟩ := insert_fill_row hleg
    exact ⟨rfl, rfl, by rw [if_neg fun h => h.2 hkey]⟩
  · rw [if_neg hnew] at hleg
    subst hleg
    exact ⟨rfl, rfl, by rw [if_neg hnew]⟩

/-- A full fill that comes again behind the order row. -/
theorem after_full_again (hstatus : data.order_status = "FILLED")
    (hl : Live self w.db symbol data job order report) {w' : World} {order' : Order}
    {fills : List Fill} {status : JobStatus} {job_id : Uuid}
    (hw : Stands w'.db data.client_order_id job_id order' fills status)
    (hlevel : report.cumulative_filled_qty ≤ order'.filled_qty)
    (hs : status = .filled ∧ can_transition job.status .filled = true ∨ status = job.status)
    (hrow : report.filled_row order' 0 "FILLED" = order'.untimed) :
    (w'.after (self.handle_user_order symbol data)).db.order_state data.client_order_id =
      ⟨some order'.untimed, fills, some (full_status job)⟩ := by
  obtain ⟨horder, hfills, row, hjob, hid, hrs⟩ := hw
  rcases hs with ⟨rfl, hcan⟩ | rfl
  · -- the job is done
    obtain ⟨n, hn⟩ := w'.exists_stopped (self.handle_user_order symbol data)
    have hdead : ¬ ∃ job order report, Live self w'.db symbol data job order report := by
      rintro ⟨job', _, _, hl'⟩
      have hlive := hl'.job_live
      rw [show job' = row from Option.some.inj (hl'.job_row.symm.trans hjob), hrs] at hlive
      cases hlive
    have hsame := self.stopped_of_not_live hdead (Or.inr hstatus) n
    rw [hn n le_rfl] at hsame
    rw [hsame.order_state, Stands.order_state ⟨horder, hfills, row, hjob, hid, hrs⟩]
    unfold full_status
    rw [if_pos hcan]
  · -- the last status is missing
    have hl' : Live self w'.db symbol data row order' report :=
      ⟨hl.repository, hl.ours, hjob, by rw [hrs]; exact hl.job_live, hl.readable, horder⟩
    have hleg : LastLeg w'.db row order' report w'.db := by
      unfold LastLeg
      rw [if_neg fun h => absurd h.1 (not_lt.mpr hlevel)]
    rw [self.after_full_fill hstatus hl' hleg, hrow, hfills]
    unfold full_status
    rw [hrs]

/-- A full fill converges, wherever it stops. -/
theorem converges_full (hstatus : data.order_status = "FILLED") (n : Nat) :
    self.Converges w symbol data n := by
  by_cases hlive : ∃ job order report, Live self w.db symbol data job order report
  · obtain ⟨job, order, report, hl⟩ := hlive
    by_cases hleg : ∃ db, LastLeg w.db job order report db
    · obtain ⟨db, hleg⟩ := hleg
      obtain ⟨k, hearly, hrow, hlate⟩ := self.stopped_full_fill hstatus hl hleg
      intro w' hw'
      rw [self.after_full_fill hstatus hl hleg]
      by_cases hlt : n < k
      · -- nothing is written yet
        rw [hearly n hlt] at hw'
        rw [← hw'] at hl hleg
        exact self.after_full_fill hstatus hl hleg
      · by_cases heq : n = k
        · -- the fill row is there: its key is in use, or it was never needed
          rw [heq, hrow] at hw'
          obtain ⟨hjobs, horders, hagain⟩ := lastLeg_behind hleg
          have hl' : Live self w'.db symbol data job order report := by
            refine { hl with job_row := ?_, order_row := ?_ }
            · rw [hw', hjobs]
              exact hl.job_row
            · rw [hw', horders]
              exact hl.order_row
          rw [← hw'] at hagain ⊢
          exact self.after_full_fill hstatus hl' hagain
        · -- the order row is written: its level is reached
          obtain ⟨m, rfl⟩ : ∃ m, n = k + 1 + m := ⟨n - (k + 1), by omega⟩
          have hstands := hlate m
          rw [← hw'] at hstands
          refine self.after_full_again hstatus hl hstands le_rfl ?_ rfl
          by_cases hf : 1 ≤ m ∧ can_transition job.status .filled = true
          · rw [if_pos hf]
            exact Or.inl ⟨rfl, hf.2⟩
          · rw [if_neg hf]
            exact Or.inr rfl
    · refine self.converges_of_idle (fun w' hw' m => ?_) n
      rw [self.stopped_full_of_no_leg hstatus (self.live_of_same hl hw')
        (fun db h => hleg (lastLeg_of_same hw' h)) m]
      exact .refl _
  · refine self.converges_of_idle (fun w' hw' m => ?_) n
    refine self.stopped_of_not_live ?_ (Or.inr hstatus) m
    rintro ⟨job, order, report, hl⟩
    exact hlive ⟨job, order, report, self.live_of_same hl hw'.symm⟩

/-- A fill event is handled again after its handler stopped behind its first `n` calls. It
ends as one handling does: always for a full fill, and for a partial one that adds a leg
exactly when the stop came before the fill row or behind the last write. -/
theorem redelivery_converges_iff (w : World) (symbol : String) (data : UserOrder)
    (hstatus : data.order_status = "PARTIALLY_FILLED" ∨ data.order_status = "FILLED") (n : Nat) :
    self.Converges w symbol data n ↔
      (data.order_status = "PARTIALLY_FILLED" → ∀ job order report,
        NewLeg self w.db symbol data job order report → n ≤ 3 ∨ last_write job report ≤ n) := by
  rcases hstatus with hst | hst
  · by_cases hnew : ∃ job order report, NewLeg self w.db symbol data job order report
    · obtain ⟨job, order, report, hl⟩ := hnew
      rw [self.converges_new_leg_iff hst hl]
      constructor
      · intro h _ job' order' report' hl'
        have hjob : job' = job := Option.some.inj (hl'.job_row.symm.trans hl.job_row)
        have hreport : report' = report := Except.ok.inj (hl'.readable.symm.trans hl.readable)
        rw [hjob, hreport]
        exact h
      · intro h
        exact h hst job order report hl
    · refine iff_of_true (self.converges_of_idle (fun w' hw' m => ?_) n)
        fun _ job order report hl => absurd ⟨job, order, report, hl⟩ hnew
      refine self.stopped_partial_idle symbol hst (fun job order report hl => hnew ?_) m
      exact ⟨job, order, report, self.newLeg_of_same hl hw'.symm⟩
  · refine iff_of_true (self.converges_full hst n) fun h => ?_
    rw [hst] at h
    exact absurd h (by decide)

end Handler

/-! ## A stop behind the fill row -/

/-- A fill event of the order of 10. -/
def demo_report (order_status filled_qty : String) : UserOrder where
  client_order_id := "tp2-7"
  exchange_order_id := "x"
  order_status
  filled_qty
  orig_qty := "10"
  avg_price := "100"
  trade_time_ms := 5

/-- A partial fill of 4 stops behind its fill row. It comes again and finds its key in use:
the order row stays at 0, and the job stays acknowledged. -/
theorem stop_behind_the_fill_row :
    ¬ Converges {} demo_open "BTCUSDT" (demo_report "PARTIALLY_FILLED" "4") 4 := by
  intro h
  have hagain := h _ rfl
  revert hagain
  decide +kernel

/-- The full fill of the same order, stopped at the same place. -/
theorem full_fill_stops_behind_the_fill_row :
    Converges {} demo_open "BTCUSDT" (demo_report "FILLED" "10") 4 :=
  (redelivery_converges_iff {} demo_open "BTCUSDT" _ (Or.inr rfl) 4).mpr fun h =>
    absurd h (by decide)

end NormalizedEventConsumer

end trading_platform.execution
