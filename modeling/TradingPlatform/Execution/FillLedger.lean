-- The fills of one order under reconciliation. A partial fill advances the
-- ledger of the order, and a full fill closes it. A full fill sets the level
-- even when the key of its leg is in use, and then the legs fall short.
import TradingPlatform.Lib.Ledger
import TradingPlatform.Execution.EventConsumer
import TradingPlatform.Execution.IntentOnce

open resumption ledger
open trading_platform.shared

namespace trading_platform.execution

/-! ## The rows of an order as a ledger -/

/-- The rows of the job and of the order of a client order id. -/
structure Rows (db : Db) (client_order_id : String) (job : ExecutionJob) (order : Order) :
    Prop where
  job_row : db.jobs.find? (·.deterministic_client_order_id = client_order_id) = some job
  order_row : db.orders.find? (·.client_order_id = client_order_id) = some order
  account_row : db.accounts.any (·.id = job.account_id) = true

/-- The trade ids of the account, the sum of the order's fill rows, and the
filled quantity of its row. -/
def ledgerOf (db : Db) (job : ExecutionJob) (order : Order) : Ledger String ℚ where
  keys := db.trade_ids job.account_id
  total := db.filled order.id
  level := order.filled_qty

/-- The ledger of an order whose job has one of the statuses. -/
def Recorded (db : Db) (client_order_id : String) (statuses : List JobStatus)
    (l : Ledger String ℚ) : Prop :=
  ∃ job order, Rows db client_order_id job order ∧ job.status ∈ statuses ∧
    ledgerOf db job order = l

section Rows

variable {db db' : Db} {client_order_id : String} {job : ExecutionJob} {order : Order} {now : Nat}

/-- A new fill row is one more leg. -/
theorem rows_insert_fill {report : FillReport} {leg : ℚ} (h : Rows db client_order_id job order)
    (htxn : insert_fill (report.fill job order leg) db = .ok ((), db')) :
    Rows db' client_order_id job order ∧
      ledgerOf db' job order =
        ⟨db.trade_ids job.account_id ++ [report.exchange_trade_id], db.filled order.id + leg,
          order.filled_qty⟩ := by
  unfold insert_fill at htxn
  split at htxn
  · cases htxn
  · obtain ⟨hdb, hfilled, hids⟩ := add_fill_adds htxn
    have hrows : Rows db' client_order_id job order := by
      rw [hdb]
      exact ⟨h.job_row, h.order_row, h.account_row⟩
    refine ⟨hrows, ?_⟩
    unfold ledgerOf
    rw [Ledger.mk.injEq]
    exact ⟨hids, hfilled, rfl⟩

/-- The row of the order after a fill: its level is the cumulative quantity. -/
theorem rows_update_order {z price : ℚ} {status : Option String}
    (h : Rows db client_order_id job order)
    (htxn : update_order_filled_qty now order.id z price status db = .ok ((), db')) :
    Rows db' client_order_id job (order.filled_to now z price status) ∧
      ledgerOf db' job (order.filled_to now z price status) =
        { ledgerOf db job order with level := z } := by
  cases htxn
  refine ⟨⟨h.job_row, ?_, h.account_row⟩, rfl⟩
  rw [find?_map_of_keeps (fun o => by split <;> rfl), h.order_row]
  simp

/-- A status write of a job that is there leaves the ledger as it was. -/
theorem rows_update_job {s : JobStatus} {event_data result_json : Option Json}
    {error : Option String} {j : Uuid} (h : Rows db client_order_id job order) (hj : job.id = j)
    (htxn : update_job_status now j s event_data result_json error db = .ok ((), db')) :
    Rows db' client_order_id (job.written s result_json error) order ∧
      ledgerOf db' (job.written s result_json error) order = ledgerOf db job order := by
  subst hj
  have hany : db.jobs.any (·.id = job.id) = true := by
    rw [List.any_eq_true]
    exact ⟨job, List.mem_of_find?_eq_some h.job_row, by simp⟩
  unfold update_job_status at htxn
  rw [if_pos hany] at htxn
  cases htxn
  refine ⟨⟨?_, h.order_row, h.account_row⟩, rfl⟩
  rw [find?_map_of_keeps (fun j => by split <;> rfl), h.job_row]
  simp

theorem update_job_status_passes {j : Uuid} {s : JobStatus} {event_data result_json : Option Json}
    {error : Option String} {e : PyErr} :
    update_job_status now j s event_data result_json error db ≠ .error e := by
  unfold update_job_status
  split <;> simp

end Rows

/-! ## Programs that report, alone -/

/-- Publishing changes Redis only. -/
theorem alone_publish {w : World} {event_type job_id : String} {data : List (String × Json)}
    {Q : Except PyErr Unit → World → Prop} (h : ∀ redis, Q (.ok ()) { w with redis }) :
    w.Alone (ExecutionEventPublisher.publish event_type job_id data) Q := h _

namespace NormalizedEventConsumer

variable (self : NormalizedEventConsumer)

theorem alone_ack {w : World} {msg_id : String} {Q : Except PyErr Unit → World → Prop}
    (h : ∀ redis, Q (.ok ()) { w with redis }) : w.Alone (self.ack msg_id) Q := h _

/-! ## What the handlers do to the ledger -/

section Handlers

variable {w : World} {client_order_id : String} {job : ExecutionJob} {order : Order}

/-- The last status. `job` was read before, and `row` is its row now. -/
theorem alone_finalize_fill (hrepo : self.repository = true) {row : ExecutionJob}
    (hrow : Rows w.db client_order_id row order) (hid : row.id = job.id)
    (hcan : can_transition job.status .filled = true) (exchange_order_id : String) (z price : ℚ) :
    w.Alone (self.finalize_fill job exchange_order_id z price) fun r w' =>
      r = .ok () ∧ Recorded w'.db client_order_id [.filled] (ledgerOf w.db row order) := by
  unfold finalize_fill
  rw [if_neg (by simp [hcan])]
  dsimp only
  rw [if_pos hrepo]
  refine World.alone_repo_bind (fun _ db htxn => ?_) fun e htxn =>
    absurd htxn update_job_status_passes
  obtain ⟨hrows, hl⟩ := rows_update_job hrow hid htxn
  exact alone_publish fun redis => ⟨rfl, _, _, hrows, by simp [ExecutionJob.written], hl⟩

/-- The statuses of a job whose order is open at the exchange. -/
def openStatuses : List JobStatus := [.acknowledged, .partially_filled]

theorem alone_mark_partially_filled (hrow : Rows w.db client_order_id job order)
    (hs : job.status ∈ openStatuses) (report : FillReport) (leg : ℚ) :
    w.Alone (mark_partially_filled job report leg) fun r w' =>
      r = .ok () ∧ Recorded w'.db client_order_id openStatuses (ledgerOf w.db job order) := by
  unfold mark_partially_filled
  split
  · rw [World.alone_repo]
    split
    · rename_i htxn
      obtain ⟨hrows, hl⟩ := rows_update_job hrow rfl htxn
      exact ⟨rfl, _, _, hrows, by simp [ExecutionJob.written, openStatuses], hl⟩
    · exact absurd ‹_› update_job_status_passes
  · exact ⟨rfl, _, _, hrow, hs, rfl⟩

/-- What a partial fill records once its leg is known to be new. -/
theorem alone_record_partial_fill (hrow : Rows w.db client_order_id job order)
    (hs : job.status ∈ openStatuses) (report : FillReport)
    (hz : report.cumulative_filled_qty < report.orig_qty) :
    w.Alone (self.record_partial_fill job report order
      (report.cumulative_filled_qty - order.filled_qty)) fun r w' =>
      match r with
      | .ok _ => Recorded w'.db client_order_id openStatuses ((ledgerOf w.db job order).leg
          report.exchange_trade_id report.cumulative_filled_qty)
      | .error _ => w'.db = w.db := by
  unfold record_partial_fill
  refine World.alone_repo_bind (fun _ db htxn => ?_) fun e htxn => rfl
  obtain ⟨hrow1, hl1⟩ := rows_insert_fill hrow htxn
  refine World.alone_repo_bind (fun _ db' htxn' => ?_) fun e htxn' => by cases htxn'
  obtain ⟨hrow2, hl2⟩ := rows_update_order hrow1 htxn'
  rw [World.Alone, alone_bind]
  refine alone_mono (alone_mark_partially_filled hrow2 hs report _) ?_
  rintro _ w' ⟨rfl, hrec⟩
  dsimp only
  rw [alone_bind]
  refine alone_publish fun redis => ?_
  dsimp only
  unfold finalize_if_complete
  rw [if_neg (not_le.mpr hz)]
  rw [hl2, hl1] at hrec
  exact hrec

/-- A partial fill below the whole quantity advances the ledger. -/
theorem alone_handle_partial_fill (hrow : Rows w.db client_order_id job order)
    (hs : job.status ∈ openStatuses) (report : FillReport)
    (hid : report.client_order_id = client_order_id)
    (hz : report.cumulative_filled_qty < report.orig_qty) :
    w.Alone (self.handle_partial_fill job report) fun r w' =>
      match r with
      | .ok _ => Recorded w'.db client_order_id openStatuses ((ledgerOf w.db job order).advance
          report.exchange_trade_id report.cumulative_filled_qty)
      | .error _ => w'.db = w.db := by
  subst hid
  unfold handle_partial_fill
  refine World.alone_repo_bind (fun found db htxn => ?_) fun e htxn => rfl
  cases htxn
  rw [hrow.order_row]
  dsimp only
  by_cases hleg : report.cumulative_filled_qty ≤ order.filled_qty
  · -- this level is recorded
    rw [if_pos (by linarith)]
    have hadv : (ledgerOf w.db job order).advance report.exchange_trade_id
        report.cumulative_filled_qty = ledgerOf w.db job order := if_pos (Or.inl hleg)
    exact ⟨job, order, hrow, hs, hadv.symm⟩
  · rw [if_neg (by linarith)]
    refine World.alone_repo_bind (fun found db htxn => ?_) fun e htxn => rfl
    cases htxn
    cases hfound : w.db.fills.find? (fun f => f.account_id = job.account_id ∧
        f.exchange_trade_id = report.exchange_trade_id) with
    | some fill =>
      -- the key of the leg is in use
      have hin : report.exchange_trade_id ∈ w.db.trade_ids job.account_id := by
        by_contra hno
        rw [find_fill_eq_none.mpr hno] at hfound
        cases hfound
      have hadv : (ledgerOf w.db job order).advance report.exchange_trade_id
          report.cumulative_filled_qty = ledgerOf w.db job order := if_pos (Or.inr hin)
      exact ⟨job, order, hrow, hs, hadv.symm⟩
    | none =>
      have hadv : (ledgerOf w.db job order).advance report.exchange_trade_id
          report.cumulative_filled_qty = (ledgerOf w.db job order).leg report.exchange_trade_id
            report.cumulative_filled_qty :=
        if_neg fun h => h.elim hleg (find_fill_eq_none.mp hfound)
      rw [hadv]
      exact self.alone_record_partial_fill hrow hs report hz

/-- The row of the last leg goes in unless its key is in use. -/
theorem alone_insert_last_leg (hrow : Rows w.db client_order_id job order) (report : FillReport)
    (hz : order.filled_qty < report.cumulative_filled_qty) :
    w.Alone (insert_last_leg job report order
      (report.cumulative_filled_qty - order.filled_qty)) fun r w' =>
      match r with
      | .ok _ => w'.now = w.now ∧ Rows w'.db client_order_id job order ∧
          { ledgerOf w'.db job order with level := report.cumulative_filled_qty } =
            (ledgerOf w.db job order).close report.exchange_trade_id report.cumulative_filled_qty
      | .error _ => w'.db = w.db ∧ report.exchange_trade_id ∉ (ledgerOf w.db job order).keys := by
  unfold insert_last_leg
  rw [if_pos (by linarith)]
  refine World.alone_repo_bind (fun found db htxn => ?_) fun e htxn => by cases htxn
  cases htxn
  cases hfound : w.db.fills.find? (fun f => f.account_id = job.account_id ∧
      f.exchange_trade_id = report.exchange_trade_id) with
  | some fill =>
    have hin : report.exchange_trade_id ∈ w.db.trade_ids job.account_id := by
      by_contra hno
      rw [find_fill_eq_none.mpr hno] at hfound
      cases hfound
    have hclose : (ledgerOf w.db job order).close report.exchange_trade_id
        report.cumulative_filled_qty =
          { ledgerOf w.db job order with level := report.cumulative_filled_qty } :=
      if_neg fun h => h.2 hin
    exact ⟨rfl, hrow, hclose.symm⟩
  | none =>
    have hfree := find_fill_eq_none.mp hfound
    have hclose : (ledgerOf w.db job order).close report.exchange_trade_id
        report.cumulative_filled_qty = (ledgerOf w.db job order).leg report.exchange_trade_id
          report.cumulative_filled_qty := if_pos ⟨hz, hfree⟩
    dsimp only
    rw [World.alone_repo, hclose]
    split
    · rename_i htxn
      obtain ⟨hrow1, hl1⟩ := rows_insert_fill hrow htxn
      exact ⟨rfl, hrow1, by rw [hl1]; rfl⟩
    · exact ⟨rfl, hfree⟩

/-- A full fill closes the ledger. It can raise only when its key is free. -/
theorem alone_handle_full_fill (hrepo : self.repository = true)
    (hrow : Rows w.db client_order_id job order) (hs : job.status ∈ openStatuses)
    (report : FillReport) (hid : report.client_order_id = client_order_id)
    (hz : order.filled_qty < report.cumulative_filled_qty) :
    w.Alone (self.handle_full_fill job report) fun r w' =>
      match r with
      | .ok _ => Recorded w'.db client_order_id [.filled] ((ledgerOf w.db job order).close
          report.exchange_trade_id report.cumulative_filled_qty)
      | .error _ => w'.db = w.db ∧ report.exchange_trade_id ∉ (ledgerOf w.db job order).keys := by
  subst hid
  unfold handle_full_fill
  refine World.alone_repo_bind (fun found db htxn => ?_) fun e htxn => by cases htxn
  cases htxn
  rw [hrow.order_row]
  dsimp only
  rw [World.Alone, alone_bind]
  refine alone_mono (alone_insert_last_leg hrow report hz) fun r w1 h1 => ?_
  cases r with
  | error e => exact h1
  | ok _ =>
    obtain ⟨-, hrow1, hl1⟩ := h1
    refine World.alone_repo_bind (fun _ db htxn => ?_) fun e htxn => by cases htxn
    obtain ⟨hrow2, hl2⟩ := rows_update_order hrow1 htxn
    have hcan : can_transition job.status .filled = true := by
      simp only [openStatuses, List.mem_cons, List.not_mem_nil, or_false] at hs
      rcases hs with h | h <;> rw [h] <;> rfl
    refine alone_mono (self.alone_finalize_fill hrepo hrow2 rfl hcan ..) ?_
    rintro _ w' ⟨rfl, hrec⟩
    rw [hl2, hl1] at hrec
    exact hrec

end Handlers

/-! ## Events of one order -/

/-- An event that fills an order up to `z` of `orig`: FILLED when the whole
quantity is done, PARTIALLY_FILLED before. -/
def IsFill (client_order_id : String) (orig : ℚ) (entry : EventEntry) : Prop :=
  match entry.event with
  | .user_order _ data =>
    data.client_order_id = client_order_id ∧ ∃ z, Decimal.ofText data.filled_qty = .ok z ∧
      Decimal.ofText data.orig_qty = .ok orig ∧ 0 < z ∧
      (data.order_status = "PARTIALLY_FILLED" ∧ z < orig ∨ data.order_status = "FILLED" ∧ z = orig)
  | _ => False

def isFilled (entry : EventEntry) : Bool :=
  match entry.event with
  | .user_order _ data => data.order_status = "FILLED"
  | _ => false

/-- A FILLED event of a job that is not terminal finds the key of its leg free. -/
def Clear (db : Db) (entry : EventEntry) : Prop :=
  match entry.event with
  | .user_order symbol data =>
    data.order_status = "FILLED" →
      match data.report symbol,
        db.jobs.find? (·.deterministic_client_order_id = data.client_order_id) with
      | .ok report, some job =>
        is_terminal job.status = false →
          report.exchange_trade_id ∉ db.trade_ids job.account_id
      | _, _ => True
  | _ => True

instance (db : Db) (entry : EventEntry) : Decidable (Clear db entry) := by
  obtain ⟨_, event⟩ := entry
  unfold Clear
  induction event using EventField.casesOn with
  | user_order symbol data =>
    dsimp only
    generalize data.report symbol = report
    generalize db.jobs.find? (·.deterministic_client_order_id = data.client_order_id) = job
    induction report using Except.casesOn <;> induction job using Option.casesOn <;>
      infer_instance
  | _ => infer_instance

/-- A report that is read has five numbers. -/
theorem report_ok {data : UserOrder} {symbol : String} {report : FillReport}
    (h : data.report symbol = .ok report) :
    report.client_order_id = data.client_order_id ∧
      Decimal.ofText data.filled_qty = .ok report.cumulative_filled_qty ∧
      Decimal.ofText data.orig_qty = .ok report.orig_qty ∧
      Decimal.ofText data.avg_price = .ok report.avg_price ∧
      Decimal.ofText data.commission = .ok report.commission ∧
      Decimal.ofText data.realized_pnl = .ok report.realized_pnl := by
  unfold UserOrder.report at h
  cases h1 : Decimal.ofText data.filled_qty with
  | error e => rw [h1] at h; cases h
  | ok z =>
    rw [h1] at h
    cases h2 : Decimal.ofText data.orig_qty with
    | error e => rw [h2] at h; cases h
    | ok orig =>
      rw [h2] at h
      cases h3 : Decimal.ofText data.avg_price with
      | error e => rw [h3] at h; cases h
      | ok price =>
        rw [h3] at h
        cases h4 : Decimal.ofText data.commission with
        | error e => rw [h4] at h; cases h
        | ok commission =>
          rw [h4] at h
          cases h5 : Decimal.ofText data.realized_pnl with
          | error e => rw [h5] at h; cases h
          | ok pnl =>
            rw [h5] at h
            cases h
            exact ⟨rfl, rfl, rfl, rfl, rfl, rfl⟩

theorem parse_of_ofText {text : String} {q : ℚ} (h : Decimal.ofText text = .ok q) :
    (Decimal.parse text).isSome = true := by
  unfold Decimal.ofText at h
  split at h
  · rename_i hp
    rw [hp]
    rfl
  · cases h

theorem readable_of_report {data : UserOrder} {symbol : String} {report : FillReport}
    (h : data.report symbol = .ok report) : data.readable = .ok () := by
  obtain ⟨-, h1, h2, h3, h4, h5⟩ := report_ok h
  unfold UserOrder.readable
  simp [parse_of_ofText h1, parse_of_ofText h2, parse_of_ofText h3, parse_of_ofText h4,
    parse_of_ofText h5]

section Process

variable {client_order_id : String} {orig : ℚ} {w : World} {entry : EventEntry}

/-- The order is open: its fills add up to its level, which is below `orig`. -/
def IsOpen (client_order_id : String) (orig : ℚ) (db : Db) : Prop :=
  ∃ l, Recorded db client_order_id openStatuses l ∧ l.Balanced ∧ l.level < orig

/-- The order is done: its fills add up to `orig`. -/
def IsClosed (client_order_id : String) (orig : ℚ) (db : Db) : Prop :=
  ∃ l, Recorded db client_order_id [.filled] l ∧ l.Balanced ∧ l.level = orig

/-- The fills of the order row add up to its filled quantity, which is the
whole one once the order is done. -/
def Conserved (client_order_id : String) (orig : ℚ) (done : Bool) (db : Db) : Prop :=
  match db.orders.find? (·.client_order_id = client_order_id) with
  | some order =>
    db.filled order.id = order.filled_qty ∧ (done = true → order.filled_qty = orig)
  | none => False

instance (done : Bool) (db : Db) : Decidable (Conserved client_order_id orig done db) := by
  unfold Conserved
  split <;> infer_instance

theorem conserved_of_recorded {db : Db} {statuses : List JobStatus} {l : Ledger String ℚ}
    {done : Bool} (h : Recorded db client_order_id statuses l) :
    Conserved client_order_id orig done db ↔ l.Balanced ∧ (done = true → l.level = orig) := by
  obtain ⟨job, order, hrow, -, rfl⟩ := h
  unfold Conserved
  rw [hrow.order_row]
  exact Iff.rfl

/-- What one event does to an open order. -/
def Handled (client_order_id : String) (orig : ℚ) (w : World) (entry : EventEntry)
    (r : Except PyErr Unit) (w' : World) : Prop :=
  if isFilled entry = true ∧ r.isOk = true then
    ∃ l, Recorded w'.db client_order_id [.filled] l ∧ l.level = orig ∧
      (l.Balanced ↔ Clear w.db entry)
  else IsOpen client_order_id orig w'.db ∧ Clear w.db entry

section Dispatch

variable {job : ExecutionJob} {order : Order} {symbol : String} {data : UserOrder}

/-- An event that raises changes nothing. -/
theorem handled_raise {e : PyErr} {w' : World} (hopen : IsOpen client_order_id orig w.db)
    (hdb : w'.db = w.db) (hc : Clear w.db entry) :
    Handled client_order_id orig w entry (.error e) w' := by
  unfold Handled
  rw [if_neg (by simp [Except.isOk, Except.toBool]), hdb]
  exact ⟨hopen, hc⟩

theorem alone_partial_open (hrow : Rows w.db data.client_order_id job order)
    (hs : job.status ∈ openStatuses) (hbal : (ledgerOf w.db job order).Balanced)
    (hlevel : order.filled_qty < orig) (hentry : entry.event = .user_order symbol data)
    (hstatus : data.order_status = "PARTIALLY_FILLED") {report : FillReport}
    (hreport : data.report symbol = .ok report) (hz : report.cumulative_filled_qty < orig)
    (horig : report.orig_qty = orig) :
    w.Alone (self.handle_partial_fill job report)
      (Handled data.client_order_id orig w entry) := by
  have hc : Clear w.db entry := by
    unfold Clear
    rw [hentry]
    intro h
    rw [hstatus] at h
    exact absurd h (by decide)
  have hnot : isFilled entry = false := by
    unfold isFilled
    rw [hentry]
    simp [hstatus]
  refine alone_mono (self.alone_handle_partial_fill hrow hs report (report_ok hreport).1
    (horig ▸ hz)) fun r w' h => ?_
  cases r with
  | error e => exact handled_raise ⟨_, ⟨job, order, hrow, hs, rfl⟩, hbal, hlevel⟩ h hc
  | ok _ =>
    unfold Handled
    rw [if_neg (by simp [hnot])]
    refine ⟨⟨_, h, Ledger.balanced_advance hbal _ _, ?_⟩, hc⟩
    unfold Ledger.advance
    split
    · exact hlevel
    · exact hz

theorem alone_full_open (hrepo : self.repository = true)
    (hrow : Rows w.db data.client_order_id job order) (hs : job.status ∈ openStatuses)
    (hbal : (ledgerOf w.db job order).Balanced) (hlevel : order.filled_qty < orig)
    (hentry : entry.event = .user_order symbol data) (hstatus : data.order_status = "FILLED")
    {report : FillReport} (hreport : data.report symbol = .ok report)
    (hz : report.cumulative_filled_qty = orig) :
    w.Alone (self.handle_full_fill job report) (Handled data.client_order_id orig w entry) := by
  have hterm : is_terminal job.status = false := by
    simp only [openStatuses, List.mem_cons, List.not_mem_nil, or_false] at hs
    rcases hs with h | h <;> rw [h] <;> rfl
  have hclear : Clear w.db entry ↔
      report.exchange_trade_id ∉ (ledgerOf w.db job order).keys := by
    unfold Clear
    rw [hentry]
    dsimp only
    rw [hreport, hrow.job_row]
    exact ⟨fun h => h hstatus hterm, fun h _ _ => h⟩
  have hfilled : isFilled entry = true := by
    unfold isFilled
    rw [hentry]
    simp [hstatus]
  refine alone_mono (self.alone_handle_full_fill hrepo hrow hs report (report_ok hreport).1
    (hz ▸ hlevel)) fun r w' h => ?_
  cases r with
  | error e =>
    exact handled_raise ⟨_, ⟨job, order, hrow, hs, rfl⟩, hbal, hlevel⟩ h.1 (hclear.mpr h.2)
  | ok _ =>
    unfold Handled
    rw [if_pos ⟨hfilled, rfl⟩]
    refine ⟨_, h, ?_, ?_⟩
    · unfold Ledger.close
      split <;> exact hz
    · rw [hclear]
      exact Ledger.balanced_close_iff hbal (hz ▸ hlevel)

theorem alone_dispatch_open (hrepo : self.repository = true)
    (hrow : Rows w.db data.client_order_id job order) (hs : job.status ∈ openStatuses)
    (hbal : (ledgerOf w.db job order).Balanced) (hlevel : order.filled_qty < orig)
    (hentry : entry.event = .user_order symbol data)
    (hfill : IsFill data.client_order_id orig entry) :
    w.Alone (self.dispatch job symbol data) (Handled data.client_order_id orig w entry) := by
  have hopen : IsOpen data.client_order_id orig w.db :=
    ⟨_, ⟨job, order, hrow, hs, rfl⟩, hbal, hlevel⟩
  unfold IsFill at hfill
  rw [hentry] at hfill
  obtain ⟨-, z, hz, horig, -, hstatus⟩ := hfill
  unfold dispatch
  cases hreport : data.report symbol with
  | error e =>
    -- an amount that is no number
    have hc : Clear w.db entry := by
      unfold Clear
      rw [hentry]
      dsimp only
      rw [hreport]
      exact fun _ => trivial
    cases data.readable with
    | error e => exact handled_raise hopen rfl hc
    | ok _ =>
      rcases hstatus with ⟨hst, -⟩ | ⟨hst, -⟩
      · simp only [Prog.ofExcept, Prog.done_bind, Prog.raise_bind, hst]
        exact handled_raise hopen rfl hc
      · simp only [Prog.ofExcept, Prog.done_bind, Prog.raise_bind, hst]
        exact handled_raise hopen rfl hc
  | ok report =>
    obtain ⟨-, hz', horig', -⟩ := report_ok hreport
    rw [hz, Except.ok.injEq] at hz'
    rw [horig, Except.ok.injEq] at horig'
    rw [readable_of_report hreport]
    rcases hstatus with ⟨hst, hlt⟩ | ⟨hst, heq⟩
    · simp only [Prog.ofExcept, Prog.done_bind, hst]
      exact self.alone_partial_open hrow hs hbal hlevel hentry hst hreport (hz' ▸ hlt) horig'.symm
    · simp only [Prog.ofExcept, Prog.done_bind, hst]
      exact self.alone_full_open hrepo hrow hs hbal hlevel hentry hst hreport (hz' ▸ heq)

end Dispatch

/-- `_process` of an event of one of our jobs: a terminal job is left alone,
and another one is dispatched. -/
theorem alone_process_of_job {job : ExecutionJob} {symbol : String} {data : UserOrder}
    {Q : Except PyErr Unit → World → Prop} (hentry : entry.event = .user_order symbol data)
    (hrepo : self.repository = true) (hours : is_ours data.client_order_id = true)
    (hjob : w.db.jobs.find? (·.deterministic_client_order_id = data.client_order_id) = some job)
    (hterm : is_terminal job.status = true → ∀ redis, Q (.ok ()) { w with redis })
    (hlive : is_terminal job.status = false →
      w.Alone (self.dispatch job symbol data) fun r w' =>
        match r with
        | .ok _ => ∀ redis, Q (.ok ()) { w' with redis }
        | .error e => Q (.error e) w') : w.Alone (self.process entry) Q := by
  unfold process
  rw [hentry, World.Alone, alone_bind]
  show w.Alone (self.handle_user_order symbol data) _
  unfold handle_user_order
  rw [if_neg (by simp [hours]), if_neg (by simp [hrepo])]
  refine World.alone_repo_bind (fun found db htxn => ?_) fun e htxn => by cases htxn
  cases htxn
  rw [hjob]
  dsimp only
  cases ht : is_terminal job.status with
  | true =>
    rw [if_pos rfl]
    exact alone_publish fun redis => self.alone_ack fun redis => hterm ht redis
  | false =>
    rw [if_neg (by simp)]
    refine alone_mono (hlive ht) fun r w' h => ?_
    cases r with
    | error e => exact h
    | ok _ => exact self.alone_ack h

/-- A fill is an event of its order. -/
theorem event_of_fill (hfill : IsFill client_order_id orig entry) :
    ∃ symbol data, entry.event = .user_order symbol data ∧
      data.client_order_id = client_order_id := by
  unfold IsFill at hfill
  split at hfill
  · rename_i symbol data hentry
    exact ⟨symbol, data, hentry, hfill.1⟩
  · exact absurd hfill id

/-- `_process` of a fill of an open order. -/
theorem alone_process_open (hrepo : self.repository = true) (hours : is_ours client_order_id = true)
    (hopen : IsOpen client_order_id orig w.db) (hfill : IsFill client_order_id orig entry) :
    w.Alone (self.process entry) (Handled client_order_id orig w entry) := by
  obtain ⟨_, ⟨job, order, hrow, hs, rfl⟩, hbal, hlevel⟩ := hopen
  obtain ⟨symbol, data, hentry, rfl⟩ := event_of_fill hfill
  refine self.alone_process_of_job hentry hrepo hours hrow.job_row (fun ht => ?_) fun _ => ?_
  · simp only [openStatuses, List.mem_cons, List.not_mem_nil, or_false] at hs
    rcases hs with h | h <;> rw [h] at ht <;> cases ht
  · refine alone_mono (self.alone_dispatch_open hrepo hrow hs hbal hlevel hentry hfill)
      fun r w' h => ?_
    cases r with
    | error e => exact h
    | ok _ => exact fun redis => h

/-- A done order stays as it is: its job is terminal. -/
theorem alone_process_closed (hrepo : self.repository = true)
    (hours : is_ours client_order_id = true) (hclosed : IsClosed client_order_id orig w.db)
    (hfill : IsFill client_order_id orig entry) :
    Clear w.db entry ∧
      w.Alone (self.process entry) fun _ w' => IsClosed client_order_id orig w'.db := by
  have hclosed' := hclosed
  obtain ⟨_, ⟨job, order, hrow, hs, rfl⟩, -, -⟩ := hclosed'
  obtain ⟨symbol, data, hentry, rfl⟩ := event_of_fill hfill
  have hterm : is_terminal job.status = true := by
    rw [show job.status = .filled by simpa using hs]
    rfl
  refine ⟨?_, self.alone_process_of_job hentry hrepo hours hrow.job_row
    (fun _ redis => hclosed) fun h => ?_⟩
  · unfold Clear
    rw [hentry]
    dsimp only
    rw [hrow.job_row]
    intro _
    cases data.report symbol with
    | error e => trivial
    | ok report =>
      intro h
      rw [hterm] at h
      cases h
  · rw [hterm] at h
    cases h

end Process

/-! ## Every sequence of events -/

variable (client_order_id : String) (orig : ℚ)

/-- The fills are conserved after every event. `done` says whether a FILLED
event has been processed. -/
def ConservedAfterEach : Bool → World → List EventEntry → Prop
  | _, _, [] => True
  | done, w, entry :: entries =>
    let r := w.run (self.process entry) []
    let done := done || (isFilled entry && r.1.isOk)
    Conserved client_order_id orig done r.2.1.db ∧ ConservedAfterEach done r.2.1 entries

/-- Every event is clear when it is processed. -/
def AllClear : World → List EventEntry → Prop
  | _, [] => True
  | w, entry :: entries =>
    Clear w.db entry ∧ AllClear (w.after (self.process entry)) entries

instance decidableConservedAfterEach : ∀ (done : Bool) (w : World) (entries : List EventEntry),
    Decidable (self.ConservedAfterEach client_order_id orig done w entries)
  | _, _, [] => isTrue trivial
  | done, w, entry :: entries =>
    haveI := decidableConservedAfterEach
      (done || (isFilled entry && (w.run (self.process entry) []).1.isOk))
      (w.run (self.process entry) []).2.1 entries
    inferInstanceAs (Decidable (_ ∧ _))

instance decidableAllClear : ∀ (w : World) (entries : List EventEntry),
    Decidable (self.AllClear w entries)
  | _, [] => isTrue trivial
  | w, entry :: entries =>
    haveI := decidableAllClear (w.after (self.process entry)) entries
    inferInstanceAs (Decidable (_ ∧ _))

variable {client_order_id orig}

theorem conserved_after_closed (hrepo : self.repository = true)
    (hours : is_ours client_order_id = true) {w : World} {entries : List EventEntry}
    (hclosed : IsClosed client_order_id orig w.db)
    (hfills : ∀ entry ∈ entries, IsFill client_order_id orig entry) :
    self.ConservedAfterEach client_order_id orig true w entries ∧ self.AllClear w entries := by
  induction entries generalizing w with
  | nil => exact ⟨trivial, trivial⟩
  | cons entry entries ih =>
    obtain ⟨hc, hclosed'⟩ := self.alone_process_closed hrepo hours hclosed (hfills entry (by simp))
    obtain ⟨h1, h2⟩ := ih (w := w.after (self.process entry)) hclosed'
      fun e he => hfills e (by simp [he])
    obtain ⟨l, hrec, hbal, hlevel⟩ := hclosed'
    exact ⟨⟨(conserved_of_recorded hrec).mpr ⟨hbal, fun _ => hlevel⟩, h1⟩, hc, h2⟩

theorem conserved_after_open_iff (hrepo : self.repository = true)
    (hours : is_ours client_order_id = true) {w : World} {entries : List EventEntry}
    (hopen : IsOpen client_order_id orig w.db)
    (hfills : ∀ entry ∈ entries, IsFill client_order_id orig entry) :
    self.ConservedAfterEach client_order_id orig false w entries ↔ self.AllClear w entries := by
  induction entries generalizing w with
  | nil => exact Iff.rfl
  | cons entry entries ih =>
    have hrest : ∀ e ∈ entries, IsFill client_order_id orig e := fun e he =>
      hfills e (by simp [he])
    have hstep := self.alone_process_open hrepo hours hopen (hfills entry (by simp))
    unfold World.Alone Alone Handled at hstep
    by_cases hdone : isFilled entry = true ∧
        (resumption.run World.exec .idle (self.process entry) w []).1.isOk = true
    · -- a FILLED event: the order is done, with or without the last leg
      rw [if_pos hdone] at hstep
      obtain ⟨l, hrec, hlevel, hbal⟩ := hstep
      have hflag : (false || (isFilled entry &&
          (w.run (self.process entry) []).1.isOk)) = true := by
        unfold World.run
        rw [hdone.1, hdone.2]
        rfl
      have hcons : Conserved client_order_id orig true
          (w.run (self.process entry) []).2.1.db ↔ l.Balanced ∧ (true = true → l.level = orig) :=
        conserved_of_recorded hrec
      unfold ConservedAfterEach AllClear
      dsimp only
      rw [hflag, hcons, ← hbal]
      constructor
      · rintro ⟨⟨hb, -⟩, -⟩
        exact ⟨hb, (self.conserved_after_closed hrepo hours ⟨l, hrec, hb, hlevel⟩ hrest).2⟩
      · rintro ⟨hb, -⟩
        exact ⟨⟨hb, fun _ => hlevel⟩,
          (self.conserved_after_closed hrepo hours ⟨l, hrec, hb, hlevel⟩ hrest).1⟩
    · rw [if_neg hdone] at hstep
      obtain ⟨hopen', hc⟩ := hstep
      have hflag : (false || (isFilled entry &&
          (w.run (self.process entry) []).1.isOk)) = false := by
        unfold World.run
        simpa using hdone
      unfold ConservedAfterEach AllClear
      dsimp only
      rw [hflag]
      have ih' := ih (w := w.after (self.process entry)) hopen' hrest
      obtain ⟨l, hrec, hbal, hlevel⟩ := hopen'
      have hcons : Conserved client_order_id orig false
          (w.run (self.process entry) []).2.1.db :=
        (conserved_of_recorded hrec).mpr ⟨hbal, fun h => by cases h⟩
      exact ⟨fun h => ⟨hc, ih'.mp h.2⟩, fun h => ⟨hcons, ih'.mpr h.2⟩⟩

/-- An order whose job is acknowledged and that has no fills yet. -/
structure Unfilled (client_order_id : String) (w : World) : Prop where
  ours : is_ours client_order_id = true
  rows : ∃ job order, Rows w.db client_order_id job order ∧ job.status = .acknowledged ∧
    order.filled_qty = 0 ∧ ∀ fill ∈ w.db.fills, fill.order_id ≠ order.id

/-- For every sequence of fill events of one order, with duplicates and in any
order: the fill rows add up to the filled quantity after every event, and to
the whole one once a FILLED event is processed, exactly when each FILLED event
of an unfinished job finds the key of its leg free. -/
theorem fills_are_conserved_iff (hrepo : self.repository = true) (w : World)
    (hw : Unfilled client_order_id w) (entries : List EventEntry)
    (hfills : ∀ entry ∈ entries, IsFill client_order_id orig entry) :
    self.ConservedAfterEach client_order_id orig false w entries ↔ self.AllClear w entries := by
  cases entries with
  | nil => exact Iff.rfl
  | cons entry rest =>
    have hpos : 0 < orig := by
      have h := hfills entry (by simp)
      unfold IsFill at h
      split at h
      · obtain ⟨-, z, -, -, hz, ⟨-, hlt⟩ | ⟨-, heq⟩⟩ := h
        · exact hz.trans hlt
        · exact heq ▸ hz
      · exact absurd h id
    obtain ⟨hours, job, order, hrow, hs, hzero, hno⟩ := hw
    refine self.conserved_after_open_iff hrepo hours ⟨_, ⟨job, order, hrow, ?_, rfl⟩, ?_, ?_⟩ hfills
    · rw [hs]
      decide
    · have hnil : w.db.fills.filter (fun f => decide (f.order_id = order.id)) = [] := by
        rw [List.filter_eq_nil_iff]
        exact fun f hf => by simpa using hno f hf
      unfold Ledger.Balanced ledgerOf Db.filled
      rw [hnil, hzero]
      rfl
    · show order.filled_qty < orig
      rw [hzero]
      exact hpos

/-! ## Two legs of one millisecond -/

/-- The job of an order of 10 that the exchange acknowledged. -/
def demo_job : ExecutionJob where
  id := "j1"
  account_id := "00000000-0000-0000-0000-000000000001"
  trade_intent_id := "7"
  strategy_id := none
  trading_mode := "live"
  status := .acknowledged
  deterministic_client_order_id := "tp2-7"
  symbol := "BTCUSDT"
  market_type := "futures"
  side := "BUY"
  intent_json := demo_intent

def demo_order : Order where
  id := 0
  account_id := "00000000-0000-0000-0000-000000000001"
  exchange_order_id := some "x"
  client_order_id := "tp2-7"
  symbol := "BTCUSDT"
  market_type := "futures"
  side := "BUY"
  order_type := "LIMIT"
  status := "NEW"
  quantity := 10
  filled_qty := 0
  created_at_ms := 1000
  updated_at_ms := 1000

def demo_open : World :=
  { demo_world with db := { demo_world.db with jobs := [demo_job], orders := [demo_order] } }

/-- A fill of the order of 10. -/
def demo_fill (order_status filled_qty : String) (trade_time_ms : Nat) : EventEntry where
  msg_id := "9-0"
  event := .user_order "BTCUSDT" {
    client_order_id := "tp2-7"
    exchange_order_id := "x"
    order_status
    filled_qty
    orig_qty := "10"
    avg_price := "100"
    trade_time_ms }

/-- A partial fill and the last one in the same millisecond have one key. The
last leg is left out, and the order row says 10 over a fill row of 4. -/
theorem two_legs_of_one_millisecond :
    ¬ ConservedAfterEach {} "tp2-7" 10 false demo_open
      [demo_fill "PARTIALLY_FILLED" "4" 5, demo_fill "FILLED" "10" 5] := by
  decide +kernel

theorem unfilled_demo_open : Unfilled "tp2-7" demo_open :=
  ⟨by decide, demo_job, demo_order, ⟨by rfl, by rfl, by rfl⟩, rfl, rfl, by simp [demo_open, demo_world, Db.empty]⟩

theorem isFill_demo_fill {status filled : String} {z : ℚ} (t : Nat)
    (hz : Decimal.ofText filled = .ok z) (hpos : 0 < z)
    (hs : status = "PARTIALLY_FILLED" ∧ z < 10 ∨ status = "FILLED" ∧ z = 10) :
    IsFill "tp2-7" 10 (demo_fill status filled t) := by
  have h10 : Decimal.ofText "10" = .ok 10 := by decide +kernel
  exact ⟨rfl, z, hz, h10, hpos, hs⟩

/-- The same legs a millisecond apart. -/
theorem two_legs_a_millisecond_apart :
    ConservedAfterEach {} "tp2-7" 10 false demo_open
      [demo_fill "PARTIALLY_FILLED" "4" 5, demo_fill "FILLED" "10" 6] :=
  (fills_are_conserved_iff {} rfl demo_open unfilled_demo_open _ (List.forall_mem_cons.mpr
    ⟨isFill_demo_fill 5 (by decide +kernel : Decimal.ofText "4" = .ok 4) (by norm_num)
      (Or.inl ⟨rfl, by norm_num⟩),
    List.forall_mem_cons.mpr
    ⟨isFill_demo_fill 6 (by decide +kernel : Decimal.ofText "10" = .ok 10) (by norm_num)
      (Or.inr ⟨rfl, rfl⟩), List.forall_mem_nil _⟩⟩)).mpr (by decide +kernel)

end NormalizedEventConsumer

end trading_platform.execution
