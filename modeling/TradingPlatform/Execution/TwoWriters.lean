-- Two writers of one ledger. The account stream writer stores every trade of
-- an order under the trade id of the exchange, and the reconciler stores the
-- legs that it sees under keys of its own. They count the same trades, so each
-- trade is counted once while the reconciler finds nothing to add.
import TradingPlatform.Execution.FillLedger

open resumption
open trading_platform.shared

namespace trading_platform.execution

/-! ## The account stream writer -/

namespace AccountStateWriter

/-- One session: it selects the order row, and then writes and commits. -/
def upsert_order_from_futures_report (account_id : Uuid) (report : FuturesReport) : Py Unit := do
  if report.client_order_id = "" ∨ report.symbol = "" then return ()
  else
    let order ← repo (.get_order_by_client_order_id report.client_order_id)
    repo (.upsert_futures_report account_id order report)

/-- The reports of an order, one after another. -/
def handle_reports (account_id : Uuid) : List FuturesReport → Py Unit
  | [] => return ()
  | report :: reports => do
    upsert_order_from_futures_report account_id report
    handle_reports account_id reports

end AccountStateWriter

/-! ## The trades of an order -/

/-- The cumulative quantity of a report. -/
def FuturesReport.level (report : FuturesReport) : ℚ :=
  ((Decimal.ofText report.filled_qty).toOption).getD 0

/-- The quantity of the trade of a report. -/
def FuturesReport.last_qty (report : FuturesReport) : ℚ :=
  ((Decimal.ofText report.fill_qty).toOption).getD 0

/-- A report of a trade of the order. -/
structure FuturesReport.IsTradeOf (report : FuturesReport) (client_order_id : String) : Prop where
  own : report.client_order_id = client_order_id
  symbol : report.symbol ≠ ""
  trade : report.is_trade = true
  positive : 0 < report.last_qty

/-- The reports of the trades that follow one another from level `z`. -/
def Cumulative : ℚ → List FuturesReport → Prop
  | _, [] => True
  | z, report :: reports =>
    report.level = z + report.last_qty ∧ Cumulative report.level reports

/-- The level after some reports. -/
def lastLevel (reports : List FuturesReport) : ℚ :=
  (reports.getLast?.map (·.level)).getD 0

theorem lastLevel_snoc (reports : List FuturesReport) (report : FuturesReport) :
    lastLevel (reports ++ [report]) = report.level := by
  simp [lastLevel]

theorem level_of_cumulative {z : ℚ} {pre reports : List FuturesReport}
    (h : Cumulative z reports) (hpre : pre <+: reports) :
    (pre.getLast?.map (·.level)).getD z = z + (pre.map (·.last_qty)).sum := by
  induction pre generalizing z reports with
  | nil => simp
  | cons report pre ih =>
    obtain ⟨post, rfl⟩ := hpre
    obtain ⟨hlevel, hrest⟩ := h
    have ih' := ih hrest ⟨post, rfl⟩
    cases pre with
    | nil => simp [hlevel]
    | cons r rs =>
      have hlast : ((report :: r :: rs).getLast?.map (·.level)).getD z =
          ((r :: rs).getLast?.map (·.level)).getD report.level := by
        simp [List.getLast?_eq_getLast_of_ne_nil]
      rw [hlast, ih', hlevel]
      simp only [List.map_cons, List.sum_cons]
      ring

/-- In exchange order, the level after some trades is their sum. -/
theorem lastLevel_eq_sum {pre reports : List FuturesReport} (h : Cumulative 0 reports)
    (hpre : pre <+: reports) : lastLevel pre = (pre.map (·.last_qty)).sum := by
  have hl := level_of_cumulative h hpre
  rw [zero_add] at hl
  exact hl

theorem lastLevel_mono {pre pre' reports : List FuturesReport} (h : Cumulative 0 reports)
    (hpos : ∀ r ∈ reports, 0 < r.last_qty) (hpre : pre <+: pre') (hpre' : pre' <+: reports) :
    lastLevel pre ≤ lastLevel pre' := by
  rw [lastLevel_eq_sum h (hpre.trans hpre'), lastLevel_eq_sum h hpre']
  obtain ⟨mid, rfl⟩ := hpre
  have hmid : 0 ≤ (mid.map (·.last_qty)).sum := by
    apply List.sum_nonneg
    intro x hx
    obtain ⟨r, hr, rfl⟩ := List.mem_map.mp hx
    exact (hpos r (hpre'.subset (List.mem_append_right _ hr))).le
  simp only [List.map_append, List.sum_append]
  linarith

/-! ## The stages of a handler -/

inductive Stage where
  /-- The reconciler has an event up to `z`, and has not read the order row. -/
  | reading (z : ℚ)
  /-- It read a row that has reached `z`. -/
  | covered (z : ℚ) (order_id : Nat)
  /-- It read a row below `z`. -/
  | adding
  /-- The writer has these reports to handle. -/
  | reporting (left : List FuturesReport)
  /-- It selected a row for the first of them. -/
  | selected (found : Option Order) (report : FuturesReport) (left : List FuturesReport)
  | failed

/-- The stage after an order row was read. -/
def Stage.read (found : Option Order) : Stage → Stage
  | .reading z =>
    match found with
    | some order => if z ≤ order.filled_qty then .covered z order.id else .adding
    | none => .reading z
  | .reporting (report :: left) => .selected found report left
  | g => g

/-- The stage after the writer wrote a report, or failed to. -/
def Stage.wrote (passed : Bool) : Stage → Stage
  | .selected _ _ left => if passed then .reporting left else .failed
  | g => g

/-- What the two writers call in each stage. `orig` is the quantity of the
order: only an event up to `orig` sets the row without a leg. -/
def stages (client_order_id : String) (account_id : Uuid) (orig : ℚ) :
    Protocol PyErr Cmd Ans Stage where
  allows g c := match c with
    | .repo (.get_order_by_client_order_id x) => x = client_order_id
    | .repo (.insert_fill _) => g = .adding
    | .repo (.update_order_filled_qty order_id z ..) =>
      g = .adding ∨ (g = .covered z order_id ∧ z = orig)
    | .repo (.upsert_futures_report a found report) =>
      a = account_id ∧ ∃ left, g = .selected found report left
    | .repo (.create_order ..) => False
    | .repo (.save_fill ..) => False
    | _ => True
  next g c r := match c, r with
    | .repo (.get_order_by_client_order_id _), .ok found => g.read found
    | .repo (.upsert_futures_report ..), r => g.wrote r.isOk
    | _, _ => g

/-- Commands that touch neither orders nor fills, and do not read an order. -/
def Cmd.beside : Cmd → Prop
  | .repo (.get_order_by_client_order_id _) => False
  | .repo (.insert_fill _) => False
  | .repo (.update_order_filled_qty ..) => False
  | .repo (.upsert_futures_report ..) => False
  | .repo (.create_order ..) => False
  | .repo (.save_fill ..) => False
  | _ => True

/-- What the reconciler calls once it read an order row. -/
def Cmd.records : Cmd → Prop
  | .repo (.insert_fill _) => True
  | .repo (.update_order_filled_qty ..) => True
  | c => c.beside

theorem beside_of_reports {c : Cmd} (h : c.reports) : c.beside := by
  cases c with
  | repo c => cases c <;> trivial
  | _ => trivial

theorem records_of_beside {c : Cmd} (h : c.beside) : c.records := by
  unfold Cmd.records
  split
  · trivial
  · trivial
  · exact h

section Stages

variable {client_order_id : String} {account_id : Uuid} {orig : ℚ}

theorem stages_beside (g : Stage) (c : Cmd) (h : c.beside) :
    (stages client_order_id account_id orig).allows g c ∧
      ∀ r, (stages client_order_id account_id orig).next g c r = g := by
  cases c with
  | repo c =>
    cases c <;> first
      | exact absurd h id
      | exact ⟨trivial, fun _ => rfl⟩
  | redis _ | submit _ _ | post_order _ | time_ms => exact ⟨trivial, fun _ => rfl⟩

theorem stages_adding (c : Cmd) (h : c.records) :
    (stages client_order_id account_id orig).allows .adding c ∧
      ∀ r, (stages client_order_id account_id orig).next .adding c r = .adding := by
  cases c with
  | repo c =>
    cases c with
    | insert_fill _ => exact ⟨rfl, fun _ => rfl⟩
    | update_order_filled_qty _ _ _ _ => exact ⟨Or.inl rfl, fun _ => rfl⟩
    | _ => first | exact absurd h id | exact ⟨trivial, fun _ => rfl⟩
  | _ => exact ⟨trivial, fun _ => rfl⟩

/-! ## The writer keeps to the stages -/

theorem writer_keeps_to_stages (reports : List FuturesReport)
    (htrades : ∀ r ∈ reports, r.IsTradeOf client_order_id) (hne : client_order_id ≠ "") :
    Obeys (stages client_order_id account_id orig) (.reporting reports)
      (AccountStateWriter.handle_reports account_id reports)
      fun r g => r = .ok () → g = .reporting [] := by
  induction reports with
  | nil => exact fun _ => rfl
  | cons report reports ih =>
    have htrade := htrades report (by simp)
    have hrest := ih fun r hr => htrades r (by simp [hr])
    unfold AccountStateWriter.handle_reports AccountStateWriter.upsert_order_from_futures_report
    rw [if_neg (by rw [htrade.own]; simp [hne, htrade.symbol]), obeys_bind, obeys_bind]
    refine obeys_perform.mpr ⟨htrade.own, ?_⟩
    rintro (e | found)
    · intro h
      cases h
    · refine obeys_perform.mpr ⟨⟨rfl, reports, rfl⟩, ?_⟩
      rintro (e | _)
      · intro h
        cases h
      · exact hrest

/-! ## The reconciler keeps to the stages -/

theorem stages_skip {g : Stage} {α β : Type} {p : Py α} {rest : α → Py β}
    (hp : p.Calls Cmd.beside)
    (hrest : ∀ a, Obeys (stages client_order_id account_id orig) g (rest a) fun _ _ => True) :
    Obeys (stages client_order_id account_id orig) g (p >>= rest) fun _ _ => True :=
  obeys_bind_of_calls hp (stages_beside g) hrest fun _ => trivial

theorem stages_end {g : Stage} {α : Type} {p : Py α} (hp : p.Calls Cmd.beside) :
    Obeys (stages client_order_id account_id orig) g p fun _ _ => True :=
  obeys_of_calls hp (stages_beside g) fun _ => trivial

theorem stages_adding_end {α : Type} {p : Py α} (hp : p.Calls Cmd.records) :
    Obeys (stages client_order_id account_id orig) .adding p fun _ _ => True :=
  obeys_of_calls hp stages_adding fun _ => trivial

theorem publish_beside (event_type job_id : String) (data : List (String × Json)) :
    (ExecutionEventPublisher.publish event_type job_id data).Calls Cmd.beside :=
  calls_mono (publish_calls ..) fun _ => beside_of_reports

namespace NormalizedEventConsumer

variable (self : NormalizedEventConsumer)

theorem finalize_fill_beside (job : ExecutionJob) (exchange_order_id : String) (z price : ℚ) :
    (self.finalize_fill job exchange_order_id z price).Calls Cmd.beside := by
  unfold finalize_fill
  split
  · exact calls_done _
  · dsimp only
    split
    · exact calls_bind (calls_perform trivial) fun _ => publish_beside ..
    · exact publish_beside ..

theorem mark_partially_filled_beside (job : ExecutionJob) (report : FillReport) (leg : ℚ) :
    (mark_partially_filled job report leg).Calls Cmd.beside := by
  unfold mark_partially_filled
  split
  · exact calls_perform trivial
  · exact calls_done _

theorem record_partial_fill_records (job : ExecutionJob) (report : FillReport) (order : Order)
    (leg : ℚ) : (self.record_partial_fill job report order leg).Calls Cmd.records := by
  unfold record_partial_fill
  refine calls_bind (calls_perform trivial) fun _ => calls_bind (calls_perform trivial) fun _ => ?_
  refine calls_mono ?_ fun _ => records_of_beside
  refine calls_bind (mark_partially_filled_beside ..) fun _ =>
    calls_bind (publish_beside ..) fun _ => ?_
  unfold finalize_if_complete
  by_cases hfull : report.orig_qty ≤ report.cumulative_filled_qty
  · rw [if_pos hfull]
    exact self.finalize_fill_beside ..
  · rw [if_neg hfull]
    exact calls_done _

theorem insert_last_leg_records (job : ExecutionJob) (report : FillReport) (order : Order)
    (leg : ℚ) : (insert_last_leg job report order leg).Calls Cmd.records := by
  unfold insert_last_leg
  by_cases hleg : 0 < leg
  · rw [if_pos hleg]
    refine calls_bind (calls_perform trivial) fun fill => ?_
    cases fill with
    | some _ => exact calls_done _
    | none => exact calls_perform trivial
  · rw [if_neg hleg]
    exact calls_done _

theorem stages_partial (job : ExecutionJob) (report : FillReport)
    (hid : report.client_order_id = client_order_id) :
    Obeys (stages client_order_id account_id orig) (.reading report.cumulative_filled_qty)
      (self.handle_partial_fill job report) fun _ _ => True := by
  unfold handle_partial_fill
  rw [obeys_bind]
  refine obeys_perform.mpr ⟨hid, ?_⟩
  rintro (e | _ | order)
  · trivial
  · exact stages_end (publish_beside ..)
  · dsimp only
    by_cases hz : report.cumulative_filled_qty ≤ order.filled_qty
    · -- the row has reached the event: there is no leg
      rw [if_pos (by linarith)]
      trivial
    · rw [if_neg (by linarith)]
      have hnext : (stages client_order_id account_id orig).next
          (.reading report.cumulative_filled_qty)
          (.repo (.get_order_by_client_order_id report.client_order_id)) (.ok (some order)) =
            .adding := if_neg hz
      rw [hnext]
      apply stages_adding_end
      refine calls_bind (calls_perform trivial) fun fill => ?_
      cases fill with
      | some _ => exact calls_done _
      | none => exact self.record_partial_fill_records ..

theorem stages_full (job : ExecutionJob) (report : FillReport)
    (hid : report.client_order_id = client_order_id) (hz : report.cumulative_filled_qty = orig) :
    Obeys (stages client_order_id account_id orig) (.reading report.cumulative_filled_qty)
      (self.handle_full_fill job report) fun _ _ => True := by
  unfold handle_full_fill
  rw [obeys_bind]
  refine obeys_perform.mpr ⟨hid, ?_⟩
  rintro (e | _ | order)
  · trivial
  · exact stages_end (publish_beside ..)
  · dsimp only
    by_cases hread : report.cumulative_filled_qty ≤ order.filled_qty
    · -- the row has reached the event: the update writes what is there
      have hnext : (stages client_order_id account_id orig).next
          (.reading report.cumulative_filled_qty)
          (.repo (.get_order_by_client_order_id report.client_order_id)) (.ok (some order)) =
            .covered report.cumulative_filled_qty order.id := if_pos hread
      rw [hnext]
      unfold insert_last_leg
      rw [if_neg (by linarith)]
      show Obeys _ _ (repo _ >>= fun _ => _) _
      rw [obeys_bind]
      refine obeys_perform.mpr ⟨Or.inr ⟨rfl, hz⟩, ?_⟩
      rintro (e | _)
      · trivial
      · exact stages_end (self.finalize_fill_beside ..)
    · have hnext : (stages client_order_id account_id orig).next
          (.reading report.cumulative_filled_qty)
          (.repo (.get_order_by_client_order_id report.client_order_id)) (.ok (some order)) =
            .adding := if_neg hread
      rw [hnext]
      apply stages_adding_end
      refine calls_bind (insert_last_leg_records ..) fun _ =>
        calls_bind (calls_perform trivial) fun _ => ?_
      exact calls_mono (self.finalize_fill_beside ..) fun _ => records_of_beside

/-- The cumulative quantity of an event. -/
def levelOf (entry : EventEntry) : ℚ :=
  match entry.event with
  | .user_order _ data => ((Decimal.ofText data.filled_qty).toOption).getD 0
  | _ => 0

theorem stages_dispatch {entry : EventEntry} {symbol : String} {data : UserOrder}
    (hentry : entry.event = .user_order symbol data) (hfill : IsFill client_order_id orig entry)
    (job : ExecutionJob) :
    Obeys (stages client_order_id account_id orig) (.reading (levelOf entry))
      (self.dispatch job symbol data) fun _ _ => True := by
  unfold IsFill at hfill
  unfold levelOf
  rw [hentry] at hfill ⊢
  obtain ⟨hid, z, hz, -, -, hstatus⟩ := hfill
  unfold dispatch
  cases data.readable with
  | error e => trivial
  | ok _ =>
    cases hreport : data.report symbol with
    | error e =>
      rcases hstatus with ⟨hst, -⟩ | ⟨hst, -⟩
      all_goals
        simp only [Prog.ofExcept, Prog.done_bind, Prog.raise_bind, hst]
        trivial
    | ok report =>
      obtain ⟨hid', hz', -⟩ := report_ok hreport
      have hlevel : ((Decimal.ofText data.filled_qty).toOption).getD 0 =
          report.cumulative_filled_qty := by
        rw [hz']
        rfl
      dsimp only
      rw [hlevel]
      rw [hz, Except.ok.injEq] at hz'
      rcases hstatus with ⟨hst, -⟩ | ⟨hst, heq⟩
      · simp only [Prog.ofExcept, Prog.done_bind, hst]
        exact self.stages_partial job report (hid'.trans hid)
      · simp only [Prog.ofExcept, Prog.done_bind, hst]
        exact self.stages_full job report (hid'.trans hid) (hz' ▸ heq)

theorem reconciler_keeps_to_stages {entry : EventEntry}
    (hfill : IsFill client_order_id orig entry) :
    Obeys (stages client_order_id account_id orig) (.reading (levelOf entry))
      (self.process entry) fun _ _ => True := by
  have hack : ∀ g, Obeys (stages client_order_id account_id orig) g (self.ack entry.msg_id)
      fun _ _ => True := fun g =>
    stages_end (calls_swallow ⟨trivial, fun r => by cases r <;> trivial⟩)
  obtain ⟨symbol, data, hentry, -⟩ := event_of_fill hfill
  unfold process
  refine obeys_bind_of (R := fun _ _ => True) ?_ (fun _ g _ => hack g) fun _ _ _ => trivial
  rw [hentry]
  show Obeys _ _ (self.handle_user_order symbol data) _
  unfold handle_user_order
  split
  · exact stages_end (publish_beside ..)
  · split
    · trivial
    · refine stages_skip (calls_perform trivial) fun job => ?_
      cases job with
      | none =>
        refine stages_skip (publish_beside ..) fun _ => ?_
        split
        · exact stages_end (calls_mono (log_incident_calls _) fun _ => beside_of_reports)
        · trivial
      | some job =>
        dsimp only
        split
        · exact stages_end (publish_beside ..)
        · exact self.stages_dispatch hentry hfill job

end NormalizedEventConsumer

end Stages

/-! ## What is true while the reconciler adds nothing -/

/-- A transaction beside orders and fills leaves both tables as they were, and
the counter of the ids. -/
theorem txn_beside {now : Nat} {c : RepoCmd} {a : c.Ans} {db db' : Db}
    (hc : Cmd.beside (.repo c)) (h : c.txn now db = .ok (a, db')) :
    db'.orders = db.orders ∧ db'.fills = db.fills ∧ db'.next_id = db.next_id := by
  cases c with
  | create_job job_id request client_order_id =>
    simp only [RepoCmd.txn, execution.create_job] at h
    split at h
    · cases h
    · split_ifs at h
      cases h
      exact ⟨rfl, rfl, rfl⟩
  | update_job_status job_id s event_data result_json error =>
    simp only [RepoCmd.txn, execution.update_job_status] at h
    split_ifs at h <;> cases h <;> exact ⟨rfl, rfl, rfl⟩
  | get_daily_realized_loss_usd account_id =>
    simp only [RepoCmd.txn, execution.get_daily_realized_loss_usd] at h
    split at h <;> cases h <;> exact ⟨rfl, rfl, rfl⟩
  | get_open_positions_count account_id =>
    simp only [RepoCmd.txn, execution.get_open_positions_count] at h
    split at h <;> cases h <;> exact ⟨rfl, rfl, rfl⟩
  | get_job_by_client_order_id _ | get_fill_by_exchange_trade_id _ _ | select_account _
  | insert_incident _ =>
    cases h
    exact ⟨rfl, rfl, rfl⟩
  | _ => exact absurd hc id

/-- A call beside orders and fills leaves both tables as they were, and the counter. -/
theorem exec_beside (w : World) (c : Cmd) (o : Choice) (hc : c.beside) :
    (w.exec c o).2.db.orders = w.db.orders ∧ (w.exec c o).2.db.fills = w.db.fills ∧
      (w.exec c o).2.db.next_id = w.db.next_id := by
  cases c with
  | repo c =>
    rcases World.exec_repo w c o with ⟨he, -⟩ | ⟨a, db, htxn, he, -⟩
    · rw [he]
      exact ⟨rfl, rfl, rfl⟩
    · rw [he]
      exact txn_beside hc htxn
  | redis _ | submit _ _ | post_order _ | time_ms =>
    rw [World.exec_db _ _ _ (by simp)]
    exact ⟨rfl, rfl, rfl⟩

/-- A select answers with the row that is there. -/
theorem exec_get_order (w : World) (x : String) (o : Choice) :
    (w.exec (.repo (.get_order_by_client_order_id x)) o).2.db = w.db ∧
      ∀ found, (w.exec (.repo (.get_order_by_client_order_id x)) o).1 = .ok found →
        found = w.db.orders.find? (·.client_order_id = x) := by
  rcases World.exec_repo w (.get_order_by_client_order_id x) o with ⟨he, ha⟩ | ⟨a, db, htxn, he, ha⟩
  · refine ⟨he, fun found hfound => ?_⟩
    have htxn := ha found hfound
    cases htxn
    rfl
  · cases htxn
    exact ⟨he, ha⟩

section Counted

variable (client_order_id : String) (account_id : Uuid) (orig : ℚ) (order_id : Nat)
  (reports : List FuturesReport)

/-- The reports of `done` are stored, each by one fill row, and those of `left`
are not. -/
structure Counted (db : Db) (done left : List FuturesReport) : Prop where
  row : ∃ row, db.orders.find? (·.client_order_id = client_order_id) = some row ∧
    row.id = order_id ∧ row.filled_qty = lastLevel done
  legs : (db.fills.filter (·.order_id = order_id)).map (fun f => (f.exchange_trade_id, f.qty)) =
    done.map fun r => (r.trade_id, r.last_qty)
  fresh : ∀ r ∈ left, r.trade_id ∉ db.trade_ids account_id

/-- The stage of the writer that has `left` to handle. -/
def WriterAt (left : List FuturesReport) : Stage → Prop
  | .reporting l => l = left
  | .selected found report l =>
    left = report :: l ∧ ∃ order, found = some order ∧ order.id = order_id
  | .failed => True
  | _ => False

/-- The stage of a reconciler's handler. One that will set the row to `orig`
found it there, with no report left. -/
def ReaderAt (left : List FuturesReport) : Stage → Prop
  | .reading _ => True
  | .covered z id => id = order_id ∧ (z = orig → left = [] ∧ lastLevel reports = orig)
  | _ => False

/-- The reports of `base` and perhaps more are stored. -/
def Holds (base : List FuturesReport) (w : World) (γ : Nat → Stage) : Prop :=
  ∃ done left, base <+: done ∧ reports = done ++ left ∧
    Counted client_order_id account_id order_id w.db done left ∧
    WriterAt order_id left (γ 0) ∧
    ∀ i, i ≠ 0 → ReaderAt orig order_id reports left (γ i)

/-- The reconciler reads the order row only when the row has reached its event. -/
def Ahead (w : World) (g : Stage) (c : Cmd) (_ : Choice) : Prop :=
  match g, c with
  | .reading z, .repo (.get_order_by_client_order_id x) =>
    ∀ row ∈ w.db.orders.find? (·.client_order_id = x), z ≤ row.filled_qty
  | _, _ => True

instance (w : World) (g : Stage) (c : Cmd) (o : Choice) : Decidable (Ahead w g c o) := by
  unfold Ahead
  induction g using Stage.casesOn with
  | reading z =>
    induction c using Cmd.casesOn with
    | repo c => induction c using RepoCmd.casesOn <;> infer_instance
    | _ => infer_instance
  | _ => infer_instance

/-- What the exchange and the account promise of the reports: trade ids are
unique, and no more is filled than was ordered, with the last trade last. -/
structure Promised : Prop where
  positive : 0 < orig
  ids : (reports.map (·.trade_id)).Nodup
  trades : ∀ r ∈ reports, r.IsTradeOf client_order_id
  whole : ∀ pre r post, reports = pre ++ r :: post → orig ≤ r.level → post = [] ∧ r.level = orig

variable {client_order_id account_id orig order_id reports} {base done left : List FuturesReport}
  {w w' : World} {γ : Nat → Stage} {i : Nat}

theorem counted_congr {db db' : Db} (h : Counted client_order_id account_id order_id db done left)
    (ho : db'.orders = db.orders) (hf : db'.fills = db.fills) :
    Counted client_order_id account_id order_id db' done left := by
  obtain ⟨hrow, hlegs, hfresh⟩ := h
  refine ⟨by rw [ho]; exact hrow, by rw [hf]; exact hlegs, fun r hr => ?_⟩
  unfold Db.trade_ids at hfresh ⊢
  rw [hf]
  exact hfresh r hr

/-- A step that leaves both tables as they were, and its thread in a stage that
fits. -/
theorem holds_stage (hc : Counted client_order_id account_id order_id w.db done left)
    (hbase : base <+: done) (hreports : reports = done ++ left)
    (hw : WriterAt order_id left (γ 0)) (hr : ∀ j, j ≠ 0 → ReaderAt orig order_id reports left (γ j))
    (ho : w'.db.orders = w.db.orders) (hf : w'.db.fills = w.db.fills) (g : Stage)
    (hg : if i = 0 then WriterAt order_id left g else ReaderAt orig order_id reports left g) :
    Holds client_order_id account_id orig order_id reports base w' (Function.update γ i g) := by
  refine ⟨done, left, hbase, hreports, counted_congr hc ho hf, ?_, fun j hj => ?_⟩
  · by_cases hi : i = 0
    · subst hi
      simpa using hg
    · rw [Function.update_of_ne (Ne.symm hi)]
      exact hw
  · by_cases hji : j = i
    · subst hji
      rw [if_neg hj] at hg
      simpa using hg
    · rw [Function.update_of_ne hji]
      exact hr j hj

theorem stage_fits (hw : WriterAt order_id left (γ 0))
    (hr : ∀ j, j ≠ 0 → ReaderAt orig order_id reports left (γ j)) :
    if i = 0 then WriterAt order_id left (γ i) else ReaderAt orig order_id reports left (γ i) := by
  by_cases hi : i = 0
  · rw [if_pos hi, hi]
    exact hw
  · rw [if_neg hi]
    exact hr i hi

/-- An event up to `orig` that finds the row there comes after every report. -/
theorem all_reported (hp : Promised client_order_id orig reports) (hreports : reports = done ++ left)
    (hlevel : orig ≤ lastLevel done) : left = [] ∧ lastLevel reports = orig := by
  rcases List.eq_nil_or_concat done with rfl | ⟨pre, r, rfl⟩
  · -- nothing is stored yet, and the order is not empty
    have hpos := hp.positive
    simp only [lastLevel, List.getLast?_nil, Option.map_none, Option.getD_none] at hlevel
    exact absurd hpos (not_lt.mpr hlevel)
  · rw [List.concat_eq_append] at hlevel hreports
    rw [lastLevel_snoc] at hlevel
    have hsplit : reports = pre ++ r :: left := by rw [hreports, List.append_assoc]; rfl
    obtain ⟨hnil, horig⟩ := hp.whole pre r left hsplit hlevel
    subst hnil
    refine ⟨rfl, ?_⟩
    rw [hreports, List.append_nil, lastLevel_snoc, horig]

theorem holds_get_order {x : String} {o : Choice} (hp : Promised client_order_id orig reports)
    (h : Holds client_order_id account_id orig order_id reports base w γ)
    (ha : x = client_order_id) (hahead : Ahead w (γ i) (.repo (.get_order_by_client_order_id x)) o) :
    Holds client_order_id account_id orig order_id reports base
      (w.exec (.repo (.get_order_by_client_order_id x)) o).2
      (Function.update γ i ((stages client_order_id account_id orig).next (γ i)
        (.repo (.get_order_by_client_order_id x))
        (w.exec (.repo (.get_order_by_client_order_id x)) o).1)) := by
  subst ha
  obtain ⟨done, left, hbase, hreports, hc, hw, hr⟩ := h
  obtain ⟨hdb, hans⟩ := exec_get_order w x o
  have hfits := stage_fits (i := i) hw hr
  obtain ⟨row, hrow, hid, hfilled⟩ := hc.row
  refine holds_stage hc hbase hreports hw hr (by rw [hdb]) (by rw [hdb]) _ ?_
  cases hr' : (w.exec (.repo (.get_order_by_client_order_id x)) o).1 with
  | error e => exact hfits
  | ok found =>
    have hfound : found = some row := (hans found hr').trans hrow
    subst hfound
    show if i = 0 then WriterAt order_id left ((γ i).read (some row))
      else ReaderAt orig order_id reports left ((γ i).read (some row))
    by_cases hi : i = 0
    · rw [if_pos hi] at hfits ⊢
      cases hg : γ i with
      | reporting l =>
        rw [hg] at hfits
        cases l with
        | nil => exact hfits
        | cons report l => exact ⟨Eq.symm hfits, row, rfl, hid⟩
      | selected _ _ _ =>
        rw [hg] at hfits
        exact hfits
      | failed => trivial
      | _ =>
        rw [hg] at hfits
        exact absurd hfits id
    · rw [if_neg hi] at hfits ⊢
      cases hg : γ i with
      | reading z =>
        rw [hg] at hahead
        have hz : z ≤ row.filled_qty := hahead row hrow
        have hread : (Stage.reading z).read (some row) = .covered z row.id := if_pos hz
        rw [hread]
        refine ⟨hid, fun hfull => ?_⟩
        apply all_reported hp hreports
        rw [← hfilled, ← hfull]
        exact hz
      | covered _ _ =>
        rw [hg] at hfits
        exact hfits
      | _ =>
        rw [hg] at hfits
        exact absurd hfits id

/-- The reconciler's update of a row that is there changes no quantity. -/
theorem holds_update_order {id : Nat} {z price : ℚ} {status : Option String} {o : Choice}
    (h : Holds client_order_id account_id orig order_id reports base w γ)
    (ha : (stages client_order_id account_id orig).allows (γ i)
      (.repo (.update_order_filled_qty id z price status))) :
    Holds client_order_id account_id orig order_id reports base
      (w.exec (.repo (.update_order_filled_qty id z price status)) o).2
      (Function.update γ i (γ i)) := by
  obtain ⟨done, left, hbase, hreports, hc, hw, hr⟩ := h
  have hfits := stage_fits (i := i) hw hr
  rcases World.exec_repo w (.update_order_filled_qty id z price status) o with
    ⟨he, -⟩ | ⟨a, db, htxn, he, -⟩
  · exact holds_stage hc hbase hreports hw hr (by rw [he]) (by rw [he]) _ hfits
  · cases htxn
    have hcov : γ i = .covered z id ∧ z = orig := by
      rcases ha with hadd | hcov
      · -- nothing is added
        exfalso
        split at hfits
        · rw [hadd] at hfits
          exact hfits
        · rw [hadd] at hfits
          exact hfits
      · exact hcov
    have hread : id = order_id ∧ left = [] ∧ lastLevel reports = orig := by
      split at hfits
      · rw [hcov.1] at hfits
        exact absurd hfits not_false
      · rw [hcov.1] at hfits
        exact ⟨hfits.1, hfits.2 hcov.2⟩
    obtain ⟨rfl, rfl, hlast⟩ := hread
    obtain ⟨row, hrow, rfl, hfilled⟩ := hc.row
    have hdone : done = reports := by rw [hreports, List.append_nil]
    refine ⟨done, [], hbase, hreports, ⟨⟨row.filled_to w.now z price status, ?_, rfl, ?_⟩, ?_,
      by simp⟩, ?_, fun j hj => ?_⟩
    · rw [he]
      show (w.db.orders.map _).find? _ = _
      rw [find?_map_of_keeps (fun r => by split <;> rfl), hrow]
      simp
    · show z = lastLevel done
      rw [hcov.2, hdone, hlast]
    · rw [he]
      exact hc.legs
    · rw [Function.update_eq_self]
      exact hw
    · rw [Function.update_eq_self]
      exact hr j hj

/-- The tables after the writer stored one more report. -/
theorem counted_upsert {report : FuturesReport} {order : Order} {db db' : Db}
    (hp : Promised client_order_id orig reports) (hreports : reports = done ++ report :: left)
    (hc : Counted client_order_id account_id order_id db done (report :: left))
    (hid : order.id = order_id)
    (htxn : upsert_futures_report account_id (some order) report db = .ok ((), db')) :
    Counted client_order_id account_id order_id db' (done ++ [report]) left := by
  subst hid
  have hmem : report ∈ reports := by rw [hreports]; simp
  have htrade := (hp.trades report hmem).trade
  obtain ⟨z, avg, fill, hz, hfq, hfo, hfk, ho, hf, hids⟩ :=
    upsert_new_trade htrade (hc.fresh report (by simp)) htxn
  have hlevel : report.level = z := by
    unfold FuturesReport.level
    rw [hz]
    rfl
  have hqty : report.last_qty = fill.qty := by
    unfold FuturesReport.last_qty
    rw [hfq]
    rfl
  obtain ⟨row, hrow, hrowid, -⟩ := hc.row
  refine ⟨⟨row.reported report z avg, ?_, hrowid, ?_⟩, ?_, fun r hr => ?_⟩
  · rw [ho, find?_map_of_keeps (fun r => by split <;> rfl), hrow]
    simp [hrowid]
  · rw [lastLevel_snoc, hlevel]
    rfl
  · rw [hf, List.filter_append, List.map_append, hc.legs]
    simp [hfo, hfk, hqty]
  · rw [hids, List.mem_append, List.mem_singleton, not_or]
    refine ⟨hc.fresh r (by simp [hr]), fun heq => ?_⟩
    -- the trade ids of the reports differ
    have hnodup := hp.ids
    rw [hreports, List.map_append, List.map_cons] at hnodup
    have hnot := (List.nodup_cons.mp (List.nodup_append.mp hnodup).2.1).1
    exact hnot (List.mem_map.mpr ⟨r, hr, heq⟩)

theorem holds_upsert {a : Uuid} {found : Option Order} {report : FuturesReport} {o : Choice}
    (hp : Promised client_order_id orig reports)
    (h : Holds client_order_id account_id orig order_id reports base w γ)
    (ha : (stages client_order_id account_id orig).allows (γ i)
      (.repo (.upsert_futures_report a found report))) :
    Holds client_order_id account_id orig order_id reports base
      (w.exec (.repo (.upsert_futures_report a found report)) o).2
      (Function.update γ i ((stages client_order_id account_id orig).next (γ i)
        (.repo (.upsert_futures_report a found report))
        (w.exec (.repo (.upsert_futures_report a found report)) o).1)) := by
  obtain ⟨rfl, left', hsel⟩ := ha
  obtain ⟨done, left, hbase, hreports, hc, hw, hr⟩ := h
  have hfits := stage_fits (i := i) hw hr
  rw [hsel] at hfits
  have hi : i = 0 := by
    by_contra hi
    rw [if_neg hi] at hfits
    exact hfits
  subst hi
  rw [if_pos rfl] at hfits
  obtain ⟨rfl, order, rfl, hid⟩ := hfits
  rw [hsel]
  -- no handler of the reconciler is past its read of a full row
  have hr' : ∀ j, j ≠ 0 → ReaderAt orig order_id reports left' (γ j) := by
    intro j hj
    have hrj := hr j hj
    cases hg : γ j with
    | reading _ => trivial
    | covered z id =>
      rw [hg] at hrj
      exact ⟨hrj.1, fun hz => absurd (hrj.2 hz).1 (by simp)⟩
    | _ =>
      rw [hg] at hrj
      exact absurd hrj id
  rcases World.exec_repo w (.upsert_futures_report a (some order) report) o with
    ⟨he, hans⟩ | ⟨_, db, htxn, he, hans⟩
  · cases hres : (w.exec (.repo (.upsert_futures_report a (some order) report)) o).1 with
    | error e => exact holds_stage hc hbase hreports hw hr (by rw [he]) (by rw [he]) _ trivial
    | ok u =>
      have hc' := counted_upsert hp hreports hc hid (hans u hres)
      refine ⟨done ++ [report], left', hbase.trans ⟨_, rfl⟩, by simp [hreports], ?_, ?_, fun j hj => ?_⟩
      · rw [he]
        exact hc'
      · rw [Function.update_self]
        rfl
      · rw [Function.update_of_ne hj]
        exact hr' j hj
  · have hc' := counted_upsert hp hreports hc hid htxn
    refine ⟨done ++ [report], left', hbase.trans ⟨_, rfl⟩, by simp [hreports], ?_, ?_, fun j hj => ?_⟩
    · rw [he]
      exact hc'
    · rw [Function.update_self]
      cases (w.exec (.repo (.upsert_futures_report a (some order) report)) o).1 with
      | error e => trivial
      | ok u => rfl
    · rw [Function.update_of_ne hj]
      exact hr' j hj

/-- Every allowed call keeps what is true, while the reconciler reads only rows
that have reached its events. -/
theorem holds_step {c : Cmd} {o : Choice} (hp : Promised client_order_id orig reports)
    (h : Holds client_order_id account_id orig order_id reports base w γ)
    (ha : (stages client_order_id account_id orig).allows (γ i) c) (hahead : Ahead w (γ i) c o) :
    Holds client_order_id account_id orig order_id reports base (w.exec c o).2
      (Function.update γ i ((stages client_order_id account_id orig).next (γ i) c
        (w.exec c o).1)) := by
  by_cases hb : c.beside
  · obtain ⟨done, left, hbase, hreports, hc, hw, hr⟩ := h
    obtain ⟨ho, hf, -⟩ := exec_beside w c o hb
    rw [(stages_beside (γ i) c hb).2]
    exact holds_stage hc hbase hreports hw hr ho hf _ (stage_fits hw hr)
  · cases c with
    | repo c =>
      cases c with
      | get_order_by_client_order_id x => exact holds_get_order hp h ha hahead
      | update_order_filled_qty id z price status => exact holds_update_order h ha
      | upsert_futures_report a found report => exact holds_upsert hp h ha
      | insert_fill args =>
        -- nothing is added
        obtain ⟨done, left, -, -, -, hw, hr⟩ := h
        have hfits := stage_fits (i := i) hw hr
        have hadd : γ i = .adding := ha
        rw [hadd] at hfits
        split at hfits <;> exact absurd hfits id
      | create_order _ _ _ _ => exact absurd ha id
      | save_fill _ _ _ => exact absurd ha id
      | _ => exact absurd trivial hb
    | _ => exact absurd trivial hb

end Counted

/-! ## Every interleaving -/

/-- The trades of an order in the order of the exchange, as the reports that
the writer gets of them. -/
structure Exchange (client_order_id : String) (orig : ℚ) (trades : List FuturesReport) : Prop where
  positive : 0 < orig
  ids : (trades.map (·.trade_id)).Nodup
  each : ∀ r ∈ trades, r.IsTradeOf client_order_id
  cumulative : Cumulative 0 trades
  bounded : lastLevel trades ≤ orig

/-- The order row is there, nothing of it is filled, and the account has no
fill row of its trades. -/
structure Placed (client_order_id : String) (account_id : Uuid) (order_id : Nat)
    (trades : List FuturesReport) (db : Db) : Prop where
  ours : is_ours client_order_id = true
  row : ∃ row, db.orders.find? (·.client_order_id = client_order_id) = some row ∧
    row.id = order_id ∧ row.filled_qty = 0
  unfilled : ∀ fill ∈ db.fills, fill.order_id ≠ order_id
  fresh : ∀ r ∈ trades, r.trade_id ∉ db.trade_ids account_id

/-- The filled quantity of the order row. -/
def Db.order_filled (db : Db) (client_order_id : String) : ℚ :=
  ((db.orders.find? (·.client_order_id = client_order_id)).map (·.filled_qty)).getD 0

theorem order_filled_of_counted {client_order_id : String} {account_id : Uuid} {order_id : Nat}
    {db : Db} {done left : List FuturesReport}
    (h : Counted client_order_id account_id order_id db done left) :
    db.order_filled client_order_id = lastLevel done := by
  obtain ⟨row, hrow, -, hfilled⟩ := h.row
  unfold Db.order_filled
  rw [hrow]
  exact hfilled

theorem filled_of_counted {client_order_id : String} {account_id : Uuid} {order_id : Nat}
    {db : Db} {done left : List FuturesReport}
    (h : Counted client_order_id account_id order_id db done left) :
    db.filled order_id = (done.map (·.last_qty)).sum := by
  have hlegs := congrArg (fun l : List (String × ℚ) => (l.map (·.2)).sum) h.legs
  simpa [Db.filled, List.map_map, Function.comp_def] using hlegs

/-- Each trade has one fill row, and the fill rows add up to the filled
quantity, which is within the order. -/
structure CountedOnce (client_order_id : String) (order_id : Nat) (orig : ℚ)
    (trades : List FuturesReport) (db : Db) : Prop where
  legs : ((db.fills.filter (·.order_id = order_id)).map fun f => (f.exchange_trade_id, f.qty)).Perm
    (trades.map fun r => (r.trade_id, r.last_qty))
  sum : db.filled order_id = db.order_filled client_order_id
  within : db.order_filled client_order_id ≤ orig

/-- Only the last trade has the last level. -/
theorem eq_last_of_level {client_order_id : String} {orig : ℚ} {trades pre post : List FuturesReport}
    {r : FuturesReport} (h : Exchange client_order_id orig trades)
    (hsplit : trades = pre ++ r :: post) (hlevel : orig ≤ r.level) :
    r.level = orig ∧ trades.getLast? = some r := by
  have hprefix : pre ++ [r] <+: trades := ⟨post, by rw [hsplit]; simp⟩
  have hr : r.level = ((pre ++ [r]).map (·.last_qty)).sum := by
    rw [← lastLevel_eq_sum h.cumulative hprefix, lastLevel_snoc]
  have htotal : lastLevel trades = ((pre ++ [r]).map (·.last_qty)).sum +
      (post.map (·.last_qty)).sum := by
    rw [lastLevel_eq_sum h.cumulative (List.prefix_refl _), hsplit]
    simp [add_assoc]
  have hbound := h.bounded
  have hpost : post = [] := by
    by_contra hne
    have hpos : 0 < (post.map (·.last_qty)).sum := by
      apply List.sum_pos
      · intro x hx
        obtain ⟨t, ht, rfl⟩ := List.mem_map.mp hx
        exact (h.each t (by rw [hsplit]; simp [ht])).positive
      · simpa using hne
    linarith
  subst hpost
  refine ⟨?_, by rw [hsplit]; simp⟩
  rw [List.map_nil, List.sum_nil, add_zero] at htotal
  linarith

/-- The reports of an exchange order keep the promise when the last trade is
reported last. -/
theorem promised_of_exchange {client_order_id : String} {orig : ℚ}
    {trades reports : List FuturesReport} (h : Exchange client_order_id orig trades)
    (hperm : reports.Perm trades) (hlast : reports.getLast? = trades.getLast?) :
    Promised client_order_id orig reports := by
  have hids : (reports.map (·.trade_id)).Nodup := (hperm.map _).nodup_iff.mpr h.ids
  refine ⟨h.positive, hids, fun r hr => h.each r (hperm.subset hr), ?_⟩
  intro pre r post hsplit hlevel
  have hmem : r ∈ trades := hperm.subset (by rw [hsplit]; simp)
  obtain ⟨pre', post', hsplit'⟩ := List.append_of_mem hmem
  obtain ⟨horig, hend⟩ := eq_last_of_level h hsplit' hlevel
  refine ⟨?_, horig⟩
  -- `r` is the last report, and it is there once
  rw [← hlast, hsplit] at hend
  rcases List.eq_nil_or_concat post with rfl | ⟨mid, last, rfl⟩
  · rfl
  · exfalso
    have hr : last = r := by
      have hsnoc : pre ++ r :: (mid.concat last) = (pre ++ r :: mid) ++ [last] := by simp
      rw [hsnoc, List.getLast?_concat, Option.some.injEq] at hend
      exact hend
    subst hr
    have hnodup := hids
    rw [hsplit, List.map_append, List.map_cons] at hnodup
    have hnot := (List.nodup_cons.mp (List.nodup_append.mp hnodup).2.1).1
    apply hnot
    simp

/-- The writer with its reports, and a handler for each event. -/
def ledger_threads (reconciler : NormalizedEventConsumer) (account_id : Uuid)
    (reports : List FuturesReport) (entries : List EventEntry) : List (Py Unit) :=
  AccountStateWriter.handle_reports account_id reports :: entries.map reconciler.process

/-- The stages in which the threads start. -/
def first_stage (reports : List FuturesReport) (entries : List EventEntry) : Nat → Stage
  | 0 => .reporting reports
  | i + 1 => .reading ((entries[i]?.map NormalizedEventConsumer.levelOf).getD 0)

section Run

variable {client_order_id : String} {account_id : Uuid} {orig : ℚ} {order_id : Nat}
  {trades reports : List FuturesReport} {entries : List EventEntry} {w : World}

/-- What a thread has come to when it ends: the writer without an exception has
no report left. -/
def Reported (i : Nat) (r : Except PyErr Unit) (g : Stage) : Prop :=
  i = 0 → r = .ok () → g = .reporting []

theorem ledger_starts (reconciler : NormalizedEventConsumer)
    (hplaced : Placed client_order_id account_id order_id trades w.db)
    (hexchange : Exchange client_order_id orig trades) (hperm : reports.Perm trades)
    (hfills : ∀ entry ∈ entries, NormalizedEventConsumer.IsFill client_order_id orig entry) :
    (Config.start w (ledger_threads reconciler account_id reports entries)).Kept
      (stages client_order_id account_id orig) (first_stage reports entries)
      (Holds client_order_id account_id orig order_id reports []) Reported := by
  obtain ⟨hours, ⟨row, hrow, hid, hzero⟩, hno, hfresh⟩ := hplaced
  refine Config.kept_start ?_ fun i p hp => ?_
  · refine ⟨[], reports, List.prefix_refl _, rfl, ⟨⟨row, hrow, hid, hzero⟩, ?_, ?_⟩, rfl, ?_⟩
    · rw [List.map_nil, List.map_eq_nil_iff, List.filter_eq_nil_iff]
      intro f hf
      simpa using hno f hf
    · intro r hr
      exact hfresh r (hperm.subset hr)
    · intro i hi
      cases i with
      | zero => exact absurd rfl hi
      | succ i => trivial
  · cases i with
    | zero =>
      simp only [ledger_threads, List.getElem?_cons_zero, Option.some.injEq] at hp
      subst hp
      have hne : client_order_id ≠ "" := by
        rintro rfl
        exact absurd hours (by decide)
      exact obeys_mono (writer_keeps_to_stages reports
        (fun r hr => hexchange.each r (hperm.subset hr)) hne) fun r g h _ => h
    | succ i =>
      simp only [ledger_threads, List.getElem?_cons_succ, List.getElem?_map,
        Option.map_eq_some_iff] at hp
      obtain ⟨entry, hentry, rfl⟩ := hp
      have hmem := List.mem_of_getElem? hentry
      have hstage : first_stage reports entries (i + 1) =
          .reading (NormalizedEventConsumer.levelOf entry) := by
        show Stage.reading ((entries[i]?.map NormalizedEventConsumer.levelOf).getD 0) = _
        rw [hentry]
        rfl
      rw [hstage]
      exact obeys_mono (reconciler.reconciler_keeps_to_stages (hfills entry hmem))
        fun r g _ h => absurd h (by simp)

/-- For every sequence of trades of an order and every interleaving of the two
writers, with any failures: while the reconciler reads the order row only when
the row has reached its event, a finished run has one fill row for each trade, and
they add up to the filled quantity, which is within the order. In exchange
order the filled quantity never decreases. -/
theorem each_trade_is_counted_once (reconciler : NormalizedEventConsumer)
    (client_order_id : String) (account_id : Uuid) (orig : ℚ) (order_id : Nat)
    (trades reports : List FuturesReport) (entries : List EventEntry) (w : World)
    (acts : List (Act Choice))
    (hplaced : Placed client_order_id account_id order_id trades w.db)
    (hexchange : Exchange client_order_id orig trades) (hperm : reports.Perm trades)
    (hlast : reports.getLast? = trades.getLast?)
    (hfills : ∀ entry ∈ entries, NormalizedEventConsumer.IsFill client_order_id orig entry)
    (hahead : (Config.start w (ledger_threads reconciler account_id reports entries)).Meets
      World.exec (stages client_order_id account_id orig) (first_stage reports entries) Ahead acts) :
    let cfg := Config.start w (ledger_threads reconciler account_id reports entries)
    let db := (cfg.run World.exec acts).shared.db
    ((cfg.run World.exec acts).Returned → CountedOnce client_order_id order_id orig trades db) ∧
    (reports = trades → ∀ as bs, acts = as ++ bs →
      (cfg.run World.exec as).shared.db.order_filled client_order_id ≤
        db.order_filled client_order_id) := by
  have hp := promised_of_exchange hexchange hperm hlast
  have hstart := ledger_starts reconciler hplaced hexchange hperm hfills
  intro cfg db
  have hkept := Config.run_keeps (K := Ahead)
    (fun w γ i c o h ha hK => holds_step hp h ha hK) hstart hahead
  refine ⟨fun hdone => ?_, fun hsame as bs hacts => ?_⟩
  · obtain ⟨done, left, -, hreports, hc, hw, -⟩ := hkept.inv
    have hleft : left = [] := by
      have hlen : 0 < (cfg.run World.exec acts).threads.length := by
        rw [Config.run_length]
        exact Nat.succ_pos _
      obtain ⟨u, hthread⟩ := Prog.eq_done_of_returned (hdone _ (List.getElem_mem hlen))
      have hob := hkept.obeys 0 _ (List.getElem?_eq_getElem hlen)
      rw [hthread] at hob
      rw [hob rfl rfl] at hw
      exact Eq.symm hw
    subst hleft
    rw [List.append_nil] at hreports
    subst hreports
    have hlevel := order_filled_of_counted hc
    have hsum := filled_of_counted hc
    have htotal : lastLevel reports = lastLevel trades := by
      unfold lastLevel
      rw [hlast]
    refine ⟨?_, ?_, ?_⟩
    · rw [hc.legs]
      exact hperm.map _
    · rw [hsum, hlevel, htotal, lastLevel_eq_sum hexchange.cumulative (List.prefix_refl _)]
      exact (hperm.map _).sum_eq
    · rw [hlevel, htotal]
      exact hexchange.bounded
  · subst hsame
    subst hacts
    rw [Config.meets_append] at hahead
    have hmid := Config.run_keeps (K := Ahead)
      (fun w γ i c o h ha hK => holds_step hp h ha hK) hstart hahead.1
    obtain ⟨done, left, -, hreports, hc, hw, hr⟩ := hmid.inv
    -- the second part of the run goes on from `done`
    have hend := Config.run_keeps (K := Ahead)
      (fun w γ i c o h ha hK => holds_step hp h ha hK)
      (⟨⟨done, left, List.prefix_refl _, hreports, hc, hw, hr⟩, hmid.obeys⟩ :
        Config.Kept _ _ (Holds client_order_id account_id orig order_id reports done) Reported _)
      hahead.2
    obtain ⟨done', left', hbase, hreports', hc', -, -⟩ := hend.inv
    have hle : lastLevel done ≤ lastLevel done' :=
      lastLevel_mono hexchange.cumulative (fun r hr => (hexchange.each r hr).positive) hbase
        ⟨left', Eq.symm hreports'⟩
    rw [← order_filled_of_counted hc, ← order_filled_of_counted hc', ← Config.run_append] at hle
    exact hle

end Run

/-! ## One trade, two fill rows -/

/-- A trade of the order of 10. -/
def demo_report (trade_id fill_qty filled_qty : String) : FuturesReport where
  client_order_id := "tp2-7"
  exchange_order_id := "x"
  symbol := "BTCUSDT"
  qty := "10"
  filled_qty
  fill_qty
  trade_time_ms := 5
  exec_type := "TRADE"
  trade_id

/-- `n` steps of thread `i` in which nothing fails. -/
def steps (i n : Nat) : List (Act Choice) := List.replicate n ⟨i, .idle⟩

def demo_account_id : Uuid := "00000000-0000-0000-0000-000000000001"

theorem placed_demo_open (trades : List FuturesReport) :
    Placed "tp2-7" demo_account_id 0 trades NormalizedEventConsumer.demo_open.db := by
  refine ⟨by decide, ⟨NormalizedEventConsumer.demo_order, by rfl, rfl, rfl⟩, ?_, ?_⟩
  · intro fill hfill
    exact absurd hfill (List.not_mem_nil)
  · intro r _ hr
    exact absurd hr (List.not_mem_nil)

theorem isTradeOf_demo_report {trade_id fill_qty filled_qty : String} {q : ℚ}
    (hid : trade_id ≠ "-1") (hq : Decimal.ofText fill_qty = .ok q) (hpos : 0 < q) :
    (demo_report trade_id fill_qty filled_qty).IsTradeOf "tp2-7" := by
  have hsymbol : ("BTCUSDT" : String) ≠ "" := by decide
  refine ⟨rfl, hsymbol, ?_, ?_⟩
  · show (decide (("TRADE" : String) = "TRADE") && decide (trade_id ≠ "-1")) = true
    simpa using hid
  · show 0 < ((Decimal.ofText fill_qty).toOption).getD 0
    rw [hq]
    exact hpos

/-- The reconciler handles the event of a trade before the account stream
writer handles the report of the same trade: the trade of 4 has two fill rows,
and the order row says 4. -/
theorem a_trade_is_counted_twice :
    let trades := [demo_report "100" "4" "4"]
    let cfg := (Config.start NormalizedEventConsumer.demo_open
      (ledger_threads {} demo_account_id trades
        [NormalizedEventConsumer.demo_fill "PARTIALLY_FILLED" "4" 5])).run World.exec
          (steps 1 9 ++ steps 0 2)
    cfg.Returned ∧ ¬ CountedOnce "tp2-7" 0 10 trades cfg.shared.db := by
  refine ⟨by decide +kernel, fun h => absurd h.sum ?_⟩
  decide +kernel

/-- Two trades of 4 and 6 that the account stream writer stores first. -/
theorem two_trades_are_counted_once :
    let trades := [demo_report "100" "4" "4", demo_report "101" "6" "10"]
    let entries := [NormalizedEventConsumer.demo_fill "PARTIALLY_FILLED" "4" 5,
      NormalizedEventConsumer.demo_fill "FILLED" "10" 6]
    let cfg := (Config.start NormalizedEventConsumer.demo_open
      (ledger_threads {} demo_account_id trades entries)).run World.exec
        (steps 0 4 ++ steps 1 6 ++ steps 2 12)
    CountedOnce "tp2-7" 0 10 trades cfg.shared.db := by
  have h4 : Decimal.ofText "4" = .ok 4 := by decide +kernel
  have h6 : Decimal.ofText "6" = .ok 6 := by decide +kernel
  have h10 : Decimal.ofText "10" = .ok 10 := by decide +kernel
  refine (each_trade_is_counted_once {} "tp2-7" demo_account_id 10 0 _ _ _ _ _
    (placed_demo_open _) ⟨by norm_num, by decide, ?_, ?_, ?_⟩ (List.Perm.refl _) rfl ?_ ?_).1 ?_
  · intro r hr
    rcases List.mem_cons.mp hr with rfl | hr
    · exact isTradeOf_demo_report (by decide) h4 (by norm_num)
    · obtain rfl := List.mem_singleton.mp hr
      exact isTradeOf_demo_report (by decide) h6 (by norm_num)
  · exact ⟨by decide +kernel, by decide +kernel, trivial⟩
  · decide +kernel
  · intro entry hentry
    rcases List.mem_cons.mp hentry with rfl | hentry
    · exact NormalizedEventConsumer.isFill_demo_fill 5 h4 (by norm_num)
        (Or.inl ⟨rfl, by norm_num⟩)
    · obtain rfl := List.mem_singleton.mp hentry
      exact NormalizedEventConsumer.isFill_demo_fill 6 h10 (by norm_num) (Or.inr ⟨rfl, rfl⟩)
  · decide +kernel
  · decide +kernel

end trading_platform.execution
