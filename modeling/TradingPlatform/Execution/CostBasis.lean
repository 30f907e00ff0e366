-- The cost of an order in its fill rows. A leg is stored with the quantity that
-- is new and with the average price of the whole order, so the rows add up to
-- the cost of the order only as long as the average price stays where it is.
import TradingPlatform.Lib.Average
import TradingPlatform.Execution.Redelivery

open resumption ledger average
open trading_platform.shared

namespace trading_platform.execution

/-! ## Costs and reports -/

/-- What the fill rows of an order cost. -/
def Db.cost (db : Db) (order_id : Nat) : ℚ :=
  ((db.fills.filter (·.order_id = order_id)).map fun f => f.price * f.qty).sum

/-- The event of an order of `orig` tells of all trades `seen` so far: their quantity and
their average price. -/
def Tells (client_order_id exchange_order_id : String) (orig : ℚ) (seen : List (Lot ℚ))
    (entry : EventEntry) : Prop :=
  match entry.event with
  | .user_order symbol data =>
    data.client_order_id = client_order_id ∧ data.exchange_order_id = exchange_order_id ∧
      (data.order_status = "PARTIALLY_FILLED" ∧ size seen < orig ∨
        data.order_status = "FILLED" ∧ size seen = orig) ∧
      ∃ report, data.report symbol = .ok report ∧ report.cumulative_filled_qty = size seen ∧
        report.avg_price = mean seen ∧ report.orig_qty = orig
  | _ => False

/-- Each event comes with the trades since the one before it. -/
def ToldInOrder (client_order_id exchange_order_id : String) (orig : ℚ) :
    List (Lot ℚ) → List (List (Lot ℚ) × EventEntry) → Prop
  | _, [] => True
  | seen, r :: rest =>
    r.1 ≠ [] ∧ Proper r.1 ∧ Tells client_order_id exchange_order_id orig (seen ++ r.1) r.2 ∧
      ToldInOrder client_order_id exchange_order_id orig (seen ++ r.1) rest

/-- An order is never filled beyond its quantity. -/
theorem size_le_of_tells {client_order_id exchange_order_id : String} {orig : ℚ}
    {seen : List (Lot ℚ)} {entry : EventEntry}
    (h : Tells client_order_id exchange_order_id orig seen entry) : size seen ≤ orig := by
  unfold Tells at h
  split at h
  · obtain ⟨-, -, ⟨-, hlt⟩ | ⟨-, heq⟩, -⟩ := h
    · exact hlt.le
    · exact heq.le
  · exact absurd h id

/-- The time of the trade of an event. -/
def timeOf (entry : EventEntry) : Nat :=
  match entry.event with
  | .user_order _ data => data.trade_time_ms
  | _ => 0

/-- The key of the leg that an event of the order is stored under. -/
def legKey (exchange_order_id : String) (entry : EventEntry) : String :=
  s!"{exchange_order_id}:t{timeOf entry}"

theorem legKey_inj {exchange_order_id : String} {e e' : EventEntry}
    (h : legKey exchange_order_id e = legKey exchange_order_id e') : timeOf e = timeOf e' := by
  unfold legKey at h
  exact repr_inj ((String.append_right_inj _).mp h)

/-- The key of the leg of a report. -/
theorem report_key {data : UserOrder} {symbol : String} {report : FillReport}
    (h : data.report symbol = .ok report) :
    report.exchange_trade_id = s!"{data.exchange_order_id}:t{data.trade_time_ms}" := by
  obtain ⟨-, h1, h2, h3, h4, h5⟩ := NormalizedEventConsumer.report_ok h
  unfold UserOrder.report at h
  rw [h1, h2, h3, h4, h5] at h
  rw [← Except.ok.inj h]
  rfl

/-- The fill rows cost what the event says: its quantity at its average price. -/
def Basis (db : Db) (entry : EventEntry) : Prop :=
  match entry.event with
  | .user_order symbol data =>
    match data.report symbol, db.orders.find? (·.client_order_id = data.client_order_id) with
    | .ok report, some order =>
      db.cost order.id = report.cumulative_filled_qty * report.avg_price
    | _, _ => False
  | _ => False

instance (db : Db) (entry : EventEntry) : Decidable (Basis db entry) := by
  obtain ⟨_, event⟩ := entry
  unfold Basis
  induction event using EventField.casesOn with
  | user_order symbol data =>
    dsimp only
    generalize data.report symbol = report
    generalize db.orders.find? (·.client_order_id = data.client_order_id) = order
    induction report using Except.casesOn <;> induction order using Option.casesOn <;>
      infer_instance
  | _ => infer_instance

theorem cost_of_fills {db db' : Db} (h : db'.fills = db.fills) (order_id : Nat) :
    db'.cost order_id = db.cost order_id := by
  unfold Db.cost
  rw [h]

theorem cost_snoc {db db' : Db} {fill : Fill} (h : db'.fills = db.fills ++ [fill]) :
    db'.cost fill.order_id = db.cost fill.order_id + fill.price * fill.qty := by
  unfold Db.cost
  rw [h]
  simp [List.filter_append]

/-- The order row of a state, but for its time. -/
theorem find_of_order_state {db : Db} {client_order_id : String} {order : Order}
    {fills : List Fill} {status : Option JobStatus}
    (h : db.order_state client_order_id = ⟨some order, fills, status⟩) :
    db.fills = fills ∧ ∃ row, db.orders.find? (·.client_order_id = client_order_id) = some row ∧
      row.id = order.id := by
  unfold Db.order_state at h
  rw [OrderState.mk.injEq] at h
  obtain ⟨horder, hfills, -⟩ := h
  obtain ⟨row, hrow, rfl⟩ := Option.map_eq_some_iff.mp horder
  exact ⟨hfills, row, hrow, rfl⟩

/-- A fill row passes when its value fits its column and its key is free. -/
theorem insert_fill_passes_iff {db : Db} {client_order_id : String} {job : ExecutionJob}
    {order : Order} (hrow : Rows db client_order_id job order) (report : FillReport) (leg : ℚ) :
    (insert_fill (report.fill job order leg) db).isOk = true ↔
      (Decimal.quantize 8 (report.avg_price * leg)).isOk = true ∧
        report.exchange_trade_id ∉ db.trade_ids job.account_id := by
  have horder : db.orders.any (·.id = order.id) = true := by
    rw [List.any_eq_true]
    exact ⟨order, List.mem_of_find?_eq_some hrow.order_row, by simp⟩
  unfold insert_fill add_fill FillReport.fill
  dsimp only
  cases Decimal.quantize 8 (report.avg_price * leg) with
  | error e => simp [Except.isOk, Except.toBool]
  | ok quote_qty =>
    dsimp only
    rw [if_neg (by simp [horder]), if_neg (by simp [hrow.account_row])]
    have hkey : db.fills.any (fun f => f.account_id = job.account_id ∧
        f.exchange_trade_id = report.exchange_trade_id) = true ↔
          report.exchange_trade_id ∈ db.trade_ids job.account_id := by
      simp [Db.trade_ids, and_assoc]
    by_cases hfree : report.exchange_trade_id ∈ db.trade_ids job.account_id
    · rw [if_pos (hkey.mpr hfree)]
      simp [hfree, Except.isOk, Except.toBool]
    · rw [if_neg fun h => hfree (hkey.mp h)]
      simp [hfree, Except.isOk, Except.toBool]

namespace NormalizedEventConsumer

variable (self : NormalizedEventConsumer)

/-- The ack behind an event leaves the tables as they are. -/
theorem after_process_db {entry : EventEntry} {symbol : String} {data : UserOrder} (w : World)
    (hentry : entry.event = .user_order symbol data) :
    (w.after (self.process entry)).db = (w.after (self.handle_user_order symbol data)).db := by
  have h : w.Alone (self.process entry) fun _ w' =>
      w'.db = (w.after (self.handle_user_order symbol data)).db := by
    unfold process
    rw [hentry, World.Alone, alone_bind]
    have hhandle : w.Alone (self.handle_user_order symbol data) fun _ w' =>
        w'.db = (w.after (self.handle_user_order symbol data)).db := rfl
    refine alone_mono hhandle fun r w' h => ?_
    cases r with
    | error e => exact h
    | ok _ => exact self.alone_ack fun redis => h
  exact h

/-! ## One event -/

/-- The order is open. Its row is at the quantity of the trades `seen`, its fill rows cost
what these trades cost, and `keys` are the keys in use. -/
def Booked (client_order_id : String) (keys : List String) (seen : List (Lot ℚ)) (db : Db) : Prop :=
  ∃ job order, Rows db client_order_id job order ∧ job.status ∈ openStatuses ∧
    order.filled_qty = size seen ∧ db.trade_ids job.account_id = keys ∧
      db.cost order.id = cost seen

/-- A leg that is stored: its key is free and its value fits. -/
def Stored (keys : List String) (exchange_order_id : String) (seen new : List (Lot ℚ))
    (entry : EventEntry) : Prop :=
  legKey exchange_order_id entry ∉ keys ∧
    (Decimal.quantize 8 (mean (seen ++ new) * size new)).isOk = true

instance (keys : List String) (exchange_order_id : String) (seen new : List (Lot ℚ))
    (entry : EventEntry) : Decidable (Stored keys exchange_order_id seen new entry) :=
  inferInstanceAs (Decidable (_ ∧ _))

section Step

variable {w : World} {client_order_id exchange_order_id : String} {orig : ℚ} {keys : List String}
  {seen new : List (Lot ℚ)} {entry : EventEntry}

/-- The leg that an event of an open order adds. -/
structure AddsLeg (consumer : NormalizedEventConsumer) (db : Db) (exchange_order_id : String)
    (seen new : List (Lot ℚ)) (entry : EventEntry) (symbol : String) (data : UserOrder)
    (job : ExecutionJob) (order : Order) (report : FillReport) : Prop where
  live : Live consumer db symbol data job order report
  higher : order.filled_qty < report.cumulative_filled_qty
  qty : report.cumulative_filled_qty - order.filled_qty = size new
  price : report.avg_price = mean (seen ++ new)
  key : report.exchange_trade_id = legKey exchange_order_id entry
  passes : (insert_fill (report.fill job order
    (report.cumulative_filled_qty - order.filled_qty)) db).isOk = true ↔
      Stored (db.trade_ids job.account_id) exchange_order_id seen new entry

section Leg

variable {symbol : String} {data : UserOrder} {job : ExecutionJob} {order : Order}
  {report : FillReport}

theorem adds_leg (hrepo : self.repository = true) (hours : is_ours data.client_order_id = true)
    (hnew : Proper new) (hne : new ≠ []) (hrow : Rows w.db data.client_order_id job order)
    (hs : job.status ∈ openStatuses) (hlevel : order.filled_qty = size seen)
    (hentry : entry.event = .user_order symbol data)
    (hx : data.exchange_order_id = exchange_order_id) (hreport : data.report symbol = .ok report)
    (hz : report.cumulative_filled_qty = size (seen ++ new))
    (hprice : report.avg_price = mean (seen ++ new)) :
    AddsLeg self w.db exchange_order_id seen new entry symbol data job order report := by
  have hleg : report.cumulative_filled_qty - order.filled_qty = size new := by
    rw [hlevel, hz, size_append]
    ring
  have hkey : report.exchange_trade_id = legKey exchange_order_id entry := by
    rw [report_key hreport, hx]
    unfold legKey timeOf
    rw [hentry]
  refine ⟨⟨hrepo, hours, hrow.job_row, ?_, hreport, hrow.order_row⟩, ?_, hleg, hprice, hkey, ?_⟩
  · simp only [openStatuses, List.mem_cons, List.not_mem_nil, or_false] at hs
    rcases hs with h | h <;> rw [h] <;> rfl
  · have hpos := size_pos hnew hne
    rw [← hleg] at hpos
    linarith
  · rw [insert_fill_passes_iff hrow, hleg, hprice, hkey]
    exact and_comm

/-- A leg that is stored is one fill row more, at the price of the event. -/
theorem after_stored
    (h : AddsLeg self w.db exchange_order_id seen new entry symbol data job order report)
    (hstatus : data.order_status = "PARTIALLY_FILLED" ∨ data.order_status = "FILLED")
    (hst : Stored (w.db.trade_ids job.account_id) exchange_order_id seen new entry) :
    ∃ row status fill, row.id = order.id ∧ fill.order_id = order.id ∧
      fill.price = mean (seen ++ new) ∧ fill.qty = size new ∧
      (w.after (self.handle_user_order symbol data)).db.order_state data.client_order_id =
        ⟨some row, w.db.fills ++ [fill], status⟩ := by
  obtain ⟨db, hins⟩ := db_of_passes (h.passes.mpr hst)
  obtain ⟨-, -, fill, rfl, hfid, hfprice, hfqty⟩ := insert_fill_row hins
  rcases hstatus with hst' | hst'
  · have hafter := self.after_new_leg hst' ⟨h.live, h.higher, h.passes.mpr hst⟩ hins
    exact ⟨report.filled_row order 0 report.partial_order_status, _, fill, rfl, hfid,
      hfprice.trans h.price, hfqty.trans h.qty, hafter⟩
  · have hlast : LastLeg w.db job order report { w.db with fills := w.db.fills ++ [fill] } := by
      unfold LastLeg
      rw [if_pos ⟨h.higher, h.key ▸ hst.1⟩]
      exact hins
    exact ⟨report.filled_row order 0 "FILLED", _, fill, rfl, hfid, hfprice.trans h.price,
      hfqty.trans h.qty, self.after_full_fill hst' h.live hlast⟩

/-- A leg that is not stored leaves the fill rows as they are. -/
theorem after_refused
    (h : AddsLeg self w.db exchange_order_id seen new entry symbol data job order report)
    (hrow : Rows w.db data.client_order_id job order)
    (hstatus : data.order_status = "PARTIALLY_FILLED" ∨ data.order_status = "FILLED")
    (hst : ¬ Stored (w.db.trade_ids job.account_id) exchange_order_id seen new entry) :
    ∃ row status, row.id = order.id ∧
      (w.after (self.handle_user_order symbol data)).db.order_state data.client_order_id =
        ⟨some row, w.db.fills, status⟩ := by
  have hstate : w.db.order_state data.client_order_id =
      ⟨some order.untimed, w.db.fills, some job.status⟩ :=
    Stands.order_state ⟨hrow.order_row, rfl, job, hrow.job_row, rfl, rfl⟩
  obtain ⟨n, hn⟩ := w.exists_stopped (self.handle_user_order symbol data)
  rcases hstatus with hst' | hst'
  · have hold : ¬ NewLeg self w.db symbol data job order report :=
      fun h' => hst (h.passes.mp h'.passes)
    have hidle := self.stopped_partial_of_not_new h.live hst' hold n
    rw [hn n le_rfl] at hidle
    refine ⟨order.untimed, some job.status, rfl, ?_⟩
    rw [hidle]
    exact hstate
  · by_cases hfree : report.exchange_trade_id ∈ w.db.trade_ids job.account_id
    · have hlast : LastLeg w.db job order report w.db := by
        unfold LastLeg
        rw [if_neg fun h' => h'.2 hfree]
      exact ⟨report.filled_row order 0 "FILLED", _, rfl, self.after_full_fill hst' h.live hlast⟩
    · have hnone : ∀ db, ¬ LastLeg w.db job order report db := by
        intro db hdb
        unfold LastLeg at hdb
        rw [if_pos ⟨h.higher, hfree⟩] at hdb
        refine hst (h.passes.mp ?_)
        rw [hdb]
        rfl
      have hidle := self.stopped_full_of_no_leg hst' h.live hnone n
      rw [hn n le_rfl] at hidle
      refine ⟨order.untimed, some job.status, rfl, ?_⟩
      rw [hidle]
      exact hstate

end Leg

/-- What an event leaves: the order row, and one fill row more if the leg is stored. -/
theorem process_books (hrepo : self.repository = true) (hours : is_ours client_order_id = true)
    (hnew : Proper new) (hne : new ≠ []) (hbooked : Booked client_order_id keys seen w.db)
    (htells : Tells client_order_id exchange_order_id orig (seen ++ new) entry) :
    ∃ order, (w.after (self.process entry)).db.orders.find?
        (·.client_order_id = client_order_id) = some order ∧
      (w.after (self.process entry)).db.cost order.id =
        cost seen + (if Stored keys exchange_order_id seen new entry then
          mean (seen ++ new) * size new else 0) := by
  obtain ⟨job, order, hrow, hs, hlevel, rfl, hcost⟩ := hbooked
  unfold Tells at htells
  split at htells
  next symbol data hentry =>
    obtain ⟨rfl, hx, hstatus, report, hreport, hz, hprice, -⟩ := htells
    rw [self.after_process_db w hentry]
    have hleg := self.adds_leg hrepo hours hnew hne hrow hs hlevel hentry hx hreport hz hprice
    have hfills := hstatus.imp And.left And.left
    by_cases hst : Stored (w.db.trade_ids job.account_id) exchange_order_id seen new entry
    · obtain ⟨row, status, fill, hid, hfid, hp, hq, hstate⟩ := self.after_stored hleg hfills hst
      obtain ⟨hrows, row', hrow', hid'⟩ := find_of_order_state hstate
      refine ⟨row', hrow', ?_⟩
      have hfill : fill.order_id = row'.id := hfid.trans (hid'.trans hid).symm
      have hold : w.db.cost fill.order_id = cost seen := (congrArg w.db.cost hfid).trans hcost
      rw [if_pos hst, ← hfill, cost_snoc hrows, hp, hq, hold]
    · obtain ⟨row, status, hid, hstate⟩ := self.after_refused hleg hrow hfills hst
      obtain ⟨hrows, row', hrow', hid'⟩ := find_of_order_state hstate
      refine ⟨row', hrow', ?_⟩
      rw [if_neg hst, add_zero, cost_of_fills hrows, hid', hid, hcost]
  next => exact absurd htells id

/-- The cost is right after an event exactly when its leg is stored and its trades have
the average price of the ones before. -/
theorem basis_after_iff (hrepo : self.repository = true) (hours : is_ours client_order_id = true)
    (hseen : Proper seen) (hnew : Proper new) (hne : new ≠ [])
    (hbooked : Booked client_order_id keys seen w.db)
    (htells : Tells client_order_id exchange_order_id orig (seen ++ new) entry) :
    Basis (w.after (self.process entry)).db entry ↔
      Stored keys exchange_order_id seen new entry ∧ (seen ≠ [] → mean new = mean seen) := by
  obtain ⟨order, horder, hcost⟩ := self.process_books hrepo hours hnew hne hbooked htells
  have hpos := size_pos hnew hne
  have hall : size (seen ++ new) * mean (seen ++ new) = cost (seen ++ new) := by
    rw [mul_comm, mean_mul_size]
    rw [size_append]
    have := size_nonneg hseen
    linarith
  have hbasis : Basis (w.after (self.process entry)).db entry ↔
      (w.after (self.process entry)).db.cost order.id = cost (seen ++ new) := by
    unfold Tells at htells
    unfold Basis
    split at htells
    next symbol data hentry =>
      obtain ⟨rfl, -, -, report, hreport, hz, hprice, -⟩ := htells
      rw [hreport, horder]
      dsimp only
      rw [hz, hprice, hall]
    next => exact absurd htells id
  rw [hbasis, hcost]
  by_cases hst : Stored keys exchange_order_id seen new entry
  · rw [if_pos hst]
    by_cases hnil : seen = []
    · subst hnil
      refine iff_of_true ?_ ⟨hst, fun h => absurd rfl h⟩
      rw [cost_nil, zero_add]
      exact mean_mul_size (ne_of_gt hpos)
    · rw [cost_at_mean_iff (size_pos hseen hnil) hpos]
      exact ⟨fun h => ⟨hst, fun _ => h⟩, fun h => h.2 hnil⟩
  · rw [if_neg hst, add_zero, cost_append]
    have hgrow := cost_pos hnew hne
    refine iff_of_false (fun h => ?_) fun h => hst h.1
    linarith

/-- An open order stays open under a partial fill whose leg is stored. -/
theorem booked_after (hrepo : self.repository = true) (hours : is_ours client_order_id = true)
    (hseen : Proper seen) (hnew : Proper new) (hne : new ≠ [])
    (hbooked : Booked client_order_id keys seen w.db)
    (htells : Tells client_order_id exchange_order_id orig (seen ++ new) entry)
    (hlt : size (seen ++ new) < orig) (hst : Stored keys exchange_order_id seen new entry)
    (hmean : seen ≠ [] → mean new = mean seen) :
    Booked client_order_id (keys ++ [legKey exchange_order_id entry]) (seen ++ new)
      (w.after (self.process entry)).db := by
  obtain ⟨order', horder', hcost'⟩ := self.process_books hrepo hours hnew hne hbooked htells
  rw [if_pos hst] at hcost'
  obtain ⟨job, order, hrow, hs, hlevel, rfl, hcost⟩ := hbooked
  unfold Tells at htells
  split at htells
  next symbol data hentry =>
    obtain ⟨rfl, hx, hstatus, report, hreport, hz, hprice, horig⟩ := htells
    have hpartial : data.order_status = "PARTIALLY_FILLED" := by
      rcases hstatus with ⟨h, -⟩ | ⟨-, h⟩
      · exact h
      · linarith
    have hpos := size_pos hnew hne
    have hkey :=
      (self.adds_leg hrepo hours hnew hne hrow hs hlevel hentry hx hreport hz hprice).key
    -- the ledger of the order takes one more leg, or the event raised and changed nothing
    have hend : Recorded (w.after (self.process entry)).db data.client_order_id openStatuses
        ((ledgerOf w.db job order).advance report.exchange_trade_id
          report.cumulative_filled_qty) ∨ (w.after (self.process entry)).db = w.db := by
      have h : w.Alone (self.process entry) fun _ w' =>
          Recorded w'.db data.client_order_id openStatuses ((ledgerOf w.db job order).advance
            report.exchange_trade_id report.cumulative_filled_qty) ∨ w'.db = w.db := by
        refine self.alone_process_of_job hentry hrepo hours hrow.job_row (fun _ _ => Or.inr rfl)
          fun _ => ?_
        rw [self.dispatch_of_partial hpartial hreport]
        refine alone_mono (self.alone_handle_partial_fill hrow hs report (report_ok hreport).1
          (by rw [hz, horig]; exact hlt)) fun r w' h => ?_
        cases r with
        | ok _ => exact fun redis => Or.inl h
        | error e => exact Or.inr h
      exact h
    rcases hend with hrec | hsame
    · obtain ⟨job', order'', hrow', hs', hledger⟩ := hrec
      have hadv : (ledgerOf w.db job order).advance report.exchange_trade_id
          report.cumulative_filled_qty = (ledgerOf w.db job order).leg report.exchange_trade_id
            report.cumulative_filled_qty := by
        refine if_neg fun h => ?_
        rcases h with h | h
        · have hle : report.cumulative_filled_qty ≤ order.filled_qty := h
          rw [hz, hlevel, size_append] at hle
          linarith
        · rw [hkey] at h
          exact hst.1 h
      rw [hadv, Ledger.leg, ledgerOf, Ledger.mk.injEq] at hledger
      obtain ⟨hkeys, -, hlevel'⟩ := hledger
      refine ⟨job', order'', hrow', hs', hlevel'.trans hz, ?_, ?_⟩
      · rw [hkeys, hkey]
        rfl
      · rw [show order'' = order' from Option.some.inj (hrow'.order_row.symm.trans horder'), hcost']
        by_cases hnil : seen = []
        · subst hnil
          rw [cost_nil, zero_add]
          exact mean_mul_size (ne_of_gt hpos)
        · exact (cost_at_mean_iff (size_pos hseen hnil) hpos).mpr (hmean hnil)
    · -- but a leg that is stored changes the cost
      rw [hsame] at horder' hcost'
      rw [show order' = order from Option.some.inj (horder'.symm.trans hrow.order_row), hcost]
        at hcost'
      have hne' : seen ++ new ≠ [] := by simp [hne]
      have hmpos := mul_pos (mean_pos (proper_append.mpr ⟨hseen, hnew⟩) hne') hpos
      linarith
  next => exact absurd htells id

end Step

/-! ## Every sequence of events -/

/-- The fill rows cost what the event says after every event. -/
def BasisAfterEach : World → List EventEntry → Prop
  | _, [] => True
  | w, entry :: entries =>
    Basis (w.after (self.process entry)).db entry ∧
      BasisAfterEach (w.after (self.process entry)) entries

instance decidableBasisAfterEach : ∀ (w : World) (entries : List EventEntry),
    Decidable (self.BasisAfterEach w entries)
  | _, [] => isTrue trivial
  | w, entry :: entries =>
    haveI := decidableBasisAfterEach (w.after (self.process entry)) entries
    inferInstanceAs (Decidable (_ ∧ _))

/-- All trades were made at the average price `p`, event by event, and their legs can be
stored: no key is in use before, and each value fits. -/
def AtOnePrice (keys : List String) (exchange_order_id : String) (p : ℚ)
    (reports : List (List (Lot ℚ) × EventEntry)) : Prop :=
  ∀ r ∈ reports, mean r.1 = p ∧ legKey exchange_order_id r.2 ∉ keys ∧
    (Decimal.quantize 8 (p * size r.1)).isOk = true

section Run

variable {client_order_id exchange_order_id : String} {orig : ℚ}

/-- The run from an open order. `p` is the average price of the trades so far, or of the
first event when there are none. -/
theorem basis_after_each_iff (hrepo : self.repository = true)
    (hours : is_ours client_order_id = true) {p : ℚ}
    (reports : List (List (Lot ℚ) × EventEntry)) {w : World} {keys past : List String}
    {seen : List (Lot ℚ)} (hseen : Proper seen) (hp : seen ≠ [] → mean seen = p)
    (hfirst : seen = [] → ∀ r ∈ reports.head?, mean r.1 = p)
    (hbooked : Booked client_order_id (keys ++ past) seen w.db)
    (hpast : ∀ r ∈ reports, legKey exchange_order_id r.2 ∉ past)
    (htimes : (reports.map fun r => timeOf r.2).Nodup)
    (htold : ToldInOrder client_order_id exchange_order_id orig seen reports) :
    self.BasisAfterEach w (reports.map (·.2)) ↔ AtOnePrice keys exchange_order_id p reports := by
  induction reports generalizing w past seen with
  | nil => exact iff_of_true trivial fun r hr => by cases hr
  | cons r rest ih =>
    obtain ⟨hnew, hproper, htells, hrest⟩ := htold
    have hbasis := self.basis_after_iff hrepo hours hseen hproper hnew hbooked htells
    rw [List.map_cons, List.nodup_cons] at htimes
    have hmean : mean r.1 = p → mean (seen ++ r.1) = p := by
      intro h
      by_cases hne : seen = []
      · rw [hne]
        exact h
      · rw [← hp hne] at h ⊢
        exact (mean_append_eq_left_iff (size_pos hseen hne) (size_pos hproper hnew)).mpr h
    have hstep : (seen ≠ [] → mean r.1 = mean seen) ↔ mean r.1 = p := by
      by_cases hne : seen = []
      · exact iff_of_true (fun h => absurd hne h) (hfirst hne r rfl)
      · rw [hp hne]
        exact ⟨fun h => h hne, fun h _ => h⟩
    -- the condition on the first event
    have hhead : Stored (keys ++ past) exchange_order_id seen r.1 r.2 ∧
        (seen ≠ [] → mean r.1 = mean seen) ↔
          mean r.1 = p ∧ legKey exchange_order_id r.2 ∉ keys ∧
            (Decimal.quantize 8 (p * size r.1)).isOk = true := by
      have hfree : legKey exchange_order_id r.2 ∉ keys ++ past ↔
          legKey exchange_order_id r.2 ∉ keys := by
        simp [hpast r (by simp)]
      unfold Stored
      rw [hfree, hstep]
      constructor
      · rintro ⟨⟨hkey, hfits⟩, h⟩
        rw [hmean h] at hfits
        exact ⟨h, hkey, hfits⟩
      · rintro ⟨h, hkey, hfits⟩
        rw [hmean h]
        exact ⟨⟨hkey, hfits⟩, h⟩
    have hall : AtOnePrice keys exchange_order_id p (r :: rest) ↔
        (mean r.1 = p ∧ legKey exchange_order_id r.2 ∉ keys ∧
          (Decimal.quantize 8 (p * size r.1)).isOk = true) ∧
          AtOnePrice keys exchange_order_id p rest := by
      unfold AtOnePrice
      exact List.forall_mem_cons
    rw [hall, ← hhead, ← hbasis]
    refine and_congr_right fun hb => ?_
    obtain ⟨hst, hsame⟩ := hbasis.mp hb
    rcases (size_le_of_tells htells).lt_or_eq with hlt | heq
    · -- the order is open still
      have hbooked' := self.booked_after hrepo hours hseen hproper hnew hbooked htells hlt hst hsame
      rw [List.append_assoc] at hbooked'
      refine ih (proper_append.mpr ⟨hseen, hproper⟩) (fun _ => hmean (hstep.mp hsame))
        (fun h => absurd (List.append_eq_nil_iff.mp h).2 hnew) hbooked' (fun r' hr' hmem => ?_)
        htimes.2 hrest
      rcases List.mem_append.mp hmem with h | h
      · exact hpast r' (by simp [hr']) h
      · have htime := legKey_inj (List.mem_singleton.mp h)
        exact htimes.1 (List.mem_map.mpr ⟨r', hr', htime⟩)
    · -- the order is done, and no event follows
      cases rest with
      | nil => exact iff_of_true trivial fun r hr => by cases hr
      | cons r' rest =>
        obtain ⟨hnew', hproper', htells', -⟩ := hrest
        have hle := size_le_of_tells htells'
        have hpos := size_pos hproper' hnew'
        rw [size_append, heq] at hle
        linarith

/-- For every sequence of fill events of one order, each with the exact average of all
trades so far: the fill rows cost the quantity at the average price after every event
exactly when all events are about trades at one price, and their legs can be stored. -/
theorem cost_basis_is_conserved_iff (hrepo : self.repository = true) (w : World)
    (hw : Unfilled client_order_id w) (reports : List (List (Lot ℚ) × EventEntry))
    (htimes : (reports.map fun r => timeOf r.2).Nodup)
    (htold : ToldInOrder client_order_id exchange_order_id orig [] reports) :
    self.BasisAfterEach w (reports.map (·.2)) ↔
      ∃ p, ∀ job, w.db.jobs.find? (·.deterministic_client_order_id = client_order_id) = some job →
        AtOnePrice (w.db.trade_ids job.account_id) exchange_order_id p reports := by
  obtain ⟨hours, job, order, hrow, hs, hzero, hno⟩ := hw
  have hjob (p : ℚ) : (∀ job', w.db.jobs.find?
      (·.deterministic_client_order_id = client_order_id) = some job' →
        AtOnePrice (w.db.trade_ids job'.account_id) exchange_order_id p reports) ↔
      AtOnePrice (w.db.trade_ids job.account_id) exchange_order_id p reports := by
    refine ⟨fun h => h job hrow.job_row, fun h job' hjob' => ?_⟩
    rw [show job' = job from Option.some.inj (hjob'.symm.trans hrow.job_row)]
    exact h
  simp only [hjob]
  have hbooked : Booked client_order_id (w.db.trade_ids job.account_id) [] w.db := by
    refine ⟨job, order, hrow, ?_, hzero, rfl, ?_⟩
    · rw [hs]
      decide
    · have hnil : w.db.fills.filter (fun f => decide (f.order_id = order.id)) = [] := by
        rw [List.filter_eq_nil_iff]
        exact fun f hf => by simpa using hno f hf
      unfold Db.cost
      rw [hnil]
      rfl
  rw [← List.append_nil (w.db.trade_ids job.account_id)] at hbooked
  have hrun (p : ℚ) (hfirst : ∀ r ∈ reports.head?, mean r.1 = p) :=
    self.basis_after_each_iff (p := p) hrepo hours reports (fun l hl => by cases hl)
      (fun h => absurd rfl h) (fun _ => hfirst) hbooked (fun r _ => List.not_mem_nil) htimes htold
  constructor
  · intro h
    cases reports with
    | nil => exact ⟨0, fun r hr => by cases hr⟩
    | cons r rest =>
      refine ⟨mean r.1, (hrun _ fun r' hr' => ?_).mp h⟩
      rw [List.head?_cons, Option.mem_some_iff] at hr'
      rw [hr']
  · rintro ⟨p, h⟩
    exact (hrun p fun r hr => (h r (List.mem_of_mem_head? hr)).1).mpr h

end Run

/-! ## Two trades of an order of 10 -/

/-- A fill of the order of 10 with its average price. -/
def demo_trade (order_status filled_qty avg_price : String) (trade_time_ms : Nat) : EventEntry where
  msg_id := "9-0"
  event := .user_order "BTCUSDT" {
    client_order_id := "tp2-7"
    exchange_order_id := "x"
    order_status
    filled_qty
    orig_qty := "10"
    avg_price
    trade_time_ms }

/-- 4 at 100, and then 6 at the price that makes the average `avg_price`. -/
def demo_trades (avg_price : String) (price : ℚ) : List (List (Lot ℚ) × EventEntry) :=
  [([⟨100, 4⟩], demo_trade "PARTIALLY_FILLED" "4" "100" 5),
    ([⟨price, 6⟩], demo_trade "FILLED" "10" avg_price 6)]

theorem tells_demo_trade {status filled_qty avg_price : String} {seen : List (Lot ℚ)} (t : Nat)
    (hstatus : status = "PARTIALLY_FILLED" ∧ size seen < 10 ∨ status = "FILLED" ∧ size seen = 10)
    (hsize : Decimal.ofText filled_qty = .ok (size seen))
    (hmean : Decimal.ofText avg_price = .ok (mean seen)) :
    Tells "tp2-7" "x" 10 seen (demo_trade status filled_qty avg_price t) := by
  have h10 : Decimal.ofText "10" = .ok 10 := by decide +kernel
  have h0 : Decimal.ofText "0" = .ok 0 := by decide +kernel
  refine ⟨rfl, rfl, hstatus, ⟨"tp2-7", "x", size seen, 10, mean seen, 0, "USDT", 0, t, "BTCUSDT"⟩,
    ?_, rfl, rfl, rfl⟩
  unfold UserOrder.report
  rw [hsize, hmean, h10, h0]
  rfl

theorem demo_trades_told {avg_price : String} {price : ℚ} (hpos : 0 < price)
    (hmean : Decimal.ofText avg_price = .ok ((400 + price * 6) / 10)) :
    ToldInOrder "tp2-7" "x" 10 [] (demo_trades avg_price price) := by
  have h4 : Decimal.ofText "4" = .ok 4 := by decide +kernel
  have h10 : Decimal.ofText "10" = .ok 10 := by decide +kernel
  have h100 : Decimal.ofText "100" = .ok 100 := by decide +kernel
  have hone : size [(⟨100, 4⟩ : Lot ℚ)] = 4 := by norm_num
  have htwo : size [(⟨100, 4⟩ : Lot ℚ), ⟨price, 6⟩] = 10 := by norm_num
  have hcost : mean [(⟨100, 4⟩ : Lot ℚ), ⟨price, 6⟩] = (400 + price * 6) / 10 := by
    unfold mean
    rw [htwo]
    norm_num
  refine ⟨by simp, by simp [Proper], tells_demo_trade 5 (Or.inl ⟨rfl, ?_⟩) ?_ ?_, by simp,
    by simp [Proper, hpos], tells_demo_trade 6 (Or.inr ⟨rfl, htwo⟩) ?_ ?_, trivial⟩
  · exact lt_of_eq_of_lt hone (by norm_num)
  · exact h4.trans (congrArg Except.ok hone.symm)
  · exact h100.trans (congrArg Except.ok (mean_singleton (l := ⟨100, 4⟩) (by norm_num)).symm)
  · exact h10.trans (congrArg Except.ok htwo.symm)
  · exact hmean.trans (congrArg Except.ok hcost.symm)

/-- 4 at 100 and 6 at 110 cost 1060. The second leg is stored at the average price 106, and
the rows cost 1036. -/
theorem two_trades_at_two_prices :
    ToldInOrder "tp2-7" "x" 10 [] (demo_trades "106" 110) ∧
      ¬ BasisAfterEach {} demo_open ((demo_trades "106" 110).map (·.2)) :=
  ⟨demo_trades_told (by norm_num)
    ((by decide +kernel : Decimal.ofText "106" = .ok 106).trans (by norm_num)),
    by decide +kernel⟩

/-- The same quantities at one price. -/
theorem two_trades_at_one_price :
    BasisAfterEach {} demo_open ((demo_trades "100" 100).map (·.2)) := by
  have h100 : Decimal.ofText "100" = .ok 100 := by decide +kernel
  refine (cost_basis_is_conserved_iff {} rfl demo_open unfilled_demo_open _ (by decide)
    (demo_trades_told (by norm_num) (h100.trans (by norm_num)))).mpr ⟨100, fun job _ => ?_⟩
  refine List.forall_mem_cons.mpr ⟨⟨mean_singleton (by norm_num), ?_, ?_⟩,
    List.forall_mem_cons.mpr ⟨⟨mean_singleton (by norm_num), ?_, ?_⟩, List.forall_mem_nil _⟩⟩
  · simp [demo_open, demo_world, Db.empty, Db.trade_ids]
  · decide +kernel
  · simp [demo_open, demo_world, Db.empty, Db.trade_ids]
  · decide +kernel

end NormalizedEventConsumer

end trading_platform.execution
