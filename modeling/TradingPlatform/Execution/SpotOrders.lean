-- The orders of the spot user data stream. `AccountStateWriter` stores each
-- executionReport in one transaction, and takes the price of the last execution
-- for the average price of the order.
import TradingPlatform.Lib.Average
import TradingPlatform.Execution.AccountStream
import TradingPlatform.Execution.IntentOnce

open average
open trading_platform.shared

namespace trading_platform.execution

/-- An executionReport, with the defaults of its fields. Amounts are texts. -/
structure ExecutionReport where
  client_order_id : String := ""
  exchange_order_id : String := ""
  symbol : String := ""
  side : String := "BUY"
  order_type : String := "MARKET"
  status : String := "NEW"
  qty : String := "0"
  filled_qty : String := "0"
  price : String := "0"
  /-- `L`, the price of the last execution: the average of the row and the price of the fill. -/
  last_price : String := "0"
  time_in_force : String := "GTC"
  /-- `O` and `T`, where they are there. -/
  created_ms : Option Nat := none
  updated_ms : Option Nat := none
  exec_type : String := ""
  trade_id : String := "-1"
  fill_qty : String := "0"
  commission : String := "0"
  commission_asset : String := "USDT"
  is_maker : Bool := false

namespace ExecutionReport

variable (report : ExecutionReport)

/-- The row of an order after a report. -/
def onto (now : Nat) (order : Order) (filled_qty : ℚ) (avg_fill : Option ℚ) : Order :=
  { order with
    status := report.status
    filled_qty
    avg_fill_price := avg_fill.or order.avg_fill_price
    exchange_order_id := some report.exchange_order_id
    updated_at_ms := report.updated_ms.getD now }

/-- The row of an order that a report is the first of. -/
def first_row (now : Nat) (account_id : Uuid) (id : Nat) (quantity filled_qty : ℚ)
    (price avg_fill : Option ℚ) : Order where
  id
  account_id
  exchange_order_id := some report.exchange_order_id
  client_order_id := report.client_order_id
  symbol := report.symbol
  market_type := "spot"
  side := report.side
  order_type := report.order_type
  status := report.status
  quantity
  filled_qty
  price
  avg_fill_price := avg_fill
  time_in_force := report.time_in_force
  created_at_ms := report.created_ms.getD now
  updated_at_ms := report.updated_ms.getD now

/-- The order row of a report. -/
def upsert_row (now : Nat) (account_id : Uuid) : Txn Nat := fun db => do
  let filled_qty ← Decimal.ofText report.filled_qty
  let avg_fill ← optionalPrice report.last_price
  match db.orders.find? (·.client_order_id = report.client_order_id) with
  | some order =>
    return (order.id, { db with
      orders := db.orders.map fun row =>
        if row.id = order.id then report.onto now row filled_qty avg_fill else row })
  | none =>
    let quantity ← Decimal.ofText report.qty
    let price ← optionalPrice report.price
    if ¬ db.accounts.any (·.id = account_id) then throw (integrity_error "account_id")
    else
      return (db.next_id, { db with
        next_id := db.next_id + 1
        orders := db.orders ++
          [report.first_row now account_id db.next_id quantity filled_qty price avg_fill] })

/-- The report is one of a trade. -/
def is_trade : Bool := report.exec_type = "TRADE" && report.trade_id ≠ "-1"

/-- The fill row of a trade, unless the account has one under its trade id. The product of
price and quantity comes first, and it raises when a text is no number. -/
def insert_row (now : Nat) (account_id : Uuid) (order_id : Nat) : Txn Unit := fun db => do
  let price ← Decimal.ofText report.last_price
  let qty ← Decimal.ofText report.fill_qty
  if report.trade_id ∈ db.trade_ids account_id then return ((), db)
  else
    let commission ← Decimal.ofText report.commission
    add_fill {
      order_id
      account_id
      exchange_trade_id := report.trade_id
      symbol := report.symbol
      side := report.side
      price
      qty
      quote_qty := price * qty
      commission
      commission_asset := if report.commission_asset = "" then "USDT" else report.commission_asset
      is_maker := report.is_maker
      timestamp_ms := report.updated_ms.getD now } db

end ExecutionReport

namespace AccountStateWriter

/-- `upsert_order_from_execution_report`: the order row and the fill row, committed together. -/
def upsert_order_from_execution_report (now : Nat) (account_id : Uuid) (report : ExecutionReport) :
    Txn Unit := fun db => do
  if report.client_order_id = "" ∨ report.symbol = "" then return ((), db)
  else
    let (order_id, db) ← report.upsert_row now account_id db
    if report.is_trade then report.insert_row now account_id order_id db
    else return ((), db)

/-- The listener handles one report. An exception is logged, and its transaction is lost. -/
def handle_execution_report (now : Nat) (account_id : Uuid) (report : ExecutionReport) (db : Db) :
    Db :=
  match upsert_order_from_execution_report now account_id report db with
  | .ok (_, db) => db
  | .error _ => db

end AccountStateWriter

/-! ## The reports of one order -/

/-- A report of the order, as the exchange sends it: its amounts are decimals, and its last
price is positive for a trade and zero otherwise, in any spelling. -/
structure ExecutionReport.IsOf (report : ExecutionReport) (client_order_id : String) : Prop where
  own : report.client_order_id = client_order_id
  symbol : report.symbol ≠ ""
  qty : ∃ q, Decimal.ofText report.qty = .ok q
  filled_qty : ∃ q, Decimal.ofText report.filled_qty = .ok q
  price : ∃ q, Decimal.ofText report.price = .ok q
  trade : report.exec_type = "TRADE" →
    (∃ p, Decimal.ofText report.last_price = .ok p ∧ 0 < p) ∧
    (∃ q, Decimal.ofText report.fill_qty = .ok q ∧ 0 < q) ∧
    ∃ c, Decimal.ofText report.commission = .ok c
  other : report.exec_type ≠ "TRADE" → Decimal.ofText report.last_price = .ok 0

/-- The trade of a report. -/
def ExecutionReport.trade (report : ExecutionReport) : Option (Lot ℚ) :=
  match Decimal.ofText report.last_price, Decimal.ofText report.fill_qty with
  | .ok p, .ok q => if report.exec_type = "TRADE" then some ⟨p, q⟩ else none
  | _, _ => none

/-- The trades of some reports. -/
def tradesOf (reports : List ExecutionReport) : List (Lot ℚ) := reports.filterMap (·.trade)

/-- The average price column of the order. -/
def Db.avg_fill_price (db : Db) (client_order_id : String) : Option ℚ :=
  (db.orders.find? (·.client_order_id = client_order_id)).bind (·.avg_fill_price)

/-- What the average price should be after the trades `seen`. -/
def vwap (seen : List (Lot ℚ)) : Option ℚ := if seen = [] then none else some (mean seen)

namespace AccountStateWriter

/-- The average price is right after every report. Each report comes with the time of its
arrival. -/
def AverageAfterEach (account_id : Uuid) (client_order_id : String) :
    Db → List (Lot ℚ) → List (Nat × ExecutionReport) → Prop
  | _, _, [] => True
  | db, seen, r :: rest =>
    let db' := handle_execution_report r.1 account_id r.2 db
    let seen' := seen ++ r.2.trade.toList
    db'.avg_fill_price client_order_id = vwap seen' ∧
      AverageAfterEach account_id client_order_id db' seen' rest

instance decidableAverageAfterEach (account_id : Uuid) (client_order_id : String) :
    ∀ (db : Db) (seen : List (Lot ℚ)) (reports : List (Nat × ExecutionReport)),
      Decidable (AverageAfterEach account_id client_order_id db seen reports)
  | _, _, [] => isTrue trivial
  | db, seen, r :: rest =>
    haveI := decidableAverageAfterEach account_id client_order_id
      (handle_execution_report r.1 account_id r.2 db) (seen ++ r.2.trade.toList) rest
    inferInstanceAs (Decidable (_ ∧ _))

section Step

variable {now : Nat} {account_id : Uuid} {client_order_id : String} {report : ExecutionReport}
  {db : Db}

/-- What the average column becomes: the last price, unless it is spelled `0`. -/
theorem upsert_row_avg (hr : report.IsOf client_order_id) {avg_fill : Option ℚ}
    (hacc : db.accounts.any (·.id = account_id) = true)
    (havg : optionalPrice report.last_price = .ok avg_fill) :
    ∃ order_id db', report.upsert_row now account_id db = .ok (order_id, db') ∧
      db'.accounts = db.accounts ∧ db'.fills = db.fills ∧
      db'.orders.any (·.id = order_id) = true ∧
      db'.avg_fill_price client_order_id = avg_fill.or (db.avg_fill_price client_order_id) := by
  obtain ⟨z, hz⟩ := hr.filled_qty
  obtain ⟨q, hq⟩ := hr.qty
  have hprice : ∃ price, optionalPrice report.price = .ok price := by
    obtain ⟨p, hp⟩ := hr.price
    unfold optionalPrice optionalAmount
    rw [hp]
    split_ifs <;> simp
  obtain ⟨price, hprice⟩ := hprice
  unfold ExecutionReport.upsert_row Db.avg_fill_price
  rw [hz, havg, hr.own]
  cases hfound : db.orders.find? (·.client_order_id = client_order_id) with
  | some order =>
    refine ⟨_, _, rfl, rfl, rfl, ?_, ?_⟩
    · rw [List.any_eq_true]
      refine ⟨report.onto now order z avg_fill, List.mem_map.mpr
        ⟨order, List.mem_of_find?_eq_some hfound, by simp⟩, by simp [ExecutionReport.onto]⟩
    · dsimp only
      rw [find?_map_of_keeps (fun o => by split <;> rfl), hfound]
      simp [ExecutionReport.onto]
  | none =>
    rw [hq, hprice]
    simp only [bind, Except.bind]
    rw [if_neg (by simp [hacc])]
    refine ⟨_, _, rfl, rfl, rfl, ?_, ?_⟩
    · simp [ExecutionReport.first_row]
    · dsimp only
      rw [List.find?_append, hfound]
      simp [ExecutionReport.first_row, hr.own]

/-- The fill row of a report of the order never fails. -/
theorem insert_row_passes (hr : report.IsOf client_order_id) {order_id : Nat}
    (htrade : report.is_trade = true) (hacc : db.accounts.any (·.id = account_id) = true)
    (horder : db.orders.any (·.id = order_id) = true) :
    ∃ db', report.insert_row now account_id order_id db = .ok ((), db') ∧
      db'.accounts = db.accounts ∧ db'.orders = db.orders := by
  have hexec : report.exec_type = "TRADE" := by
    unfold ExecutionReport.is_trade at htrade
    simp only [Bool.and_eq_true, decide_eq_true_eq] at htrade
    exact htrade.1
  obtain ⟨⟨p, hp, -⟩, ⟨q, hq, -⟩, c, hcom⟩ := hr.trade hexec
  unfold ExecutionReport.insert_row
  rw [hp, hq]
  simp only [bind, Except.bind]
  by_cases hkey : report.trade_id ∈ db.trade_ids account_id
  · rw [if_pos hkey]
    exact ⟨db, rfl, rfl, rfl⟩
  · rw [if_neg hkey, hcom]
    unfold add_fill
    have hfree : ¬ db.fills.any (fun f => f.account_id = account_id ∧
        f.exchange_trade_id = report.trade_id) = true := by
      simpa [Db.trade_ids] using hkey
    dsimp only
    rw [if_neg (by simp [horder]), if_neg (by simp [hacc]), if_neg hfree]
    exact ⟨_, rfl, rfl, rfl⟩

/-- A report of the order is stored. -/
theorem handle_report_avg (hc : client_order_id ≠ "") (hr : report.IsOf client_order_id)
    {avg_fill : Option ℚ} (hacc : db.accounts.any (·.id = account_id) = true)
    (havg : optionalPrice report.last_price = .ok avg_fill) :
    (handle_execution_report now account_id report db).accounts = db.accounts ∧
      (handle_execution_report now account_id report db).avg_fill_price client_order_id =
        avg_fill.or (db.avg_fill_price client_order_id) := by
  obtain ⟨order_id, db1, hrow, hacc1, -, horder, havg1⟩ := upsert_row_avg hr hacc havg
  have hskip : ¬ (report.client_order_id = "" ∨ report.symbol = "") := by
    rw [hr.own]
    exact fun h => h.elim hc hr.symbol
  unfold handle_execution_report upsert_order_from_execution_report
  rw [if_neg hskip, hrow]
  simp only [bind, Except.bind]
  by_cases htrade : report.is_trade = true
  · obtain ⟨db2, hfill, hacc2, horders2⟩ := insert_row_passes hr htrade
      (by rw [hacc1]; exact hacc) horder
    rw [if_pos htrade, hfill]
    refine ⟨hacc2.trans hacc1, ?_⟩
    rw [← havg1]
    unfold Db.avg_fill_price
    rw [horders2]
  · rw [if_neg htrade]
    exact ⟨hacc1, havg1⟩

end Step

/-! ## Which reports keep the average right -/

section Reports

variable {client_order_id : String} {report : ExecutionReport}

theorem shows_of_trade (hr : report.IsOf client_order_id) (h : report.exec_type = "TRADE") :
    ∃ l : Lot ℚ, report.trade = some l ∧ 0 < l.price ∧ 0 < l.size ∧
      Decimal.ofText report.last_price = .ok l.price ∧
      optionalPrice report.last_price = .ok (some l.price) := by
  obtain ⟨⟨p, hp, hpos⟩, ⟨q, hq, hqpos⟩, -⟩ := hr.trade h
  refine ⟨⟨p, q⟩, ?_, hpos, hqpos, hp, ?_⟩
  · unfold ExecutionReport.trade
    rw [hp, hq]
    exact if_pos h
  · have h0 : report.last_price ≠ "0" := by
      intro h0
      rw [h0, show Decimal.ofText "0" = .ok 0 by decide +kernel] at hp
      cases hp
      exact absurd hpos (lt_irrefl 0)
    have hempty : report.last_price ≠ "" := by
      intro he
      rw [he] at hp
      cases hp
    unfold optionalPrice optionalAmount
    rw [if_neg h0, if_neg hempty, hp]

theorem shows_of_other (hr : report.IsOf client_order_id) (h : report.exec_type ≠ "TRADE") :
    report.trade = none ∧ optionalPrice report.last_price =
      .ok (if report.last_price = "0" then none else some 0) := by
  have hzero := hr.other h
  constructor
  · unfold ExecutionReport.trade
    rw [hzero]
    cases Decimal.ofText report.fill_qty with
    | error e => rfl
    | ok q => exact if_neg h
  · unfold optionalPrice optionalAmount
    by_cases h0 : report.last_price = "0"
    · rw [if_pos h0, if_pos h0]
    · have hempty : report.last_price ≠ "" := by
        intro he
        rw [he] at hzero
        cases hzero
      rw [if_neg h0, if_neg h0, if_neg hempty, hzero]

/-- All trades are at the price `p`, and a report without a trade has the last price `0` in
this spelling. -/
def AtOneSpelling (p : ℚ) (reports : List (Nat × ExecutionReport)) : Prop :=
  ∀ r ∈ reports, (r.2.exec_type = "TRADE" → Decimal.ofText r.2.last_price = .ok p) ∧
    (r.2.exec_type ≠ "TRADE" → r.2.last_price = "0")

/-- The last price is the average exactly when all trades were at this price. -/
theorem vwap_snoc_iff {seen : List (Lot ℚ)} {l : Lot ℚ} (hseen : Proper seen) (hl : 0 < l.size) :
    some l.price = vwap (seen ++ [l]) ↔ (seen ≠ [] → mean seen = l.price) := by
  have hsize : 0 < size [l] := by simpa using hl
  unfold vwap
  rw [if_neg (by simp), Option.some.injEq, ← mean_singleton (ne_of_gt hl), eq_comm]
  by_cases hne : seen = []
  · subst hne
    simp
  · rw [mean_append_eq_right_iff (size_pos hseen hne) hsize]
    exact ⟨fun h _ => h, fun h => h hne⟩

/-- A report without a trade keeps the average exactly when its last price is spelled `0`. -/
theorem keeps_vwap_iff {seen : List (Lot ℚ)} (hseen : Proper seen) {text : String} :
    (if text = "0" then none else some (0 : ℚ)).or (vwap seen) = vwap seen ↔ text = "0" := by
  by_cases h0 : text = "0"
  · simp [h0]
  · rw [if_neg h0]
    refine iff_of_false (fun h => ?_) h0
    unfold vwap at h
    by_cases hne : seen = []
    · rw [if_pos hne] at h
      cases h
    · rw [if_neg hne] at h
      have hpos := mean_pos hseen hne
      have hzero : (0 : ℚ) = mean seen := Option.some.inj h
      linarith

/-- The run behind the trades `seen`. `p` is their average, or the price of the first trade
to come when there are none. -/
theorem average_after_each_iff {account_id : Uuid} (hc : client_order_id ≠ "") {p : ℚ}
    (reports : List (Nat × ExecutionReport)) {db : Db} {seen : List (Lot ℚ)}
    (hreports : ∀ r ∈ reports, r.2.IsOf client_order_id)
    (hacc : db.accounts.any (·.id = account_id) = true)
    (havg : db.avg_fill_price client_order_id = vwap seen) (hseen : Proper seen)
    (hp : seen ≠ [] → mean seen = p)
    (hfirst : seen = [] → ∀ l ∈ (tradesOf (reports.map (·.2))).head?, l.price = p) :
    AverageAfterEach account_id client_order_id db seen reports ↔ AtOneSpelling p reports := by
  induction reports generalizing db seen with
  | nil => exact iff_of_true trivial fun r hr => by cases hr
  | cons r rest ih =>
    have hr := hreports r (by simp)
    have hrest : ∀ r' ∈ rest, r'.2.IsOf client_order_id := fun r' hr' => hreports r' (by simp [hr'])
    have hcons : AtOneSpelling p (r :: rest) ↔
        ((r.2.exec_type = "TRADE" → Decimal.ofText r.2.last_price = .ok p) ∧
          (r.2.exec_type ≠ "TRADE" → r.2.last_price = "0")) ∧ AtOneSpelling p rest :=
      List.forall_mem_cons
    unfold AverageAfterEach
    rw [hcons]
    by_cases htrade : r.2.exec_type = "TRADE"
    · -- a trade sets the average to its own price
      obtain ⟨l, hl, hprice, hsize, htext, hshown⟩ := shows_of_trade hr htrade
      obtain ⟨hacc', havg'⟩ := handle_report_avg hc hr hacc hshown
      have htrades : tradesOf ((r :: rest).map (·.2)) = l :: tradesOf (rest.map (·.2)) := by
        unfold tradesOf
        rw [List.map_cons, List.filterMap_cons_some hl]
      have hright : some l.price = vwap (seen ++ [l]) ↔ l.price = p := by
        rw [vwap_snoc_iff hseen hsize]
        by_cases hne : seen = []
        · refine iff_of_true (fun h => absurd hne h) (hfirst hne l ?_)
          rw [htrades]
          rfl
        · rw [hp hne]
          exact ⟨fun h => (h hne).symm, fun h _ => h.symm⟩
      have hhead : ((r.2.exec_type = "TRADE" → Decimal.ofText r.2.last_price = .ok p) ∧
          (r.2.exec_type ≠ "TRADE" → r.2.last_price = "0")) ↔ l.price = p := by
        rw [htext]
        exact ⟨fun h => Except.ok.inj (h.1 htrade), fun h => ⟨fun _ => congrArg _ h,
          fun hno => absurd htrade hno⟩⟩
      dsimp only
      rw [hl, Option.toList_some, havg', Option.some_or, hright, hhead]
      refine and_congr_right fun hlp => ?_
      have hvwap := hright.mpr hlp
      refine ih hrest (by rw [hacc']; exact hacc) (havg'.trans hvwap)
        (proper_append.mpr ⟨hseen, fun x hx => ?_⟩) (fun hne => ?_) fun hnil => ?_
      · rw [List.mem_singleton.mp hx]
        exact ⟨hprice, hsize⟩
      · unfold vwap at hvwap
        rw [if_neg hne, Option.some.injEq] at hvwap
        exact hvwap.symm.trans hlp
      · simp at hnil
    · -- a report without a trade keeps it, or sets it to zero
      obtain ⟨hnone, hshown⟩ := shows_of_other hr htrade
      obtain ⟨hacc', havg'⟩ := handle_report_avg hc hr hacc hshown
      have htrades : tradesOf ((r :: rest).map (·.2)) = tradesOf (rest.map (·.2)) := by
        unfold tradesOf
        rw [List.map_cons, List.filterMap_cons_none hnone]
      have hhead : ((r.2.exec_type = "TRADE" → Decimal.ofText r.2.last_price = .ok p) ∧
          (r.2.exec_type ≠ "TRADE" → r.2.last_price = "0")) ↔ r.2.last_price = "0" :=
        ⟨fun h => h.2 htrade, fun h => ⟨fun h' => absurd h' htrade, fun _ => h⟩⟩
      dsimp only
      rw [hnone, Option.toList_none, List.append_nil, havg', havg, keeps_vwap_iff hseen, hhead]
      refine and_congr_right fun h0 => ?_
      refine ih hrest (by rw [hacc']; exact hacc) ?_ hseen hp fun hnil l hl => ?_
      · rw [havg', havg]
        exact (keeps_vwap_iff hseen).mpr h0
      · rw [← htrades] at hl
        exact hfirst hnil l hl

/-- For every sequence of reports of one spot order from no row on: the average price is the
volume-weighted average of the trades after every report exactly when all trades are at one
price and each report without a trade spells its last price `0`. -/
theorem spot_average_is_right_iff (account_id : Uuid) (db : Db) (hc : client_order_id ≠ "")
    (hacc : db.accounts.any (·.id = account_id) = true)
    (hnew : db.orders.find? (·.client_order_id = client_order_id) = none)
    (reports : List (Nat × ExecutionReport))
    (hreports : ∀ r ∈ reports, r.2.IsOf client_order_id) :
    AverageAfterEach account_id client_order_id db [] reports ↔ ∃ p, AtOneSpelling p reports := by
  have havg : db.avg_fill_price client_order_id = vwap [] := by
    unfold Db.avg_fill_price
    rw [hnew]
    rfl
  have hrun (p : ℚ) (hfirst : ∀ l ∈ (tradesOf (reports.map (·.2))).head?, l.price = p) :=
    average_after_each_iff (p := p) hc reports hreports hacc havg (fun l hl => by cases hl)
      (fun h => absurd rfl h) fun _ => hfirst
  constructor
  · intro h
    cases htrades : tradesOf (reports.map (·.2)) with
    | nil => exact ⟨0, (hrun 0 (by simp [htrades])).mp h⟩
    | cons l rest => exact ⟨l.price, (hrun l.price (by simp [htrades])).mp h⟩
  · rintro ⟨p, h⟩
    refine (hrun p fun l hl => ?_).mpr h
    obtain ⟨report, hmem, htrade⟩ := List.mem_filterMap.mp (List.mem_of_mem_head? hl)
    obtain ⟨r, hr, rfl⟩ := List.mem_map.mp hmem
    by_cases hexec : r.2.exec_type = "TRADE"
    · obtain ⟨l', hl', -, -, htext, -⟩ := shows_of_trade (hreports r hr) hexec
      rw [Option.some.inj (htrade.symm.trans hl')]
      exact Except.ok.inj (htext.symm.trans ((h r hr).1 hexec))
    · rw [(shows_of_other (hreports r hr) hexec).1] at htrade
      cases htrade

end Reports

/-! ## The reports of an order of 2 -/

/-- The account of the reports. -/
def demo_spot_account : Uuid := "00000000-0000-0000-0000-000000000001"

/-- The first report of an order: nothing is executed, and the last price is zero. -/
def demo_new (last_price : String) : Nat × ExecutionReport :=
  (1000, { client_order_id := "web-1", symbol := "BTCUSDT", qty := "2", last_price
           exec_type := "NEW" })

/-- A trade of 1. -/
def demo_execution (last_price filled_qty trade_id : String) : Nat × ExecutionReport :=
  (1000, { client_order_id := "web-1", symbol := "BTCUSDT", qty := "2", filled_qty, last_price
           exec_type := "TRADE", trade_id, fill_qty := "1" })

theorem demo_new_is_of {last_price : String} (h : Decimal.ofText last_price = .ok 0) :
    (demo_new last_price).2.IsOf "web-1" where
  own := rfl
  symbol := (by decide : "BTCUSDT" ≠ "")
  qty := ⟨2, (by decide +kernel : Decimal.ofText "2" = .ok 2)⟩
  filled_qty := ⟨0, (by decide +kernel : Decimal.ofText "0" = .ok 0)⟩
  price := ⟨0, (by decide +kernel : Decimal.ofText "0" = .ok 0)⟩
  trade h := absurd h (by decide : "NEW" ≠ "TRADE")
  other _ := h

theorem demo_execution_is_of {last_price filled_qty : String} (trade_id : String) {p z : ℚ}
    (hp : Decimal.ofText last_price = .ok p) (hpos : 0 < p)
    (hz : Decimal.ofText filled_qty = .ok z) :
    (demo_execution last_price filled_qty trade_id).2.IsOf "web-1" where
  own := rfl
  symbol := (by decide : "BTCUSDT" ≠ "")
  qty := ⟨2, (by decide +kernel : Decimal.ofText "2" = .ok 2)⟩
  filled_qty := ⟨z, hz⟩
  price := ⟨0, (by decide +kernel : Decimal.ofText "0" = .ok 0)⟩
  trade _ := ⟨⟨p, hp, hpos⟩, ⟨1, (by decide +kernel : Decimal.ofText "1" = .ok 1), by norm_num⟩,
    0, (by decide +kernel : Decimal.ofText "0" = .ok 0)⟩
  other h := absurd rfl h

/-- Two trades at 100 and at 110: the average column ends at 110. And an order that has not
traded: its zero is spelled with decimals, and the average column is 0. -/
theorem last_price_is_no_average :
    ((∀ r ∈ [demo_new "0", demo_execution "100" "1" "7", demo_execution "110" "2" "8"],
        r.2.IsOf "web-1") ∧
      ¬ AverageAfterEach demo_spot_account "web-1" demo_world.db []
        [demo_new "0", demo_execution "100" "1" "7", demo_execution "110" "2" "8"]) ∧
    (∀ r ∈ [demo_new "0.00000000"], r.2.IsOf "web-1") ∧
      ¬ AverageAfterEach demo_spot_account "web-1" demo_world.db [] [demo_new "0.00000000"] := by
  refine ⟨⟨?_, by decide +kernel⟩, ?_, by decide +kernel⟩
  · refine List.forall_mem_cons.mpr ⟨demo_new_is_of (by decide +kernel), List.forall_mem_cons.mpr
      ⟨demo_execution_is_of "7" (p := 100) (z := 1) (by decide +kernel) (by norm_num)
        (by decide +kernel), List.forall_mem_cons.mpr
      ⟨demo_execution_is_of "8" (p := 110) (z := 2) (by decide +kernel) (by norm_num)
        (by decide +kernel), List.forall_mem_nil _⟩⟩⟩
  · exact List.forall_mem_cons.mpr ⟨demo_new_is_of (by decide +kernel), List.forall_mem_nil _⟩

/-- Two trades at one price, behind a report that spells its zero `0`. -/
theorem two_executions_at_one_price :
    AverageAfterEach demo_spot_account "web-1" demo_world.db []
      [demo_new "0", demo_execution "100" "1" "7", demo_execution "100" "2" "8"] := by
  have h100 : Decimal.ofText "100" = .ok 100 := by decide +kernel
  refine (spot_average_is_right_iff demo_spot_account demo_world.db (by decide) (by decide)
    (by rfl) _ ?_).mpr ⟨100, ?_⟩
  · refine List.forall_mem_cons.mpr ⟨demo_new_is_of (by decide +kernel), List.forall_mem_cons.mpr
      ⟨demo_execution_is_of "7" (z := 1) h100 (by norm_num) (by decide +kernel),
        List.forall_mem_cons.mpr
      ⟨demo_execution_is_of "8" (z := 2) h100 (by norm_num) (by decide +kernel),
        List.forall_mem_nil _⟩⟩⟩
  · refine List.forall_mem_cons.mpr ⟨⟨fun h => absurd h (by decide), fun _ => rfl⟩,
      List.forall_mem_cons.mpr ⟨⟨fun _ => h100, fun h => absurd rfl h⟩,
        List.forall_mem_cons.mpr ⟨⟨fun _ => h100, fun h => absurd rfl h⟩,
          List.forall_mem_nil _⟩⟩⟩

end AccountStateWriter

end trading_platform.execution
