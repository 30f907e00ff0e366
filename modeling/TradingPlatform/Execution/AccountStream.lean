-- The raw order reports of the futures user data stream, and the transaction
-- with which `AccountStateWriter` stores one of them.
import TradingPlatform.Execution.Database

open trading_platform.shared

namespace trading_platform.execution

/-- The object `o` of an ORDER_TRADE_UPDATE, with the defaults of its fields.
Amounts are texts. -/
structure FuturesReport where
  client_order_id : String := ""
  exchange_order_id : String := ""
  symbol : String := ""
  side : String := "BUY"
  order_type : String := "MARKET"
  status : String := "NEW"
  qty : String := "0"
  filled_qty : String := "0"
  price : String := "0"
  avg_fill : String := "0"
  time_in_force : String := "GTC"
  trade_time_ms : Nat
  exec_type : String := ""
  trade_id : String := "-1"
  fill_qty : String := "0"
  fill_price : String := "0"
  commission : String := "0"
  commission_asset : String := "USDT"
  realized_pnl : String := "0"
  is_maker : Bool := false

/-- `text or None`, read by a column that may be null. -/
def optionalAmount (text : String) : Except PyErr (Option ℚ) :=
  if text = "" then .ok none
  else match Decimal.ofText text with
    | .ok q => .ok (some q)
    | .error e => .error e

/-- `price if price and price != "0" else None`. -/
def optionalPrice (text : String) : Except PyErr (Option ℚ) :=
  if text = "0" then .ok none else optionalAmount text

/-- `str(Decimal(price) * Decimal(qty))`, or zero when a text is no number. -/
def quoteOf (price qty : String) : ℚ :=
  match Decimal.ofText price, Decimal.ofText qty with
  | .ok p, .ok q => p * q
  | _, _ => 0

/-- The row of an order after a report. -/
def Order.reported (order : Order) (report : FuturesReport) (filled_qty : ℚ)
    (avg_fill : Option ℚ) : Order :=
  { order with
    status := report.status
    filled_qty
    exchange_order_id := some report.exchange_order_id
    avg_fill_price := avg_fill.or order.avg_fill_price
    updated_at_ms := report.trade_time_ms }

/-- The order row of a report: the row that was found is overwritten, and
without one a new row goes in. -/
def report_order (account_id : Uuid) (found : Option Order) (report : FuturesReport) : Txn Nat :=
  fun db => do
    let filled_qty ← Decimal.ofText report.filled_qty
    let avg_fill ← optionalPrice report.avg_fill
    match found with
    | some order =>
      return (order.id, { db with
        orders := db.orders.map fun row =>
          if row.id = order.id then row.reported report filled_qty avg_fill else row })
    | none =>
      let quantity ← Decimal.ofText report.qty
      let price ← optionalPrice report.price
      if ¬ db.accounts.any (·.id = account_id) then throw (integrity_error "account_id")
      else if db.orders.any (·.client_order_id = report.client_order_id) then
        throw (integrity_error "client_order_id")
      else
        return (db.next_id, { db with
          next_id := db.next_id + 1
          orders := db.orders ++ [{
            id := db.next_id
            account_id
            exchange_order_id := some report.exchange_order_id
            client_order_id := report.client_order_id
            symbol := report.symbol
            market_type := "futures"
            side := report.side
            order_type := report.order_type
            status := report.status
            quantity
            filled_qty
            price
            avg_fill_price := avg_fill
            time_in_force := report.time_in_force
            created_at_ms := report.trade_time_ms
            updated_at_ms := report.trade_time_ms }] })

/-- The report is one of a trade. -/
def FuturesReport.is_trade (report : FuturesReport) : Bool :=
  report.exec_type = "TRADE" && report.trade_id ≠ "-1"

/-- The fill row of a trade, unless the account has one under its trade id. -/
def report_fill (account_id : Uuid) (order_id : Nat) (report : FuturesReport) : Txn Unit :=
  fun db =>
    if report.trade_id ∈ db.trade_ids account_id then .ok ((), db)
    else do
      let price ← Decimal.ofText report.fill_price
      let qty ← Decimal.ofText report.fill_qty
      let commission ← Decimal.ofText report.commission
      let realized_pnl ← optionalAmount report.realized_pnl
      add_fill {
        order_id
        account_id
        exchange_trade_id := report.trade_id
        symbol := report.symbol
        side := report.side
        price
        qty
        quote_qty := quoteOf report.fill_price report.fill_qty
        commission
        commission_asset := if report.commission_asset = "" then "USDT"
          else report.commission_asset
        realized_pnl
        is_maker := report.is_maker
        timestamp_ms := report.trade_time_ms } db

/-- The writes of `upsert_order_from_futures_report`, which commit together. -/
def upsert_futures_report (account_id : Uuid) (found : Option Order) (report : FuturesReport) :
    Txn Unit := fun db => do
  let (order_id, db) ← report_order account_id found report db
  if report.is_trade then report_fill account_id order_id report db
  else return ((), db)

/-- A report with a row found: its row has the quantity of the report. -/
theorem report_order_some {account_id : Uuid} {order : Order} {report : FuturesReport}
    {db db' : Db} {order_id : Nat}
    (h : report_order account_id (some order) report db = .ok (order_id, db')) :
    order_id = order.id ∧ ∃ z avg, Decimal.ofText report.filled_qty = .ok z ∧
      db' = { db with
        orders := db.orders.map fun row =>
          if row.id = order.id then row.reported report z avg else row } := by
  unfold report_order at h
  cases hz : Decimal.ofText report.filled_qty with
  | error e => rw [hz] at h; cases h
  | ok z =>
    rw [hz] at h
    cases havg : optionalPrice report.avg_fill with
    | error e => rw [havg] at h; cases h
    | ok avg =>
      rw [havg] at h
      cases h
      exact ⟨rfl, z, avg, rfl, rfl⟩

/-- A trade that is new to the account adds its own fill row. -/
theorem report_fill_new {account_id : Uuid} {order_id : Nat} {report : FuturesReport}
    {db db' : Db} (hnew : report.trade_id ∉ db.trade_ids account_id)
    (h : report_fill account_id order_id report db = .ok ((), db')) :
    ∃ fill, fill.order_id = order_id ∧ fill.account_id = account_id ∧
      fill.exchange_trade_id = report.trade_id ∧
      Decimal.ofText report.fill_qty = .ok fill.qty ∧ add_fill fill db = .ok ((), db') := by
  unfold report_fill at h
  rw [if_neg hnew] at h
  cases hp : Decimal.ofText report.fill_price with
  | error e => rw [hp] at h; cases h
  | ok price =>
    rw [hp] at h
    cases hq : Decimal.ofText report.fill_qty with
    | error e => rw [hq] at h; cases h
    | ok qty =>
      rw [hq] at h
      cases hc : Decimal.ofText report.commission with
      | error e => rw [hc] at h; cases h
      | ok commission =>
        rw [hc] at h
        cases hr : optionalAmount report.realized_pnl with
        | error e => rw [hr] at h; cases h
        | ok pnl =>
          rw [hr] at h
          exact ⟨_, rfl, rfl, rfl, rfl, h⟩

/-- The report of a trade that is new to the account, with a row found: the row
gets the quantity of the report, and the trade gets a fill row. -/
theorem upsert_new_trade {account_id : Uuid} {order : Order} {report : FuturesReport}
    {db db' : Db} (htrade : report.is_trade = true)
    (hnew : report.trade_id ∉ db.trade_ids account_id)
    (h : upsert_futures_report account_id (some order) report db = .ok ((), db')) :
    ∃ z avg fill, Decimal.ofText report.filled_qty = .ok z ∧
      Decimal.ofText report.fill_qty = .ok fill.qty ∧ fill.order_id = order.id ∧
      fill.exchange_trade_id = report.trade_id ∧
      db'.orders = db.orders.map (fun row =>
        if row.id = order.id then row.reported report z avg else row) ∧
      db'.fills = db.fills ++ [fill] ∧
      db'.trade_ids account_id = db.trade_ids account_id ++ [report.trade_id] := by
  unfold upsert_futures_report at h
  cases ho : report_order account_id (some order) report db with
  | error e => rw [ho] at h; cases h
  | ok r =>
    obtain ⟨id, db1⟩ := r
    rw [ho] at h
    obtain ⟨rfl, z, avg, hz, hdb1⟩ := report_order_some ho
    simp only [bind, Except.bind, htrade, if_true] at h
    have hids : db1.trade_ids account_id = db.trade_ids account_id := by rw [hdb1]; rfl
    rw [← hids] at hnew
    obtain ⟨fill, hfo, hfa, hfk, hfq, hadd⟩ := report_fill_new hnew h
    obtain ⟨hdb', -, hids'⟩ := add_fill_adds hadd
    refine ⟨z, avg, fill, hz, hfq, hfo, hfk, ?_, ?_, ?_⟩
    · rw [hdb', hdb1]
    · rw [hdb', hdb1]
    · rw [← hfa, ← hfk, hids', hfa, hids]

end trading_platform.execution
