-- `LiveTradingPolicy` and `LiveExecutionAdapter`: the gates in front of a real
-- order, the order that is sent, and what is made of the answer.
import TradingPlatform.Execution.Consumer
import Mathlib.Data.List.Sort

open resumption
open trading_platform.shared

namespace trading_platform.execution

/-! ## Texts -/

/-- `str.isspace` of one character. -/
def isSpace (c : Char) : Bool :=
  let n := c.toNat
  (9 ≤ n && n ≤ 13) || (28 ≤ n && n ≤ 32) || n = 0x85 || n = 0xa0 || n = 0x1680 ||
    (0x2000 ≤ n && n ≤ 0x200a) || n = 0x2028 || n = 0x2029 || n = 0x202f || n = 0x205f || n = 0x3000

/-- `text.strip()`. -/
def strip (text : String) : String :=
  String.ofList (((text.toList.dropWhile isSpace).reverse.dropWhile isSpace).reverse)

/-- `sep.join(items)`. -/
def join (sep : String) (items : List String) : String := sep.intercalate items

/-- `f"{items}"` of a list of texts without quotes. -/
def reprList (items : List String) : String :=
  "[" ++ join ", " (items.map fun s => "'" ++ s ++ "'") ++ "]"

/-! ## The policy -/

structure PolicyResult where
  allowed : Bool
  blocked_reasons : List String := []
  is_dry_run : Bool := false

/-- A policy, as its constructor leaves it. -/
structure LiveTradingPolicy where
  enabled : Bool := false
  account_allowlist : List String := []
  symbol_allowlist : List String := []
  max_notional : ℚ := 100

namespace LiveTradingPolicy

/-- `LiveTradingPolicy(...)`. `upper` is `str.upper`. -/
def init (upper : String → String) (live_trading_enabled : Bool)
    (account_allowlist symbol_allowlist : Option (List String)) (max_notional_usd : ℚ) :
    LiveTradingPolicy where
  enabled := live_trading_enabled
  account_allowlist := ((account_allowlist.getD []).filter (strip · ≠ "")).map strip
  symbol_allowlist := ((symbol_allowlist.getD []).filter (strip · ≠ "")).map fun s => upper (strip s)
  max_notional := max_notional_usd

variable (self : LiveTradingPolicy) (upper : String → String)

/-- The reasons of the four gates, in the order of the gates. -/
def reasons (account_id symbol : String) (notional_usd : Option ℚ) : List String :=
  (if ¬ self.enabled then ["live_trading_disabled: LIVE_TRADING_ENABLED is false"] else []) ++
  (if self.account_allowlist = [] then
    ["account_not_allowed: no accounts in allowlist (LIVE_TRADING_ACCOUNT_ALLOWLIST is empty)"]
  else if account_id ∉ self.account_allowlist then
    [s!"account_not_allowed: account_id '{account_id}' not in allowlist"]
  else []) ++
  (if self.symbol_allowlist = [] then ["symbol_not_allowed: symbol allowlist is empty"]
  else if upper symbol ∉ self.symbol_allowlist then
    [s!"symbol_not_allowed: '{symbol}' not in allowlist " ++
      reprList (self.symbol_allowlist.dedup.mergeSort (· ≤ ·))]
  else []) ++
  (match notional_usd with
    | some notional =>
      if self.max_notional < notional then
        [s!"notional_exceeds_cap: {Decimal.str notional} USD > cap {Decimal.str self.max_notional} USD"]
      else []
    | none => [])

def evaluate (account_id symbol : String) (notional_usd : Option ℚ) (dry_run : Bool) :
    PolicyResult :=
  let reasons := self.reasons upper account_id symbol notional_usd
  { allowed := reasons.length = 0 && !dry_run
    blocked_reasons := reasons
    is_dry_run := dry_run }

/-- No gate gives a reason against an order that passes the first three gates, and the fourth
one when a notional is given. -/
theorem reasons_eq_nil_iff (account_id symbol : String) (notional_usd : Option ℚ) :
    self.reasons upper account_id symbol notional_usd = [] ↔
      self.enabled = true ∧ account_id ∈ self.account_allowlist ∧
        upper symbol ∈ self.symbol_allowlist ∧ ∀ n ∈ notional_usd, n ≤ self.max_notional := by
  unfold reasons
  simp only [List.append_eq_nil_iff]
  have h1 : (if ¬ self.enabled then ["live_trading_disabled: LIVE_TRADING_ENABLED is false"]
      else []) = [] ↔ self.enabled = true := by
    by_cases h : self.enabled = true <;> simp [h]
  have h2 (l : List String) (x a b : String) :
      (if l = [] then [a] else if x ∉ l then [b] else []) = [] ↔ x ∈ l := by
    by_cases hl : l = []
    · simp [hl]
    · by_cases hx : x ∈ l <;> simp [hl, hx]
  rw [h1, h2, h2, and_assoc, and_assoc]
  cases notional_usd with
  | none => simp
  | some n =>
    by_cases hn : self.max_notional < n
    · simp [hn]
    · simp [hn, not_lt.mp hn]

/-- A policy allows an order that passes the gates and is no dry run. -/
theorem evaluate_allowed (account_id symbol : String) (notional_usd : Option ℚ) (dry_run : Bool) :
    (self.evaluate upper account_id symbol notional_usd dry_run).allowed = true ↔
      dry_run = false ∧ self.enabled = true ∧ account_id ∈ self.account_allowlist ∧
        upper symbol ∈ self.symbol_allowlist ∧ ∀ n ∈ notional_usd, n ≤ self.max_notional := by
  unfold evaluate
  simp only [Bool.and_eq_true, decide_eq_true_eq, List.length_eq_zero_iff, reasons_eq_nil_iff,
    Bool.not_eq_true']
  exact and_comm

end LiveTradingPolicy

/-! ## The answer of the exchange -/

/-- `Decimal(value)` of a JSON value that is not turned into a text first. -/
def decimalOf : Json → Except PyErr ℚ
  | .str s => Decimal.ofText s
  | .num text => Decimal.ofText text
  | .bool b => .ok (if b then 1 else 0)
  | _ => .error ⟨"TypeError", "conversion to Decimal is not supported"⟩

/-- `Decimal(str(d.get(key, "0")))`. NaN and the infinities raise here; an
amount of the exchange is never one of them. -/
def amountOf (d : Json) (key : String) : Except PyErr ℚ := do
  let value ← d.get key
  Decimal.ofText ((value.getD (.str "0")).pyStr)

/-- `fills[0]` and the list of all fills. -/
def fillsOf : Json → Except PyErr (Json × List Json)
  | .arr (first :: rest) => .ok (first, first :: rest)
  | .obj _ => .error ⟨"KeyError", "0"⟩
  | .str _ => .error ⟨"AttributeError", "'str' object has no attribute 'get'"⟩
  | _ => .error ⟨"TypeError", "object is not subscriptable"⟩

/-- The fill of a 200 answer: its price, its quantity, the commission and the
asset of the commission. -/
structure ReplyFill where
  fill_price : Option ℚ := none
  fill_qty : Option ℚ := none
  commission : Option ℚ := none
  commission_asset : String := "USDT"

def reply_fill (body : Json) : Except PyErr ReplyFill := do
  let fills := (← body.get "fills").getD (.arr [])
  if fills.truthy then
    let (first, all) ← fillsOf fills
    let fill_price ← amountOf first "price"
    let fill_qty ← amountOf body "executedQty"
    let commissions ← all.mapM fun f => amountOf f "commission"
    let asset ← first.get "commissionAsset"
    return { fill_price := some fill_price, fill_qty := some fill_qty,
             commission := some commissions.sum, commission_asset := (asset.getD (.str "USDT")).pyStr }
  else if (← body.get "status").map (·.pyStr) = some "FILLED" then
    let fill_qty ← amountOf body "executedQty"
    let cummulative := (← body.get "cummulativeQuoteQty").getD (.str "0")
    if 0 < fill_qty then
      return { fill_price := some ((← decimalOf cummulative) / fill_qty), fill_qty := some fill_qty }
    else return { fill_qty := some fill_qty }
  else return {}

/-- What the adapter makes of an HTTP answer. -/
def read_reply (client_order_id : String) (resp : HttpReply) : Except PyErr AdapterResponse :=
  if resp.status_code = 200 then do
    match resp.json with
    | none => throw ⟨"JSONDecodeError", "Expecting value: line 1 column 1 (char 0)"⟩
    | some body =>
      let fill ← reply_fill body
      let order_id := ((← body.get "orderId").getD (.str "")).pyStr
      return {
        success := true
        client_order_id
        exchange_order_id := some order_id
        fill_price := fill.fill_price
        fill_quantity := fill.fill_qty
        commission := fill.commission
        commission_asset := fill.commission_asset }
  else do
    let err := resp.json.getD (.obj [("msg", .str resp.text)])
    let msg := ((← err.get "msg").getD (.str "unknown")).pyStr
    return {
      success := false
      client_order_id
      error := some s!"exchange_error_{resp.status_code}: {msg}" }

/-! ## The adapter -/

/-- `sign` is the signature of the parameters under the API secret. -/
structure LiveExecutionAdapter where
  policy : LiveTradingPolicy
  incident_logger : Bool := true
  sign : OrderParams → String

namespace LiveExecutionAdapter

variable (self : LiveExecutionAdapter) (upper : String → String)

/-- The notional that the gate gets: `size_usd`, else `size * limit_price`. -/
def notional (intent : TradeIntent) : Option ℚ :=
  intent.size_usd.or (intent.limit_price.map (intent.size * ·))

/-- `bool((intent.metadata or {}).get("dry_run", False))`. -/
def dry_run (intent : TradeIntent) : Bool :=
  ((intent.metadata.find? (·.1 = "dry_run")).map (·.2.truthy)).getD false

def policy_result (request : ExecutionRequest) : PolicyResult :=
  self.policy.evaluate upper request.account_id request.trade_intent.symbol
    (notional request.trade_intent) (dry_run request.trade_intent)

/-- The parameters of the order, signed. -/
def order_params (request : ExecutionRequest) (client_order_id : String) (timestamp : Nat) :
    OrderParams :=
  let intent := request.trade_intent
  let params : OrderParams := {
    symbol := intent.symbol
    side := intent.side.value
    type := intent.order_type.value
    quantity := intent.size
    newClientOrderId := client_order_id
    timestamp
    recvWindow := 5000
    price := intent.limit_price
    timeInForce := intent.limit_price.map fun _ => "GTC"
    signature := "" }
  { params with signature := self.sign params }

def submit_to_exchange (request : ExecutionRequest) (client_order_id : String) :
    Py AdapterResponse := do
  let timestamp ← Prog.perform (V := Ans) .time_ms
  -- one handler for the request and for everything that reads the answer
  let answer ← Prog.attempt do
    let resp ← Prog.perform (V := Ans)
      (.post_order (self.order_params request client_order_id timestamp))
    Prog.ofExcept (read_reply client_order_id resp)
  match answer with
  | .ok response => return response
  | .error exc =>
    return { success := false, client_order_id, error := some s!"network_error: {exc.msg}" }

def log_policy_block (request : ExecutionRequest) (client_order_id : String)
    (result : PolicyResult) : Py Unit := do
  if self.incident_logger then
    log_incident {
      incident_type := "live_trade_blocked_by_policy"
      severity := "info"
      description := "Live order blocked: " ++ join "; " result.blocked_reasons
      job_id := none
      strategy_id := none
      context := .obj [
        ("account_id", .str request.account_id),
        ("symbol", .str request.trade_intent.symbol),
        ("side", .str request.trade_intent.side.value),
        ("client_order_id", .str client_order_id),
        ("blocked_reasons", .arr (result.blocked_reasons.map .str)),
        ("is_dry_run", .bool result.is_dry_run)] }

/-- The error of a blocked order, or of the preview of a dry run. -/
def block_error (result : PolicyResult) : String :=
  let reasons_str := join "; " result.blocked_reasons
  if result.is_dry_run then
    let policy := if result.blocked_reasons = [] then "would_allow" else "would_block"
    s!"dry_run_preview: policy={policy}; {reasons_str}"
  else s!"blocked_by_policy: {reasons_str}"

def preview (intent : TradeIntent) : String :=
  s!"dry_run_preview: all policy gates pass; live order WOULD be submitted for {intent.symbol} " ++
    s!"{intent.side.value} {Decimal.str intent.size} (notional≈{strOption (notional intent)} USD). " ++
    "Remove dry_run=true from metadata to execute."

def submit (request : ExecutionRequest) (client_order_id : String) : Py AdapterResponse := do
  let result := self.policy_result upper request
  if ¬ result.allowed then
    self.log_policy_block request client_order_id result
    return { success := false, client_order_id, error := some (block_error result) }
  else if dry_run request.trade_intent then
    return { success := false, client_order_id, error := some (preview request.trade_intent) }
  else self.submit_to_exchange request client_order_id

/-- The adapter, as the consumer sees it. -/
def adapter : ExecutionAdapter where
  submit := self.submit upper
  adapter_name := "live"

end LiveExecutionAdapter

end trading_platform.execution
