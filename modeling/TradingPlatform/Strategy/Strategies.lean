-- The strategies of the service: the factory, the weighted rules, the crossover of two
-- moving averages, and the intents that both build. Float arithmetic is exact, and the
-- explanations, which only the records carry, are left out.
import TradingPlatform.Strategy.Consumer

open trading_platform.shared
open trading_platform.shared.PyFloat

namespace trading_platform.strategy_service

/-! ## Snapshots -/

/-- What a dotted path of a snapshot leads to. -/
inductive FieldValue where
  | bool (b : Bool)
  | number (x : PyFloat)
  deriving DecidableEq

structure IndicatorValues where
  ema_9 : Option ℚ := none
  ema_21 : Option ℚ := none

/-- What the strategies read of a snapshot: its meta data, `market_state.price`, the
averages of `indicator_state`, and the fields that a rule names by their path. -/
structure UnifiedDecisionSnapshot where
  symbol : String
  market_type : MarketType
  snapshot_timestamp_ms : Int
  price : Option ℚ := none
  by_interval : String → Option IndicatorValues := fun _ => none
  get_field : String → Option FieldValue := fun _ => none

/-! ## Python values -/

/-- `float(value)`. -/
def float_of : Json → Except PyErr PyFloat
  | .num text => ofText text
  | .str s => ofText s
  | .bool b => .ok (fin (if b then 1 else 0))
  | _ => .error ⟨"TypeError", "float() argument must be a string or a real number"⟩

/-- `value[i]`. -/
def item (i : Nat) : Json → Except PyErr Json
  | .arr items =>
    match items[i]? with
    | some v => .ok v
    | none => .error ⟨"IndexError", "list index out of range"⟩
  | .str s =>
    match s.toList[i]? with
    | some c => .ok (.str (String.ofList [c]))
    | none => .error ⟨"IndexError", "string index out of range"⟩
  | .obj _ => .error ⟨"KeyError", toString i⟩
  | _ => .error ⟨"TypeError", "object is not subscriptable"⟩

/-- What a `for` loop over the value goes through. -/
def items_of : Json → Except PyErr (List Json)
  | .arr items => .ok items
  | .str s => .ok (s.toList.map fun c => .str (String.ofList [c]))
  | .obj fields => .ok (fields.map fun f => .str f.1)
  | _ => .error ⟨"TypeError", "object is not iterable"⟩

/-- `str(d.get(key, default))`. -/
def text_of (d : Json) (key default : String) : Except PyErr String := do
  let v ← d.get key
  return (v.map Json.pyStr).getD default

/-- `text.upper()`, as far as it can become a word of ASCII capitals. -/
def upper (text : String) : String :=
  String.ofList (text.toList.flatMap fun c =>
    if c = 'ı' then ['I'] else if c = 'ſ' then ['S'] else if c = 'ﬅ' ∨ c = 'ﬆ' then ['S', 'T']
    else [c.toUpper])

/-! ## Intents -/

/-- A decimal of a model must be finite. -/
def finite_decimal : PyFloat → Except PyErr ℚ
  | fin q => .ok q
  | _ => .error ⟨"ValidationError", "Input should be a finite number"⟩

/-- The price some percent above the price or below it. -/
def bracket (parameters : Json) (key : String) (above : Bool) (price : Option ℚ) :
    Except PyErr (Option ℚ) := do
  let pct ← parameters.get key
  match pct, price with
  | some pct, some p =>
    if pct.truthy && p ≠ 0 then do
      let x ← float_of pct
      let factor := if above then fin 1 + x.divNat 100 else fin 1 - x.divNat 100
      let level ← finite_decimal (fin p * factor)
      return some level
    else return none
  | _, _ => return none

/-- `_build_intent`. The crossover has the same body with its own attributes. -/
def build_intent (intent_id strategy_id : Uuid) (version : Int) (side : OrderSide)
    (parameters : Json) (snapshot : UnifiedDecisionSnapshot) : Except PyErr TradeIntent := do
  let size_usd ← Decimal.ofText (← text_of parameters "size_usd" "100.0")
  let stop_loss ← bracket parameters "stop_loss_pct" (side = .sell) snapshot.price
  let take_profit ← bracket parameters "take_profit_pct" (side = .buy) snapshot.price
  let order_type_str ← text_of parameters "order_type" "MARKET"
  let order_type := (OrderType.ofValue (upper order_type_str)).getD .market
  let tif_str ← text_of parameters "time_in_force" "GTC"
  return {
    intent_id
    strategy_id := some strategy_id
    strategy_version := some version
    symbol := snapshot.symbol
    market_type := snapshot.market_type
    side
    order_type
    size := match snapshot.price with
      | some price => if 0 < price then size_usd / price else size_usd
      | none => size_usd
    size_usd := some size_usd
    limit_price := if order_type = .limit then snapshot.price else none
    stop_loss
    take_profit
    time_in_force := (TimeInForce.ofValue (upper tif_str)).getD .GTC }

/-! ## Rules -/

/-- A comparison of a number with the threshold of a rule. -/
def compare (fval : PyFloat) (operator : String) (threshold : Json) : Except PyErr Bool :=
  if operator = "gt" then (float_of threshold).map fun t => t.lt fval
  else if operator = "lt" then (float_of threshold).map fun t => fval.lt t
  else if operator = "gte" then (float_of threshold).map fun t => t.le fval
  else if operator = "lte" then (float_of threshold).map fun t => fval.le t
  else if operator = "eq" then
    (float_of threshold).map fun t => (fval - t).abs.lt (fin (1 / 10 ^ 9))
  else if operator = "neq" then
    (float_of threshold).map fun t => (fin (1 / 10 ^ 9)).le (fval - t).abs
  else if operator = "between" then do
    let lo ← float_of (← item 0 threshold)
    let hi ← float_of (← item 1 threshold)
    return lo.le fval && fval.le hi
  else .ok false

def evaluate_rule (val : Option FieldValue) (operator : String) (threshold : Json) :
    Except PyErr Bool :=
  if operator = "is_not_none" then .ok val.isSome
  else if operator = "is_none" then .ok val.isNone
  else match val with
    | none => .ok false
    | some (.bool b) => compare (fin (if b then 1 else 0)) operator threshold
    | some (.number x) => compare x operator threshold

/-- The weights of the rules that are for a side, and of those of them that passed. -/
structure Weights where
  buy_weight : PyFloat := fin 0
  buy_total : PyFloat := fin 0
  sell_weight : PyFloat := fin 0
  sell_total : PyFloat := fin 0

/-- `side in (name, None)`. -/
def is_for (name : String) : Option Json → Bool
  | none => true
  | some .null => true
  | some (.str s) => s = name
  | some _ => false

/-- One rule of the list. -/
def weigh (snapshot : UnifiedDecisionSnapshot) (w : Weights) (rule : Json) :
    Except PyErr Weights := do
  let field_path ← text_of rule "field" ""
  let operator ← text_of rule "operator" "gt"
  let threshold ← rule.get "value"
  let weight_value ← rule.get "weight"
  let weight ← float_of (weight_value.getD (.num "1.0"))
  let side ← rule.get "side"
  let passed ← evaluate_rule (snapshot.get_field field_path) operator (threshold.getD .null)
  let add := fun (counts : Bool) (total : PyFloat) => if counts then total + weight else total
  return {
    buy_weight := add (passed && is_for "BUY" side) w.buy_weight
    buy_total := add (is_for "BUY" side) w.buy_total
    sell_weight := add (passed && is_for "SELL" side) w.sell_weight
    sell_total := add (is_for "SELL" side) w.sell_total }

def share (weight total : PyFloat) : Except PyErr PyFloat :=
  if (fin 0).lt total then weight.div total else .ok (fin 0)

/-- The side that the rules favour, with the confidence in it. -/
def favoured (buy_confidence sell_confidence : PyFloat) : Option (OrderSide × PyFloat) :=
  if sell_confidence.le buy_confidence && (fin 0).lt buy_confidence then
    some (.buy, buy_confidence)
  else if buy_confidence.lt sell_confidence && (fin 0).lt sell_confidence then
    some (.sell, sell_confidence)
  else none

/-! ## Strategies -/

inductive StrategyKind where
  | rule_based (rules : Json)
  | ma_crossover

/-- A `RuleBasedStrategy` or a `MACrossoverStrategy`. -/
structure BaseStrategy where
  strategy_id : Uuid
  version : Int
  parameters : Json
  kind : StrategyKind

def build_strategy (strategy_id : Uuid) (version : Int) (rules parameters : Json) :
    Except PyErr BaseStrategy := do
  let strategy_type ← text_of parameters "strategy_type" "rule_based"
  if strategy_type.toLower = "ma_crossover" then
    return { strategy_id, version, parameters, kind := .ma_crossover }
  else return { strategy_id, version, parameters, kind := .rule_based rules }

namespace BaseStrategy

variable (self : BaseStrategy) (snapshot : UnifiedDecisionSnapshot)

/-- The two averages of the configured interval, if both are there. -/
def averages : Except PyErr (String × Option (ℚ × ℚ)) := do
  let interval ← text_of self.parameters "interval" "1m"
  match snapshot.by_interval interval with
  | some ⟨some ema_9, some ema_21⟩ => return (interval, some (ema_9, ema_21))
  | _ => return (interval, none)

def validate_snapshot : Except PyErr (List String) := do
  let missing := (if snapshot.snapshot_timestamp_ms = 0 then ["meta.snapshot_timestamp_ms"] else [])
    ++ (if snapshot.price = none then ["market_state.price"] else [])
  match self.kind with
  | .rule_based _ => return missing
  | .ma_crossover => do
    let (interval, emas) ← self.averages snapshot
    if emas = none then
      return missing ++ [s!"indicator_state.by_interval.{interval}.ema_9/ema_21"]
    else return missing

/-- The result for a side that was found. -/
def signalled (intent_id : Uuid) (side : OrderSide) (confidence : PyFloat) :
    Except PyErr EvaluationResult := do
  let intent ← build_intent intent_id self.strategy_id self.version side self.parameters snapshot
  return {
    signal := true
    direction := some side.value
    confidence := some confidence
    trade_intent := some intent }

/-- `RuleBasedStrategy.evaluate`. -/
def evaluate_rules (rules : Json) (intent_id : Uuid) : Except PyErr EvaluationResult := do
  let w ← (← items_of rules).foldlM (weigh snapshot) {}
  let buy_confidence ← share w.buy_weight w.buy_total
  let sell_confidence ← share w.sell_weight w.sell_total
  match favoured buy_confidence sell_confidence with
  | some (side, confidence) => self.signalled snapshot intent_id side confidence
  | none => return { signal := false, confidence := some (fin 0) }

/-- `MACrossoverStrategy.evaluate`. -/
def evaluate_crossover (intent_id : Uuid) : Except PyErr EvaluationResult := do
  let (_, emas) ← self.averages snapshot
  match emas with
  | none => return { signal := false }
  | some (ema9, ema21) =>
    if ema9 = ema21 then return { signal := false, confidence := some (fin 0) }
    else do
      let side := if ema21 < ema9 then OrderSide.buy else OrderSide.sell
      let gap ← (fin |ema9 - ema21|).div (fin ema21)
      let pct := gap * fin 100
      self.signalled snapshot intent_id side (if (fin 1).lt pct then fin 1 else pct)

def evaluate (intent_id : Uuid) : Except PyErr EvaluationResult :=
  match self.kind with
  | .rule_based rules => self.evaluate_rules snapshot rules intent_id
  | .ma_crossover => self.evaluate_crossover snapshot intent_id

end BaseStrategy

/-! ## What a strategy is built from, and what its intents are for -/

/-- Parameters that are a dict, or that `or` turns into one. -/
def are_parameters (parameters : Json) : Bool :=
  match parameters with
  | .obj _ => true
  | value => !value.truthy

theorem text_of_obj (fields : List (String × Json)) (key default : String) :
    text_of (.obj fields) key default =
      .ok (((fields.find? (·.1 = key)).map (·.2)).map Json.pyStr |>.getD default) := rfl

theorem text_of_error {d : Json} (h : ∀ fields, d ≠ .obj fields) (key default : String) :
    ∃ e, text_of d key default = .error e := by
  cases d with
  | obj fields => exact absurd rfl (h fields)
  | _ => exact ⟨_, rfl⟩

/-- A strategy is built from any rules, and from the parameters that are a dict. -/
theorem build_strategy_ok_iff {strategy_id : Uuid} {version : Int} {rules parameters : Json} :
    (∃ s, build_strategy strategy_id version rules (parameters.orDefault (.obj [])) = .ok s) ↔
      are_parameters parameters = true := by
  have hdict : ∀ fields, ∃ s, build_strategy strategy_id version rules (.obj fields) = .ok s := by
    intro fields
    unfold build_strategy
    rw [text_of_obj]
    dsimp only [bind, Except.bind]
    split
    · exact ⟨_, rfl⟩
    · exact ⟨_, rfl⟩
  by_cases htruthy : parameters.truthy = true
  · simp only [Json.orDefault, htruthy, if_true]
    constructor
    · rintro ⟨s, hs⟩
      by_cases hobj : ∃ fields, parameters = .obj fields
      · obtain ⟨fields, rfl⟩ := hobj
        rfl
      · obtain ⟨e, he⟩ := text_of_error (fun fields h => hobj ⟨fields, h⟩) "strategy_type"
          "rule_based"
        rw [build_strategy, he] at hs
        cases hs
    · intro h
      cases parameters with
      | obj fields => exact hdict fields
      | _ => simp [are_parameters, htruthy] at h
  · simp only [Json.orDefault, htruthy]
    refine iff_of_true (hdict []) ?_
    cases parameters with
    | obj fields => rfl
    | _ => simp [are_parameters, htruthy]

/-- A strategy is built with the id and the parameters that are given for it. -/
theorem parts_of_build {strategy_id : Uuid} {version : Int} {rules parameters : Json}
    {s : BaseStrategy} (h : build_strategy strategy_id version rules parameters = .ok s) :
    s.strategy_id = strategy_id ∧ s.parameters = parameters := by
  unfold build_strategy at h
  cases htype : text_of parameters "strategy_type" "rule_based" with
  | error e =>
    rw [htype] at h
    cases h
  | ok strategy_type =>
    rw [htype] at h
    dsimp only [bind, Except.bind] at h
    split at h
    · cases h
      exact ⟨rfl, rfl⟩
    · cases h
      exact ⟨rfl, rfl⟩

theorem strategy_id_of_build {strategy_id : Uuid} {version : Int} {rules parameters : Json}
    {s : BaseStrategy} (h : build_strategy strategy_id version rules parameters = .ok s) :
    s.strategy_id = strategy_id := (parts_of_build h).1

/-- An intent that a strategy built is for the symbol and the market of the snapshot. -/
structure IntentOf (strategy : BaseStrategy) (snapshot : UnifiedDecisionSnapshot)
    (intent : TradeIntent) : Prop where
  strategy_id : intent.strategy_id = some strategy.strategy_id
  symbol : intent.symbol = snapshot.symbol
  market_type : intent.market_type = snapshot.market_type

/-- The value of a computation that succeeded, and the computation that went on with it. -/
theorem bind_ok {α β : Type} {x : Except PyErr α} {f : α → Except PyErr β} {b : β}
    (h : x >>= f = .ok b) : ∃ a, x = .ok a ∧ f a = .ok b := by
  cases x with
  | error e => cases h
  | ok a => exact ⟨a, rfl, h⟩

theorem intent_of_build {intent_id : Uuid} {self : BaseStrategy} {side : OrderSide}
    {snapshot : UnifiedDecisionSnapshot} {intent : TradeIntent}
    (h : build_intent intent_id self.strategy_id self.version side self.parameters snapshot =
      .ok intent) : IntentOf self snapshot intent := by
  unfold build_intent at h
  obtain ⟨_, -, h⟩ := bind_ok h
  obtain ⟨_, -, h⟩ := bind_ok h
  obtain ⟨_, -, h⟩ := bind_ok h
  obtain ⟨_, -, h⟩ := bind_ok h
  obtain ⟨_, -, h⟩ := bind_ok h
  obtain ⟨_, -, h⟩ := bind_ok h
  cases h
  exact ⟨rfl, rfl, rfl⟩

/-- What a result of an evaluation can carry. -/
def ResultOf (self : BaseStrategy) (snapshot : UnifiedDecisionSnapshot)
    (result : EvaluationResult) : Prop :=
  ∀ intent, result.trade_intent = some intent → IntentOf self snapshot intent

theorem result_of_signalled {self : BaseStrategy} {snapshot : UnifiedDecisionSnapshot}
    {intent_id : Uuid} {side : OrderSide} {confidence : PyFloat} {result : EvaluationResult}
    (h : self.signalled snapshot intent_id side confidence = .ok result) :
    ResultOf self snapshot result := by
  obtain ⟨intent, hintent, h⟩ := bind_ok h
  cases h
  intro i hi
  cases hi
  exact intent_of_build hintent

/-- An evaluation has no intent, or is the result for a side that was found. -/
theorem evaluate_cases {self : BaseStrategy} {snapshot : UnifiedDecisionSnapshot}
    {intent_id : Uuid} {result : EvaluationResult}
    (h : self.evaluate snapshot intent_id = .ok result) :
    (result.signal = false ∧ result.trade_intent = none) ∨
      ∃ side confidence, self.signalled snapshot intent_id side confidence = .ok result := by
  unfold BaseStrategy.evaluate at h
  cases hkind : self.kind with
  | rule_based rules =>
    rw [hkind] at h
    obtain ⟨_, -, h⟩ := bind_ok h
    obtain ⟨w, -, h⟩ := bind_ok h
    obtain ⟨buy, -, h⟩ := bind_ok h
    obtain ⟨sell, -, h⟩ := bind_ok h
    cases hside : favoured buy sell with
    | none =>
      rw [hside] at h
      cases h
      exact Or.inl ⟨rfl, rfl⟩
    | some found =>
      rw [hside] at h
      exact Or.inr ⟨_, _, h⟩
  | ma_crossover =>
    rw [hkind] at h
    obtain ⟨⟨interval, emas⟩, -, h⟩ := bind_ok h
    cases emas with
    | none =>
      cases h
      exact Or.inl ⟨rfl, rfl⟩
    | some emas =>
      obtain ⟨ema9, ema21⟩ := emas
      dsimp only at h
      by_cases hequal : ema9 = ema21
      · rw [if_pos hequal] at h
        cases h
        exact Or.inl ⟨rfl, rfl⟩
      · rw [if_neg hequal] at h
        obtain ⟨gap, -, h⟩ := bind_ok h
        exact Or.inr ⟨_, _, h⟩

/-- Whatever the rules, the parameters and the snapshot are. -/
theorem result_of_evaluate {self : BaseStrategy} {snapshot : UnifiedDecisionSnapshot}
    {intent_id : Uuid} {result : EvaluationResult}
    (h : self.evaluate snapshot intent_id = .ok result) : ResultOf self snapshot result := by
  rcases evaluate_cases h with ⟨-, hnone⟩ | ⟨side, confidence, hsignalled⟩
  · intro intent hintent
    rw [hnone] at hintent
    cases hintent
  · exact result_of_signalled hsignalled

/-- The classes that the factory knows. -/
def strategy_classes : StrategyClasses BaseStrategy UnifiedDecisionSnapshot where
  symbol := UnifiedDecisionSnapshot.symbol
  market_type := UnifiedDecisionSnapshot.market_type
  snapshot_timestamp_ms := UnifiedDecisionSnapshot.snapshot_timestamp_ms
  build_strategy := build_strategy
  validate_snapshot := BaseStrategy.validate_snapshot
  evaluate := BaseStrategy.evaluate

end trading_platform.strategy_service
