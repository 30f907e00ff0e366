-- The consumer of the strategy service: it evaluates the registered strategies on each
-- snapshot and publishes their intents. What a strategy class computes is a parameter.
import TradingPlatform.Lib.ConsumerGroup
import TradingPlatform.Lib.Table
import TradingPlatform.Shared.Float
import TradingPlatform.Shared.Redis
import TradingPlatform.Strategy.Transitions

open resumption
open keyed
open trading_platform.shared

namespace trading_platform.strategy_service

structure StrategyServiceSettings where
  batch_size : Nat := 50
  strategy_reload_interval_s : ℚ := 30

/-! ## Strategies and their evaluators -/

structure EvaluationResult where
  signal : Bool
  direction : Option String := none
  confidence : Option PyFloat := none
  trade_intent : Option TradeIntent := none

structure StrategyEvaluation where
  id : Uuid
  strategy_id : Uuid
  version : Int
  symbol : String
  market_type : MarketType
  snapshot_timestamp_ms : Int
  signal : Bool
  direction : Option String := none
  confidence : Option PyFloat := none
  trade_intent : Option TradeIntent := none

/-- An active strategy, joined with its current version. The rules and the parameters are
JSON columns. -/
structure StrategyRow where
  id : Uuid
  market_type : MarketType
  symbol_filters : List String
  state : String
  version : Int
  rules : Json
  parameters : Json

/-- What the strategy classes give. An id that `evaluate` needs for an intent is drawn
before the call. -/
structure StrategyClasses (Strategy Snapshot : Type) where
  symbol : Snapshot → String
  market_type : Snapshot → MarketType
  snapshot_timestamp_ms : Snapshot → Int
  build_strategy : Uuid → Int → Json → Json → Except PyErr Strategy
  validate_snapshot : Strategy → Snapshot → Except PyErr (List String)
  evaluate : Strategy → Snapshot → Uuid → Except PyErr EvaluationResult

structure StrategyEvaluator (Strategy : Type) where
  strategy_id : Uuid
  version : Int
  state : StrategyState
  strategy : Strategy
  symbol_filters : List String

variable {Strategy Snapshot : Type}

/-- `StrategyRegistry`: the evaluators by the id of their strategy. -/
abbrev StrategyRegistry (Strategy : Type) :=
  Table (StrategyEvaluator Strategy) StrategyEvaluator.strategy_id

namespace StrategyEvaluator

def can_emit_intent (self : StrategyEvaluator Strategy) : Bool :=
  LifecycleManager.can_emit_intents self.state

def matches_symbol (self : StrategyEvaluator Strategy) (symbol : String) : Bool :=
  self.symbol_filters = [] || self.symbol_filters.contains symbol

end StrategyEvaluator

namespace StrategyRegistry

def register (self : StrategyRegistry Strategy) (evaluator : StrategyEvaluator Strategy) :
    StrategyRegistry Strategy :=
  self.upsert evaluator (fun r => { evaluator with strategy_id := r.strategy_id }) fun _ => rfl

def evaluators_for_symbol (self : StrategyRegistry Strategy) (symbol : String) :
    List (StrategyEvaluator Strategy) :=
  self.rows.filter fun ev => ev.matches_symbol symbol

end StrategyRegistry

/-! ## Commands -/

/-- The calls that leave the consumer. -/
inductive External where
  | monotonic
  | uuid4
  | list_active_strategies
  | save_evaluation (record : StrategyEvaluation)
  | save_action (strategy_id : Uuid) (version : Int) (action_type triggered_by : String)
      (details : List (String × Json))
  | publish (intent : TradeIntent) (evaluation_id : Uuid)
  | xack (stream : String) (msg_id : Nat)

abbrev External.Ans : External → Type
  | .monotonic => ℚ
  | .uuid4 => Uuid
  | .list_active_strategies => List StrategyRow
  | .save_evaluation _ => Unit
  | .save_action .. => Unit
  | .publish .. => Unit
  | .xack .. => Unit

/-- The attributes of a `StrategyConsumer` that change. -/
structure Attributes (Strategy : Type) where
  registry : StrategyRegistry Strategy := .empty
  last_reload_at : ℚ := 0

inductive StrategyCmd (Strategy : Type) where
  | external (c : External)
  | attributes
  | assign (a : Attributes Strategy)

abbrev StrategyCmd.Ans : StrategyCmd Strategy → Type
  | .external c => c.Ans
  | .attributes => Attributes Strategy
  | .assign _ => Unit

/-- The environment answers each call that leaves the consumer, or fails it. The attributes
of the consumer are always there. -/
def Attributes.exec (s : Attributes Strategy) (c : StrategyCmd Strategy)
    (o : (c : External) → Except PyErr c.Ans) : Except PyErr c.Ans × Attributes Strategy :=
  match c with
  | .external c => (o c, s)
  | .attributes => (.ok s, s)
  | .assign a => (.ok (), a)

abbrev StrategyPy (Strategy : Type) := Prog PyErr (StrategyCmd Strategy) StrategyCmd.Ans

def external (c : External) : StrategyPy Strategy c.Ans := Prog.perform (StrategyCmd.external c)

def attributes : StrategyPy Strategy (Attributes Strategy) :=
  Prog.perform StrategyCmd.attributes

def assign (a : Attributes Strategy) : StrategyPy Strategy Unit := Prog.perform (StrategyCmd.assign a)

/-! ## Evaluation -/

variable (classes : StrategyClasses Strategy Snapshot)

namespace StrategyEvaluator

variable (self : StrategyEvaluator Strategy)

/-- A record without a signal, for a strategy whose state permits no evaluation and for a
snapshot in which sections are missing. -/
def no_signal (id : Uuid) (snapshot : Snapshot) : StrategyEvaluation where
  id
  strategy_id := self.strategy_id
  version := self.version
  symbol := classes.symbol snapshot
  market_type := classes.market_type snapshot
  snapshot_timestamp_ms := classes.snapshot_timestamp_ms snapshot
  signal := false

def record (id : Uuid) (snapshot : Snapshot) (missing : List String) (result : EvaluationResult) :
    StrategyEvaluation :=
  if missing = [] then
    { id
      strategy_id := self.strategy_id
      version := self.version
      symbol := classes.symbol snapshot
      market_type := classes.market_type snapshot
      snapshot_timestamp_ms := classes.snapshot_timestamp_ms snapshot
      signal := result.signal
      direction := result.direction
      confidence := result.confidence
      trade_intent := result.trade_intent }
  else self.no_signal classes id snapshot

def evaluate (snapshot : Snapshot) : StrategyPy Strategy StrategyEvaluation :=
  if LifecycleManager.can_simulate self.state then do
    let missing ← Prog.ofExcept (classes.validate_snapshot self.strategy snapshot)
    let intent_id ← external .uuid4
    let result ← Prog.ofExcept (classes.evaluate self.strategy snapshot intent_id)
    let id ← external .uuid4
    return self.record classes id snapshot missing result
  else do
    let id ← external .uuid4
    return self.no_signal classes id snapshot

end StrategyEvaluator

/-! ## The consumer -/

/-- The field `snapshot` of a stream entry, as pydantic reads it. -/
inductive SnapshotField (Snapshot : Type) where
  | empty
  | malformed
  | valid (snapshot : Snapshot)

def ANALYTICS_DERIVED : String := "stream:analytics:derived"

structure StrategyConsumer where
  settings : StrategyServiceSettings := {}
  /-- There is a repository. -/
  repository : Bool := true

namespace StrategyConsumer

variable (self : StrategyConsumer)

def ack (msg_id : Nat) : StrategyPy Strategy Unit :=
  (external (.xack ANALYTICS_DERIVED msg_id)).swallow

def save_evaluation (record : StrategyEvaluation) : StrategyPy Strategy Unit :=
  if self.repository then (external (.save_evaluation record)).swallow else return ()

def save_action (evaluator : StrategyEvaluator Strategy) (record : StrategyEvaluation)
    (intent : TradeIntent) : StrategyPy Strategy Unit :=
  if self.repository then
    (external (.save_action evaluator.strategy_id evaluator.version "intent_published" "consumer"
      [("intent_id", .str intent.intent_id), ("symbol", .str record.symbol),
        ("direction", (record.direction.map .str).getD .null)])).swallow
  else return ()

/-- Publishes the intent of a record, if the state of the strategy permits it. -/
def emit (evaluator : StrategyEvaluator Strategy) (record : StrategyEvaluation) :
    StrategyPy Strategy Unit :=
  match record.trade_intent with
  | none => return ()
  | some intent =>
    if evaluator.can_emit_intent && record.signal then do
      external (.publish intent record.id)
      self.save_action evaluator record intent
    else return ()

/-- One strategy on one snapshot. No exception leaves it. -/
def evaluate_one (evaluator : StrategyEvaluator Strategy) (snapshot : Snapshot) :
    StrategyPy Strategy Unit :=
  Prog.swallow do
    let record ← evaluator.evaluate classes snapshot
    self.save_evaluation record
    self.emit evaluator record

def evaluate_all (snapshot : Snapshot) : List (StrategyEvaluator Strategy) → StrategyPy Strategy Unit
  | [] => return ()
  | evaluator :: evaluators => do
    self.evaluate_one classes evaluator snapshot
    evaluate_all snapshot evaluators

/-- `StrategyConsumer._process`. -/
def process (msg_id : Nat) : SnapshotField Snapshot → StrategyPy Strategy Unit
  | .empty => ack msg_id
  | .malformed => ack msg_id
  | .valid snapshot => do
    let a ← attributes
    self.evaluate_all classes snapshot
      (StrategyRegistry.evaluators_for_symbol a.registry (classes.symbol snapshot))
    ack msg_id

/-! ## Reload -/

/-- Registers a strategy. A row with an unknown state is left out. -/
def register_row (row : StrategyRow) (strategy : Strategy) : StrategyPy Strategy Unit :=
  match StrategyState.ofValue row.state with
  | .error _ => return ()
  | .ok state => do
    let a ← attributes
    let evaluator : StrategyEvaluator Strategy :=
      ⟨row.id, row.version, state, strategy, row.symbol_filters⟩
    assign { a with registry := StrategyRegistry.register a.registry evaluator }

def register_rows : List StrategyRow → StrategyPy Strategy Unit
  | [] => return ()
  | row :: rows => do
    let strategy ← Prog.ofExcept (classes.build_strategy row.id row.version
      (row.rules.orDefault (.arr [])) (row.parameters.orDefault (.obj [])))
    register_row row strategy
    register_rows rows

def reload_strategies : StrategyPy Strategy Unit :=
  if self.repository then
    Prog.swallow do
      let rows ← external .list_active_strategies
      let a ← attributes
      assign { a with registry := .empty }
      register_rows classes rows
  else return ()

/-- What a round does before its read. -/
def reload_when_due : StrategyPy Strategy Unit := do
  let now ← external .monotonic
  let a ← attributes
  if self.settings.strategy_reload_interval_s ≤ now - a.last_reload_at then do
    self.reload_strategies classes
    let a ← attributes
    assign { a with last_reload_at := now }
  else return ()

/-- The calls of a reload: it reads the clock and the strategies, and writes the registry. -/
def Reloads : StrategyCmd Strategy → Prop
  | .external .monotonic | .external .list_active_strategies | .attributes | .assign _ => True
  | _ => False

theorem calls_register_rows (rows : List StrategyRow) :
    (register_rows classes rows).Calls Reloads := by
  induction rows with
  | nil => trivial
  | cons row rows ih =>
    unfold register_rows
    apply calls_bind (calls_ofExcept _)
    intro strategy
    apply calls_bind
    · unfold register_row
      split
      · trivial
      · exact calls_bind (calls_perform trivial) fun a => calls_perform trivial
    · intro u
      exact ih

theorem calls_reload : (self.reload_strategies classes).Calls Reloads := by
  unfold reload_strategies
  split
  · apply calls_swallow
    apply calls_bind (calls_perform trivial)
    intro rows
    apply calls_bind (calls_perform trivial)
    intro a
    apply calls_bind (calls_perform trivial)
    intro u
    exact calls_register_rows classes rows
  · trivial

theorem calls_reload_when_due : (self.reload_when_due classes).Calls Reloads := by
  unfold reload_when_due
  apply calls_bind (calls_perform trivial)
  intro now
  apply calls_bind (calls_perform trivial)
  intro a
  split
  · apply calls_bind (self.calls_reload classes)
    intro u
    exact calls_bind (calls_perform trivial) fun a => calls_perform trivial
  · trivial

section Laws

variable {idle : (c : External) → Except PyErr c.Ans}

theorem returns_attributes :
    Returns Attributes.exec idle (attributes : StrategyPy Strategy (Attributes Strategy)) :=
  fun s _ => ⟨s, rfl⟩

theorem returns_evaluate_all (snapshot : Snapshot) (evaluators : List (StrategyEvaluator Strategy)) :
    Returns Attributes.exec idle (self.evaluate_all classes snapshot evaluators) := by
  induction evaluators with
  | nil => exact returns_done ()
  | cons evaluator evaluators ih =>
    unfold evaluate_all
    apply returns_bind
    · exact returns_swallow _
    · intro _
      exact ih

/-- The handling of a snapshot never raises. -/
theorem returns_process (msg_id : Nat) (field : SnapshotField Snapshot) :
    Returns Attributes.exec idle (self.process classes msg_id field) := by
  cases field with
  | empty => exact returns_swallow _
  | malformed => exact returns_swallow _
  | valid snapshot =>
    unfold process
    apply returns_bind returns_attributes
    intro a
    apply returns_bind (self.returns_evaluate_all classes snapshot _)
    intro _
    exact returns_swallow _

end Laws

end StrategyConsumer

end trading_platform.strategy_service
