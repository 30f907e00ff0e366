-- The dry run of a strategy on the stored snapshot, beside what the consumer of the strategy
-- service does with that snapshot. The dry run evaluates the strategy without asking whether
-- its filters take the symbol.
import TradingPlatform.Strategy.Evaluations
import TradingPlatform.Strategy.IntentMarket
import TradingPlatform.Strategy.Repository

open resumption
open keyed
open trading_platform.shared
open trading_platform.strategy_service

namespace trading_platform.mcp_server

/-! ## The facade -/

/-- What a dry run reads: the tables, and the snapshots under their Redis keys. -/
structure SimulationStores where
  tables : Tables
  redis : String → SnapshotField UnifiedDecisionSnapshot

/-- The texts of the decimals are kept as their values. -/
structure HypotheticalIntent where
  symbol : String
  side : String
  order_type : String
  size : ℚ
  size_usd : Option ℚ
  intent_type : String

structure Simulation where
  strategy_id : String
  symbol : String
  market_type : String
  strategy_state : String
  snapshot_timestamp_ms : Int
  signal : Bool
  direction : Option String
  confidence : Option PyFloat
  simulation_note : String := "Dry-run only. No intent was published to the execution stream."
  hypothetical_intent : Option HypotheticalIntent

inductive SimulationReply where
  | failed (error message : String)
  /-- The message is that of the exception. -/
  | snapshot_parse_error
  | simulated (simulation : Simulation)

/-- No strategy sets `intent_type`, so it has its default. -/
def hypothetical_intent_of (intent : TradeIntent) : HypotheticalIntent where
  symbol := intent.symbol
  side := intent.side.value
  order_type := intent.order_type.value
  size := intent.size
  -- a notional of zero is falsy
  size_usd := intent.size_usd.filter (· ≠ 0)
  intent_type := "OPEN"

def simulation_of (strategy_id symbol market_type strategy_state : String)
    (eval_record : StrategyEvaluation) : Simulation where
  strategy_id
  symbol
  market_type
  strategy_state
  snapshot_timestamp_ms := eval_record.snapshot_timestamp_ms
  signal := eval_record.signal
  direction := eval_record.direction
  confidence := eval_record.confidence
  hypothetical_intent := eval_record.trade_intent.map hypothetical_intent_of

def simulate_strategy_on_snapshot (stores : SimulationStores) (strategy_id symbol : String)
    (market_type : String := "futures") : StrategyPy BaseStrategy SimulationReply :=
  match UUID strategy_id with
  | .error _ => return .failed "invalid_strategy_id" s!"Invalid UUID: {strategy_id}"
  | .ok sid =>
    match stores.tables.strategies.find sid with
    | none => return .failed "not_found" s!"Strategy {strategy_id} not found"
    | some strategy =>
      match stores.tables.strategy_versions.find (sid, strategy.current_version) with
      | none =>
        return .failed "version_not_found" s!"No version record for strategy {strategy_id} v{strategy.current_version}"
      | some version =>
        match stores.redis (RedisKeys.analytics_snapshot market_type symbol) with
        | .empty =>
          return .failed "no_snapshot" s!"No analytics snapshot for {symbol}/{market_type}. Ensure analytics service is running and has processed data for this symbol."
        | .malformed => return .snapshot_parse_error
        | .valid snapshot => do
          let strategy_obj ← Prog.ofExcept (build_strategy sid version.version
            (version.rules.orDefault (.arr [])) (version.parameters.orDefault (.obj [])))
          let state := match StrategyState.ofValue strategy.state with
            | .ok state => state
            | .error _ => .simulation
          let evaluator : StrategyEvaluator BaseStrategy :=
            ⟨sid, version.version, state, strategy_obj, strategy.symbol_filters⟩
          let eval_record ← evaluator.evaluate strategy_classes snapshot
          return .simulated (simulation_of strategy_id symbol market_type strategy.state eval_record)

-- The parser of UUIDs need not be unfolded to see what a dry run does.
attribute [local irreducible] UUID

/-- A dry run publishes nothing: it only draws the ids of its records. -/
theorem simulate_calls (stores : SimulationStores) (strategy_id symbol market_type : String) :
    (simulate_strategy_on_snapshot stores strategy_id symbol market_type).Calls
      fun c => c = .external .uuid4 := by
  unfold simulate_strategy_on_snapshot
  split
  · trivial
  · split
    · trivial
    · split
      · trivial
      · split
        · trivial
        · trivial
        · apply calls_bind (calls_ofExcept _)
          intro strategy_obj
          apply calls_bind (evaluate_calls _ _)
          intro eval_record
          trivial

/-! ## A dry run and the consumer -/

/-- The hypothetical intent of a reply, with what the reply says beside it. -/
def hypothetical : Except PyErr SimulationReply → Option (Simulation × HypotheticalIntent)
  | .ok (.simulated simulation) => simulation.hypothetical_intent.map fun intent => (simulation, intent)
  | _ => none

/-- The reply shows the trade that was published, and the evaluation that it came from. -/
structure Shows (simulation : Simulation) (intent : HypotheticalIntent)
    (record : StrategyEvaluation) (published : TradeIntent) : Prop where
  symbol : intent.symbol = published.symbol
  side : intent.side = published.side.value
  order_type : intent.order_type = published.order_type.value
  size : intent.size = published.size
  size_usd : intent.size_usd = published.size_usd
  signal : simulation.signal = record.signal
  direction : simulation.direction = record.direction
  confidence : simulation.confidence = record.confidence

/-- The reply has a hypothetical intent exactly where the consumer publishes an intent of the
strategy, and shows that intent. -/
def Predicts (reply : Except PyErr SimulationReply) (told : List Told) : Prop :=
  match hypothetical reply with
  | none => ∀ intent, Told.published intent ∉ told
  | some (simulation, intent) => ∃ record published,
      told = [.evaluated record, .published published] ∧ Shows simulation intent record published

/-- Where the strategy of the row signals on the snapshot, its filters take the symbol of the
snapshot, and its notional is not zero. -/
def Foreseeable (row : StrategyRow) (snapshot : UnifiedDecisionSnapshot) : Prop :=
  ∀ ev, evaluator_of row = some ev → Signals ev snapshot →
    (row.symbol_filters = [] ∨ snapshot.symbol ∈ row.symbol_filters) ∧
      size_usd_of (row.parameters.orDefault (.obj [])) ≠ .ok 0

/-! ## What both evaluate -/

/-- The evaluator of a row, part by part. -/
theorem evaluator_of_eq_some {row : StrategyRow} {ev : StrategyEvaluator BaseStrategy} :
    evaluator_of row = some ev ↔ ∃ strategy state,
      build_strategy row.id row.version (row.rules.orDefault (.arr []))
        (row.parameters.orDefault (.obj [])) = .ok strategy ∧
      StrategyState.ofValue row.state = .ok state ∧
      ev = ⟨row.id, row.version, state, strategy, row.symbol_filters⟩ := by
  unfold evaluator_of
  cases build_strategy row.id row.version (row.rules.orDefault (.arr []))
      (row.parameters.orDefault (.obj [])) with
  | error e => simp
  | ok strategy =>
    cases StrategyState.ofValue row.state with
    | error e => simp
    | ok state => simp [eq_comm]

theorem own_ids_of_rows {evaluators : List (StrategyEvaluator BaseStrategy)}
    (h : ∀ ev ∈ evaluators, ∃ row, evaluator_of row = some ev) : OwnIds evaluators := by
  intro ev hev
  obtain ⟨row, hrow⟩ := h ev hev
  obtain ⟨strategy, state, hbuild, -, rfl⟩ := evaluator_of_eq_some.mp hrow
  exact strategy_id_of_build hbuild

section Outcome

variable {ev : StrategyEvaluator BaseStrategy} {snapshot : UnifiedDecisionSnapshot}

theorem can_simulate_of_emits {state : StrategyState}
    (h : LifecycleManager.can_emit_intents state = true) :
    LifecycleManager.can_simulate state = true := by
  revert h
  cases state <;> decide

/-- A strategy that signals comes to a record with its intent, whatever ids it draws. -/
theorem outcome_of_signals (h : Signals ev snapshot) (intent_id id : Uuid) :
    ∃ record intent q, ev.outcome snapshot intent_id id = .ok record ∧
      record.signal = true ∧ record.trade_intent = some intent ∧
      size_usd_of ev.strategy.parameters = .ok q ∧ intent.size_usd = some q := by
  obtain ⟨drawn, result, hresult, hsignal, hintent⟩ := h.found
  obtain ⟨intent, hsome⟩ := Option.isSome_iff_exists.mp hintent
  rcases signal_cases hresult with ⟨hfalse, -⟩ | ⟨intent', q, -, hsome', hq, hsize⟩
  · rw [hsignal] at hfalse
    cases hfalse
  · obtain rfl := Option.some.inj (hsome.symm.trans hsome')
    have hnamed := evaluate_named ev.strategy snapshot drawn intent_id
    rw [hresult] at hnamed
    refine ⟨ev.record strategy_classes id snapshot [] (result.named intent_id),
      { intent with intent_id }, q, ?_, hsignal, ?_, hq, hsize⟩
    · unfold StrategyEvaluator.outcome
      rw [if_pos (can_simulate_of_emits h.emits), h.complete, hnamed]
      rfl
    · show result.trade_intent.map _ = _
      rw [hsome]
      rfl

/-- A strategy that emits and comes to a record with an intent signals. -/
theorem signals_of_outcome (hemits : ev.can_emit_intent = true) {intent_id id : Uuid}
    {record : StrategyEvaluation} {intent : TradeIntent}
    (h : ev.outcome snapshot intent_id id = .ok record) (hintent : record.trade_intent = some intent) :
    Signals ev snapshot := by
  rcases outcome_cases h with rfl | ⟨-, hcomplete, result, hresult, rfl⟩
  · cases hintent
  · refine ⟨hemits, hcomplete, intent_id, result, hresult, ?_⟩
    have hsome : result.trade_intent = some intent := hintent
    rcases signal_cases hresult with ⟨-, hnone⟩ | ⟨_, _, hsignal, -, -, -⟩
    · rw [hsome] at hnone
      cases hnone
    · refine ⟨hsignal, ?_⟩
      rw [hsome]
      rfl

end Outcome

/-! ## The prediction -/

section Main

variable {ev : StrategyEvaluator BaseStrategy} {snapshot : UnifiedDecisionSnapshot}

/-- A dry run that came to the record, with ids of its own. -/
def reply_of (strategy_id symbol market_type strategy_state : String)
    (outcome : Except PyErr StrategyEvaluation) : Except PyErr SimulationReply :=
  outcome.map fun record =>
    .simulated (simulation_of strategy_id symbol market_type strategy_state record)

variable {strategy_id symbol market_type strategy_state : String}
  {intent_id id other_intent other : Uuid}

/-- What a reply shows of a record. -/
theorem hypothetical_reply_of (record : StrategyEvaluation) :
    hypothetical (reply_of strategy_id symbol market_type strategy_state
      ((Except.ok record).map (·.named other_intent other))) =
        record.trade_intent.map fun intent =>
          (simulation_of strategy_id symbol market_type strategy_state
            (record.named other_intent other),
          hypothetical_intent_of { intent with intent_id := other_intent }) := by
  show Option.map _ (Option.map _ (Option.map _ record.trade_intent)) = _
  rw [Option.map_map, Option.map_map]
  rfl

/-- A reply without a hypothetical intent, for a strategy that does not signal. -/
theorem hypothetical_of_silent (hemits : ev.can_emit_intent = true) (h : ¬ Signals ev snapshot) :
    hypothetical (reply_of strategy_id symbol market_type strategy_state
      ((ev.outcome snapshot intent_id id).map (·.named other_intent other))) = none := by
  cases houtcome : ev.outcome snapshot intent_id id with
  | error e => rfl
  | ok record =>
    cases hintent : record.trade_intent with
    | none => rw [hypothetical_reply_of, hintent, Option.map_none]
    | some intent => exact absurd (signals_of_outcome hemits houtcome hintent) h

theorem not_told_of_silent (hemits : ev.can_emit_intent = true) (h : ¬ Signals ev snapshot)
    (intent : TradeIntent) :
    Told.published intent ∉ ev.tells (ev.outcome snapshot intent_id id) := by
  cases houtcome : ev.outcome snapshot intent_id id with
  | error e => simp [StrategyEvaluator.tells]
  | ok record =>
    cases hintent : record.trade_intent with
    | none => simp [StrategyEvaluator.tells, hintent]
    | some intent => exact absurd (signals_of_outcome hemits houtcome hintent) h

/-- Where the consumer evaluates the strategy too, the notional alone can differ. -/
theorem predicts_same_iff (hemits : ev.can_emit_intent = true) :
    Predicts (reply_of strategy_id symbol market_type strategy_state
      ((ev.outcome snapshot intent_id id).map (·.named other_intent other)))
      (ev.tells (ev.outcome snapshot intent_id id)) ↔
        (Signals ev snapshot → size_usd_of ev.strategy.parameters ≠ .ok 0) := by
  by_cases hsignals : Signals ev snapshot
  · obtain ⟨record, intent, q, houtcome, hsignal, hintent, hq, hsize⟩ :=
      outcome_of_signals hsignals intent_id id
    have htells : ev.tells (ev.outcome snapshot intent_id id) =
        [.evaluated record, .published intent] := by
      rw [houtcome]
      simp [StrategyEvaluator.tells, hintent, hsignal, hemits]
    rw [htells, houtcome, hq]
    unfold Predicts
    rw [hypothetical_reply_of, hintent, Option.map_some]
    dsimp only
    constructor
    · rintro ⟨record', published, htold, hshows⟩ - hzero
      cases hzero
      obtain ⟨-, hpublished⟩ := List.cons.inj htold
      cases hpublished
      have hnotional := hshows.size_usd
      simp [hypothetical_intent_of, hsize] at hnotional
    · intro hne
      have hq0 : q ≠ 0 := fun hzero => hne hsignals (by rw [hzero])
      refine ⟨record, intent, rfl, rfl, rfl, rfl, rfl, ?_, rfl, rfl, rfl⟩
      simp [hypothetical_intent_of, hsize, hq0]
  · refine iff_of_true ?_ fun h => absurd h hsignals
    unfold Predicts
    rw [hypothetical_of_silent hemits hsignals]
    exact not_told_of_silent hemits hsignals

/-- Where the consumer leaves the strategy out, a dry run must find nothing. -/
theorem predicts_none_iff (hemits : ev.can_emit_intent = true) :
    Predicts (reply_of strategy_id symbol market_type strategy_state
      ((ev.outcome snapshot intent_id id).map (·.named other_intent other))) [] ↔
        ¬ Signals ev snapshot := by
  by_cases hsignals : Signals ev snapshot
  · refine iff_of_false ?_ (not_not_intro hsignals)
    obtain ⟨record, intent, q, houtcome, -, hintent, -, -⟩ :=
      outcome_of_signals hsignals intent_id id
    unfold Predicts
    rw [houtcome, hypothetical_reply_of, hintent, Option.map_some]
    rintro ⟨record', published, htold, -⟩
    cases htold
  · refine iff_of_true ?_ hsignals
    unfold Predicts
    rw [hypothetical_of_silent hemits hsignals]
    intro intent hmem
    cases hmem

variable {stores : SimulationStores} {strategy : StrategyModel} {version : StrategyVersionModel}

/-- A dry run on a stored snapshot replies with what its own evaluator comes to. -/
theorem run_simulate (hrow : stores.tables.HasActive strategy version)
    (hid : UUID strategy_id = .ok strategy.id)
    (hsnapshot : stores.redis (RedisKeys.analytics_snapshot market_type symbol) = .valid snapshot)
    {state : StrategyState} (hstate : StrategyState.ofValue strategy.state = .ok state)
    (idle : Answers) (b : Attributes BaseStrategy) (os : List Answers) :
    ∃ intent_id id, (run (Attributes.choose Answers.answer) idle
      (simulate_strategy_on_snapshot stores strategy_id symbol market_type) b os).1 =
        (build_strategy strategy.id version.version (version.rules.orDefault (.arr []))
          (version.parameters.orDefault (.obj []))) >>= fun strategy_obj =>
            reply_of strategy_id symbol market_type strategy.state
              (StrategyEvaluator.outcome ⟨strategy.id, version.version, state, strategy_obj,
                strategy.symbol_filters⟩ snapshot intent_id id) := by
  unfold simulate_strategy_on_snapshot
  simp only [hid, hrow.row, hrow.current, hsnapshot, hstate]
  rw [run_ofExcept_bind]
  cases build_strategy strategy.id version.version (version.rules.orDefault (.arr []))
      (version.parameters.orDefault (.obj [])) with
  | error e => exact ⟨"", "", rfl⟩
  | ok strategy_obj =>
    dsimp only
    obtain ⟨intent_id, id, os', hrun⟩ := @run_evaluate idle
      ⟨strategy.id, version.version, state, strategy_obj, strategy.symbol_filters⟩ snapshot b os
    refine ⟨intent_id, id, ?_⟩
    rw [run_bind, hrun]
    change _ = reply_of _ _ _ _ (StrategyEvaluator.outcome _ snapshot intent_id id)
    cases StrategyEvaluator.outcome ⟨strategy.id, version.version, state, strategy_obj,
      strategy.symbol_filters⟩ snapshot intent_id id <;> rfl

/-- What the filters and the notional of a strategy decide about a prediction. -/
theorem predicts_iff (hemits : ev.can_emit_intent = true) :
    Predicts (reply_of strategy_id symbol market_type strategy_state
      ((ev.outcome snapshot intent_id id).map (·.named other_intent other)))
      (if ev.matches_symbol snapshot.symbol then ev.tells (ev.outcome snapshot intent_id id)
        else []) ↔
        (Signals ev snapshot → ev.matches_symbol snapshot.symbol = true ∧
          size_usd_of ev.strategy.parameters ≠ .ok 0) := by
  by_cases hmatches : ev.matches_symbol snapshot.symbol = true
  · rw [if_pos hmatches, predicts_same_iff hemits]
    simp only [hmatches, true_and]
  · rw [if_neg hmatches, predicts_none_iff hemits]
    exact ⟨fun h hsignals => absurd hsignals h, fun h hsignals => hmatches (h hsignals).1⟩

end Main

/-- The condition on a row that can be built. -/
theorem foreseeable_iff {row : StrategyRow} {ev : StrategyEvaluator BaseStrategy}
    (hev : evaluator_of row = some ev) {snapshot : UnifiedDecisionSnapshot} :
    Foreseeable row snapshot ↔
      (Signals ev snapshot → ev.matches_symbol snapshot.symbol = true ∧
        size_usd_of ev.strategy.parameters ≠ .ok 0) := by
  obtain ⟨strategy_obj, state, hbuild, -, hparts⟩ := evaluator_of_eq_some.mp hev
  have hparameters : ev.strategy.parameters = row.parameters.orDefault (.obj []) := by
    rw [hparts]
    exact (parts_of_build hbuild).2
  have hmatches : ev.matches_symbol snapshot.symbol = true ↔
      row.symbol_filters = [] ∨ snapshot.symbol ∈ row.symbol_filters := by
    rw [hparts]
    simp [StrategyEvaluator.matches_symbol]
  rw [hparameters, hmatches]
  unfold Foreseeable
  constructor
  · intro h
    exact h ev hev
  · intro h ev' hev'
    obtain rfl := Option.some.inj (hev.symm.trans hev')
    exact h

/-- Where no snapshot can be read, the dry run has no hypothetical intent and the consumer
acknowledges the entry. -/
theorem predicts_without_snapshot {stores : SimulationStores} {strategy : StrategyModel}
    {version : StrategyVersionModel} (hrow : stores.tables.HasActive strategy version)
    {strategy_id symbol market_type : String} (hid : UUID strategy_id = .ok strategy.id)
    (hnone : ∀ snapshot, stores.redis (RedisKeys.analytics_snapshot market_type symbol) ≠
      .valid snapshot) (self : StrategyConsumer) (idle idle' : Answers)
    (a b : Attributes BaseStrategy) (os os' : List Answers) (msg_id : Nat) :
    Predicts
      (run (Attributes.choose Answers.answer) idle
        (simulate_strategy_on_snapshot stores strategy_id symbol market_type) b os).1
      ((performed (Attributes.choose Answers.answer) idle'
        (self.process strategy_classes msg_id
          (stores.redis (RedisKeys.analytics_snapshot market_type symbol))) a os').filterMap
            (told strategy.id)) := by
  have hack : (performed (Attributes.choose Answers.answer) idle'
      (StrategyConsumer.ack msg_id : StrategyPy BaseStrategy Unit) a os').filterMap
        (told strategy.id) = [] :=
    filterMap_performed (calls_swallow (calls_perform rfl)) a os'
  unfold simulate_strategy_on_snapshot StrategyConsumer.process
  cases hfield : stores.redis (RedisKeys.analytics_snapshot market_type symbol) with
  | empty | malformed =>
    simp only [hid, hrow.row, hrow.current]
    rw [hack]
    intro intent hmem
    cases hmem
  | valid snapshot =>
    exfalso
    exact hnone snapshot hfield

/-- The dry run of a row that cannot be built raises. -/
theorem simulate_unbuildable {stores : SimulationStores} {strategy : StrategyModel}
    {version : StrategyVersionModel} (hrow : stores.tables.HasActive strategy version)
    {strategy_id symbol market_type : String} (hid : UUID strategy_id = .ok strategy.id)
    {snapshot : UnifiedDecisionSnapshot}
    (hsnapshot : stores.redis (RedisKeys.analytics_snapshot market_type symbol) = .valid snapshot)
    {state : StrategyState} (hnone : evaluator_of (joined (strategy.moved state) version) = none)
    (idle : Answers) (b : Attributes BaseStrategy) (os : List Answers) :
    hypothetical (run (Attributes.choose Answers.answer) idle
      (simulate_strategy_on_snapshot stores strategy_id symbol market_type) b os).1 = none := by
  obtain ⟨own, hown, -⟩ := state_of_active hrow.active
  have hstate : StrategyState.ofValue state.value = .ok state := by cases state <;> rfl
  obtain ⟨other_intent, other, hreply⟩ := run_simulate hrow hid hsnapshot hown idle b os
  rw [hreply]
  cases hbuild : build_strategy strategy.id version.version (version.rules.orDefault (.arr []))
      (version.parameters.orDefault (.obj [])) with
  | error e => rfl
  | ok strategy_obj =>
    have hsome : evaluator_of (joined (strategy.moved state) version) = some _ :=
      evaluator_of_eq_some.mpr ⟨strategy_obj, state, hbuild, hstate, rfl⟩
    rw [hnone] at hsome
    cases hsome

/-- The dry run of a row that can be built replies with what the evaluator of the row comes to
in an emitting state, up to the ids. -/
theorem simulate_buildable {stores : SimulationStores} {strategy : StrategyModel}
    {version : StrategyVersionModel} (hrow : stores.tables.HasActive strategy version)
    {strategy_id symbol market_type : String} (hid : UUID strategy_id = .ok strategy.id)
    {snapshot : UnifiedDecisionSnapshot}
    (hsnapshot : stores.redis (RedisKeys.analytics_snapshot market_type symbol) = .valid snapshot)
    {state : StrategyState} (hemits : LifecycleManager.can_emit_intents state = true)
    {ev : StrategyEvaluator BaseStrategy}
    (hev : evaluator_of (joined (strategy.moved state) version) = some ev)
    (idle : Answers) (b : Attributes BaseStrategy) (os : List Answers) (intent_id id : Uuid) :
    ev.can_emit_intent = true ∧ ∃ other_intent other,
      (run (Attributes.choose Answers.answer) idle
        (simulate_strategy_on_snapshot stores strategy_id symbol market_type) b os).1 =
          reply_of strategy_id symbol market_type strategy.state
            ((ev.outcome snapshot intent_id id).map (·.named other_intent other)) := by
  obtain ⟨own, hown, hsimulates⟩ := state_of_active hrow.active
  have hstate : StrategyState.ofValue state.value = .ok state := by cases state <;> rfl
  obtain ⟨strategy_obj, state', hbuild, hstate', rfl⟩ := evaluator_of_eq_some.mp hev
  obtain rfl := Except.ok.inj (hstate.symm.trans hstate')
  obtain ⟨other_intent, other, hreply⟩ := run_simulate hrow hid hsnapshot hown idle b os
  refine ⟨hemits, other_intent, other, ?_⟩
  simp only [joined, StrategyModel.moved] at hbuild ⊢
  rw [hreply, hbuild]
  change reply_of _ _ _ _ (StrategyEvaluator.outcome _ snapshot other_intent other) = _
  exact congrArg _ (outcome_named ⟨strategy.id, version.version, state, strategy_obj,
    strategy.symbol_filters⟩ (can_simulate_of_emits hemits) hsimulates snapshot intent_id id
    other_intent other)

/-- A dry run predicts what a consumer that has loaded the row in an emitting state does with
the stored snapshot, exactly where the filters take the symbol of the snapshot and the notional
is not zero, or the strategy does not signal. -/
theorem simulation_predicts_iff (stores : SimulationStores) {strategy : StrategyModel}
    {version : StrategyVersionModel} (hrow : stores.tables.HasActive strategy version)
    {strategy_id : String} (hid : UUID strategy_id = .ok strategy.id) (symbol market_type : String)
    (self : StrategyConsumer) (a : Attributes BaseStrategy) {state : StrategyState}
    (hemits : LifecycleManager.can_emit_intents state = true)
    (hloaded : HasLoaded self a (joined (strategy.moved state) version))
    (idle idle' : Answers) (b : Attributes BaseStrategy) (os os' : List Answers) (msg_id : Nat) :
    Predicts
      (run (Attributes.choose Answers.answer) idle
        (simulate_strategy_on_snapshot stores strategy_id symbol market_type) b os).1
      ((performed (Attributes.choose Answers.answer) idle'
        (self.process strategy_classes msg_id
          (stores.redis (RedisKeys.analytics_snapshot market_type symbol))) a os').filterMap
            (told strategy.id)) ↔
      ∀ snapshot, stores.redis (RedisKeys.analytics_snapshot market_type symbol) =
        .valid snapshot → Foreseeable (joined (strategy.moved state) version) snapshot := by
  by_cases hfield : ∃ snapshot,
      stores.redis (RedisKeys.analytics_snapshot market_type symbol) = .valid snapshot
  · obtain ⟨snapshot, hsnapshot⟩ := hfield
    have honly : (∀ snapshot', stores.redis (RedisKeys.analytics_snapshot market_type symbol) =
        .valid snapshot' → Foreseeable (joined (strategy.moved state) version) snapshot') ↔
          Foreseeable (joined (strategy.moved state) version) snapshot := by
      simp [hsnapshot]
    obtain ⟨intent_id, id, htold⟩ := @told_entry idle' self hloaded.repository a
      (own_ids_of_rows hloaded.of_rows) snapshot msg_id strategy.id os'
    have hfound : a.registry.find strategy.id =
        evaluator_of (joined (strategy.moved state) version) := hloaded.found
    rw [honly, hsnapshot, htold, hfound]
    cases hev : evaluator_of (joined (strategy.moved state) version) with
    | none =>
      -- the dry run raises, and nothing is registered
      refine iff_of_true ?_ fun ev hsome => ?_
      · unfold Predicts
        rw [simulate_unbuildable hrow hid hsnapshot hev idle b os]
        intro intent hmem
        cases hmem
      · rw [hev] at hsome
        cases hsome
    | some ev =>
      obtain ⟨hcan, other_intent, other, hreply⟩ :=
        simulate_buildable hrow hid hsnapshot hemits hev idle b os intent_id id
      rw [hreply, foreseeable_iff hev]
      exact predicts_iff hcan
  · have hnone : ∀ snapshot,
        stores.redis (RedisKeys.analytics_snapshot market_type symbol) ≠ .valid snapshot :=
      fun snapshot hsnapshot => hfield ⟨snapshot, hsnapshot⟩
    refine iff_of_true ?_ fun snapshot hsnapshot => ?_
    · exact predicts_without_snapshot hrow hid hnone self idle idle' a b os os' msg_id
    · exact absurd hsnapshot (hnone snapshot)

/-- A strategy in paper trading that buys on every snapshot. -/
def eager_strategy (symbol_filters : List String) : StrategyModel where
  id := "00000000-0000-0000-0000-000000000001"
  market_type := .futures
  symbol_filters
  state := "paper_active"
  current_version := 1

def eager_version : StrategyVersionModel where
  strategy_id := "00000000-0000-0000-0000-000000000001"
  version := 1
  rules := .arr [.obj [("field", .str "flow_state.missing"), ("operator", .str "is_none")]]
  parameters := .obj []

/-- The strategy alone, and one snapshot of BTCUSDT. -/
def eager_stores (symbol_filters : List String) : SimulationStores where
  tables := ⟨⟨[eager_strategy symbol_filters], List.nodup_singleton _⟩,
    ⟨[eager_version], List.nodup_singleton _⟩⟩
  redis key :=
    if key = "analytics:futures:BTCUSDT:snapshot" then
      .valid { symbol := "BTCUSDT", market_type := .futures, snapshot_timestamp_ms := 1,
               price := some 100 }
    else .empty

/-- The consumer after it has loaded the strategy. -/
def eager_attributes (symbol_filters : List String) : Attributes BaseStrategy :=
  StrategyConsumer.reloaded {} {} (.ok (eager_stores symbol_filters).tables.list_active_strategies)

def healthy : Answers where
  answer
    | .uuid4 => .ok "u"
    | .list_active_strategies => .ok []
    | .monotonic => .ok 0
    | .save_evaluation _ | .save_action .. | .publish .. | .xack .. => .ok ()
  id := "u"
  draws := rfl

theorem eager_has_active (symbol_filters : List String) :
    (eager_stores symbol_filters).tables.HasActive (eager_strategy symbol_filters)
      eager_version := by
  refine ⟨?_, rfl, rfl⟩
  rw [Table.find_eq_some]
  exact ⟨List.mem_singleton_self _, rfl⟩

theorem eager_has_loaded (symbol_filters : List String) :
    HasLoaded {} (eager_attributes symbol_filters)
      (joined ((eager_strategy symbol_filters).moved .paper_active) eager_version) := by
  apply has_loaded_of_reload rfl
  exact List.mem_singleton_self _

/-- The reply of a dry run of the strategy on BTCUSDT, and what the consumer tells of it. -/
def eager_reply (symbol_filters : List String) : Except PyErr SimulationReply :=
  (run (Attributes.choose Answers.answer) healthy
    (simulate_strategy_on_snapshot (eager_stores symbol_filters)
      "00000000-0000-0000-0000-000000000001" "BTCUSDT") ({} : Attributes BaseStrategy) []).1

def eager_told (symbol_filters : List String) : List Told :=
  (performed (Attributes.choose Answers.answer) healthy
    (StrategyConsumer.process strategy_classes {} 0 ((eager_stores symbol_filters).redis
      (RedisKeys.analytics_snapshot "futures" "BTCUSDT"))) (eager_attributes symbol_filters)
        []).filterMap (told "00000000-0000-0000-0000-000000000001")

/-- For a strategy of BTCUSDT the dry run shows the intent that is published. -/
theorem a_dry_run_is_borne_out : (hypothetical (eager_reply ["BTCUSDT"])).isSome = true ∧
    Predicts (eager_reply ["BTCUSDT"]) (eager_told ["BTCUSDT"]) := by
  have hid : UUID "00000000-0000-0000-0000-000000000001" = .ok (eager_strategy ["BTCUSDT"]).id := by
    decide +kernel
  have hemits : LifecycleManager.can_emit_intents .paper_active = true := by decide
  have hpredicts := simulation_predicts_iff (eager_stores ["BTCUSDT"]) (eager_has_active _) hid
    "BTCUSDT" "futures" {} (eager_attributes _) hemits (eager_has_loaded _) healthy healthy {} []
    [] 0
  refine ⟨by decide +kernel, hpredicts.mpr ?_⟩
  intro snapshot hsnapshot ev hev hsignals
  have hkey : RedisKeys.analytics_snapshot "futures" "BTCUSDT" =
      "analytics:futures:BTCUSDT:snapshot" := by decide
  unfold eager_stores at hsnapshot
  dsimp only at hsnapshot
  rw [hkey, if_pos rfl] at hsnapshot
  cases hsnapshot
  exact ⟨Or.inr (by decide), by decide +kernel⟩

/-- A strategy of ETHUSDT is active and loaded: the dry run on BTCUSDT shows an intent, and the
consumer publishes none. -/
theorem a_filtered_strategy_is_simulated :
    (eager_stores ["ETHUSDT"]).tables.HasActive (eager_strategy ["ETHUSDT"]) eager_version ∧
      HasLoaded {} (eager_attributes ["ETHUSDT"])
        (joined ((eager_strategy ["ETHUSDT"]).moved .paper_active) eager_version) ∧
      ¬ Predicts (eager_reply ["ETHUSDT"]) (eager_told ["ETHUSDT"]) := by
  refine ⟨eager_has_active _, eager_has_loaded _, ?_⟩
  have htold : (eager_told ["ETHUSDT"]).length = 0 := by decide +kernel
  have hshown : (hypothetical (eager_reply ["ETHUSDT"])).isSome = true := by decide +kernel
  obtain ⟨shown, hshown⟩ := Option.isSome_iff_exists.mp hshown
  unfold Predicts
  rw [hshown, List.length_eq_zero_iff.mp htold]
  rintro ⟨record, published, htold, -⟩
  cases htold

end trading_platform.mcp_server
