-- The intents that the strategy service publishes, along its runs. The registry knows the
-- symbols of a strategy and not its market, so a strategy is evaluated on the snapshots of
-- both markets, and its intent takes the market of the snapshot.
import TradingPlatform.Strategy.Reload

open resumption
open keyed
open trading_platform.shared

namespace trading_platform.strategy_service

/-! ## Strategies and their scopes -/

/-- What a strategy is for. -/
structure Scope where
  market_type : MarketType
  symbol_filters : List String
  deriving DecidableEq

/-- The symbol is one that the filters admit. -/
def Scope.admits (scope : Scope) (symbol : String) : Prop :=
  scope.symbol_filters = [] ∨ symbol ∈ scope.symbol_filters

def StrategyRow.scope (row : StrategyRow) : Scope := ⟨row.market_type, row.symbol_filters⟩

/-- The answers of the environment to one call. The rows that the repository gives have the
scopes of their strategies; their states and their versions may change between two reloads. -/
structure Environment (scope : Uuid → Scope) where
  answer : (c : External) → Except PyErr c.Ans
  distinct : ∀ rows, answer .list_active_strategies = .ok rows → (rows.map StrategyRow.id).Nodup
  in_scope : ∀ rows, answer .list_active_strategies = .ok rows →
    ∀ row ∈ rows, row.scope = scope row.id

/-- The intent has the market of its strategy, and a symbol that the filters admit. -/
def InScope (scope : Uuid → Scope) (intent : TradeIntent) : Prop :=
  ∃ id, intent.strategy_id = some id ∧ intent.market_type = (scope id).market_type ∧
    (scope id).admits intent.symbol

/-! ## Runs -/

/-- What the consumer does next: its first reload, what a round does before it reads, or the
handling of one entry of a batch. -/
inductive Step where
  | reload
  | reload_when_due
  | entry (msg_id : Nat) (field : SnapshotField UnifiedDecisionSnapshot)

def Step.program (self : StrategyConsumer) : Step → StrategyPy BaseStrategy Unit
  | .reload => self.reload_strategies strategy_classes
  | .reload_when_due => self.reload_when_due strategy_classes
  | .entry msg_id field => self.process strategy_classes msg_id field

def intent_of : StrategyCmd BaseStrategy → Option TradeIntent
  | .external (.publish intent _) => some intent
  | _ => none

/-- Some strategy that takes the symbol is in a publishing state and finds an intent in the
snapshot. -/
structure Signals (ev : StrategyEvaluator BaseStrategy) (snapshot : UnifiedDecisionSnapshot) :
    Prop where
  emits : ev.can_emit_intent = true
  complete : ev.strategy.validate_snapshot snapshot = .ok []
  found : ∃ intent_id result, ev.strategy.evaluate snapshot intent_id = .ok result ∧
    result.signal = true ∧ result.trade_intent.isSome = true

section Runs

variable {scope : Uuid → Scope} (self : StrategyConsumer) (idle : Environment scope)

/-- The intents that a run hands to the stream. -/
def published : Attributes BaseStrategy → List (Step × List (Environment scope)) →
    List TradeIntent
  | _, [] => []
  | a, (step, os) :: steps =>
    (performed (Attributes.choose Environment.answer) idle (step.program self) a os).filterMap
        intent_of ++
      published (run (Attributes.choose Environment.answer) idle (step.program self) a os).2.1 steps

/-- The strategies that signal on the snapshot are those of its market. -/
def OnMarket (scope : Uuid → Scope) (registry : StrategyRegistry BaseStrategy)
    (snapshot : UnifiedDecisionSnapshot) : Prop :=
  ∀ ev ∈ StrategyRegistry.evaluators_for_symbol registry snapshot.symbol,
    Signals ev snapshot → (scope ev.strategy_id).market_type = snapshot.market_type

/-- The condition at the start of a step. -/
def Step.OnMarket (scope : Uuid → Scope) (a : Attributes BaseStrategy) : Step → Prop
  | .entry _ (.valid snapshot) => strategy_service.OnMarket scope a.registry snapshot
  | _ => True

/-- Every snapshot of the run meets only strategies of its market. -/
def AllOnMarket : Attributes BaseStrategy → List (Step × List (Environment scope)) → Prop
  | _, [] => True
  | a, (step, os) :: steps =>
    step.OnMarket scope a ∧
      AllOnMarket (run (Attributes.choose Environment.answer) idle (step.program self) a os).2.1
        steps

end Runs

/-! ## The registry -/

/-- The evaluators have the filters of their strategies, and evaluate under their ids. -/
def Loaded (scope : Uuid → Scope) (registry : StrategyRegistry BaseStrategy) : Prop :=
  ∀ ev ∈ registry.rows, (scope ev.strategy_id).symbol_filters = ev.symbol_filters ∧
    ev.strategy.strategy_id = ev.strategy_id

theorem loaded_of_rows {scope : Uuid → Scope} {registry : StrategyRegistry BaseStrategy}
    {rows : List StrategyRow} (hscoped : ∀ row ∈ rows, row.scope = scope row.id)
    (h : registry.rows = (rows.takeWhile StrategyRow.buildable).filterMap evaluator_of) :
    Loaded scope registry := by
  intro ev hev
  rw [h] at hev
  obtain ⟨row, hrow, hevaluator⟩ := List.mem_filterMap.mp hev
  have hid := id_of_evaluator hevaluator
  have hscope := hscoped row ((List.takeWhile_prefix _).subset hrow)
  rw [hid, ← hscope]
  unfold evaluator_of at hevaluator
  split at hevaluator
  · rename_i strategy state hbuild hstate
    cases hevaluator
    exact ⟨rfl, strategy_id_of_build hbuild⟩
  · cases hevaluator

section Laws

variable {scope : Uuid → Scope} {self : StrategyConsumer} {idle : Environment scope}

theorem loaded_reload {a : Attributes BaseStrategy} (h : Loaded scope a.registry)
    (os : List (Environment scope)) :
    Loaded scope (run (Attributes.choose Environment.answer) idle
      (self.reload_strategies strategy_classes) a os).2.1.registry := by
  have hrows := @run_reload _ Environment.answer idle self a os (os.headD idle).distinct
  cases hrepository : self.repository with
  | false =>
    rw [hrepository] at hrows
    dsimp only at hrows
    unfold Loaded
    rw [hrows]
    exact h
  | true =>
    rw [hrepository] at hrows
    cases hlist : (os.headD idle).answer .list_active_strategies with
    | error e =>
      rw [hlist] at hrows
      dsimp only at hrows
      unfold Loaded
      rw [hrows]
      exact h
    | ok rows =>
      rw [hlist] at hrows
      exact loaded_of_rows ((os.headD idle).in_scope rows hlist) hrows

theorem loaded_reload_when_due {a : Attributes BaseStrategy} (h : Loaded scope a.registry)
    (os : List (Environment scope)) :
    Loaded scope (run (Attributes.choose Environment.answer) idle
      (self.reload_when_due strategy_classes) a os).2.1.registry := by
  unfold StrategyConsumer.reload_when_due
  rw [run_bind, run_external]
  cases (os.headD idle).answer .monotonic with
  | error e => exact h
  | ok now =>
    show Loaded scope (run _ _ (if _ then _ else _) a os.tail.tail).2.1.registry
    split
    · rw [run_bind]
      have hreload := @loaded_reload scope self idle a h os.tail.tail
      rcases hrun : run (Attributes.choose Environment.answer) idle
        (self.reload_strategies strategy_classes) a os.tail.tail with ⟨r, a', os'⟩
      rw [hrun] at hreload
      cases r with
      | error e => exact hreload
      | ok u => exact hreload
    · exact h

/-! ## One snapshot -/

/-- What the handling of a snapshot may hand to the stream. -/
def Quiet (evaluators : List (StrategyEvaluator BaseStrategy)) (snapshot : UnifiedDecisionSnapshot)
    (c : StrategyCmd BaseStrategy) : Prop :=
  (∃ e, c = .external e) ∧ ∀ intent, intent_of c = some intent →
    ∃ ev ∈ evaluators, Signals ev snapshot ∧ IntentOf ev.strategy snapshot intent

/-- A call that is no publish. -/
theorem quiet_external {evaluators : List (StrategyEvaluator BaseStrategy)}
    {snapshot : UnifiedDecisionSnapshot} {c : External}
    (h : intent_of (StrategyCmd.external c : StrategyCmd BaseStrategy) = none) :
    Quiet evaluators snapshot (.external c) := by
  refine ⟨⟨c, rfl⟩, fun intent hintent => ?_⟩
  rw [h] at hintent
  cases hintent

theorem calls_emit {ev : StrategyEvaluator BaseStrategy} {snapshot : UnifiedDecisionSnapshot}
    {record : StrategyEvaluation}
    (h : ∀ intent, record.trade_intent = some intent → ev.can_emit_intent = true →
      record.signal = true → Signals ev snapshot ∧ IntentOf ev.strategy snapshot intent) :
    (self.emit ev record).Calls (Quiet [ev] snapshot) := by
  unfold StrategyConsumer.emit
  cases hintent : record.trade_intent with
  | none => trivial
  | some intent =>
    by_cases hemit : (ev.can_emit_intent && record.signal) = true
    · obtain ⟨hcan, hsignal⟩ := Bool.and_eq_true_iff.mp hemit
      dsimp only
      rw [if_pos hemit]
      apply calls_bind
      · apply calls_perform
        refine ⟨⟨_, rfl⟩, fun i hi => ?_⟩
        cases hi
        exact ⟨ev, List.mem_singleton_self ev, h intent hintent hcan hsignal⟩
      · intro u
        unfold StrategyConsumer.save_action
        split
        · exact calls_swallow (calls_perform (quiet_external rfl))
        · trivial
    · dsimp only
      rw [if_neg hemit]
      trivial

/-- A record with an intent says that the strategy found it. -/
theorem calls_evaluate_one (ev : StrategyEvaluator BaseStrategy)
    (snapshot : UnifiedDecisionSnapshot) :
    (self.evaluate_one strategy_classes ev snapshot).Calls (Quiet [ev] snapshot) := by
  have hrest : ∀ record : StrategyEvaluation,
      (∀ intent, record.trade_intent = some intent → ev.can_emit_intent = true →
        record.signal = true → Signals ev snapshot ∧ IntentOf ev.strategy snapshot intent) →
      (self.save_evaluation record >>= fun _ => self.emit ev record :
        StrategyPy BaseStrategy Unit).Calls (Quiet [ev] snapshot) := by
    intro record h
    apply calls_bind
    · unfold StrategyConsumer.save_evaluation
      split
      · exact calls_swallow (calls_perform (quiet_external rfl))
      · trivial
    · intro u
      exact calls_emit h
  have hblocked : ∀ id, (self.save_evaluation (ev.no_signal strategy_classes id snapshot) >>=
      fun _ => self.emit ev (ev.no_signal strategy_classes id snapshot) :
        StrategyPy BaseStrategy Unit).Calls (Quiet [ev] snapshot) :=
    fun id => hrest _ fun intent hintent => by cases hintent
  unfold StrategyConsumer.evaluate_one StrategyEvaluator.evaluate
  apply calls_swallow
  split
  · cases hvalidate : ev.strategy.validate_snapshot snapshot with
    | error e =>
      show Prog.Calls _ ((Prog.ofExcept (ev.strategy.validate_snapshot snapshot) >>= _) >>= _)
      rw [hvalidate]
      trivial
    | ok missing =>
      show Prog.Calls _ ((Prog.ofExcept (ev.strategy.validate_snapshot snapshot) >>= _) >>= _)
      rw [hvalidate]
      refine ⟨quiet_external rfl, fun r => ?_⟩
      cases r with
      | error e => trivial
      | ok intent_id =>
        show Prog.Calls _ ((Prog.ofExcept (ev.strategy.evaluate snapshot intent_id) >>= _) >>= _)
        cases hevaluate : ev.strategy.evaluate snapshot intent_id with
        | error e => trivial
        | ok result =>
          refine ⟨quiet_external rfl, fun r => ?_⟩
          cases r with
          | error e => trivial
          | ok id =>
            apply hrest
            intro intent hintent hcan hsignal
            unfold StrategyEvaluator.record at hintent hsignal
            by_cases hmissing : missing = []
            · subst hmissing
              rw [if_pos rfl] at hintent hsignal
              dsimp only at hintent hsignal
              refine ⟨⟨hcan, hvalidate, intent_id, result, hevaluate, hsignal, ?_⟩, ?_⟩
              · rw [hintent]
                rfl
              · exact result_of_evaluate hevaluate intent hintent
            · rw [if_neg hmissing] at hintent
              cases hintent
  · refine ⟨quiet_external rfl, fun r => ?_⟩
    cases r with
    | error e => trivial
    | ok id => exact hblocked id

theorem quiet_mono {evaluators evaluators' : List (StrategyEvaluator BaseStrategy)}
    {snapshot : UnifiedDecisionSnapshot} (h : evaluators ⊆ evaluators')
    {c : StrategyCmd BaseStrategy} (hc : Quiet evaluators snapshot c) :
    Quiet evaluators' snapshot c := by
  refine ⟨hc.1, fun intent hintent => ?_⟩
  obtain ⟨ev, hev, hsignals⟩ := hc.2 intent hintent
  exact ⟨ev, h hev, hsignals⟩

theorem calls_evaluate_all (snapshot : UnifiedDecisionSnapshot)
    (evaluators : List (StrategyEvaluator BaseStrategy)) :
    (self.evaluate_all strategy_classes snapshot evaluators).Calls (Quiet evaluators snapshot) := by
  induction evaluators with
  | nil => trivial
  | cons ev evaluators ih =>
    unfold StrategyConsumer.evaluate_all
    apply calls_bind
    · refine calls_mono (calls_evaluate_one ev snapshot) fun c hc => quiet_mono ?_ hc
      simp
    · intro u
      exact calls_mono ih fun c hc => quiet_mono (List.subset_cons_self ev evaluators) hc

theorem calls_entry (a : Attributes BaseStrategy) (snapshot : UnifiedDecisionSnapshot)
    (msg_id : Nat) :
    (self.evaluate_all strategy_classes snapshot
      (StrategyRegistry.evaluators_for_symbol a.registry snapshot.symbol) >>= fun _ =>
        StrategyConsumer.ack msg_id : StrategyPy BaseStrategy Unit).Calls
      (Quiet (StrategyRegistry.evaluators_for_symbol a.registry snapshot.symbol) snapshot) := by
  apply calls_bind (calls_evaluate_all snapshot _)
  intro u
  exact calls_swallow (calls_perform (quiet_external rfl))

/-! ## The steps of a run -/

/-- A call that publishes nothing. -/
def PublishesNone (c : StrategyCmd BaseStrategy) : Prop := intent_of c = none

theorem publishes_none_of_reloads {c : StrategyCmd BaseStrategy} (h : StrategyConsumer.Reloads c) :
    PublishesNone c := by
  cases c with
  | attributes => rfl
  | assign a => rfl
  | external c =>
    cases c with
    | monotonic | list_active_strategies => rfl
    | uuid4 | save_evaluation _ | save_action _ _ _ _ _ | publish _ _ | xack _ _ => exact h.elim

theorem not_published {p : StrategyPy BaseStrategy Unit} (hp : p.Calls PublishesNone)
    {a : Attributes BaseStrategy} {os : List (Environment scope)} {intent : TradeIntent}
    (h : intent ∈ (performed (Attributes.choose Environment.answer) idle p a os).filterMap
      intent_of) : False := by
  rw [filterMap_performed hp] at h
  cases h

/-- What one step hands to the stream, some strategy of the registry that takes the symbol
found in the snapshot of the step. -/
theorem published_by_step {step : Step} {a : Attributes BaseStrategy}
    {os : List (Environment scope)} {intent : TradeIntent}
    (h : intent ∈ (performed (Attributes.choose Environment.answer) idle (step.program self) a
      os).filterMap intent_of) :
    ∃ msg_id snapshot, step = .entry msg_id (.valid snapshot) ∧
      ∃ ev ∈ StrategyRegistry.evaluators_for_symbol a.registry snapshot.symbol,
        Signals ev snapshot ∧ IntentOf ev.strategy snapshot intent := by
  cases step with
  | reload =>
    exact (not_published (calls_mono (self.calls_reload _) fun _ => publishes_none_of_reloads) h).elim
  | reload_when_due =>
    exact (not_published (calls_mono (self.calls_reload_when_due _) fun _ =>
      publishes_none_of_reloads) h).elim
  | entry msg_id field =>
    have hack : (StrategyConsumer.ack msg_id : StrategyPy BaseStrategy Unit).Calls PublishesNone :=
      calls_swallow (calls_perform rfl)
    cases field with
    | empty => exact (not_published hack h).elim
    | malformed => exact (not_published hack h).elim
    | valid snapshot =>
      obtain ⟨c, hc, hintent⟩ := List.mem_filterMap.mp h
      refine ⟨msg_id, snapshot, rfl, ?_⟩
      rcases List.mem_cons.mp hc with rfl | hrest
      · cases hintent
      · exact (of_mem_performed (calls_entry a snapshot msg_id) a os.tail c hrest).2 intent hintent

/-- The handling of an entry leaves the registry as it is. -/
theorem registry_after_entry (a : Attributes BaseStrategy) (msg_id : Nat)
    (field : SnapshotField UnifiedDecisionSnapshot) (os : List (Environment scope)) :
    (run (Attributes.choose Environment.answer) idle
      (self.process strategy_classes msg_id field) a os).2.1 = a := by
  have hexternal : ∀ {p : StrategyPy BaseStrategy Unit}, p.Calls (fun c => ∃ e, c = .external e) →
      ∀ os, (run (Attributes.choose Environment.answer) idle p a os).2.1 = a := by
    intro p hp os
    refine run_keeps_of_calls (I := fun s => s = a) hp ?_ a os rfl
    rintro s c o ⟨e, rfl⟩ hs
    exact hs
  have hack : (StrategyConsumer.ack msg_id : StrategyPy BaseStrategy Unit).Calls
      fun c => ∃ e, c = .external e := calls_swallow (calls_perform ⟨_, rfl⟩)
  cases field with
  | empty => exact hexternal hack os
  | malformed => exact hexternal hack os
  | valid snapshot =>
    exact hexternal (calls_mono (calls_entry a snapshot msg_id) fun c hc => hc.1) os.tail

theorem loaded_step {a : Attributes BaseStrategy} (h : Loaded scope a.registry) (step : Step)
    (os : List (Environment scope)) :
    Loaded scope (run (Attributes.choose Environment.answer) idle (step.program self) a
      os).2.1.registry := by
  cases step with
  | reload => exact loaded_reload h os
  | reload_when_due => exact loaded_reload_when_due h os
  | entry msg_id field =>
    have hafter := @registry_after_entry scope self idle a msg_id field os
    unfold Step.program
    rw [hafter]
    exact h

/-- An intent that a strategy of a loaded registry built has a symbol of its scope. -/
theorem symbol_in_scope {registry : StrategyRegistry BaseStrategy}
    (h : Loaded scope registry) {snapshot : UnifiedDecisionSnapshot} {intent : TradeIntent}
    {ev : StrategyEvaluator BaseStrategy}
    (hev : ev ∈ StrategyRegistry.evaluators_for_symbol registry snapshot.symbol)
    (hintent : IntentOf ev.strategy snapshot intent) :
    intent.strategy_id = some ev.strategy_id ∧ (scope ev.strategy_id).admits intent.symbol := by
  obtain ⟨hmem, hmatches⟩ := List.mem_filter.mp hev
  obtain ⟨hfilters, hid⟩ := h ev hmem
  refine ⟨hintent.strategy_id.trans (congrArg some hid), ?_⟩
  unfold Scope.admits
  rw [hfilters, hintent.symbol]
  simpa [StrategyEvaluator.matches_symbol] using hmatches

end Laws

/-! ## Runs -/

section Main

variable {scope : Uuid → Scope}

/-- Every intent of a run has a symbol of the strategy that built it. -/
theorem published_symbols (self : StrategyConsumer) (idle : Environment scope)
    (steps : List (Step × List (Environment scope))) (a : Attributes BaseStrategy)
    (h : Loaded scope a.registry) :
    ∀ intent ∈ published self idle a steps,
      ∃ id, intent.strategy_id = some id ∧ (scope id).admits intent.symbol := by
  induction steps generalizing a with
  | nil =>
    intro intent hintent
    cases hintent
  | cons x steps ih =>
    obtain ⟨step, os⟩ := x
    intro intent hintent
    rcases List.mem_append.mp hintent with hnow | hlater
    · obtain ⟨msg_id, snapshot, -, ev, hev, -, hof⟩ := published_by_step hnow
      exact ⟨ev.strategy_id, symbol_in_scope h hev hof⟩
    · exact ih _ (loaded_step h step os) intent hlater

theorem published_markets (self : StrategyConsumer) (idle : Environment scope)
    (steps : List (Step × List (Environment scope))) (a : Attributes BaseStrategy)
    (h : Loaded scope a.registry) (hall : AllOnMarket self idle a steps) :
    ∀ intent ∈ published self idle a steps,
      ∃ id, intent.strategy_id = some id ∧ intent.market_type = (scope id).market_type := by
  induction steps generalizing a with
  | nil =>
    intro intent hintent
    cases hintent
  | cons x steps ih =>
    obtain ⟨step, os⟩ := x
    obtain ⟨hon, hrest⟩ := hall
    intro intent hintent
    rcases List.mem_append.mp hintent with hnow | hlater
    · obtain ⟨msg_id, snapshot, rfl, ev, hev, hsignals, hof⟩ := published_by_step hnow
      refine ⟨ev.strategy_id, (symbol_in_scope h hev hof).1, ?_⟩
      rw [hon ev hev hsignals, hof.market_type]
    · exact ih _ (loaded_step h step os) hrest intent hlater

/-- In a run in which every snapshot meets only strategies of its market, every intent has
the market and a symbol of its strategy. -/
theorem intents_are_in_scope (self : StrategyConsumer) (idle : Environment scope)
    (steps : List (Step × List (Environment scope))) (hall : AllOnMarket self idle {} steps) :
    ∀ intent ∈ published self idle {} steps, InScope scope intent := by
  have hempty : Loaded scope ({} : Attributes BaseStrategy).registry := by
    intro ev hev
    cases hev
  intro intent hintent
  obtain ⟨id, hid, hmarket⟩ := published_markets self idle steps {} hempty hall intent hintent
  obtain ⟨id', hid', hadmits⟩ := published_symbols self idle steps {} hempty intent hintent
  obtain rfl := Option.some.inj (hid.symm.trans hid')
  exact ⟨id, hid, hmarket, hadmits⟩

end Main

/-- A strategy of the spot market with a rule that is always met. -/
def spot_row : StrategyRow where
  id := "s1"
  market_type := .spot
  symbol_filters := ["BTCUSDT"]
  state := "paper_active"
  version := 1
  rules := .arr [.obj [("field", .str "flow_state.missing"), ("operator", .str "is_none")]]
  parameters := .obj []

def spot_scope : Uuid → Scope := fun _ => ⟨.spot, ["BTCUSDT"]⟩

def spot_environment : Environment spot_scope where
  answer
    | .list_active_strategies => .ok [spot_row]
    | .monotonic => .ok 0
    | .uuid4 => .ok "u"
    | .save_evaluation _ | .save_action .. | .publish .. | .xack .. => .ok ()
  distinct := by
    intro rows hrows
    cases hrows
    decide
  in_scope := by
    intro rows hrows row hrow
    cases hrows
    rw [List.mem_singleton.mp hrow]
    rfl

/-- The strategies are loaded, and a snapshot of the market comes in. -/
def one_snapshot (market_type : MarketType) : List (Step × List (Environment spot_scope)) :=
  [(.reload, []),
    (.entry 0 (.valid { symbol := "BTCUSDT", market_type, snapshot_timestamp_ms := 1, price := some 100 }),
      [])]

/-- On a snapshot of its market the strategy publishes an intent of its market. -/
theorem a_spot_intent_is_published :
    (published {} spot_environment {} (one_snapshot .spot)).length = 1 ∧
      ∀ intent ∈ published {} spot_environment {} (one_snapshot .spot),
        InScope spot_scope intent :=
  ⟨by decide +kernel, intents_are_in_scope {} spot_environment (one_snapshot .spot)
    ⟨trivial, fun _ _ _ => rfl, trivial⟩⟩

/-- On a snapshot of the futures market it publishes one of the futures market. -/
theorem a_spot_strategy_trades_futures :
    ¬ ∀ intent ∈ published {} spot_environment {} (one_snapshot .futures),
      InScope spot_scope intent := by
  intro h
  have hmarkets : (published {} spot_environment {} (one_snapshot .futures)).map
      (·.market_type) = [.futures] := by decide +kernel
  rcases hlist : published {} spot_environment {} (one_snapshot .futures) with - | ⟨intent, rest⟩
  · rw [hlist] at hmarkets
    cases hmarkets
  · rw [hlist] at h hmarkets
    obtain ⟨id, -, hspot, -⟩ := h intent List.mem_cons_self
    rw [List.map_cons] at hmarkets
    have hfutures := (List.cons.inj hmarkets).1
    rw [hspot] at hfutures
    cases hfutures

end trading_platform.strategy_service
