-- The evaluations that the consumer records beside the intents that it publishes. A row
-- gets the id of the intent that the evaluation came to, before the consumer looks at the
-- state of the strategy, and before the publisher answers.
import TradingPlatform.Strategy.Evaluations
import TradingPlatform.Strategy.IntentMarket
import TradingPlatform.Strategy.RuleVote

open resumption
open keyed
open trading_platform.shared

namespace trading_platform.strategy_service

/-! ## What the consumer leaves behind -/

/-- A row of `strategy_evaluations`. -/
structure StrategyEvaluationModel where
  id : Uuid
  strategy_id : Uuid
  version : Int
  symbol : String
  market_type : MarketType
  snapshot_timestamp_ms : Int
  signal : Bool
  direction : Option String
  confidence : Option PyFloat
  intent_id : Option Uuid
  created_at_ms : Int

/-- The row that `save_evaluation` adds. -/
def evaluation_row (record : StrategyEvaluation) (now_ms : Int) : StrategyEvaluationModel where
  id := record.id
  strategy_id := record.strategy_id
  version := record.version
  symbol := record.symbol
  market_type := record.market_type
  snapshot_timestamp_ms := record.snapshot_timestamp_ms
  signal := record.signal
  direction := record.direction
  confidence := record.confidence
  intent_id := record.trade_intent.map (·.intent_id)
  created_at_ms := now_ms

/-- The rows of the evaluations and the entries of the intents stream. -/
structure Traces where
  attributes : Attributes BaseStrategy
  evaluations : List StrategyEvaluationModel := []
  intents : List TradeIntent := []

/-- One call: how the environment answers it, and the clock. -/
structure Moment extends Answers where
  now_ms : Int

/-- The repository takes each call. The publisher takes an intent or raises, as it answers. -/
def Traces.exec (w : Traces) (c : StrategyCmd BaseStrategy) (o : Moment) :
    Except PyErr c.Ans × Traces :=
  match c with
  | .external (.save_evaluation record) =>
    (.ok (), { w with evaluations := w.evaluations ++ [evaluation_row record o.now_ms] })
  | .external (.save_action ..) => (.ok (), w)
  | .external (.publish intent evaluation_id) =>
    match o.answer (.publish intent evaluation_id) with
    | .ok _ => (.ok (), { w with intents := w.intents ++ [intent] })
    | .error e => (.error e, w)
  | .external c => (o.answer c, w)
  | .attributes => (.ok w.attributes, w)
  | .assign a => (.ok (), { w with attributes := a })

/-- The recorded ids are those of the published intents. -/
def Recorded (w : Traces) : Prop :=
  ∀ i, (∃ row ∈ w.evaluations, row.intent_id = some i) ↔ ∃ intent ∈ w.intents, intent.intent_id = i

/-! ## One evaluation -/

section Evaluation

variable {idle : Moment} {ev : StrategyEvaluator BaseStrategy} {snapshot : UnifiedDecisionSnapshot}

/-- An evaluation leaves nothing behind. -/
theorem traces_of_evaluate (idle : Moment) (ev : StrategyEvaluator BaseStrategy)
    (snapshot : UnifiedDecisionSnapshot) (w : Traces) (os : List Moment) :
    (run Traces.exec idle (ev.evaluate strategy_classes snapshot) w os).2.1 = w := by
  apply run_keeps_of_calls (I := fun w' => w' = w) (evaluate_calls ev snapshot)
  · rintro w' _ o rfl rfl
    rfl
  · rfl

/-- An outcome with an intent has a signal. -/
def SignalsIntent (r : Except PyErr StrategyEvaluation) : Prop :=
  ∀ record, r = .ok record → record.trade_intent.isSome = true → record.signal = true

theorem signals_error (e : PyErr) : SignalsIntent (.error e) := by
  intro record h
  cases h

theorem signals_no_signal (id : Uuid) :
    SignalsIntent (.ok (ev.no_signal strategy_classes id snapshot)) := by
  rintro _ ⟨⟩ hsome
  cases hsome

theorem signals_record {intent_id : Uuid} {result : EvaluationResult}
    (h : ev.strategy.evaluate snapshot intent_id = .ok result) (missing : List String) (id : Uuid) :
    SignalsIntent (.ok (ev.record strategy_classes id snapshot missing result)) := by
  unfold StrategyEvaluator.record
  split
  · rintro _ ⟨⟩ hsome
    rcases signal_cases h with ⟨-, hnone⟩ | ⟨intent, q, hsignal, -⟩
    · rw [hnone] at hsome
      cases hsome
    · exact hsignal
  · exact signals_no_signal id

theorem evaluate_signals :
    Obeys Protocol.free () (ev.evaluate strategy_classes snapshot) fun r _ => SignalsIntent r := by
  unfold StrategyEvaluator.evaluate external
  rw [obeys_ite]
  constructor
  · intro _
    rw [obeys_bind, obeys_ofExcept]
    cases strategy_classes.validate_snapshot ev.strategy snapshot with
    | error e => exact signals_error e
    | ok missing =>
      dsimp only
      rw [obeys_bind, obeys_perform]
      refine ⟨trivial, ?_⟩
      rintro (e | intent_id)
      · exact signals_error e
      dsimp only
      rw [obeys_bind, obeys_ofExcept]
      cases hresult : strategy_classes.evaluate ev.strategy snapshot intent_id with
      | error e => exact signals_error e
      | ok result =>
        dsimp only
        rw [obeys_bind, obeys_perform]
        refine ⟨trivial, ?_⟩
        rintro (e | id)
        · exact signals_error e
        · exact signals_record hresult missing id
  · intro _
    rw [obeys_bind, obeys_perform]
    refine ⟨trivial, ?_⟩
    rintro (e | id)
    · exact signals_error e
    · exact signals_no_signal id

theorem signal_of_evaluate (w : Traces) (os : List Moment) {record : StrategyEvaluation}
    (h : (run Traces.exec idle (ev.evaluate strategy_classes snapshot) w os).1 = .ok record)
    (hsome : record.trade_intent.isSome = true) : record.signal = true :=
  run_outcome Traces.exec idle evaluate_signals w os record h hsome

/-- The intent of a record is published: the strategy is in a state that emits, and the publisher,
which is called next, takes the intent. -/
def takes (ev : StrategyEvaluator BaseStrategy) (record : StrategyEvaluation) (o : Moment) : Bool :=
  match record.trade_intent with
  | none => true
  | some intent => ev.can_emit_intent && (o.answer (.publish intent record.id)).isOk

/-- An intent that the strategy finds in the snapshot is published. The row is written in
between. -/
def publishes (idle : Moment) (ev : StrategyEvaluator BaseStrategy)
    (snapshot : UnifiedDecisionSnapshot) (w : Traces) (os : List Moment) : Bool :=
  match run Traces.exec idle (ev.evaluate strategy_classes snapshot) w os with
  | (.ok record, _, os') => takes ev record (os'.tail.headD idle)
  | (.error _, _, _) => true

/-- The traces with the row of a record. -/
def Traces.saved (w : Traces) (record : StrategyEvaluation) (now_ms : Int) : Traces :=
  { w with evaluations := w.evaluations ++ [evaluation_row record now_ms] }

/-- What the publishing of a record leaves behind. -/
theorem traces_of_emit (self : StrategyConsumer) {record : StrategyEvaluation}
    (hsignal : record.trade_intent.isSome = true → record.signal = true) (w : Traces)
    (os : List Moment) :
    (run Traces.exec idle (self.emit ev record) w os).2.1 =
      { w with intents := w.intents ++
        if takes ev record (os.headD idle) then record.trade_intent.toList else [] } := by
  unfold StrategyConsumer.emit takes
  cases hintent : record.trade_intent with
  | none => simp
  | some intent =>
    have hsignal : record.signal = true := hsignal (by rw [hintent]; rfl)
    dsimp only
    by_cases hemits : ev.can_emit_intent = true
    · rw [hemits, hsignal]
      simp only [Bool.and_self, Bool.true_and, if_true]
      unfold external
      rw [run_bind, Prog.perform, run_call]
      dsimp only [Traces.exec]
      cases hanswer : (os.headD idle).answer (.publish intent record.id) with
      | error e => simp [Except.isOk, Except.toBool]
      | ok u =>
        dsimp only
        rw [run_done]
        dsimp only
        have hrest : (run Traces.exec idle (self.save_action ev record intent)
            { w with intents := w.intents ++ [intent] } os.tail).2.1 =
              { w with intents := w.intents ++ [intent] } := by
          unfold StrategyConsumer.save_action
          split
          · rw [run_swallow]
            rfl
          · rfl
        rw [hrest]
        simp [Except.isOk, Except.toBool]
    · simp [hemits]

/-- What the evaluation of one strategy leaves behind. -/
theorem traces_of_evaluate_one (self : StrategyConsumer) (hrepository : self.repository = true)
    (w : Traces) (os : List Moment) :
    (run Traces.exec idle (self.evaluate_one strategy_classes ev snapshot) w os).2.1 =
      match run Traces.exec idle (ev.evaluate strategy_classes snapshot) w os with
      | (.error _, _, _) => w
      | (.ok record, _, os') =>
        { w.saved record (os'.headD idle).now_ms with
          intents := w.intents ++
            if takes ev record (os'.tail.headD idle) then record.trade_intent.toList else [] } := by
  have hsame := traces_of_evaluate idle ev snapshot w os
  have hsignals : ∀ record, (run Traces.exec idle (ev.evaluate strategy_classes snapshot) w os).1 =
      .ok record → record.trade_intent.isSome = true → record.signal = true := by
    intro record h hsome
    exact signal_of_evaluate w os h hsome
  unfold StrategyConsumer.evaluate_one
  rw [run_swallow, run_bind]
  rcases hrun : run Traces.exec idle (ev.evaluate strategy_classes snapshot) w os with ⟨r, w', os'⟩
  rw [hrun] at hsame hsignals
  obtain rfl : w' = w := hsame
  cases r with
  | error e => rfl
  | ok record =>
    dsimp only
    have hsaved : run Traces.exec idle
        (self.save_evaluation record : StrategyPy BaseStrategy Unit) w' os' =
          (.ok (), w'.saved record (os'.headD idle).now_ms, os'.tail) := by
      unfold StrategyConsumer.save_evaluation
      rw [if_pos hrepository, run_swallow]
      rfl
    rw [run_bind, hsaved]
    dsimp only
    rw [traces_of_emit self (hsignals record rfl)]
    rfl

/-- A row and the intents beside it. -/
theorem recorded_add {w : Traces} (h : Recorded w) (record : StrategyEvaluation) (now_ms : Int) :
    Recorded { w.saved record now_ms with intents := w.intents ++ record.trade_intent.toList } := by
  have hrow : (evaluation_row record now_ms).intent_id = record.trade_intent.map (·.intent_id) := rfl
  intro i
  simp only [Traces.saved, List.mem_append, List.mem_singleton, or_and_right, exists_or,
    exists_eq_left, Option.mem_toList, hrow, Option.map_eq_some_iff]
  rw [h i]

/-- One evaluation keeps the record of the intents when its intent is published, and where the id
of the intent is a new one, only then. -/
theorem recorded_evaluate_one_iff (self : StrategyConsumer) (hrepository : self.repository = true)
    {w : Traces} (h : Recorded w) (os : List Moment)
    (hnew : ∀ record, (run Traces.exec idle (ev.evaluate strategy_classes snapshot) w os).1 =
      .ok record → ∀ intent, record.trade_intent = some intent →
        ∀ other ∈ w.intents, other.intent_id ≠ intent.intent_id) :
    Recorded (run Traces.exec idle (self.evaluate_one strategy_classes ev snapshot) w os).2.1 ↔
      publishes idle ev snapshot w os = true := by
  rw [traces_of_evaluate_one self hrepository]
  unfold publishes
  rcases hrun : run Traces.exec idle (ev.evaluate strategy_classes snapshot) w os with ⟨r, w', os'⟩
  rw [hrun] at hnew
  cases r with
  | error e => exact iff_of_true h rfl
  | ok record =>
    dsimp only
    by_cases htakes : takes ev record (os'.tail.headD idle) = true
    · rw [if_pos htakes]
      exact iff_of_true (recorded_add h record _) htakes
    · rw [if_neg htakes, List.append_nil]
      refine iff_of_false ?_ htakes
      intro hrecorded
      cases hintent : record.trade_intent with
      | none =>
        rw [takes, hintent] at htakes
        exact htakes rfl
      | some intent =>
        have hrow : ∃ row ∈ w.evaluations ++ [evaluation_row record (os'.headD idle).now_ms],
            row.intent_id = some intent.intent_id := by
          refine ⟨_, List.mem_append_right _ (List.mem_singleton_self _), ?_⟩
          show record.trade_intent.map (·.intent_id) = _
          rw [hintent]
          rfl
        obtain ⟨other, hother, hid⟩ := (hrecorded intent.intent_id).mp hrow
        exact hnew record rfl intent hintent other hother hid

theorem recorded_evaluate_one (self : StrategyConsumer) (hrepository : self.repository = true)
    {w : Traces} (h : Recorded w) {os : List Moment}
    (hpublishes : publishes idle ev snapshot w os = true) :
    Recorded (run Traces.exec idle (self.evaluate_one strategy_classes ev snapshot) w os).2.1 := by
  rw [traces_of_evaluate_one self hrepository]
  unfold publishes at hpublishes
  rcases hrun : run Traces.exec idle (ev.evaluate strategy_classes snapshot) w os with ⟨r, w', os'⟩
  rw [hrun] at hpublishes
  cases r with
  | error e => exact h
  | ok record =>
    dsimp only at hpublishes ⊢
    rw [if_pos hpublishes]
    exact recorded_add h record _

end Evaluation

/-! ## Runs of the consumer -/

namespace StrategyConsumer

variable (self : StrategyConsumer) (idle : Moment)

/-- The traces after some steps, and the moments that are left. -/
def after : List Step → Traces → List Moment → Traces × List Moment
  | [], w, os => (w, os)
  | step :: steps, w, os =>
    after steps (run Traces.exec idle (step.program self) w os).2.1
      (run Traces.exec idle (step.program self) w os).2.2

/-- The intents that the strategies find in the snapshot are published. -/
def all_publish (snapshot : UnifiedDecisionSnapshot) :
    List (StrategyEvaluator BaseStrategy) → Traces → List Moment → Bool
  | [], _, _ => true
  | ev :: evs, w, os =>
    publishes idle ev snapshot w os &&
      all_publish snapshot evs
        (run Traces.exec idle (self.evaluate_one strategy_classes ev snapshot) w os).2.1
        (run Traces.exec idle (self.evaluate_one strategy_classes ev snapshot) w os).2.2

/-- The intents that are found in an entry are published. The read of the registry takes the
first moment. -/
def step_publishes (w : Traces) (os : List Moment) : Step → Bool
  | .entry _ (.valid snapshot) =>
    self.all_publish idle snapshot
      (StrategyRegistry.evaluators_for_symbol w.attributes.registry snapshot.symbol) w os.tail
  | _ => true

/-- The intents that are found in a run are published. -/
def steps_publish : List Step → Traces → List Moment → Bool
  | [], _, _ => true
  | step :: steps, w, os =>
    self.step_publishes idle w os step &&
      steps_publish steps (run Traces.exec idle (step.program self) w os).2.1
        (run Traces.exec idle (step.program self) w os).2.2

variable {self idle}

/-- A command that leaves the rows and the stream as they are. -/
def Leaves (c : StrategyCmd BaseStrategy) : Prop :=
  ∀ (w : Traces) (o : Moment), Recorded w → Recorded (w.exec c o).2

theorem recorded_of_leaves {α : Type} {p : StrategyPy BaseStrategy α} (hp : p.Calls Leaves)
    {w : Traces} (h : Recorded w) (os : List Moment) :
    Recorded (run Traces.exec idle p w os).2.1 :=
  run_keeps_of_calls hp (fun w _ o hc hw => hc w o hw) w os h

theorem ack_leaves (msg_id : Nat) :
    (ack msg_id : StrategyPy BaseStrategy Unit).Calls Leaves :=
  calls_swallow (calls_perform fun _ _ hw => hw)

theorem leaves_of_reloads {c : StrategyCmd BaseStrategy} (h : Reloads c) : Leaves c := by
  intro w o hw
  cases c with
  | attributes => exact hw
  | assign a => exact hw
  | external c =>
    cases c with
    | monotonic | list_active_strategies => exact hw
    | uuid4 | save_evaluation _ | save_action _ _ _ _ _ | publish _ _ | xack _ _ => exact h.elim

theorem recorded_evaluate_all (hrepository : self.repository = true)
    (snapshot : UnifiedDecisionSnapshot) (evaluators : List (StrategyEvaluator BaseStrategy))
    {w : Traces} (h : Recorded w) {os : List Moment}
    (hpublish : self.all_publish idle snapshot evaluators w os = true) :
    Recorded (run Traces.exec idle (self.evaluate_all strategy_classes snapshot evaluators)
      w os).2.1 := by
  induction evaluators generalizing w os with
  | nil => exact h
  | cons ev evaluators ih =>
    unfold all_publish at hpublish
    obtain ⟨hone, hrest⟩ := Bool.and_eq_true_iff.mp hpublish
    have hnext := ih (recorded_evaluate_one self hrepository h hone) hrest
    have hreturns : (run Traces.exec idle (self.evaluate_one strategy_classes ev snapshot) w os).1 =
        .ok () := by
      unfold evaluate_one
      rw [run_swallow]
    unfold evaluate_all
    rw [run_bind]
    rcases hrun : run Traces.exec idle (self.evaluate_one strategy_classes ev snapshot) w os with
      ⟨r, w', os'⟩
    rw [hrun] at hreturns hnext
    obtain rfl : r = .ok () := hreturns
    exact hnext

/-- One step keeps the record of the intents when they are published. -/
theorem recorded_step (hrepository : self.repository = true) (step : Step) {w : Traces}
    (h : Recorded w) {os : List Moment} (hpublish : self.step_publishes idle w os step = true) :
    Recorded (run Traces.exec idle (step.program self) w os).2.1 := by
  have hleaves : ∀ c : StrategyCmd BaseStrategy, Reloads c → Leaves c := fun _ => leaves_of_reloads
  cases step with
  | reload => exact recorded_of_leaves (calls_mono (self.calls_reload _) hleaves) h os
  | reload_when_due =>
    exact recorded_of_leaves (calls_mono (self.calls_reload_when_due _) hleaves) h os
  | entry msg_id field =>
    cases field with
    | empty => exact recorded_of_leaves (ack_leaves msg_id) h os
    | malformed => exact recorded_of_leaves (ack_leaves msg_id) h os
    | valid snapshot =>
      have hall := recorded_evaluate_all hrepository snapshot _ h hpublish
      show Recorded (run Traces.exec idle (self.evaluate_all strategy_classes snapshot
        (StrategyRegistry.evaluators_for_symbol w.attributes.registry snapshot.symbol) >>= fun _ =>
          ack msg_id) w os.tail).2.1
      rw [run_bind]
      rcases hrun : run Traces.exec idle (self.evaluate_all strategy_classes snapshot
        (StrategyRegistry.evaluators_for_symbol w.attributes.registry snapshot.symbol)) w os.tail with
        ⟨_ | u, w', os'⟩
      · rw [hrun] at hall
        exact hall
      · rw [hrun] at hall
        exact recorded_of_leaves (ack_leaves msg_id) hall os'

/-- A run whose intents are all published keeps the record of the intents. -/
theorem recorded_steps (hrepository : self.repository = true) (steps : List Step) {w : Traces}
    (h : Recorded w) {os : List Moment} (hpublish : self.steps_publish idle steps w os = true) :
    Recorded (self.after idle steps w os).1 := by
  induction steps generalizing w os with
  | nil => exact h
  | cons step steps ih =>
    unfold steps_publish at hpublish
    obtain ⟨hone, hrest⟩ := Bool.and_eq_true_iff.mp hpublish
    exact ih (recorded_step hrepository step h hone) hrest

end StrategyConsumer

/-! ## The status of a strategy -/

/-- `ORDER BY created_at_ms DESC LIMIT 1`. Of rows with the same time, any may come first. -/
def Last (rows : List StrategyEvaluationModel) : Option StrategyEvaluationModel → Prop
  | none => rows = []
  | some row => row ∈ rows ∧ ∀ other ∈ rows, other.created_at_ms ≤ row.created_at_ms

structure LastEvaluation where
  created_at_ms : Int
  symbol : String
  signal : Bool
  direction : Option String
  confidence : Option PyFloat
  intent_emitted : Bool

structure LastIntentEmission where
  intent_id : Option Uuid
  symbol : String
  created_at_ms : Int

/-- What the status of a strategy says of its evaluations, when a row tells of an emitted intent
by `emitted`. -/
structure Status (emitted : StrategyEvaluationModel → Bool) (w : Traces) (strategy_id : Uuid)
    (last_evaluation : Option LastEvaluation) (last_intent_emission : Option LastIntentEmission) :
    Prop where
  evaluation : ∃ row, Last (w.evaluations.filter fun row => row.strategy_id = strategy_id) row ∧
    last_evaluation = row.map fun row =>
      { created_at_ms := row.created_at_ms
        symbol := row.symbol
        signal := row.signal
        direction := row.direction
        confidence := row.confidence
        intent_emitted := emitted row }
  emission : ∃ row, Last (w.evaluations.filter fun row =>
      row.strategy_id = strategy_id && emitted row) row ∧
    last_intent_emission = row.map fun row =>
      { intent_id := row.intent_id
        symbol := row.symbol
        created_at_ms := row.created_at_ms }

/-- The status goes by `intent_id IS NOT NULL`. -/
def strategy_status : Traces → Uuid → Option LastEvaluation → Option LastIntentEmission → Prop :=
  Status fun row => row.intent_id.isSome

/-- The intent of a row is in the stream. -/
def Traces.emitted (w : Traces) (row : StrategyEvaluationModel) : Bool :=
  w.intents.any fun intent => row.intent_id = some intent.intent_id

/-- The rows with an intent are those whose intent is in the stream. -/
theorem emitted_of_recorded {w : Traces} (h : Recorded w) {row : StrategyEvaluationModel}
    (hrow : row ∈ w.evaluations) : w.emitted row = row.intent_id.isSome := by
  unfold Traces.emitted
  cases hid : row.intent_id with
  | none => simp
  | some i =>
    obtain ⟨intent, hintent, rfl⟩ := (h i).mp ⟨row, hrow, hid⟩
    rw [Option.isSome_some, List.any_eq_true]
    exact ⟨intent, hintent, by simp⟩

theorem last_mem {rows : List StrategyEvaluationModel} {row : StrategyEvaluationModel}
    (h : Last rows (some row)) : row ∈ rows := h.1

/-- Two ways to tell that agree on the rows give one status. -/
theorem status_congr {emitted emitted' : StrategyEvaluationModel → Bool} {w : Traces}
    (h : ∀ row ∈ w.evaluations, emitted row = emitted' row) {strategy_id : Uuid}
    {last_evaluation : Option LastEvaluation} {last_intent_emission : Option LastIntentEmission}
    (hstatus : Status emitted w strategy_id last_evaluation last_intent_emission) :
    Status emitted' w strategy_id last_evaluation last_intent_emission := by
  obtain ⟨⟨row, hlast, hevaluation⟩, ⟨row', hlast', hemission⟩⟩ := hstatus
  constructor
  · refine ⟨row, hlast, ?_⟩
    rw [hevaluation]
    cases row with
    | none => rfl
    | some row =>
      have hrow := List.mem_of_mem_filter (last_mem hlast)
      simp only [Option.map_some, h row hrow]
  · refine ⟨row', ?_, hemission⟩
    have hfilter : (w.evaluations.filter fun row => row.strategy_id = strategy_id && emitted row) =
        w.evaluations.filter fun row => row.strategy_id = strategy_id && emitted' row := by
      apply List.filter_congr
      intro row hrow
      rw [h row hrow]
    rw [← hfilter]
    exact hlast'

/-- What the rows tell is what the stream holds: an id is in a row when an intent with it was
published, and the status that goes by the rows is the one that goes by the stream. -/
structure TellsTheStream (w : Traces) : Prop where
  recorded : Recorded w
  status : ∀ strategy_id last_evaluation last_intent_emission,
    strategy_status w strategy_id last_evaluation last_intent_emission ↔
      Status w.emitted w strategy_id last_evaluation last_intent_emission

theorem tells_of_recorded {w : Traces} (h : Recorded w) : TellsTheStream w := by
  constructor
  · exact h
  · intro strategy_id last_evaluation last_intent_emission
    constructor
    · intro hstatus
      exact status_congr (fun row hrow => (emitted_of_recorded h hrow).symm) hstatus
    · intro hstatus
      exact status_congr (fun row hrow => emitted_of_recorded h hrow) hstatus

/-! ## Runs that publish what they find -/

section Runs

variable (self : StrategyConsumer) (idle : Moment)

/-- A consumer with a repository, whose strategies find no intent but where they may emit it and
the publisher takes it, leaves rows that tell the stream. -/
theorem StrategyConsumer.rows_tell_the_stream (hrepository : self.repository = true)
    (a : Attributes BaseStrategy) (steps : List Step) (os : List Moment)
    (hpublish : self.steps_publish idle steps { attributes := a } os = true) :
    TellsTheStream (self.after idle steps { attributes := a } os).1 := by
  apply tells_of_recorded
  apply recorded_steps hrepository steps _ hpublish
  intro i
  simp

end Runs

/-- The publisher takes each intent. -/
def taken (now_ms : Int) (id : Uuid) : Moment where
  answer := fun c =>
    match c with
    | .monotonic => .ok 0
    | .uuid4 => .ok id
    | .list_active_strategies => .ok []
    | .save_evaluation _ => .ok ()
    | .save_action .. => .ok ()
    | .publish .. => .ok ()
    | .xack .. => .ok ()
  id := id
  draws := rfl
  now_ms := now_ms

/-- A strategy that buys above a price of 100. -/
def above_hundred : BaseStrategy :=
  { bare_strategy with kind := .rule_based (.arr [price_rule "gt" "1" "BUY"]) }

/-- The strategy is registered in a state. -/
def registered (state : StrategyState) : Attributes BaseStrategy where
  registry := StrategyRegistry.register .empty ⟨above_hundred.strategy_id, 1, state, above_hundred, []⟩

/-- What a snapshot above the price leaves behind. -/
def bought (state : StrategyState) : Traces :=
  ((⟨{}, true⟩ : StrategyConsumer).after (taken 2 "2") [.entry 1 (.valid (priced 150))]
    { attributes := registered state } []).1

theorem active_buy_tells_the_stream : TellsTheStream (bought .paper_active) := by
  apply StrategyConsumer.rows_tell_the_stream ⟨{}, true⟩ (taken 2 "2") rfl
  decide +kernel

/-- A strategy that is only simulated finds an intent. Its row has the id of an intent that no
one published. -/
theorem simulated_intent_is_recorded : ¬ Recorded (bought .simulation) := by
  intro h
  have hrows : (bought .simulation).evaluations.map (·.intent_id) = [some "2"] := by decide +kernel
  have hnone : (bought .simulation).intents.length = 0 := by decide +kernel
  have hmem : some "2" ∈ (bought .simulation).evaluations.map (·.intent_id) := by
    rw [hrows]
    exact List.mem_singleton_self _
  obtain ⟨row, hrow, hid⟩ := List.mem_map.mp hmem
  obtain ⟨intent, hintent, -⟩ := (h "2").mp ⟨row, hrow, hid⟩
  rw [List.length_eq_zero_iff.mp hnone] at hintent
  cases hintent

end trading_platform.strategy_service
