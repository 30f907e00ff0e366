-- What the consumer makes of one snapshot, strategy by strategy. The ids that an evaluation
-- draws are in what it says and nowhere else, so that what a strategy finds in a snapshot is
-- a value of the two.
import TradingPlatform.Strategy.Reload

open resumption
open keyed
open trading_platform.shared

namespace trading_platform.strategy_service

/-! ## An evaluation and its ids -/

/-- The result with another id in its intent. -/
def EvaluationResult.named (result : EvaluationResult) (intent_id : Uuid) : EvaluationResult :=
  { result with trade_intent := result.trade_intent.map fun intent => { intent with intent_id } }

/-- The record with other ids. -/
def StrategyEvaluation.named (record : StrategyEvaluation) (intent_id id : Uuid) :
    StrategyEvaluation :=
  { record with
    id
    trade_intent := record.trade_intent.map fun intent => { intent with intent_id } }

/-- What two computations that go on alike from the same value come to. -/
theorem map_bind {α β γ : Type} (x : Except PyErr α) {f : α → Except PyErr β}
    {g : α → Except PyErr γ} {h : β → γ} (hfg : ∀ a, g a = (f a).map h) :
    x >>= g = (x >>= f).map h := by
  cases x with
  | error e => rfl
  | ok a => exact hfg a

theorem build_intent_named (intent_id other strategy_id : Uuid) (version : Int) (side : OrderSide)
    (parameters : Json) (snapshot : UnifiedDecisionSnapshot) :
    build_intent other strategy_id version side parameters snapshot =
      (build_intent intent_id strategy_id version side parameters snapshot).map
        fun intent => { intent with intent_id := other } := by
  unfold build_intent
  apply map_bind
  intro size_text
  apply map_bind
  intro size_usd
  apply map_bind
  intro stop_loss
  apply map_bind
  intro take_profit
  apply map_bind
  intro order_type_str
  apply map_bind
  intro tif_str
  rfl

theorem signalled_named (self : BaseStrategy) (snapshot : UnifiedDecisionSnapshot)
    (intent_id other : Uuid) (side : OrderSide) (confidence : PyFloat) :
    self.signalled snapshot other side confidence =
      (self.signalled snapshot intent_id side confidence).map (·.named other) := by
  unfold BaseStrategy.signalled
  rw [build_intent_named intent_id other]
  cases build_intent intent_id self.strategy_id self.version side self.parameters snapshot <;> rfl

/-- A strategy finds the same under every id that is drawn for its intent. -/
theorem evaluate_named (self : BaseStrategy) (snapshot : UnifiedDecisionSnapshot)
    (intent_id other : Uuid) :
    self.evaluate snapshot other = (self.evaluate snapshot intent_id).map (·.named other) := by
  unfold BaseStrategy.evaluate
  cases self.kind with
  | rule_based rules =>
    apply map_bind
    intro items
    apply map_bind
    intro w
    apply map_bind
    intro buy_confidence
    apply map_bind
    intro sell_confidence
    cases favoured buy_confidence sell_confidence with
    | none => rfl
    | some found => exact signalled_named self snapshot intent_id other found.1 found.2
  | ma_crossover =>
    apply map_bind
    rintro ⟨interval, emas⟩
    cases emas with
    | none => rfl
    | some emas =>
      obtain ⟨ema9, ema21⟩ := emas
      dsimp only
      by_cases hequal : ema9 = ema21
      · rw [if_pos hequal, if_pos hequal]
        rfl
      · rw [if_neg hequal, if_neg hequal]
        apply map_bind
        intro gap
        exact signalled_named self snapshot intent_id other _ _

/-! ## What a result with an intent says -/

/-- The notional that the parameters name. -/
def size_usd_of (parameters : Json) : Except PyErr ℚ := do
  Decimal.ofText (← text_of parameters "size_usd" "100.0")

/-- The notional of an intent is the one that the parameters name. -/
theorem size_usd_of_build {intent_id : Uuid} {self : BaseStrategy} {side : OrderSide}
    {snapshot : UnifiedDecisionSnapshot} {intent : TradeIntent}
    (h : build_intent intent_id self.strategy_id self.version side self.parameters snapshot =
      .ok intent) : ∃ q, size_usd_of self.parameters = .ok q ∧ intent.size_usd = some q := by
  unfold build_intent at h
  obtain ⟨text, htext, h⟩ := bind_ok h
  obtain ⟨size_usd, hsize, h⟩ := bind_ok h
  obtain ⟨_, -, h⟩ := bind_ok h
  obtain ⟨_, -, h⟩ := bind_ok h
  obtain ⟨_, -, h⟩ := bind_ok h
  obtain ⟨_, -, h⟩ := bind_ok h
  cases h
  refine ⟨size_usd, ?_, rfl⟩
  unfold size_usd_of
  rw [htext]
  exact hsize

/-- A result is without signal and intent, or is a signal with an intent of the notional that
the parameters name. -/
theorem signal_cases {self : BaseStrategy} {snapshot : UnifiedDecisionSnapshot}
    {intent_id : Uuid} {result : EvaluationResult}
    (h : self.evaluate snapshot intent_id = .ok result) :
    (result.signal = false ∧ result.trade_intent = none) ∨
      ∃ intent q, result.signal = true ∧ result.trade_intent = some intent ∧
        size_usd_of self.parameters = .ok q ∧ intent.size_usd = some q := by
  rcases evaluate_cases h with hnone | ⟨side, confidence, hsignalled⟩
  · exact Or.inl hnone
  · right
    obtain ⟨intent, hintent, hresult⟩ := bind_ok hsignalled
    obtain ⟨q, hq, hsize⟩ := size_usd_of_build hintent
    cases hresult
    exact ⟨intent, q, rfl, rfl, hq, hsize⟩

/-! ## What is told of a strategy -/

/-- What the consumer tells the other services of a strategy. -/
inductive Told where
  | evaluated (record : StrategyEvaluation)
  | published (intent : TradeIntent)

/-- What a command tells of the strategy `id`. -/
def told (id : Uuid) : StrategyCmd BaseStrategy → Option Told
  | .external (.save_evaluation record) =>
    if record.strategy_id = id then some (.evaluated record) else none
  | .external (.publish intent _) =>
    if intent.strategy_id = some id then some (.published intent) else none
  | _ => none

/-- The answers to one call, any of which may be an exception but that of `uuid4`. -/
structure Answers where
  answer : (c : External) → Except PyErr c.Ans
  id : Uuid
  draws : answer .uuid4 = .ok id

namespace StrategyEvaluator

variable (self : StrategyEvaluator BaseStrategy) (snapshot : UnifiedDecisionSnapshot)

/-- The record of an evaluation, with the ids that it draws. -/
def outcome (intent_id id : Uuid) : Except PyErr StrategyEvaluation :=
  if LifecycleManager.can_simulate self.state then do
    let missing ← self.strategy.validate_snapshot snapshot
    let result ← self.strategy.evaluate snapshot intent_id
    return self.record strategy_classes id snapshot missing result
  else return self.no_signal strategy_classes id snapshot

/-- What a consumer with a repository tells of an evaluation that came to `record`. -/
def tells : Except PyErr StrategyEvaluation → List Told
  | .error _ => []
  | .ok record => .evaluated record ::
    match record.trade_intent with
    | none => []
    | some intent =>
      if self.can_emit_intent && record.signal then [.published intent] else []

end StrategyEvaluator

/-- Each strategy of the registry evaluates under the id that it is registered with. -/
def OwnIds (evaluators : List (StrategyEvaluator BaseStrategy)) : Prop :=
  ∀ ev ∈ evaluators, ev.strategy.strategy_id = ev.strategy_id

/-- The states and the ids aside, an evaluation comes to the same. -/
theorem outcome_named (ev : StrategyEvaluator BaseStrategy) {state : StrategyState}
    (hev : LifecycleManager.can_simulate ev.state = true)
    (hstate : LifecycleManager.can_simulate state = true) (snapshot : UnifiedDecisionSnapshot)
    (intent_id id other_intent other : Uuid) :
    ({ ev with state } : StrategyEvaluator BaseStrategy).outcome snapshot other_intent other =
      (ev.outcome snapshot intent_id id).map (·.named other_intent other) := by
  unfold StrategyEvaluator.outcome
  rw [if_pos hstate, if_pos hev]
  apply map_bind
  intro missing
  dsimp only
  rw [evaluate_named ev.strategy snapshot intent_id other_intent]
  cases ev.strategy.evaluate snapshot intent_id with
  | error e => rfl
  | ok result =>
    show Except.ok _ = Except.ok _
    by_cases hmissing : missing = []
    · subst hmissing
      rfl
    · simp [StrategyEvaluator.record, hmissing, StrategyEvaluator.no_signal,
        StrategyEvaluation.named]

section Entry

variable {idle : Answers} {ev : StrategyEvaluator BaseStrategy} {snapshot : UnifiedDecisionSnapshot}

theorem run_draw (a : Attributes BaseStrategy) (os : List Answers) :
    ∃ id, run (Attributes.choose Answers.answer) idle (external .uuid4) a os =
      (.ok id, a, os.tail) := by
  refine ⟨(os.headD idle).id, ?_⟩
  rw [run_external, (os.headD idle).draws]

theorem run_ofExcept_bind {α β : Type} (x : Except PyErr α) (f : α → StrategyPy BaseStrategy β)
    (a : Attributes BaseStrategy) (os : List Answers) :
    run (Attributes.choose Answers.answer) idle (Prog.ofExcept x >>= f) a os =
      match x with
      | .ok v => run (Attributes.choose Answers.answer) idle (f v) a os
      | .error e => (.error e, a, os) := by
  cases x <;> rfl

/-- An evaluation comes to its outcome under the ids that it draws. -/
theorem run_evaluate (ev : StrategyEvaluator BaseStrategy) (snapshot : UnifiedDecisionSnapshot)
    (a : Attributes BaseStrategy) (os : List Answers) :
    ∃ intent_id id os', run (Attributes.choose Answers.answer) idle
      (ev.evaluate strategy_classes snapshot) a os = (ev.outcome snapshot intent_id id, a, os') := by
  unfold StrategyEvaluator.evaluate StrategyEvaluator.outcome
  by_cases hstate : LifecycleManager.can_simulate ev.state = true
  · simp only [if_pos hstate]
    rw [run_ofExcept_bind]
    dsimp only [strategy_classes]
    cases ev.strategy.validate_snapshot snapshot with
    | error e => exact ⟨"", "", os, rfl⟩
    | ok missing =>
      dsimp only
      obtain ⟨intent_id, hintent⟩ := @run_draw idle a os
      rw [run_bind, hintent]
      dsimp only
      rw [run_ofExcept_bind]
      cases hevaluate : ev.strategy.evaluate snapshot intent_id with
      | error e =>
        refine ⟨intent_id, "", os.tail, ?_⟩
        rw [hevaluate]
        rfl
      | ok result =>
        dsimp only
        obtain ⟨id, hid⟩ := @run_draw idle a os.tail
        rw [run_bind, hid]
        refine ⟨intent_id, id, os.tail.tail, ?_⟩
        rw [hevaluate]
        rfl
  · simp only [if_neg hstate]
    obtain ⟨id, hid⟩ := @run_draw idle a os
    rw [run_bind, hid]
    exact ⟨id, id, os.tail, rfl⟩

/-- An evaluation only draws ids. -/
theorem evaluate_calls (ev : StrategyEvaluator BaseStrategy) (snapshot : UnifiedDecisionSnapshot) :
    (ev.evaluate strategy_classes snapshot).Calls fun c => c = .external .uuid4 := by
  have hdraw : (external .uuid4 : StrategyPy BaseStrategy Uuid).Calls
      fun c => c = .external .uuid4 := calls_perform rfl
  unfold StrategyEvaluator.evaluate
  split
  · apply calls_bind (calls_ofExcept _)
    intro missing
    apply calls_bind hdraw
    intro intent_id
    apply calls_bind (calls_ofExcept _)
    intro result
    apply calls_bind hdraw
    intro id
    trivial
  · apply calls_bind hdraw
    intro id
    trivial

/-- An evaluation comes to a record without a signal, or to the one of a result that was found
in a snapshot with all its sections. -/
theorem outcome_cases {intent_id id : Uuid} {record : StrategyEvaluation}
    (h : ev.outcome snapshot intent_id id = .ok record) :
    record = ev.no_signal strategy_classes id snapshot ∨
      LifecycleManager.can_simulate ev.state = true ∧
        ev.strategy.validate_snapshot snapshot = .ok [] ∧
          ∃ result, ev.strategy.evaluate snapshot intent_id = .ok result ∧
            record = ev.record strategy_classes id snapshot [] result := by
  unfold StrategyEvaluator.outcome at h
  by_cases hstate : LifecycleManager.can_simulate ev.state = true
  · rw [if_pos hstate] at h
    obtain ⟨missing, hmissing, h⟩ := bind_ok h
    obtain ⟨result, hresult, h⟩ := bind_ok h
    cases h
    by_cases hnone : missing = []
    · subst hnone
      exact Or.inr ⟨hstate, hmissing, result, hresult, rfl⟩
    · left
      unfold StrategyEvaluator.record
      rw [if_neg hnone]
  · rw [if_neg hstate] at h
    cases h
    exact Or.inl rfl

/-- A record has the id of its strategy, and so has the intent in it. -/
theorem ids_of_outcome {intent_id id : Uuid} {record : StrategyEvaluation}
    (hown : ev.strategy.strategy_id = ev.strategy_id)
    (h : ev.outcome snapshot intent_id id = .ok record) :
    record.strategy_id = ev.strategy_id ∧
      ∀ intent, record.trade_intent = some intent → intent.strategy_id = some ev.strategy_id := by
  rcases outcome_cases h with rfl | ⟨-, -, result, hresult, rfl⟩
  · refine ⟨rfl, ?_⟩
    intro intent hintent
    cases hintent
  · refine ⟨rfl, ?_⟩
    intro intent hintent
    rw [← hown]
    exact (result_of_evaluate hresult intent hintent).strategy_id

theorem told_save_evaluation (self : StrategyConsumer) (hrepository : self.repository = true)
    (record : StrategyEvaluation) (id : Uuid) (a : Attributes BaseStrategy) (os : List Answers) :
    (performed (Attributes.choose Answers.answer) idle
      (self.save_evaluation record : StrategyPy BaseStrategy Unit) a os).filterMap (told id) =
        if record.strategy_id = id then [.evaluated record] else [] := by
  unfold StrategyConsumer.save_evaluation
  rw [if_pos hrepository, performed_swallow]
  unfold external
  rw [performed_perform]
  by_cases hid : record.strategy_id = id
  · simp [told, hid]
  · simp [told, hid]

theorem told_emit (self : StrategyConsumer) {record : StrategyEvaluation}
    (hintents : ∀ intent, record.trade_intent = some intent →
      intent.strategy_id = some ev.strategy_id) (id : Uuid) (a : Attributes BaseStrategy)
    (os : List Answers) :
    (performed (Attributes.choose Answers.answer) idle (self.emit ev record) a os).filterMap
      (told id) =
        if ev.strategy_id = id then
          match record.trade_intent with
          | none => []
          | some intent => if ev.can_emit_intent && record.signal then [.published intent] else []
        else [] := by
  unfold StrategyConsumer.emit
  cases hintent : record.trade_intent with
  | none =>
    dsimp only
    rw [Prog.pure_eq, performed_done, List.filterMap_nil]
    split <;> rfl
  | some intent =>
    dsimp only
    by_cases hemits : (ev.can_emit_intent && record.signal) = true
    · rw [if_pos hemits, if_pos hemits, filterMap_performed_bind]
      · unfold external
        rw [performed_perform, List.filterMap_cons, List.filterMap_nil]
        by_cases hid : ev.strategy_id = id
        · simp [told, hintents intent hintent, hid]
        · simp [told, hintents intent hintent, hid]
      · intro u
        unfold StrategyConsumer.save_action
        split
        · exact calls_swallow (calls_perform rfl)
        · trivial
    · rw [if_neg hemits, if_neg hemits, Prog.pure_eq, performed_done, List.filterMap_nil]
      split <;> rfl

/-- What the consumer tells of a strategy by evaluating some strategy: nothing, unless it is
the same one. -/
theorem told_evaluate_one (self : StrategyConsumer) (hrepository : self.repository = true)
    (hown : ev.strategy.strategy_id = ev.strategy_id) (id : Uuid) (a : Attributes BaseStrategy)
    (os : List Answers) :
    ∃ intent_id record_id, (performed (Attributes.choose Answers.answer) idle
      (self.evaluate_one strategy_classes ev snapshot) a os).filterMap (told id) =
        if ev.strategy_id = id then ev.tells (ev.outcome snapshot intent_id record_id) else [] := by
  obtain ⟨intent_id, record_id, os', hrun⟩ := @run_evaluate idle ev snapshot a os
  refine ⟨intent_id, record_id, ?_⟩
  have hdraws : (performed (Attributes.choose Answers.answer) idle
      (ev.evaluate strategy_classes snapshot) a os).filterMap (told id) = [] := by
    apply filterMap_performed
    refine calls_mono (evaluate_calls ev snapshot) ?_
    rintro _ rfl
    rfl
  unfold StrategyConsumer.evaluate_one
  rw [performed_swallow, performed_bind, List.filterMap_append, hdraws, List.nil_append, hrun]
  cases houtcome : ev.outcome snapshot intent_id record_id with
  | error e => simp [StrategyEvaluator.tells]
  | ok record =>
    obtain ⟨hrecord, hintents⟩ := ids_of_outcome hown houtcome
    dsimp only
    rw [performed_bind, List.filterMap_append, told_save_evaluation self hrepository, hrecord]
    have hsaved : ∃ s' os'', run (Attributes.choose Answers.answer) idle
        (self.save_evaluation record : StrategyPy BaseStrategy Unit) a os' = (.ok (), s', os'') := by
      unfold StrategyConsumer.save_evaluation
      rw [if_pos hrepository, run_swallow]
      exact ⟨_, _, rfl⟩
    obtain ⟨s', os'', hsaved⟩ := hsaved
    rw [hsaved]
    dsimp only
    rw [told_emit self hintents]
    by_cases hid : ev.strategy_id = id
    · simp only [if_pos hid]
      rfl
    · simp only [if_neg hid]
      rfl

/-- Of the strategies that are evaluated, the one with the id is the one that is told of. -/
theorem told_evaluate_all (self : StrategyConsumer) (hrepository : self.repository = true)
    (evaluators : List (StrategyEvaluator BaseStrategy)) (hown : OwnIds evaluators)
    (hids : (evaluators.map StrategyEvaluator.strategy_id).Nodup) (id : Uuid)
    (a : Attributes BaseStrategy) (os : List Answers) :
    ∃ intent_id record_id, (performed (Attributes.choose Answers.answer) idle
      (self.evaluate_all strategy_classes snapshot evaluators) a os).filterMap (told id) =
        match evaluators.find? fun ev => ev.strategy_id = id with
        | none => []
        | some ev => ev.tells (ev.outcome snapshot intent_id record_id) := by
  induction evaluators generalizing a os with
  | nil => exact ⟨"", "", rfl⟩
  | cons ev evaluators ih =>
    obtain ⟨hnew, hids⟩ := List.nodup_cons.mp hids
    unfold StrategyConsumer.evaluate_all
    rw [performed_bind, List.filterMap_append]
    obtain ⟨intent_id, record_id, hhead⟩ := @told_evaluate_one idle ev snapshot self hrepository
      (hown ev List.mem_cons_self) id a os
    rw [hhead]
    -- no exception leaves the evaluation of one strategy
    have hreturns : ∃ s' os', run (Attributes.choose Answers.answer) idle
        (self.evaluate_one strategy_classes ev snapshot) a os = (.ok (), s', os') := by
      unfold StrategyConsumer.evaluate_one
      rw [run_swallow]
      exact ⟨_, _, rfl⟩
    obtain ⟨s', os', hreturns⟩ := hreturns
    rw [hreturns]
    obtain ⟨intent_id', record_id', htail⟩ :=
      ih (fun ev' hev' => hown ev' (List.mem_cons_of_mem ev hev')) hids s' os'
    dsimp only
    rw [htail]
    by_cases hid : ev.strategy_id = id
    · refine ⟨intent_id, record_id, ?_⟩
      have hrest : evaluators.find? (fun ev => ev.strategy_id = id) = none := by
        rw [List.find?_eq_none]
        intro ev' hev' hid'
        apply hnew
        rw [hid, ← of_decide_eq_true hid']
        exact List.mem_map_of_mem hev'
      rw [if_pos hid, hrest, List.find?_cons_of_pos (by simpa using hid), List.append_nil]
    · refine ⟨intent_id', record_id', ?_⟩
      rw [if_neg hid, List.find?_cons_of_neg (by simpa using hid), List.nil_append]

/-- What the handling of a snapshot tells of a strategy: its evaluation, if the strategy is
registered and takes the symbol. -/
theorem told_entry (self : StrategyConsumer) (hrepository : self.repository = true)
    (a : Attributes BaseStrategy) (hown : OwnIds a.registry.rows)
    (snapshot : UnifiedDecisionSnapshot) (msg_id : Nat) (id : Uuid) (os : List Answers) :
    ∃ intent_id record_id, (performed (Attributes.choose Answers.answer) idle
      (self.process strategy_classes msg_id (.valid snapshot)) a os).filterMap (told id) =
        match a.registry.find id with
        | none => []
        | some ev =>
          if ev.matches_symbol snapshot.symbol then
            ev.tells (ev.outcome snapshot intent_id record_id)
          else [] := by
  have hack : ∀ u : Unit, (StrategyConsumer.ack msg_id : StrategyPy BaseStrategy Unit).Calls
      fun c => told id c = none := fun u => calls_swallow (calls_perform rfl)
  have hpart : OwnIds (StrategyRegistry.evaluators_for_symbol a.registry snapshot.symbol) :=
    fun ev hev => hown ev (List.mem_filter.mp hev).1
  have hids : ((StrategyRegistry.evaluators_for_symbol a.registry snapshot.symbol).map
      StrategyEvaluator.strategy_id).Nodup :=
    a.registry.unique.sublist (List.filter_sublist.map _)
  obtain ⟨intent_id, record_id, htold⟩ := @told_evaluate_all idle snapshot self hrepository _ hpart
    hids id a os.tail
  refine ⟨intent_id, record_id, ?_⟩
  show (performed _ _ (self.evaluate_all strategy_classes snapshot
    (StrategyRegistry.evaluators_for_symbol a.registry snapshot.symbol) >>= fun _ =>
      StrategyConsumer.ack msg_id) a os.tail).filterMap (told id) = _
  rw [filterMap_performed_bind _ hack, htold]
  unfold StrategyRegistry.evaluators_for_symbol
  rw [Table.find?_filter_rows]
  cases a.registry.find id with
  | none => rfl
  | some ev =>
    rw [Option.filter_some]
    by_cases hmatches : ev.matches_symbol snapshot.symbol = true
    · simp only [if_pos hmatches]
    · simp only [if_neg hmatches]

end Entry

end trading_platform.strategy_service
