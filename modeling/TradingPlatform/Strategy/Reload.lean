-- The reload of the strategies. The registry is cleared before the rows are gone through,
-- and a row that cannot be built ends the loop: the rows before it stay registered, and the
-- rows behind it are dropped.
import TradingPlatform.Strategy.Strategies

open resumption
open keyed
open trading_platform.shared

namespace trading_platform.strategy_service

/-! ## What a reload is for -/

/-- What `list_active_strategies` gives. The id of a strategy is a primary key, and its
versions are unique, so the join has one row for each strategy. -/
structure ActiveStrategies where
  rows : List StrategyRow
  distinct : (rows.map StrategyRow.id).Nodup

/-- The row can be built. -/
def StrategyRow.buildable (row : StrategyRow) : Bool := are_parameters row.parameters

/-- The state is one that the service knows. -/
def known (state : String) : Bool :=
  match StrategyState.ofValue state with
  | .ok _ => true
  | .error _ => false

/-- The row can be built and has a known state. -/
def StrategyRow.loads (row : StrategyRow) : Bool := row.buildable && known row.state

/-- The evaluator of a row that can be built and that has a known state. -/
def evaluator_of (row : StrategyRow) : Option (StrategyEvaluator BaseStrategy) :=
  match build_strategy row.id row.version (row.rules.orDefault (.arr []))
      (row.parameters.orDefault (.obj [])), StrategyState.ofValue row.state with
  | .ok strategy, .ok state =>
    some ⟨row.id, row.version, state, strategy, row.symbol_filters⟩
  | _, _ => none

/-- The same evaluators under the same ids. -/
def SameRegistry (r s : StrategyRegistry BaseStrategy) : Prop := ∀ id, r.find id = s.find id

/-- Exactly one evaluator for each row that can be built and has a known state. -/
def AllLoaded (registry : StrategyRegistry BaseStrategy) (active : ActiveStrategies) : Prop :=
  registry.rows = active.rows.filterMap evaluator_of

/-- An environment that answers by its choice. -/
def Attributes.choose {O : Type} (answer : O → (c : External) → Except PyErr c.Ans)
    (s : Attributes BaseStrategy) (c : StrategyCmd BaseStrategy) (o : O) :
    Except PyErr c.Ans × Attributes BaseStrategy :=
  s.exec c (answer o)

/-- The environment of a reload: the repository answers, or it fails. -/
def repository_answers (answer : Except PyErr ActiveStrategies) :
    (c : External) → Except PyErr c.Ans
  | .list_active_strategies => answer.map ActiveStrategies.rows
  | .monotonic | .uuid4 | .save_evaluation _ | .save_action .. | .publish .. | .xack .. =>
    .error ⟨"RuntimeError", "not called"⟩

namespace StrategyConsumer

/-- The attributes after a reload. -/
def reloaded (self : StrategyConsumer) (a : Attributes BaseStrategy)
    (answer : Except PyErr ActiveStrategies) : Attributes BaseStrategy :=
  (run (Attributes.choose repository_answers) answer (self.reload_strategies strategy_classes)
    a []).2.1

end StrategyConsumer

/-! ## One row -/

theorem evaluator_of_unbuildable {row : StrategyRow} (h : row.buildable = false) :
    evaluator_of row = none := by
  unfold evaluator_of
  split
  · rename_i strategy state hbuild hstate
    have hok := build_strategy_ok_iff.mp ⟨strategy, hbuild⟩
    rw [StrategyRow.buildable] at h
    rw [h] at hok
    cases hok
  · rfl

theorem id_of_evaluator {row : StrategyRow} {ev : StrategyEvaluator BaseStrategy}
    (h : evaluator_of row = some ev) : ev.strategy_id = row.id := by
  unfold evaluator_of at h
  split at h
  · cases h
    rfl
  · cases h

/-- A new strategy is registered behind the others. -/
theorem register_new {registry : StrategyRegistry BaseStrategy}
    {ev : StrategyEvaluator BaseStrategy} (h : registry.find ev.strategy_id = none) :
    (StrategyRegistry.register registry ev).rows = registry.rows ++ [ev] := by
  unfold StrategyRegistry.register Table.upsert
  split
  · rename_i r hfound
    rw [h] at hfound
    cases hfound
  · rfl

section Laws

variable {O : Type} {answer : O → (c : External) → Except PyErr c.Ans} {idle : O}

theorem run_external (c : External) (a : Attributes BaseStrategy) (os : List O) :
    run (Attributes.choose answer) idle (external c) a os =
      (answer (os.headD idle) c, a, os.tail) := by
  show run _ _ (.call (StrategyCmd.external c) _) a os = _
  rw [run_call]
  unfold Attributes.choose Attributes.exec
  dsimp only
  cases answer (os.headD idle) c <;> rfl

theorem run_register_row {row : StrategyRow} {strategy : BaseStrategy}
    (hbuild : build_strategy row.id row.version (row.rules.orDefault (.arr []))
      (row.parameters.orDefault (.obj [])) = .ok strategy) (a : Attributes BaseStrategy)
    (os : List O) :
    ∃ os', run (Attributes.choose answer) idle (StrategyConsumer.register_row row strategy) a os =
      (.ok (), { a with
        registry := match evaluator_of row with
          | some ev => StrategyRegistry.register a.registry ev
          | none => a.registry }, os') := by
  unfold StrategyConsumer.register_row evaluator_of
  rw [hbuild]
  cases StrategyState.ofValue row.state with
  | error e => exact ⟨os, rfl⟩
  | ok state => exact ⟨os.tail.tail, rfl⟩

/-- The rows up to the first one that cannot be built are registered. -/
theorem run_register_rows (rows : List StrategyRow) (hids : (rows.map StrategyRow.id).Nodup)
    (a : Attributes BaseStrategy) (hnew : ∀ row ∈ rows, a.registry.find row.id = none)
    (os : List O) :
    (run (Attributes.choose answer) idle (StrategyConsumer.register_rows strategy_classes rows) a
      os).2.1.registry.rows =
        a.registry.rows ++ (rows.takeWhile StrategyRow.buildable).filterMap evaluator_of := by
  induction rows generalizing a os with
  | nil => simp [StrategyConsumer.register_rows]
  | cons row rows ih =>
    obtain ⟨hid, hids⟩ := List.nodup_cons.mp hids
    unfold StrategyConsumer.register_rows
    show (run _ _ (Prog.ofExcept (build_strategy _ _ _ _) >>= _) a os).2.1.registry.rows = _
    cases hbuild : build_strategy row.id row.version (row.rules.orDefault (.arr []))
        (row.parameters.orDefault (.obj [])) with
    | error e =>
      -- the exception ends the loop
      have hbad : row.buildable = false := by
        rw [← Bool.not_eq_true]
        intro hok
        obtain ⟨s, hs⟩ := build_strategy_ok_iff.mpr hok
        rw [hbuild] at hs
        cases hs
      rw [List.takeWhile_cons_of_neg (by simp [hbad])]
      simp [Prog.ofExcept]
    | ok strategy =>
      have hgood : row.buildable = true := build_strategy_ok_iff.mp ⟨strategy, hbuild⟩
      obtain ⟨os', hrow⟩ := @run_register_row O answer idle row strategy hbuild a os
      rw [List.takeWhile_cons_of_pos hgood]
      show (run _ _ (StrategyConsumer.register_row row strategy >>= _) a os).2.1.registry.rows = _
      rw [run_bind, hrow]
      cases hev : evaluator_of row with
      | none =>
        rw [List.filterMap_cons_none hev]
        exact ih hids a (fun r hr => hnew r (List.mem_cons_of_mem _ hr)) os'
      | some ev =>
        have hevid := id_of_evaluator hev
        have habsent : a.registry.find ev.strategy_id = none := by
          rw [hevid]
          exact hnew row List.mem_cons_self
        have hrows := register_new habsent
        rw [List.filterMap_cons_some hev]
        dsimp only
        rw [ih hids]
        · dsimp only
          rw [hrows, List.append_assoc]
          rfl
        · intro r hr
          apply Table.find_eq_none.mpr
          intro ev' hmem
          dsimp only at hmem
          rw [hrows, List.mem_append, List.mem_singleton] at hmem
          rcases hmem with hold | rfl
          · exact Table.find_eq_none.mp (hnew r (List.mem_cons_of_mem _ hr)) ev' hold
          · rw [hevid]
            intro he
            exact hid (he ▸ List.mem_map_of_mem hr)

/-- What each outcome of a reload leaves in the registry. -/
theorem run_reload (self : StrategyConsumer) (a : Attributes BaseStrategy) (os : List O)
    (hids : ∀ rows, answer (os.headD idle) .list_active_strategies = .ok rows →
      (rows.map StrategyRow.id).Nodup) :
    (run (Attributes.choose answer) idle (self.reload_strategies strategy_classes) a
      os).2.1.registry.rows =
        match self.repository, answer (os.headD idle) .list_active_strategies with
        | true, .ok rows => (rows.takeWhile StrategyRow.buildable).filterMap evaluator_of
        | _, _ => a.registry.rows := by
  unfold StrategyConsumer.reload_strategies
  cases self.repository with
  | false => rfl
  | true =>
    rw [if_pos rfl, run_swallow, run_bind, run_external]
    cases hlist : answer (os.headD idle) .list_active_strategies with
    | error e => rfl
    | ok rows =>
      exact run_register_rows rows (hids rows hlist) { a with registry := .empty }
        (fun row _ => rfl) os.tail.tail.tail

end Laws

/-! ## A reload -/

theorem reloaded_rows (self : StrategyConsumer) (a : Attributes BaseStrategy)
    (answer : Except PyErr ActiveStrategies) :
    (self.reloaded a answer).registry.rows =
      match self.repository, answer with
      | true, .ok active => (active.rows.takeWhile StrategyRow.buildable).filterMap evaluator_of
      | _, _ => a.registry.rows := by
  unfold StrategyConsumer.reloaded
  rw [run_reload]
  · cases self.repository with
    | false => rfl
    | true => cases answer <;> rfl
  · intro rows hrows
    cases answer with
    | error e => cases hrows
    | ok active =>
      cases hrows
      exact active.distinct

/-- The rows before the first one that cannot be built. -/
def ActiveStrategies.loadable (active : ActiveStrategies) : List StrategyRow :=
  active.rows.takeWhile StrategyRow.buildable

/-- The rest, from the first row on that cannot be built. -/
def ActiveStrategies.dropped (active : ActiveStrategies) : List StrategyRow :=
  active.rows.dropWhile StrategyRow.buildable

/-- No row that can be built and has a known state is dropped. -/
def NoneDropped (active : ActiveStrategies) : Prop :=
  ∀ row ∈ active.dropped, row.loads = false

/-- The rows before the first one that cannot be built give what the registry had. -/
def SameAsLoadable (registry : StrategyRegistry BaseStrategy) (active : ActiveStrategies) : Prop :=
  ∀ id, registry.find id =
    (active.loadable.filterMap evaluator_of).find? fun ev => ev.strategy_id = id

/-- The registry of before, or all that can be loaded. -/
def AtomicReload (before after : StrategyRegistry BaseStrategy)
    (answer : Except PyErr ActiveStrategies) : Prop :=
  SameRegistry before after ∨ ∃ active, answer = .ok active ∧ AllLoaded after active

theorem evaluator_of_eq_none_iff {row : StrategyRow} :
    evaluator_of row = none ↔ row.loads = false := by
  unfold StrategyRow.loads
  by_cases hbuild : row.buildable = true
  · obtain ⟨strategy, hstrategy⟩ := build_strategy_ok_iff.mpr hbuild
    rw [hbuild, evaluator_of, hstrategy, known]
    cases StrategyState.ofValue row.state with
    | error e => simp
    | ok state => simp
  · rw [Bool.not_eq_true] at hbuild
    simp [evaluator_of_unbuildable hbuild, hbuild]

theorem all_loaded_iff {active : ActiveStrategies} :
    active.loadable.filterMap evaluator_of = active.rows.filterMap evaluator_of ↔
      NoneDropped active := by
  have hsplit : active.rows = active.loadable ++ active.dropped :=
    List.takeWhile_append_dropWhile.symm
  have hnone : active.dropped.filterMap evaluator_of = [] ↔ NoneDropped active := by
    rw [List.filterMap_eq_nil_iff]
    unfold NoneDropped
    simp only [evaluator_of_eq_none_iff]
  rw [← hnone]
  conv_lhs => rhs; rw [hsplit, List.filterMap_append]
  constructor
  · intro h
    exact List.self_eq_append_right.mp h
  · intro h
    rw [h, List.append_nil]

/-- A reload is atomic exactly where no row that can be loaded stands behind one that cannot
be built, or where the rows before that one give the registry of before. -/
theorem reload_is_atomic_iff (self : StrategyConsumer) (a : Attributes BaseStrategy)
    (answer : Except PyErr ActiveStrategies) :
    AtomicReload a.registry (self.reloaded a answer).registry answer ↔
      (self.repository = true → ∀ active, answer = .ok active →
        NoneDropped active ∨ SameAsLoadable a.registry active) := by
  have hrows := reloaded_rows self a answer
  have hunchanged : (self.reloaded a answer).registry.rows = a.registry.rows →
      AtomicReload a.registry (self.reloaded a answer).registry answer := by
    intro h
    refine Or.inl fun id => ?_
    unfold Table.find
    rw [h]
  cases hrepository : self.repository with
  | false =>
    rw [hrepository] at hrows
    exact iff_of_true (hunchanged hrows) fun h => by cases h
  | true =>
    rw [hrepository] at hrows
    cases answer with
    | error e => exact iff_of_true (hunchanged hrows) fun _ active h => by cases h
    | ok active =>
      dsimp only at hrows
      unfold AtomicReload
      rw [or_comm]
      constructor
      · rintro h - active' hactive
        cases hactive
        rcases h with ⟨active', hactive, hloaded⟩ | hsame
        · cases hactive
          left
          apply all_loaded_iff.mp
          exact hrows.symm.trans hloaded
        · right
          intro id
          rw [hsame id, Table.find, hrows]
          rfl
      · intro h
        rcases h rfl active rfl with hnone | hsame
        · left
          exact ⟨active, rfl, hrows.trans (all_loaded_iff.mpr hnone)⟩
        · right
          intro id
          rw [hsame id, Table.find, hrows]
          rfl

/-- A strategy of one rule. -/
def demo_row (id : Uuid) (parameters : Json) : StrategyRow where
  id
  market_type := .spot
  symbol_filters := []
  state := "paper_active"
  version := 1
  rules := .arr []
  parameters

/-- Parameters that are a list, between two rows with none. -/
def one_bad_row : ActiveStrategies where
  rows := [demo_row "s1" .null, demo_row "s2" (.arr [.num "1"]), demo_row "s3" .null]
  distinct := by decide

/-- From an empty registry, the row behind the bad one is dropped and the one before it is
not. -/
theorem a_bad_row_drops_the_next : ¬ AtomicReload (.empty : StrategyRegistry BaseStrategy)
    (StrategyConsumer.reloaded {} {} (.ok one_bad_row)).registry (.ok one_bad_row) := by
  rintro (hsame | ⟨active, hactive, hloaded⟩)
  · have hfirst : ((StrategyConsumer.reloaded {} {} (.ok one_bad_row)).registry.find
        "s1").isSome = true := by decide +kernel
    rw [← hsame "s1"] at hfirst
    cases hfirst
  · cases hactive
    have hone : (StrategyConsumer.reloaded {} {} (.ok one_bad_row)).registry.rows.length = 1 := by
      decide +kernel
    have htwo : (one_bad_row.rows.filterMap evaluator_of).length = 2 := by decide +kernel
    rw [hloaded, htwo] at hone
    omega

end trading_platform.strategy_service
