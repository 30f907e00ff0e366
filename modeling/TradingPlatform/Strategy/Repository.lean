-- The tables of the strategies, the rows that the repository gives of them, and what a reload
-- registers of those rows.
import TradingPlatform.Strategy.Reload

open resumption
open keyed
open trading_platform.shared

namespace trading_platform.strategy_service

/-! ## The tables -/

/-- A row of `strategies`. -/
structure StrategyModel where
  id : Uuid
  market_type : MarketType
  symbol_filters : List String
  state : String
  current_version : Int

/-- A row of `strategy_versions`. -/
structure StrategyVersionModel where
  strategy_id : Uuid
  version : Int
  rules : Json
  parameters : Json

/-- `uq_strategy_versions_id_ver`. -/
def StrategyVersionModel.key (version : StrategyVersionModel) : Uuid × Int :=
  (version.strategy_id, version.version)

structure Tables where
  strategies : Table StrategyModel StrategyModel.id
  strategy_versions : Table StrategyVersionModel StrategyVersionModel.key

/-- A strategy, joined with a version of it. -/
def joined (strategy : StrategyModel) (version : StrategyVersionModel) : StrategyRow where
  id := strategy.id
  market_type := strategy.market_type
  symbol_filters := strategy.symbol_filters
  state := strategy.state
  version := version.version
  rules := version.rules
  parameters := version.parameters

/-- The strategy in another state. -/
def StrategyModel.moved (strategy : StrategyModel) (state : StrategyState) : StrategyModel :=
  { strategy with state := state.value }

def ACTIVE_STATES : List StrategyState :=
  [.simulation, .paper_active, .assisted_live, .bounded_auto_live]

/-- The strategy is in an active state. -/
def StrategyModel.active (strategy : StrategyModel) : Bool :=
  (ACTIVE_STATES.map StrategyState.value).contains strategy.state

namespace Tables

variable (tables : Tables)

/-- The strategy with its current version, if there is one. -/
def with_version (strategy : StrategyModel) : Option StrategyRow :=
  (tables.strategy_versions.find (strategy.id, strategy.current_version)).map (joined strategy)

theorem id_of_with_version {strategy : StrategyModel} {row : StrategyRow}
    (h : tables.with_version strategy = some row) : row.id = strategy.id := by
  obtain ⟨version, -, rfl⟩ := Option.map_eq_some_iff.mp h
  rfl

theorem distinct_with_version (strategies : List StrategyModel)
    (h : (strategies.map StrategyModel.id).Nodup) :
    ((strategies.filterMap tables.with_version).map StrategyRow.id).Nodup := by
  induction strategies with
  | nil => exact List.nodup_nil
  | cons strategy strategies ih =>
    obtain ⟨hnew, hrest⟩ := List.nodup_cons.mp h
    cases hrow : tables.with_version strategy with
    | none =>
      rw [List.filterMap_cons_none hrow]
      exact ih hrest
    | some row =>
      rw [List.filterMap_cons_some hrow, List.map_cons, List.nodup_cons]
      refine ⟨?_, ih hrest⟩
      intro hmem
      apply hnew
      obtain ⟨row', hrow', hid⟩ := List.mem_map.mp hmem
      obtain ⟨strategy', hstrategy', hfound⟩ := List.mem_filterMap.mp hrow'
      rw [← tables.id_of_with_version hrow, ← hid, tables.id_of_with_version hfound]
      exact List.mem_map_of_mem hstrategy'

/-- `StrategyRepository.list_active_strategies`. -/
def list_active_strategies : ActiveStrategies where
  rows := (tables.strategies.rows.filter StrategyModel.active).filterMap tables.with_version
  distinct := tables.distinct_with_version _
    (tables.strategies.unique.sublist (List.filter_sublist.map StrategyModel.id))

/-- The strategy is a row in an active state, and the version is its current one. -/
structure HasActive (strategy : StrategyModel) (version : StrategyVersionModel) : Prop where
  row : tables.strategies.find strategy.id = some strategy
  current : tables.strategy_versions.find (strategy.id, strategy.current_version) = some version
  active : strategy.active = true

/-- The repository gives the active strategies with their current versions, and no others. -/
theorem mem_list_active_strategies {row : StrategyRow} :
    row ∈ tables.list_active_strategies.rows ↔
      ∃ strategy version, tables.HasActive strategy version ∧ row = joined strategy version := by
  unfold list_active_strategies
  rw [List.mem_filterMap]
  constructor
  · rintro ⟨strategy, hstrategy, hrow⟩
    obtain ⟨hmem, hactive⟩ := List.mem_filter.mp hstrategy
    obtain ⟨version, hversion, rfl⟩ := Option.map_eq_some_iff.mp hrow
    exact ⟨strategy, version, ⟨Table.find_eq_some.mpr ⟨hmem, rfl⟩, hversion, hactive⟩, rfl⟩
  · rintro ⟨strategy, version, h, rfl⟩
    refine ⟨strategy, ?_, ?_⟩
    · exact List.mem_filter.mpr ⟨(Table.find_eq_some.mp h.row).1, h.active⟩
    · unfold with_version
      rw [h.current]
      rfl

end Tables

/-- An active strategy is in a state that the service knows and that permits an evaluation. -/
theorem state_of_active {strategy : StrategyModel} (h : strategy.active = true) :
    ∃ state, StrategyState.ofValue strategy.state = .ok state ∧
      LifecycleManager.can_simulate state = true := by
  unfold StrategyModel.active at h
  obtain ⟨state, hstate, hvalue⟩ := List.mem_map.mp (List.contains_iff_mem.mp h)
  rw [← hvalue]
  refine ⟨state, ?_, ?_⟩
  · cases state <;> rfl
  · revert hstate
    cases state <;> decide

/-! ## What has been loaded -/

/-- The consumer has a repository, its registry is made of rows, and it has what `row` gives. -/
structure HasLoaded (consumer : StrategyConsumer) (a : Attributes BaseStrategy)
    (row : StrategyRow) : Prop where
  repository : consumer.repository = true
  of_rows : ∀ ev ∈ a.registry.rows, ∃ row', evaluator_of row' = some ev
  found : a.registry.find row.id = evaluator_of row

/-- A reload loads each row that stands before the first one that cannot be built. -/
theorem has_loaded_of_reload {self : StrategyConsumer} (hrepository : self.repository = true)
    (a : Attributes BaseStrategy) {active : ActiveStrategies} {row : StrategyRow}
    (hrow : row ∈ active.loadable) : HasLoaded self (self.reloaded a (.ok active)) row := by
  have hrows := reloaded_rows self a (.ok active)
  rw [hrepository] at hrows
  change _ = active.loadable.filterMap evaluator_of at hrows
  refine ⟨hrepository, ?_, ?_⟩
  · intro ev hev
    rw [hrows] at hev
    obtain ⟨row', -, hev⟩ := List.mem_filterMap.mp hev
    exact ⟨row', hev⟩
  · cases hev : evaluator_of row with
    | some ev =>
      rw [Table.find_eq_some, hrows]
      exact ⟨List.mem_filterMap.mpr ⟨row, hrow, hev⟩, id_of_evaluator hev⟩
    | none =>
      rw [Table.find_eq_none, hrows]
      intro ev hmem hid
      obtain ⟨row', hrow', hev'⟩ := List.mem_filterMap.mp hmem
      rw [id_of_evaluator hev'] at hid
      have hsub : ∀ r ∈ active.loadable, r ∈ active.rows :=
        fun r hr => (List.takeWhile_prefix StrategyRow.buildable).subset hr
      obtain rfl := List.inj_on_of_nodup_map active.distinct (hsub row' hrow') (hsub row hrow) hid
      rw [hev] at hev'
      cases hev'

end trading_platform.strategy_service
