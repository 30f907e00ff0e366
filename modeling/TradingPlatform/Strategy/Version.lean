-- The versions of a strategy: which one is current, and who may activate it.
import TradingPlatform.Strategy.Transitions

open trading_platform.shared

namespace trading_platform.strategy_service

structure StrategyVersion where
  strategy_id : Uuid
  version : Int
  approval_required : ApprovalLevel := .l1_simulation
  deriving DecidableEq

namespace VersionResolver

def resolve (versions : List StrategyVersion) (target_version : Int) : Option StrategyVersion :=
  versions.find? fun v => v.version = target_version

/-- The level of the user must meet the requirement of the state and that of the version. -/
def can_activate (version : StrategyVersion) (target_state : StrategyState)
    (user_approval_level : ApprovalLevel) : Bool × String :=
  if !can_activate_strategy user_approval_level target_state then
    (false,
      s!"user level '{user_approval_level.value}' insufficient for state '{target_state.value}'")
  else
    let required := version.approval_required
    if !check_approval_level user_approval_level required then
      (false, s!"user level '{user_approval_level.value}' insufficient for version requiring '{required.value}'")
    else (true, "ok")

/-- The two checks together: the level is at least both requirements. -/
theorem can_activate_iff {version : StrategyVersion} {target : StrategyState}
    {level : ApprovalLevel} :
    (can_activate version target level).1 = true ↔
      level_rank (state_requirement target) ≤ level_rank level ∧
        level_rank version.approval_required ≤ level_rank level := by
  unfold can_activate can_activate_strategy check_approval_level
  by_cases hstate : level_rank (state_requirement target) ≤ level_rank level
  · by_cases hversion : level_rank version.approval_required ≤ level_rank level
    · simp [hstate, hversion]
    · simp [hstate, hversion]
  · simp [hstate]

end VersionResolver

end trading_platform.strategy_service
