-- The account context: what `AccountContextLoader.load` reads of one account
-- and turns into a policy.
import TradingPlatform.Execution.World

open resumption
open trading_platform.shared

namespace trading_platform.execution

structure AccountContext where
  account_id : String
  user_id : String
  trading_mode : TradingMode
  approval_level : ApprovalLevel
  has_credentials : Bool
  paper_only : Bool
  allowed_symbols : Option (List String) := none
  denied_symbols : List String := []
  limits : RiskLimits := {}

/-- The limits of a stored policy, or the defaults without one. -/
def limits_of (policy : Option RiskPolicy) : RiskLimits :=
  match policy with
  | none => {}
  | some p =>
    { max_position_size_usd := p.max_position_size_usd
      max_daily_loss_usd := p.max_daily_loss_usd
      max_concurrent_positions := p.max_concurrent_positions
      symbol_cooldown_seconds := p.symbol_cooldown_seconds }

/-- The level of the record, else of the account; an unknown level is L2. -/
def approval_level_of (rows : AccountRows) : ApprovalLevel :=
  match ApprovalLevel.ofValue ((rows.approval.map (·.level)).getD rows.account.approval_level) with
  | .ok level => level
  | .error _ => .l2_paper

/-- The context that the rows of an account give. -/
def context_of (account_id : String) (rows : AccountRows) : Except PyErr AccountContext :=
  match TradingMode.ofValue rows.account.trading_mode with
  | .error e => .error e
  | .ok trading_mode =>
    .ok {
      account_id
      user_id := rows.account.user_id
      trading_mode
      approval_level := approval_level_of rows
      has_credentials := rows.has_credentials
      paper_only := (rows.approval.map (·.paper_only)).getD true
      allowed_symbols := (rows.approval.bind (·.allowed_symbols)).filter (· ≠ [])
      denied_symbols := (rows.approval.map (·.denied_symbols)).getD []
      limits := limits_of rows.policy }

namespace AccountContextLoader

def load (account_id : String) : Py (Option AccountContext) :=
  match UUID account_id with
  | .error _ => return none
  | .ok account_uuid => do
    match ← repo (.select_account account_uuid) with
    | none => return none
    | some rows =>
      let ctx ← Prog.ofExcept (context_of account_id rows)
      return some ctx

end AccountContextLoader

end trading_platform.execution
