-- The risk engine: the structural checks of `risk/checks.py`, the Redis-backed
-- controls, and `ExecutionRiskEngine.evaluate`, which asks the controls first
-- and stops at the first one that is set.
import TradingPlatform.Execution.World

open resumption
open trading_platform.shared

namespace trading_platform.execution

/-! ## The structural checks -/

structure CheckResult where
  name : String
  passed : Bool
  reason : String := ""
  metadata : List (String × Json) := []

/-- The notional that `check_max_position_size` looks at: `size_usd`, else
`size * limit_price` for a positive limit price. -/
def checked_notional (intent : TradeIntent) : Option ℚ :=
  match intent.size_usd with
  | some size_usd => some size_usd
  | none =>
    match intent.limit_price with
    | some lp => if 0 < lp then some (intent.size * lp) else none
    | none => none

def check_max_position_size (request : ExecutionRequest) (max_usd : ℚ) : CheckResult :=
  match checked_notional request.trade_intent with
  | none => ⟨"max_position_size", true, "size_usd_unavailable", []⟩
  | some size_usd =>
    let passed := decide (size_usd ≤ max_usd)
    ⟨"max_position_size", passed,
      if passed then "" else s!"size_usd={Decimal.str size_usd} > max={Decimal.str max_usd}",
      [("size_usd", .str (Decimal.str size_usd)), ("max_usd", .str (Decimal.str max_usd))]⟩

def check_unsupported_order_type (request : ExecutionRequest) : CheckResult :=
  let ot := request.trade_intent.order_type.value
  let passed := decide (ot ∈ ["MARKET", "LIMIT"])
  ⟨"unsupported_order_type", passed,
    if passed then "" else "order_type='" ++ ot ++ "' not in \x7b'MARKET', 'LIMIT'\x7d",
    [("order_type", .str ot)]⟩

def check_symbol_policy (request : ExecutionRequest) (allowed_symbols : Option (List String))
    (denied_symbols : List String) : CheckResult :=
  let symbol := request.trade_intent.symbol
  if symbol ∈ denied_symbols then
    ⟨"symbol_policy", false, s!"symbol '{symbol}' is denied", []⟩
  else
    match allowed_symbols with
    | some allowed =>
      if symbol ∉ allowed then
        ⟨"symbol_policy", false, s!"symbol '{symbol}' not in allowed list", []⟩
      else ⟨"symbol_policy", true, "", []⟩
    | none => ⟨"symbol_policy", true, "", []⟩

def check_trading_mode (request : ExecutionRequest) (paper_only : Bool) : CheckResult :=
  if paper_only ∧ request.trading_mode = .live then
    ⟨"trading_mode", false, "account is paper_only but intent requests live execution", []⟩
  else ⟨"trading_mode", true, "", []⟩

def check_missing_account_context (request : ExecutionRequest) (has_credentials : Bool) :
    CheckResult :=
  if request.trading_mode = .live ∧ ¬ has_credentials then
    ⟨"missing_account_context", false,
      "live mode requires API credentials but none are configured", []⟩
  else ⟨"missing_account_context", true, "", []⟩

def check_max_daily_loss_placeholder (daily_loss_usd : Option ℚ) (max_daily_loss_usd : ℚ) :
    CheckResult :=
  match daily_loss_usd with
  | none => ⟨"max_daily_loss", true, "no_daily_loss_data", []⟩
  | some loss =>
    let passed := decide (loss < max_daily_loss_usd)
    ⟨"max_daily_loss", passed,
      if passed then ""
      else s!"daily_loss={Decimal.str loss} >= max={Decimal.str max_daily_loss_usd}",
      [("daily_loss_usd", .str (Decimal.str loss)),
        ("max_usd", .str (Decimal.str max_daily_loss_usd))]⟩

def check_max_concurrent_exposure_placeholder (open_positions : Option Nat)
    (max_concurrent : Int) : CheckResult :=
  match open_positions with
  | none => ⟨"max_concurrent_exposure", true, "no_position_data", []⟩
  | some n =>
    let passed := decide ((n : Int) < max_concurrent)
    ⟨"max_concurrent_exposure", passed,
      if passed then "" else s!"open_positions={n} >= max={max_concurrent}",
      [("open_positions", .num (toString n)), ("max_concurrent", .num (toString max_concurrent))]⟩

/-! ## The Redis-backed controls -/

namespace KillSwitchControl

def is_kill_switch_active (account_id : String) : RedisPy Bool :=
  redis (.exists (RedisKeys.kill_switch account_id))

def activate (account_id : String) (ttl_s : Int) : RedisPy Unit := do
  let _ ← redis (.set (RedisKeys.kill_switch account_id) "1" false (some ttl_s))

def clear (account_id : String) : RedisPy Unit :=
  redis (.delete (RedisKeys.kill_switch account_id))

def is_user_paused (account_id : String) : RedisPy Bool :=
  redis (.exists (RedisKeys.user_pause account_id))

def pause_user (account_id : String) (ttl_s : Int) : RedisPy Unit := do
  let _ ← redis (.set (RedisKeys.user_pause account_id) "1" false (some ttl_s))

def resume_user (account_id : String) : RedisPy Unit :=
  redis (.delete (RedisKeys.user_pause account_id))

def is_symbol_paused (account_id symbol : String) : RedisPy Bool :=
  redis (.exists (RedisKeys.symbol_pause account_id symbol))

def pause_symbol (account_id symbol : String) (ttl_s : Int) : RedisPy Unit := do
  let _ ← redis (.set (RedisKeys.symbol_pause account_id symbol) "1" false (some ttl_s))

def resume_symbol (account_id symbol : String) : RedisPy Unit :=
  redis (.delete (RedisKeys.symbol_pause account_id symbol))

def is_circuit_breaker_active (account_id : String) : RedisPy Bool :=
  redis (.exists (RedisKeys.circuit_breaker account_id))

def trip_circuit_breaker (account_id : String) (window_s : Int) : RedisPy Unit := do
  let _ ← redis (.set (RedisKeys.circuit_breaker account_id) "1" false (some window_s))

def reset_circuit_breaker (account_id : String) : RedisPy Unit :=
  redis (.delete (RedisKeys.circuit_breaker account_id))

end KillSwitchControl

namespace CooldownControl

def is_on_cooldown (account_id symbol : String) : RedisPy Bool :=
  redis (.exists (RedisKeys.symbol_cooldown account_id symbol))

def set_cooldown (account_id symbol : String) (seconds : Int) : RedisPy Unit := do
  let _ ← redis (.set (RedisKeys.symbol_cooldown account_id symbol) "1" false (some seconds))

def clear_cooldown (account_id symbol : String) : RedisPy Unit :=
  redis (.delete (RedisKeys.symbol_cooldown account_id symbol))

def remaining_ttl (account_id symbol : String) : RedisPy Int :=
  redis (.ttl (RedisKeys.symbol_cooldown account_id symbol))

end CooldownControl

/-- The five keys whose presence blocks an intent. -/
def control_keys (account_id symbol : String) : List String :=
  [RedisKeys.kill_switch account_id, RedisKeys.user_pause account_id,
    RedisKeys.symbol_pause account_id symbol, RedisKeys.circuit_breaker account_id,
    RedisKeys.symbol_cooldown account_id symbol]

/-! ## The engine -/

structure ExecutionRiskEngine where
  limits : RiskLimits := {}
  paper_only : Bool := true
  has_credentials : Bool := false
  allowed_symbols : Option (List String) := none
  denied_symbols : List String := []

namespace ExecutionRiskEngine

/-- The structural checks, in the order of the source. -/
def sync_results (engine : ExecutionRiskEngine) (request : ExecutionRequest) (limits : RiskLimits)
    (daily_loss_usd : Option ℚ) (open_positions : Option Nat) : List CheckResult :=
  [check_symbol_policy request engine.allowed_symbols engine.denied_symbols,
    check_trading_mode request engine.paper_only,
    check_missing_account_context request engine.has_credentials,
    check_max_position_size request limits.max_position_size_usd,
    check_unsupported_order_type request,
    check_max_daily_loss_placeholder daily_loss_usd limits.max_daily_loss_usd,
    check_max_concurrent_exposure_placeholder open_positions limits.max_concurrent_positions]

/-- The decision of the structural checks once every control is clear. -/
def sync_decision (engine : ExecutionRiskEngine) (request : ExecutionRequest)
    (limits : RiskLimits) (daily_loss_usd : Option ℚ) (open_positions : Option Nat)
    (checks : List (String × Bool)) : RiskDecision :=
  let results := engine.sync_results request limits daily_loss_usd open_positions
  let failures := (results.filter (!·.passed)).map fun r =>
    if r.reason = "" then r.name else r.reason
  { passed := failures.length = 0
    checks := checks ++ results.map fun r => (r.name, r.passed)
    failures
    warnings := []
    metadata := (results.filter (!·.metadata.isEmpty)).map fun r => (r.name, .obj r.metadata) }

def evaluate (engine : ExecutionRiskEngine) (request : ExecutionRequest)
    (daily_loss_usd : Option ℚ) (open_positions : Option Nat)
    (limits_override : Option RiskLimits) : RedisPy RiskDecision := do
  let limits := limits_override.getD engine.limits
  let account_id := request.account_id
  let symbol := request.trade_intent.symbol
  -- 1. Kill switch: stops before every other check
  if ← KillSwitchControl.is_kill_switch_active account_id then
    return { passed := false, checks := [("kill_switch", false)],
             failures := ["kill_switch_active"], metadata := [("account_id", .str account_id)] }
  let checks := [("kill_switch", true)]
  -- 2. User pause
  if ← KillSwitchControl.is_user_paused account_id then
    return { passed := false, checks := checks ++ [("user_paused", false)],
             failures := ["user_paused"] }
  let checks := checks ++ [("user_paused", true)]
  -- 3. Symbol pause
  if ← KillSwitchControl.is_symbol_paused account_id symbol then
    return { passed := false, checks := checks ++ [("symbol_paused", false)],
             failures := ["symbol_paused"] }
  let checks := checks ++ [("symbol_paused", true)]
  -- 4. Circuit breaker
  if ← KillSwitchControl.is_circuit_breaker_active account_id then
    return { passed := false, checks := checks ++ [("circuit_breaker", false)],
             failures := ["circuit_breaker_active"] }
  let checks := checks ++ [("circuit_breaker", true)]
  -- 5. Symbol cooldown
  if ← CooldownControl.is_on_cooldown account_id symbol then
    let ttl ← CooldownControl.remaining_ttl account_id symbol
    return { passed := false, checks := checks ++ [("symbol_cooldown", false)],
             failures := ["symbol_on_cooldown"],
             metadata := [("cooldown_remaining_s", .num (toString ttl))] }
  let checks := checks ++ [("symbol_cooldown", true)]
  -- 6. Structural checks
  return engine.sync_decision request limits daily_loss_usd open_positions checks

/-- The structural checks pass exactly when each of them passes. -/
theorem sync_decision_passed (engine : ExecutionRiskEngine) (request : ExecutionRequest)
    (limits : RiskLimits) (daily_loss_usd : Option ℚ) (open_positions : Option Nat)
    (checks : List (String × Bool)) :
    (engine.sync_decision request limits daily_loss_usd open_positions checks).passed = true ↔
      ∀ r ∈ engine.sync_results request limits daily_loss_usd open_positions,
        r.passed = true := by
  simp [sync_decision, List.filter_eq_nil_iff]

end ExecutionRiskEngine

/-! ## What each check decides -/

theorem check_max_position_size_passed (request : ExecutionRequest) (max_usd : ℚ) :
    (check_max_position_size request max_usd).passed = true ↔
      ∀ n ∈ checked_notional request.trade_intent, n ≤ max_usd := by
  unfold check_max_position_size
  split
  · rename_i h; simp [h]
  · rename_i h; simp [h]

theorem check_unsupported_order_type_passed (request : ExecutionRequest) :
    (check_unsupported_order_type request).passed = true ↔
      request.trade_intent.order_type = .market ∨ request.trade_intent.order_type = .limit := by
  unfold check_unsupported_order_type
  cases request.trade_intent.order_type <;> simp [OrderType.value]

theorem check_symbol_policy_passed (request : ExecutionRequest)
    (allowed : Option (List String)) (denied : List String) :
    (check_symbol_policy request allowed denied).passed = true ↔
      request.trade_intent.symbol ∉ denied ∧
        ∀ l ∈ allowed, request.trade_intent.symbol ∈ l := by
  unfold check_symbol_policy
  by_cases hd : request.trade_intent.symbol ∈ denied
  · simp [hd]
  · cases allowed with
    | none => simp [hd]
    | some l => by_cases hl : request.trade_intent.symbol ∈ l <;> simp [hd, hl]

theorem check_trading_mode_passed (request : ExecutionRequest) (paper_only : Bool) :
    (check_trading_mode request paper_only).passed = true ↔
      ¬ (paper_only = true ∧ request.trading_mode = .live) := by
  unfold check_trading_mode
  split <;> simp_all

theorem check_missing_account_context_passed (request : ExecutionRequest) (creds : Bool) :
    (check_missing_account_context request creds).passed = true ↔
      (request.trading_mode = .live → creds = true) := by
  unfold check_missing_account_context
  split <;> simp_all

theorem check_max_daily_loss_passed (loss : Option ℚ) (max_usd : ℚ) :
    (check_max_daily_loss_placeholder loss max_usd).passed = true ↔ ∀ l ∈ loss, l < max_usd := by
  cases loss <;> simp [check_max_daily_loss_placeholder]

theorem check_max_concurrent_passed (n : Option Nat) (max_concurrent : Int) :
    (check_max_concurrent_exposure_placeholder n max_concurrent).passed = true ↔
      ∀ k ∈ n, (k : Int) < max_concurrent := by
  cases n <;> simp [check_max_concurrent_exposure_placeholder]

end trading_platform.execution
