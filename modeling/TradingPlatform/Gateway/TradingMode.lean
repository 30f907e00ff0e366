-- The global trading mode: `POST /api/ops/trading-mode` writes two Redis keys,
-- and `GET` reads them back.
import TradingPlatform.Execution.World

open resumption
open trading_platform.shared

namespace trading_platform.gateway_api

open trading_platform.execution

structure TradingModeRequest where
  mode : String
  reason : String := ""

structure TradingModeReply where
  mode : String
  reason : String
  note : String
  set_at : Nat

structure TradingModeStatus where
  mode : String
  emergency_stop_active : Bool
  note : String
  deriving DecidableEq

def VALID_MODES : List String := ["paper_only", "mixed", "emergency_stop"]

def mode_note (mode : String) : String :=
  if mode = "paper_only" then
    "All execution enforced to paper mode. Live trading is blocked."
  else if mode = "mixed" then
    "Accepted but live trading is not yet implemented. Paper mode remains enforced."
  else if mode = "emergency_stop" then
    "Emergency stop active. All intent processing should halt."
  else ""

def invalid_mode : PyErr :=
  ⟨"HTTPException", "422: mode must be one of ['emergency_stop', 'mixed', 'paper_only']"⟩

/-- The emergency stop is a key of its own: set with the mode, and deleted with
every other mode. -/
def write_mode (mode : String) : RedisPy Unit := do
  let _ ← redis (.set RedisKeys.global_trading_mode mode false none)
  if mode = "emergency_stop" then
    let _ ← redis (.set RedisKeys.global_emergency_stop "1" false none)
  else
    redis (.delete RedisKeys.global_emergency_stop)

def set_trading_mode (body : TradingModeRequest) : Py TradingModeReply := do
  if body.mode ∉ VALID_MODES then
    Prog.raise invalid_mode
  else
    onRedis (write_mode body.mode)
    let ms ← Prog.perform (V := Ans) .time_ms
    return { mode := body.mode, reason := body.reason, note := mode_note body.mode,
             set_at := ms / 1000 }

def get_trading_mode : RedisPy TradingModeStatus := do
  let mode ← redis (.get RedisKeys.global_trading_mode)
  let emergency ← redis (.exists RedisKeys.global_emergency_stop)
  let mode := match mode with
    | some mode => if mode = "" then "paper_only" else mode
    | none => "paper_only"
  return { mode, emergency_stop_active := emergency, note := mode_note mode }

/-- What a reader finds after a mode was set, when nothing fails: the mode, and
the emergency stop active for `emergency_stop` only. -/
theorem get_after_set (w : World) (body : TradingModeRequest) (h : body.mode ∈ VALID_MODES) :
    (w.after (set_trading_mode body)).Alone (onRedis get_trading_mode) fun r _ =>
      r = .ok ⟨body.mode, body.mode = "emergency_stop", mode_note body.mode⟩ := by
  obtain ⟨mode, reason⟩ := body
  simp only [VALID_MODES, List.mem_cons, List.not_mem_nil, or_false] at h
  rcases h with rfl | rfl | rfl <;> rfl

end trading_platform.gateway_api
