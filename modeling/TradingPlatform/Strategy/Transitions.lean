-- The lifecycle of a strategy: its states, the valid transitions between them,
-- and what each state permits.
import TradingPlatform.Shared.Schemas

open trading_platform.shared

namespace trading_platform.strategy_service

def VALID_TRANSITIONS : StrategyState → List StrategyState
  | .draft => [.simulation, .archived]
  | .simulation => [.paper_active, .draft, .archived]
  | .paper_active => [.assisted_live, .paused, .archived]
  | .assisted_live => [.bounded_auto_live, .paused, .rolled_back, .archived]
  | .bounded_auto_live => [.assisted_live, .paused, .rolled_back, .archived]
  | .paused => [.simulation, .paper_active, .archived]
  | .rolled_back => [.simulation, .archived]
  | .archived => []

/-- The states that publish intents. -/
def EMIT_STATES : List StrategyState := [.paper_active, .assisted_live, .bounded_auto_live]

/-- The states that may run an evaluation. -/
def SIMULATE_STATES : List StrategyState := [.draft, .simulation, .paused]

namespace LifecycleManager

def can_transition (from_state to_state : StrategyState) : Bool :=
  (VALID_TRANSITIONS from_state).contains to_state

def LifecycleError (message : String) : PyErr := ⟨"LifecycleError", message⟩

/-- The target state, or the reason why it is not one. -/
def transition (from_state to_state : StrategyState)
    (user_approval_level : Option ApprovalLevel) : Except PyErr StrategyState :=
  if can_transition from_state to_state then
    match user_approval_level with
    | none => .ok to_state
    | some level =>
      if can_activate_strategy level to_state then .ok to_state
      else .error (LifecycleError
        s!"Approval level '{level.value}' insufficient for target state '{to_state.value}'")
  else
    .error (LifecycleError s!"Invalid transition: {from_state.value} → {to_state.value}")

def can_emit_intents (state : StrategyState) : Bool := EMIT_STATES.contains state

def can_simulate (state : StrategyState) : Bool :=
  (SIMULATE_STATES ++ EMIT_STATES).contains state

def is_terminal (state : StrategyState) : Bool := state = .archived

/-- A transition is allowed when it is an edge, and the level, if there is one,
is enough for the target. -/
theorem transition_eq_ok {from_state to_state s : StrategyState}
    {level : Option ApprovalLevel} :
    transition from_state to_state level = .ok s ↔
      s = to_state ∧ can_transition from_state to_state = true ∧
        ∀ l, level = some l → can_activate_strategy l to_state = true := by
  unfold transition
  by_cases hc : can_transition from_state to_state = true
  · rw [if_pos hc]
    cases level with
    | none =>
      constructor
      · rintro ⟨⟩
        exact ⟨rfl, hc, fun l hl => nomatch hl⟩
      · rintro ⟨rfl, -, -⟩
        rfl
    | some l =>
      by_cases ha : can_activate_strategy l to_state = true
      · simp only [if_pos ha]
        constructor
        · rintro ⟨⟩
          refine ⟨rfl, hc, ?_⟩
          rintro _ ⟨⟩
          exact ha
        · rintro ⟨rfl, -, -⟩
          rfl
      · simp only [if_neg ha]
        constructor
        · intro h
          cases h
        · rintro ⟨-, -, h⟩
          exact absurd (h l rfl) ha
  · rw [if_neg hc]
    constructor
    · intro h
      cases h
    · rintro ⟨-, h, -⟩
      exact absurd h hc

/-- The terminal state is the one without a transition. -/
theorem is_terminal_iff (s : StrategyState) :
    is_terminal s = true ↔ ∀ s', can_transition s s' = false := by
  constructor
  · intro h s'
    have hs : s = .archived := of_decide_eq_true h
    rw [hs]
    rfl
  · intro h
    -- every other state can be archived
    by_contra hne
    have harch : can_transition s .archived = true := by
      cases s with
      | archived => exact absurd rfl hne
      | _ => rfl
    rw [h] at harch
    cases harch

/-- Every state but the terminal one may run an evaluation, unless it is rolled
back. -/
theorem can_simulate_iff (s : StrategyState) :
    can_simulate s = true ↔ is_terminal s = false ∧ s ≠ .rolled_back := by
  cases s <;> decide

/-- A state that publishes intents is entered from the simulation, from a pause or
from another one of them. -/
theorem can_emit_intents_of_transition {s s' : StrategyState} (h : can_transition s s' = true)
    (he : can_emit_intents s' = true) :
    can_emit_intents s = true ∨ s = .simulation ∨ s = .paused := by
  revert h he
  cases s <;> cases s' <;> decide

end LifecycleManager

end trading_platform.strategy_service
