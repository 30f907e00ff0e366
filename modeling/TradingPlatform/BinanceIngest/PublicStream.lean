-- `ExponentialBackoff` and the reconnect loop of `PublicStreamSubscriber`.
import TradingPlatform.Lib.Backoff
import TradingPlatform.Shared.Float
import TradingPlatform.Shared.WebSocket

open backoff
open trading_platform.shared

namespace trading_platform.binance_ingest

/-! ## The backoff -/

/-- A value of `random.random()`. -/
abbrev Draw : Type := {u : ℚ // 0 ≤ u ∧ u < 1}

structure ExponentialBackoff where
  base : ℚ := 1
  max : ℚ := 60
  factor : ℚ := 2

namespace ExponentialBackoff

variable (self : ExponentialBackoff)

/-- `next_delay` at a counter; `random.uniform(0.0, cap)` is the part `draw` of
the cap. -/
def next_delay (draw : Draw) (attempt : Nat) : Except PyErr ℚ := do
  let power ← PyFloat.pow self.factor attempt
  let cap := min self.max (self.base * power)
  return cap * draw.1

/-- The delay of a counter is a wait: its power is a float, and neither the
maximum nor the product is negative. -/
structure Fits (backoff : ExponentialBackoff) (n : Nat) : Prop where
  power : |backoff.factor ^ n| ≤ PyFloat.largest
  max : 0 ≤ backoff.max
  wait : 0 ≤ backoff.base * backoff.factor ^ n

/-- The delay is computed and between zero and the maximum, whatever is drawn. -/
theorem next_delay_iff (n : Nat) :
    (∀ draw, ∃ d, self.next_delay draw n = .ok d ∧ 0 ≤ d ∧ d ≤ self.max) ↔ self.Fits n := by
  constructor
  · intro h
    -- one draw tells the sign of the cap
    obtain ⟨d, hd, hlow, hhigh⟩ := h ⟨1 / 2, by norm_num, by norm_num⟩
    unfold next_delay at hd
    cases hpow : PyFloat.pow self.factor n with
    | error e =>
      rw [hpow] at hd
      cases hd
    | ok power =>
      rw [hpow] at hd
      have hvalue : min self.max (self.base * power) * (1 / 2) = d := Except.ok.inj hd
      have hcap : 0 ≤ min self.max (self.base * power) := by linarith
      refine ⟨PyFloat.pow_ok_iff.mp ⟨power, hpow⟩, hcap.trans (min_le_left _ _), ?_⟩
      rw [← PyFloat.pow_eq_of_ok hpow]
      exact hcap.trans (min_le_right _ _)
  · rintro ⟨hpower, hmax, hwait⟩ ⟨u, hu, hu1⟩
    obtain ⟨power, hpow⟩ := PyFloat.pow_ok_iff.mpr hpower
    rw [← PyFloat.pow_eq_of_ok hpow] at hwait
    refine ⟨min self.max (self.base * power) * u, ?_, part_of_cap hmax hwait hu hu1.le⟩
    unfold next_delay
    rw [hpow]
    rfl

/-- With a factor above one, an outage that is long enough has no next delay. -/
theorem outage_of_factor (h : 1 < |self.factor|) :
    ∃ n, ∀ draw, ∃ e, self.next_delay draw n = .error e := by
  have hone : 1 ≤ PyFloat.largest := by
    have hpow := PyFloat.two_pow_le_largest_iff (n := 0)
    rw [pow_zero, abs_one] at hpow
    exact hpow.mpr (Nat.zero_le _)
  have hunbounded : ¬ ∀ n : Nat, |self.factor ^ n| ≤ PyFloat.largest := by
    rw [powers_bounded_iff hone]
    exact not_le.mpr h
  obtain ⟨n, hn⟩ := not_forall.mp hunbounded
  refine ⟨n, ?_⟩
  intro draw
  cases hpow : PyFloat.pow self.factor n with
  | error e =>
    refine ⟨e, ?_⟩
    unfold next_delay
    rw [hpow]
    rfl
  | ok power => exact absurd (PyFloat.pow_ok_iff.mp ⟨power, hpow⟩) hn

end ExponentialBackoff

/-! ## The subscriber -/

/-- What `ConnectionInfo` is told. -/
inductive InfoEvent where
  | connecting
  | mark_connected
  | mark_message
  | mark_reconnecting (error : String)
  | mark_stopped

structure PublicStreamSubscriber where
  backoff : ExponentialBackoff

namespace PublicStreamSubscriber

variable (self : PublicStreamSubscriber)

/-- The messages of a connection. What a message raises is caught at once. -/
def read_messages (ending : WsEnd) : List WsMessage → List InfoEvent
  | [] => match ending with
    | .closed_ok => []
    | .closed text | .failed text => [.mark_reconnecting text]
  | msg :: rest =>
    if msg.stop then []
    else match msg.payload with
      | .ok (.obj _) => .mark_message :: read_messages ending rest
      | _ => read_messages ending rest

/-- The `try` of the loop, with its handlers. -/
def seen (conn : WsConnection) : List InfoEvent :=
  .connecting :: match conn.handshake with
    | .error refusal => [.mark_reconnecting refusal.text]
    | .ok () => .mark_connected :: read_messages conn.ending conn.messages

/-- One pass of the loop of `run`: a connection, and what is drawn for the delay
behind it. `none` is a stop before the pass. A connection resets the backoff. -/
def pass (attempt : Nat) : Option (WsConnection × Draw) → List InfoEvent × Next PyErr ℚ
  | none => ([.mark_stopped], .returned)
  | some (conn, draw) =>
    if conn.stopped then (seen conn ++ [.mark_stopped], .returned)
    else (seen conn, waitAt (self.backoff.next_delay draw) (used attempt conn.connects))

def run (passes : List (Option (WsConnection × Draw))) : List (List InfoEvent × Next PyErr ℚ) :=
  loop self.pass 0 passes

end PublicStreamSubscriber

end trading_platform.binance_ingest
