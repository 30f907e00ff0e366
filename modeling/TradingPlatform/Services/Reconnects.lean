-- The reconnect loops of the services. Each of them computes the power of its
-- factor outside of every handler, so an outage can be too long for it.
import TradingPlatform.BinanceIngest.PublicStream
import TradingPlatform.Execution.StreamStatus

open backoff
open trading_platform.shared
open trading_platform.execution
open trading_platform.execution.AccountStreamListener

namespace trading_platform.services

/-- A wait is between zero and a maximum. -/
def Within (most delay : ℚ) : Prop := 0 ≤ delay ∧ delay ≤ most

/-! ## The loops of the listener -/

theorem reconnect_delay_iff (n : Nat) :
    (∃ d, reconnect_delay n = .ok d ∧ Within reconnect_max_s d) ↔ n ≤ 1023 := by
  rw [← PyFloat.two_pow_le_largest_iff]
  constructor
  · rintro ⟨d, hd, -⟩
    unfold reconnect_delay at hd
    cases hpow : PyFloat.pow 2 n with
    | error e =>
      rw [hpow] at hd
      cases hd
    | ok power => exact PyFloat.pow_ok_iff.mp ⟨power, hpow⟩
  · intro h
    obtain ⟨power, hpow⟩ := PyFloat.pow_ok_iff.mpr h
    have hpower : 0 ≤ power := by
      rw [PyFloat.pow_eq_of_ok hpow]
      positivity
    refine ⟨min reconnect_max_s (2 * power), ?_, ?_, min_le_left _ _⟩
    · unfold reconnect_delay
      rw [hpow]
      rfl
    · refine le_min ?_ (by linarith)
      unfold reconnect_max_s
      norm_num

/-- A loop whose passes wait for the delay of the listener goes on exactly when no
attempt is followed by 1024 that do not reset the counter. -/
theorem listener_goesOn_iff {I L : Type} {attempt : Nat → I → L × Next PyErr ℚ}
    {resets : I → Bool} {is : List I}
    (h : ∀ n, ∀ i ∈ is, (attempt n i).2 = waitAt reconnect_delay (used n (resets i))) :
    GoesOn (Within reconnect_max_s) (loop attempt 0 is) ↔ ¬ Streak 1024 (is.map resets) := by
  rw [goesOn_iff h]
  constructor
  · intro hgoes hstreak
    have hle := (reconnect_delay_iff 1024).mp (hgoes 1024 hstreak)
    omega
  · intro hstreak n hn
    rw [reconnect_delay_iff]
    by_contra hle
    exact hstreak (streak_of_le hn (by omega))

/-- The connections of a loop that is not stopped. -/
def onAttempt {α : Type} (f : α → Bool) : Pass α → Bool
  | .stop => false
  | .attempt conn => f conn

theorem map_onAttempt {α : Type} (f : α → Bool) (conns : List α) :
    (conns.map Pass.attempt).map (onAttempt f) = conns.map f := by
  rw [List.map_map]
  rfl

section Listener

variable (listener : AccountStreamListener)

/-- The connection was lost or never made, and nobody stopped the listener. -/
structure Lost (conn : WsApiConnection) : Prop where
  stopped : conn.stopped = false
  auth : ∀ ack, First conn ack → ¬ AnswersAuth conn.req_id ack

/-- The connection ended without an exception. -/
def endsWell (conn : WsApiConnection) : Bool := (listener.connect_and_subscribe conn).2.isOk

theorem ws_api_pass_waits {conn : WsApiConnection} (h : Lost conn) (n : Nat) :
    (listener.ws_api_pass n (.attempt conn)).2 =
      waitAt reconnect_delay (used n (endsWell listener conn)) := by
  have hauth : ∀ text, (listener.connect_and_subscribe conn).2 ≠ .error (.auth text) := by
    intro text htext
    obtain ⟨ack, hack, hanswers⟩ := (listener.connect_auth_iff conn).mp ⟨text, htext⟩
    exact h.auth ack hack hanswers
  unfold ws_api_pass endsWell
  dsimp only
  rcases hconnect : listener.connect_and_subscribe conn with ⟨seen, ends⟩
  rw [hconnect] at hauth
  have hreconnect (seen : List StreamEvent) (k : Nat) :
      (reconnect seen conn.stopped k).2 = waitAt reconnect_delay k := by
    unfold reconnect
    rw [h.stopped]
    rfl
  cases ends with
  | ok u => exact hreconnect seen 0
  | error exc =>
    cases exc with
    | auth text => exact absurd rfl (hauth text)
    | closed text => exact hreconnect _ n
    | other text => exact hreconnect _ n

theorem ws_api_goesOn_iff {conns : List WsApiConnection} (h : ∀ conn ∈ conns, Lost conn) :
    GoesOn (Within reconnect_max_s) (listener.run_ws_api (conns.map .attempt)) ↔
      ¬ Streak 1024 (conns.map (endsWell listener)) := by
  rw [← map_onAttempt]
  refine listener_goesOn_iff ?_
  intro n pass hpass
  obtain ⟨conn, hconn, rfl⟩ := List.mem_map.mp hpass
  exact ws_api_pass_waits listener (h conn hconn) n

theorem legacy_goesOn_iff (listen_key : Json) {conns : List WsConnection}
    (h : ∀ conn ∈ conns, conn.stopped = false) :
    GoesOn (Within reconnect_max_s) (loop (legacy_pass listen_key) 0 (conns.map .attempt)) ↔
      ¬ Streak 1024 (conns.map WsConnection.connects) := by
  rw [← map_onAttempt]
  refine listener_goesOn_iff ?_
  intro n pass hpass
  obtain ⟨conn, hconn, rfl⟩ := List.mem_map.mp hpass
  show (legacy_pass listen_key n (.attempt conn)).2 = waitAt reconnect_delay (used n conn.connects)
  unfold legacy_pass waitAt
  dsimp only
  rw [if_neg (by rw [h conn hconn]; decide)]
  cases reconnect_delay (used n conn.connects) <;> rfl

end Listener

/-! ## The loop of the public streams -/

open trading_platform.binance_ingest

/-- The loop goes on whatever is drawn. -/
def PublicGoesOn (subscriber : PublicStreamSubscriber) (conns : List WsConnection) : Prop :=
  ∀ draws : List Draw, draws.length = conns.length →
    GoesOn (Within subscriber.backoff.max) (subscriber.run ((conns.zip draws).map some))

section Public

variable (subscriber : PublicStreamSubscriber)

/-- The delay that a pass computes, and whether it resets the backoff. -/
def passDelay : Option (WsConnection × Draw) → Nat → Except PyErr ℚ
  | some (_, draw) => subscriber.backoff.next_delay draw
  | none => fun _ => .ok 0

def passConnects : Option (WsConnection × Draw) → Bool
  | some (conn, _) => conn.connects
  | none => false

theorem map_passConnects {conns : List WsConnection} {draws : List Draw}
    (hlength : draws.length = conns.length) :
    ((conns.zip draws).map some).map passConnects = conns.map WsConnection.connects := by
  have hfst : (conns.zip draws).map Prod.fst = conns := by
    rw [List.map_fst_zip]
    omega
  rw [List.map_map]
  conv_rhs => rw [← hfst, List.map_map]
  rfl

theorem pass_waits {conns : List WsConnection} (h : ∀ conn ∈ conns, conn.stopped = false)
    (draws : List Draw) (n : Nat) :
    ∀ p ∈ (conns.zip draws).map some, (subscriber.pass n p).2 =
      waitAt (passDelay subscriber p) (used n (passConnects p)) := by
  intro p hp
  obtain ⟨⟨conn, draw⟩, hmem, rfl⟩ := List.mem_map.mp hp
  have hconn := h conn (List.of_mem_zip hmem).1
  unfold PublicStreamSubscriber.pass
  dsimp only
  rw [hconn]
  rfl

theorem public_goesOn_iff {conns : List WsConnection} (h : ∀ conn ∈ conns, conn.stopped = false) :
    PublicGoesOn subscriber conns ↔
      ∀ n, Streak n (conns.map WsConnection.connects) → subscriber.backoff.Fits n := by
  constructor
  · intro hgoes n hn
    rw [← ExponentialBackoff.next_delay_iff]
    intro draw
    -- the same draw behind every connection
    have hlength : (List.replicate conns.length draw).length = conns.length :=
      List.length_replicate
    have hcounter : n ∈ counters 0
        (((conns.zip (List.replicate conns.length draw)).map some).map passConnects) := by
      rw [map_passConnects hlength]
      exact mem_counters_iff.mpr hn
    obtain ⟨p, hp, hwait⟩ := counters_of_goesOn
      (fun k p hp => pass_waits subscriber h _ k p hp) (hgoes _ hlength) n hcounter
    obtain ⟨⟨conn, draw'⟩, hmem, rfl⟩ := List.mem_map.mp hp
    rw [List.eq_of_mem_replicate (List.of_mem_zip hmem).2] at hwait
    exact hwait
  · intro hfits draws hlength
    refine goesOn_of_counters (fun k p hp => pass_waits subscriber h draws k p hp) ?_
    intro c hc p hp
    rw [map_passConnects hlength] at hc
    obtain ⟨⟨conn, draw⟩, -, rfl⟩ := List.mem_map.mp hp
    exact (subscriber.backoff.next_delay_iff c).mpr (hfits c (mem_counters_iff.mp hc)) draw

end Public

/-! ## Every loop goes on -/

/-- For every run of lost connections: the two loops of the listener go on, each
wait within the maximum, exactly when no attempt is followed by 1024 that do not
reset the counter (on the spot path by an end without an exception, on the
futures path by a connection). The delay of the backoff and the loop of the
public streams do exactly when the powers of the factor are floats. -/
theorem reconnect_loops_go_on_iff (listener : AccountStreamListener) (listen_key : Json)
    (subscriber : PublicStreamSubscriber) (spot : List WsApiConnection)
    (futures pub : List WsConnection) (hspot : ∀ conn ∈ spot, Lost conn)
    (hfutures : ∀ conn ∈ futures, conn.stopped = false)
    (hpub : ∀ conn ∈ pub, conn.stopped = false) :
    (GoesOn (Within reconnect_max_s) (listener.run_ws_api (spot.map .attempt)) ↔
        ¬ Streak 1024 (spot.map (endsWell listener))) ∧
      (GoesOn (Within reconnect_max_s) (loop (legacy_pass listen_key) 0 (futures.map .attempt)) ↔
        ¬ Streak 1024 (futures.map WsConnection.connects)) ∧
      (∀ n, (∀ draw, ∃ d, subscriber.backoff.next_delay draw n = .ok d ∧
          Within subscriber.backoff.max d) ↔ subscriber.backoff.Fits n) ∧
      (PublicGoesOn subscriber pub ↔
        ∀ n, Streak n (pub.map WsConnection.connects) → subscriber.backoff.Fits n) :=
  ⟨ws_api_goesOn_iff listener hspot, legacy_goesOn_iff listen_key hfutures,
    subscriber.backoff.next_delay_iff, public_goesOn_iff subscriber hpub⟩

/-! ## An outage that is too long -/

/-- A connection that is refused. -/
def demo_refused : WsConnection where
  handshake := .error ⟨none, "network is unreachable"⟩

def demo_lost : WsApiConnection where
  toWsConnection := demo_refused
  req_id := "r1"
  answer := .error (.failed "timeout")

theorem demo_lost_is_lost : Lost demo_lost := by
  refine ⟨rfl, ?_⟩
  rintro ack ⟨h, -⟩
  cases h

theorem streak_of_replicate {n : Nat} : Streak n (List.replicate (n + 1) false) :=
  ⟨[], false, [], (List.append_nil _).symm⟩

/-- The 1025th refused connection in a row is the last one of each loop. -/
theorem an_outage_of_1025_attempts :
    ¬ GoesOn (Within reconnect_max_s)
        (demo_listener.run_ws_api ((List.replicate 1025 demo_lost).map .attempt)) ∧
      ¬ GoesOn (Within reconnect_max_s)
        (loop (legacy_pass (.str "key")) 0 ((List.replicate 1025 demo_refused).map .attempt)) ∧
      ¬ PublicGoesOn ⟨{}⟩ (List.replicate 1025 demo_refused) := by
  refine ⟨?_, ?_, ?_⟩
  · rw [ws_api_goesOn_iff demo_listener fun conn hconn => by
      rw [List.eq_of_mem_replicate hconn]
      exact demo_lost_is_lost]
    rw [List.map_replicate, not_not]
    exact streak_of_replicate
  · rw [legacy_goesOn_iff _ fun conn hconn => by
      rw [List.eq_of_mem_replicate hconn]
      rfl]
    rw [List.map_replicate, not_not]
    exact streak_of_replicate
  · rw [public_goesOn_iff _ fun conn hconn => by
      rw [List.eq_of_mem_replicate hconn]
      rfl]
    intro hfits
    have hstreak : Streak 1024 ((List.replicate 1025 demo_refused).map WsConnection.connects) := by
      rw [List.map_replicate]
      exact streak_of_replicate
    have hle := PyFloat.two_pow_le_largest_iff.mp (hfits 1024 hstreak).power
    omega

/-- One refused connection, and each loop tries again. -/
theorem a_short_outage :
    GoesOn (Within reconnect_max_s) (demo_listener.run_ws_api [.attempt demo_lost]) ∧
      GoesOn (Within reconnect_max_s) (loop (legacy_pass (.str "key")) 0 [.attempt demo_refused]) ∧
      PublicGoesOn ⟨{}⟩ [demo_refused] := by
  obtain ⟨hspot, hfutures, -, hpub⟩ := reconnect_loops_go_on_iff demo_listener (.str "key") ⟨{}⟩
    [demo_lost] [demo_refused] [demo_refused]
    (fun conn hconn => by
      rw [List.mem_singleton.mp hconn]
      exact demo_lost_is_lost)
    (by decide) (by decide)
  have hshort {rs : List Bool} (hlength : rs.length = 1) : ¬ Streak 1024 rs := by
    intro h
    have hlt := streak_length h
    omega
  refine ⟨hspot.mpr (hshort rfl), hfutures.mpr (hshort rfl), hpub.mpr ?_⟩
  intro n hn
  obtain rfl : n = 0 := Nat.lt_one_iff.mp (streak_length hn)
  refine ⟨PyFloat.two_pow_le_largest_iff.mpr (Nat.zero_le _), ?_, ?_⟩
  · show (0 : ℚ) ≤ 60
    norm_num
  · show (0 : ℚ) ≤ 1 * 2 ^ 0
    norm_num

end trading_platform.services
