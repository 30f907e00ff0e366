-- The trading mode and the emergency stop are two keys, and each request writes them with
-- two commands. Requests interleave, so each key keeps what its own last writer wrote, and
-- the two writers need not be one request.
import TradingPlatform.Gateway.TradingMode
import TradingPlatform.Lib.LastWrite

open resumption
open trading_platform.shared

namespace trading_platform.gateway_api

open trading_platform.execution

/-! ## The writes of a key -/

/-- The call has its effect, whether its answer comes back or not. -/
def lands (c : Cmd) (o : Choice) : Bool :=
  match o.faultOf c with
  | .before _ => false
  | _ => true

/-- A `SET` has no condition and no TTL. -/
def Unconditional : Cmd → Prop
  | .redis (.set _ _ nx ex) => nx = false ∧ ex = none
  | _ => True

/-- What a call leaves under a key, if it writes the key. -/
def written (key : String) : Cmd → Option (Option RedisEntry)
  | .redis (.set k value _ _) => if k = key then some (some ⟨value, none⟩) else none
  | .redis (.delete k) => if k = key then some none else none
  | _ => none

theorem not_writes_of_written {key : String} {c : Cmd} (h : written key c = none) :
    ¬ c.writes key := by
  cases c with
  | redis c =>
    cases c with
    | set k value nx ex =>
      intro hk
      have hkey : key = k := hk
      simp [written, hkey] at h
    | delete k =>
      intro hk
      have hkey : key = k := hk
      simp [written, hkey] at h
    | get _ | «exists» _ | ttl _ | xadd _ _ | xack _ _ _ => exact fun hk => hk
  | repo _ | submit _ _ | post_order _ | time_ms => exact fun hk => hk

/-- A key of Redis is a part of the world: its unconditional writes set it whole. -/
theorem key_part (key : String) :
    Part World.exec lands Unconditional (fun w => w.redis.keys key) (written key) where
  set := by
    intro w c o v hc hlands hv
    have hredis : (w.exec c o).2.redis = (w.effect o c).2.redis := by
      have hcalled : w.called c = w := by
        cases c with
        | submit _ _ => cases hv
        | redis _ | repo _ | post_order _ | time_ms => rfl
      unfold lands at hlands
      unfold World.exec
      rw [hcalled]
      cases hf : o.faultOf c with
      | before e =>
        rw [hf] at hlands
        cases hlands
      | none | after e => rfl
    rw [hredis]
    cases c with
    | redis c =>
      cases c with
      | set k value nx ex =>
        obtain ⟨rfl, rfl⟩ := hc
        by_cases hk : k = key
        · simp only [written, hk, if_true, Option.some.injEq] at hv
          simp [World.effect, Redis.exec, expiry, hk, ← hv]
        · simp [written, hk] at hv
      | delete k =>
        by_cases hk : k = key
        · simp only [written, hk, if_true, Option.some.injEq] at hv
          simp [World.effect, Redis.exec, hk, ← hv]
        · simp [written, hk] at hv
      | get _ | «exists» _ | ttl _ | xadd _ _ | xack _ _ _ => cases hv
    | repo _ | submit _ _ | post_order _ | time_ms => cases hv
  keep := by
    intro w c o _ h
    rcases h with hlands | hnone
    · unfold lands at hlands
      unfold World.exec
      cases hf : o.faultOf c with
      | before e => simp
      | none | after e =>
        rw [hf] at hlands
        cases hlands
    · exact w.exec_keys c o key (not_writes_of_written hnone)

/-! ## The calls of a request -/

/-- What a request calls: the `SET` of its mode, the write of the stop that its mode asks
for, and the clock. -/
def RequestCall (mode : String) (c : Cmd) : Prop :=
  c = .redis (.set RedisKeys.global_trading_mode mode false none) ∨
    mode = "emergency_stop" ∧ c = .redis (.set RedisKeys.global_emergency_stop "1" false none) ∨
    mode ≠ "emergency_stop" ∧ c = .redis (.delete RedisKeys.global_emergency_stop) ∨
    c = .time_ms

theorem set_trading_mode_calls (body : TradingModeRequest) :
    (set_trading_mode body).Calls (RequestCall body.mode) := by
  unfold set_trading_mode
  split
  · trivial
  · apply calls_bind
    · unfold write_mode
      by_cases hmode : body.mode = "emergency_stop"
      · rw [if_pos hmode]
        refine ⟨Or.inl rfl, ?_⟩
        intro r
        cases r with
        | error e => trivial
        | ok v =>
          refine ⟨Or.inr (Or.inl ⟨hmode, rfl⟩), ?_⟩
          intro r'
          cases r' <;> trivial
      · rw [if_neg hmode]
        refine ⟨Or.inl rfl, ?_⟩
        intro r
        cases r with
        | error e => trivial
        | ok v =>
          refine ⟨Or.inr (Or.inr (Or.inl ⟨hmode, rfl⟩)), ?_⟩
          intro r'
          cases r' <;> trivial
    · intro _
      refine ⟨Or.inr (Or.inr (Or.inr rfl)), ?_⟩
      intro r
      cases r <;> trivial

theorem unconditional_of_request {mode : String} {c : Cmd} (h : RequestCall mode c) :
    Unconditional c := by
  rcases h with rfl | ⟨-, rfl⟩ | ⟨-, rfl⟩ | rfl
  · exact ⟨rfl, rfl⟩
  · exact ⟨rfl, rfl⟩
  · trivial
  · trivial

/-- What a request leaves under the key of the mode is its own mode. -/
theorem mode_of_request {mode : String} {c : Cmd} {v : Option RedisEntry}
    (h : RequestCall mode c) (hv : written RedisKeys.global_trading_mode c = some v) :
    v = some ⟨mode, none⟩ := by
  rcases h with rfl | ⟨-, rfl⟩ | ⟨-, rfl⟩ | rfl
  · simpa [written, eq_comm] using hv
  · simp [written, RedisKeys.global_emergency_stop, RedisKeys.global_trading_mode] at hv
  · simp [written, RedisKeys.global_emergency_stop, RedisKeys.global_trading_mode] at hv
  · cases hv

/-- What a request leaves under the key of the stop is there exactly when its mode is the
emergency stop. -/
theorem stop_of_request {mode : String} {c : Cmd} {v : Option RedisEntry}
    (h : RequestCall mode c) (hv : written RedisKeys.global_emergency_stop c = some v) :
    v = if mode = "emergency_stop" then some ⟨"1", none⟩ else none := by
  rcases h with rfl | ⟨hmode, rfl⟩ | ⟨hmode, rfl⟩ | rfl
  · simp [written, RedisKeys.global_emergency_stop, RedisKeys.global_trading_mode] at hv
  · rw [if_pos hmode]
    simpa [written, eq_comm] using hv
  · rw [if_neg hmode]
    simpa [written, eq_comm] using hv
  · cases hv

/-! ## Agreement -/

/-- The key of the emergency stop exists exactly when the stored mode is the emergency
stop. -/
def Agree (w : World) : Prop :=
  (w.redis.live w.now RedisKeys.global_emergency_stop).isSome = true ↔
    w.redis.live w.now RedisKeys.global_trading_mode = some "emergency_stop"

instance decidableAgree (w : World) : Decidable (Agree w) :=
  inferInstanceAs (Decidable (_ ↔ _))

section Requests

variable (w : World) (requests : List TradingModeRequest) (as : List (Act Choice))

/-- The requests side by side, after the steps of a run. -/
def after_requests : Config World PyErr Cmd Ans TradingModeReply :=
  (Config.start w (requests.map set_trading_mode)).run World.exec as

/-- The request whose write of a key is the last one to take effect. -/
def last_writer (key : String) : Option Nat :=
  (lastWrite (written key)
    ((Config.start w (requests.map set_trading_mode)).effects World.exec lands as)).map (·.1)

/-- Request `i` asks for the emergency stop. -/
def asks_stop (i : Nat) : Bool := requests[i]?.any fun body => body.mode = "emergency_stop"

/-- Whether the last writer of the mode asks for the emergency stop; a mode that no request
wrote is the one before the run. -/
def mode_side : Bool :=
  match last_writer w requests as RedisKeys.global_trading_mode with
  | some i => asks_stop requests i
  | none => w.redis.live (after_requests w requests as).shared.now
      RedisKeys.global_trading_mode = some "emergency_stop"

/-- Whether the last writer of the stop asks for the emergency stop; a stop that no request
wrote is the one before the run. -/
def stop_side : Bool :=
  match last_writer w requests as RedisKeys.global_emergency_stop with
  | some i => asks_stop requests i
  | none => (w.redis.live (after_requests w requests as).shared.now
      RedisKeys.global_emergency_stop).isSome

variable {w requests as}

theorem calls_of_start {i : Nat} {p : Py TradingModeReply}
    (h : (Config.start w (requests.map set_trading_mode)).threads[i]? = some p) :
    ∃ body, requests[i]? = some body ∧ p.Calls (RequestCall body.mode) := by
  rw [Config.start, List.getElem?_map] at h
  cases hb : requests[i]? with
  | none => simp [hb] at h
  | some body =>
    rw [hb] at h
    cases h
    exact ⟨body, rfl, set_trading_mode_calls body⟩

/-- What is under a key after the run: what its last writer left, or what was there. -/
theorem key_after (key : String) :
    (last_writer w requests as key = none ∧
      (after_requests w requests as).shared.redis.keys key = w.redis.keys key) ∨
    ∃ i body c v, last_writer w requests as key = some i ∧ requests[i]? = some body ∧
      RequestCall body.mode c ∧ written key c = some v ∧
      (after_requests w requests as).shared.redis.keys key = v := by
  have hcalls : ∀ p ∈ (Config.start w (requests.map set_trading_mode)).threads,
      p.Calls Unconditional := by
    intro p hp
    obtain ⟨body, -, rfl⟩ := List.mem_map.mp hp
    exact calls_mono (set_trading_mode_calls body) fun c => unconditional_of_request
  have hkey := (key_part key).run hcalls as
  unfold last_writer after_requests
  rw [hkey]
  cases hlast : lastWrite (written key)
      ((Config.start w (requests.map set_trading_mode)).effects World.exec lands as) with
  | none => exact Or.inl ⟨rfl, rfl⟩
  | some x =>
    obtain ⟨i, v⟩ := x
    obtain ⟨c, hmem, hv⟩ := exists_of_lastWrite hlast
    have hrequest := Config.effects_calls
      (A := fun i c => ∃ body, requests[i]? = some body ∧ RequestCall body.mode c)
      (fun i p hp => by
        obtain ⟨body, hbody, hp⟩ := calls_of_start hp
        exact calls_mono hp fun c hc => ⟨body, hbody, hc⟩) as _ hmem
    obtain ⟨body, hbody, hc⟩ := hrequest
    exact Or.inr ⟨i, body, c, v, rfl, hbody, hc, hv, rfl⟩

theorem mode_after :
    (after_requests w requests as).shared.redis.live (after_requests w requests as).shared.now
      RedisKeys.global_trading_mode = some "emergency_stop" ↔ mode_side w requests as = true := by
  have hkeys := @key_after w requests as RedisKeys.global_trading_mode
  rcases hkeys with ⟨hlast, hkey⟩ | ⟨i, body, c, v, hlast, hbody, hc, hv, hkey⟩
  · simp [mode_side, hlast, Redis.live_congr hkey]
  · rw [mode_of_request hc hv] at hkey
    simp [mode_side, hlast, asks_stop, hbody, Redis.live, hkey]

theorem stop_after :
    ((after_requests w requests as).shared.redis.live (after_requests w requests as).shared.now
      RedisKeys.global_emergency_stop).isSome = true ↔ stop_side w requests as = true := by
  have hkeys := @key_after w requests as RedisKeys.global_emergency_stop
  rcases hkeys with ⟨hlast, hkey⟩ | ⟨i, body, c, v, hlast, hbody, hc, hv, hkey⟩
  · simp [stop_side, hlast, Redis.live_congr hkey]
  · rw [stop_of_request hc hv] at hkey
    by_cases hmode : body.mode = "emergency_stop"
    · simp [stop_side, hlast, asks_stop, hbody, Redis.live, hkey, hmode]
    · simp [stop_side, hlast, asks_stop, hbody, Redis.live, hkey, hmode]

end Requests

/-- The mode and the stop agree after a run, finished or not, exactly when the last writer
of the mode and the last writer of the stop ask for the same. -/
theorem mode_and_stop_agree_iff (w : World) (requests : List TradingModeRequest)
    (as : List (Act Choice)) :
    Agree (after_requests w requests as).shared ↔
      mode_side w requests as = stop_side w requests as := by
  unfold Agree
  rw [mode_after, stop_after]
  exact iff_comm.trans Bool.eq_iff_iff.symm

/-- One step of each thread of a list, in its order, with no failure. -/
def steps (threads : List Nat) : List (Act Choice) := threads.map fun i => ⟨i, .idle⟩

/-- The request that leaves the emergency stop writes its mode first and deletes the key
last: the mode that is shown is the emergency stop, and the stop is off. -/
theorem a_shown_stop_is_off :
    let requests : List TradingModeRequest :=
      [{ mode := "emergency_stop" }, { mode := "paper_only" }]
    let cfg := after_requests World.empty requests (steps [1, 0, 0, 1, 0, 1])
    cfg.Returned ∧
      cfg.shared.redis.live cfg.shared.now RedisKeys.global_trading_mode = some "emergency_stop" ∧
      cfg.shared.redis.live cfg.shared.now RedisKeys.global_emergency_stop = none ∧
      ¬ Agree cfg.shared := by
  decide

/-- What `GET` shows of the two keys. -/
def shown (mode : Option String) (emergency_stop_active : Bool) : TradingModeStatus :=
  let mode := match mode with
    | some mode => if mode = "" then "paper_only" else mode
    | none => "paper_only"
  ⟨mode, emergency_stop_active, mode_note mode⟩

/-- What `GET` shows agrees exactly when the two keys do. -/
theorem get_shows_agreement (w : World) :
    w.Alone (onRedis get_trading_mode) fun r _ => ∃ status, r = .ok status ∧
      ((status.emergency_stop_active = true ↔ status.mode = "emergency_stop") ↔ Agree w) := by
  have hget : w.Alone (onRedis get_trading_mode) fun r _ => r = .ok
      (shown (w.redis.live w.now RedisKeys.global_trading_mode)
        (w.redis.live w.now RedisKeys.global_emergency_stop).isSome) := rfl
  refine alone_mono hget ?_
  intro r _ hr
  refine ⟨_, hr, ?_⟩
  unfold Agree
  cases hmode : w.redis.live w.now RedisKeys.global_trading_mode with
  | none => simp [shown]
  | some mode =>
    by_cases hempty : mode = ""
    · simp [shown, hempty]
    · simp [shown, hempty]

end trading_platform.gateway_api
