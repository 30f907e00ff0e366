-- Redis as the services use it: the key builders, the commands, and what a
-- server does with them. A key with a TTL is gone once its time has passed.
import TradingPlatform.Lib.Prog
import TradingPlatform.Shared.Schemas

open resumption

namespace trading_platform.shared

/-! ## Keys and streams -/

namespace RedisKeys

def market_price (market_type symbol : String) : String :=
  "market:" ++ market_type ++ ":" ++ symbol ++ ":price"

def market_book_ticker (market_type symbol : String) : String :=
  "market:" ++ market_type ++ ":" ++ symbol ++ ":book_ticker"

def analytics_snapshot (market_type symbol : String) : String :=
  "analytics:" ++ market_type ++ ":" ++ symbol ++ ":snapshot"

def kill_switch (account_id : String) : String := "kill_switch:" ++ account_id

def user_pause (account_id : String) : String := "pause:user:" ++ account_id

def symbol_pause (account_id symbol : String) : String :=
  "pause:symbol:" ++ (account_id ++ ":" ++ symbol)

def symbol_cooldown (account_id symbol : String) : String :=
  "cooldown:" ++ (account_id ++ ":" ++ symbol)

def circuit_breaker (account_id : String) : String := "circuit_breaker:" ++ account_id

def job_lock (job_id : String) : String := "job:lock:" ++ job_id

def global_trading_mode : String := "global:trading_mode"

def global_emergency_stop : String := "global:emergency_stop"

/-- Two keys whose prefixes start with different letters differ. -/
theorem ne_of_prefix {a b x y : String} (ha : a.toList ≠ []) (hb : b.toList ≠ [])
    (h : a.toList.head? ≠ b.toList.head?) : a ++ x ≠ b ++ y := by
  intro he
  apply h
  have h0 := congrArg (fun s : String => s.toList.head?) he
  simpa [String.toList_append, List.head?_append_of_ne_nil _ ha,
    List.head?_append_of_ne_nil _ hb] using h0

/-- Keys of one prefix differ in what follows it. -/
theorem append_left_inj {a x y : String} (h : a ++ x = a ++ y) : x = y := by
  apply String.ext
  have hlists := congrArg String.toList h
  simpa [String.toList_append] using hlists

/-- Two keys whose prefixes differ within their first `n` letters differ. -/
theorem ne_of_take {a b x y : String} (n : Nat) (ha : n ≤ a.toList.length)
    (hb : n ≤ b.toList.length) (h : a.toList.take n ≠ b.toList.take n) : a ++ x ≠ b ++ y := by
  intro he
  apply h
  have h0 := congrArg (fun s : String => s.toList.take n) he
  simpa [String.toList_append, List.take_append_of_le_length ha,
    List.take_append_of_le_length hb] using h0

end RedisKeys

/-- Two numbers with one text are one number. -/
theorem repr_inj {m n : Nat} (h : toString m = toString n) : m = n := by
  have hdigits : Nat.toDigits 10 m = Nat.toDigits 10 n := String.ofList_injective h
  rw [← Nat.ofDigitChars_ten_toDigits (n := m), hdigits, Nat.ofDigitChars_ten_toDigits]

namespace StreamNames

def NORMALIZED : String := "stream:binance:normalized"

def STRATEGY_INTENTS : String := "stream:strategy:intents"

def EXECUTION_EVENTS : String := "stream:execution:events"

end StreamNames

/-! ## The server -/

structure RedisEntry where
  value : String
  /-- The time in ms from which on the key is gone. -/
  expires : Option Nat
  deriving DecidableEq

structure Redis where
  keys : String → Option RedisEntry
  /-- The entries added to the streams, oldest first. -/
  streams : List (String × List (String × Json))
  /-- The acknowledged entries: stream, group and entry id. -/
  acks : List (String × String × String)

def Redis.empty : Redis := ⟨fun _ => none, [], []⟩

/-- The value under a key at a time. -/
def Redis.live (r : Redis) (now : Nat) (key : String) : Option String :=
  match r.keys key with
  | some e =>
    match e.expires with
    | some t => if now < t then some e.value else none
    | none => some e.value
  | none => none

inductive RedisCmd where
  /-- `SET key value`, with `NX` and with `EX seconds`. -/
  | set (key value : String) (nx : Bool) (ex : Option Int)
  | get (key : String)
  | exists (key : String)
  | delete (key : String)
  | ttl (key : String)
  | xadd (stream : String) (fields : List (String × Json))
  | xack (stream group msg_id : String)

/-- What a command answers. `SET` with `NX` says whether the key was set. -/
abbrev RedisCmd.Ans : RedisCmd → Type
  | .set .. => Bool
  | .get _ => Option String
  | .exists _ => Bool
  | .delete _ => Unit
  | .ttl _ => Int
  | .xadd .. => Unit
  | .xack .. => Unit

def Redis.put (r : Redis) (key : String) (e : RedisEntry) : Redis :=
  { r with keys := fun k => if k = key then some e else r.keys k }

def Redis.remove (r : Redis) (key : String) : Redis :=
  { r with keys := fun k => if k = key then none else r.keys k }

def invalid_expire_time : PyErr := ⟨"ResponseError", "invalid expire time in 'set' command"⟩

/-- The time at which a key set now expires; `EX` must be positive. -/
def expiry (now : Nat) : Option Int → Except PyErr (Option Nat)
  | none => .ok none
  | some s => if 0 < s then .ok (some (now + 1000 * s.toNat)) else .error invalid_expire_time

/-- The seconds that a key has left: -1 without a TTL, -2 without the key. -/
def Redis.secondsLeft (r : Redis) (now : Nat) (key : String) : Int :=
  match r.keys key with
  | some ⟨_, none⟩ => -1
  | some ⟨_, some t⟩ => if now < t then ((t - now : Nat) : Int) / 1000 else -2
  | none => -2

def Redis.exec (r : Redis) (now : Nat) : (c : RedisCmd) → Except PyErr c.Ans × Redis
  | .set key value nx ex =>
    match expiry now ex with
    | .error e => (.error e, r)
    | .ok t =>
      if nx && (r.live now key).isSome then (.ok false, r)
      else (.ok true, r.put key ⟨value, t⟩)
  | .get key => (.ok (r.live now key), r)
  | .exists key => (.ok (r.live now key).isSome, r)
  | .delete key => (.ok (), r.remove key)
  | .ttl key => (.ok (r.secondsLeft now key), r)
  | .xadd stream fields => (.ok (), { r with streams := r.streams ++ [(stream, fields)] })
  | .xack stream group msg_id => (.ok (), { r with acks := r.acks ++ [(stream, group, msg_id)] })

/-! ## Facts about the server -/

@[simp] theorem Redis.put_keys (r : Redis) (key : String) (e : RedisEntry) (k : String) :
    (r.put key e).keys k = if k = key then some e else r.keys k := rfl

@[simp] theorem Redis.remove_keys (r : Redis) (key : String) (k : String) :
    (r.remove key).keys k = if k = key then none else r.keys k := rfl

theorem Redis.live_congr {r r' : Redis} {key : String} (h : r.keys key = r'.keys key) (t : Nat) :
    r.live t key = r'.live t key := by
  unfold live
  rw [h]

/-- The keys that a command can change: the one it sets or deletes. -/
def RedisCmd.writes : RedisCmd → String → Prop
  | .set key .., k => k = key
  | .delete key, k => k = key
  | _, _ => False

/-- A command leaves every key that it does not name as it was. -/
theorem Redis.exec_keys (r : Redis) (now : Nat) (c : RedisCmd) (k : String) (h : ¬ c.writes k) :
    (r.exec now c).2.keys k = r.keys k := by
  cases c with
  | set key value nx ex =>
    have hk : ¬ k = key := h
    simp only [Redis.exec]
    split
    · rfl
    · split
      · rfl
      · simp [hk]
  | delete key =>
    have hk : ¬ k = key := h
    simp [Redis.exec, hk]
  | get _ | «exists» _ | ttl _ | xadd _ _ | xack _ _ _ => rfl

/-- The key that a command reads or changes. -/
def RedisCmd.names : RedisCmd → String → Prop
  | .set key .., k => k = key
  | .get key, k => k = key
  | .exists key, k => k = key
  | .delete key, k => k = key
  | .ttl key, k => k = key
  | _, _ => False

/-- The two servers differ in what they hold under the key, at most. -/
structure Redis.AgreesBut (key : String) (r r' : Redis) : Prop where
  streams : r.streams = r'.streams
  acks : r.acks = r'.acks
  keys : ∀ k, k ≠ key → r.keys k = r'.keys k

/-- A command that does not name the key does not tell the servers apart. -/
theorem Redis.exec_agrees {key : String} {r r' : Redis} (h : r.AgreesBut key r') (now : Nat)
    {c : RedisCmd} (hc : ¬ c.names key) :
    (r.exec now c).1 = (r'.exec now c).1 ∧ (r.exec now c).2.AgreesBut key (r'.exec now c).2 := by
  obtain ⟨hstreams, hacks, hkeys⟩ := h
  cases c with
  | set k value nx ex =>
    have hk : r.keys k = r'.keys k := hkeys k fun he => hc he.symm
    have hput : ∀ e, (r.put k e).AgreesBut key (r'.put k e) := by
      intro e
      refine ⟨hstreams, hacks, ?_⟩
      intro k' hk'
      by_cases he : k' = k
      · simp [he]
      · simp [he, hkeys k' hk']
    simp only [exec, Redis.live_congr hk now]
    cases expiry now ex with
    | error e => exact ⟨rfl, hstreams, hacks, hkeys⟩
    | ok t =>
      dsimp only
      split
      · exact ⟨rfl, hstreams, hacks, hkeys⟩
      · exact ⟨rfl, hput _⟩
  | get k | «exists» k =>
    have hk : r.keys k = r'.keys k := hkeys k fun he => hc he.symm
    simp only [exec, Redis.live_congr hk now]
    exact ⟨trivial, hstreams, hacks, hkeys⟩
  | ttl k =>
    have hk : r.keys k = r'.keys k := hkeys k fun he => hc he.symm
    simp only [exec, secondsLeft, hk]
    exact ⟨trivial, hstreams, hacks, hkeys⟩
  | delete k =>
    refine ⟨rfl, hstreams, hacks, ?_⟩
    intro k' hk'
    by_cases he : k' = k
    · simp [exec, he]
    · simp [exec, he, hkeys k' hk']
  | xadd stream fields =>
    refine ⟨rfl, ?_, hacks, hkeys⟩
    simp only [exec, hstreams]
  | xack stream group msg_id =>
    refine ⟨rfl, hstreams, ?_, hkeys⟩
    simp only [exec, hacks]

end trading_platform.shared
