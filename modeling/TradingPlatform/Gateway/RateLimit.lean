-- The rate limit of the gateway. Each request counts itself with `INCR` under a key of its
-- minute, and the first one of a minute gives the key its TTL with a second command. The
-- minutes are aligned, so a count says nothing of 60 seconds that lie across two of them.
import TradingPlatform.Lib.Pool
import TradingPlatform.Shared.Redis
import Mathlib.Data.Finset.Card

open resumption
open trading_platform.shared

namespace trading_platform.gateway_api

structure GatewayApiSettings where
  gateway_api_key : String := "change-me-gateway-key"
  rate_limit_requests_per_min : Int := 60

/-! ## Counters in Redis -/

/-- A counter, and the time in ms from which on it is gone. -/
structure Counter where
  count : Nat
  expires : Option Nat

inductive CounterCmd where
  | incr (key : String)
  | expire (key : String) (seconds : Nat)

/-- `EXPIRE` says whether the key is there. -/
abbrev CounterCmd.Ans : CounterCmd → Type
  | .incr _ => Nat
  | .expire _ _ => Bool

structure CounterStore where
  /-- In ms. -/
  now : Nat := 0
  counters : String → Option Counter := fun _ => none

namespace CounterStore

def live (self : CounterStore) (now : Nat) (key : String) : Option Counter :=
  (self.counters key).filter fun c => c.expires.all (now < ·)

def put (self : CounterStore) (now : Nat) (key : String) (c : Counter) : CounterStore :=
  ⟨now, fun k => if k = key then some c else self.counters k⟩

/-- The environment chooses the time at which a command comes. The clock does not go back. -/
def exec (self : CounterStore) (c : CounterCmd) (time : Nat) : Except PyErr c.Ans × CounterStore :=
  let now := max self.now time
  match c with
  | .incr key =>
    match self.live now key with
    | some c => (.ok (c.count + 1), self.put now key ⟨c.count + 1, c.expires⟩)
    | none => (.ok 1, self.put now key ⟨1, none⟩)
  | .expire key seconds =>
    match self.live now key with
    | some c => (.ok true, self.put now key ⟨c.count, some (now + 1000 * seconds)⟩)
    | none => (.ok false, { self with now })

end CounterStore

/-! ## The check of a request -/

/-- The number of the minute on the clock. -/
def minute_bucket (time_ms : Nat) : Nat := time_ms / 1000 / 60

def rl_key (x_api_key : String) (bucket : Nat) : String :=
  ("rate_limit:" ++ x_api_key ++ ":") ++ toString bucket

section Requests

variable (settings : GatewayApiSettings) (x_api_key : String)

/-- What the count of a request comes to. -/
def let_in (count : Nat) : Prog PyErr CounterCmd CounterCmd.Ans String :=
  if settings.rate_limit_requests_per_min < count then
    Prog.raise ⟨"HTTPException",
      "429: Rate limit exceeded: " ++ toString settings.rate_limit_requests_per_min ++ " req/min"⟩
  else Prog.done x_api_key

/-- A request that reads the clock at a time in ms. -/
def verify_gateway_api_key (time_ms : Nat) : Prog PyErr CounterCmd CounterCmd.Ans String := do
  if x_api_key ≠ settings.gateway_api_key then
    Prog.raise ⟨"HTTPException", "401: Invalid or missing X-API-Key"⟩
  else
    let key := rl_key x_api_key (minute_bucket time_ms)
    let count ← Prog.perform (V := CounterCmd.Ans) (.incr key)
    if count = 1 then
      let _ ← Prog.perform (V := CounterCmd.Ans) (.expire key 120)
    let_in settings x_api_key count

/-! ## Runs -/

abbrev RateConfig := Config CounterStore PyErr CounterCmd CounterCmd.Ans String

/-- The requests side by side, each with the time at which it reads the clock, after the steps
of a run. -/
def after_all_requests (times : List Nat) (acts : List (Act Nat)) : RateConfig :=
  (Config.start {} (times.map (verify_gateway_api_key settings x_api_key))).run CounterStore.exec acts

end Requests

/-- The time at which a step comes. -/
def time_of (cfg : RateConfig) (a : Act Nat) : Nat := max cfg.shared.now a.choice

/-- No command of a request comes before the request. -/
def Started (times : List Nat) (cfg : RateConfig) (a : Act Nat) : Prop :=
  ∀ t, times[a.thread]? = some t → t ≤ time_of cfg a

/-- The `INCR` of a request comes less than a minute after the request. -/
def Prompt (times : List Nat) (cfg : RateConfig) (a : Act Nat) : Prop :=
  ∀ t key k, times[a.thread]? = some t → cfg.threads[a.thread]? = some (.call (.incr key) k) →
    time_of cfg a < t + 60000

/-- The requests of the 60 seconds from a time on. -/
def arrivals (times : List Nat) (start : Nat) : Finset Nat :=
  (Finset.range times.length).filter fun i =>
    times[i]?.any fun t => decide (start ≤ t ∧ t < start + 60000)

/-- Those of them that were accepted. -/
def accepted (times : List Nat) (cfg : RateConfig) (start : Nat) : Finset Nat :=
  (arrivals times start).filter fun i => cfg.threads[i]?.any (·.returned)

/-- Whichever 60 seconds one looks at, no more requests were accepted than the limit says. -/
def Limited (settings : GatewayApiSettings) (times : List Nat) (cfg : RateConfig) : Prop :=
  ∀ start, ((accepted times cfg start).card : Int) ≤ settings.rate_limit_requests_per_min

/-- Some of the requests come in one minute of the clock, and some in another. -/
def TwoMinutes (times : List Nat) (requests : Finset Nat) : Prop :=
  ∃ i ∈ requests, ∃ j ∈ requests, times[i]?.map minute_bucket ≠ times[j]?.map minute_bucket

/-! ## One request -/

section OneRequest

variable (settings : GatewayApiSettings) (x_api_key : String)

/-- The first request of a minute, before its second command. -/
def expiring (key : String) : Prog PyErr CounterCmd CounterCmd.Ans String := do
  let _ ← Prog.perform (V := CounterCmd.Ans) (.expire key 120)
  let_in settings x_api_key 1

/-- What a request goes on with, once it is counted. -/
def counted (key : String) (count : Nat) : Prog PyErr CounterCmd CounterCmd.Ans String :=
  if count = 1 then expiring settings x_api_key key else let_in settings x_api_key count

theorem expiring_eq (key : String) :
    ∃ k, expiring settings x_api_key key = .call (.expire key 120) k ∧
      ∀ b, k (.ok b) = let_in settings x_api_key 1 :=
  ⟨_, rfl, fun _ => rfl⟩

variable {settings x_api_key}

theorem rl_key_inj {b c : Nat} (h : rl_key x_api_key b = rl_key x_api_key c) : b = c :=
  repr_inj (RedisKeys.append_left_inj h)

theorem verify_eq (h : x_api_key = settings.gateway_api_key) (t : Nat) :
    ∃ k, verify_gateway_api_key settings x_api_key t =
        .call (.incr (rl_key x_api_key (minute_bucket t))) k ∧
      ∀ n, k (.ok n) = counted settings x_api_key (rl_key x_api_key (minute_bucket t)) n := by
  unfold verify_gateway_api_key
  rw [if_neg (not_not.mpr h)]
  refine ⟨_, rfl, ?_⟩
  intro n
  show (if n = 1 then _ else _) = _
  unfold counted
  split
  · rename_i hn
    subst hn
    rfl
  · rfl

theorem verify_wrong_key (h : x_api_key ≠ settings.gateway_api_key) (t : Nat) :
    verify_gateway_api_key settings x_api_key t =
      .raise ⟨"HTTPException", "401: Invalid or missing X-API-Key"⟩ :=
  if_pos h

theorem admit_of_le {n : Nat} (h : (n : Int) ≤ settings.rate_limit_requests_per_min) :
    let_in settings x_api_key n = .done x_api_key :=
  if_neg (not_lt.mpr h)

end OneRequest

/-! ## Commands -/

namespace CounterStore

theorem exec_incr_live {self : CounterStore} {key : String} {time : Nat} {c : Counter}
    (h : self.live (max self.now time) key = some c) :
    self.exec (.incr key) time =
      (.ok (c.count + 1), self.put (max self.now time) key ⟨c.count + 1, c.expires⟩) := by
  simp only [exec, h]

theorem exec_incr_gone {self : CounterStore} {key : String} {time : Nat}
    (h : self.live (max self.now time) key = none) :
    self.exec (.incr key) time = (.ok 1, self.put (max self.now time) key ⟨1, none⟩) := by
  simp only [exec, h]

theorem exec_expire_live {self : CounterStore} {key : String} {time seconds : Nat} {c : Counter}
    (h : self.live (max self.now time) key = some c) :
    self.exec (.expire key seconds) time =
      (.ok true, self.put (max self.now time) key
        ⟨c.count, some (max self.now time + 1000 * seconds)⟩) := by
  simp only [exec, h]

theorem exec_expire_gone {self : CounterStore} {key : String} {time seconds : Nat}
    (h : self.live (max self.now time) key = none) :
    self.exec (.expire key seconds) time =
      (.ok false, { self with now := max self.now time }) := by
  simp only [exec, h]

@[simp] theorem put_counters (self : CounterStore) (now : Nat) (key : String) (c : Counter)
    (k : String) :
    (self.put now key c).counters k = if k = key then some c else self.counters k := rfl

@[simp] theorem put_now (self : CounterStore) (now : Nat) (key : String) (c : Counter) :
    (self.put now key c).now = now := rfl

theorem live_of_later {self : CounterStore} {now : Nat} {key : String} {c : Counter}
    (h : self.counters key = some c) (hlater : ∀ e ∈ c.expires, now < e) :
    self.live now key = some c := by
  unfold live
  rw [h, Option.filter_some, if_pos]
  cases hexpires : c.expires with
  | none => rfl
  | some e => exact decide_eq_true (hlater e hexpires)

theorem live_of_none {self : CounterStore} {key : String} (h : self.counters key = none)
    (now : Nat) : self.live now key = none := by
  unfold live
  rw [h, Option.filter_none]

theorem counters_of_live {self : CounterStore} {now : Nat} {key : String} {c : Counter}
    (h : self.live now key = some c) : self.counters key = some c :=
  Option.eq_some_of_filter_eq_some h

end CounterStore

/-! ## What a minute lets through -/

/-- The request is through, or will be after its second command. -/
def passes : Prog PyErr CounterCmd CounterCmd.Ans String → Bool
  | .done _ => true
  | .call (.expire _ _) _ => true
  | _ => false

/-- The requests of a minute that are through. -/
def passed (times : List Nat) (cfg : RateConfig) (b : Nat) : Finset Nat :=
  (Finset.range times.length).filter fun i =>
    (times[i]?.any fun t => decide (minute_bucket t = b)) && cfg.threads[i]?.any passes

theorem mem_passed {times : List Nat} {cfg : RateConfig} {b i : Nat} :
    i ∈ passed times cfg b ↔ ∃ t p, times[i]? = some t ∧ minute_bucket t = b ∧
      cfg.threads[i]? = some p ∧ passes p = true := by
  unfold passed
  rw [Finset.mem_filter, Finset.mem_range, Bool.and_eq_true, Option.any_eq_true, Option.any_eq_true]
  constructor
  · rintro ⟨-, ⟨t, ht, hb⟩, p, hp, hpass⟩
    exact ⟨t, p, ht, of_decide_eq_true hb, hp, hpass⟩
  · rintro ⟨t, p, ht, hb, hp, hpass⟩
    exact ⟨(List.getElem?_eq_some_iff.mp ht).1, ⟨t, ht, decide_eq_true hb⟩, p, hp, hpass⟩

/-- A thread that is set, and what is through then. -/
theorem mem_passed_set {times : List Nat} {cfg : RateConfig} {s : CounterStore}
    {trace : List (Nat × Event PyErr CounterCmd CounterCmd.Ans)} {i b j : Nat}
    {p : Prog PyErr CounterCmd CounterCmd.Ans String}
    (h : j ∈ passed times ⟨s, cfg.threads.set i p, trace⟩ b) :
    j = i ∧ passes p = true ∧ times[i]?.map minute_bucket = some b ∨ j ∈ passed times cfg b := by
  obtain ⟨t, q, ht, hb, hq, hpass⟩ := mem_passed.mp h
  by_cases hj : j = i
  · subst hj
    refine Or.inl ⟨rfl, ?_, ?_⟩
    · have hlt : j < cfg.threads.length := by simpa using (List.getElem?_eq_some_iff.mp hq).1
      rw [List.getElem?_set_self hlt] at hq
      cases hq
      exact hpass
    · rw [ht, Option.map_some, hb]
  · rw [List.getElem?_set_ne (Ne.symm hj)] at hq
    exact Or.inr (mem_passed.mpr ⟨t, q, ht, hb, hq, hpass⟩)

section Prompt

variable (settings : GatewayApiSettings) (x_api_key : String)

/-- What a request can stand at. -/
inductive Stage (t : Nat) : Prog PyErr CounterCmd CounterCmd.Ans String → Prop where
  | start : Stage t (verify_gateway_api_key settings x_api_key t)
  | expiring : Stage t (expiring settings x_api_key (rl_key x_api_key (minute_bucket t)))
  | done : Stage t (.done x_api_key)
  | raised (e : PyErr) : Stage t (.raise e)

/-- No more requests of the minute are through than its counter says, and the counter stays
until no prompt request of the minute can come any more. -/
structure Counts (times : List Nat) (cfg : RateConfig) (b : Nat) : Prop where
  le_limit : ((passed times cfg b).card : Int) ≤ settings.rate_limit_requests_per_min
  none : cfg.shared.counters (rl_key x_api_key b) = none → passed times cfg b = ∅
  some : ∀ c, cfg.shared.counters (rl_key x_api_key b) = some c →
    (passed times cfg b).card ≤ c.count ∧ ∀ e ∈ c.expires, 60000 * b + 120000 ≤ e

structure AllCount (times : List Nat) (cfg : RateConfig) : Prop where
  stages : ∀ (i t : Nat) p, times[i]? = some t → cfg.threads[i]? = some p →
    Stage settings x_api_key t p
  length : cfg.threads.length = times.length
  counts : ∀ b, Counts settings x_api_key times cfg b

variable {settings x_api_key}

/-- What is left of a minute when no more requests of it are through and its counter is as it
was. -/
theorem counts_congr {times : List Nat} {cfg cfg' : RateConfig} {b : Nat}
    (h : Counts settings x_api_key times cfg b) (hsub : passed times cfg' b ⊆ passed times cfg b)
    (hcounter : cfg'.shared.counters (rl_key x_api_key b) =
      cfg.shared.counters (rl_key x_api_key b)) : Counts settings x_api_key times cfg' b := by
  have hcard := Finset.card_le_card hsub
  refine ⟨?_, ?_, ?_⟩
  · have hle := h.le_limit
    omega
  · intro hnone
    rw [hcounter] at hnone
    rw [h.none hnone] at hsub
    exact Finset.subset_empty.mp hsub
  · intro c hc
    rw [hcounter] at hc
    exact ⟨hcard.trans (h.some c hc).1, (h.some c hc).2⟩

theorem stage_counted (t n : Nat) :
    Stage settings x_api_key t
      (counted settings x_api_key (rl_key x_api_key (minute_bucket t)) n) := by
  unfold counted
  split
  · exact .expiring
  · unfold let_in
    split
    · exact .raised _
    · exact .done

theorem le_of_passes_counted (hlimit : 1 ≤ settings.rate_limit_requests_per_min) {key : String}
    {n : Nat} (h : passes (counted settings x_api_key key n) = true) :
    (n : Int) ≤ settings.rate_limit_requests_per_min := by
  unfold counted at h
  split at h
  · omega
  · unfold let_in at h
    split at h
    · cases h
    · omega

theorem minute_bounds (t : Nat) :
    60000 * minute_bucket t ≤ t ∧ t < 60000 * minute_bucket t + 60000 := by
  unfold minute_bucket
  omega

/-- A step of a thread, and the stages after it. -/
theorem stages_set {times : List Nat} {cfg : RateConfig} (h : AllCount settings x_api_key times cfg)
    {i t : Nat} (ht : times[i]? = some t) {p : Prog PyErr CounterCmd CounterCmd.Ans String}
    (hp : Stage settings x_api_key t p) :
    ∀ (j u : Nat) q, times[j]? = some u → (cfg.threads.set i p)[j]? = some q →
      Stage settings x_api_key u q := by
  intro j u q hu hq
  by_cases hj : j = i
  · subst hj
    have hlt : j < cfg.threads.length := by simpa using (List.getElem?_eq_some_iff.mp hq).1
    rw [List.getElem?_set_self hlt] at hq
    cases hq
    rw [ht] at hu
    cases hu
    exact hp
  · rw [List.getElem?_set_ne (Ne.symm hj)] at hq
    exact h.stages j u q hu hq

/-- One `INCR` that comes in time. -/
theorem counts_incr (hlimit : 1 ≤ settings.rate_limit_requests_per_min) {times : List Nat}
    {cfg : RateConfig} (h : AllCount settings x_api_key times cfg) {i t time : Nat}
    (ht : times[i]? = some t) (hprompt : max cfg.shared.now time < t + 60000) :
    ∃ n s, cfg.shared.exec (.incr (rl_key x_api_key (minute_bucket t))) time = (.ok n, s) ∧
      ∀ trace, AllCount settings x_api_key times ⟨s, cfg.threads.set i
        (counted settings x_api_key (rl_key x_api_key (minute_bucket t)) n), trace⟩ := by
  have hb := h.counts (minute_bucket t)
  have hminute := (minute_bounds t).2
  -- the counter before the command, and what it says
  obtain ⟨n, expires, hexec, hcard, hexpires⟩ : ∃ n expires,
      cfg.shared.exec (.incr (rl_key x_api_key (minute_bucket t))) time =
        (.ok (n + 1), cfg.shared.put (max cfg.shared.now time)
          (rl_key x_api_key (minute_bucket t)) ⟨n + 1, expires⟩) ∧
      (passed times cfg (minute_bucket t)).card ≤ n ∧
      ∀ e ∈ expires, 60000 * minute_bucket t + 120000 ≤ e := by
    cases hc : cfg.shared.counters (rl_key x_api_key (minute_bucket t)) with
    | none =>
      refine ⟨0, none, CounterStore.exec_incr_gone (CounterStore.live_of_none hc _), ?_, ?_⟩
      · rw [hb.none hc, Finset.card_empty]
      · intro e he
        cases he
    | some c =>
      obtain ⟨hcard, hexpires⟩ := hb.some c hc
      refine ⟨c.count, c.expires, CounterStore.exec_incr_live (CounterStore.live_of_later hc ?_), hcard,
        hexpires⟩
      intro e he
      have hlater := hexpires e he
      omega
  refine ⟨n + 1, _, hexec, fun trace => ⟨?_, ?_, ?_⟩⟩
  · exact stages_set h ht (stage_counted t _)
  · rw [List.length_set, h.length]
  · intro b
    by_cases hbt : b = minute_bucket t
    · subst hbt
      have hsub : passed times ⟨cfg.shared.put (max cfg.shared.now time)
          (rl_key x_api_key (minute_bucket t)) ⟨n + 1, expires⟩, cfg.threads.set i
          (counted settings x_api_key (rl_key x_api_key (minute_bucket t)) (n + 1)), trace⟩
            (minute_bucket t) ⊆ insert i (passed times cfg (minute_bucket t)) := by
        intro j hj
        rcases mem_passed_set hj with ⟨rfl, -⟩ | hold
        · exact Finset.mem_insert_self _ _
        · exact Finset.mem_insert_of_mem hold
      have hle := (Finset.card_le_card hsub).trans (Finset.card_insert_le _ _)
      refine ⟨?_, ?_, ?_⟩
      · by_cases hpass : passes
            (counted settings x_api_key (rl_key x_api_key (minute_bucket t)) (n + 1)) = true
        · have hn := le_of_passes_counted hlimit hpass
          omega
        · have hsame : passed times ⟨cfg.shared.put (max cfg.shared.now time)
              (rl_key x_api_key (minute_bucket t)) ⟨n + 1, expires⟩, cfg.threads.set i
              (counted settings x_api_key (rl_key x_api_key (minute_bucket t)) (n + 1)), trace⟩
                (minute_bucket t) ⊆ passed times cfg (minute_bucket t) := by
            intro j hj
            rcases mem_passed_set hj with ⟨-, hp, -⟩ | hold
            · exact absurd hp hpass
            · exact hold
          have hsmall := Finset.card_le_card hsame
          have hold := hb.le_limit
          omega
      · intro hnone
        simp at hnone
      · intro c hc
        simp only [CounterStore.put_counters, if_true, Option.some.injEq] at hc
        subst hc
        refine ⟨?_, hexpires⟩
        show _ ≤ n + 1
        omega
    · refine counts_congr (h.counts b) ?_ ?_
      · intro j hj
        rcases mem_passed_set hj with ⟨-, -, hm⟩ | hold
        · rw [ht, Option.map_some, Option.some.injEq] at hm
          exact absurd hm.symm hbt
        · exact hold
      · have hkey : rl_key x_api_key b ≠ rl_key x_api_key (minute_bucket t) :=
          fun he => hbt (rl_key_inj he)
        simp [hkey]

/-- The second command of the first request of a minute. -/
theorem counts_expire (hlimit : 1 ≤ settings.rate_limit_requests_per_min) {times : List Nat}
    {cfg : RateConfig} (h : AllCount settings x_api_key times cfg) {i t time : Nat}
    (ht : times[i]? = some t)
    (hi : cfg.threads[i]? = some (expiring settings x_api_key (rl_key x_api_key (minute_bucket t))))
    (hstarted : t ≤ max cfg.shared.now time) :
    ∃ b s, cfg.shared.exec (.expire (rl_key x_api_key (minute_bucket t)) 120) time = (.ok b, s) ∧
      ∀ trace, AllCount settings x_api_key times
        ⟨s, cfg.threads.set i (let_in settings x_api_key 1), trace⟩ := by
  have hminute := (minute_bounds t).1
  -- the same counter, with a TTL that ends late enough
  obtain ⟨b, s, hexec, hnone, hsome⟩ : ∃ b s,
      cfg.shared.exec (.expire (rl_key x_api_key (minute_bucket t)) 120) time = (.ok b, s) ∧
      (∀ key, s.counters key = none → cfg.shared.counters key = none) ∧
      ∀ key c, s.counters key = some c → cfg.shared.counters key = some c ∨
        key = rl_key x_api_key (minute_bucket t) ∧ ∃ c', cfg.shared.counters key = some c' ∧
          c.count = c'.count ∧ ∀ e ∈ c.expires, 60000 * minute_bucket t + 120000 ≤ e := by
    cases hlive : cfg.shared.live (max cfg.shared.now time) (rl_key x_api_key (minute_bucket t)) with
    | none =>
      exact ⟨_, _, CounterStore.exec_expire_gone hlive, fun _ h => h, fun _ _ h => Or.inl h⟩
    | some c =>
      refine ⟨_, _, CounterStore.exec_expire_live hlive, ?_, ?_⟩
      · intro key hkey
        rw [CounterStore.put_counters] at hkey
        split at hkey
        · cases hkey
        · exact hkey
      · intro key c' hkey
        rw [CounterStore.put_counters] at hkey
        split at hkey
        · rename_i he
          subst he
          cases hkey
          refine Or.inr ⟨rfl, c, CounterStore.counters_of_live hlive, rfl, ?_⟩
          intro e he
          cases he
          omega
        · exact Or.inl hkey
  have hsub : ∀ trace b', passed times
      ⟨s, cfg.threads.set i (let_in settings x_api_key 1), trace⟩ b' ⊆ passed times cfg b' := by
    intro trace b' j hj
    rcases mem_passed_set hj with ⟨rfl, -, hm⟩ | hold
    · rw [ht, Option.map_some, Option.some.injEq] at hm
      obtain ⟨k, hk, -⟩ := expiring_eq settings x_api_key (rl_key x_api_key (minute_bucket t))
      exact mem_passed.mpr ⟨t, _, ht, hm, hi, by rw [hk]; rfl⟩
    · exact hold
  refine ⟨b, s, hexec, fun trace => ⟨?_, ?_, ?_⟩⟩
  · refine stages_set h ht ?_
    rw [admit_of_le (by omega)]
    exact .done
  · rw [List.length_set, h.length]
  · intro b'
    have hb := h.counts b'
    have hcard := Finset.card_le_card (hsub trace b')
    refine ⟨?_, ?_, ?_⟩
    · have hle := hb.le_limit
      omega
    · intro hkey
      have hempty := hsub trace b'
      rw [hb.none (hnone _ hkey)] at hempty
      exact Finset.subset_empty.mp hempty
    · intro c hc
      rcases hsome _ c hc with hold | ⟨hkey, c', hold, hcount, hexpires⟩
      · exact ⟨hcard.trans (hb.some c hold).1, (hb.some c hold).2⟩
      · obtain rfl := rl_key_inj hkey
        rw [hcount]
        exact ⟨hcard.trans (hb.some c' hold).1, hexpires⟩

/-- What a step of a prompt run keeps. -/
theorem counts_step (hkey : x_api_key = settings.gateway_api_key)
    (hlimit : 1 ≤ settings.rate_limit_requests_per_min) {times : List Nat} (cfg : RateConfig)
    (a : Act Nat) (h : AllCount settings x_api_key times cfg)
    (hcond : Started times cfg a ∧ Prompt times cfg a) :
    AllCount settings x_api_key times (cfg.step CounterStore.exec a) := by
  rcases Config.step_cases CounterStore.exec cfg a with he | ⟨c, k, hthread, he⟩
  · rw [he]
    exact h
  · rw [he]
    obtain ⟨t, ht⟩ : ∃ t, times[a.thread]? = some t := by
      have hlt := (List.getElem?_eq_some_iff.mp hthread).1
      rw [h.length] at hlt
      exact ⟨_, List.getElem?_eq_getElem hlt⟩
    have hstage := h.stages _ t _ ht hthread
    generalize hp : Prog.call c k = p at hstage
    cases hstage with
    | start =>
      obtain ⟨k', hverify, hk'⟩ := verify_eq hkey t
      rw [hverify] at hp
      cases hp
      obtain ⟨n, s, hexec, hall⟩ := counts_incr hlimit h ht (hcond.2 t _ _ ht hthread)
      rw [hexec]
      dsimp only
      rw [hk']
      exact hall _
    | expiring =>
      obtain ⟨k', hexpiring, hk'⟩ :=
        expiring_eq settings x_api_key (rl_key x_api_key (minute_bucket t))
      rw [← hp] at hexpiring
      cases hexpiring
      rw [hp] at hthread
      obtain ⟨b, s, hexec, hall⟩ := counts_expire hlimit h ht hthread (hcond.1 t ht)
      rw [hexec]
      dsimp only
      rw [hk']
      exact hall _
    | done => cases hp
    | raised e => cases hp

theorem counts_start (hkey : x_api_key = settings.gateway_api_key)
    (hlimit : 1 ≤ settings.rate_limit_requests_per_min) (times : List Nat) :
    AllCount settings x_api_key times
      (Config.start {} (times.map (verify_gateway_api_key settings x_api_key))) := by
  have hempty : ∀ b, passed times
      (Config.start {} (times.map (verify_gateway_api_key settings x_api_key))) b = ∅ := by
    intro b
    rw [Finset.eq_empty_iff_forall_notMem]
    intro i hi
    obtain ⟨t, p, ht, -, hp, hpass⟩ := mem_passed.mp hi
    rw [Config.start, List.getElem?_map, ht] at hp
    cases hp
    obtain ⟨k, hverify, -⟩ := verify_eq hkey t
    rw [hverify] at hpass
    cases hpass
  refine ⟨?_, List.length_map _, ?_⟩
  · intro i t p ht hp
    rw [Config.start, List.getElem?_map, ht] at hp
    cases hp
    exact .start
  · intro b
    refine ⟨?_, fun _ => hempty b, ?_⟩
    · rw [hempty, Finset.card_empty]
      omega
    · intro c hc
      cases hc

/-! ## Sixty seconds -/

theorem mem_arrivals {times : List Nat} {start i : Nat} :
    i ∈ arrivals times start ↔ ∃ t, times[i]? = some t ∧ start ≤ t ∧ t < start + 60000 := by
  unfold arrivals
  rw [Finset.mem_filter, Finset.mem_range, Option.any_eq_true]
  constructor
  · rintro ⟨-, t, ht, hin⟩
    exact ⟨t, ht, of_decide_eq_true hin⟩
  · rintro ⟨t, ht, hin⟩
    exact ⟨(List.getElem?_eq_some_iff.mp ht).1, t, ht, decide_eq_true hin⟩

theorem mem_accepted {times : List Nat} {cfg : RateConfig} {start i : Nat} :
    i ∈ accepted times cfg start ↔
      i ∈ arrivals times start ∧ ∃ p, cfg.threads[i]? = some p ∧ p.returned = true := by
  unfold accepted
  rw [Finset.mem_filter, Option.any_eq_true]

theorem accepted_card_le (times : List Nat) (cfg : RateConfig) (start : Nat) :
    (accepted times cfg start).card ≤ (arrivals times start).card :=
  Finset.card_le_card (Finset.filter_subset _ _)

/-- Requests of one minute are held by its counter, and those of two minutes are few. -/
theorem limited_of_counts {times : List Nat} {cfg : RateConfig}
    (h : AllCount settings x_api_key times cfg)
    (hfew : ∀ start, TwoMinutes times (arrivals times start) →
      ((arrivals times start).card : Int) ≤ settings.rate_limit_requests_per_min) :
    Limited settings times cfg := by
  intro start
  by_cases htwo : TwoMinutes times (accepted times cfg start)
  · obtain ⟨i, hi, j, hj, hne⟩ := htwo
    have hle := hfew start ⟨i, (mem_accepted.mp hi).1, j, (mem_accepted.mp hj).1, hne⟩
    have hcard := accepted_card_le times cfg start
    omega
  · rcases (accepted times cfg start).eq_empty_or_nonempty with hempty | ⟨i, hi⟩
    · have hzero := (h.counts 0).le_limit
      rw [hempty, Finset.card_empty]
      omega
    · obtain ⟨t, ht, -⟩ := mem_arrivals.mp (mem_accepted.mp hi).1
      have hsub : accepted times cfg start ⊆ passed times cfg (minute_bucket t) := by
        intro j hj
        obtain ⟨u, hu, -⟩ := mem_arrivals.mp (mem_accepted.mp hj).1
        obtain ⟨p, hp, hreturned⟩ := (mem_accepted.mp hj).2
        refine mem_passed.mpr ⟨u, p, hu, ?_, hp, ?_⟩
        · by_contra hne
          refine htwo ⟨j, hj, i, hi, ?_⟩
          rw [hu, ht, Option.map_some, Option.map_some, Ne, Option.some.injEq]
          exact hne
        · obtain ⟨text, rfl⟩ := Prog.eq_done_of_returned hreturned
          rfl
      have hcard := Finset.card_le_card hsub
      have hle := (h.counts (minute_bucket t)).le_limit
      omega

end Prompt

/-! ## Requests that are served one after the other -/

/-- Both steps of a request at one time. -/
def visit (i time : Nat) : List (Act Nat) := [⟨i, time⟩, ⟨i, time⟩]

section Visits

variable {settings : GatewayApiSettings} {x_api_key : String}

/-- At the time, the counter of the minute reads `n`, or there is none yet. -/
def Reads (x_api_key : String) (s : CounterStore) (time b n : Nat) : Prop :=
  (n = 0 ∧ s.live time (rl_key x_api_key b) = none) ∨
    (1 ≤ n ∧ s.counters (rl_key x_api_key b) = some ⟨n, some (time + 120000)⟩)

/-- A request that is served while its counter is below the limit. -/
structure Served (x_api_key : String) (cfg cfg' : RateConfig) (i b time n : Nat) : Prop where
  threads : cfg'.threads = cfg.threads.set i (.done x_api_key)
  now : cfg'.shared.now = time
  counter : cfg'.shared.counters (rl_key x_api_key b) = some ⟨n + 1, some (time + 120000)⟩
  others : ∀ k, k ≠ rl_key x_api_key b → cfg'.shared.counters k = cfg.shared.counters k

theorem step_call {cfg : RateConfig} {i time : Nat} {c : CounterCmd}
    {k : Except PyErr c.Ans → Prog PyErr CounterCmd CounterCmd.Ans String}
    (h : cfg.threads[i]? = some (.call c k)) :
    cfg.step CounterStore.exec ⟨i, time⟩ = ⟨(cfg.shared.exec c time).2,
      cfg.threads.set i (k (cfg.shared.exec c time).1),
      cfg.trace ++ [(i, ⟨c, (cfg.shared.exec c time).1⟩)]⟩ := by
  unfold Config.step
  rw [h]

theorem step_done {cfg : RateConfig} {i time : Nat} {text : String}
    (h : cfg.threads[i]? = some (.done text)) : cfg.step CounterStore.exec ⟨i, time⟩ = cfg := by
  unfold Config.step
  rw [h]

theorem served (hkey : x_api_key = settings.gateway_api_key) {cfg : RateConfig} {i t time n : Nat}
    (hi : cfg.threads[i]? = some (verify_gateway_api_key settings x_api_key t))
    (htime : cfg.shared.now ≤ time) (hreads : Reads x_api_key cfg.shared time (minute_bucket t) n)
    (hn : ((n + 1 : Nat) : Int) ≤ settings.rate_limit_requests_per_min) :
    Served x_api_key cfg (cfg.run CounterStore.exec (visit i time)) i (minute_bucket t) time n := by
  have hmax : max cfg.shared.now time = time := max_eq_right htime
  have hlt := (List.getElem?_eq_some_iff.mp hi).1
  obtain ⟨k, hverify, hk⟩ := verify_eq hkey t
  rw [hverify] at hi
  rw [visit, Config.run_cons, Config.run_cons, Config.run_nil, step_call hi]
  rcases hreads with ⟨rfl, hgone⟩ | ⟨hpos, hcounter⟩
  · -- the first one gives the counter its TTL
    obtain ⟨k', hexpiring, hk'⟩ :=
      expiring_eq settings x_api_key (rl_key x_api_key (minute_bucket t))
    rw [CounterStore.exec_incr_gone (by rw [hmax]; exact hgone)]
    dsimp only
    rw [hk, counted, if_pos rfl, hexpiring, step_call (List.getElem?_set_self hlt),
      CounterStore.exec_expire_live (c := ⟨1, none⟩)
        (CounterStore.live_of_later (by simp) fun e he => by cases he)]
    dsimp only
    rw [hk', admit_of_le (by simpa using hn), hmax]
    refine ⟨List.set_set _, max_self time, ?_, ?_⟩
    · simp [CounterStore.put]
    · intro key hne
      simp [CounterStore.put, hne]
  · have hlive : cfg.shared.live time (rl_key x_api_key (minute_bucket t)) =
        some ⟨n, some (time + 120000)⟩ := by
      apply CounterStore.live_of_later hcounter
      intro e he
      cases he
      omega
    rw [CounterStore.exec_incr_live (by rw [hmax]; exact hlive)]
    dsimp only
    rw [hk, counted, if_neg (by omega), admit_of_le hn,
      step_done (List.getElem?_set_self hlt), hmax]
    refine ⟨rfl, rfl, ?_, ?_⟩
    · simp [CounterStore.put]
    · intro key hne
      simp [CounterStore.put, hne]

/-- Requests of one minute that are served at one time, up to the limit. -/
structure GroupServed (x_api_key : String) (cfg cfg' : RateConfig) (is : List Nat) (b time : Nat) :
    Prop where
  done : ∀ i ∈ is, cfg'.threads[i]? = some (.done x_api_key)
  others : ∀ i, i ∉ is → cfg'.threads[i]? = cfg.threads[i]?
  now : cfg'.shared.now ≤ time
  counters : ∀ k, k ≠ rl_key x_api_key b → cfg'.shared.counters k = cfg.shared.counters k

theorem group_served (hkey : x_api_key = settings.gateway_api_key) {b time : Nat} {is : List Nat}
    (hnodup : is.Nodup) {cfg : RateConfig} {n : Nat}
    (hfresh : ∀ i ∈ is, ∃ t, minute_bucket t = b ∧
      cfg.threads[i]? = some (verify_gateway_api_key settings x_api_key t))
    (htime : cfg.shared.now ≤ time) (hreads : Reads x_api_key cfg.shared time b n)
    (hfit : ((n + is.length : Nat) : Int) ≤ settings.rate_limit_requests_per_min) :
    GroupServed x_api_key cfg (cfg.run CounterStore.exec (is.flatMap fun i => visit i time)) is b
      time := by
  induction is generalizing cfg n with
  | nil => exact ⟨fun i hi => absurd hi List.not_mem_nil, fun _ _ => rfl, htime, fun _ _ => rfl⟩
  | cons i is ih =>
    obtain ⟨hi, hnodup⟩ := List.nodup_cons.mp hnodup
    rw [List.length_cons] at hfit
    obtain ⟨t, hb, hthread⟩ := hfresh i List.mem_cons_self
    have hone := served hkey hthread htime (by rw [hb]; exact hreads) (by omega)
    rw [hb] at hone
    have hlt := (List.getElem?_eq_some_iff.mp hthread).1
    have hfresh' : ∀ j ∈ is, ∃ t, minute_bucket t = b ∧
        (cfg.run CounterStore.exec (visit i time)).threads[j]? =
          some (verify_gateway_api_key settings x_api_key t) := by
      intro j hj
      obtain ⟨u, hu, hthread'⟩ := hfresh j (List.mem_cons_of_mem _ hj)
      refine ⟨u, hu, ?_⟩
      rw [hone.threads, List.getElem?_set_ne, hthread']
      rintro rfl
      exact hi hj
    rw [List.flatMap_cons, Config.run_append]
    have hrest := ih hnodup hfresh' hone.now.le (Or.inr ⟨Nat.succ_pos n, hone.counter⟩) (by omega)
    refine ⟨?_, ?_, hrest.now, ?_⟩
    · intro j hj
      rcases List.mem_cons.mp hj with rfl | hj
      · rw [hrest.others j hi, hone.threads, List.getElem?_set_self hlt]
      · exact hrest.done j hj
    · intro j hj
      have hne : i ≠ j := by
        rintro rfl
        exact hj List.mem_cons_self
      rw [hrest.others j fun h => hj (List.mem_cons_of_mem _ h), hone.threads,
        List.getElem?_set_ne hne]
    · intro k hk
      rw [hrest.counters k hk, hone.others k hk]

/-- The requests one after the other, with a pause before each that outlasts every counter. -/
def with_pauses (pause n : Nat) : List (Act Nat) :=
  (List.range n).flatMap fun i => visit i ((i + 1) * pause)

/-- The first `n` requests are served, and no counter outlives the next pause. -/
structure Paused (settings : GatewayApiSettings) (x_api_key : String) (times : List Nat)
    (cfg : RateConfig) (pause n : Nat) : Prop where
  done : ∀ i < n, cfg.threads[i]? = some (.done x_api_key)
  fresh : ∀ (i t : Nat), n ≤ i → times[i]? = some t →
    cfg.threads[i]? = some (verify_gateway_api_key settings x_api_key t)
  now : cfg.shared.now ≤ (n + 1) * pause
  counters : ∀ k c, cfg.shared.counters k = some c → ∃ e ∈ c.expires, e ≤ (n + 1) * pause

theorem paused (hkey : x_api_key = settings.gateway_api_key)
    (hlimit : 1 ≤ settings.rate_limit_requests_per_min) (times : List Nat) (pause : Nat)
    (hpause : 120000 ≤ pause) (n : Nat) (hn : n ≤ times.length) :
    Paused settings x_api_key times
      (after_all_requests settings x_api_key times (with_pauses pause n)) pause n := by
  induction n with
  | zero =>
    refine ⟨fun i hi => absurd hi (Nat.not_lt_zero i), ?_, Nat.zero_le _, ?_⟩
    · intro i t _ ht
      show (times.map _)[i]? = _
      rw [List.getElem?_map, ht, Option.map_some]
    · intro k c hc
      cases hc
  | succ n ih =>
    have hpaused := ih (by omega)
    have hlt : n < times.length := by omega
    have hthread := hpaused.fresh n _ le_rfl (List.getElem?_eq_getElem hlt)
    have hgone : (after_all_requests settings x_api_key times (with_pauses pause n)).shared.live
        ((n + 1) * pause) (rl_key x_api_key (minute_bucket times[n])) = none := by
      unfold CounterStore.live
      rw [Option.filter_eq_none_iff]
      intro c hc
      obtain ⟨e, he, hle⟩ := hpaused.counters _ c hc
      rw [Option.mem_def.mp he]
      simpa using hle
    have hone := served hkey hthread hpaused.now (Or.inl ⟨rfl, hgone⟩) (by simpa using hlimit)
    have hrun : after_all_requests settings x_api_key times (with_pauses pause (n + 1)) =
        (after_all_requests settings x_api_key times (with_pauses pause n)).run CounterStore.exec
          (visit n ((n + 1) * pause)) := by
      simp only [after_all_requests, with_pauses, List.range_succ, List.flatMap_append,
        List.flatMap_singleton, Config.run_append]
    have hlater : (n + 1 + 1) * pause = (n + 1) * pause + pause := Nat.succ_mul _ _
    have hlength := (List.getElem?_eq_some_iff.mp hthread).1
    rw [hrun]
    refine ⟨?_, ?_, ?_, ?_⟩
    · intro i hi
      rw [hone.threads]
      rcases Nat.lt_succ_iff_lt_or_eq.mp hi with hi | rfl
      · rw [List.getElem?_set_ne (by omega), hpaused.done i hi]
      · rw [List.getElem?_set_self hlength]
    · intro i t hi ht
      rw [hone.threads, List.getElem?_set_ne (by omega), hpaused.fresh i t (by omega) ht]
    · rw [hone.now]
      omega
    · intro k c hc
      by_cases hk : k = rl_key x_api_key (minute_bucket times[n])
      · rw [hk, hone.counter] at hc
        cases hc
        exact ⟨_, rfl, by omega⟩
      · rw [hone.others k hk] at hc
        obtain ⟨e, he, hle⟩ := hpaused.counters k c hc
        exact ⟨e, he, by omega⟩

/-! ## Steps that come in time -/

theorem along_started {times : List Nat} {acts : List (Act Nat)}
    (h : ∀ a ∈ acts, ∀ t, times[a.thread]? = some t → t ≤ a.choice) (cfg : RateConfig) :
    cfg.Along CounterStore.exec (Started times) acts := by
  induction acts generalizing cfg with
  | nil => trivial
  | cons a acts ih =>
    refine ⟨?_, ih (fun a' ha' => h a' (List.mem_cons_of_mem _ ha')) _⟩
    intro t ht
    exact (h a List.mem_cons_self t ht).trans (le_max_right _ _)

theorem exec_now (s : CounterStore) (c : CounterCmd) (time : Nat) :
    (s.exec c time).2.now = max s.now time := by
  unfold CounterStore.exec
  cases c with
  | incr key =>
    dsimp only
    split <;> rfl
  | expire key seconds =>
    dsimp only
    split <;> rfl

theorem along_at {times : List Nat} {time : Nat} {acts : List (Act Nat)}
    (h : ∀ a ∈ acts, a.choice = time ∧ ∀ t, times[a.thread]? = some t →
      t ≤ time ∧ time < t + 60000) {cfg : RateConfig} (hnow : cfg.shared.now ≤ time) :
    cfg.Along CounterStore.exec (fun cfg a => Started times cfg a ∧ Prompt times cfg a) acts := by
  induction acts generalizing cfg with
  | nil => trivial
  | cons a acts ih =>
    obtain ⟨hchoice, hin⟩ := h a List.mem_cons_self
    have htime : time_of cfg a = time := by
      unfold time_of
      rw [hchoice, max_eq_right hnow]
    refine ⟨⟨?_, ?_⟩, ih (fun a' ha' => h a' (List.mem_cons_of_mem _ ha')) ?_⟩
    · intro t ht
      rw [htime]
      exact (hin t ht).1
    · intro t key k ht _
      rw [htime]
      exact (hin t ht).2
    · rcases Config.step_cases CounterStore.exec cfg a with he | ⟨c, k, -, he⟩
      · rw [he]
        exact hnow
      · rw [he]
        dsimp only
        rw [exec_now, hchoice, max_eq_right hnow]

theorem mem_visits {is : List Nat} {time : Nat} {a : Act Nat}
    (h : a ∈ is.flatMap fun i => visit i time) : a.thread ∈ is ∧ a.choice = time := by
  obtain ⟨i, hi, ha⟩ := List.mem_flatMap.mp h
  rcases List.mem_pair.mp ha with rfl | rfl
  · exact ⟨hi, rfl⟩
  · exact ⟨hi, rfl⟩

end Visits

/-! ## The limit -/

section Limit

variable {settings : GatewayApiSettings} {x_api_key : String}

/-- The requests of a minute among those of 60 seconds. -/
def arrivals_of (times : List Nat) (start b : Nat) : Finset Nat :=
  (arrivals times start).filter fun i => times[i]?.map minute_bucket = some b

theorem mem_arrivals_of {times : List Nat} {start b i : Nat} :
    i ∈ arrivals_of times start b ↔
      i ∈ arrivals times start ∧ ∃ t, times[i]? = some t ∧ minute_bucket t = b := by
  unfold arrivals_of
  rw [Finset.mem_filter, Option.map_eq_some_iff]

/-- Sixty seconds lie in two minutes, the one that they start in and the next. -/
theorem minute_of_arrival {times : List Nat} {start i : Nat} (h : i ∈ arrivals times start) :
    i ∈ arrivals_of times start (minute_bucket start) ∨
      i ∈ arrivals_of times start (minute_bucket start + 1) := by
  obtain ⟨t, ht, hlow, hhigh⟩ := mem_arrivals.mp h
  have hbounds := minute_bounds t
  have hstart := minute_bounds start
  rcases (by omega : minute_bucket t = minute_bucket start ∨
      minute_bucket t = minute_bucket start + 1) with hm | hm
  · exact Or.inl (mem_arrivals_of.mpr ⟨h, t, ht, hm⟩)
  · exact Or.inr (mem_arrivals_of.mpr ⟨h, t, ht, hm⟩)

theorem both_minutes {times : List Nat} {start : Nat}
    (h : TwoMinutes times (arrivals times start)) :
    (arrivals_of times start (minute_bucket start)).Nonempty ∧
      (arrivals_of times start (minute_bucket start + 1)).Nonempty := by
  obtain ⟨i, hi, j, hj, hne⟩ := h
  have hsame : ∀ b, i ∈ arrivals_of times start b → j ∈ arrivals_of times start b → False := by
    intro b hib hjb
    apply hne
    rw [(Finset.mem_filter.mp hib).2, (Finset.mem_filter.mp hjb).2]
  rcases minute_of_arrival hi with hib | hib
  · rcases minute_of_arrival hj with hjb | hjb
    · exact (hsame _ hib hjb).elim
    · exact ⟨⟨i, hib⟩, j, hjb⟩
  · rcases minute_of_arrival hj with hjb | hjb
    · exact ⟨⟨j, hjb⟩, i, hib⟩
    · exact (hsame _ hib hjb).elim

/-- As many requests of each of the two minutes as the limit lets through. -/
theorem exists_over_limit (hlimit : 1 ≤ settings.rate_limit_requests_per_min) {times : List Nat}
    {start : Nat} (htwo : TwoMinutes times (arrivals times start))
    (hmany : settings.rate_limit_requests_per_min < (arrivals times start).card) :
    ∃ first second : Finset Nat,
      first ⊆ arrivals_of times start (minute_bucket start) ∧
      second ⊆ arrivals_of times start (minute_bucket start + 1) ∧
      (first.card : Int) ≤ settings.rate_limit_requests_per_min ∧
      (second.card : Int) ≤ settings.rate_limit_requests_per_min ∧
      settings.rate_limit_requests_per_min < first.card + second.card := by
  obtain ⟨hfirst, hsecond⟩ := both_minutes htwo
  have hpos := Finset.card_pos.mpr hfirst
  have hpos' := Finset.card_pos.mpr hsecond
  have hsub : arrivals times start ⊆ arrivals_of times start (minute_bucket start) ∪
      arrivals_of times start (minute_bucket start + 1) := by
    intro i hi
    exact Finset.mem_union.mpr (minute_of_arrival hi)
  have hsum := (Finset.card_le_card hsub).trans (Finset.card_union_le _ _)
  obtain ⟨first, hsub, hcard⟩ := Finset.exists_subset_card_eq
    (min_le_right settings.rate_limit_requests_per_min.toNat
      (arrivals_of times start (minute_bucket start)).card)
  obtain ⟨second, hsub', hcard'⟩ := Finset.exists_subset_card_eq
    (min_le_right settings.rate_limit_requests_per_min.toNat
      (arrivals_of times start (minute_bucket start + 1)).card)
  exact ⟨first, second, hsub, hsub', by omega, by omega, by omega⟩

/-- The last millisecond of a minute. -/
def last_ms (b : Nat) : Nat := 60000 * b + 59999

/-- The requests of a minute, at its end. -/
def at_the_end (is : List Nat) (b : Nat) : List (Act Nat) :=
  is.flatMap fun i => visit i (last_ms b)

theorem along_at_the_end {times : List Nat} {start b : Nat} {is : Finset Nat}
    (h : is ⊆ arrivals_of times start b) {cfg : RateConfig} (hnow : cfg.shared.now ≤ last_ms b) :
    cfg.Along CounterStore.exec (fun cfg a => Started times cfg a ∧ Prompt times cfg a)
      (at_the_end is.toList b) := by
  refine along_at ?_ hnow
  intro a ha
  obtain ⟨hthread, hchoice⟩ := mem_visits ha
  refine ⟨hchoice, ?_⟩
  intro t ht
  obtain ⟨-, u, hu, hb⟩ := mem_arrivals_of.mp (h (Finset.mem_toList.mp hthread))
  rw [ht] at hu
  cases hu
  have hbounds := minute_bounds t
  unfold last_ms
  omega

/-- A minute of which no request was counted yet, and its requests at the end. -/
theorem served_at_the_end (hkey : x_api_key = settings.gateway_api_key) {times : List Nat}
    {start b : Nat} {is : Finset Nat} (h : is ⊆ arrivals_of times start b)
    (hfit : (is.card : Int) ≤ settings.rate_limit_requests_per_min) {cfg : RateConfig}
    (hfresh : ∀ (i t : Nat), i ∈ is → times[i]? = some t →
      cfg.threads[i]? = some (verify_gateway_api_key settings x_api_key t))
    (hnow : cfg.shared.now ≤ last_ms b)
    (hnone : cfg.shared.counters (rl_key x_api_key b) = none) :
    GroupServed x_api_key cfg (cfg.run CounterStore.exec (at_the_end is.toList b)) is.toList b
      (last_ms b) := by
  refine group_served hkey is.nodup_toList (n := 0) ?_ hnow
    (Or.inl ⟨rfl, CounterStore.live_of_none hnone _⟩) (by simpa using hfit)
  intro i hi
  obtain ⟨-, t, ht, hb⟩ := mem_arrivals_of.mp (h (Finset.mem_toList.mp hi))
  exact ⟨t, hb, hfresh i t (Finset.mem_toList.mp hi) ht⟩

/-- The requests of the two minutes, each minute at its end. -/
theorem limit_overrun (hkey : x_api_key = settings.gateway_api_key)
    (hlimit : 1 ≤ settings.rate_limit_requests_per_min) {times : List Nat} {start : Nat}
    (htwo : TwoMinutes times (arrivals times start))
    (hmany : settings.rate_limit_requests_per_min < (arrivals times start).card) :
    ∃ acts, (Config.start {} (times.map (verify_gateway_api_key settings x_api_key))).Along
        CounterStore.exec (fun cfg a => Started times cfg a ∧ Prompt times cfg a) acts ∧
      ¬ Limited settings times (after_all_requests settings x_api_key times acts) := by
  obtain ⟨first, second, hfirst, hsecond, hfit, hfit', hover⟩ :=
    exists_over_limit hlimit htwo hmany
  generalize minute_bucket start = b at hfirst hsecond
  have hapart : ∀ i ∈ second, i ∉ first := by
    intro i hi hi'
    obtain ⟨-, t, ht, hb⟩ := mem_arrivals_of.mp (hsecond hi)
    obtain ⟨-, u, hu, hb'⟩ := mem_arrivals_of.mp (hfirst hi')
    rw [ht] at hu
    cases hu
    omega
  have hstart : ∀ (i t : Nat), times[i]? = some t →
      (Config.start {} (times.map (verify_gateway_api_key settings x_api_key)) :
        RateConfig).threads[i]? = some (verify_gateway_api_key settings x_api_key t) := by
    intro i t ht
    rw [Config.start, List.getElem?_map, ht, Option.map_some]
  have hone : GroupServed x_api_key
      (Config.start {} (times.map (verify_gateway_api_key settings x_api_key))) _ first.toList b
      (last_ms b) :=
    served_at_the_end hkey hfirst hfit (fun i t _ => hstart i t) (Nat.zero_le _) rfl
  have hnow : ((Config.start {} (times.map (verify_gateway_api_key settings x_api_key)) :
      RateConfig).run CounterStore.exec (at_the_end first.toList b)).shared.now ≤
        last_ms (b + 1) := by
    have hle := hone.now
    unfold last_ms at hle ⊢
    omega
  have htwo := served_at_the_end hkey hsecond hfit'
    (fun i t hi ht => by
      rw [hone.others i fun h => hapart i hi (Finset.mem_toList.mp h)]
      exact hstart i t ht)
    hnow
    (by
      have hne : rl_key x_api_key (b + 1) ≠ rl_key x_api_key b :=
        fun he => Nat.succ_ne_self b (rl_key_inj he)
      rw [hone.counters _ hne]
      rfl)
  refine ⟨at_the_end first.toList b ++ at_the_end second.toList (b + 1), ?_, ?_⟩
  · exact Config.along_append.mpr
      ⟨along_at_the_end hfirst (Nat.zero_le _), along_at_the_end hsecond hnow⟩
  · intro hlimited
    have hdone : first ∪ second ⊆ accepted times (after_all_requests settings x_api_key times
        (at_the_end first.toList b ++ at_the_end second.toList (b + 1))) start := by
      intro i hi
      unfold after_all_requests
      rw [Config.run_append]
      rcases Finset.mem_union.mp hi with hi | hi
      · refine mem_accepted.mpr ⟨(mem_arrivals_of.mp (hfirst hi)).1, .done x_api_key, ?_, rfl⟩
        rw [htwo.others i fun h => hapart i (Finset.mem_toList.mp h) hi]
        exact hone.done i (Finset.mem_toList.mpr hi)
      · refine mem_accepted.mpr ⟨(mem_arrivals_of.mp (hsecond hi)).1, .done x_api_key, ?_, rfl⟩
        exact htwo.done i (Finset.mem_toList.mpr hi)
    have hcard := Finset.card_le_card hdone
    rw [Finset.card_union_of_disjoint (Finset.disjoint_right.mpr hapart)] at hcard
    have hle := hlimited start
    omega

/-- With pauses that outlast the counters every request is accepted. -/
theorem pauses_accept_all (hkey : x_api_key = settings.gateway_api_key)
    (hlimit : 1 ≤ settings.rate_limit_requests_per_min) (times : List Nat) :
    ∃ acts, (Config.start {} (times.map (verify_gateway_api_key settings x_api_key))).Along
        CounterStore.exec (Started times) acts ∧
      ∀ start, accepted times (after_all_requests settings x_api_key times acts) start =
        arrivals times start := by
  have hpaused := paused hkey hlimit times (times.sum + 120000) (by omega) times.length le_rfl
  refine ⟨with_pauses (times.sum + 120000) times.length, along_started ?_ _, ?_⟩
  · intro a ha t ht
    obtain ⟨i, -, ha⟩ := List.mem_flatMap.mp ha
    have hchoice : a.choice = (i + 1) * (times.sum + 120000) := by
      rcases List.mem_pair.mp ha with rfl | rfl
      · rfl
      · rfl
    have hle : t ≤ times.sum := List.le_sum_of_mem (List.mem_of_getElem? ht)
    have hpause : times.sum + 120000 ≤ (i + 1) * (times.sum + 120000) :=
      Nat.le_mul_of_pos_left _ (Nat.succ_pos i)
    omega
  · intro start
    apply Finset.Subset.antisymm (Finset.filter_subset _ _)
    intro i hi
    obtain ⟨t, ht, -⟩ := mem_arrivals.mp hi
    have hlt := (List.getElem?_eq_some_iff.mp ht).1
    exact mem_accepted.mpr ⟨hi, _, hpaused.done i hlt, rfl⟩

theorem wrong_key_limited (hkey : x_api_key ≠ settings.gateway_api_key)
    (hlimit : 1 ≤ settings.rate_limit_requests_per_min) (times : List Nat) (acts : List (Act Nat)) :
    Limited settings times (after_all_requests settings x_api_key times acts) := by
  have hraised : ∀ p ∈ (after_all_requests settings x_api_key times acts).threads,
      p = .raise ⟨"HTTPException", "401: Invalid or missing X-API-Key"⟩ := by
    refine Config.run_induction CounterStore.exec (I := fun cfg => ∀ p ∈ cfg.threads,
      p = .raise ⟨"HTTPException", "401: Invalid or missing X-API-Key"⟩) ?_ ?_ acts
    · intro cfg a h
      rcases Config.step_cases CounterStore.exec cfg a with he | ⟨c, k, hthread, -⟩
      · rw [he]
        exact h
      · cases h _ (List.mem_of_getElem? hthread)
    · intro p hp
      obtain ⟨t, -, rfl⟩ := List.mem_map.mp hp
      exact verify_wrong_key hkey t
  intro start
  have hempty : accepted times (after_all_requests settings x_api_key times acts) start = ∅ := by
    rw [Finset.eq_empty_iff_forall_notMem]
    intro i hi
    obtain ⟨-, p, hp, hreturned⟩ := mem_accepted.mp hi
    rw [hraised p (List.mem_of_getElem? hp)] at hreturned
    cases hreturned
  rw [hempty, Finset.card_empty]
  omega

end Limit

/-- Whatever the order and the times of the commands, the limit holds in each 60 seconds exactly
when there are never more requests than it lets through. Where each `INCR` comes less than a
minute after its request, it holds exactly when there are not more of them in any 60 seconds
with requests of two minutes. -/
theorem rate_limit_holds_iff (settings : GatewayApiSettings) (x_api_key : String)
    (hlimit : 1 ≤ settings.rate_limit_requests_per_min) (times : List Nat) :
    ((∀ acts, (Config.start {} (times.map (verify_gateway_api_key settings x_api_key))).Along
          CounterStore.exec (Started times) acts →
        Limited settings times (after_all_requests settings x_api_key times acts)) ↔
      x_api_key ≠ settings.gateway_api_key ∨ ∀ start,
        ((arrivals times start).card : Int) ≤ settings.rate_limit_requests_per_min) ∧
    ((∀ acts, (Config.start {} (times.map (verify_gateway_api_key settings x_api_key))).Along
          CounterStore.exec (fun cfg a => Started times cfg a ∧ Prompt times cfg a) acts →
        Limited settings times (after_all_requests settings x_api_key times acts)) ↔
      x_api_key ≠ settings.gateway_api_key ∨ ∀ start, TwoMinutes times (arrivals times start) →
        ((arrivals times start).card : Int) ≤ settings.rate_limit_requests_per_min) := by
  by_cases hkey : x_api_key = settings.gateway_api_key
  · refine ⟨⟨?_, ?_⟩, ⟨?_, ?_⟩⟩
    · intro h
      obtain ⟨acts, halong, hall⟩ := pauses_accept_all hkey hlimit times
      refine Or.inr fun start => ?_
      rw [← hall start]
      exact h acts halong start
    · rintro (hne | hfew)
      · exact absurd hkey hne
      · intro acts _ start
        have hcard := accepted_card_le times (after_all_requests settings x_api_key times acts) start
        have hle := hfew start
        omega
    · intro h
      refine Or.inr fun start htwo => ?_
      by_contra hmany
      obtain ⟨acts, halong, hnot⟩ := limit_overrun hkey hlimit htwo (not_le.mp hmany)
      exact hnot (h acts halong)
    · rintro (hne | hfew)
      · exact absurd hkey hne
      · intro acts halong
        have hcounts := Config.run_keeps_along (counts_step hkey hlimit)
          (counts_start hkey hlimit times) halong
        exact limited_of_counts hcounts hfew
  · have hwrong := wrong_key_limited hkey hlimit times
    exact ⟨iff_of_true (fun acts _ => hwrong acts) (Or.inl hkey),
      iff_of_true (fun acts _ => hwrong acts) (Or.inl hkey)⟩

/-- Two requests that are a minute apart. -/
theorem a_request_each_minute_is_limited :
    (∀ start, (arrivals [0, 60000] start).card ≤ 1) ∧
      ∀ acts, (Config.start {} ([0, 60000].map (verify_gateway_api_key ⟨"key", 1⟩ "key"))).Along
          CounterStore.exec (Started [0, 60000]) acts →
        Limited ⟨"key", 1⟩ [0, 60000] (after_all_requests ⟨"key", 1⟩ "key" [0, 60000] acts) := by
  have hone : ∀ start, (arrivals [0, 60000] start).card ≤ 1 := by
    intro start
    have htimes : ∀ i ∈ arrivals [0, 60000] start, i = 0 ∧ start = 0 ∨ i = 1 ∧ 0 < start := by
      intro i hi
      obtain ⟨t, ht, hlow, hhigh⟩ := mem_arrivals.mp hi
      match i, ht with
      | 0, ht =>
        cases ht
        omega
      | 1, ht =>
        cases ht
        omega
    rw [Finset.card_le_one]
    intro i hi j hj
    have hi' := htimes i hi
    have hj' := htimes j hj
    omega
  refine ⟨hone, (rate_limit_holds_iff ⟨"key", 1⟩ "key" (by decide) [0, 60000]).1.mpr ?_⟩
  refine Or.inr fun start => ?_
  have hstart := hone start
  show ((arrivals [0, 60000] start).card : Int) ≤ 1
  omega

/-- A request in the last millisecond of a minute, and one in the next millisecond. -/
theorem two_requests_pass_a_limit_of_one :
    ¬ ∀ (settings : GatewayApiSettings) (x_api_key : String) (times : List Nat)
        (acts : List (Act Nat)), 1 ≤ settings.rate_limit_requests_per_min →
      (Config.start {} (times.map (verify_gateway_api_key settings x_api_key))).Along
        CounterStore.exec (fun cfg a => Started times cfg a ∧ Prompt times cfg a) acts →
      Limited settings times (after_all_requests settings x_api_key times acts) := by
  intro h
  have halong : (Config.start {}
      ([59999, 60000].map (verify_gateway_api_key ⟨"key", 1⟩ "key"))).Along CounterStore.exec
        (fun cfg a => Started [59999, 60000] cfg a ∧ Prompt [59999, 60000] cfg a)
        (visit 0 60000 ++ visit 1 60000) := by
    have hat : ∀ a ∈ visit 0 60000 ++ visit 1 60000, a.choice = 60000 ∧
        ∀ t, [59999, 60000][a.thread]? = some t → t ≤ 60000 ∧ 60000 < t + 60000 := by
      intro a ha
      simp only [visit, List.cons_append, List.nil_append, List.mem_cons, List.not_mem_nil,
        or_false] at ha
      rcases ha with rfl | rfl | rfl | rfl
      · exact ⟨rfl, fun t ht => by cases ht; omega⟩
      · exact ⟨rfl, fun t ht => by cases ht; omega⟩
      · exact ⟨rfl, fun t ht => by cases ht; omega⟩
      · exact ⟨rfl, fun t ht => by cases ht; omega⟩
    exact along_at hat (Nat.zero_le _)
  have hlimited := h ⟨"key", 1⟩ "key" [59999, 60000] _ (by decide) halong 59999
  revert hlimited
  decide +kernel

end trading_platform.gateway_api
