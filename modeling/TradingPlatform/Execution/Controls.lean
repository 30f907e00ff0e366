-- The safety controls. An intent is not submitted while one of the five keys of
-- its account and symbol is present, whatever runs beside it; and over a Redis
-- that does not change, the evaluation passes exactly when it should.
import TradingPlatform.Execution.IntentOnce

open resumption
open trading_platform.shared

namespace trading_platform.execution

/-! ## A control that is present -/

/-- The read of a control finds the key `k` present, whichever control is read. -/
def PresentAtReads (k : String) (w : World) (c : Cmd) (_ : Choice) : Prop :=
  match c with
  | .redis (.exists _) => (w.redis.live w.now k).isSome = true
  | _ => True

instance (k : String) (w : World) (c : Cmd) (o : Choice) : Decidable (PresentAtReads k w c o) := by
  unfold PresentAtReads
  split <;> infer_instance

namespace ExecutionConsumer

variable (self : ExecutionConsumer) (sha256 : String → String) (job_id : Uuid)
  (intent : TradeIntent)

/-- The control `k` was never read as absent, and the adapter was not called. -/
def NotSeenAbsent (k : String) : Gate → Prop
  | .locked seen => k ∉ seen.clear
  | .submitted => False
  | _ => True

/-- What a call does to a gate that has not come to the adapter: it stays there
or notes one more key that it read as absent. -/
theorem gate_next_cases (g : Gate) (c : Cmd) (r : Except PyErr (Ans c))
    (hc : c.isSubmit = false) (hg : g ≠ .submitted) :
    (self.gate sha256 job_id intent).next g c r = .refused ∨
      ∃ seen, (self.gate sha256 job_id intent).next g c r = .locked seen ∧
        (seen.clear = [] ∨ ∃ before, g = .locked before ∧
          (seen.clear = before.clear ∨ ∃ key, c = .redis (.exists key) ∧
            HEq r (.ok false : Except PyErr Bool) ∧ seen.clear = before.clear ++ [key])) := by
  cases g with
  | submitted => exact absurd rfl hg
  | refused =>
    apply Or.inl
    cases c with
    | redis c => cases c <;> rfl
    | repo c => cases c <;> rfl
    | submit _ _ | post_order _ | time_ms => rfl
  | start =>
    cases c with
    | redis c =>
      cases c with
      | set _ _ _ _ =>
        rcases r with e | _ | _
        · exact Or.inl rfl
        · exact Or.inl rfl
        · exact Or.inr ⟨{}, rfl, Or.inl rfl⟩
      | get _ | «exists» _ | delete _ | ttl _ | xadd _ _ | xack _ _ _ => exact Or.inl rfl
    | repo _ | submit _ _ | post_order _ | time_ms => exact Or.inl rfl
  | locked seen =>
    apply Or.inr
    have hsame : ∀ after : Seen, after.clear = seen.clear →
        (self.gate sha256 job_id intent).next (.locked seen) c r = .locked after →
        ∃ seen', (self.gate sha256 job_id intent).next (.locked seen) c r = .locked seen' ∧
          (seen'.clear = [] ∨ ∃ before, Gate.locked seen = .locked before ∧
            (seen'.clear = before.clear ∨ ∃ key, c = .redis (.exists key) ∧
              HEq r (.ok false : Except PyErr Bool) ∧ seen'.clear = before.clear ++ [key])) :=
      fun after hclear hnext => ⟨after, hnext, Or.inr ⟨seen, rfl, Or.inl hclear⟩⟩
    cases c with
    | redis c =>
      cases c with
      | «exists» key =>
        rcases r with e | _ | _
        · exact hsame seen rfl rfl
        · exact ⟨_, rfl, Or.inr ⟨seen, rfl, Or.inr ⟨key, rfl, HEq.rfl, rfl⟩⟩⟩
        · exact hsame seen rfl rfl
      | set _ _ _ _ | get _ | delete _ | ttl _ | xadd _ _ | xack _ _ _ => exact hsame seen rfl rfl
    | repo c =>
      cases c with
      | select_account _ =>
        exact hsame { seen with limits := limitsRead self.account_id r } rfl rfl
      | get_daily_realized_loss_usd _ =>
        rcases r with e | loss
        · exact hsame seen rfl rfl
        · exact hsame { seen with loss := some loss } rfl rfl
      | get_open_positions_count _ =>
        rcases r with e | n
        · exact hsame seen rfl rfl
        · exact hsame { seen with positions := some n } rfl rfl
      | _ => exact hsame seen rfl rfl
    | submit _ _ => cases hc
    | post_order _ | time_ms => exact hsame seen rfl rfl

/-- While `k` is present at each read, a call of the intent is none of the
adapter and leaves it so that `k` was not read as absent. -/
theorem notSeenAbsent_step {k : String} (hk : k ∈ control_keys self.account_id intent.symbol)
    (w : World) (g : Gate) (c : Cmd) (o : Choice) (hg : NotSeenAbsent k g)
    (ha : (self.gate sha256 job_id intent).allows g c) (hpresent : PresentAtReads k w c o) :
    c.isSubmit = false ∧
      NotSeenAbsent k ((self.gate sha256 job_id intent).next g c (w.exec c o).1) := by
  have hsubmit : c.isSubmit = false := by
    cases c with
    | submit request client_order_id =>
      cases g with
      | locked seen =>
        obtain ⟨-, -, hall, -⟩ := ha
        exact absurd (hall k hk) hg
      | start | refused | submitted => exact absurd ha id
    | redis _ | repo _ | post_order _ | time_ms => rfl
  refine ⟨hsubmit, ?_⟩
  have hnot : g ≠ .submitted := by
    rintro rfl
    exact hg
  rcases self.gate_next_cases sha256 job_id intent g c (w.exec c o).1 hsubmit hnot with
    h | ⟨seen, h, hseen⟩
  · rw [h]
    trivial
  · rw [h]
    show k ∉ seen.clear
    rcases hseen with hnil | ⟨before, rfl, hsame | ⟨key, rfl, hr, hclear⟩⟩
    · simp [hnil]
    · rw [hsame]
      exact hg
    · rw [hclear]
      intro hmem
      rcases List.mem_append.mp hmem with hmem | hmem
      · exact hg hmem
      · -- `k` was present when it was read, so it was not read as absent
        have hkey : k = key := List.mem_singleton.mp hmem
        subst hkey
        have hlive : (w.redis.live w.now k).isSome = true := hpresent
        rw [World.absent_of_exists (eq_of_heq hr)] at hlive
        cases hlive

/-- An intent whose control `k` is present at each read of a control is not
submitted, whatever the other threads do. -/
theorem not_submitted_while_present (hadapter : self.adapter = some_adapter) {k : String}
    (hk : k ∈ control_keys self.account_id intent.symbol) (w : World) (ps : List (Py Unit))
    (i : Nat) (msg_id : String)
    (hi : ps[i]? = some (self.process sha256 job_id ⟨msg_id, .valid intent⟩))
    (acts : List (Act Choice))
    (hpresent : (Config.start w ps).Along World.exec (Config.OnThread i (PresentAtReads k))
      acts) :
    ∀ e ∈ ((Config.start w ps).run World.exec acts).log i, e.call.isSubmit = false := by
  have hp : ∀ p, (Config.start w ps).threads[i]? = some p →
      Obeys (self.gate sha256 job_id intent) .start p fun _ _ => True := by
    intro p hp
    have he : p = self.process sha256 job_id ⟨msg_id, .valid intent⟩ :=
      Option.some.inj (hp.symm.trans hi)
    rw [he]
    exact self.process_keeps_to_the_gate sha256 job_id intent hadapter msg_id
  have hlog : (Config.start w ps).log i = [] := rfl
  have hrun := Config.run_keeps_thread World.exec (self.gate sha256 job_id intent)
    (J := NotSeenAbsent k) (A := fun c => c.isSubmit = false)
    (fun w g c o hg ha hc => self.notSeenAbsent_step sha256 job_id intent hk w g c o hg ha hc)
    hlog hp trivial hpresent
  exact hrun.2

end ExecutionConsumer

/-! ## The evaluation over a Redis that does not change -/

/-- What an evaluation may call, and what it has read: each control with the
answer. -/
def readings : Protocol PyErr Cmd Ans (List (String × Bool)) where
  allows _ c := match c with
    | .redis (.exists _) => True
    | .redis (.ttl _) => True
    | _ => False
  next g c r := match c, r with
    | .redis (.exists key), .ok b => g ++ [(key, b)]
    | _, _ => g

/-- A decision that goes with what was read: a control blocks it, or all five
are clear and the structural checks decide. -/
def DecidedAs (engine : ExecutionRiskEngine) (request : ExecutionRequest) (limits : RiskLimits)
    (loss : Option ℚ) (positions : Option Nat) (read : List (String × Bool))
    (d : RiskDecision) : Prop :=
  (d.passed = false ∧ d.failures ≠ [] ∧
      ∃ k ∈ control_keys request.account_id request.trade_intent.symbol, (k, true) ∈ read) ∨
    ((∀ k ∈ control_keys request.account_id request.trade_intent.symbol, (k, false) ∈ read) ∧
      ∃ checks, (∀ c ∈ checks, c.2 = true) ∧
        d = engine.sync_decision request limits loss positions checks)

section Evaluate

variable (engine : ExecutionRiskEngine) (request : ExecutionRequest) (loss : Option ℚ)
  (positions : Option Nat) (limits_override : Option RiskLimits)

/-- One control: a key read as present blocks, and one read as absent is noted. -/
theorem readings_read {k : String} {g : List (String × Bool)} {blocked rest : RedisPy RiskDecision}
    {Q : Except PyErr RiskDecision → List (String × Bool) → Prop}
    (herr : ∀ e g, Q (.error e) g)
    (hblocked : Obeys (redisPart readings) (g ++ [(k, true)]) blocked Q)
    (hrest : Obeys (redisPart readings) (g ++ [(k, false)]) rest Q) :
    Obeys (redisPart readings) g
      (redis (.exists k) >>= fun b => if b = true then blocked else rest) Q :=
  obeys_exists trivial (fun e => herr e g) hblocked hrest

theorem evaluate_reads :
    Obeys readings [] (onRedis (engine.evaluate request loss positions limits_override))
      fun r read => ∀ d, r = .ok d →
        DecidedAs engine request (limits_override.getD engine.limits) loss positions read d := by
  rw [obeys_onRedis]
  unfold ExecutionRiskEngine.evaluate
  have hblocked (k : String)
      (hk : k ∈ control_keys request.account_id request.trade_intent.symbol)
      (g : List (String × Bool)) (hmem : (k, true) ∈ g) (d : RiskDecision)
      (hd : d.passed = false) (hf : d.failures ≠ []) (d' : RiskDecision)
      (h : (Except.ok d : Except PyErr RiskDecision) = .ok d') :
      DecidedAs engine request (limits_override.getD engine.limits) loss positions g d' := by
    cases h
    exact Or.inl ⟨hd, hf, k, hk, hmem⟩
  apply readings_read (fun e g d h => nomatch h)
  · exact hblocked (RedisKeys.kill_switch request.account_id)
      (by simp [control_keys]) _ (by simp) _ rfl (by simp)
  apply readings_read (fun e g d h => nomatch h)
  · exact hblocked (RedisKeys.user_pause request.account_id)
      (by simp [control_keys]) _ (by simp) _ rfl (by simp)
  apply readings_read (fun e g d h => nomatch h)
  · exact hblocked (RedisKeys.symbol_pause request.account_id
      request.trade_intent.symbol)
      (by simp [control_keys]) _ (by simp) _ rfl (by simp)
  apply readings_read (fun e g d h => nomatch h)
  · exact hblocked (RedisKeys.circuit_breaker request.account_id)
      (by simp [control_keys]) _ (by simp) _ rfl (by simp)
  apply readings_read (fun e g d h => nomatch h)
  · -- on cooldown: the TTL is read for the report only
    rw [obeys_bind]
    apply obeys_perform.mpr
    refine ⟨trivial, ?_⟩
    rintro (e | ttl)
    · intro d h
      cases h
    · exact hblocked (RedisKeys.symbol_cooldown request.account_id request.trade_intent.symbol)
        (by simp [control_keys]) _ (by simp [redisPart, readings]) _ rfl (by simp)
  · intro d h
    cases h
    apply Or.inr
    refine ⟨?_, _, ?_, rfl⟩
    · intro k hk
      simp only [control_keys, List.mem_cons, List.not_mem_nil, or_false] at hk
      rcases hk with rfl | rfl | rfl | rfl | rfl <;> simp
    · simp

/-- What was read was so at some time of the evaluation. -/
def ReadSince (w0 w : World) (read : List (String × Bool)) : Prop :=
  w.redis = w0.redis ∧ w0.now ≤ w.now ∧
    ∀ k b, (k, b) ∈ read → ∃ t, w0.now ≤ t ∧ t ≤ w.now ∧ (w0.redis.live t k).isSome = b

theorem readSince_step {w0 w : World} {read : List (String × Bool)} {c : Cmd} {o : Choice}
    (h : ReadSince w0 w read) (ha : readings.allows read c) :
    ReadSince w0 (w.exec c o).2 (readings.next read c (w.exec c o).1) := by
  obtain ⟨hredis, hnow, hread⟩ := h
  have hle := World.now_le_exec w c o
  have hold : ∀ k b, (k, b) ∈ read →
      ∃ t, w0.now ≤ t ∧ t ≤ (w.exec c o).2.now ∧ (w0.redis.live t k).isSome = b := by
    intro k b hmem
    obtain ⟨t, h1, h2, h3⟩ := hread k b hmem
    exact ⟨t, h1, h2.trans hle, h3⟩
  cases c with
  | redis c =>
    cases c with
    | «exists» key =>
      have hfixed : (w.exec (.redis (.exists key)) o).2.redis = w.redis := by
        unfold World.exec
        cases o.faultOf (.redis (.exists key)) <;> rfl
      refine ⟨hfixed.trans hredis, hnow.trans hle, ?_⟩
      intro k b hmem
      cases hr : (w.exec (.redis (.exists key)) o).1 with
      | error e =>
        rw [hr] at hmem
        exact hold k b hmem
      | ok b' =>
        rw [hr] at hmem
        rcases List.mem_append.mp hmem with hmem | hmem
        · exact hold k b hmem
        · cases List.mem_singleton.mp hmem
          refine ⟨w.now, hnow, hle, ?_⟩
          unfold World.exec at hr
          split at hr
          · rw [← hredis]
            simpa [World.effect, World.called, Redis.exec] using hr
          · cases hr
          · cases hr
    | ttl key =>
      have hfixed : (w.exec (.redis (.ttl key)) o).2.redis = w.redis := by
        unfold World.exec
        cases o.faultOf (.redis (.ttl key)) <;> rfl
      refine ⟨hfixed.trans hredis, hnow.trans hle, ?_⟩
      intro k b hmem
      exact hold k b hmem
    | set _ _ _ _ | get _ | delete _ | xadd _ _ | xack _ _ _ => exact absurd ha id
  | repo _ | submit _ _ | post_order _ | time_ms => exact absurd ha id

/-- The evaluation ran while no control of the account and the symbol came or
went. -/
def Unchanged (w : World) (os : List Choice) : Prop :=
  ∀ k ∈ control_keys request.account_id request.trade_intent.symbol, ∀ t, w.now ≤ t →
    t ≤ (w.run (onRedis (engine.evaluate request loss positions limits_override)) os).2.1.now →
    (w.redis.live t k).isSome = (w.redis.live w.now k).isSome

/-- What a decision says when the controls did not change meanwhile. -/
theorem decision_over_unchanged {w : World} {os : List Choice} {d : RiskDecision}
    (hsame : Unchanged engine request loss positions limits_override w os)
    (hd : (w.run (onRedis (engine.evaluate request loss positions limits_override)) os).1 =
      .ok d) :
    (d.passed = true ↔
      (∀ k ∈ control_keys request.account_id request.trade_intent.symbol,
        w.redis.live w.now k = none) ∧
      ∀ r ∈ engine.sync_results request (limits_override.getD engine.limits) loss positions,
        r.passed = true) ∧
    (d.failures = [] ↔ d.passed = true) ∧
    ((∃ c ∈ d.checks, c.2 = false) → d.passed = false) := by
  have hrun := run_keeps World.exec .idle (I := ReadSince w)
    (fun w' read c o h ha => readSince_step h ha) w os
    (evaluate_reads engine request loss positions limits_override)
    ⟨rfl, Nat.le_refl _, fun k b h => absurd h List.not_mem_nil⟩
  obtain ⟨read, ⟨-, -, hread⟩, hdecided⟩ := hrun
  have hvalue : ∀ k ∈ control_keys request.account_id request.trade_intent.symbol, ∀ b,
      (k, b) ∈ read → (w.redis.live w.now k).isSome = b := by
    intro k hk b hmem
    obtain ⟨t, h1, h2, h3⟩ := hread k b hmem
    rw [← hsame k hk t h1 h2]
    exact h3
  rcases hdecided d hd with ⟨hp, hf, k, hk, hmem⟩ | ⟨hall, checks, hchecks, rfl⟩
  · have hlive := hvalue k hk true hmem
    refine ⟨?_, ?_, fun _ => hp⟩
    · rw [hp]
      constructor
      · intro h
        cases h
      · rintro ⟨hclear, -⟩
        rw [hclear k hk] at hlive
        cases hlive
    · rw [hp]
      simpa using hf
  · have hclear : ∀ k ∈ control_keys request.account_id request.trade_intent.symbol,
        w.redis.live w.now k = none := by
      intro k hk
      have hnone := hvalue k hk false (hall k hk)
      simpa using hnone
    have hpassed := engine.sync_decision_passed request (limits_override.getD engine.limits) loss
      positions checks
    refine ⟨?_, ?_, ?_⟩
    · rw [hpassed]
      exact (and_iff_right hclear).symm
    · simp [ExecutionRiskEngine.sync_decision]
    · rintro ⟨c, hc, hfalse⟩
      by_contra hnot
      have hpass := hpassed.mp (by simpa using hnot)
      rcases List.mem_append.mp hc with hc | hc
      · rw [hchecks c hc] at hfalse
        cases hfalse
      · obtain ⟨r, hr, rfl⟩ := List.mem_map.mp hc
        rw [hpass r hr] at hfalse
        cases hfalse

end Evaluate

/-- No call of the run fails. -/
def Unfailing (os : List Choice) : Prop := ∀ o ∈ os, o.fault = .none

/-- A program of Redis reads that gives a value when no read fails. -/
def Answers {α : Type} (p : RedisPy α) : Prop :=
  ∀ (w : World) (os : List Choice), Unfailing os → ∃ a, (w.run (onRedis p) os).1 = .ok a

/-- A read that does not fail answers, and leaves the rest of the choices. -/
theorem run_read {c : RedisCmd} (hc : (∃ k, c = .exists k) ∨ ∃ k, c = .ttl k) (w : World)
    {os : List Choice} (hos : Unfailing os) :
    ∃ v w', w.run (onRedis (redis c)) os = (.ok v, w', os.tail) := by
  have hhead : (os.headD Choice.idle).fault = .none := by
    cases os with
    | nil => rfl
    | cons o os => exact hos o List.mem_cons_self
  have hrun : w.run (onRedis (redis c)) os =
      ((w.exec (.redis c) (os.headD Choice.idle)).1, (w.exec (.redis c) (os.headD Choice.idle)).2,
        os.tail) := by
    show resumption.run World.exec .idle (.call (.redis c) _) w os = _
    rw [run_call]
    cases (w.exec (.redis c) (os.headD Choice.idle)).1 <;> rfl
  rw [hrun]
  unfold World.exec
  rcases hc with ⟨k, rfl⟩ | ⟨k, rfl⟩
  · simp only [Choice.faultOf, hhead]
    exact ⟨_, _, rfl⟩
  · simp only [Choice.faultOf, hhead]
    exact ⟨_, _, rfl⟩

theorem answers_bind {α : Type} {c : RedisCmd} {f : c.Ans → RedisPy α}
    (hc : (∃ k, c = .exists k) ∨ ∃ k, c = .ttl k) (hf : ∀ v, Answers (f v)) :
    Answers (redis c >>= f) := by
  intro w os hos
  obtain ⟨v, w', hread⟩ := run_read hc w hos
  rw [onRedis_bind, World.run, run_bind, ← World.run, hread]
  exact hf v w' os.tail fun o ho => hos o (List.mem_of_mem_tail ho)

theorem answers_control {k : String} {blocked rest : RedisPy RiskDecision}
    (hblocked : Answers blocked) (hrest : Answers rest) :
    Answers (redis (.exists k) >>= fun b => if b = true then blocked else rest) := by
  apply answers_bind (Or.inl ⟨k, rfl⟩)
  intro b
  split
  · exact hblocked
  · exact hrest

/-- The evaluation returns a decision when no read of it fails. -/
theorem evaluate_answers (engine : ExecutionRiskEngine) (request : ExecutionRequest)
    (loss : Option ℚ) (positions : Option Nat) (limits_override : Option RiskLimits) :
    Answers (engine.evaluate request loss positions limits_override) := by
  have hvalue (d : RiskDecision) : Answers (.done d) := fun w os _ => ⟨d, rfl⟩
  unfold ExecutionRiskEngine.evaluate
  apply answers_control (hvalue _)
  apply answers_control (hvalue _)
  apply answers_control (hvalue _)
  apply answers_control (hvalue _)
  apply answers_control _ (hvalue _)
  -- the TTL is read for the report
  exact answers_bind (Or.inr ⟨_, rfl⟩) fun ttl => hvalue _

/-! ## The controls block -/

/-- A control of its account and symbol that is present at each read keeps an
intent from the adapter, whatever runs beside it. Over controls that do not
change, the evaluation gives a decision unless a read fails, it passes exactly
when none of the five keys is present and every structural check passes, it
has failures exactly when it does not pass, and a false check only then. -/
theorem controls_always_block (consumer : ExecutionConsumer) (sha256 : String → String)
    (hadapter : consumer.adapter = some_adapter) :
    (∀ (job_id : Uuid) (intent : TradeIntent) (msg_id : String) (w : World) (ps : List (Py Unit))
        (i : Nat),
      ps[i]? = some (consumer.process sha256 job_id ⟨msg_id, .valid intent⟩) →
      ∀ k ∈ control_keys consumer.account_id intent.symbol, ∀ acts : List (Act Choice),
        (Config.start w ps).Along World.exec (Config.OnThread i (PresentAtReads k)) acts →
        ∀ e ∈ ((Config.start w ps).run World.exec acts).log i, e.call.isSubmit = false) ∧
    ∀ (engine : ExecutionRiskEngine) (request : ExecutionRequest) (loss : Option ℚ)
        (positions : Option Nat) (limits_override : Option RiskLimits) (w : World)
        (os : List Choice),
      (Unfailing os → ∃ d,
        (w.run (onRedis (engine.evaluate request loss positions limits_override)) os).1 = .ok d) ∧
      (Unchanged engine request loss positions limits_override w os → ∀ d,
        (w.run (onRedis (engine.evaluate request loss positions limits_override)) os).1 = .ok d →
        (d.passed = true ↔
          (∀ k ∈ control_keys request.account_id request.trade_intent.symbol,
            w.redis.live w.now k = none) ∧
          ∀ r ∈ engine.sync_results request (limits_override.getD engine.limits) loss positions,
            r.passed = true) ∧
        (d.failures = [] ↔ d.passed = true) ∧
        ((∃ c ∈ d.checks, c.2 = false) → d.passed = false)) := by
  constructor
  · intro job_id intent msg_id w ps i hi k hk acts hpresent
    exact consumer.not_submitted_while_present sha256 job_id intent hadapter hk w ps i msg_id hi
      acts hpresent
  · intro engine request loss positions limits_override w os
    constructor
    · intro hos
      exact evaluate_answers engine request loss positions limits_override w os hos
    · intro hsame d hd
      exact decision_over_unchanged engine request loss positions limits_override hsame hd

/-- A request of the demo intent. -/
def demo_request : ExecutionRequest where
  job_id := "j1"
  trade_intent := demo_intent
  user_id := "u"
  account_id := demo_account
  trading_mode := .paper
  approval_level := .l2_paper

/-- The kill switch of the account is on while its intent is handled and an
operator pauses and resumes a symbol: the adapter is not called. Over the empty
Redis, a decision passes when the structural checks do. -/
theorem a_kill_switch_blocks :
    (let w := demo_world.after (onRedis (KillSwitchControl.activate demo_account 3600))
      let operator : Py Unit := onRedis (do
        KillSwitchControl.pause_symbol demo_account "BTCUSDT" 60
        KillSwitchControl.resume_symbol demo_account "BTCUSDT")
      let threads := [demo_consumer.process id "j1" ⟨"1-0", .valid demo_intent⟩, operator]
      let acts : List (Act Choice) := List.replicate 2 ⟨1, demo_filled⟩ ++
        List.replicate 30 ⟨0, demo_filled⟩
      ∀ e ∈ ((Config.start w threads).run World.exec acts).log 0, e.call.isSubmit = false) ∧
    ∀ d, (World.empty.run (onRedis (ExecutionRiskEngine.evaluate {} demo_request none none none))
        []).1 = .ok d → (d.failures = [] ↔ d.passed = true) := by
  have hblock := controls_always_block demo_consumer id rfl
  constructor
  · exact hblock.1 "j1" demo_intent "1-0" _ _ 0 rfl (RedisKeys.kill_switch demo_account)
      List.mem_cons_self _ (by decide +kernel)
  · intro d hd
    exact ((hblock.2 {} demo_request none none none World.empty []).2
      (fun k _ t _ _ => rfl) d hd).2.1

end trading_platform.execution
