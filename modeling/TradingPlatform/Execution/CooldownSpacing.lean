-- The cooldown after a fill. One consumer takes its intents one after another,
-- and other programs run beside it. Whatever becomes of the intents and of the
-- tables, the cooldown of a symbol outlives every submission of it that
-- succeeded by `symbol_cooldown_s`, and it is read by intents of that symbol only.
import TradingPlatform.Execution.IntentOnce

open resumption
open trading_platform.shared

namespace trading_platform.execution

/-! ## The commands of the consumer -/

/-- The reports, and whatever is asked of the tables: no key of Redis is named. -/
def Cmd.keyless : Cmd → Prop
  | .redis (.xadd ..) => True
  | .redis (.xack ..) => True
  | .repo _ => True
  | .time_ms => True
  | _ => False

theorem keyless_of_reports {c : Cmd} (h : c.reports) : c.keyless := by
  cases c with
  | redis c => cases c <;> first | exact absurd h id | trivial
  | repo _ | time_ms => trivial
  | submit _ _ | post_order _ => exact absurd h id

theorem keyless_of_logs {c : Cmd} (h : c.logs) : c.keyless := by
  cases c with
  | repo _ => trivial
  | redis _ | time_ms | submit _ _ | post_order _ => exact keyless_of_reports h

theorem keyless_of_asks {c : Cmd} (h : c.asks) : c.keyless := by
  cases c with
  | repo _ => trivial
  | redis _ | submit _ _ | post_order _ | time_ms => exact absurd h id

/-- A call of Redis is answered. -/
def RedisAnswers (_ : World) (c : Cmd) (o : Choice) : Prop :=
  match c, o.fault with
  | .redis _, .before _ => False
  | .redis _, .after _ => False
  | _, _ => True

instance (w : World) (c : Cmd) (o : Choice) : Decidable (RedisAnswers w c o) := by
  unfold RedisAnswers
  split <;> infer_instance

theorem exec_redis_answers {w : World} {c : RedisCmd} {o : Choice}
    (h : RedisAnswers w (.redis c) o) :
    (w.exec (.redis c) o).1 = (w.redis.exec w.now c).1 ∧
      (w.exec (.redis c) o).2.redis = (w.redis.exec w.now c).2 := by
  unfold RedisAnswers at h
  unfold World.exec Choice.faultOf
  cases hfault : o.fault with
  | none => exact ⟨rfl, rfl⟩
  | before e | after e =>
    rw [hfault] at h
    exact absurd h id

namespace ExecutionConsumer

variable (self : ExecutionConsumer) (sha256 : String → String)

/-! ## The stream of one consumer -/

/-- The entries that the consumer takes, in their order, each with the UUID that
is drawn for it. What `_process` raises is logged. -/
def serve : List (Uuid × IntentEntry) → Py Unit
  | [] => return ()
  | (job_id, entry) :: rest => do
    (self.process sha256 job_id entry).swallow
    serve rest

/-- The key of the cooldown of a symbol. -/
def cooldown_key (symbol : String) : String := RedisKeys.symbol_cooldown self.account_id symbol

/-- The call is no write of a cooldown of the account. -/
def LeavesCooldowns (c : Cmd) : Prop := ∀ symbol, ¬ c.writes (self.cooldown_key symbol)

/-! ## Submissions and their cooldowns as a ghost automaton -/

end ExecutionConsumer

/-- Where a consumer stands between one fill and the next. -/
inductive Spacing where
  | idle
  /-- The last key that was read as absent. -/
  | clear (key : String)
  /-- A submission of the symbol succeeded, and its cooldown is not set yet. -/
  | owed (symbol : String)
  /-- Redis failed while a cooldown was owed. -/
  | lost

/-- No cooldown is owed. -/
def Spacing.Settled : Spacing → Prop
  | .owed _ => False
  | _ => True

namespace ExecutionConsumer

variable (self : ExecutionConsumer) (sha256 : String → String)

/-- A submission needs the cooldown of its symbol to be absent, and one that
succeeded needs the cooldown to be set before anything else is submitted. -/
def spacing : Protocol PyErr Cmd Ans Spacing where
  allows g c := match g, c with
    | .lost, _ => True
    | .owed symbol, .redis (.set key value nx ex) =>
      key = self.cooldown_key symbol ∧ value = "1" ∧ nx = false ∧
        ex = some self.settings.symbol_cooldown_s
    | _, .redis (.set key ..) => ∀ symbol, self.cooldown_key symbol ≠ key
    | _, .redis (.delete _) => False
    | .clear key, .submit request _ => key = self.cooldown_key request.trade_intent.symbol
    | _, .submit .. => False
    | _, _ => True
  next g c r := match g, c, r with
    | .lost, _, _ => .lost
    | .owed _, .redis (.set ..), .ok _ => .idle
    | .owed _, .redis _, .error _ => .lost
    | .owed _, .time_ms, .error _ => .lost
    | .owed symbol, _, _ => .owed symbol
    | _, .redis (.exists key), .ok false => .clear key
    | _, .submit request _, .ok response =>
      if response.success = true then .owed request.trade_intent.symbol else .idle
    | _, .submit .., .error _ => .idle
    | g, _, _ => g

section Spacing

variable {self} {α β : Type}

theorem spacing_keyless {g : Spacing} (hg : g.Settled) (c : Cmd) (h : c.keyless) :
    self.spacing.allows g c ∧ ∀ r, self.spacing.next g c r = g := by
  cases g with
  | owed _ => exact absurd hg id
  | idle | clear _ | lost =>
    cases c with
    | redis c => cases c <;> first | exact absurd h id | exact ⟨trivial, fun _ => rfl⟩
    | repo _ | time_ms => exact ⟨trivial, fun _ => rfl⟩
    | submit _ _ | post_order _ => exact absurd h id

theorem spacing_keyless_owed {symbol : String} (c : Cmd) (h : c.keyless) :
    self.spacing.allows (.owed symbol) c ∧ ∀ r, self.spacing.next (.owed symbol) c r = .lost ∨
      self.spacing.next (.owed symbol) c r = .owed symbol := by
  cases c with
  | redis c =>
    cases c with
    | xadd _ _ | xack _ _ _ =>
      refine ⟨trivial, ?_⟩
      rintro (e | a)
      · exact Or.inl rfl
      · exact Or.inr rfl
    | set _ _ _ _ | get _ | «exists» _ | delete _ | ttl _ => exact absurd h id
  | repo _ => exact ⟨trivial, fun _ => Or.inr rfl⟩
  | time_ms =>
    refine ⟨trivial, ?_⟩
    rintro (e | a)
    · exact Or.inl rfl
    · exact Or.inr rfl
  | submit _ _ | post_order _ => exact absurd h id

/-- Once a cooldown is lost, nothing more is asked of a program. -/
theorem obeys_lost (p : Py α) {Q : Except PyErr α → Spacing → Prop} (hQ : ∀ r, Q r .lost) :
    Obeys self.spacing .lost p Q :=
  obeys_of_calls (A := fun _ => True) (calls_all p fun _ => trivial)
    (fun _ _ => ⟨trivial, fun _ => rfl⟩) hQ

/-! ## While a cooldown is owed -/

/-- The part of a program that comes before the cooldown of `symbol`: it ends
with a value, or Redis failed in it. -/
def Owing (symbol : String) (r : Except PyErr α) (g : Spacing) : Prop :=
  g = .lost ∨ g = .owed symbol ∧ ∃ a, r = .ok a

theorem owing_keyless {symbol : String} {p : Py α} (h : p.Calls Cmd.keyless) :
    Obeys self.spacing (.owed symbol) p fun _ g => g = .lost ∨ g = .owed symbol := by
  induction p with
  | done a => exact Or.inr rfl
  | raise e => exact Or.inr rfl
  | call c k ih =>
    obtain ⟨hallowed, hnext⟩ := @spacing_keyless_owed self symbol c h.1
    refine ⟨hallowed, ?_⟩
    intro r
    rcases hnext r with hlost | howed
    · rw [hlost]
      exact self.obeys_lost _ fun _ => Or.inl rfl
    · rw [howed]
      exact ih r (h.2 r)

theorem owing_swallow {symbol : String} {p : Py α} (h : p.Calls Cmd.keyless) :
    Obeys self.spacing (.owed symbol) p.swallow (Owing symbol) := by
  rw [obeys_swallow]
  refine obeys_mono (self.owing_keyless h) ?_
  rintro r g (hg | hg)
  · exact Or.inl hg
  · exact Or.inr ⟨hg, (), rfl⟩

theorem owing_bind {symbol : String} {p : Py α} {f : α → Py β}
    {Q : Except PyErr β → Spacing → Prop}
    (hp : Obeys self.spacing (.owed symbol) p (Owing symbol))
    (hf : ∀ a, Obeys self.spacing (.owed symbol) (f a) Q) (hQ : ∀ r, Q r .lost) :
    Obeys self.spacing (.owed symbol) (p >>= f) Q := by
  refine obeys_bind_of hp ?_ ?_
  · rintro a g (rfl | ⟨rfl, -⟩)
    · exact self.obeys_lost _ hQ
    · exact hf a
  · rintro e g (rfl | ⟨-, a, ha⟩)
    · exact hQ _
    · cases ha

theorem owing_publish {symbol : String} (event_type job_id : String)
    (data : List (String × Json)) :
    Obeys self.spacing (.owed symbol) (ExecutionEventPublisher.publish event_type job_id data)
      (Owing symbol) := by
  unfold ExecutionEventPublisher.publish
  rw [obeys_bind]
  apply obeys_perform.mpr
  refine ⟨trivial, ?_⟩
  rintro (e | ms)
  · exact Or.inl rfl
  · show Obeys _ _ (onRedis _) _
    rw [obeys_onRedis]
    apply obeys_perform.mpr
    refine ⟨trivial, ?_⟩
    rintro (e | a)
    · exact Or.inl rfl
    · exact Or.inr ⟨rfl, a, rfl⟩

theorem owing_try_status {symbol : String} (job_id : Uuid) (status : JobStatus)
    (event_data : Option Json) (error : Option String) :
    Obeys self.spacing (.owed symbol) (self.try_status job_id status event_data error)
      (Owing symbol) := by
  unfold try_status
  split
  · exact self.owing_swallow (calls_perform trivial)
  · exact Or.inr ⟨rfl, (), rfl⟩

theorem owing_acknowledge {symbol : String} (job_id : Uuid) (response : AdapterResponse) :
    Obeys self.spacing (.owed symbol) (self.acknowledge job_id response) (Owing symbol) := by
  have hlost : ∀ r : Except PyErr Unit, Owing symbol r .lost := fun _ => Or.inl rfl
  unfold acknowledge
  apply owing_bind (self.owing_try_status ..) _ hlost
  intro _
  apply owing_bind (self.owing_publish ..) _ hlost
  intro _
  apply owing_bind (self.owing_try_status ..) _ hlost
  intro _
  exact self.owing_publish ..

theorem owing_persist_fill {symbol : String} (job_id : Uuid) (request : ExecutionRequest)
    (client_order_id : String) (response : AdapterResponse) :
    Obeys self.spacing (.owed symbol) (self.persist_fill job_id request client_order_id response)
      (Owing symbol) := by
  unfold persist_fill
  split
  · apply self.owing_swallow
    exact calls_bind (calls_perform trivial) fun _ =>
      calls_bind (calls_perform trivial) fun _ => calls_perform trivial
  · exact Or.inr ⟨rfl, (), rfl⟩

/-- After a fill, the cooldown of the symbol is set. -/
theorem spacing_on_filled (msg_id : String) (job_id : Uuid) (request : ExecutionRequest)
    (client_order_id : String) (response : AdapterResponse)
    (ha : request.account_id = self.account_id) :
    Obeys self.spacing (.owed request.trade_intent.symbol)
      (self.on_filled msg_id job_id request client_order_id response) fun _ g => g.Settled := by
  have hlost : ∀ _ : Except PyErr Unit, Spacing.Settled .lost := fun _ => trivial
  unfold on_filled
  apply owing_bind (self.owing_acknowledge ..) _ hlost
  intro _
  apply owing_bind (self.owing_persist_fill ..) _ hlost
  intro _
  apply owing_bind (self.owing_publish ..) _ hlost
  intro _
  rw [obeys_bind, obeys_onRedis]
  unfold CooldownControl.set_cooldown
  rw [obeys_bind]
  apply obeys_perform.mpr
  constructor
  · rw [ha]
    exact ⟨rfl, rfl, rfl, rfl⟩
  · rintro (e | a)
    · trivial
    · show Obeys self.spacing .idle (self.ack msg_id) _
      exact obeys_of_calls (self.ack_calls msg_id)
        (fun c h => self.spacing_keyless (g := .idle) trivial c (keyless_of_reports h)) fun _ => trivial

/-! ## While none is owed -/

theorem spacing_on_failed {g : Spacing} (hg : g.Settled)
    (msg_id job_id client_order_id reason error account_id : String) (i : Option TradeIntent) :
    Obeys self.spacing g
      (do self.on_failed job_id client_order_id reason error i account_id; self.ack msg_id)
      fun _ g' => g'.Settled := by
  have hcalls : (do self.on_failed job_id client_order_id reason error i account_id
                    self.ack msg_id : Py Unit).Calls Cmd.logs :=
    calls_bind (self.on_failed_calls ..) fun _ =>
      calls_mono (self.ack_calls msg_id) fun _ => logs_of_reports
  exact obeys_of_calls hcalls (fun c h => self.spacing_keyless hg c (keyless_of_logs h)) fun _ => hg

/-- The adapter is called once the cooldown of the symbol was read as absent. -/
theorem spacing_submit_approved (hadapter : self.adapter = some_adapter) (msg_id : String)
    (job_id : Uuid) (request : ExecutionRequest) (client_order_id : String)
    (decision : RiskDecision) (ha : request.account_id = self.account_id) :
    Obeys self.spacing (.clear (self.cooldown_key request.trade_intent.symbol))
      (self.submit_approved msg_id job_id request client_order_id decision)
      fun _ g => g.Settled := by
  have hkeyless := self.spacing_keyless
    (g := .clear (self.cooldown_key request.trade_intent.symbol)) trivial
  unfold submit_approved
  refine obeys_bind_of_calls (self.try_status_calls ..) (fun c h => hkeyless c (keyless_of_logs h))
    (fun _ => ?_) fun _ => trivial
  refine obeys_bind_of_calls (publish_calls ..) (fun c h => hkeyless c (keyless_of_reports h))
    (fun _ => ?_) fun _ => trivial
  rw [obeys_bind, obeys_attempt, hadapter]
  apply obeys_perform.mpr
  refine ⟨rfl, ?_⟩
  rintro (e | response)
  · exact self.spacing_on_failed (g := .idle) trivial ..
  · dsimp only
    by_cases hs : response.success = true
    · rw [if_neg (not_not.mpr hs)]
      have hnext : self.spacing.next (.clear (self.cooldown_key request.trade_intent.symbol))
          (.submit request client_order_id) (.ok response) = .owed request.trade_intent.symbol :=
        if_pos hs
      rw [hnext]
      exact self.spacing_on_filled msg_id job_id request client_order_id response ha
    · rw [if_pos hs]
      have hnext : self.spacing.next (.clear (self.cooldown_key request.trade_intent.symbol))
          (.submit request client_order_id) (.ok response) = .idle := if_neg hs
      rw [hnext]
      exact self.spacing_on_failed (g := .idle) trivial ..

/-- One control: what is read as absent is noted. -/
theorem spacing_read (k : String) {g : Spacing} (hg : g.Settled)
    {blocked rest : RedisPy RiskDecision} {Q : Except PyErr RiskDecision → Spacing → Prop}
    (herr : ∀ e, Q (.error e) g) (hblocked : Obeys (redisPart self.spacing) g blocked Q)
    (hrest : ∀ g', g'.Settled → g' = .lost ∨ g' = .clear k →
      Obeys (redisPart self.spacing) g' rest Q) :
    Obeys (redisPart self.spacing) g
      (redis (.exists k) >>= fun b => if b = true then blocked else rest) Q := by
  cases g with
  | owed _ => exact absurd hg id
  | lost => exact obeys_exists trivial herr hblocked (hrest .lost trivial (Or.inl rfl))
  | idle | clear _ =>
    exact obeys_exists trivial herr hblocked (hrest (.clear k) trivial (Or.inr rfl))

/-- What an evaluation that passes leaves: the cooldown was read as absent. -/
def CooldownClear (request : ExecutionRequest) (r : Except PyErr RiskDecision) (g : Spacing) :
    Prop :=
  g.Settled ∧ ∀ decision, r = .ok decision → decision.passed = true → g = .lost ∨
    g = .clear (RedisKeys.symbol_cooldown request.account_id request.trade_intent.symbol)

theorem cooldownClear_blocked {request : ExecutionRequest} {g : Spacing} (hg : g.Settled)
    (d : RiskDecision) (hd : d.passed = false) : CooldownClear request (.ok d) g := by
  refine ⟨hg, ?_⟩
  intro d' h hp
  cases h
  rw [hd] at hp
  cases hp

theorem spacing_evaluate (engine : ExecutionRiskEngine) (request : ExecutionRequest)
    (loss : Option ℚ) (positions : Option Nat) (limits : Option RiskLimits) {g : Spacing}
    (hg : g.Settled) :
    Obeys (redisPart self.spacing) g (engine.evaluate request loss positions limits)
      (CooldownClear request) := by
  have herr (g : Spacing) (hg : g.Settled) (e : PyErr) : CooldownClear request (.error e) g :=
    ⟨hg, fun _ h => nomatch h⟩
  unfold ExecutionRiskEngine.evaluate
  refine self.spacing_read _ hg (herr g hg) (cooldownClear_blocked hg _ rfl) ?_
  intro g1 hg1 _
  refine self.spacing_read _ hg1 (herr g1 hg1) (cooldownClear_blocked hg1 _ rfl) ?_
  intro g2 hg2 _
  refine self.spacing_read _ hg2 (herr g2 hg2) (cooldownClear_blocked hg2 _ rfl) ?_
  intro g3 hg3 _
  refine self.spacing_read _ hg3 (herr g3 hg3) (cooldownClear_blocked hg3 _ rfl) ?_
  intro g4 hg4 _
  refine self.spacing_read _ hg4 (herr g4 hg4) ?_ ?_
  · -- on cooldown: the TTL is read for the report only
    have hstays : (redisPart self.spacing).allows g4
          (.ttl (RedisKeys.symbol_cooldown request.account_id request.trade_intent.symbol)) ∧
        ∀ r, (redisPart self.spacing).next g4
          (.ttl (RedisKeys.symbol_cooldown request.account_id request.trade_intent.symbol)) r =
            g4 := by
      cases g4 with
      | owed _ => exact absurd hg4 id
      | idle | clear _ | lost => exact ⟨trivial, fun _ => rfl⟩
    rw [obeys_bind]
    apply obeys_perform.mpr
    refine ⟨hstays.1, ?_⟩
    intro r
    rw [hstays.2 r]
    rcases r with e | ttl
    · exact herr g4 hg4 e
    · exact cooldownClear_blocked hg4 _ rfl
  · intro g5 hg5 hread
    exact ⟨hg5, fun _ _ _ => hread⟩

theorem spacing_risk_gate (hadapter : self.adapter = some_adapter) (msg_id : String)
    (job_id : Uuid) (request : ExecutionRequest) (client_order_id : String)
    (ha : request.account_id = self.account_id) {g : Spacing} (hg : g.Settled) :
    Obeys self.spacing g (self.risk_gate msg_id job_id request client_order_id)
      fun _ g' => g'.Settled := by
  unfold risk_gate
  refine obeys_bind_of_calls (self.limits_override_calls _) (fun c h => self.spacing_keyless hg c (keyless_of_asks h))
    (fun limits => ?_) fun _ => hg
  refine obeys_bind_of_calls (self.risk_data_calls _) (fun c h => self.spacing_keyless hg c (keyless_of_asks h))
    (fun data => ?_) fun _ => hg
  obtain ⟨loss, positions⟩ := data
  dsimp only
  rw [obeys_bind, obeys_attempt, obeys_onRedis]
  refine obeys_mono (self.spacing_evaluate self.risk_engine request loss positions limits hg) ?_
  rintro (exc | decision) g' ⟨hg', hclear⟩
  · exact self.spacing_on_failed hg' ..
  · dsimp only
    split
    · have hcalls : (do self.on_blocked job_id client_order_id decision.failures decision.metadata
                        self.ack msg_id : Py Unit).Calls Cmd.logs :=
        calls_bind (self.on_blocked_calls ..) fun _ =>
          calls_mono (self.ack_calls msg_id) fun _ => logs_of_reports
      exact obeys_of_calls hcalls (fun c h => self.spacing_keyless hg' c (keyless_of_logs h))
        fun _ => hg'
    · rename_i hp
      rcases hclear decision rfl (by simpa using hp) with rfl | rfl
      · exact self.obeys_lost _ fun _ => trivial
      · rw [ha]
        exact self.spacing_submit_approved hadapter msg_id job_id request client_order_id decision
          ha

theorem cooldown_ne_job_lock (symbol client_order_id : String) :
    self.cooldown_key symbol ≠ RedisKeys.job_lock client_order_id :=
  RedisKeys.ne_of_prefix (by decide) (by decide) (by decide)

/-- The key of the lock is no cooldown, so the lock changes nothing. -/
theorem spacing_job_lock {g : Spacing} (hg : g.Settled) (client_order_id : String) (job_id : Uuid) :
    self.spacing.allows g (.redis (.set (RedisKeys.job_lock client_order_id) job_id true
        (some self.settings.job_lock_ttl_s))) ∧
      ∀ r, self.spacing.next g (.redis (.set (RedisKeys.job_lock client_order_id) job_id true
        (some self.settings.job_lock_ttl_s))) r = g := by
  cases g with
  | owed _ => exact absurd hg id
  | lost => exact ⟨trivial, fun _ => rfl⟩
  | idle | clear _ => exact ⟨fun symbol => self.cooldown_ne_job_lock symbol _, fun _ => rfl⟩

/-- `_process` keeps to the spacing, from any settled state to a settled one. -/
theorem spacing_process (hadapter : self.adapter = some_adapter) (job_id : Uuid)
    (entry : IntentEntry) {g : Spacing} (hg : g.Settled) :
    Obeys self.spacing g (self.process sha256 job_id entry) fun _ g' => g'.Settled := by
  have hreports (c : Cmd) (h : c.reports) := self.spacing_keyless hg c (keyless_of_reports h)
  obtain ⟨msg_id, field⟩ := entry
  cases field with
  | empty | malformed =>
    exact obeys_of_calls (self.ack_calls msg_id) hreports fun _ => hg
  | valid intent =>
    unfold process process_intent
    dsimp only
    rw [obeys_bind, obeys_onRedis]
    apply obeys_perform.mpr
    have hlock := self.spacing_job_lock hg (self.client_order_id sha256 intent) job_id
    refine ⟨hlock.1, ?_⟩
    intro r
    have hsame : (redisPart self.spacing).next g (.set
        (RedisKeys.job_lock (self.client_order_id sha256 intent)) job_id true
        (some self.settings.job_lock_ttl_s)) r = g := hlock.2 r
    rw [hsame]
    rcases r with e | _ | _
    · exact hg
    · -- the lock is held
      exact obeys_of_calls (calls_bind (publish_calls ..) fun _ => self.ack_calls msg_id)
        hreports fun _ => hg
    · show Obeys self.spacing g
        (self.process_locked msg_id job_id intent (self.client_order_id sha256 intent)) _
      unfold process_locked
      cases hreq : self.build_request job_id intent with
      | error e => exact hg
      | ok request =>
        obtain ⟨ha, -, -⟩ := self.build_request_fields job_id intent hreq
        have hrest : Obeys self.spacing g (do
            ExecutionEventPublisher.publish "job_queued" job_id
              [("client_order_id", .str (self.client_order_id sha256 intent)),
                ("symbol", .str intent.symbol), ("side", .str intent.side.value),
                ("intent_id", .str intent.intent_id)]
            self.risk_gate msg_id job_id request (self.client_order_id sha256 intent))
            fun _ g' => g'.Settled :=
          obeys_bind_of_calls (publish_calls ..) hreports
            (fun _ => self.spacing_risk_gate hadapter msg_id job_id request _ ha hg) fun _ => hg
        simp only [Prog.ofExcept, Prog.done_bind]
        split
        · exact obeys_bind_of_calls (calls_swallow (calls_perform trivial))
            (self.spacing_keyless hg) (fun _ => hrest) fun _ => hg
        · exact hrest

theorem spacing_serve (hadapter : self.adapter = some_adapter)
    (entries : List (Uuid × IntentEntry)) {g : Spacing} (hg : g.Settled) :
    Obeys self.spacing g (self.serve sha256 entries) fun _ g' => g'.Settled := by
  induction entries generalizing g with
  | nil => exact hg
  | cons e rest ih =>
    unfold serve
    rw [obeys_bind, obeys_swallow]
    exact obeys_mono (self.spacing_process sha256 hadapter e.1 e.2 hg) fun _ g' hg' => ih hg'

end Spacing

/-! ## What the calls keep -/

/-- The wait of the settings in ms. -/
def wait_ms : Nat := 1000 * self.settings.symbol_cooldown_s.toNat

/-- The wait that began at `since` is over, or the cooldown of the symbol is
there for no less than what is left of it. -/
def Waits (since : Nat) (symbol : String) (w : World) : Prop :=
  since + self.wait_ms ≤ w.now ∨ ∃ value t,
    w.redis.keys (self.cooldown_key symbol) = some ⟨value, some t⟩ ∧ since + self.wait_ms ≤ t

/-- What is known of a symbol whose submission succeeded at `since`. -/
def Spaced (since : Nat) (symbol : String) (w : World) (g : Spacing) : Prop :=
  since ≤ w.now ∧
    match g with
    | .idle => self.Waits since symbol w
    | .clear key =>
      self.Waits since symbol w ∧
        (key = self.cooldown_key symbol → since + self.wait_ms ≤ w.now)
    | .owed other => other = symbol ∨ self.Waits since symbol w
    | .lost => False

section Spaced

variable {self} {since : Nat} {symbol : String}

theorem waits_later {w w' : World} (h : self.Waits since symbol w)
    (hkeys : w'.redis.keys (self.cooldown_key symbol) = w.redis.keys (self.cooldown_key symbol))
    (hnow : w.now ≤ w'.now) : self.Waits since symbol w' := by
  rcases h with hover | ⟨value, t, hkey, ht⟩
  · exact Or.inl (hover.trans hnow)
  · rw [← hkeys] at hkey
    exact Or.inr ⟨value, t, hkey, ht⟩

theorem spaced_later {w w' : World} {g : Spacing} (h : self.Spaced since symbol w g)
    (hkeys : w'.redis.keys (self.cooldown_key symbol) = w.redis.keys (self.cooldown_key symbol))
    (hnow : w.now ≤ w'.now) : self.Spaced since symbol w' g := by
  obtain ⟨hsince, hg⟩ := h
  refine ⟨hsince.trans hnow, ?_⟩
  cases g with
  | idle => exact waits_later hg hkeys hnow
  | clear key => exact ⟨waits_later hg.1 hkeys hnow, fun he => (hg.2 he).trans hnow⟩
  | owed other =>
    rcases hg with he | hwaits
    · exact Or.inl he
    · exact Or.inr (waits_later hwaits hkeys hnow)
  | lost => exact hg

/-- A key that is absent when the cooldown should be there: the wait is over. -/
theorem over_of_absent {w : World} (h : self.Waits since symbol w)
    (habsent : w.redis.live w.now (self.cooldown_key symbol) = none) :
    since + self.wait_ms ≤ w.now := by
  rcases h with hover | ⟨value, t, hkey, ht⟩
  · exact hover
  · unfold Redis.live at habsent
    rw [hkey] at habsent
    by_cases hlive : w.now < t
    · simp [hlive] at habsent
    · omega

theorem exec_time_ms (w : World) (o : Choice) : (w.exec .time_ms o).1 = .ok w.now := rfl

/-- A cooldown that is owed is not lost while Redis answers. -/
theorem not_lost_step (hcooldown : 1 ≤ self.settings.symbol_cooldown_s) {w : World} {g : Spacing}
    {c : Cmd} {o : Choice} (hg : g ≠ .lost) (ha : self.spacing.allows g c)
    (hanswers : RedisAnswers w c o) : self.spacing.next g c (w.exec c o).1 ≠ .lost := by
  cases g with
  | lost => exact absurd rfl hg
  | idle | clear _ =>
    cases c with
    | redis c =>
      cases c with
      | «exists» key =>
        rcases (w.exec (.redis (.exists key)) o).1 with e | _ | _ <;> exact Spacing.noConfusion
      | set _ _ _ _ | get _ | delete _ | ttl _ | xadd _ _ | xack _ _ _ => exact hg
    | submit request client_order_id =>
      rcases (w.exec (.submit request client_order_id) o).1 with e | response
      · exact Spacing.noConfusion
      · show (if response.success = true then Spacing.owed request.trade_intent.symbol
          else Spacing.idle) ≠ .lost
        split <;> exact Spacing.noConfusion
    | repo _ | post_order _ | time_ms => exact hg
  | owed other =>
    cases c with
    | redis c =>
      rw [(exec_redis_answers hanswers).1]
      cases c with
      | set key value nx ex =>
        obtain ⟨-, -, rfl, rfl⟩ := ha
        simp only [Redis.exec, expiry, if_pos (show 0 < self.settings.symbol_cooldown_s by omega)]
        exact Spacing.noConfusion
      | get _ | «exists» _ | delete _ | ttl _ | xadd _ _ | xack _ _ _ => exact Spacing.noConfusion
    | time_ms =>
      rw [exec_time_ms]
      exact hg
    | submit _ _ => exact absurd ha id
    | repo _ | post_order _ => exact hg

/-- The cooldown that is owed is set. -/
theorem spaced_set (hcooldown : 1 ≤ self.settings.symbol_cooldown_s) {w : World}
    {other key value : String} {nx : Bool} {ex : Option Int} {o : Choice}
    (h : self.Spaced since symbol w (.owed other))
    (ha : self.spacing.allows (.owed other) (.redis (.set key value nx ex)))
    (hanswers : RedisAnswers w (.redis (.set key value nx ex)) o) :
    self.Spaced since symbol (w.exec (.redis (.set key value nx ex)) o).2
      (self.spacing.next (.owed other) (.redis (.set key value nx ex))
        (w.exec (.redis (.set key value nx ex)) o).1) := by
  obtain ⟨rfl, rfl, rfl, rfl⟩ := ha
  obtain ⟨hanswer, hafter⟩ := exec_redis_answers hanswers
  have hnow := World.now_le_exec w (.redis (.set (self.cooldown_key other) "1" false
    (some self.settings.symbol_cooldown_s))) o
  have hset : w.redis.exec w.now (.set (self.cooldown_key other) "1" false
      (some self.settings.symbol_cooldown_s)) =
      (.ok true, w.redis.put (self.cooldown_key other) ⟨"1", some (w.now + self.wait_ms)⟩) := by
    simp only [Redis.exec, expiry, if_pos (show 0 < self.settings.symbol_cooldown_s by omega)]
    rfl
  rw [hset] at hanswer hafter
  obtain ⟨hsince, hg⟩ := h
  rw [hanswer]
  refine ⟨hsince.trans hnow, ?_⟩
  show self.Waits since symbol _
  by_cases hkey : self.cooldown_key symbol = self.cooldown_key other
  · -- this is the cooldown of `symbol`, and it lasts from now on
    refine Or.inr ⟨"1", w.now + self.wait_ms, ?_, Nat.add_le_add_right hsince _⟩
    rw [hafter, Redis.put_keys, if_pos hkey]
  · rcases hg with rfl | hwaits
    · exact absurd rfl hkey
    · refine waits_later hwaits ?_ hnow
      rw [hafter, Redis.put_keys, if_neg hkey]

/-- A key is read before a submission. -/
theorem spaced_exists {w : World} {g : Spacing} {key : String} {o : Choice}
    (h : self.Spaced since symbol w g) (hg : g.Settled) :
    self.Spaced since symbol (w.exec (.redis (.exists key)) o).2
      (self.spacing.next g (.redis (.exists key)) (w.exec (.redis (.exists key)) o).1) := by
  have hlater : self.Spaced since symbol (w.exec (.redis (.exists key)) o).2 g :=
    spaced_later h (World.exec_keys _ _ _ _ id) (World.now_le_exec ..)
  cases hr : (w.exec (.redis (.exists key)) o).1 with
  | error e =>
    cases g with
    | owed _ => exact absurd hg id
    | idle | clear _ | lost => exact hlater
  | ok b =>
    cases b with
    | true =>
      cases g with
      | owed _ => exact absurd hg id
      | idle | clear _ | lost => exact hlater
    | false =>
      have habsent := World.absent_of_exists hr
      have hclear (hwaits : self.Waits since symbol w) (hafter : self.Waits since symbol
          (w.exec (.redis (.exists key)) o).2) :
          self.Spaced since symbol (w.exec (.redis (.exists key)) o).2 (.clear key) := by
        refine ⟨hlater.1, hafter, ?_⟩
        rintro rfl
        exact (over_of_absent hwaits habsent).trans (World.now_le_exec ..)
      cases g with
      | owed _ => exact absurd hg id
      | lost => exact hlater
      | idle => exact hclear h.2 hlater.2
      | clear _ => exact hclear h.2.1 hlater.2.1

theorem spaced_submit {w : World} {g : Spacing} {request : ExecutionRequest}
    {client_order_id : String} {o : Choice} (h : self.Spaced since symbol w g)
    (ha : self.spacing.allows g (.submit request client_order_id)) :
    self.Spaced since symbol (w.exec (.submit request client_order_id) o).2
      (self.spacing.next g (.submit request client_order_id)
        (w.exec (.submit request client_order_id) o).1) := by
  have hlater : self.Spaced since symbol (w.exec (.submit request client_order_id) o).2 g :=
    spaced_later h (World.exec_keys _ _ _ _ id) (World.now_le_exec ..)
  cases g with
  | lost => exact hlater
  | idle | owed _ => exact absurd ha id
  | clear key =>
    rcases (w.exec (.submit request client_order_id) o).1 with e | response
    · exact ⟨hlater.1, hlater.2.1⟩
    · show self.Spaced since symbol _ (if response.success = true then
        Spacing.owed request.trade_intent.symbol else Spacing.idle)
      split
      · exact ⟨hlater.1, Or.inr hlater.2.1⟩
      · exact ⟨hlater.1, hlater.2.1⟩

/-- What every call of the consumer keeps of a symbol that was filled. -/
theorem spaced_step (hcooldown : 1 ≤ self.settings.symbol_cooldown_s) {w : World} {g : Spacing}
    {c : Cmd} {o : Choice} (h : self.Spaced since symbol w g) (ha : self.spacing.allows g c)
    (hanswers : RedisAnswers w c o) :
    self.Spaced since symbol (w.exec c o).2 (self.spacing.next g c (w.exec c o).1) := by
  have hlater (hwrites : ¬ c.writes (self.cooldown_key symbol)) :
      self.Spaced since symbol (w.exec c o).2 g :=
    spaced_later h (World.exec_keys _ _ _ _ hwrites) (World.now_le_exec ..)
  cases g with
  | lost => exact absurd h.2 id
  | idle | clear _ =>
    cases c with
    | redis c =>
      cases c with
      | «exists» key => exact spaced_exists h trivial
      | set key value nx ex => exact hlater (ha symbol)
      | delete _ => exact absurd ha id
      | get _ | ttl _ | xadd _ _ | xack _ _ _ => exact hlater id
    | submit request client_order_id => exact spaced_submit h ha
    | repo _ | post_order _ | time_ms => exact hlater id
  | owed other =>
    cases c with
    | redis c =>
      cases c with
      | set key value nx ex => exact spaced_set hcooldown h ha hanswers
      | delete _ => exact absurd ha id
      | get _ | «exists» _ | ttl _ | xadd _ _ | xack _ _ _ =>
        rw [(exec_redis_answers hanswers).1]
        exact hlater id
    | submit _ _ => exact absurd ha id
    | repo _ | post_order _ | time_ms => exact hlater id

end Spaced

/-! ## The keys that an intent is about -/

/-- The call names no key but these. -/
def NamesOnly (keys : List String) : Cmd → Prop
  | .redis c => ∀ k, c.names k → k ∈ keys
  | _ => True

section Names

variable {keys : List String}

theorem names_of_keyless {c : Cmd} (h : c.keyless) : NamesOnly keys c := by
  cases c with
  | redis c => cases c <;> first | exact absurd h id | exact fun _ hk => absurd hk id
  | repo _ | submit _ _ | post_order _ | time_ms => trivial

theorem names_of_logs {c : Cmd} (h : c.logs) : NamesOnly keys c := names_of_keyless (keyless_of_logs h)

theorem names_of_reports {c : Cmd} (h : c.reports) : NamesOnly keys c :=
  names_of_keyless (keyless_of_reports h)

theorem names_of_asks {c : Cmd} (h : c.asks) : NamesOnly keys c :=
  names_of_keyless (keyless_of_asks h)

theorem names_of_reads {c : RedisCmd} (h : ReadsOf keys c) : NamesOnly keys (.redis c) := by
  intro k hk
  cases c with
  | «exists» _ | ttl _ =>
    obtain rfl := hk
    exact h
  | set _ _ _ _ | get _ | delete _ | xadd _ _ | xack _ _ _ => exact absurd h id

theorem NamesOnly.more {more : List String} {c : Cmd} (h : NamesOnly keys c)
    (hkeys : ∀ k ∈ keys, k ∈ more) : NamesOnly more c := by
  cases c with
  | redis c => exact fun k hk => hkeys k (h k hk)
  | repo _ | submit _ _ | post_order _ | time_ms => trivial

end Names

section Names

variable {self}

/-- The keys of an intent: the lock and the five controls. -/
def intent_keys (intent : TradeIntent) : List String :=
  RedisKeys.job_lock (self.client_order_id sha256 intent) ::
    control_keys self.account_id intent.symbol

theorem on_filled_names (msg_id : String) (job_id : Uuid) (intent : TradeIntent)
    (request : ExecutionRequest) (client_order_id : String) (response : AdapterResponse)
    (ha : request.account_id = self.account_id) (hi : request.trade_intent = intent) :
    (self.on_filled msg_id job_id request client_order_id response).Calls
      (NamesOnly (self.intent_keys sha256 intent)) := by
  unfold on_filled
  refine calls_bind (calls_mono (self.acknowledge_calls ..) fun _ => names_of_logs) fun _ => ?_
  refine calls_bind (calls_mono (self.persist_fill_calls ..) ?_) fun _ => ?_
  · rintro _ ⟨d, rfl⟩
    trivial
  refine calls_bind (calls_mono (publish_calls ..) fun _ => names_of_reports) fun _ => ?_
  refine calls_bind (calls_onRedis ?_) fun _ =>
    calls_mono (self.ack_calls msg_id) fun _ => names_of_reports
  unfold CooldownControl.set_cooldown
  refine calls_bind (calls_perform ?_) fun _ => trivial
  rintro _ rfl
  rw [ha, hi]
  simp [intent_keys, control_keys]

theorem submit_approved_names (hadapter : self.adapter = some_adapter) (msg_id : String)
    (job_id : Uuid) (intent : TradeIntent) (request : ExecutionRequest) (client_order_id : String)
    (decision : RiskDecision) (ha : request.account_id = self.account_id)
    (hi : request.trade_intent = intent) :
    (self.submit_approved msg_id job_id request client_order_id decision).Calls
      (NamesOnly (self.intent_keys sha256 intent)) := by
  have hfailed (reason error account_id : String) (i : Option TradeIntent) :
      (do self.on_failed job_id client_order_id reason error i account_id
          self.ack msg_id : Py Unit).Calls (NamesOnly (self.intent_keys sha256 intent)) :=
    calls_bind (calls_mono (self.on_failed_calls ..) fun _ => names_of_logs) fun _ =>
      calls_mono (self.ack_calls msg_id) fun _ => names_of_reports
  unfold submit_approved
  refine calls_bind (calls_mono (self.try_status_calls ..) fun _ => names_of_logs) fun _ => ?_
  refine calls_bind (calls_mono (publish_calls ..) fun _ => names_of_reports) fun _ => ?_
  rw [hadapter]
  refine calls_bind (calls_attempt (calls_perform trivial)) fun r => ?_
  rcases r with e | response
  · exact hfailed ..
  · dsimp only
    split
    · exact hfailed ..
    · exact self.on_filled_names sha256 msg_id job_id intent request client_order_id response ha hi

theorem risk_gate_names (hadapter : self.adapter = some_adapter) (msg_id : String)
    (job_id : Uuid) (intent : TradeIntent) (request : ExecutionRequest) (client_order_id : String)
    (ha : request.account_id = self.account_id) (hi : request.trade_intent = intent) :
    (self.risk_gate msg_id job_id request client_order_id).Calls
      (NamesOnly (self.intent_keys sha256 intent)) := by
  unfold risk_gate
  refine calls_bind (calls_mono (self.limits_override_calls _) fun _ => names_of_asks)
    fun limits => ?_
  refine calls_bind (calls_mono (self.risk_data_calls _) fun _ => names_of_asks) fun data => ?_
  obtain ⟨loss, positions⟩ := data
  dsimp only
  have hevaluate := evaluate_calls self.risk_engine request loss positions limits
  rw [ha, hi] at hevaluate
  refine calls_bind (calls_attempt (calls_onRedis (calls_mono hevaluate ?_))) fun r => ?_
  · intro c hc
    exact (names_of_reads hc).more fun k hk => List.mem_cons_of_mem _ hk
  rcases r with e | decision
  · exact calls_bind (calls_mono (self.on_failed_calls ..) fun _ => names_of_logs) fun _ =>
      calls_mono (self.ack_calls msg_id) fun _ => names_of_reports
  · dsimp only
    split
    · exact calls_bind (calls_mono (self.on_blocked_calls ..) fun _ => names_of_logs) fun _ =>
        calls_mono (self.ack_calls msg_id) fun _ => names_of_reports
    · exact self.submit_approved_names sha256 hadapter msg_id job_id intent request client_order_id
        decision ha hi

/-- `_process` asks Redis for nothing but the keys of its intent. -/
theorem process_names (hadapter : self.adapter = some_adapter) (job_id : Uuid) (msg_id : String)
    (intent : TradeIntent) :
    (self.process sha256 job_id ⟨msg_id, .valid intent⟩).Calls
      (NamesOnly (self.intent_keys sha256 intent)) := by
  unfold process process_intent
  dsimp only
  refine calls_bind (calls_onRedis (calls_perform ?_)) fun acquired => ?_
  · rintro _ rfl
    exact List.mem_cons_self
  split
  · exact calls_bind (calls_mono (publish_calls ..) fun _ => names_of_reports) fun _ =>
      calls_mono (self.ack_calls msg_id) fun _ => names_of_reports
  · unfold process_locked
    cases hreq : self.build_request job_id intent with
    | error e => trivial
    | ok request =>
      obtain ⟨ha, hi, -⟩ := self.build_request_fields job_id intent hreq
      have hrest := self.risk_gate_names sha256 hadapter msg_id job_id intent request
        (self.client_order_id sha256 intent) ha hi
      have hpublish := calls_bind (calls_mono (publish_calls "job_queued" job_id
        [("client_order_id", .str (self.client_order_id sha256 intent)),
          ("symbol", .str intent.symbol), ("side", .str intent.side.value),
          ("intent_id", .str intent.intent_id)]) fun _ => names_of_reports) fun _ => hrest
      simp only [Prog.ofExcept, Prog.done_bind]
      split
      · exact calls_bind (calls_swallow (calls_perform trivial)) fun _ => hpublish
      · exact hpublish

/-- The cooldown of another symbol is none of the keys of an intent. -/
theorem cooldown_key_not_mem {symbol : String} {intent : TradeIntent}
    (h : intent.symbol ≠ symbol) :
    self.cooldown_key symbol ∉ self.intent_keys sha256 intent := by
  simp only [intent_keys, control_keys, List.mem_cons, List.not_mem_nil, or_false, not_or]
  refine ⟨self.cooldown_ne_job_lock symbol _, ?_, ?_, ?_, ?_, ?_⟩
  · exact RedisKeys.ne_of_prefix (by decide) (by decide) (by decide)
  · exact RedisKeys.ne_of_prefix (by decide) (by decide) (by decide)
  · exact RedisKeys.ne_of_prefix (by decide) (by decide) (by decide)
  · exact RedisKeys.ne_of_take 2 (by decide) (by decide) (by decide)
  · intro he
    have hsymbols := RedisKeys.append_left_inj (RedisKeys.append_left_inj he)
    exact h hsymbols.symm

end Names

/-! ## The cooldown of another symbol -/

end ExecutionConsumer

/-- The worlds differ in what Redis holds under the key, at most. -/
def World.AgreesBut (key : String) (w w' : World) : Prop :=
  ∃ r, w.redis.AgreesBut key r ∧ w' = { w with redis := r }

/-- What is asked of anything but Redis does not look at Redis. -/
theorem World.exec_with_redis (w : World) (r : Redis) {c : Cmd} (o : Choice)
    (hc : ∀ d, c ≠ .redis d) :
    World.exec { w with redis := r } c o =
        ((w.exec c o).1, { (w.exec c o).2 with redis := r }) ∧
      (w.exec c o).2.redis = w.redis := by
  unfold exec
  cases c with
  | redis d => exact absurd rfl (hc d)
  | repo d =>
    cases o.faultOf (.repo d) with
    | before e => exact ⟨rfl, rfl⟩
    | none | after e =>
      simp only [effect, called]
      cases d.txn w.now w.db <;> exact ⟨rfl, rfl⟩
  | submit request client_order_id =>
    cases o.faultOf (.submit request client_order_id) <;> exact ⟨rfl, rfl⟩
  | post_order params => cases o.faultOf (.post_order params) <;> exact ⟨rfl, rfl⟩
  | time_ms => exact ⟨rfl, rfl⟩

/-- A call that does not name the key does not tell the worlds apart. -/
theorem World.exec_agrees {key : String} {w w' : World} (h : w.AgreesBut key w') {c : Cmd}
    (o : Choice) (hc : ∀ d, c = .redis d → ¬ d.names key) :
    (w.exec c o).1 = (w'.exec c o).1 ∧ (w.exec c o).2.AgreesBut key (w'.exec c o).2 := by
  obtain ⟨r, hr, rfl⟩ := h
  by_cases hredis : ∃ d, c = .redis d
  · obtain ⟨d, rfl⟩ := hredis
    obtain ⟨hanswer, hafter⟩ := Redis.exec_agrees hr w.now (hc d rfl)
    unfold exec
    cases o.faultOf (.redis d) with
    | none => exact ⟨hanswer, _, hafter, rfl⟩
    | before e => exact ⟨rfl, r, hr, rfl⟩
    | after e => exact ⟨rfl, _, hafter, rfl⟩
  · obtain ⟨hsame, hkept⟩ := World.exec_with_redis w r o (not_exists.mp hredis)
    rw [hsame]
    refine ⟨rfl, r, ?_, rfl⟩
    rw [hkept]
    exact hr

namespace ExecutionConsumer

variable (self : ExecutionConsumer) (sha256 : String → String)

/-- `_process` of an intent makes the same calls and ends the same way, whatever
is held under the cooldown of another symbol. -/
def IgnoresOtherCooldowns : Prop :=
  ∀ (job_id : Uuid) (msg_id : String) (intent : TradeIntent) (symbol : String),
    intent.symbol ≠ symbol →
    ∀ (w w' : World) (os : List Choice), w.AgreesBut (self.cooldown_key symbol) w' →
      let p := self.process sha256 job_id ⟨msg_id, .valid intent⟩
      performed World.exec .idle p w os = performed World.exec .idle p w' os ∧
        (w.run p os).1 = (w'.run p os).1

theorem ignores_other_cooldowns (hadapter : self.adapter = some_adapter) :
    self.IgnoresOtherCooldowns sha256 := by
  intro job_id msg_id intent symbol hne w w' os hagrees
  refine run_agrees (self.process_names sha256 hadapter job_id msg_id intent) ?_ os hagrees
  intro s t c o hnames hst
  apply World.exec_agrees hst
  rintro d rfl hkey
  exact self.cooldown_key_not_mem sha256 hne (hnames _ hkey)

/-! ## Trades of one symbol are spaced -/

/-- The submission that the step makes for the consumer, with its answer. -/
def submission (cfg : Config World PyErr Cmd Ans Unit) (a : Act Choice) :
    Option (ExecutionRequest × Except PyErr AdapterResponse) :=
  if a.thread = 0 then
    match cfg.threads[0]? with
    | some (Prog.call (Cmd.submit request client_order_id) _) =>
      some (request, (cfg.shared.exec (.submit request client_order_id) a.choice).1)
    | _ => none
  else none

def succeeded : Except PyErr AdapterResponse → Bool
  | .ok response => response.success
  | .error _ => false

/-- In every run, after a submission that succeeded, the next submissions of
the symbol come no sooner than the cooldown says. -/
def SpacesTrades (start : Config World PyErr Cmd Ans Unit) (acts : List (Act Choice)) : Prop :=
  ∀ (before mid after : List (Act Choice)) (a b : Act Choice),
    acts = before ++ a :: (mid ++ b :: after) →
    let filling := start.run World.exec before
    let filled := filling.step World.exec a
    let again := filled.run World.exec mid
    ∀ s ∈ submission filling a, succeeded s.2 = true →
      ∀ s' ∈ submission again b, s'.1.trade_intent.symbol = s.1.trade_intent.symbol →
        filled.shared.now + self.wait_ms ≤ again.shared.now

theorem submission_cases {cfg : Config World PyErr Cmd Ans Unit} {a : Act Choice}
    {s : ExecutionRequest × Except PyErr AdapterResponse} (h : s ∈ submission cfg a) :
    a.thread = 0 ∧ ∃ client_order_id k,
      cfg.threads[0]? = some (.call (.submit s.1 client_order_id) k) ∧
        s.2 = (cfg.shared.exec (.submit s.1 client_order_id) a.choice).1 := by
  unfold submission at h
  by_cases hthread : a.thread = 0
  · rw [if_pos hthread] at h
    split at h
    · rename_i request client_order_id k hcall
      cases h
      exact ⟨hthread, client_order_id, k, hcall, rfl⟩
    · cases h
  · rw [if_neg hthread] at h
    cases h

/-- A submission that succeeds leaves a cooldown of its symbol owed. -/
theorem spaced_filled {w : World} {g : Spacing} {request : ExecutionRequest}
    {client_order_id : String} {o : Choice} (hg : g ≠ .lost)
    (ha : self.spacing.allows g (.submit request client_order_id))
    (hs : succeeded (w.exec (.submit request client_order_id) o).1 = true) :
    self.Spaced (w.exec (.submit request client_order_id) o).2.now request.trade_intent.symbol
      (w.exec (.submit request client_order_id) o).2
      (self.spacing.next g (.submit request client_order_id)
        (w.exec (.submit request client_order_id) o).1) := by
  refine ⟨Nat.le_refl _, ?_⟩
  cases g with
  | lost => exact absurd rfl hg
  | idle | owed _ => exact absurd ha id
  | clear key =>
    rcases hr : (w.exec (.submit request client_order_id) o).1 with e | response
    · rw [hr] at hs
      cases hs
    · rw [hr] at hs
      have hsuccess : response.success = true := hs
      have hnext : self.spacing.next (.clear key) (.submit request client_order_id)
          (.ok response) = .owed request.trade_intent.symbol := if_pos hsuccess
      rw [hnext]
      exact Or.inl rfl

theorem spaces_trades (hadapter : self.adapter = some_adapter)
    (hcooldown : 1 ≤ self.settings.symbol_cooldown_s) (entries : List (Uuid × IntentEntry))
    (others : List (Py Unit)) (hothers : ∀ p ∈ others, p.Calls self.LeavesCooldowns) (w : World)
    (acts : List (Act Choice))
    (hc : (Config.start w (self.serve sha256 entries :: others)).Along World.exec
      (Config.OnThread 0 RedisAnswers) acts) :
    self.SpacesTrades (Config.start w (self.serve sha256 entries :: others)) acts := by
  rintro before mid after a b rfl filling filled again s hs hsuccess s' hs' hsymbol
  obtain ⟨hbefore, ha, hrest⟩ := Config.along_append.mp hc
  obtain ⟨hmid, -⟩ := Config.along_append.mp hrest
  have hstart : (Config.start w (self.serve sha256 entries :: others)).Guarded self.spacing
      self.LeavesCooldowns (fun _ g => g.Settled) 0 .idle := by
    constructor
    · intro p hp
      cases hp
      exact self.spacing_serve sha256 hadapter entries trivial
    · intro j p hj hp
      obtain ⟨j, rfl⟩ := Nat.exists_eq_succ_of_ne_zero hj
      exact hothers p (List.mem_of_getElem? hp)
  -- up to the submission that succeeds, no cooldown is lost
  obtain ⟨g, hguarded, hg⟩ := Config.run_guarded (I := fun _ g => g ≠ .lost)
    (fun _ _ _ _ hg hallowed hanswers => not_lost_step hcooldown hg hallowed hanswers)
    (fun _ _ _ _ hg _ => hg) hstart Spacing.noConfusion hbefore
  obtain ⟨hthread, client_order_id, k, hcall, hanswer⟩ := submission_cases hs
  obtain ⟨hallowed, hshared, hfilled⟩ :=
    Config.guarded_own World.exec hguarded hthread hcall
  rw [hanswer] at hsuccess
  have hspaced := self.spaced_filled hg hallowed hsuccess
  rw [← hshared] at hspaced
  -- from there on, its cooldown is
  obtain ⟨g', hguarded', hspaced'⟩ := Config.run_guarded
    (I := self.Spaced filled.shared.now s.1.trade_intent.symbol)
    (fun _ _ _ _ h hallowed hanswers => spaced_step hcooldown h hallowed hanswers)
    (fun w' _ c o h hc => spaced_later h (World.exec_keys w' c o _ (hc _))
      (World.now_le_exec w' c o)) hfilled hspaced hmid
  obtain ⟨hthread', client_order_id', k', hcall', -⟩ := submission_cases hs'
  obtain ⟨hallowed', -, -⟩ := Config.guarded_own World.exec hguarded' hthread' hcall'
  cases g' with
  | lost => exact absurd hspaced'.2 id
  | idle | owed _ => exact absurd hallowed' id
  | clear key =>
    obtain ⟨-, -, hover⟩ := hspaced'
    apply hover
    rw [← hsymbol]
    exact hallowed'

/-- For every stream of intents that one consumer takes one after another, with
any outcomes of the submissions and any failures of the tables: while Redis
answers and nothing else writes a cooldown of the account, a submission comes at
least `symbol_cooldown_s` after the one of its symbol that succeeded, and the
cooldown of a symbol is nothing to the intents of other symbols. -/
theorem fills_are_spaced_by_the_cooldown (hadapter : self.adapter = some_adapter)
    (hcooldown : 1 ≤ self.settings.symbol_cooldown_s) (entries : List (Uuid × IntentEntry))
    (others : List (Py Unit)) (hothers : ∀ p ∈ others, p.Calls self.LeavesCooldowns) (w : World)
    (acts : List (Act Choice))
    (hc : (Config.start w (self.serve sha256 entries :: others)).Along World.exec
      (Config.OnThread 0 RedisAnswers) acts) :
    self.SpacesTrades (Config.start w (self.serve sha256 entries :: others)) acts ∧
      self.IgnoresOtherCooldowns sha256 :=
  ⟨self.spaces_trades sha256 hadapter hcooldown entries others hothers w acts hc,
    self.ignores_other_cooldowns sha256 hadapter⟩

/-- Two intents of one symbol, one right behind the other. -/
def demo_stream : List (Uuid × IntentEntry) :=
  [("j1", ⟨"1-0", .valid demo_intent⟩),
    ("j2", ⟨"2-0", .valid { demo_intent with intent_id := "8" }⟩)]

/-- An operator pauses another symbol beside it. -/
def demo_pause : Py Unit := onRedis (KillSwitchControl.pause_symbol demo_account "ETHUSDT" 60)

/-- The first intent is filled, and 300 s pass before the second is taken. -/
def demo_wait : List (Act Choice) :=
  ⟨1, demo_filled⟩ :: List.replicate 34 ⟨0, demo_filled⟩ ++
    [⟨0, { demo_filled with dt := 300000 }⟩] ++ List.replicate 40 ⟨0, demo_filled⟩

/-- Both are submitted, the second once the cooldown of the first is over. -/
theorem a_second_fill_waits_for_the_cooldown :
    let start := Config.start demo_world [demo_consumer.serve id demo_stream, demo_pause]
    (demo_consumer.SpacesTrades start demo_wait ∧ demo_consumer.IgnoresOtherCooldowns id) ∧
      ∀ n ∈ [16, 45],
        (submission (start.run World.exec (demo_wait.take n)) ⟨0, demo_filled⟩).isSome = true := by
  refine ⟨?_, by decide +kernel⟩
  apply demo_consumer.fills_are_spaced_by_the_cooldown id rfl (by decide)
  · intro p hp
    obtain rfl := List.mem_singleton.mp hp
    refine calls_onRedis (calls_bind (calls_perform ?_) fun _ => trivial)
    intro symbol
    exact RedisKeys.ne_of_prefix (by decide) (by decide) (by decide)
  · decide +kernel

end ExecutionConsumer

end trading_platform.execution
