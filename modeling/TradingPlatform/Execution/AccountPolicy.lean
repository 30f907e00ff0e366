-- The stored policy of an account and the gate that decides. The consumer of
-- `main.py` loads the account context, but only the limits of it reach the
-- risk engine, which has a policy of its own: paper only, every symbol, no
-- approval level. The cooldown is the one of the settings.
import TradingPlatform.Execution.IntentOnce

open resumption
open trading_platform.shared

namespace trading_platform.execution

/-! ## What a call leaves alone -/

/-- The time, the keys and the submissions are as they were. -/
structure Quiet (w0 w : World) : Prop where
  now : w.now = w0.now
  keys : w.redis.keys = w0.redis.keys
  submits : w.submits = w0.submits

/-- So are the tables that the gate reads. -/
structure Untouched (w0 w : World) : Prop extends Quiet w0 w where
  accounts : w.db.accounts = w0.db.accounts
  approvals : w.db.approvals = w0.db.approvals
  policies : w.db.policies = w0.db.policies
  credentials : w.db.credentials = w0.db.credentials
  fills : w.db.fills = w0.db.fills
  positions : w.db.positions = w0.db.positions

theorem Untouched.refl (w : World) : Untouched w w :=
  ⟨⟨rfl, rfl, rfl⟩, rfl, rfl, rfl, rfl, rfl, rfl⟩

theorem Untouched.trans {w0 w1 w2 : World} (h : Untouched w0 w1) (h' : Untouched w1 w2) :
    Untouched w0 w2 :=
  ⟨⟨h'.now.trans h.now, h'.keys.trans h.keys, h'.submits.trans h.submits⟩,
    h'.accounts.trans h.accounts, h'.approvals.trans h.approvals, h'.policies.trans h.policies,
    h'.credentials.trans h.credentials, h'.fills.trans h.fills, h'.positions.trans h.positions⟩

/-- Commands that neither write a key nor call the adapter. -/
def Cmd.quiet (c : Cmd) : Prop := (∀ k, ¬ c.writes k) ∧ c.isSubmit = false

theorem quiet_step {w0 w : World} {c : Cmd} {o : Choice} (hc : c.quiet) (hdt : o.dt = 0)
    (h : Quiet w0 w) : Quiet w0 (w.exec c o).2 := by
  refine ⟨?_, ?_, ?_⟩
  · rw [World.exec_now, hdt, Nat.add_zero, h.now]
  · funext k
    rw [World.exec_keys w c o k (hc.1 k), h.keys]
  · rw [World.exec_submits_of_ne, h.submits]
    rintro request client_order_id rfl
    cases hc.2

/-- Reports, status writes and a new job. -/
def Cmd.jots : Cmd → Prop
  | .repo (.create_job ..) => True
  | c => c.logs

theorem quiet_of_jots {c : Cmd} (h : c.jots) : c.quiet := by
  cases c with
  | redis c => cases c <;> first | exact absurd h id | exact ⟨fun _ => id, rfl⟩
  | repo c => exact ⟨fun _ => id, rfl⟩
  | submit _ _ => exact absurd h id
  | post_order _ => exact absurd h id
  | time_ms => exact ⟨fun _ => id, rfl⟩

theorem untouched_step {w0 w : World} {c : Cmd} {o : Choice} (hc : c.jots) (hdt : o.dt = 0)
    (h : Untouched w0 w) : Untouched w0 (w.exec c o).2 := by
  have hq := quiet_step (quiet_of_jots hc) hdt h.toQuiet
  have hdb : ∀ db, (w.exec c o).2.db = db → db.accounts = w.db.accounts →
      db.approvals = w.db.approvals → db.policies = w.db.policies →
      db.credentials = w.db.credentials → db.fills = w.db.fills →
      db.positions = w.db.positions → Untouched w0 (w.exec c o).2 := by
    rintro _ rfl h1 h2 h3 h4 h5 h6
    exact ⟨hq, h1.trans h.accounts, h2.trans h.approvals, h3.trans h.policies,
      h4.trans h.credentials, h5.trans h.fills, h6.trans h.positions⟩
  cases c with
  | repo c =>
    rcases World.exec_repo w c o with ⟨hd, -⟩ | ⟨a, db, htxn, hd, -⟩
    · exact hdb _ hd rfl rfl rfl rfl rfl rfl
    · cases c with
      | create_job job_id request client_order_id =>
        simp only [RepoCmd.txn, create_job] at htxn
        split at htxn
        · cases htxn
        · split_ifs at htxn
          cases htxn
          exact hdb _ hd rfl rfl rfl rfl rfl rfl
      | update_job_status job_id status data result error =>
        simp only [RepoCmd.txn, update_job_status] at htxn
        split at htxn
        · cases htxn
          exact hdb _ hd rfl rfl rfl rfl rfl rfl
        · cases htxn
          exact hdb _ hd rfl rfl rfl rfl rfl rfl
      | insert_incident incident =>
        cases htxn
        exact hdb _ hd rfl rfl rfl rfl rfl rfl
      | _ => exact absurd hc id
  | redis _ | submit _ _ | post_order _ | time_ms =>
    exact hdb _ (World.exec_db w _ o (by simp)) rfl rfl rfl rfl rfl rfl

/-! ## One delivery -/

/-- The environment of one delivery: nothing fails but the load of the account
context, which may, and the adapter replies. -/
def policy_env (load : Option PyErr) (reply : AdapterResponse) : Cmd → Choice
  | .repo (.select_account _) => { fault := match load with
    | some e => .before e
    | none => .none }
  | .submit .. => { reply }
  | _ => {}

theorem policy_env_dt (load : Option PyErr) (reply : AdapterResponse) (c : Cmd) :
    (policy_env load reply c).dt = 0 := by
  unfold policy_env
  split <;> rfl

section Delivery

variable (load : Option PyErr) (reply : AdapterResponse)

/-- The program runs alone in this environment, and ends in `Q`. -/
abbrev Ends {α : Type} (w : World) (p : Py α) (Q : Except PyErr α → World → Prop) : Prop :=
  resumption.Alone (World.answer (policy_env load reply)) () w p Q

variable {load reply} {w : World}

theorem ends_of_jots {α : Type} {p : Py α} {Q : Except PyErr α → World → Prop}
    (hp : p.Calls Cmd.jots) (hQ : ∀ r w', Untouched w w' → Q r w') : Ends load reply w p Q :=
  alone_of_calls hp (fun _ c _ hc h => untouched_step hc (policy_env_dt load reply c) h)
    (Untouched.refl w) hQ

theorem jots_of_logs {c : Cmd} (h : c.logs) : c.jots := by
  unfold Cmd.jots
  split
  · trivial
  · exact h

theorem jots_of_reports {c : Cmd} (h : c.reports) : c.jots := jots_of_logs (logs_of_reports h)

/-- An event is published, and the program goes on. -/
theorem ends_publish {event_type job_id : String} {data : List (String × Json)} {β : Type}
    {f : Unit → Py β} {Q : Except PyErr β → World → Prop}
    (h : ∀ w', Untouched w w' → Ends load reply w' (f ()) Q) :
    Ends load reply w (ExecutionEventPublisher.publish event_type job_id data >>= f) Q :=
  h _ ⟨⟨rfl, rfl, rfl⟩, rfl, rfl, rfl, rfl, rfl, rfl⟩

/-- A swallowed program of such calls, and what follows it. -/
theorem ends_swallow {p : Py Unit} {β : Type} {f : Unit → Py β}
    {Q : Except PyErr β → World → Prop} (hp : p.Calls Cmd.jots)
    (h : ∀ w', Untouched w w' → Ends load reply w' (f ()) Q) :
    Ends load reply w (p.swallow >>= f) Q := by
  rw [Ends, alone_bind, alone_swallow]
  exact ends_of_jots hp fun r w' hw => h w' hw

/-- One control that is read. -/
theorem ends_read {key : String} {blocked rest : RedisPy RiskDecision}
    {Q : Except PyErr RiskDecision → World → Prop}
    (hblocked : (w.redis.live w.now key).isSome = true → Ends load reply w (onRedis blocked) Q)
    (hrest : w.redis.live w.now key = none → Ends load reply w (onRedis rest) Q) :
    Ends load reply w
      (onRedis (redis (.exists key) >>= fun b => if b = true then blocked else rest)) Q := by
  show Ends load reply w (onRedis (if (w.redis.live w.now key).isSome = true then blocked
    else rest)) Q
  cases hl : w.redis.live w.now key with
  | none => exact hrest hl
  | some v =>
    apply hblocked
    rw [hl]
    rfl

end Delivery

/-! ## What the gate reads -/

/-- The daily loss of an account, as the gate reads it. -/
def daily_loss (w : World) (account_id : String) : ℚ :=
  match get_daily_realized_loss_usd w.now account_id w.db with
  | .ok r => r.1
  | .error _ => 0

def open_positions (w : World) (account_id : String) : Nat :=
  match get_open_positions_count account_id w.db with
  | .ok r => r.1
  | .error _ => 0

/-- The rows of an account. -/
def account_rows (w : World) (account_id : String) : Option AccountRows :=
  match UUID account_id with
  | .error _ => none
  | .ok account =>
    match select_account account w.db with
    | .ok r => r.1
    | .error _ => none

/-- The limits that the context gives to the engine, if it gives any. -/
def limits_loaded (load : Option PyErr) (w : World) (account_id : String) : Option RiskLimits :=
  match load with
  | some _ => none
  | none => limitsRead account_id (.ok (account_rows w account_id))

theorem daily_loss_congr {w w' : World} (h : Untouched w w') (account_id : String) :
    daily_loss w' account_id = daily_loss w account_id := by
  unfold daily_loss get_daily_realized_loss_usd
  rw [h.now, h.fills]
  cases UUID account_id <;> rfl

theorem open_positions_congr {w w' : World} (h : Untouched w w') (account_id : String) :
    open_positions w' account_id = open_positions w account_id := by
  unfold open_positions get_open_positions_count
  rw [h.positions]
  cases UUID account_id <;> rfl

theorem account_rows_congr {w w' : World} (h : Untouched w w') (account_id : String) :
    account_rows w' account_id = account_rows w account_id := by
  unfold account_rows select_account
  rw [h.accounts, h.approvals, h.policies, h.credentials]

theorem limits_loaded_congr {w w' : World} (h : Untouched w w') (load : Option PyErr)
    (account_id : String) : limits_loaded load w' account_id = limits_loaded load w account_id := by
  unfold limits_loaded
  rw [account_rows_congr h]

section Reads

variable {load : Option PyErr} {reply : AdapterResponse} {w : World}

theorem ends_limits_override (self : ExecutionConsumer) (hloader : self.context_loader = true)
    (account_id : String) :
    Ends load reply w (self.limits_override account_id) fun r w' =>
      r = .ok (limits_loaded load w account_id) ∧ w' = w := by
  unfold ExecutionConsumer.limits_override
  rw [if_pos hloader, Ends, alone_bind, alone_attempt]
  unfold AccountContextLoader.load limits_loaded account_rows
  cases UUID account_id with
  | error e => cases load <;> exact ⟨rfl, rfl⟩
  | ok account =>
    dsimp only
    rw [alone_bind]
    unfold repo
    rw [alone_perform]
    cases load with
    | some e => exact ⟨rfl, rfl⟩
    | none =>
      have hexec : World.answer (policy_env none reply) w (.repo (.select_account account)) () =
          (.ok (((w.db.accounts.find? (·.id = account)).map fun row => {
            account := row
            approval := w.db.approvals.find? (·.account_id = account)
            policy := w.db.policies.find? (·.account_id = account)
            has_credentials := w.db.credentials.any (·.account_id = account) })), w) := rfl
      rw [hexec]
      unfold select_account
      dsimp only
      cases w.db.accounts.find? (·.id = account) with
      | none => exact ⟨rfl, rfl⟩
      | some row =>
        simp only [Option.map_some, limitsRead]
        cases context_of account_id _ <;> exact ⟨rfl, rfl⟩

theorem ends_risk_data (self : ExecutionConsumer) (hrepo : self.repository = true)
    (account_id : String) :
    Ends load reply w (self.risk_data account_id) fun r w' =>
      r = .ok (some (daily_loss w account_id), some (open_positions w account_id)) ∧ w' = w := by
  have hloss : World.answer (policy_env load reply) w
      (.repo (.get_daily_realized_loss_usd account_id)) () =
        (.ok (daily_loss w account_id), w) := by
    show World.exec w (.repo (.get_daily_realized_loss_usd account_id)) {} = _
    simp only [World.exec, Choice.faultOf, World.called, World.effect, RepoCmd.txn, daily_loss,
      get_daily_realized_loss_usd]
    cases UUID account_id <;> rfl
  have hpos : World.answer (policy_env load reply) w
      (.repo (.get_open_positions_count account_id)) () =
        (.ok (open_positions w account_id), w) := by
    show World.exec w (.repo (.get_open_positions_count account_id)) {} = _
    simp only [World.exec, Choice.faultOf, World.called, World.effect, RepoCmd.txn, open_positions,
      get_open_positions_count]
    cases UUID account_id <;> rfl
  unfold ExecutionConsumer.risk_data repo
  rw [if_pos hrepo, Ends, alone_bind, alone_attempt, alone_perform, hloss]
  dsimp only
  rw [alone_bind, alone_attempt, alone_perform, hpos]
  exact ⟨rfl, rfl⟩

/-- The controls of an account and a symbol are clear. -/
def ControlsClear (w : World) (account_id symbol : String) : Prop :=
  ∀ k ∈ control_keys account_id symbol, w.redis.live w.now k = none

/-- Alone, the evaluation ends in a decision, which passes exactly when the
controls are clear and every structural check passes. -/
theorem ends_evaluate (engine : ExecutionRiskEngine) (request : ExecutionRequest)
    (loss : Option ℚ) (positions : Option Nat) (limits_override : Option RiskLimits) :
    Ends load reply w (onRedis (engine.evaluate request loss positions limits_override))
      fun r w' => w' = w ∧ ∃ decision, r = .ok decision ∧
        (decision.passed = true ↔
          ControlsClear w request.account_id request.trade_intent.symbol ∧
          ∀ check ∈ engine.sync_results request (limits_override.getD engine.limits) loss positions,
            check.passed = true) := by
  have hblocked (k : String) (hk : k ∈ control_keys request.account_id request.trade_intent.symbol)
      (hlive : (w.redis.live w.now k).isSome = true) (d : RiskDecision) (hd : d.passed = false) :
      d.passed = true ↔ ControlsClear w request.account_id request.trade_intent.symbol ∧
        ∀ check ∈ engine.sync_results request (limits_override.getD engine.limits) loss positions,
          check.passed = true := by
    constructor
    · intro h
      rw [hd] at h
      cases h
    · rintro ⟨hclear, -⟩
      rw [hclear k hk] at hlive
      cases hlive
  unfold ExecutionRiskEngine.evaluate
  refine ends_read (fun hlive => ⟨rfl, _, rfl, hblocked _ (by simp [control_keys]) hlive _ rfl⟩)
    fun h1 => ?_
  refine ends_read (fun hlive => ⟨rfl, _, rfl, hblocked _ (by simp [control_keys]) hlive _ rfl⟩)
    fun h2 => ?_
  refine ends_read (fun hlive => ⟨rfl, _, rfl, hblocked _ (by simp [control_keys]) hlive _ rfl⟩)
    fun h3 => ?_
  refine ends_read (fun hlive => ⟨rfl, _, rfl, hblocked _ (by simp [control_keys]) hlive _ rfl⟩)
    fun h4 => ?_
  refine ends_read (fun hlive => ⟨rfl, _, rfl, hblocked _ (by simp [control_keys]) hlive _ rfl⟩)
    fun h5 => ?_
  refine ⟨rfl, _, rfl, ?_⟩
  rw [ExecutionRiskEngine.sync_decision_passed]
  refine (and_iff_right ?_).symm
  intro k hk
  simp only [control_keys, List.mem_cons, List.not_mem_nil, or_false] at hk
  rcases hk with rfl | rfl | rfl | rfl | rfl
  · exact h1
  · exact h2
  · exact h3
  · exact h4
  · exact h5

end Reads

/-! ## What lets an intent through -/

/-- The structural checks pass on the limits in force, the loss and the
positions of the account. -/
def GatePasses (consumer : ExecutionConsumer) (load : Option PyErr) (w : World)
    (request : ExecutionRequest) : Prop :=
  ∀ check ∈ consumer.risk_engine.sync_results request
    ((limits_loaded load w request.account_id).getD consumer.risk_engine.limits)
    (some (daily_loss w request.account_id)) (some (open_positions w request.account_id)),
    check.passed = true

theorem gatePasses_congr {consumer : ExecutionConsumer} {load : Option PyErr} {w w' : World}
    (h : Untouched w w') (request : ExecutionRequest) :
    GatePasses consumer load w' request ↔ GatePasses consumer load w request := by
  unfold GatePasses
  rw [limits_loaded_congr h, daily_loss_congr h, open_positions_congr h]

/-- A request can be built for the intent, the lock can be taken, no control is
set, and the checks pass. -/
structure Passes (consumer : ExecutionConsumer) (load : Option PyErr) (sha256 : String → String)
    (w : World) (job_id : Uuid) (intent : TradeIntent) : Prop where
  lock_ttl : 0 < consumer.settings.job_lock_ttl_s
  lock_free : w.redis.live w.now
    (RedisKeys.job_lock (consumer.client_order_id sha256 intent)) = none
  controls : ControlsClear w consumer.account_id intent.symbol
  checks : ∃ request, consumer.build_request job_id intent = .ok request ∧
    GatePasses consumer load w request

/-- The world with one more key. -/
def World.withKey (w : World) (key : String) (e : RedisEntry) : World :=
  { w with redis := w.redis.put key e }

@[simp] theorem World.withKey_now (w : World) (key : String) (e : RedisEntry) :
    (w.withKey key e).now = w.now := rfl

section WithKey

-- The parser of UUIDs need not be unfolded to see that no key is read.
attribute [local irreducible] UUID

/-- A key is nothing that the limits, the loss and the positions depend on. -/
theorem limits_loaded_withKey (load : Option PyErr) (w : World) (key : String) (e : RedisEntry)
    (account_id : String) :
    limits_loaded load (w.withKey key e) account_id = limits_loaded load w account_id := rfl

theorem daily_loss_withKey (w : World) (key : String) (e : RedisEntry) (account_id : String) :
    daily_loss (w.withKey key e) account_id = daily_loss w account_id := rfl

theorem open_positions_withKey (w : World) (key : String) (e : RedisEntry) (account_id : String) :
    open_positions (w.withKey key e) account_id = open_positions w account_id := rfl

end WithKey

/-- The lock of an order is no control: what is checked under it is what was
there before. -/
theorem passes_of_lock {consumer : ExecutionConsumer} {load : Option PyErr}
    {sha256 : String → String} {w : World} {job_id : Uuid} {intent : TradeIntent}
    {client_order_id : String} {e : RedisEntry} (hpos : 0 < consumer.settings.job_lock_ttl_s)
    (hfree : w.redis.live w.now
      (RedisKeys.job_lock (consumer.client_order_id sha256 intent)) = none) :
    (ControlsClear (w.withKey (RedisKeys.job_lock client_order_id) e) consumer.account_id
        intent.symbol ∧
      ∃ request, consumer.build_request job_id intent = .ok request ∧
        GatePasses consumer load (w.withKey (RedisKeys.job_lock client_order_id) e) request) ↔
      Passes consumer load sha256 w job_id intent := by
  have hcontrols : ControlsClear (w.withKey (RedisKeys.job_lock client_order_id) e)
      consumer.account_id intent.symbol ↔
      ControlsClear w consumer.account_id intent.symbol := by
    unfold ControlsClear
    refine forall₂_congr fun k hk => ?_
    have hkeys : (w.withKey (RedisKeys.job_lock client_order_id) e).redis.keys k =
        w.redis.keys k := by
      show (w.redis.put _ e).keys k = _
      rw [Redis.put_keys, if_neg]
      rintro rfl
      exact job_lock_ne_control _ _ _ hk
    rw [Redis.live_congr hkeys, World.withKey_now]
  have hchecks (request : ExecutionRequest) :
      GatePasses consumer load (w.withKey (RedisKeys.job_lock client_order_id) e) request ↔
        GatePasses consumer load w request := by
    unfold GatePasses
    rw [limits_loaded_withKey, daily_loss_withKey, open_positions_withKey]
  simp only [hcontrols, hchecks]
  constructor
  · rintro ⟨hc, hg⟩
    exact ⟨hpos, hfree, hc, hg⟩
  · intro hp
    exact ⟨hp.controls, hp.checks⟩

/-! ## What becomes of an intent -/

/-- From now on, the cooldown of the symbol is in force for `seconds`. -/
def CooldownIs (w w' : World) (account_id symbol : String) (seconds : Int) : Prop :=
  ∀ t, w.now ≤ t →
    ((w'.redis.live t (RedisKeys.symbol_cooldown account_id symbol)).isSome = true ↔
      t < w.now + 1000 * seconds.toNat)

/-- A key that is not live now stays so while nothing sets it. -/
theorem live_none_of_le {r : Redis} {key : String} {now t : Nat} (h : r.live now key = none)
    (ht : now ≤ t) : r.live t key = none := by
  unfold Redis.live at *
  cases hk : r.keys key with
  | none => rfl
  | some e =>
    rw [hk] at h
    cases he : e.expires with
    | none =>
      simp only [he] at h
      cases h
    | some x =>
      simp only [he] at h ⊢
      split at h
      · cases h
      · rw [if_neg (by omega)]

/-- What is true after the handling of an intent: when it came to the adapter,
one submission, and after a success the cooldown. -/
structure HandledAs (reply : AdapterResponse) (client_order_id account_id symbol : String)
    (seconds : Int) (came : Prop) (w w' : World) : Prop where
  sent : came → w'.submits = w.submits ++ [client_order_id] ∧
    (reply.success = true → CooldownIs w w' account_id symbol seconds)
  kept : ¬ came → w'.submits = w.submits

/-- It depends on the time and the submissions at the start only. -/
theorem HandledAs.of_start {reply : AdapterResponse}
    {client_order_id account_id symbol : String} {seconds : Int} {came : Prop} {w0 w w' : World}
    (hnow : w.now = w0.now) (hsub : w.submits = w0.submits)
    (hw : HandledAs reply client_order_id account_id symbol seconds came w w') :
    HandledAs reply client_order_id account_id symbol seconds came w0 w' := by
  refine ⟨fun hs => ?_, fun hs => ?_⟩
  · obtain ⟨hsent, hcool⟩ := hw.sent hs
    rw [hsub] at hsent
    unfold CooldownIs at hcool
    rw [hnow] at hcool
    exact ⟨hsent, hcool⟩
  · rw [hw.kept hs, hsub]

theorem controlsClear_congr {w w' : World} (h : Untouched w w') (account_id symbol : String) :
    ControlsClear w' account_id symbol ↔ ControlsClear w account_id symbol := by
  unfold ControlsClear
  rw [h.now]
  refine forall₂_congr fun k _ => ?_
  rw [Redis.live_congr (congrFun h.keys k)]

/-- The cooldown is set, or its `EX` is refused and nothing is in force. -/
theorem ends_set_cooldown {load : Option PyErr} {reply : AdapterResponse} {w : World}
    {account_id symbol : String} {seconds : Int}
    (hfree : w.redis.live w.now (RedisKeys.symbol_cooldown account_id symbol) = none) :
    Ends load reply w (onRedis (CooldownControl.set_cooldown account_id symbol seconds))
      fun _ w' => w'.submits = w.submits ∧ CooldownIs w w' account_id symbol seconds := by
  have hset (t : Option Nat) (ht : expiry w.now (some seconds) = .ok t) :
      World.answer (policy_env load reply) w
        (.redis (.set (RedisKeys.symbol_cooldown account_id symbol) "1" false (some seconds))) () =
        (.ok true, { w with
          redis := w.redis.put (RedisKeys.symbol_cooldown account_id symbol) ⟨"1", t⟩ }) := by
    show World.exec w _ {} = _
    simp only [World.exec, Choice.faultOf, World.called, World.effect, Redis.exec]
    rw [ht]
    rfl
  have hfail (e : PyErr) (he : expiry w.now (some seconds) = .error e) :
      World.answer (policy_env load reply) w
        (.redis (.set (RedisKeys.symbol_cooldown account_id symbol) "1" false (some seconds))) () =
        (.error e, w) := by
    show World.exec w _ {} = _
    simp only [World.exec, Choice.faultOf, World.called, World.effect, Redis.exec]
    rw [he]
    rfl
  unfold CooldownControl.set_cooldown redis
  show resumption.Alone _ _ w (.call _ _) _
  rw [alone_call]
  by_cases hpos : 0 < seconds
  · have hexp : expiry w.now (some seconds) = .ok (some (w.now + 1000 * seconds.toNat)) :=
      if_pos hpos
    rw [hset _ hexp]
    refine ⟨rfl, fun t _ => ?_⟩
    show ((w.redis.put (RedisKeys.symbol_cooldown account_id symbol)
      ⟨"1", some (w.now + 1000 * seconds.toNat)⟩).live t _).isSome = true ↔ _
    unfold Redis.live
    simp only [Redis.put_keys, if_true]
    split <;> simp_all
  · have hexp : expiry w.now (some seconds) = .error invalid_expire_time := if_neg hpos
    rw [hfail _ hexp]
    refine ⟨rfl, fun t ht => ?_⟩
    show (w.redis.live t _).isSome = true ↔ _
    have hzero : seconds.toNat = 0 := by omega
    rw [live_none_of_le hfree ht, hzero]
    simpa using ht

section Handling

variable {load : Option PyErr} {reply : AdapterResponse} {w : World}
variable (self : ExecutionConsumer) (hrepo : self.repository = true)
include hrepo

theorem ends_try_status {job_id : Uuid} {status : JobStatus} {data : Option Json}
    {error : Option String} {β : Type} {f : Unit → Py β} {Q : Except PyErr β → World → Prop}
    (h : ∀ w', Untouched w w' → Ends load reply w' (f ()) Q) :
    Ends load reply w (self.try_status job_id status data error >>= f) Q := by
  unfold ExecutionConsumer.try_status
  rw [if_pos hrepo]
  exact ends_swallow (calls_perform trivial) h

theorem ends_acknowledge {job_id : Uuid} {response : AdapterResponse} {β : Type} {f : Unit → Py β}
    {Q : Except PyErr β → World → Prop}
    (h : ∀ w', Untouched w w' → Ends load reply w' (f ()) Q) :
    Ends load reply w (self.acknowledge job_id response >>= f) Q := by
  unfold ExecutionConsumer.acknowledge
  show Ends load reply w ((self.try_status job_id .submitted >>= fun _ => _) >>= f) Q
  rw [Prog.bind_assoc]
  refine ends_try_status self hrepo fun w1 h1 => ?_
  rw [Prog.bind_assoc]
  refine ends_publish fun w2 h2 => ?_
  rw [Prog.bind_assoc]
  refine ends_try_status self hrepo fun w3 h3 => ?_
  exact ends_publish fun w4 h4 => h w4 (((h1.trans h2).trans h3).trans h4)

/-- After a success: the rows, the events and the cooldown. -/
theorem ends_on_filled {msg_id : String} {job_id : Uuid} {request : ExecutionRequest}
    {client_order_id : String} {response : AdapterResponse}
    (hclear : w.redis.live w.now
      (RedisKeys.symbol_cooldown request.account_id request.trade_intent.symbol) = none) :
    Ends load reply w (self.on_filled msg_id job_id request client_order_id response) fun _ w' =>
      w'.submits = w.submits ∧
        CooldownIs w w' request.account_id request.trade_intent.symbol
          self.settings.symbol_cooldown_s := by
  unfold ExecutionConsumer.on_filled
  refine ends_acknowledge self hrepo fun w1 h1 => ?_
  unfold ExecutionConsumer.persist_fill
  rw [if_pos hrepo, Ends, alone_bind, alone_swallow]
  have hcalls : (do
      let order_id ← repo (.create_order job_id request client_order_id response)
      repo (.save_fill order_id request response)
      repo (.update_job_status job_id .filled none
        (some (.obj [
          ("exchange_order_id", jsonOption response.exchange_order_id),
          ("fill_price", .str (strOption response.fill_price)),
          ("fill_quantity", .str (strOption response.fill_quantity)),
          ("adapter", .str self.adapter.adapter_name)])) none) : Py Unit).Calls Cmd.quiet :=
    calls_bind (calls_perform ⟨fun _ => id, rfl⟩) fun _ =>
      calls_bind (calls_perform ⟨fun _ => id, rfl⟩) fun _ => calls_perform ⟨fun _ => id, rfl⟩
  refine alone_of_calls (I := Quiet w) hcalls
    (fun s c o hc h => quiet_step hc (policy_env_dt load reply c) h) h1.toQuiet fun r w2 h2 => ?_
  refine ends_publish fun w3 h3 => ?_
  have hnow : w3.now = w.now := h3.now.trans h2.now
  have hfree : w3.redis.live w3.now (RedisKeys.symbol_cooldown request.account_id
      request.trade_intent.symbol) = none := by
    rw [hnow, Redis.live_congr (congrFun (h3.keys.trans h2.keys) _)]
    exact hclear
  show Ends load reply w3 (onRedis (CooldownControl.set_cooldown request.account_id
    request.trade_intent.symbol self.settings.symbol_cooldown_s) >>= fun _ => self.ack msg_id) _
  rw [Ends, alone_bind]
  refine alone_mono (ends_set_cooldown hfree) fun r w4 hw => ?_
  obtain ⟨hsub, hcool⟩ := hw
  rw [h3.submits, h2.submits] at hsub
  unfold CooldownIs at hcool
  rw [hnow] at hcool
  cases r with
  | error e => exact ⟨hsub, hcool⟩
  | ok u =>
    refine ends_of_jots (calls_mono (self.ack_calls msg_id) fun _ => jots_of_reports)
      fun r w5 h5 => ⟨h5.submits.trans hsub, fun t ht => ?_⟩
    rw [Redis.live_congr (congrFun h5.keys _)]
    exact hcool t ht

theorem ends_submit_approved (hadapter : self.adapter = some_adapter) {msg_id : String}
    {job_id : Uuid} {request : ExecutionRequest} {client_order_id : String}
    {decision : RiskDecision}
    (hclear : ControlsClear w request.account_id request.trade_intent.symbol) :
    Ends load reply w (self.submit_approved msg_id job_id request client_order_id decision)
      fun _ w' => HandledAs reply client_order_id request.account_id request.trade_intent.symbol
        self.settings.symbol_cooldown_s True w w' := by
  unfold ExecutionConsumer.submit_approved
  refine ends_try_status self hrepo fun w1 h1 => ?_
  refine ends_publish fun w2 h2 => ?_
  have h := h1.trans h2
  rw [Ends, alone_bind, alone_attempt, hadapter]
  unfold some_adapter
  rw [alone_perform]
  have hsubmit : World.answer (policy_env load reply) w2 (.submit request client_order_id) () =
      (.ok reply, { w2 with submits := w2.submits ++ [client_order_id] }) := rfl
  rw [hsubmit]
  dsimp only
  have hdone : ∀ w', w'.submits = w2.submits ++ [client_order_id] →
      (reply.success = true → CooldownIs w w' request.account_id request.trade_intent.symbol
        self.settings.symbol_cooldown_s) →
      HandledAs reply client_order_id request.account_id request.trade_intent.symbol
        self.settings.symbol_cooldown_s True w w' := by
    intro w' hsub hcool
    refine ⟨fun _ => ⟨?_, hcool⟩, fun hn => absurd trivial hn⟩
    rw [hsub, h.submits]
  by_cases hsuccess : reply.success = true
  · rw [if_neg (by simp [hsuccess])]
    have hfree : w2.redis.live w2.now (RedisKeys.symbol_cooldown request.account_id
        request.trade_intent.symbol) = none := by
      rw [h.now, Redis.live_congr (congrFun h.keys _)]
      exact hclear _ (by simp [control_keys])
    refine alone_mono (ends_on_filled self hrepo (by exact hfree)) fun r w' hw => ?_
    refine hdone w' hw.1 fun _ => ?_
    have hcool := hw.2
    unfold CooldownIs at hcool
    dsimp only at hcool
    rw [h.now] at hcool
    exact hcool
  · rw [if_pos (by simpa using hsuccess)]
    refine ends_of_jots (calls_mono (calls_bind (self.on_failed_calls ..) fun _ =>
      calls_mono (self.ack_calls msg_id) fun _ => logs_of_reports) fun _ => jots_of_logs)
      fun r w' hw => ?_
    exact hdone w' hw.submits fun hs => absurd hs hsuccess

theorem ends_risk_gate (hloader : self.context_loader = true)
    (hadapter : self.adapter = some_adapter) {msg_id : String} {job_id : Uuid}
    {request : ExecutionRequest} {client_order_id : String} :
    Ends load reply w (self.risk_gate msg_id job_id request client_order_id)
      fun _ w' => HandledAs reply client_order_id request.account_id request.trade_intent.symbol
        self.settings.symbol_cooldown_s
        (ControlsClear w request.account_id request.trade_intent.symbol ∧
          GatePasses self load w request) w w' := by
  unfold ExecutionConsumer.risk_gate
  rw [Ends, alone_bind]
  refine alone_mono (ends_limits_override self hloader request.account_id) ?_
  rintro _ _ ⟨rfl, rfl⟩
  dsimp only
  rw [alone_bind]
  refine alone_mono (ends_risk_data self hrepo request.account_id) ?_
  rintro _ _ ⟨rfl, rfl⟩
  dsimp only
  rw [alone_bind, alone_attempt]
  refine alone_mono (ends_evaluate self.risk_engine request _ _ _) ?_
  rintro _ w' ⟨rfl, decision, rfl, hpassed⟩
  dsimp only
  by_cases hp : decision.passed = true
  · rw [if_neg (by simp [hp])]
    have hopen := hpassed.mp hp
    refine alone_mono (ends_submit_approved self hrepo hadapter hopen.1) fun r w'' hw => ?_
    exact ⟨fun _ => hw.sent trivial, fun hn => absurd hopen hn⟩
  · rw [if_pos (by simpa using hp)]
    refine ends_of_jots (calls_mono (calls_bind (self.on_blocked_calls ..) fun _ =>
      calls_mono (self.ack_calls msg_id) fun _ => logs_of_reports) fun _ => jots_of_logs)
      fun r w'' hw => ?_
    exact ⟨fun hs => absurd (hpassed.mpr hs) hp, fun _ => hw.submits⟩

/-- What follows the lock. -/
theorem ends_process_locked (hloader : self.context_loader = true)
    (hadapter : self.adapter = some_adapter) {msg_id : String} {job_id : Uuid}
    {intent : TradeIntent} {client_order_id : String} :
    Ends load reply w (self.process_locked msg_id job_id intent client_order_id)
      fun _ w' => HandledAs reply client_order_id self.account_id intent.symbol
        self.settings.symbol_cooldown_s
        (ControlsClear w self.account_id intent.symbol ∧
          ∃ request, self.build_request job_id intent = .ok request ∧
            GatePasses self load w request) w w' := by
  unfold ExecutionConsumer.process_locked
  cases hrequest : self.build_request job_id intent with
  | error e =>
    refine ⟨?_, fun _ => rfl⟩
    rintro ⟨-, request, hok, -⟩
    cases hok
  | ok request =>
    obtain ⟨haccount, hintent, -⟩ := ExecutionConsumer.build_request_fields _ job_id intent hrequest
    show Ends load reply w (if self.repository = true then _ else _) _
    rw [if_pos hrepo]
    refine ends_swallow (calls_perform trivial) fun w1 h1 => ?_
    refine ends_publish fun w2 h2 => ?_
    have h := h1.trans h2
    refine alone_mono (ends_risk_gate self hrepo hloader hadapter) fun _ w' hw => ?_
    rw [controlsClear_congr h, gatePasses_congr h, haccount, hintent] at hw
    simpa using hw.of_start h.now h.submits

/-- One delivery of a valid intent. -/
theorem ends_process_intent (hloader : self.context_loader = true)
    (hadapter : self.adapter = some_adapter) {sha256 : String → String} {msg_id : String}
    {job_id : Uuid} {intent : TradeIntent} :
    Ends load reply w (self.process_intent sha256 msg_id job_id intent)
      fun _ w' => HandledAs reply (self.client_order_id sha256 intent) self.account_id
        intent.symbol self.settings.symbol_cooldown_s
        (Passes self load sha256 w job_id intent) w w' := by
  have hset (t : Option Nat) (ht : expiry w.now (some self.settings.job_lock_ttl_s) = .ok t) :
      World.answer (policy_env load reply) w
        (.redis (.set (RedisKeys.job_lock (self.client_order_id sha256 intent)) job_id
          true (some self.settings.job_lock_ttl_s))) () =
        if (w.redis.live w.now (RedisKeys.job_lock
            (self.client_order_id sha256 intent))).isSome = true then (.ok false, w)
        else (.ok true, w.withKey (RedisKeys.job_lock
          (self.client_order_id sha256 intent)) ⟨job_id, t⟩) := by
    show World.exec w _ {} = _
    simp only [World.exec, Choice.faultOf, World.called, World.effect, Redis.exec, Bool.true_and]
    rw [ht]
    split_ifs <;> rfl
  have hfail (e : PyErr) (he : expiry w.now (some self.settings.job_lock_ttl_s) = .error e) :
      World.answer (policy_env load reply) w
        (.redis (.set (RedisKeys.job_lock (self.client_order_id sha256 intent)) job_id
          true (some self.settings.job_lock_ttl_s))) () = (.error e, w) := by
    show World.exec w _ {} = _
    simp only [World.exec, Choice.faultOf, World.called, World.effect, Redis.exec, Bool.true_and]
    rw [he]
    rfl
  unfold ExecutionConsumer.process_intent redis
  show resumption.Alone _ _ w (.call _ _) _
  rw [alone_call]
  by_cases hpos : 0 < self.settings.job_lock_ttl_s
  · have hexp : expiry w.now (some self.settings.job_lock_ttl_s) =
        .ok (some (w.now + 1000 * self.settings.job_lock_ttl_s.toNat)) := if_pos hpos
    rw [hset _ hexp]
    dsimp only
    by_cases hlive : (w.redis.live w.now (RedisKeys.job_lock
        (self.client_order_id sha256 intent))).isSome = true
    · rw [if_pos hlive]
      refine ends_publish fun w1 h1 => ?_
      refine ends_of_jots (calls_mono (self.ack_calls msg_id) fun _ => jots_of_reports)
        fun r w2 h2 => ⟨fun hp => ?_, fun _ => h2.submits.trans h1.submits⟩
      rw [hp.lock_free] at hlive
      cases hlive
    · rw [if_neg hlive]
      refine alone_mono (ends_process_locked self hrepo hloader hadapter) fun _ w' hw => ?_
      rw [passes_of_lock hpos (by simpa using hlive)] at hw
      exact HandledAs.of_start (w := w.withKey _ _) rfl rfl hw
  · have hexp : expiry w.now (some self.settings.job_lock_ttl_s) = .error invalid_expire_time :=
      if_neg hpos
    rw [hfail _ hexp]
    exact ⟨fun hp => absurd hp.lock_ttl hpos, fun _ => rfl⟩

end Handling

/-! ## The policy that is stored -/

/-- The levels that execution asks for: L2 on paper, L3 live. -/
def required_level : TradingMode → ApprovalLevel
  | .paper => .l2_paper
  | .live => .l3_assisted_live

/-- What the rows of an account say of an intent, its size aside. Without a
record the account is paper only. -/
structure Admits (rows : AccountRows) (mode : TradingMode) (symbol : String) : Prop where
  not_denied : ∀ record ∈ rows.approval, symbol ∉ record.denied_symbols
  allowed : ∀ record ∈ rows.approval, ∀ l ∈ record.allowed_symbols, l = [] ∨ symbol ∈ l
  paper_only : mode = .live → ∃ record ∈ rows.approval, record.paper_only = false
  level : check_approval_level (approval_level_of rows) (required_level mode) = true

/-- The notional, the daily loss and the positions are within the limits. -/
structure WithinLimits (w : World) (account_id : String) (intent : TradeIntent)
    (limits : RiskLimits) : Prop where
  size : ∀ n ∈ checked_notional intent, n ≤ limits.max_position_size_usd
  loss : daily_loss w account_id < limits.max_daily_loss_usd
  positions : (open_positions w account_id : Int) < limits.max_concurrent_positions

/-- The consumer of `main.py`: an engine with its defaults, and every optional
part. Its adapter is seen from outside. -/
def wired (settings : ExecutionSettings) : ExecutionConsumer := { settings }

/-- The world after the wired consumer processed an intent. -/
def processed (load : Option PyErr) (reply : AdapterResponse) (settings : ExecutionSettings)
    (sha256 : String → String) (job_id : Uuid) (msg_id : String) (intent : TradeIntent)
    (w : World) : World :=
  (resumption.run (World.answer (policy_env load reply)) () ((wired settings).process sha256 job_id
    ⟨msg_id, .valid intent⟩) w []).2.1

/-- The gates that the stored policy does not speak of: the lock, the level of
the settings, the controls and the order type. -/
structure OtherGatesOpen (settings : ExecutionSettings) (sha256 : String → String) (w : World)
    (intent : TradeIntent) : Prop where
  lock_ttl : 0 < settings.job_lock_ttl_s
  lock_free : w.redis.live w.now
    (RedisKeys.job_lock ((wired settings).client_order_id sha256 intent)) = none
  level : ∃ level, ApprovalLevel.ofValue settings.default_approval_level = .ok level
  controls : ControlsClear w (wired settings).account_id intent.symbol
  order_type : intent.order_type = .market ∨ intent.order_type = .limit

/-- The stored policy decides on one intent: what reached the adapter was
admitted by it, was within its limits and is followed by its cooldown; and what
it admits is not stopped when the other gates are open. -/
structure PolicyDecides (reply : AdapterResponse) (settings : ExecutionSettings)
    (sha256 : String → String) (rows : AccountRows) (intent : TradeIntent) (w w' : World) :
    Prop where
  only : w'.submits = w.submits ++ [(wired settings).client_order_id sha256 intent] →
    Admits rows settings.trading_mode intent.symbol ∧
      WithinLimits w (wired settings).account_id intent (limits_of rows.policy) ∧
      (reply.success = true → CooldownIs w w' (wired settings).account_id intent.symbol
        (limits_of rows.policy).symbol_cooldown_seconds)
  all : OtherGatesOpen settings sha256 w intent →
    Admits rows settings.trading_mode intent.symbol →
    WithinLimits w (wired settings).account_id intent (limits_of rows.policy) →
    w'.submits = w.submits ++ [(wired settings).client_order_id sha256 intent]

/-- The limits that decide in fact: the stored ones, or the defaults when the
load of the context raises, which an unknown trading mode of the account makes
it do. -/
def limits_in_force (load : Option PyErr) (rows : AccountRows) : RiskLimits :=
  match load, TradingMode.ofValue rows.account.trading_mode with
  | none, .ok _ => limits_of rows.policy
  | _, _ => {}

theorem limits_loaded_eq {load : Option PyErr} {w : World} {account_id : String}
    {rows : AccountRows} (hrows : account_rows w account_id = some rows) :
    (limits_loaded load w account_id).getD {} = limits_in_force load rows := by
  unfold limits_loaded limits_in_force
  cases load with
  | some e => rfl
  | none =>
    simp only [limitsRead, hrows, context_of]
    cases TradingMode.ofValue rows.account.trading_mode with
    | error e => rfl
    | ok mode => rfl

/-- The checks of the wired consumer: never live, and the limits in force. -/
theorem gatePasses_wired {settings : ExecutionSettings} {load : Option PyErr} {w : World}
    {request : ExecutionRequest} {rows : AccountRows}
    (hrows : account_rows w request.account_id = some rows) :
    GatePasses (wired settings) load w request ↔
      request.trading_mode = .paper ∧
      (request.trade_intent.order_type = .market ∨ request.trade_intent.order_type = .limit) ∧
      WithinLimits w request.account_id request.trade_intent
        (limits_in_force load rows) := by
  have hlimits : (limits_loaded load w request.account_id).getD
      (wired settings).risk_engine.limits = limits_in_force load rows :=
    limits_loaded_eq hrows
  unfold GatePasses
  rw [hlimits]
  simp only [ExecutionRiskEngine.sync_results, List.forall_mem_cons, check_symbol_policy_passed,
    check_trading_mode_passed, check_missing_account_context_passed,
    check_max_position_size_passed, check_unsupported_order_type_passed,
    check_max_daily_loss_passed, check_max_concurrent_passed]
  constructor
  · rintro ⟨-, hmode, -, hsize, htype, hloss, hpositions, -⟩
    refine ⟨?_, htype, hsize, hloss _ rfl, hpositions _ rfl⟩
    cases hm : request.trading_mode with
    | paper => rfl
    | live => exact absurd ⟨rfl, hm⟩ hmode
  · rintro ⟨hmode, htype, hsize, hloss, hpositions⟩
    refine ⟨⟨List.not_mem_nil, fun l hl => nomatch hl⟩, ?_, ?_, hsize, htype, ?_, ?_,
      fun r hr => absurd hr List.not_mem_nil⟩
    · rintro ⟨-, hlive⟩
      rw [hmode] at hlive
      cases hlive
    · intro hlive
      rw [hmode] at hlive
      cases hlive
    · intro l hl
      rw [← Option.some.inj hl]
      exact hloss
    · intro n hn
      rw [← Option.some.inj hn]
      exact hpositions

section Stored

variable {settings : ExecutionSettings} {load : Option PyErr} {reply : AdapterResponse}
  {sha256 : String → String} {w : World} {job_id : Uuid} {intent : TradeIntent}
  {rows : AccountRows}

theorem passes_wired (hrows : account_rows w (wired settings).account_id = some rows) :
    Passes (wired settings) load sha256 w job_id intent ↔
      OtherGatesOpen settings sha256 w intent ∧ settings.trading_mode = .paper ∧
      WithinLimits w (wired settings).account_id intent
        (limits_in_force load rows) := by
  constructor
  · rintro ⟨hpos, hfree, hcontrols, request, hrequest, hchecks⟩
    obtain ⟨haccount, hintent, hmode⟩ := ExecutionConsumer.build_request_fields _ job_id intent hrequest
    rw [gatePasses_wired (by rw [haccount]; exact hrows), haccount, hintent, hmode]
      at hchecks
    obtain ⟨hpaper, htype, hlimits⟩ := hchecks
    refine ⟨⟨hpos, hfree, ?_, hcontrols, htype⟩, hpaper, hlimits⟩
    unfold ExecutionConsumer.build_request at hrequest
    split at hrequest
    · cases hrequest
    · exact ⟨_, by assumption⟩
  · rintro ⟨⟨hpos, hfree, ⟨level, hlevel⟩, hcontrols, htype⟩, hpaper, hlimits⟩
    have hrequest : ∃ request, (wired settings).build_request job_id intent = .ok request := by
      have hwired : ApprovalLevel.ofValue (wired settings).settings.default_approval_level =
          .ok level := hlevel
      unfold ExecutionConsumer.build_request
      rw [hwired]
      exact ⟨_, rfl⟩
    obtain ⟨request, hrequest⟩ := hrequest
    obtain ⟨haccount, hintent, hmode⟩ := ExecutionConsumer.build_request_fields _ job_id intent hrequest
    refine ⟨hpos, hfree, hcontrols, request, hrequest, ?_⟩
    rw [gatePasses_wired (by rw [haccount]; exact hrows), haccount, hintent, hmode]
    exact ⟨hpaper, htype, hlimits⟩

/-- Two cooldowns of one symbol are one when they last for the same time. -/
theorem cooldownIs_iff {w w' : World} {account_id symbol : String} {seconds other : Int}
    (h : CooldownIs w w' account_id symbol seconds) :
    CooldownIs w w' account_id symbol other ↔ seconds.toNat = other.toNat := by
  constructor
  · intro h'
    have hlast := (h _ (Nat.le_add_right w.now (1000 * seconds.toNat))).symm.trans
      (h' _ (Nat.le_add_right w.now (1000 * seconds.toNat)))
    have hlast' := (h _ (Nat.le_add_right w.now (1000 * other.toNat))).symm.trans
      (h' _ (Nat.le_add_right w.now (1000 * other.toNat)))
    omega
  · intro he t ht
    rw [← he]
    exact h t ht

/-- The consumer of `main.py` lets the stored policy of the account decide on an
intent exactly when: another gate stops the intent anyway; or the mode is live, where
nothing is let through, and the policy does not let it through either; or the
mode is paper, the limits in force and the stored policy agree on the intent,
and so do the two cooldowns if it is submitted. -/
theorem stored_policy_decides (hrows : account_rows w (wired settings).account_id = some rows)
    (msg_id : String) :
    PolicyDecides reply settings sha256 rows intent w
        (processed load reply settings sha256 job_id msg_id intent w) ↔
      (OtherGatesOpen settings sha256 w intent →
        (settings.trading_mode = .live →
          ¬ (Admits rows .live intent.symbol ∧
            WithinLimits w (wired settings).account_id intent (limits_of rows.policy))) ∧
        (settings.trading_mode = .paper →
          (WithinLimits w (wired settings).account_id intent (limits_in_force load rows) ↔
            Admits rows .paper intent.symbol ∧
            WithinLimits w (wired settings).account_id intent (limits_of rows.policy)) ∧
          (WithinLimits w (wired settings).account_id intent (limits_in_force load rows) →
            reply.success = true → settings.symbol_cooldown_s.toNat =
              (limits_of rows.policy).symbol_cooldown_seconds.toNat))) := by
  have hend : HandledAs reply ((wired settings).client_order_id sha256 intent)
      (wired settings).account_id intent.symbol settings.symbol_cooldown_s
      (Passes (wired settings) load sha256 w job_id intent) w
      (processed load reply settings sha256 job_id msg_id intent w) :=
    ends_process_intent (wired settings) rfl rfl rfl
  rw [passes_wired hrows] at hend
  -- the intent reaches the adapter exactly when it comes through the gate
  have hreached : (processed load reply settings sha256 job_id msg_id intent w).submits =
      w.submits ++ [(wired settings).client_order_id sha256 intent] ↔
      OtherGatesOpen settings sha256 w intent ∧ settings.trading_mode = .paper ∧
        WithinLimits w (wired settings).account_id intent (limits_in_force load rows) := by
    refine ⟨fun hsub => ?_, fun hcame => (hend.sent hcame).1⟩
    by_contra hcame
    rw [hend.kept hcame] at hsub
    simp at hsub
  constructor
  · intro hdecides hother
    refine ⟨fun hlive hadmits => ?_, fun hpaper => ?_⟩
    · have hsub := hdecides.all hother (by rw [hlive]; exact hadmits.1) hadmits.2
      have hpaper := (hreached.mp hsub).2.1
      rw [hlive] at hpaper
      cases hpaper
    · have honly (hlimits : WithinLimits w (wired settings).account_id intent
          (limits_in_force load rows)) :=
        hdecides.only (hreached.mpr ⟨hother, hpaper, hlimits⟩)
      rw [hpaper] at honly
      refine ⟨⟨fun hlimits => ⟨(honly hlimits).1, (honly hlimits).2.1⟩, ?_⟩, ?_⟩
      · rintro ⟨hadmits, hstored⟩
        have hsub := hdecides.all hother (by rw [hpaper]; exact hadmits) hstored
        exact (hreached.mp hsub).2.2
      · intro hlimits hsuccess
        have hcool := (hend.sent ⟨hother, hpaper, hlimits⟩).2 hsuccess
        exact (cooldownIs_iff hcool).mp ((honly hlimits).2.2 hsuccess)
  · intro hcond
    constructor
    · intro hsub
      have hcame := hreached.mp hsub
      obtain ⟨hother, hpaper, hlimits⟩ := hreached.mp hsub
      obtain ⟨hagree, hcool⟩ := (hcond hother).2 hpaper
      rw [hpaper]
      refine ⟨(hagree.mp hlimits).1, (hagree.mp hlimits).2, fun hsuccess => ?_⟩
      exact (cooldownIs_iff ((hend.sent hcame).2 hsuccess)).mpr (hcool hlimits hsuccess)
    · intro hother hadmits hstored
      cases hmode : settings.trading_mode with
      | live =>
        rw [hmode] at hadmits
        exact absurd ⟨hadmits, hstored⟩ ((hcond hother).1 hmode)
      | paper =>
        rw [hmode] at hadmits
        exact hreached.mpr ⟨hother, hmode, ((hcond hother).2 hmode).1.mpr ⟨hadmits, hstored⟩⟩

end Stored

/-! ## A denied symbol -/

/-- An account that may trade on paper, one symbol excepted. -/
def denying_account : AccountRows where
  account := { id := "00000000-0000-0000-0000-000000000001", user_id := "user-1" }
  approval := some {
    account_id := "00000000-0000-0000-0000-000000000001"
    level := "l2_paper"
    denied_symbols := ["DOGEUSDT"] }
  policy := some { account_id := "00000000-0000-0000-0000-000000000001" }
  has_credentials := false

def denying_world : World :=
  { World.empty with db := { Db.empty with
    accounts := [denying_account.account]
    approvals := denying_account.approval.toList
    policies := denying_account.policy.toList } }

def denying_settings : ExecutionSettings :=
  { default_account_id := "00000000-0000-0000-0000-000000000001" }

def small_intent (symbol : String) : TradeIntent where
  intent_id := "00000000-0000-0000-0000-000000000002"
  symbol
  market_type := .futures
  side := .buy
  size := 1
  size_usd := some 100

def accepted : AdapterResponse := { success := true, client_order_id := "tp2-1" }

theorem denying_account_is_stored :
    account_rows denying_world (wired denying_settings).account_id = some denying_account := by
  rfl

/-- The denied symbol reaches the adapter. -/
theorem a_denied_symbol_reaches_the_adapter :
    ¬ PolicyDecides accepted denying_settings id denying_account (small_intent "DOGEUSDT")
      denying_world
      (processed none accepted denying_settings id "job-1" "1-0" (small_intent "DOGEUSDT")
        denying_world) := by
  intro h
  have hsent := h.only (by decide +kernel)
  exact hsent.1.not_denied _ rfl List.mem_cons_self

/-- On the other symbols the policy of this account decides: it is the one that
the consumer has by default. -/
theorem a_default_policy_decides :
    PolicyDecides accepted denying_settings id denying_account (small_intent "BTCUSDT")
      denying_world
      (processed none accepted denying_settings id "job-1" "1-0" (small_intent "BTCUSDT")
        denying_world) := by
  refine (stored_policy_decides denying_account_is_stored "1-0").mpr fun _ => ?_
  refine ⟨(fun hlive => nomatch hlive), fun _ => ⟨?_, fun _ _ => rfl⟩⟩
  have hadmits : Admits denying_account .paper "BTCUSDT" := by
    refine ⟨?_, ?_, (fun hlive => nomatch hlive), by decide⟩
    · rintro record ⟨⟩
      decide
    · rintro record ⟨⟩ l hl
      cases hl
  exact ⟨fun hlimits => ⟨hadmits, hlimits⟩, fun h => h.2⟩

end trading_platform.execution
