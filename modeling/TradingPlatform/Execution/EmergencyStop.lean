-- The emergency stop and the consumer. Requests that set the trading mode and
-- the handling of intents interleave. The consumer never reads the key of the
-- emergency stop: while it is on, only the other gates keep an intent from the
-- adapter.
import TradingPlatform.Execution.IntentOnce
import TradingPlatform.Gateway.TradingMode
import Mathlib.Data.List.TakeWhile

open resumption
open trading_platform.shared

namespace trading_platform.execution

open trading_platform.gateway_api

/-! ## When the stop is in force -/

/-- The mode that thread `i` sets; the first `base` threads set none. -/
def mode_of (base : Nat) (requests : List TradingModeRequest) (i : Nat) : Option String :=
  if i < base then none else (requests[i - base]?).map (·.mode)

/-- One call of a trace. A request that sets the emergency stop completes with
its last call, the clock; one that sets another mode starts with its `SET`. -/
def stopAfter (mode_of : Nat → Option String) (stop : Bool) (x : Nat × Event PyErr Cmd Ans) :
    Bool :=
  match mode_of x.1, x.2.call with
  | some mode, .time_ms => if mode = "emergency_stop" then true else stop
  | some mode, .redis (.set ..) => if mode = "emergency_stop" then stop else false
  | _, _ => stop

/-- A `set_trading_mode(emergency_stop)` has completed, and no request with
another mode has started since. -/
def inStop (mode_of : Nat → Option String) (trace : List (Nat × Event PyErr Cmd Ans)) : Bool :=
  trace.foldl (stopAfter mode_of) false

/-- The emergency stop was in force when thread `i` made its first call; for a
thread that has made none, it is in force now. -/
def startedInStop (mode_of : Nat → Option String) (trace : List (Nat × Event PyErr Cmd Ans))
    (i : Nat) : Bool :=
  inStop mode_of (trace.takeWhile fun x => x.1 ≠ i)

/-- Once a thread has started, later calls do not move its start. -/
theorem startedInStop_append {mode_of : Nat → Option String}
    {trace : List (Nat × Event PyErr Cmd Ans)} {i : Nat} (h : ∃ x ∈ trace, x.1 = i)
    (more : List (Nat × Event PyErr Cmd Ans)) :
    startedInStop mode_of (trace ++ more) i = startedInStop mode_of trace i := by
  unfold startedInStop
  obtain ⟨x, hx, hi⟩ := h
  rw [List.takeWhile_append]
  split
  · -- a thread that has started ends the prefix
    rename_i hall
    have hmem : x ∈ trace.takeWhile fun x => x.1 ≠ i := by
      rw [(List.takeWhile_prefix _).eq_of_length hall]
      exact hx
    have := List.mem_takeWhile_imp hmem
    simp [hi] at this
  · rfl

/-- A call of the thread itself does not move its start either. -/
theorem startedInStop_own {mode_of : Nat → Option String}
    {trace : List (Nat × Event PyErr Cmd Ans)} {i : Nat} (e : Event PyErr Cmd Ans) :
    startedInStop mode_of (trace ++ [(i, e)]) i = startedInStop mode_of trace i := by
  by_cases h : ∃ x ∈ trace, x.1 = i
  · exact startedInStop_append h _
  · have hall : trace.takeWhile (fun x => decide (x.1 ≠ i)) = trace := by
      rw [List.takeWhile_eq_self_iff]
      intro x hx
      simpa using fun hi => h ⟨x, hx, hi⟩
    unfold startedInStop
    rw [List.takeWhile_append, hall]
    simp

/-! ## The gates that are left -/

namespace ExecutionConsumer

variable (self : ExecutionConsumer) (sha256 : String → String)

/-- What was seen does not open the gate: a control key is not known to be
absent, or a structural check fails. -/
def Shut (job_id : Uuid) (intent : TradeIntent) (seen : Seen) : Prop :=
  (∃ k ∈ control_keys self.account_id intent.symbol, k ∉ seen.clear) ∨
    ∀ request, self.build_request job_id intent = .ok request → ¬ self.ChecksPass request seen

instance (job_id : Uuid) (intent : TradeIntent) (seen : Seen) :
    Decidable (self.Shut job_id intent seen) :=
  haveI : Decidable (∀ request, self.build_request job_id intent = .ok request →
      ¬ self.ChecksPass request seen) :=
    match h : self.build_request job_id intent with
    | .ok request =>
      decidable_of_iff (¬ self.ChecksPass request seen)
        ⟨fun hn r hr => by cases hr; exact hn, fun hn => hn request rfl⟩
    | .error _ => isTrue fun r hr => by cases hr
  inferInstanceAs (Decidable (_ ∨ _))

/-- The ghost state of the gate of thread `i`, which handles `intent`. -/
def gateOf (job_id : Uuid) (intent : TradeIntent) (cfg : Config World PyErr Cmd Ans Unit)
    (i : Nat) : Gate :=
  (self.gate sha256 job_id intent).after .start (cfg.log i)

/-- A thread that started under the emergency stop and reads a control key as
absent is still shut out: by another control that it has not read as absent, or
by a structural check. -/
def StoppedOtherwise (requests : List TradingModeRequest) (entries : List (Uuid × IntentEntry))
    (cfg : Config World PyErr Cmd Ans Unit) (a : Act Choice) : Prop :=
  match entries[a.thread]? with
  | some (job_id, ⟨_, .valid intent⟩) =>
    startedInStop (mode_of entries.length requests) cfg.trace a.thread = true →
      match cfg.threads[a.thread]?, self.gateOf sha256 job_id intent cfg a.thread with
      | some (.call (.redis (.exists k)) _), .locked seen =>
        (cfg.shared.redis.live cfg.shared.now k).isSome = true ∨
          self.Shut job_id intent { seen with clear := seen.clear ++ [k] }
      | _, _ => True
  | _ => True

instance (requests : List TradingModeRequest) (entries : List (Uuid × IntentEntry))
    (cfg : Config World PyErr Cmd Ans Unit) (a : Act Choice) :
    Decidable (self.StoppedOtherwise sha256 requests entries cfg a) := by
  unfold StoppedOtherwise
  split
  · refine @instDecidableForall _ _ _ ?_
    split <;> infer_instance
  · infer_instance

/-- The handlers of the intents, and after them the requests. -/
def stop_threads (entries : List (Uuid × IntentEntry)) (requests : List TradingModeRequest) :
    List (Py Unit) :=
  (entries.map fun e => self.process sha256 e.1 e.2) ++
    requests.map fun body => do let _ ← set_trading_mode body

/-! ## One intent -/

section Intent

variable (job_id : Uuid) (intent : TradeIntent)

/-- The gate of a thread is not open: it has not come to the adapter, and what
it has seen keeps it from there. -/
def KeptShut : Gate → Prop
  | .locked seen => self.Shut job_id intent seen
  | .submitted => False
  | _ => True

/-- A gate that has read no control key is shut. -/
theorem shut_of_nothing_read {seen : Seen} (h : seen.clear = []) :
    self.Shut job_id intent seen :=
  Or.inl ⟨_, List.mem_cons_self, by rw [h]; exact List.not_mem_nil⟩

/-- A shut gate lets no call of the adapter pass. -/
theorem not_submit_of_shut {g : Gate} {c : Cmd} (hg : self.KeptShut job_id intent g)
    (ha : (self.gate sha256 job_id intent).allows g c) : c.isSubmit = false := by
  cases c with
  | submit request client_order_id =>
    cases g with
    | start => exact absurd ha id
    | refused => exact absurd ha id
    | submitted => exact absurd ha id
    | locked seen =>
      obtain ⟨hreq, -, hall, hpass⟩ := ha
      rcases hg with ⟨k, hk, hnot⟩ | hchecks
      · exact absurd (hall k hk) hnot
      · exact absurd hpass (hchecks request hreq)
  | redis _ | repo _ | post_order _ | time_ms => rfl

/-- A call keeps a gate shut, unless it reads a control key as absent. -/
theorem shut_step {g : Gate} {c : Cmd} (hg : self.KeptShut job_id intent g)
    (ha : (self.gate sha256 job_id intent).allows g c) (r : Except PyErr (Ans c))
    (hread : ∀ seen k, g = .locked seen → c = .redis (.exists k) → HEq r (.ok false : Except PyErr Bool) →
      self.Shut job_id intent { seen with clear := seen.clear ++ [k] }) :
    self.KeptShut job_id intent ((self.gate sha256 job_id intent).next g c r) := by
  have hsub := self.not_submit_of_shut sha256 job_id intent hg ha
  cases g with
  | start =>
    cases c with
    | redis c =>
      cases c with
      | set key v nx ex =>
        rcases r with e | b
        · trivial
        · cases b with
          | false => trivial
          | true => exact self.shut_of_nothing_read job_id intent rfl
      | get _ | «exists» _ | delete _ | ttl _ | xadd _ _ | xack _ _ _ => exact absurd ha id
    | repo _ | submit _ _ | post_order _ | time_ms => exact absurd ha id
  | refused =>
    cases c with
    | redis c => cases c <;> trivial
    | repo c => cases c <;> trivial
    | submit _ _ | post_order _ | time_ms => trivial
  | submitted => exact absurd hg id
  | locked seen =>
    cases c with
    | redis c =>
      cases c with
      | «exists» k =>
        rcases r with e | b
        · exact hg
        · cases b with
          | true => exact hg
          | false => exact hread seen k rfl rfl HEq.rfl
      | set _ _ _ _ | get _ | delete _ | ttl _ | xadd _ _ | xack _ _ _ => exact hg
    | repo c =>
      cases c with
      | select_account _ => exact self.shut_of_nothing_read job_id intent ha
      | get_daily_realized_loss_usd _ =>
        rcases r with e | loss
        · exact hg
        · exact self.shut_of_nothing_read job_id intent ha
      | get_open_positions_count _ =>
        rcases r with e | n
        · exact hg
        · exact self.shut_of_nothing_read job_id intent ha
      | _ => exact hg
    | submit _ _ => cases hsub
    | post_order _ | time_ms => exact hg

end Intent

/-! ## Every interleaving -/

section Run

variable {self sha256} {requests : List TradingModeRequest} {entries : List (Uuid × IntentEntry)}
  {job_id : Uuid} {msg_id : String} {intent : TradeIntent} {i : Nat}

/-- Thread `i` handles its intent as the gate says, and when it started under
the emergency stop its gate is shut and it has not called the adapter. -/
structure Halted (consumer : ExecutionConsumer) (sha256 : String → String)
    (requests : List TradingModeRequest) (entries : List (Uuid × IntentEntry)) (job_id : Uuid)
    (intent : TradeIntent) (i : Nat) (cfg : Config World PyErr Cmd Ans Unit) : Prop where
  obeys : ∀ p, cfg.threads[i]? = some p →
    Obeys (consumer.gate sha256 job_id intent) (consumer.gateOf sha256 job_id intent cfg i) p
      fun _ _ => True
  shut : startedInStop (mode_of entries.length requests) cfg.trace i = true →
    consumer.KeptShut job_id intent (consumer.gateOf sha256 job_id intent cfg i) ∧
      ∀ e ∈ cfg.log i, e.call.isSubmit = false

theorem exists_of_log {cfg : Config World PyErr Cmd Ans Unit} (h : cfg.log i ≠ []) :
    ∃ x ∈ cfg.trace, x.1 = i := by
  obtain ⟨e, he⟩ := List.exists_mem_of_ne_nil _ h
  obtain ⟨x, hx, -⟩ := List.mem_map.mp he
  obtain ⟨hx, hi⟩ := List.mem_filter.mp hx
  exact ⟨x, hx, of_decide_eq_true hi⟩

theorem halted_step (hentry : entries[i]? = some (job_id, ⟨msg_id, .valid intent⟩))
    {cfg : Config World PyErr Cmd Ans Unit} {a : Act Choice}
    (h : Halted self sha256 requests entries job_id intent i cfg)
    (hc : self.StoppedOtherwise sha256 requests entries cfg a) :
    Halted self sha256 requests entries job_id intent i (cfg.step World.exec a) := by
  rcases Config.step_thread World.exec cfg a i with ⟨hlog, hthread⟩ | ⟨hi, c, k, hk, htrace, hlog, hthread⟩
  · have hgate : self.gateOf sha256 job_id intent (cfg.step World.exec a) i =
        self.gateOf sha256 job_id intent cfg i := by
      unfold gateOf
      rw [hlog]
    refine ⟨fun p hp => ?_, fun hstop => ?_⟩
    · rw [hthread] at hp
      rw [hgate]
      exact h.obeys p hp
    · rw [hgate, hlog]
      by_cases hstarted : cfg.log i = []
      · -- the thread has not started: nothing is seen yet
        unfold gateOf
        rw [hstarted]
        exact ⟨trivial, fun e he => absurd he List.not_mem_nil⟩
      · apply h.shut
        obtain ⟨more, hmore⟩ : ∃ more, (cfg.step World.exec a).trace = cfg.trace ++ more := by
          rcases Config.step_cases World.exec cfg a with he | ⟨c, k, -, he⟩
          · exact ⟨[], by rw [he, List.append_nil]⟩
          · exact ⟨_, by rw [he]⟩
        rw [hmore, startedInStop_append (exists_of_log hstarted)] at hstop
        exact hstop
  · subst hi
    obtain ⟨hallowed, hrest⟩ := (obeys_call c k _).mp (h.obeys _ hk)
    have hgate : self.gateOf sha256 job_id intent (cfg.step World.exec a) a.thread =
        (self.gate sha256 job_id intent).next (self.gateOf sha256 job_id intent cfg a.thread) c
          (World.exec cfg.shared c a.choice).1 := by
      unfold gateOf Protocol.after
      rw [hlog, List.foldl_append]
      rfl
    refine ⟨fun p hp => ?_, fun hstop => ?_⟩
    · rw [hthread] at hp
      cases hp
      rw [hgate]
      exact hrest _
    · rw [htrace, startedInStop_own] at hstop
      obtain ⟨hshut, hno⟩ := h.shut hstop
      rw [hgate, hlog]
      refine ⟨self.shut_step sha256 job_id intent hshut hallowed _ ?_, fun e he => ?_⟩
      · rintro seen key hseen rfl hr
        -- the key was absent, so the gate is shut otherwise
        unfold StoppedOtherwise at hc
        rw [hentry] at hc
        have hc' := hc hstop
        rw [hk, hseen] at hc'
        rcases hc' with hlive | hshut'
        · rw [World.absent_of_exists (eq_of_heq hr)] at hlive
          cases hlive
        · exact hshut'
      · rcases List.mem_append.mp he with he | he
        · exact hno e he
        · obtain rfl := List.mem_singleton.mp he
          exact self.not_submit_of_shut sha256 job_id intent hshut hallowed

/-- For every interleaving of mode changes with the handling of any intents,
with any failures: while each intent that starts under the emergency stop is
shut out by another gate, none of them is submitted. -/
theorem no_intent_of_a_stop_is_submitted (self : ExecutionConsumer) (sha256 : String → String)
    (hadapter : self.adapter = some_adapter) (requests : List TradingModeRequest)
    (entries : List (Uuid × IntentEntry)) (w : World) (acts : List (Act Choice))
    (hc : (Config.start w (self.stop_threads sha256 entries requests)).Along World.exec
      (self.StoppedOtherwise sha256 requests entries) acts) :
    let cfg := (Config.start w (self.stop_threads sha256 entries requests)).run World.exec acts
    ∀ i < entries.length,
      startedInStop (mode_of entries.length requests) cfg.trace i = true →
        ∀ e ∈ cfg.log i, e.call.isSubmit = false := by
  intro cfg i hi hstop
  obtain ⟨⟨job_id, msg_id, field⟩, hentry⟩ : ∃ e, entries[i] = e := ⟨_, rfl⟩
  have hget : entries[i]? = some (job_id, ⟨msg_id, field⟩) := by
    rw [List.getElem?_eq_getElem hi, hentry]
  have hthread : (Config.start w (self.stop_threads sha256 entries requests)).threads[i]? =
      some (self.process sha256 job_id ⟨msg_id, field⟩) := by
    show (self.stop_threads sha256 entries requests)[i]? = _
    unfold stop_threads
    rw [List.getElem?_append_left (by simpa using hi), List.getElem?_map, hget]
    rfl
  have hack : (self.ack msg_id).Calls Cmd.reports := self.ack_calls msg_id
  have hreports : ∀ p : Py Unit, p.Calls Cmd.reports →
      (Config.start w (self.stop_threads sha256 entries requests)).threads[i]? = some p →
        ∀ e ∈ cfg.log i, e.call.isSubmit = false := by
    intro p hp hthread e he
    have hcall := Config.run_calls World.exec (A := Cmd.reports) (i := i)
      (fun q hq => by rw [hthread] at hq; cases hq; exact hp)
      (fun e he => absurd he List.not_mem_nil) acts e he
    cases hc : e.call with
    | submit _ _ =>
      rw [hc] at hcall
      exact absurd hcall id
    | redis _ | repo _ | post_order _ | time_ms => rfl
  cases field with
  | empty => exact hreports _ hack hthread
  | malformed => exact hreports _ hack hthread
  | valid intent =>
    have hstart : Halted self sha256 requests entries job_id intent i
        (Config.start w (self.stop_threads sha256 entries requests)) := by
      refine ⟨fun p hp => ?_, fun _ => ⟨trivial, fun e he => absurd he List.not_mem_nil⟩⟩
      rw [hthread] at hp
      cases hp
      exact self.process_keeps_to_the_gate sha256 job_id intent hadapter msg_id
    have hend := Config.run_keeps_along
      (fun _ _ h hc => halted_step hget h hc) hstart hc
    exact (hend.shut hstop).2

end Run

/-! ## A submission under the emergency stop -/

def demo_stop : TradingModeRequest := { mode := "emergency_stop", reason := "incident" }

/-- The consumer's intent, picked up once. -/
def demo_pickup : Uuid × IntentEntry := ("j1", ⟨"1-0", .valid demo_intent⟩)

/-- `n` steps of thread `i` in which nothing fails and an adapter fills. -/
def filled_steps (i n : Nat) : List (Act Choice) := List.replicate n ⟨i, demo_filled⟩

/-- The emergency stop is set. Then an intent is picked up, and submitted. -/
theorem an_intent_is_submitted_under_the_stop :
    let cfg := (Config.start demo_world
      (demo_consumer.stop_threads id [demo_pickup] [demo_stop])).run World.exec
        (filled_steps 1 3 ++ filled_steps 0 40)
    startedInStop (mode_of 1 [demo_stop]) cfg.trace 0 = true ∧
      ∃ e ∈ cfg.log 0, e.call.isSubmit = true := by
  decide +kernel

/-- The same with the kill switch of the account set. -/
theorem no_intent_of_a_stop_is_submitted_under_the_kill_switch :
    let w := (demo_world.after (onRedis (KillSwitchControl.activate demo_account 3600)))
    let cfg := (Config.start w
      (demo_consumer.stop_threads id [demo_pickup] [demo_stop])).run World.exec
        (filled_steps 1 3 ++ filled_steps 0 40)
    ∀ i < 1, startedInStop (mode_of 1 [demo_stop]) cfg.trace i = true →
      ∀ e ∈ cfg.log i, e.call.isSubmit = false :=
  no_intent_of_a_stop_is_submitted demo_consumer id rfl [demo_stop] [demo_pickup] _ _
    (by decide +kernel)

end ExecutionConsumer

end trading_platform.execution
