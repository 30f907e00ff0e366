-- The gates in front of a real order. An order reaches the exchange only when
-- live trading is on, its account and its symbol are listed, and the notional
-- that the gate was told is within the cap.
import TradingPlatform.Execution.LiveAdapter
import TradingPlatform.Execution.IntentOnce

open resumption
open trading_platform.shared

namespace trading_platform.execution

namespace LiveExecutionAdapter

variable (self : LiveExecutionAdapter) (upper : String → String) (request : ExecutionRequest)
  (client_order_id : String)

/-! ## What the adapter calls -/

/-- The adapter posts one order at most, and only an order of the request that
the policy allowed. The ghost state says whether it was posted. -/
def sending : Protocol PyErr Cmd Ans Bool where
  allows posted c := match c with
    | .post_order params =>
      posted = false ∧ (self.policy_result upper request).allowed = true ∧
        ∃ timestamp, params = self.order_params request client_order_id timestamp
    | .submit .. => False
    | _ => True
  next posted c _ := match c with
    | .post_order _ => true
    | _ => posted

theorem log_policy_block_sends_nothing (result : PolicyResult) :
    Obeys (self.sending upper request client_order_id) false
      (self.log_policy_block request client_order_id result) fun _ posted => posted = false := by
  unfold log_policy_block
  rw [obeys_ite]
  refine ⟨fun _ => ?_, fun _ => rfl⟩
  unfold log_incident repo
  rw [obeys_swallow, obeys_perform]
  exact ⟨trivial, fun _ => rfl⟩

theorem submit_keeps_to_sending :
    Obeys (self.sending upper request client_order_id) false
      (self.submit upper request client_order_id) fun _ _ => True := by
  unfold submit
  dsimp only
  rw [obeys_ite]
  refine ⟨fun _ => ?_, fun hallowed => ?_⟩
  · -- a blocked order, or a dry run: one incident
    refine obeys_bind_of (self.log_policy_block_sends_nothing upper request client_order_id _)
      (fun _ _ _ => ?_) fun _ _ _ => trivial
    trivial
  · rw [obeys_ite]
    refine ⟨fun _ => trivial, fun _ => ?_⟩
    unfold submit_to_exchange
    rw [obeys_bind, obeys_perform]
    refine ⟨trivial, fun r => ?_⟩
    cases r with
    | error e => trivial
    | ok timestamp =>
      dsimp only
      rw [obeys_bind, obeys_attempt, obeys_bind, obeys_perform]
      refine ⟨⟨rfl, not_not.mp hallowed, timestamp, rfl⟩, fun r => ?_⟩
      cases r with
      | error e => trivial
      | ok resp =>
        dsimp only
        cases read_reply client_order_id resp <;> trivial

/-! ## What reaches the exchange -/

/-- An order of the request that passed the gates as they are. The fourth gate
is about the notional that it was told. -/
structure Gated (params : OrderParams) : Prop where
  enabled : self.policy.enabled = true
  account : request.account_id ∈ self.policy.account_allowlist
  symbol : upper request.trade_intent.symbol ∈ self.policy.symbol_allowlist
  told : ∀ n ∈ notional request.trade_intent, n ≤ self.policy.max_notional
  /-- The notional of the order that is sent, unless `size_usd` is below it. -/
  sent : ∀ price ∈ params.price, (∀ u ∈ request.trade_intent.size_usd, params.quantity * price ≤ u) →
    params.quantity * price ≤ self.policy.max_notional

theorem gated_of_allowed (h : (self.policy_result upper request).allowed = true)
    (timestamp : Nat) :
    self.Gated upper request (self.order_params request client_order_id timestamp) := by
  unfold policy_result at h
  rw [LiveTradingPolicy.evaluate_allowed] at h
  obtain ⟨-, henabled, haccount, hsymbol, htold⟩ := h
  refine ⟨henabled, haccount, hsymbol, htold, ?_⟩
  intro price hprice hcovered
  have hlimit : request.trade_intent.limit_price = some price := hprice
  show request.trade_intent.size * price ≤ self.policy.max_notional
  cases husd : request.trade_intent.size_usd with
  | none =>
    apply htold
    unfold notional
    rw [husd, hlimit]
    rfl
  | some u =>
    -- the gate was told `u`, and the order is within `u`
    have hu : u ≤ self.policy.max_notional := by
      apply htold
      unfold notional
      rw [husd]
      rfl
    exact (hcovered u husd).trans hu

/-- A call of something other than the exchange sends nothing. -/
theorem exec_exchange (w : World) (c : Cmd) (o : Choice) :
    (w.exec c o).2.exchange = w.exchange ∨
      ∃ params, c = .post_order params ∧ (w.exec c o).2.exchange = w.exchange ++ [params] := by
  have hcalled : (w.called c).exchange = w.exchange := by cases c <;> rfl
  have heff : ((w.called c).effect o c).2.exchange = w.exchange ∨
      ∃ params, c = .post_order params ∧
        ((w.called c).effect o c).2.exchange = w.exchange ++ [params] := by
    cases c with
    | repo c =>
      left
      simp only [World.effect, World.called]
      split <;> rfl
    | post_order params => exact Or.inr ⟨params, rfl, rfl⟩
    | redis _ | submit _ _ | time_ms => exact Or.inl rfl
  unfold World.exec
  cases o.faultOf c with
  | none => exact heff
  | before e => exact Or.inl hcalled
  | after e => exact heff

/-- Nothing is sent yet, or one order of which `P` holds: every call of the
adapter keeps this. -/
theorem posted_step {P : OrderParams → Prop}
    (hP : ∀ timestamp, (self.policy_result upper request).allowed = true →
      P (self.order_params request client_order_id timestamp))
    {before : List OrderParams} {w : World} {posted : Bool} {c : Cmd} (o : Choice)
    (h : w.exchange = before ∨
      posted = true ∧ ∃ params, w.exchange = before ++ [params] ∧ P params)
    (ha : (self.sending upper request client_order_id).allows posted c) :
    let w' := (w.exec c o).2
    w'.exchange = before ∨
      (self.sending upper request client_order_id).next posted c (w.exec c o).1 = true ∧
        ∃ params, w'.exchange = before ++ [params] ∧ P params := by
  rcases exec_exchange w c o with he | ⟨params, rfl, he⟩
  · rcases h with h | ⟨hposted, params, h, hp⟩
    · exact Or.inl (he.trans h)
    · refine Or.inr ⟨?_, params, he.trans h, hp⟩
      subst hposted
      cases c <;> rfl
  · obtain ⟨hposted, hallowed, timestamp, rfl⟩ := ha
    subst hposted
    rcases h with h | ⟨h, -⟩
    · refine Or.inr ⟨rfl, _, ?_, hP timestamp hallowed⟩
      rw [he, h]
    · cases h

/-- What was sent so far: nothing yet, or one order that passed the gates. -/
def Sent (before : List OrderParams) (w : World) (posted : Bool) : Prop :=
  w.exchange = before ∨
    posted = true ∧ ∃ params, w.exchange = before ++ [params] ∧ self.Gated upper request params

theorem sent_step {before : List OrderParams} {w : World} {posted : Bool} {c : Cmd} (o : Choice)
    (h : self.Sent upper request before w posted)
    (ha : (self.sending upper request client_order_id).allows posted c) :
    self.Sent upper request before (w.exec c o).2
      ((self.sending upper request client_order_id).next posted c (w.exec c o).1) :=
  self.posted_step upper request client_order_id
    (fun timestamp hallowed => self.gated_of_allowed upper request client_order_id hallowed timestamp)
    o h ha

/-- For every policy, every request and whatever the environment does: `submit`
sends nothing, or one order that passed the gates. -/
theorem sent_orders_are_gated (w : World) (os : List Choice) :
    let sent := (w.run (self.submit upper request client_order_id) os).2.1.exchange
    sent = w.exchange ∨
      ∃ params, sent = w.exchange ++ [params] ∧ self.Gated upper request params := by
  obtain ⟨posted, hsent, -⟩ := resumption.run_keeps World.exec .idle
    (I := fun w' posted => self.Sent upper request w.exchange w' posted)
    (fun w' posted c o h ha => self.sent_step upper request client_order_id o h ha)
    w os (self.submit_keeps_to_sending upper request client_order_id) (Or.inl rfl)
  rcases hsent with h | ⟨-, h⟩
  · exact Or.inl h
  · exact Or.inr h

/-! ## An order that the fourth gate knows nothing of -/

/-- The notional of the order that is sent is within a cap: its quantity times
its limit price, or without a limit price the notional that the gate knew. -/
def WithinCap (cap : ℚ) (intent : TradeIntent) (params : OrderParams) : Prop :=
  match params.price, notional intent with
  | some price, _ => params.quantity * price ≤ cap
  | none, some n => n ≤ cap
  | none, none => False

instance (cap : ℚ) (intent : TradeIntent) (params : OrderParams) :
    Decidable (WithinCap cap intent params) := by
  unfold WithinCap
  split <;> infer_instance

def demo_live : LiveExecutionAdapter where
  policy := .init id true (some [demo_account]) (some [" BTCUSDT"]) 100
  sign _ := ""

def demo_request (intent : TradeIntent) : ExecutionRequest where
  job_id := "j1"
  trade_intent := intent
  user_id := "u"
  account_id := demo_account
  trading_mode := .live
  approval_level := .l3_assisted_live

/-- A market order of 1 without `size_usd` passes under a cap of 100: the gate
has no notional to compare. -/
theorem a_market_order_is_sent_without_a_notional :
    let sent := (demo_world.after (demo_live.submit id (demo_request demo_intent) "c")).exchange
    ∃ params ∈ sent, ¬ WithinCap demo_live.policy.max_notional demo_intent params := by
  decide +kernel

end LiveExecutionAdapter

end trading_platform.execution
