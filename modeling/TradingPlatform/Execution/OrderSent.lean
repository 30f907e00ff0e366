-- The order that goes to the exchange, next to the intent that it was built
-- from. The market, `reduce_only` and the time in force of the intent stay
-- behind, and the order row tells them all the same.
import TradingPlatform.Execution.LiveGate
import TradingPlatform.Execution.FillLedger

open resumption
open trading_platform.shared

namespace trading_platform.execution

/-! ## What is on the wire -/

inductive ParamValue where
  | text (s : String)
  | decimal (q : ℚ)
  | int (n : Nat)
  deriving DecidableEq

/-- `params`, in the order in which the code fills it. -/
def OrderParams.items (params : OrderParams) : List (String × ParamValue) :=
  [("symbol", .text params.symbol),
   ("side", .text params.side),
   ("type", .text params.type),
   ("quantity", .decimal params.quantity),
   ("newClientOrderId", .text params.newClientOrderId),
   ("timestamp", .int params.timestamp),
   ("recvWindow", .int params.recvWindow)] ++
  (params.price.map fun price => ("price", .decimal price)).toList ++
  (params.timeInForce.map fun tif => ("timeInForce", .text tif)).toList ++
  [("signature", .text params.signature)]

/-- What differs from one submission of an order to the next. -/
def perSubmission : List String := ["newClientOrderId", "timestamp", "signature"]

/-- A `POST` to the exchange, without what differs per submission. -/
structure SentOrder where
  endpoint : String
  params : List (String × ParamValue)
  deriving DecidableEq

def OrderParams.sent (params : OrderParams) : SentOrder where
  endpoint := "/api/v3/order"
  params := params.items.filter (·.1 ∉ perSubmission)

namespace SentOrder

variable (order : SentOrder)

def param (key : String) : Option ParamValue := order.params.lookup key

/-- The market of an endpoint. The futures API is below `/fapi`. -/
def market_type : MarketType :=
  if "/fapi/".toList.isPrefixOf order.endpoint.toList then .futures else .spot

def reduce_only : Bool := order.param "reduceOnly" = some (.text "true")

end SentOrder

/-- The order row says of the order what was sent. An order that is sent
without a time in force has none to compare. -/
structure Order.TellsOf (row : Order) (order : SentOrder) : Prop where
  market_type : row.market_type = order.market_type.value
  time_in_force : ∀ tif ∈ order.param "timeInForce", tif = .text row.time_in_force
  reduce_only : row.reduce_only = order.reduce_only

/-! ## The order of an intent -/

/-- The order that the adapter builds from an intent. -/
def sent_order (intent : TradeIntent) : SentOrder where
  endpoint := "/api/v3/order"
  params :=
    [("symbol", .text intent.symbol),
     ("side", .text intent.side.value),
     ("type", .text intent.order_type.value),
     ("quantity", .decimal intent.size),
     ("recvWindow", .int 5000)] ++
    match intent.limit_price with
    | some price => [("price", .decimal price), ("timeInForce", .text "GTC")]
    | none => []

theorem side_value_inj {a b : OrderSide} (h : a.value = b.value) : a = b := by
  revert h
  cases a <;> cases b <;> decide

theorem order_type_value_inj {a b : shared.OrderType} (h : a.value = b.value) : a = b := by
  revert h
  cases a <;> cases b <;> decide

/-- The fields that reach the wire. -/
structure SameOrder (a b : TradeIntent) : Prop where
  symbol : a.symbol = b.symbol
  side : a.side = b.side
  order_type : a.order_type = b.order_type
  size : a.size = b.size
  limit_price : a.limit_price = b.limit_price

/-- Two intents are sent as one order exactly when these fields agree. -/
theorem sent_order_eq_iff {a b : TradeIntent} : sent_order a = sent_order b ↔ SameOrder a b := by
  constructor
  · intro h
    have hparams : (sent_order a).params = (sent_order b).params := congrArg SentOrder.params h
    unfold sent_order at hparams
    dsimp only at hparams
    simp only [List.cons_append, List.nil_append, List.cons.injEq, Prod.mk.injEq, true_and,
      ParamValue.text.injEq, ParamValue.decimal.injEq] at hparams
    obtain ⟨hsymbol, hside, htype, hsize, hprice⟩ := hparams
    refine ⟨hsymbol, side_value_inj hside, order_type_value_inj htype, hsize, ?_⟩
    cases ha : a.limit_price with
    | none =>
      cases hb : b.limit_price with
      | none => rfl
      | some q => simp [ha, hb] at hprice
    | some p =>
      cases hb : b.limit_price with
      | none => simp [ha, hb] at hprice
      | some q =>
        simp only [ha, hb, List.cons.injEq, Prod.mk.injEq, ParamValue.decimal.injEq, true_and,
          and_true] at hprice
        rw [hprice]
  · rintro ⟨hsymbol, hside, htype, hsize, hprice⟩
    unfold sent_order
    rw [hsymbol, hside, htype, hsize, hprice]

theorem sent_order_market_type (intent : TradeIntent) :
    (sent_order intent).market_type = .spot := by
  show (if "/fapi/".toList.isPrefixOf "/api/v3/order".toList then _ else _) = MarketType.spot
  decide +kernel

theorem sent_order_reduce_only (intent : TradeIntent) : (sent_order intent).reduce_only = false := by
  unfold SentOrder.reduce_only SentOrder.param sent_order
  cases intent.limit_price <;> rfl

theorem sent_order_time_in_force (intent : TradeIntent) :
    (sent_order intent).param "timeInForce" = intent.limit_price.map fun _ => .text "GTC" := by
  unfold SentOrder.param sent_order
  cases intent.limit_price <;> rfl

/-! ## What the adapter sends -/

namespace LiveExecutionAdapter

variable (self : LiveExecutionAdapter) (upper : String → String)
  (request request' : ExecutionRequest) (client_order_id : String)

theorem order_params_sent (timestamp : Nat) :
    (self.order_params request client_order_id timestamp).sent =
      sent_order request.trade_intent := by
  unfold OrderParams.sent OrderParams.items order_params sent_order perSubmission
  cases h : request.trade_intent.limit_price <;> simp [h]

/-- The orders that a run of `submit` puts on the wire. -/
def posted (w : World) (os : List Choice) : List SentOrder :=
  ((w.run (self.submit upper request client_order_id) os).2.1.exchange.drop
    w.exchange.length).map OrderParams.sent

/-- Whatever the environment does, a run sends nothing, or the order of the
intent and nothing else. -/
theorem posted_cases (w : World) (os : List Choice) :
    self.posted upper request client_order_id w os = [] ∨
      self.posted upper request client_order_id w os = [sent_order request.trade_intent] := by
  obtain ⟨posted, hsent, -⟩ := resumption.run_keeps World.exec .idle
    (I := fun w' posted => w'.exchange = w.exchange ∨ posted = true ∧
      ∃ params, w'.exchange = w.exchange ++ [params] ∧
        params.sent = sent_order request.trade_intent)
    (fun w' posted c o h ha => self.posted_step upper request client_order_id
      (P := fun params => params.sent = sent_order request.trade_intent)
      (fun timestamp _ => self.order_params_sent request client_order_id timestamp) o h ha)
    w os (self.submit_keeps_to_sending upper request client_order_id) (Or.inl rfl)
  unfold LiveExecutionAdapter.posted World.run
  rcases hsent with h | ⟨-, params, h, hparams⟩
  · left
    rw [h, List.drop_length]
    rfl
  · right
    rw [h, List.drop_left]
    show [params.sent] = _
    rw [hparams]

/-- An allowed order is sent when nothing fails. -/
theorem posted_idle (hallowed : (self.policy_result upper request).allowed = true) (w : World) :
    self.posted upper request client_order_id w [] = [sent_order request.trade_intent] := by
  have hdry : dry_run request.trade_intent = false := by
    unfold policy_result at hallowed
    rw [LiveTradingPolicy.evaluate_allowed] at hallowed
    exact hallowed.1
  have hsubmit : self.submit upper request client_order_id =
      self.submit_to_exchange request client_order_id := by
    unfold submit
    dsimp only
    rw [if_neg (by rw [hallowed]; decide), if_neg (by rw [hdry]; decide)]
  have hexchange : (w.run (self.submit upper request client_order_id) []).2.1.exchange =
      w.exchange ++ [self.order_params request client_order_id w.now] := by
    rw [hsubmit]
    show Alone World.exec .idle w _ fun _ w' => w'.exchange = _
    unfold submit_to_exchange
    rw [alone_bind, alone_perform]
    show Alone World.exec .idle _ (_ >>= _) _
    rw [alone_bind, alone_attempt, alone_bind, alone_perform]
    -- the order is out, and whatever is read of the answer calls nothing
    show Alone World.exec .idle _ (Prog.ofExcept (read_reply client_order_id _)) _
    cases read_reply client_order_id Choice.idle.http <;> rfl
  unfold posted
  rw [hexchange, List.drop_left]
  show [(self.order_params request client_order_id w.now).sent] = _
  rw [order_params_sent]

/-- An order that the adapter may send for a request. -/
def MaySend (order : SentOrder) : Prop :=
  ∃ client_order_id w os, order ∈ self.posted upper request client_order_id w os

theorem maySend_iff (hallowed : (self.policy_result upper request).allowed = true)
    (order : SentOrder) :
    self.MaySend upper request order ↔ order = sent_order request.trade_intent := by
  constructor
  · rintro ⟨client_order_id, w, os, horder⟩
    rcases self.posted_cases upper request client_order_id w os with h | h
    · rw [h] at horder
      cases horder
    · rw [h] at horder
      exact List.mem_singleton.mp horder
  · intro horder
    refine ⟨"", .empty, [], ?_⟩
    rw [self.posted_idle upper request "" hallowed]
    exact List.mem_singleton.mpr horder

/-! ## The order that is sent is the intent -/

/-- The intents differ in what an order is about. -/
def TradesDiffer (a b : TradeIntent) : Prop :=
  a.symbol ≠ b.symbol ∨ a.market_type ≠ b.market_type ∨ a.side ≠ b.side ∨
    a.order_type ≠ b.order_type ∨ a.size ≠ b.size ∨ a.limit_price ≠ b.limit_price ∨
    a.reduce_only ≠ b.reduce_only ∨
    a.limit_price.isSome ∧ b.limit_price.isSome ∧ a.time_in_force ≠ b.time_in_force

/-- Intents that differ are sent as orders that differ. -/
def SentApart : Prop :=
  TradesDiffer request.trade_intent request'.trade_intent →
    ∀ order order', self.MaySend upper request order → self.MaySend upper request' order' →
      order ≠ order'

/-- The row is about the order that is sent. -/
def StoredAsSent (row : Order) : Prop :=
  ∀ order, self.MaySend upper request order → row.TellsOf order

/-- The fields that stay behind agree. -/
structure SameRest (a b : TradeIntent) : Prop where
  market_type : a.market_type = b.market_type
  reduce_only : a.reduce_only = b.reduce_only
  time_in_force : a.limit_price.isSome → a.time_in_force = b.time_in_force

/-- A spot order that may open a position, and a limit order only until it is
cancelled. -/
structure PlainSpot (intent : TradeIntent) : Prop where
  market_type : intent.market_type = .spot
  reduce_only : intent.reduce_only = false
  time_in_force : intent.limit_price.isSome → intent.time_in_force = .GTC

theorem sentApart_iff (hallowed : (self.policy_result upper request).allowed = true)
    (hallowed' : (self.policy_result upper request').allowed = true) :
    self.SentApart upper request request' ↔
      (SameOrder request.trade_intent request'.trade_intent →
        SameRest request.trade_intent request'.trade_intent) := by
  unfold SentApart
  constructor
  · intro hapart hsame
    -- the two orders are one, so nothing that trades differ in may differ
    have hagree : ¬ TradesDiffer request.trade_intent request'.trade_intent := by
      intro hdiffer
      refine hapart hdiffer _ _ ((self.maySend_iff upper request hallowed _).mpr rfl)
        ((self.maySend_iff upper request' hallowed' _).mpr rfl) ?_
      exact sent_order_eq_iff.mpr hsame
    simp only [TradesDiffer, not_or, not_not, not_and] at hagree
    obtain ⟨-, hmarket, -, -, -, -, hreduce, htif⟩ := hagree
    refine ⟨hmarket, hreduce, ?_⟩
    intro hlimit
    apply htif hlimit
    rw [← hsame.limit_price]
    exact hlimit
  · intro hrest hdiffer order order' horder horder' heq
    rw [(self.maySend_iff upper request hallowed order).mp horder,
      (self.maySend_iff upper request' hallowed' order').mp horder'] at heq
    have hsame := sent_order_eq_iff.mp heq
    obtain ⟨hmarket, hreduce, htif⟩ := hrest hsame
    rcases hdiffer with h | h | h | h | h | h | h | ⟨hlimit, -, h⟩
    · exact h hsame.symbol
    · exact h hmarket
    · exact h hsame.side
    · exact h hsame.order_type
    · exact h hsame.size
    · exact h hsame.limit_price
    · exact h hreduce
    · exact h (htif hlimit)

theorem stored_of_create {now : Nat} {job_id : Uuid} {response : AdapterResponse} {db db' : Db}
    {order_id : Nat}
    (h : create_order now job_id request client_order_id response db = .ok (order_id, db')) :
    ∃ row, db'.orders = db.orders ++ [row] ∧
      row.market_type = request.trade_intent.market_type.value ∧
      row.reduce_only = request.trade_intent.reduce_only ∧
      row.time_in_force = request.trade_intent.time_in_force.value := by
  unfold create_order at h
  split at h
  · cases h
  · split at h
    · cases h
    · split at h
      · cases h
      · cases h
        exact ⟨_, rfl, rfl, rfl, rfl⟩

theorem market_type_value_inj {a b : MarketType} (h : a.value = b.value) : a = b := by
  revert h
  cases a <;> cases b <;> decide

theorem time_in_force_value_inj {a b : TimeInForce} (h : a.value = b.value) : a = b := by
  revert h
  cases a <;> cases b <;> decide

/-- A row with the values of the intent tells of the order that is sent exactly
when the intent is a plain spot order. -/
theorem tellsOf_iff {intent : TradeIntent} {row : Order}
    (hmarket : row.market_type = intent.market_type.value)
    (hreduce : row.reduce_only = intent.reduce_only)
    (htif : row.time_in_force = intent.time_in_force.value) :
    row.TellsOf (sent_order intent) ↔ PlainSpot intent := by
  constructor
  · rintro ⟨h1, h2, h3⟩
    rw [hmarket, sent_order_market_type] at h1
    rw [hreduce, sent_order_reduce_only] at h3
    refine ⟨market_type_value_inj h1, h3, ?_⟩
    intro hlimit
    obtain ⟨price, hprice⟩ := Option.isSome_iff_exists.mp hlimit
    have hsent := h2 (.text "GTC") (by rw [sent_order_time_in_force, hprice]; rfl)
    rw [htif] at hsent
    exact time_in_force_value_inj (ParamValue.text.inj hsent).symm
  · rintro ⟨h1, h2, h3⟩
    refine ⟨?_, ?_, ?_⟩
    · rw [hmarket, sent_order_market_type, h1]
    · intro tif hsent
      rw [sent_order_time_in_force] at hsent
      cases hlimit : intent.limit_price with
      | none =>
        rw [hlimit] at hsent
        cases hsent
      | some price =>
        rw [hlimit] at hsent
        obtain rfl : ParamValue.text "GTC" = tif := by simpa using hsent
        rw [htif, h3 (by rw [hlimit]; rfl)]
        rfl
    · rw [hreduce, h2, sent_order_reduce_only]

/-- For every two requests that the adapter may submit, and the order row of
the first one: orders of intents that differ, differ, and the row is about the
order that is sent, exactly when the intents do not differ in the market, in
`reduce_only` or in the time in force alone, and the stored one is a plain spot
order. -/
theorem sent_order_is_the_intent_iff
    (hallowed : (self.policy_result upper request).allowed = true)
    (hallowed' : (self.policy_result upper request').allowed = true)
    {now : Nat} {job_id : Uuid} {response : AdapterResponse} {db db' : Db} {order_id : Nat}
    (hcreate : create_order now job_id request client_order_id response db = .ok (order_id, db')) :
    (self.SentApart upper request request' ∧
        ∃ row, db'.orders = db.orders ++ [row] ∧ self.StoredAsSent upper request row) ↔
      (SameOrder request.trade_intent request'.trade_intent →
          SameRest request.trade_intent request'.trade_intent) ∧
        PlainSpot request.trade_intent := by
  rw [self.sentApart_iff upper request request' hallowed hallowed']
  refine and_congr_right fun _ => ?_
  obtain ⟨row, hrow, hmarket, hreduce, htif⟩ := stored_of_create request client_order_id hcreate
  rw [← tellsOf_iff hmarket hreduce htif]
  constructor
  · rintro ⟨row', hrow', hstored⟩
    rw [hrow] at hrow'
    obtain rfl : row = row' := by simpa using hrow'
    exact hstored _ ((self.maySend_iff upper request hallowed _).mpr rfl)
  · intro htells
    refine ⟨row, hrow, ?_⟩
    intro order horder
    rw [(self.maySend_iff upper request hallowed order).mp horder]
    exact htells

/-- A futures order that may only close a position. -/
def demo_close : TradeIntent :=
  { demo_intent with market_type := .futures, side := .sell, reduce_only := true }

/-- It is sent as the spot order that sells the same amount. -/
theorem a_futures_close_is_sent_as_a_spot_order :
    ¬ demo_live.SentApart id (demo_request demo_close)
      (demo_request { demo_intent with side := .sell }) := by
  intro hapart
  have hclose := (demo_live.maySend_iff id (demo_request demo_close)
    (by decide +kernel) (sent_order demo_close)).mpr rfl
  have hopen := (demo_live.maySend_iff id (demo_request { demo_intent with side := .sell })
    (by decide +kernel) (sent_order demo_close)).mpr (by decide)
  exact hapart (Or.inr (Or.inl (by decide))) _ _ hclose hopen rfl

def demo_jobs : Db := { demo_world.db with jobs := [NormalizedEventConsumer.demo_job] }

/-- Two spot orders of different sizes. -/
theorem two_spot_orders_are_sent_as_told :
    let order := demo_request demo_intent
    let other := demo_request { demo_intent with size := 2 }
    demo_live.SentApart id order other ∧
      ∃ row, (create_order 0 "j1" order "c" { success := true, client_order_id := "c" }
          demo_jobs).toOption.map (·.2.orders) = some [row] ∧
        demo_live.StoredAsSent id order row := by
  obtain ⟨⟨order_id, db'⟩, hcreate⟩ : ∃ r, create_order 0 "j1" (demo_request demo_intent) "c"
      { success := true, client_order_id := "c" } demo_jobs = .ok r := ⟨_, rfl⟩
  obtain ⟨hapart, row, hrow, hstored⟩ :=
    (demo_live.sent_order_is_the_intent_iff id (demo_request demo_intent)
      (demo_request { demo_intent with size := 2 }) "c" (by decide +kernel) (by decide +kernel)
      hcreate).mpr ⟨fun _ => ⟨rfl, rfl, fun _ => rfl⟩, ⟨rfl, rfl, fun _ => rfl⟩⟩
  refine ⟨hapart, row, ?_, hstored⟩
  rw [hcreate]
  exact congrArg some hrow

end LiveExecutionAdapter

end trading_platform.execution
