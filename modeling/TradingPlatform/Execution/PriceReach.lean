-- Which prices a paper fill reaches. The first price in the order of the sources is the
-- only one that is tried: when it is rounded away, no later one takes its place.
import TradingPlatform.Execution.PositionCap

open resumption
open trading_platform.shared

namespace trading_platform.execution

open Decimal (Number)

/-! ## Rounding to a positive price -/

/-- A number of one half rounds to the even zero. -/
theorem round_half_even_pos (q : ℚ) : 0 < Decimal.round_half_even q ↔ 1 / 2 < q := by
  constructor
  · intro hpos
    by_contra hle
    have hq : q ≤ 1 / 2 := not_lt.mp hle
    have hfloor := Int.floor_le q
    have hfloor0 : ⌊q⌋ ≤ 0 := by
      have hlt : (⌊q⌋ : ℚ) < 1 := by linarith
      have hint : ⌊q⌋ < 1 := by exact_mod_cast hlt
      omega
    unfold Decimal.round_half_even at hpos
    dsimp only at hpos
    split_ifs at hpos with hless hmore heven
    · omega
    · -- above the half of its unit, so the unit is a negative one
      have hneg : (⌊q⌋ : ℚ) < 0 := by linarith
      have hint : ⌊q⌋ < 0 := by exact_mod_cast hneg
      omega
    · omega
    · omega
  · intro hq
    have hnear := abs_le.mp (Decimal.round_half_even_near q)
    have hcast : (0 : ℚ) < (Decimal.round_half_even q : ℚ) := by linarith
    exact_mod_cast hcast

theorem quantize_pos {p r : ℚ} (h : Decimal.quantize 2 p = .ok r) : 0 < r ↔ 1 / 200 < p := by
  unfold Decimal.quantize at h
  dsimp only at h
  split at h
  · cases h
  · obtain rfl := Except.ok.inj h
    have hdiv : (0 : ℚ) < (Decimal.round_half_even (p * 10 ^ 2) : ℚ) / 10 ^ 2 ↔
        0 < Decimal.round_half_even (p * 10 ^ 2) := by
      rw [div_pos_iff_of_pos_right (by positivity)]
      exact Int.cast_pos
    rw [hdiv, round_half_even_pos]
    constructor
    · intro h
      linarith
    · intro h
      linarith

/-! ## What Redis shows -/

/-- The value reads as a positive number. -/
def IsPrice (value : Json) (p : ℚ) : Prop := Decimal.parse value.pyStr = some (.finite p) ∧ 0 < p

/-- The price of the market state is positive. -/
def snapshot_shows (snapshot : Json) : Prop :=
  ∃ ms value p, snapshot.get "market_state" = .ok (some ms) ∧ ms.get "price" = .ok (some value) ∧
    IsPrice value p

def trade_shows (data : Json) : Prop :=
  ∃ value p, data.get "price" = .ok (some value) ∧ IsPrice value p

/-- Bid and ask are positive. -/
def book_shows (book : Json) : Prop :=
  ∃ bid ask b a, book.get "bid_price" = .ok (some bid) ∧ book.get "ask_price" = .ok (some ask) ∧
    IsPrice bid b ∧ IsPrice ask a

/-- The texts of the values that stand for no price. -/
def no_price : List String := ["", "0", "None", "True", "False", "[", "\x7b", "0.0", "-0.0"]

theorem IsPrice.ne_no_price {value : Json} {p : ℚ} (h : IsPrice value p) :
    value.pyStr ∉ no_price := by
  obtain ⟨hparse, hpos⟩ := h
  have hno : ∀ text ∈ no_price,
      Decimal.parse text = none ∨ Decimal.parse text = some (.finite 0) := by
    decide +kernel
  intro hmem
  rcases hno value.pyStr hmem with hnone | hzero
  · rw [hnone] at hparse
    cases hparse
  · rw [hzero] at hparse
    obtain rfl := Number.finite.inj (Option.some.inj hparse)
    exact lt_irrefl _ hpos

/-- A price is no value that is passed over. -/
theorem IsPrice.quoted {value : Json} {p : ℚ} (h : IsPrice value p) : isQuoted value = true := by
  have hne := h.ne_no_price
  unfold isQuoted
  cases value with
  | null => simp [no_price, Json.pyStr] at hne
  | bool b => cases b <;> simp [no_price, Json.pyStr] at hne
  | num text =>
    simp [no_price, Json.pyStr] at hne
    simp [Json.truthy, Json.pyStr, hne]
  | str text =>
    simp [no_price, Json.pyStr] at hne
    simp [Json.truthy, Json.pyStr, hne]
  | arr items => simp [no_price, Json.pyStr] at hne
  | obj fields => simp [no_price, Json.pyStr] at hne

theorem IsPrice.candidate {value : Json} {p : ℚ} (h : IsPrice value p) :
    ∃ n, numberOf value = .ok n ∧ candidate n = .ok (some (.finite p)) := by
  refine ⟨.finite p, ?_, ?_⟩
  · simp [numberOf, h.1]
  · simp [execution.candidate, h.2]

theorem snapshot_price_of {snapshot : Json} (h : snapshot_shows snapshot) :
    ∃ n, snapshot_price snapshot = .ok (some n) := by
  obtain ⟨ms, value, p, hms, hvalue, hprice⟩ := h
  have htruthy : ms.truthy = true := by
    cases ms with
    | obj fields =>
      cases fields with
      | nil => simp [Json.get] at hvalue
      | cons field fields => rfl
    | null | bool _ | num _ | str _ | arr _ => simp [Json.get] at hvalue
  have hne : value.pyStr ∉ ["", "0", "None"] := by
    intro hmem
    apply hprice.ne_no_price
    simp only [no_price, List.mem_cons] at hmem ⊢
    tauto
  obtain ⟨n, hn, hcand⟩ := hprice.candidate
  refine ⟨.finite p, ?_⟩
  unfold snapshot_price
  simp only [hms, hvalue, hn, hcand, Bind.bind, Except.bind, Option.getD_some, htruthy, if_true,
    if_neg hne]

theorem trade_price_of {data : Json} (h : trade_shows data) :
    ∃ n, trade_price data = .ok (some n) := by
  obtain ⟨value, p, hvalue, hprice⟩ := h
  obtain ⟨n, hn, hcand⟩ := hprice.candidate
  refine ⟨.finite p, ?_⟩
  unfold trade_price
  simp only [hvalue, hn, hcand, Bind.bind, Except.bind, Option.getD_some, hprice.quoted, if_true]

theorem book_price_of {book : Json} (h : book_shows book) :
    ∃ n, book_price book = .ok (some n) := by
  obtain ⟨bid, ask, b, a, hbid, hask, hb, ha⟩ := h
  have hmid : 0 < (b + a) / 2 := by
    have hb' := hb.2
    have ha' := ha.2
    linarith
  refine ⟨.finite ((b + a) / 2), ?_⟩
  unfold book_price
  simp only [hbid, hask, Bind.bind, Except.bind, Option.getD_some, hb.quoted, ha.quoted,
    Bool.and_self, if_true, numberOf, hb.1, ha.1, midOf]
  simp [execution.candidate, hmid]

namespace PaperExecutionAdapter

variable (self : PaperExecutionAdapter)

/-- What a source offers in a world: its price, if it has a positive one. -/
def offer (w : World) (source : String × (Json → Except PyErr (Option Number))) : Option Number :=
  (w.redis.live w.now source.1).bind (self.price_at source.2)

/-- The first price of the sources, of the market type of the intent and then of the other. -/
def first_offer (w : World) (intent : TradeIntent) : Option Number :=
  if self.redis then (all_sources intent).findSome? (self.offer w) else none

/-- A program of Redis calls alone in a world. -/
theorem run_get (w : World) (key : String) {α : Type} (k : Option String → RedisPy α) :
    resumption.run World.exec .idle (onRedis (execution.redis (.get key) >>= k)) w [] =
      resumption.run World.exec .idle (onRedis (k (w.redis.live w.now key))) w [] := rfl

theorem run_first_price (w : World)
    (sources : List (String × (Json → Except PyErr (Option Number)))) :
    resumption.run World.exec .idle (onRedis (self.first_price sources)) w [] =
      (.ok (sources.findSome? (self.offer w)), w, []) := by
  induction sources with
  | nil => rfl
  | cons source rest ih =>
    unfold first_price
    rw [run_get, List.findSome?_cons]
    unfold offer
    cases (w.redis.live w.now source.1).bind (self.price_at source.2) with
    | some p => rfl
    | none => exact ih

/-- The fill price before its sign is looked at. -/
def resolved (w : World) (intent : TradeIntent) : Except PyErr (Option ℚ) :=
  match intent.limit_price with
  | some limit_price => .ok (some limit_price)
  | none =>
    match self.first_offer w intent with
    | some price => (quantize_price price).map some
    | none => derived_price intent

theorem run_ofExcept (w : World) {α : Type} (r : Except PyErr α) :
    resumption.run World.exec .idle (onRedis (Prog.ofExcept r)) w [] = (r, w, []) := by
  cases r <;> rfl

theorem run_redis_bind {w : World} {α β : Type} {p : RedisPy α} {f : α → RedisPy β} {a : α}
    (h : resumption.run World.exec .idle (onRedis p) w [] = (.ok a, w, [])) :
    resumption.run World.exec .idle (onRedis (p >>= f)) w [] =
      resumption.run World.exec .idle (onRedis (f a)) w [] := by
  rw [onRedis_bind, run_bind, h]

theorem run_redis_raises {w : World} {α β : Type} {p : RedisPy α} {f : α → RedisPy β} {e : PyErr}
    (h : resumption.run World.exec .idle (onRedis p) w [] = (.error e, w, [])) :
    resumption.run World.exec .idle (onRedis (p >>= f)) w [] = (.error e, w, []) := by
  rw [onRedis_bind, run_bind, h]

theorem run_resolve_redis_price (w : World) (intent : TradeIntent) :
    resumption.run World.exec .idle (onRedis (self.resolve_redis_price intent)) w [] =
      (match (all_sources intent).findSome? (self.offer w) with
        | some price => (quantize_price price).map some
        | none => .ok none, w, []) := by
  unfold resolve_redis_price redis_price all_sources
  rw [run_redis_bind (self.run_first_price w _), List.findSome?_append]
  cases (sources intent.market_type intent.symbol).findSome? (self.offer w) with
  | some price =>
    simp only [Option.some_or]
    cases quantize_price price <;> rfl
  | none =>
    simp only [Option.none_or]
    rw [run_redis_bind (self.run_first_price w _)]
    cases (sources (market_type_fallback intent.market_type) intent.symbol).findSome?
        (self.offer w) with
    | some price =>
      simp only
      cases quantize_price price <;> rfl
    | none => rfl

theorem run_resolve_fill_price (w : World) (intent : TradeIntent) :
    resumption.run World.exec .idle (onRedis (self.resolve_fill_price intent)) w [] =
      (self.resolved w intent, w, []) := by
  unfold resolve_fill_price resolved first_offer
  cases intent.limit_price with
  | some limit_price => rfl
  | none =>
    simp only
    by_cases hredis : self.redis = true
    · have hprice := self.run_resolve_redis_price w intent
      rw [if_pos hredis, if_pos hredis]
      cases hfirst : (all_sources intent).findSome? (self.offer w) with
      | some price =>
        rw [hfirst] at hprice
        cases hq : quantize_price price with
        | ok q =>
          simp only [hq, Except.map] at hprice ⊢
          rw [run_redis_bind hprice]
          rfl
        | error e =>
          simp only [hq, Except.map] at hprice ⊢
          exact run_redis_raises hprice
      | none =>
        rw [hfirst] at hprice
        rw [run_redis_bind hprice]
        exact run_ofExcept w _
    · rw [if_neg hredis, if_neg hredis]
      exact run_ofExcept w _

/-- The response without a price. -/
def unavailable (request : ExecutionRequest) (client_order_id : String) : AdapterResponse where
  success := false
  client_order_id := client_order_id
  error := some (price_unavailable request.trade_intent)

/-- The response for a fill price. -/
def response (request : ExecutionRequest) (client_order_id : String) :
    Option ℚ → Except PyErr AdapterResponse
  | some fill_price =>
    if 0 < fill_price then self.filled request client_order_id fill_price
    else .ok (unavailable request client_order_id)
  | none => .ok (unavailable request client_order_id)

/-- A submission is the response for the price that is resolved. -/
theorem run_submit (w : World) (request : ExecutionRequest) (client_order_id : String) :
    (w.run (onRedis (self.submit request client_order_id)) []).1 =
      (self.resolved w request.trade_intent).bind (self.response request client_order_id) := by
  unfold World.run submit
  have hresolve := self.run_resolve_fill_price w request.trade_intent
  cases hresolved : self.resolved w request.trade_intent with
  | error e =>
    rw [hresolved] at hresolve
    rw [run_redis_raises hresolve]
    rfl
  | ok price =>
    rw [hresolved] at hresolve
    rw [run_redis_bind hresolve]
    cases price with
    | none => rfl
    | some price =>
      simp only [Except.bind, response]
      by_cases hpos : 0 < price
      · rw [if_pos hpos, if_pos hpos, run_ofExcept]
      · rw [if_neg hpos, if_neg hpos]
        rfl

/-! ## Reaching a price -/

/-- A canonical source shows a positive price of the symbol. -/
def Shows (w : World) (market_type : MarketType) (symbol : String) : Prop :=
  ∃ key shows, (key, shows) ∈
      [(RedisKeys.analytics_snapshot market_type.value symbol, snapshot_shows),
        (RedisKeys.market_price market_type.value symbol, trade_shows),
        (RedisKeys.market_book_ticker market_type.value symbol, book_shows)] ∧
    ∃ raw value, w.redis.live w.now key = some raw ∧ raw ≠ "" ∧ self.loads raw = .ok value ∧
      shows value

/-- There is a price for the intent: its limit price, one that Redis shows in its market or
in the other one, or its `size_usd`. -/
def Offered (w : World) (intent : TradeIntent) : Prop :=
  (∃ p, intent.limit_price = some p ∧ 0 < p) ∨
  self.Shows w intent.market_type intent.symbol ∨
  self.Shows w (market_type_fallback intent.market_type) intent.symbol ∨
  ∃ u, intent.size_usd = some u ∧ 0 < u

/-- The submission succeeds with a positive fill price. -/
def Fills (r : Except PyErr AdapterResponse) : Prop :=
  ∃ response price, r = .ok response ∧ response.success = true ∧
    response.fill_price = some price ∧ 0 < price

structure Reaches (paper : PaperExecutionAdapter) (w : World) (request : ExecutionRequest)
    (client_order_id : String) : Prop where
  fills : paper.Offered w request.trade_intent →
    Fills (w.run (onRedis (paper.submit request client_order_id)) []).1
  positive : ∀ response, (w.run (onRedis (paper.submit request client_order_id)) []).1 =
      .ok response → response.success = true → ∃ price, response.fill_price = some price ∧ 0 < price

/-- The commission of a fill at the price fits a decimal. -/
def Booked (request : ExecutionRequest) (price : ℚ) : Prop :=
  ∃ commission, Decimal.quantize 8 (request.trade_intent.size * price * PAPER_COMMISSION_RATE) =
    .ok commission

/-- A price that is rounded is above half a cent, and it fits a decimal. -/
def Survives (request : ExecutionRequest) : Number → Prop
  | .finite p => 1 / 200 < p ∧ ∃ price, Decimal.quantize 2 p = .ok price ∧ Booked request price
  | _ => False

/-- The first price that there is can be filled at. -/
def FirstSurvives (w : World) (request : ExecutionRequest) : Prop :=
  match request.trade_intent.limit_price with
  | some limit_price => 0 < limit_price ∧ Booked request limit_price
  | none =>
    match self.first_offer w request.trade_intent with
    | some price => Survives request price
    | none => ∃ u, request.trade_intent.size_usd = some u ∧
        Survives request (.finite (u / request.trade_intent.size))

/-- The response of a fill names the price and says success. -/
theorem filled_of_booked {request : ExecutionRequest} {client_order_id : String} {price : ℚ}
    {r : Except PyErr AdapterResponse} (hr : self.filled request client_order_id price = r) :
    (∃ response, r = .ok response ∧ response.success = true ∧ response.fill_price = some price ∧
      Booked request price) ∨ (∃ e, r = .error e) ∧ ¬ Booked request price := by
  subst hr
  unfold filled Booked
  dsimp only
  cases hq : Decimal.quantize 8 (request.trade_intent.size * price * PAPER_COMMISSION_RATE) with
  | error e =>
    refine Or.inr ⟨⟨e, rfl⟩, ?_⟩
    rintro ⟨commission, hc⟩
    cases hc
  | ok commission =>
    refine Or.inl ⟨_, rfl, ?_⟩
    exact ⟨rfl, rfl, commission, rfl⟩

theorem not_fills_error (e : PyErr) : ¬ Fills (.error e) := by
  rintro ⟨response, price, hr, -⟩
  cases hr

theorem not_fills_unavailable (request : ExecutionRequest) (client_order_id : String) :
    ¬ Fills (.ok (unavailable request client_order_id)) := by
  rintro ⟨response, price, hr, hsuccess, -⟩
  obtain rfl := Except.ok.inj hr
  cases hsuccess

theorem fills_filled {request : ExecutionRequest} {client_order_id : String} {price : ℚ}
    (hpos : 0 < price) :
    Fills (self.filled request client_order_id price) ↔ Booked request price := by
  rcases @filled_of_booked self request client_order_id price _ rfl with
    ⟨response, hr, hsuccess, hprice, hbooked⟩ | ⟨⟨e, hr⟩, hnot⟩
  · rw [hr]
    exact iff_of_true ⟨response, price, rfl, hsuccess, hprice, hpos⟩ hbooked
  · rw [hr]
    exact iff_of_false (not_fills_error e) hnot

/-- A price that goes on rounded is filled at when it survives. -/
theorem fills_rounded {request : ExecutionRequest} {client_order_id : String} {n : Number} :
    Fills (((quantize_price n).map some).bind (self.response request client_order_id)) ↔
      Survives request n := by
  cases n with
  | infinity s => exact iff_of_false (not_fills_error _) id
  | nan => exact iff_of_false (not_fills_error _) id
  | finite p =>
    simp only [quantize_price, Survives]
    cases hq : Decimal.quantize 2 p with
    | error e =>
      apply iff_of_false (not_fills_error e)
      rintro ⟨-, price, hprice, -⟩
      cases hprice
    | ok price =>
      have hround := quantize_pos hq
      simp only [Except.map, Except.bind, response, Except.ok.injEq, exists_eq_left']
      by_cases hpos : 0 < price
      · rw [if_pos hpos, self.fills_filled hpos, ← hround]
        exact ⟨fun h => ⟨hpos, h⟩, fun h => h.2⟩
      · rw [if_neg hpos, ← hround]
        exact iff_of_false (not_fills_unavailable _ _) fun h => hpos h.1

/-- A submission fills exactly when the first price survives. -/
theorem submit_fills_iff (w : World) (request : ExecutionRequest) (client_order_id : String)
    (hsize : 0 < request.trade_intent.size) :
    Fills (w.run (onRedis (self.submit request client_order_id)) []).1 ↔
      self.FirstSurvives w request := by
  rw [run_submit]
  unfold resolved FirstSurvives
  cases hlimit : request.trade_intent.limit_price with
  | some limit_price =>
    simp only [Except.bind, response]
    by_cases hpos : 0 < limit_price
    · rw [if_pos hpos, self.fills_filled hpos]
      exact ⟨fun h => ⟨hpos, h⟩, fun h => h.2⟩
    · rw [if_neg hpos]
      exact iff_of_false (not_fills_unavailable _ _) fun h => hpos h.1
  | none =>
    simp only
    cases self.first_offer w request.trade_intent with
    | some price => exact self.fills_rounded
    | none =>
      simp only [derived_price]
      cases husd : request.trade_intent.size_usd with
      | none =>
        apply iff_of_false (not_fills_unavailable _ _)
        rintro ⟨u, hu, -⟩
        cases hu
      | some u =>
        simp only [if_pos hsize, Option.some.injEq, exists_eq_left']
        exact self.fills_rounded (n := .finite (u / request.trade_intent.size))

/-- A response that says success names a positive price. -/
theorem submit_positive (w : World) (request : ExecutionRequest) (client_order_id : String)
    {response : AdapterResponse}
    (h : (w.run (onRedis (self.submit request client_order_id)) []).1 = .ok response)
    (hsuccess : response.success = true) : ∃ price, response.fill_price = some price ∧ 0 < price := by
  rw [run_submit] at h
  cases hresolved : self.resolved w request.trade_intent with
  | error e =>
    rw [hresolved] at h
    cases h
  | ok found =>
    rw [hresolved] at h
    cases found with
    | none =>
      obtain rfl := Except.ok.inj h
      cases hsuccess
    | some price =>
      simp only [Except.bind, PaperExecutionAdapter.response] at h
      by_cases hpos : 0 < price
      · rw [if_pos hpos] at h
        rcases self.filled_of_booked h with ⟨response', hr, -, hprice, -⟩ | ⟨⟨e, hr⟩, -⟩
        · obtain rfl := Except.ok.inj hr
          exact ⟨price, hprice, hpos⟩
        · cases hr
      · rw [if_neg hpos] at h
        obtain rfl := Except.ok.inj h
        cases hsuccess

/-- The prices that there are are reached exactly when the first one survives. -/
theorem reaches_iff (w : World) (request : ExecutionRequest) (client_order_id : String)
    (hsize : 0 < request.trade_intent.size) :
    self.Reaches w request client_order_id ↔
      (self.Offered w request.trade_intent → self.FirstSurvives w request) := by
  constructor
  · intro h hoffered
    exact (self.submit_fills_iff w request client_order_id hsize).mp (h.fills hoffered)
  · intro h
    refine ⟨?_, ?_⟩
    · intro hoffered
      exact (self.submit_fills_iff w request client_order_id hsize).mpr (h hoffered)
    · intro response hr hsuccess
      exact self.submit_positive w request client_order_id hr hsuccess

/-! ## Prices that all survive -/

/-- A source that shows a price offers one. -/
theorem offer_of_shows {w : World} {market_type : MarketType} {symbol : String}
    (h : self.Shows w market_type symbol) :
    ∃ source ∈ sources market_type symbol, (self.offer w source).isSome = true := by
  obtain ⟨key, shows, hmem, raw, value, hraw, hne, hloads, hshows⟩ := h
  have hoffer : ∀ price : Json → Except PyErr (Option Number),
      (∃ n, price value = .ok (some n)) → (self.offer w (key, price)).isSome = true := by
    rintro price ⟨n, hn⟩
    simp [offer, price_at, hraw, hne, hloads, hn]
  simp only [List.mem_cons, Prod.mk.injEq, List.not_mem_nil, or_false] at hmem
  rcases hmem with ⟨rfl, rfl⟩ | ⟨rfl, rfl⟩ | ⟨rfl, rfl⟩
  · exact ⟨_, by simp [sources], hoffer snapshot_price (snapshot_price_of hshows)⟩
  · exact ⟨_, by simp [sources], hoffer trade_price (trade_price_of hshows)⟩
  · exact ⟨_, by simp [sources], hoffer book_price (book_price_of hshows)⟩

/-- Where each price that there is survives, one of them is always reached. -/
theorem reaches_of_all_survive {w : World} {request : ExecutionRequest} (client_order_id : String)
    (hredis : self.redis = true) (hsize : 0 < request.trade_intent.size)
    (hlimit : ∀ p, request.trade_intent.limit_price = some p → 0 < p ∧ Booked request p)
    (hsources : ∀ source ∈ all_sources request.trade_intent, ∀ n,
      self.offer w source = some n → Survives request n)
    (husd : ∀ u, request.trade_intent.size_usd = some u →
      Survives request (.finite (u / request.trade_intent.size))) :
    self.Reaches w request client_order_id := by
  refine (self.reaches_iff w request client_order_id hsize).mpr ?_
  intro hoffered
  have hfirst : ∀ market_type, self.Shows w market_type request.trade_intent.symbol →
      (∀ source ∈ sources market_type request.trade_intent.symbol,
        source ∈ all_sources request.trade_intent) →
      self.first_offer w request.trade_intent ≠ none := by
    intro market_type hshows hsub hnone
    obtain ⟨source, hsource, hsome⟩ := self.offer_of_shows hshows
    rw [first_offer, if_pos hredis, List.findSome?_eq_none_iff] at hnone
    rw [hnone source (hsub source hsource)] at hsome
    cases hsome
  unfold FirstSurvives
  cases hl : request.trade_intent.limit_price with
  | some limit_price => exact hlimit limit_price hl
  | none =>
    simp only
    cases ho : self.first_offer w request.trade_intent with
    | some n =>
      rw [first_offer, if_pos hredis] at ho
      obtain ⟨source, hsource, hn⟩ := List.exists_of_findSome?_eq_some ho
      exact hsources source hsource n hn
    | none =>
      rcases hoffered with ⟨p, hp, -⟩ | hshows | hshows | ⟨u, hu, -⟩
      · rw [hl] at hp
        cases hp
      · exact absurd ho (hfirst _ hshows fun _ hs => List.mem_append_left _ hs)
      · exact absurd ho (hfirst _ hshows fun _ hs => List.mem_append_right _ hs)
      · exact ⟨u, hu, husd u hu⟩

/-! ## A price below a cent -/

/-- The text of a trade price. -/
def price_text (price : String) : String := "\x7b\"price\": \"" ++ price ++ "\"\x7d"

/-- `json.loads` of the text of a trade price. -/
def demo_reader (price : String) : PaperExecutionAdapter where
  sha256 := id
  loads raw := if raw = price_text price then .ok (.obj [("price", .str price)])
    else .error ⟨"JSONDecodeError", "Expecting value: line 1 column 1 (char 0)"⟩

/-- A trade price of BTCUSDT is reached. -/
theorem an_ordinary_price_is_reached :
    (demo_reader "50000").Reaches (demo_quoted (price_text "50000"))
      (demo_paper_request demo_intent) "c" :=
  ((demo_reader "50000").reaches_iff (demo_quoted (price_text "50000"))
    (demo_paper_request demo_intent) "c" (by decide +kernel)).mpr fun _ => by
      have hfirst : (demo_reader "50000").first_offer (demo_quoted (price_text "50000"))
          demo_intent = some (.finite 50000) := by decide +kernel
      show match (demo_reader "50000").first_offer (demo_quoted (price_text "50000")) demo_intent with
        | some price => Survives (demo_paper_request demo_intent) price
        | none => _
      rw [hfirst]
      exact ⟨by norm_num, 50000, by decide +kernel, 20, by decide +kernel⟩

/-- A trade price of 0.004 is rounded to zero, and the `size_usd` of 100 is not tried. -/
theorem a_small_price_is_not_reached :
    ¬ (demo_reader "0.004").Reaches (demo_quoted (price_text "0.004"))
      (demo_paper_request { demo_intent with size_usd := some 100 }) "c" := by
  intro h
  have hshows : (demo_reader "0.004").Shows (demo_quoted (price_text "0.004")) .spot "BTCUSDT" :=
    ⟨_, _, List.mem_cons_of_mem _ List.mem_cons_self, price_text "0.004",
      .obj [("price", .str "0.004")], by decide +kernel, by decide +kernel, by simp [demo_reader],
      .str "0.004", 4 / 1000, rfl, by decide +kernel, by norm_num⟩
  obtain ⟨response, price, hr, hsuccess, -⟩ := h.fills (Or.inr (Or.inl hshows))
  have hfails : (((demo_quoted (price_text "0.004")).run (onRedis ((demo_reader "0.004").submit
      (demo_paper_request { demo_intent with size_usd := some 100 }) "c")) []).1.toOption.map
        (·.success)) = some false := by decide +kernel
  rw [hr] at hfails
  simp [Except.toOption, hsuccess] at hfails

end PaperExecutionAdapter

end trading_platform.execution
