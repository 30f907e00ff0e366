-- The price from which the MCP facade derives the size of a paper trade. It goes through
-- the same keys as the paper adapter that fills the trade, but reads two of them in a way of
-- its own: a mark price stands in for a missing price, and a side of the book may be "0".
import TradingPlatform.Execution.PaperAdapter

open resumption
open trading_platform.shared

namespace trading_platform.mcp_server

open trading_platform.execution (RedisPy World onRedis numberOf candidate midOf isQuoted
  quantize_price snapshot_price trade_price book_price PaperExecutionAdapter)

open Decimal (Number)

/-! ## The resolver -/

/-- `pd.get("price") or pd.get("mark_price") or ""`. -/
def price_or_mark (pd : Json) : Except PyErr Json := do
  let price := (← pd.get "price").getD .null
  if price.truthy then return price
  else
    let mark_price := (← pd.get "mark_price").getD .null
    return if mark_price.truthy then mark_price else .str ""

/-- What follows `json.loads` of the market price key. -/
def price_key (pd : Json) : Except PyErr (Option Number) := do
  let value ← price_or_mark pd
  if value.pyStr ∈ ["", "0"] then return none
  else candidate (← numberOf value)

/-- What follows `json.loads` of the book ticker. -/
def book_mid (bk : Json) : Except PyErr (Option Number) := do
  let bid := (← bk.get "bid_price").getD .null
  let ask := (← bk.get "ask_price").getD .null
  if bid.truthy && ask.truthy then candidate (← midOf (← numberOf bid) (← numberOf ask))
  else return none

/-- What a document gives. What raises on the way is passed over. -/
def found (price : Json → Except PyErr (Option Number)) (value : Json) : Option Number :=
  match price value with
  | .error _ => none
  | .ok p => p

/-- The price of the value under a key, if there is one. -/
def price_in (loads : String → Except PyErr Json) (price : Json → Except PyErr (Option Number))
    (raw : Option String) : Option Number :=
  match raw with
  | none => none
  | some text =>
    if text = "" then none
    else match loads text with
      | .error _ => none
      | .ok value => found price value

/-- `_resolve_price_from_redis`. The text of a decimal is kept as the decimal. -/
def resolve_price (loads : String → Except PyErr Json) (market_type symbol : String) :
    RedisPy (Option Number) := do
  let analytics_raw ← execution.redis (.get (RedisKeys.analytics_snapshot market_type symbol))
  match price_in loads snapshot_price analytics_raw with
  | some p => return some p
  | none => do
    let price_raw ← execution.redis (.get (RedisKeys.market_price market_type symbol))
    match price_in loads price_key price_raw with
    | some p => return some p
    | none => do
      let book_raw ← execution.redis (.get (RedisKeys.market_book_ticker market_type symbol))
      return price_in loads book_mid book_raw

/-- The same for the market of an intent. -/
def resolve_price_from_redis (loads : String → Except PyErr Json) (market_type : MarketType)
    (symbol : String) : RedisPy (Option Number) := resolve_price loads market_type.value symbol

/-! ## Where the documents are read in two ways -/

/-- The price that the mark price gives when the price itself is missing or false. -/
def mark_fallback (pd : Json) : Except PyErr (Option Number) := do
  let price := (← pd.get "price").getD .null
  if price.truthy then return none else price_key pd

/-- The mid price of a book with a side that reads "0". -/
def zero_sided_mid (bk : Json) : Except PyErr (Option Number) := do
  let bid := (← bk.get "bid_price").getD .null
  let ask := (← bk.get "ask_price").getD .null
  if isQuoted bid && isQuoted ask then return none else book_mid bk

/-- What is under the market price key for the facade: the price that the adapter finds, or
the mark price. -/
theorem found_price_key (pd : Json) :
    found price_key pd = (found trade_price pd).or (found mark_fallback pd) := by
  cases hget : pd.get "price" with
  | error e =>
    simp [found, price_key, price_or_mark, trade_price, mark_fallback, hget, bind, Except.bind]
  | ok price =>
    by_cases htruthy : (price.getD .null).truthy = true
    · have hmark : found mark_fallback pd = none := by
        simp [found, mark_fallback, hget, htruthy, bind, Except.bind, pure, Except.pure]
      rw [hmark, Option.or_none]
      by_cases hzero : (price.getD .null).pyStr ∈ ["", "0"]
      · simp [found, price_key, price_or_mark, trade_price, isQuoted, hget, htruthy, hzero, bind,
          Except.bind, pure, Except.pure]
      · simp only [found, price_key, price_or_mark, trade_price, isQuoted, hget, htruthy, hzero,
          bind, Except.bind, pure, Except.pure, if_true, if_false, Bool.true_and, decide_false,
          Bool.not_false]
    · have htrade : found trade_price pd = none := by
        simp [found, trade_price, isQuoted, hget, htruthy, bind, Except.bind, pure, Except.pure]
      rw [htrade, Option.none_or]
      simp only [found, mark_fallback, hget, htruthy, bind, Except.bind, Bool.false_eq_true,
        if_false]

/-- What is under the book ticker for the facade: the mid price that the adapter finds, or
the one of a book with a side that reads "0". -/
theorem found_book_mid (bk : Json) :
    found book_mid bk = (found book_price bk).or (found zero_sided_mid bk) := by
  cases hbid : bk.get "bid_price" with
  | error e => simp [found, book_mid, book_price, zero_sided_mid, hbid, bind, Except.bind]
  | ok bid =>
    cases hask : bk.get "ask_price" with
    | error e => simp [found, book_mid, book_price, zero_sided_mid, hbid, hask, bind, Except.bind]
    | ok ask =>
      by_cases hquoted : (isQuoted (bid.getD .null) && isQuoted (ask.getD .null)) = true
      · have hzero : found zero_sided_mid bk = none := by
          simp [found, zero_sided_mid, hbid, hask, hquoted, bind, Except.bind, pure, Except.pure]
        have htruthy : ((bid.getD .null).truthy && (ask.getD .null).truthy) = true := by
          simp only [isQuoted, Bool.and_eq_true] at hquoted ⊢
          exact ⟨hquoted.1.1, hquoted.2.1⟩
        rw [hzero, Option.or_none]
        simp only [found, book_mid, book_price, hbid, hask, hquoted, htruthy, bind, Except.bind,
          if_true]
      · have hbook : found book_price bk = none := by
          simp [found, book_price, hbid, hask, hquoted, bind, Except.bind, pure, Except.pure]
        rw [hbook, Option.none_or]
        simp only [found, zero_sided_mid, hbid, hask, hquoted, bind, Except.bind,
          Bool.false_eq_true, if_false]

theorem price_in_or {loads : String → Except PyErr Json}
    {price first second : Json → Except PyErr (Option Number)}
    (h : ∀ value, found price value = (found first value).or (found second value))
    (raw : Option String) :
    price_in loads price raw = (price_in loads first raw).or (price_in loads second raw) := by
  cases raw with
  | none => rfl
  | some text =>
    by_cases hempty : text = ""
    · simp [price_in, hempty]
    · cases hloads : loads text with
      | error e => simp [price_in, hempty, hloads]
      | ok value => simp [price_in, hempty, hloads, h]

/-! ## The two resolvers side by side -/

/-- What a program of Redis calls gives, alone and with no failure. -/
def answer {α : Type} (w : World) (p : RedisPy α) : Except PyErr α := (w.run (onRedis p) []).1

/-- The value under a key. -/
def under (w : World) (key : String) : Option String := w.redis.live w.now key

theorem answer_get {α : Type} (w : World) (key : String) (f : Option String → RedisPy α) :
    answer w (execution.redis (.get key) >>= f) = answer w (f (under w key)) := rfl

theorem price_at_eq (adapter : PaperExecutionAdapter) (price : Json → Except PyErr (Option Number))
    (raw : Option String) : raw.bind (adapter.price_at price) = price_in adapter.loads price raw := by
  cases raw <;> rfl

/-- One source of the adapter: its price, or the next source. -/
theorem answer_first_price {α : Type} (w : World) (adapter : PaperExecutionAdapter) (key : String)
    (price : Json → Except PyErr (Option Number))
    (rest : List (String × (Json → Except PyErr (Option Number))))
    (f : Option Number → RedisPy α) :
    answer w (adapter.first_price ((key, price) :: rest) >>= f) =
      match price_in adapter.loads price (under w key) with
      | some p => answer w (f (some p))
      | none => answer w (adapter.first_price rest >>= f) := by
  rw [← price_at_eq, PaperExecutionAdapter.first_price, Prog.bind_assoc, answer_get]
  cases (under w key).bind (adapter.price_at price) <;> rfl

section Resolvers

variable (w : World) (adapter : PaperExecutionAdapter) (market_type : MarketType) (symbol : String)

/-- A price of the analytics snapshot. -/
def from_snapshot : Option Number :=
  price_in adapter.loads snapshot_price
    (under w (RedisKeys.analytics_snapshot market_type.value symbol))

/-- A price under the market price key. -/
def from_price_key (price : Json → Except PyErr (Option Number)) : Option Number :=
  price_in adapter.loads price (under w (RedisKeys.market_price market_type.value symbol))

/-- A price of the book ticker. -/
def from_book (price : Json → Except PyErr (Option Number)) : Option Number :=
  price_in adapter.loads price (under w (RedisKeys.market_book_ticker market_type.value symbol))

theorem answer_facade :
    answer w (resolve_price_from_redis adapter.loads market_type symbol) =
      .ok ((from_snapshot w adapter market_type symbol).or
        ((from_price_key w adapter market_type symbol price_key).or
          (from_book w adapter market_type symbol book_mid))) := by
  unfold resolve_price_from_redis resolve_price
  rw [answer_get, ← from_snapshot]
  cases from_snapshot w adapter market_type symbol with
  | some p => rfl
  | none =>
    dsimp only
    rw [answer_get, ← from_price_key]
    cases from_price_key w adapter market_type symbol price_key with
    | some p => rfl
    | none => rfl

theorem answer_adapter_bind {α : Type} (f : Option Number → RedisPy α) :
    answer w (adapter.redis_price market_type symbol >>= f) =
      answer w (f ((from_snapshot w adapter market_type symbol).or
        ((from_price_key w adapter market_type symbol trade_price).or
          (from_book w adapter market_type symbol book_price)))) := by
  unfold PaperExecutionAdapter.redis_price PaperExecutionAdapter.sources
  rw [answer_first_price, ← from_snapshot]
  cases from_snapshot w adapter market_type symbol with
  | some p => rfl
  | none =>
    dsimp only
    rw [answer_first_price, ← from_price_key]
    cases from_price_key w adapter market_type symbol trade_price with
    | some p => rfl
    | none =>
      dsimp only
      rw [answer_first_price, ← from_book]
      cases from_book w adapter market_type symbol book_price <;> rfl

theorem answer_adapter :
    answer w (adapter.redis_price market_type symbol) =
      .ok ((from_snapshot w adapter market_type symbol).or
        ((from_price_key w adapter market_type symbol trade_price).or
          (from_book w adapter market_type symbol book_price))) := by
  rw [← Prog.bind_done (adapter.redis_price market_type symbol), answer_adapter_bind]
  rfl

/-- Both resolvers give no price, or the same one. -/
def ResolversAgree : Prop :=
  answer w (resolve_price_from_redis adapter.loads market_type symbol) =
    answer w (adapter.redis_price market_type symbol)

/-- Where the facade finds a price, a market order on the same Redis fills at that price, in
cents. -/
def FillsAtThePrice : Prop :=
  ∀ p, answer w (resolve_price_from_redis adapter.loads market_type symbol) = .ok (some p) →
    adapter.redis = true → ∀ intent : TradeIntent, intent.limit_price = none →
      intent.market_type = market_type → intent.symbol = symbol →
      answer w (adapter.resolve_fill_price intent) = (quantize_price p).map some

/-- No document is read in two ways before a price is found: the snapshot or the traded price
is one, or neither the mark price nor a book with a side "0" gives one, or the mark price is
the mid price of the book. -/
def OneReading : Prop :=
  from_snapshot w adapter market_type symbol ≠ none ∨
  from_price_key w adapter market_type symbol trade_price ≠ none ∨
  (from_price_key w adapter market_type symbol mark_fallback = none ∧
    from_book w adapter market_type symbol zero_sided_mid = none) ∨
  ∃ p, from_price_key w adapter market_type symbol mark_fallback = some p ∧
    from_book w adapter market_type symbol book_price = some p

variable {w adapter market_type symbol}

theorem fills_of_agree (h : ResolversAgree w adapter market_type symbol) :
    FillsAtThePrice w adapter market_type symbol := by
  intro p hp hredis intent hlimit hmarket hsymbol
  have hprice : (from_snapshot w adapter market_type symbol).or
      ((from_price_key w adapter market_type symbol trade_price).or
        (from_book w adapter market_type symbol book_price)) = some p := by
    rw [h, answer_adapter] at hp
    exact Except.ok.inj hp
  unfold PaperExecutionAdapter.resolve_fill_price
  rw [hlimit]
  dsimp only
  rw [if_pos hredis]
  unfold PaperExecutionAdapter.resolve_redis_price
  rw [Prog.bind_assoc, hmarket, hsymbol, answer_adapter_bind, hprice]
  dsimp only
  cases quantize_price p <;> rfl

end Resolvers

/-- The two readings of the book exclude each other. -/
theorem found_zero_sided {bk : Json} (h : found book_price bk ≠ none) :
    found zero_sided_mid bk = none := by
  cases hbid : bk.get "bid_price" with
  | error e => simp [found, zero_sided_mid, hbid, bind, Except.bind]
  | ok bid =>
    cases hask : bk.get "ask_price" with
    | error e => simp [found, zero_sided_mid, hbid, hask, bind, Except.bind]
    | ok ask =>
      by_cases hquoted : (isQuoted (bid.getD .null) && isQuoted (ask.getD .null)) = true
      · simp [found, zero_sided_mid, hbid, hask, hquoted, bind, Except.bind, pure, Except.pure]
      · refine absurd ?_ h
        simp [found, book_price, hbid, hask, hquoted, bind, Except.bind, pure, Except.pure]

theorem from_book_zero_sided {w : World} {adapter : PaperExecutionAdapter}
    {market_type : MarketType} {symbol : String}
    (h : from_book w adapter market_type symbol book_price ≠ none) :
    from_book w adapter market_type symbol zero_sided_mid = none := by
  unfold from_book price_in at h ⊢
  cases hraw : under w (RedisKeys.market_book_ticker market_type.value symbol) with
  | none => rfl
  | some text =>
    rw [hraw] at h
    dsimp only at h ⊢
    by_cases hempty : text = ""
    · rw [if_pos hempty]
    · rw [if_neg hempty] at h ⊢
      cases hloads : adapter.loads text with
      | error e => rfl
      | ok value =>
        rw [hloads] at h
        exact found_zero_sided h

/-- The resolvers agree, and so a trade fills at the price that its size was derived from,
exactly where no document is read in two ways. -/
theorem resolvers_agree_iff (w : World) (adapter : PaperExecutionAdapter)
    (market_type : MarketType) (symbol : String) :
    (ResolversAgree w adapter market_type symbol ∧ FillsAtThePrice w adapter market_type symbol) ↔
      OneReading w adapter market_type symbol := by
  have hkey : from_price_key w adapter market_type symbol price_key =
      (from_price_key w adapter market_type symbol trade_price).or
        (from_price_key w adapter market_type symbol mark_fallback) :=
    price_in_or found_price_key _
  have hbook : from_book w adapter market_type symbol book_mid =
      (from_book w adapter market_type symbol book_price).or
        (from_book w adapter market_type symbol zero_sided_mid) :=
    price_in_or found_book_mid _
  have hzero := @from_book_zero_sided w adapter market_type symbol
  rw [and_iff_left_of_imp fills_of_agree]
  unfold ResolversAgree OneReading
  rw [answer_facade, answer_adapter, hkey, hbook, Except.ok.injEq]
  cases from_snapshot w adapter market_type symbol with
  | some p => simp
  | none =>
    cases from_price_key w adapter market_type symbol trade_price with
    | some p => simp
    | none =>
      cases hmark : from_price_key w adapter market_type symbol mark_fallback with
      | some p => simp [eq_comm]
      | none =>
        cases hmid : from_book w adapter market_type symbol book_price with
        | some p => simp [hzero (by simp [hmid])]
        | none => simp

/-- The text of a book without a bid, as the normalizer writes it. -/
def one_sided_book : String := "\x7b\"bid_price\": \"0\", \"ask_price\": \"100\"\x7d"

/-- An adapter that knows the JSON of that book. -/
def book_adapter : PaperExecutionAdapter where
  sha256 := fun text => text
  loads := fun text =>
    if text = one_sided_book then .ok (.obj [("bid_price", .str "0"), ("ask_price", .str "100")])
    else .error ⟨"JSONDecodeError", "Expecting value: line 1 column 1 (char 0)"⟩

/-- A world with that book under the key of BTCUSDT futures. -/
def book_world : World :=
  { World.empty with
    redis := Redis.empty.put (RedisKeys.market_book_ticker "futures" "BTCUSDT")
      ⟨one_sided_book, none⟩ }

/-- A book without a bid: the facade derives the size at 50, and the adapter finds no price. -/
theorem a_book_without_a_bid_has_two_prices :
    ¬ (ResolversAgree book_world book_adapter .futures "BTCUSDT" ∧
      FillsAtThePrice book_world book_adapter .futures "BTCUSDT") := by
  rintro ⟨h, -⟩
  have hfacade : answer book_world (resolve_price_from_redis book_adapter.loads .futures "BTCUSDT") =
      .ok (some (.finite 50)) := by decide +kernel
  have hadapter : answer book_world (book_adapter.redis_price .futures "BTCUSDT") = .ok none := by
    decide +kernel
  unfold ResolversAgree at h
  rw [hfacade, hadapter] at h
  cases h

end trading_platform.mcp_server
