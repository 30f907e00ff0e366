-- A price from the payload of a trade to the fill of a paper order: the handler writes its JSON text,
-- Redis keeps the text, and the adapter reads it back.
import TradingPlatform.Normalizer.HotState
import TradingPlatform.Execution.PriceReach

open resumption
open trading_platform.shared trading_platform.execution
open trading_platform.normalizer.handlers

namespace trading_platform.price_feed

/-! ## The text under the key of a price -/

theorem writable_int_of_dumps {n : Int} {text : List Char} (h : dumps (.int n) = .ok text) :
    Writable (.int n) := by
  rw [dumps, int_repr] at h
  split at h
  · cases h
  · rename_i hle
    exact Nat.le_of_not_lt hle

/-- What the adapter reads of the text that a trade leaves. -/
theorem loads_price_text {price : String} {ts : Int} {value : String}
    (h : json_dumps (py_dict [("price", str_value price), ("ts", .int ts)]) = .ok value) :
    ∃ shown, loads_json value = .ok (.obj [("price", .str price), ("ts", shown)]) := by
  unfold json_dumps at h
  cases htext : dumps (py_dict [("price", str_value price), ("ts", .int ts)]) with
  | error e =>
    rw [htext] at h
    cases h
  | ok text =>
  rw [htext] at h
  cases h
  have hts : ∃ digits, dumps (.int ts) = .ok digits := by
    obtain ⟨entries, hentries, -⟩ := of_bind_ok htext
    obtain ⟨_, -, hentries⟩ := of_bind_ok hentries
    obtain ⟨more, hmore, -⟩ := of_bind_ok hentries
    obtain ⟨digits, hdigits, -⟩ := of_bind_ok hmore
    exact ⟨digits, hdigits⟩
  obtain ⟨digits, hdigits⟩ := hts
  have hwritable : Writable (py_dict [("price", str_value price), ("ts", .int ts)]) := by
    simp [str_value, writable_int_of_dumps hdigits]
  obtain ⟨text', htext', hread⟩ := json_loads_dumps hwritable
  obtain rfl := Except.ok.inj (htext.symm.trans htext')
  rw [read_py_dict _ (by simp)] at hread
  refine ⟨to_json (.int ts), ?_⟩
  rw [loads_json, String.toList_ofList, hread]
  simp [Except.map, to_json_py_dict, str_value, shared.join, build, to_json]

theorem price_of_text {price : String} {p : ℚ} (hp : Decimal.parse price = some (.finite p))
    (hpos : 0 < p) (shown : Json) :
    trade_price (.obj [("price", .str price), ("ts", shown)]) = .ok (some (.finite p)) := by
  have hprice : IsPrice (.str price) p := ⟨hp, hpos⟩
  unfold trade_price
  have hget : (Json.obj [("price", .str price), ("ts", shown)]).get "price" =
      .ok (some (.str price)) := rfl
  simp only [hget, Bind.bind, Except.bind, Option.getD_some, hprice.quoted, if_true]
  simp [numberOf, Json.pyStr, hp, execution.candidate, hpos]

/-! ## The entry under the key of a price -/

/-- An event that tells of a price is a trade. -/
theorem trade_of_place {K : MarketKey} (hkind : K.kind = .price)
    {event : normalizer.handlers.RawEvent} {result : normalizer.handlers.HandlerResult}
    (hroute : route event "" none = .ok (some result)) {i : Nat}
    (hplace : K.place result.event = some i) : i = 0 ∧ TradeWrite event result := by
  have hprice : "price" ∈ result.event.tails.map (·.1) := by
    unfold MarketKey.place at hplace
    split at hplace
    · obtain ⟨hi, hkey, -⟩ := List.findIdx?_eq_some_iff_getElem.mp hplace
      have htail := of_decide_eq_true hkey
      rw [hkind] at htail
      exact List.mem_map.mpr ⟨_, List.getElem_mem hi, htail⟩
    · cases hplace
  have helse : ¬ Elsewhere event.source_stream := by
    intro helse
    rw [(writes_elsewhere K helse hroute).2] at hprice
    cases hprice
  have hwrites := writes_market helse hroute
  have htrade := hwrites.price hprice
  refine ⟨?_, htrade⟩
  obtain ⟨ts, value, -, hhot⟩ := htrade.written
  rw [← place_of_writes K hwrites, hhot] at hplace
  obtain ⟨hi, -⟩ := List.findIdx?_eq_some_iff_getElem.mp hplace
  simpa using hi

/-- What a trade tells of the price of its symbol is read back as the price of its payload. -/
theorem price_of_told {K : MarketKey} (hkind : K.kind = .price) {h : Handling} {entry : RedisEntry}
    (htold : K.told h = some entry) {event : normalizer.handlers.RawEvent}
    (hraw : h.raw = some (.ok event)) {price : String}
    (hprice : PyJson.lookup "p" event.payload = some (str_value price)) {p : ℚ}
    (hp : Decimal.parse price = some (.finite p)) (hpos : 0 < p) {self : PaperExecutionAdapter}
    (hloads : self.loads = loads_json) : self.price_at trade_price entry.value = some (.finite p) := by
  unfold MarketKey.told at htold
  rw [hraw] at htold
  dsimp only at htold
  cases hroute : route event "" none with
  | error e => simp [hroute] at htold
  | ok result =>
    cases result with
    | none => simp [hroute] at htold
    | some result =>
      simp only [hroute] at htold
      obtain ⟨i, hplace, htold⟩ := Option.bind_eq_some_iff.mp htold
      obtain ⟨w, hw, htold⟩ := Option.bind_eq_some_iff.mp htold
      obtain ⟨rfl, htrade⟩ := trade_of_place hkind hroute hplace
      obtain ⟨ts, value, hvalue, hhot⟩ := htrade.written
      rw [hhot, List.getElem?_cons_zero, Option.some.injEq] at hw
      split at htold
      · rw [Option.some.injEq] at htold
        subst hw htold
        rw [hprice, Option.getD_some] at hvalue
        obtain ⟨shown, hread⟩ := loads_price_text hvalue
        have hne : value ≠ "" := by
          rintro rfl
          cases hread
        unfold PaperExecutionAdapter.price_at
        rw [if_neg hne, hloads, hread]
        simp only [price_of_text hp hpos]
      · cases htold

/-! ## From the payload to the fill -/

/-- The last entry that tells of the key is what it holds. -/
theorem keys_of_last (consumer : NormalizerConsumer) (K : MarketKey) (r : Redis)
    (before : List Handling) {after : List Handling} {h : Handling} {entry : RedisEntry} (htold : K.told h = some entry)
    (hafter : ∀ h' ∈ after, K.told h' = none) :
    (consumer.runs r (before ++ h :: after)).keys K.key = some entry := by
  have hstored : stored K.key = K.told := funext (stored_eq_told K)
  have hnone : after.filterMap K.told = [] := List.filterMap_eq_nil_iff.mpr hafter
  rw [consumer.keys_of_runs, hstored, List.filterMap_append, List.filterMap_cons, htold, hnone]
  simp

/-- Whatever Redis made of the commands before and after: while the last entry that tells of the
price lives, and no analytics are in front of it, a paper market order fills at the price that
its trade had, rounded to cents. -/
theorem paper_order_fills_at_last_trade (consumer : NormalizerConsumer)
    {self : PaperExecutionAdapter} (hredis : self.redis = true) (hloads : self.loads = loads_json)
    {K : MarketKey} (hkind : K.kind = .price) (r : Redis) (before after : List Handling)
    {h : Handling} {entry : RedisEntry} {expires : Nat} (htold : K.told h = some entry)
    (hafter : ∀ h' ∈ after, K.told h' = none) (hexpires : entry.expires = some expires)
    {event : normalizer.handlers.RawEvent} (hraw : h.raw = some (.ok event)) {price : String}
    (hprice : PyJson.lookup "p" event.payload = some (str_value price)) {p : ℚ}
    (hp : Decimal.parse price = some (.finite p)) (hpos : 0 < p) {w : World}
    (hw : w.redis = consumer.runs r (before ++ h :: after)) (hnow : w.now < expires)
    {request : ExecutionRequest} (hlimit : request.trade_intent.limit_price = none)
    (hmarket : request.trade_intent.market_type = K.market_type)
    (hsymbol : request.trade_intent.symbol = K.symbol)
    (hsnapshot : self.offer w
      (RedisKeys.analytics_snapshot K.market_type.value K.symbol, snapshot_price) = none)
    (client_order_id : String) :
    (w.run (onRedis (self.submit request client_order_id)) []).1 =
      (Decimal.quantize 2 p).bind fun fill_price =>
        self.response request client_order_id (some fill_price) := by
  have hkey : K.key = RedisKeys.market_price K.market_type.value K.symbol := by
    rw [market_price_eq, MarketKey.key, hkind]
    rfl
  have hlive : w.redis.live w.now K.key = some entry.value := by
    have hlast := keys_of_last consumer K r before htold hafter
    unfold Redis.live
    rw [hw, hlast]
    simp only [hexpires, if_pos hnow]
  have hoffer : self.offer w (RedisKeys.market_price K.market_type.value K.symbol, trade_price) =
      some (.finite p) := by
    unfold PaperExecutionAdapter.offer
    rw [← hkey, hlive]
    exact price_of_told hkind htold hraw hprice hp hpos hloads
  have hfirst : self.first_offer w request.trade_intent = some (.finite p) := by
    unfold PaperExecutionAdapter.first_offer PaperExecutionAdapter.all_sources
    rw [if_pos hredis, hmarket, hsymbol, PaperExecutionAdapter.sources]
    simp [hsnapshot, hoffer]
  rw [self.run_submit]
  unfold PaperExecutionAdapter.resolved
  rw [hlimit, hfirst]
  simp only [quantize_price]
  cases Decimal.quantize 2 p <;> rfl

/-- A trade of BTCUSDT at the time and the price, published and then written with the fate. -/
def demo_trade (price : String) (now : Nat) (fate : Fate) : Handling where
  msg_id := "1-0"
  raw := some (.ok {
    market_type := .spot
    source_stream := "btcusdt@trade"
    received_ms := now
    payload := [(py_text "s", str_value "BTCUSDT"), (py_text "p", str_value price)] })
  turns := [⟨now, .answered⟩, ⟨now, fate⟩, ⟨now, .answered⟩]

def demo_key : MarketKey where
  market_type := .spot
  symbol := "BTCUSDT"
  kind := .price
  plain_symbol := by simp
  plain_kind := trivial

def demo_reads_json : PaperExecutionAdapter where
  sha256 := id
  loads := loads_json

/-- The second trade is written and its answer is lost; the write of the third one is lost. -/
def demo_prices : World :=
  { demo_world with
    now := 61000
    redis := ({} : NormalizerConsumer).runs Redis.empty ([demo_trade "49000" 0 .answered] ++
      demo_trade "50000.00" 2000 .unanswered :: [demo_trade "51000" 3000 .lost]) }

theorem demo_told : demo_key.told (demo_trade "50000.00" 2000 .unanswered) =
    some ⟨"\x7b\"price\": \"50000.00\", \"ts\": 2000\x7d", some 62000⟩ := by decide +kernel

/-- After 59 s the order is filled at the price of the second trade. -/
theorem a_paper_order_fills_at_the_second_trade :
    (demo_prices.run (onRedis (demo_reads_json.submit (PaperExecutionAdapter.demo_paper_request demo_intent) "c")) []).1 =
      (Decimal.quantize 2 50000).bind fun fill_price =>
        demo_reads_json.response (PaperExecutionAdapter.demo_paper_request demo_intent) "c" (some fill_price) :=
  paper_order_fills_at_last_trade {} rfl rfl (K := demo_key) rfl Redis.empty
    [demo_trade "49000" 0 .answered] [demo_trade "51000" 3000 .lost] demo_told (by decide +kernel) rfl
    rfl rfl (by decide +kernel) (by norm_num) rfl (by decide) rfl rfl rfl (by decide +kernel) "c"

end trading_platform.price_feed
