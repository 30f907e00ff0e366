-- The position size check and what a paper order fills. The check looks at the
-- notional that the intent declares, and the order fills `size` at a price
-- that is found elsewhere. While the declared notional covers that fill, the
-- filled notional is within the cap, up to the rounding of the price.
import TradingPlatform.Execution.PaperAdapter
import TradingPlatform.Execution.IntentOnce

open resumption
open trading_platform.shared

namespace trading_platform.execution

open Decimal (Number)

/-! ## What the risk engine passed -/

/-- The evaluation ended in a decision that passes. -/
def approved : Except PyErr RiskDecision → Bool
  | .ok decision => decision.passed
  | .error _ => false

/-- One control that is read: present, it blocks. -/
theorem free_read {key : String} {blocked rest : RedisPy RiskDecision}
    {Q : Except PyErr RiskDecision → Unit → Prop} (herr : ∀ e, Q (.error e) ())
    (hblocked : Obeys (redisPart Protocol.free) () blocked Q)
    (hrest : Obeys (redisPart Protocol.free) () rest Q) :
    Obeys (redisPart Protocol.free) ()
      (redis (.exists key) >>= fun b => if b = true then blocked else rest) Q :=
  obeys_exists trivial herr hblocked hrest

/-- An evaluation that is approved ended in the structural checks. -/
theorem evaluate_approved (engine : ExecutionRiskEngine) (request : ExecutionRequest)
    (loss : Option ℚ) (positions : Option Nat) (limits_override : Option RiskLimits) :
    Obeys (redisPart Protocol.free) ()
      (engine.evaluate request loss positions limits_override) fun r _ => approved r = true →
        ∀ check ∈ engine.sync_results request (limits_override.getD engine.limits) loss positions,
          check.passed = true := by
  unfold ExecutionRiskEngine.evaluate
  refine free_read (fun e h => nomatch h) (fun h => nomatch h) ?_
  refine free_read (fun e h => nomatch h) (fun h => nomatch h) ?_
  refine free_read (fun e h => nomatch h) (fun h => nomatch h) ?_
  refine free_read (fun e h => nomatch h) (fun h => nomatch h) ?_
  refine free_read (fun e h => nomatch h) ?_ ?_
  · -- on cooldown: the TTL is read for the report only
    rw [obeys_bind]
    refine obeys_perform.mpr ⟨trivial, fun r => ?_⟩
    cases r with
    | error e => exact fun h => nomatch h
    | ok ttl => exact fun h => nomatch h
  · intro hpassed
    exact (ExecutionRiskEngine.sync_decision_passed ..).mp hpassed

/-- What was approved has its checked notional within the limit. -/
theorem notional_of_approved {engine : ExecutionRiskEngine} {request : ExecutionRequest}
    {loss : Option ℚ} {positions : Option Nat} {limits_override : Option RiskLimits} {w : World}
    {os : List Choice}
    (h : approved (w.run (onRedis (engine.evaluate request loss positions limits_override)) os).1 =
      true) :
    ∀ n ∈ checked_notional request.trade_intent,
      n ≤ (limits_override.getD engine.limits).max_position_size_usd := by
  have hall := run_outcome World.exec .idle
    (obeys_onRedis.mpr (evaluate_approved engine request loss positions limits_override)) w os h
  rw [← check_max_position_size_passed]
  apply hall
  simp [ExecutionRiskEngine.sync_results]

/-! ## Where the price of a paper fill comes from -/

/-- The values that a program read from Redis. -/
def reads : Protocol PyErr Cmd Ans (List (String × String)) where
  allows _ c := ∃ key, c = .redis (.get key)
  next seen c r := match c, r with
    | .redis (.get key), .ok (some raw) => seen ++ [(key, raw)]
    | _, _ => seen

/-- A program of reads leaves Redis as it is, and sees what is there. -/
theorem reads_step {w0 w : World} {seen : List (String × String)} {c : Cmd} (o : Choice)
    (h : w.redis.keys = w0.redis.keys ∧
      ∀ x ∈ seen, ∃ e, w0.redis.keys x.1 = some e ∧ e.value = x.2)
    (ha : reads.allows seen c) :
    (w.exec c o).2.redis.keys = w0.redis.keys ∧
      ∀ x ∈ reads.next seen c (w.exec c o).1, ∃ e, w0.redis.keys x.1 = some e ∧ e.value = x.2 := by
  obtain ⟨key, rfl⟩ := ha
  obtain ⟨hkeys, hseen⟩ := h
  refine ⟨funext fun k => ?_, ?_⟩
  · rw [World.exec_keys w (.redis (.get key)) o k id, hkeys]
  · cases hr : (w.exec (.redis (.get key)) o).1 with
    | error e => exact hseen
    | ok found =>
      cases found with
      | none => exact hseen
      | some raw =>
        intro x hx
        rcases List.mem_append.mp hx with hx | hx
        · exact hseen x hx
        · obtain rfl := List.mem_singleton.mp hx
          have hlive : w.redis.live w.now key = some raw := by
            unfold World.exec at hr
            split at hr
            · simpa [World.effect, World.called, Redis.exec] using hr
            · cases hr
            · cases hr
          rw [← hkeys]
          unfold Redis.live at hlive
          cases he : w.redis.keys key with
          | none => rw [he] at hlive; cases hlive
          | some e =>
            rw [he] at hlive
            refine ⟨e, rfl, ?_⟩
            dsimp only at hlive
            split at hlive
            · split at hlive
              · exact Option.some.inj hlive
              · cases hlive
            · exact Option.some.inj hlive

namespace PaperExecutionAdapter

variable (self : PaperExecutionAdapter)

/-- The sources of an intent: those of its market type, then the other ones. -/
def all_sources (intent : TradeIntent) : List (String × (Json → Except PyErr (Option Number))) :=
  sources intent.market_type intent.symbol ++
    sources (market_type_fallback intent.market_type) intent.symbol

/-- A price that one of the sources gave for a value that was read. -/
def Quoted (intent : TradeIntent) (seen : List (String × String)) (p : Number) : Prop :=
  ∃ source ∈ all_sources intent, ∃ raw, (source.1, raw) ∈ seen ∧
    self.price_at source.2 raw = some p

theorem first_price_quoted (intent : TradeIntent)
    (sources : List (String × (Json → Except PyErr (Option Number))))
    (hsources : ∀ s ∈ sources, s ∈ all_sources intent) (seen : List (String × String)) :
    Obeys (redisPart reads) seen (self.first_price sources) fun r seen =>
      ∀ p, r = .ok (some p) → self.Quoted intent seen p := by
  induction sources generalizing seen with
  | nil =>
    intro p hp
    cases hp
  | cons source rest ih =>
    unfold first_price
    rw [obeys_bind]
    refine obeys_perform.mpr ⟨⟨_, rfl⟩, ?_⟩
    intro r
    have ih' := fun seen => ih (fun s hs => hsources s (List.mem_cons_of_mem _ hs)) seen
    rcases r with e | found
    · intro p hp
      cases hp
    · cases found with
      | none => exact ih' _
      | some raw =>
        show Obeys (redisPart reads) (seen ++ [(source.1, raw)]) _ _
        rw [Option.bind_some]
        cases hprice : self.price_at source.2 raw with
        | none => exact ih' _
        | some p =>
          intro p' hp'
          cases hp'
          exact ⟨source, hsources source List.mem_cons_self, raw, by simp, hprice⟩

/-- Where a fill price comes from: the limit price, a rounded price of Redis,
or the rounded quotient of `size_usd` and `size`. -/
inductive PriceOf (intent : TradeIntent) (seen : List (String × String)) (price : ℚ) : Prop where
  | limit (h : intent.limit_price = some price)
  | quoted (h : intent.limit_price = none) (p : ℚ) (hp : self.Quoted intent seen (.finite p))
      (hq : Decimal.quantize 2 p = .ok price)
  | derived (h : intent.limit_price = none) (u : ℚ) (hu : intent.size_usd = some u)
      (hsize : 0 < intent.size) (hq : Decimal.quantize 2 (u / intent.size) = .ok price)

/-- A price of Redis goes on rounded. -/
theorem quantized_price {intent : TradeIntent} {seen : List (String × String)} {n : Number}
    (h : intent.limit_price = none) (hn : self.Quoted intent seen n)
    {Q : Except PyErr (Option ℚ) → List (String × String) → Prop}
    (herr : ∀ e, Q (.error e) seen)
    (hok : ∀ price, self.PriceOf intent seen price → Q (.ok (some price)) seen) :
    Obeys (redisPart reads) seen
      (Prog.ofExcept (quantize_price n) >>= fun price => return some price) Q := by
  cases n with
  | finite p =>
    show Obeys (redisPart reads) seen
      (Prog.ofExcept (Decimal.quantize 2 p) >>= fun price => return some price) Q
    cases hq : Decimal.quantize 2 p with
    | error e => exact herr e
    | ok price => exact hok price (.quoted h p hn hq)
  | infinity s => exact herr _
  | nan => exact herr _

theorem resolve_redis_price_of (intent : TradeIntent) (h : intent.limit_price = none) :
    Obeys (redisPart reads) [] (self.resolve_redis_price intent) fun r seen =>
      ∀ price, r = .ok (some price) → self.PriceOf intent seen price := by
  have herr : ∀ (e : PyErr) (seen : List (String × String)) (price : ℚ),
      (.error e : Except PyErr (Option ℚ)) = .ok (some price) →
        self.PriceOf intent seen price := by
    intro e seen price hp
    cases hp
  have hok : ∀ (seen : List (String × String)) (price : ℚ), self.PriceOf intent seen price →
      ∀ price', (.ok (some price) : Except PyErr (Option ℚ)) = .ok (some price') →
        self.PriceOf intent seen price' := by
    intro seen price hp price' he
    cases he
    exact hp
  unfold resolve_redis_price redis_price
  refine obeys_bind_of (self.first_price_quoted intent _
    (fun s hs => List.mem_append_left _ hs) []) (fun found seen hfound => ?_) fun e seen _ => herr e seen
  cases found with
  | some n => exact self.quantized_price h (hfound n rfl) (fun e => herr e seen) (hok seen)
  | none =>
    refine obeys_bind_of (self.first_price_quoted intent _
      (fun s hs => List.mem_append_right _ hs) seen) (fun found seen hfound => ?_)
      fun e seen _ => herr e seen
    cases found with
    | some n => exact self.quantized_price h (hfound n rfl) (fun e => herr e seen) (hok seen)
    | none =>
      intro price hp
      cases hp

theorem resolve_fill_price_of (intent : TradeIntent) :
    Obeys (redisPart reads) [] (self.resolve_fill_price intent) fun r seen =>
      ∀ price, r = .ok (some price) → self.PriceOf intent seen price := by
  unfold resolve_fill_price
  cases hlimit : intent.limit_price with
  | some limit_price =>
    intro price hp
    cases hp
    exact .limit hlimit
  | none =>
    have hfirst : Obeys (redisPart reads) []
        (if self.redis = true then self.resolve_redis_price intent else pure none) fun r seen =>
          ∀ price, r = .ok (some price) → self.PriceOf intent seen price := by
      rw [obeys_ite]
      refine ⟨fun _ => self.resolve_redis_price_of intent hlimit, fun _ price hp => ?_⟩
      cases hp
    dsimp only
    refine obeys_bind_of hfirst (fun found seen hfound => ?_) fun e seen _ => ?_
    swap
    · intro price hp
      cases hp
    cases found with
    | some price => exact hfound
    | none =>
      dsimp only
      unfold derived_price
      cases husd : intent.size_usd with
      | none =>
        intro price hp
        cases hp
      | some u =>
        dsimp only
        split
        · rename_i hsize
          cases hq : Decimal.quantize 2 (u / intent.size) with
          | error e =>
            intro price hp
            cases hp
          | ok q =>
            intro price hp
            cases hp
            exact .derived hlimit u husd hsize hq
        · intro price hp
          cases hp

/-! ## The cap -/

/-- The notional that a submission filled, when it succeeded. -/
def filled_notional : Except PyErr AdapterResponse → Option ℚ
  | .ok r =>
    if r.success then r.fill_quantity.bind fun qty => r.fill_price.map (qty * ·) else none
  | .error _ => none

theorem filled_notional_filled {request : ExecutionRequest} {client_order_id : String}
    {price n : ℚ} (hn : n ∈ filled_notional (self.filled request client_order_id price)) :
    n = request.trade_intent.size * price := by
  unfold filled at hn
  dsimp only at hn
  cases hcom : Decimal.quantize 8 (request.trade_intent.size * price * PAPER_COMMISSION_RATE) with
  | error e =>
    rw [hcom] at hn
    cases hn
  | ok commission =>
    rw [hcom] at hn
    exact (Option.some.inj hn).symm

/-- A submission that succeeds fills `size` at a positive price of the intent. -/
theorem submit_fills (request : ExecutionRequest) (client_order_id : String) :
    Obeys (redisPart reads) [] (self.submit request client_order_id) fun r seen =>
      ∀ n ∈ filled_notional r, ∃ price, 0 < price ∧ self.PriceOf request.trade_intent seen price ∧
        n = request.trade_intent.size * price := by
  unfold submit
  refine obeys_bind_of (self.resolve_fill_price_of request.trade_intent)
    (fun found seen hfound => ?_) fun e seen _ n hn => by cases hn
  cases found with
  | none =>
    intro n hn
    cases hn
  | some price =>
    dsimp only
    split
    · rename_i hpos
      rw [obeys_ofExcept]
      intro n hn
      exact ⟨price, hpos, hfound price rfl, self.filled_notional_filled hn⟩
    · intro n hn
      cases hn

/-- What a price source has to say is within `u` for the size of the intent. -/
def SourceWithin (w : World) (intent : TradeIntent) (u : ℚ)
    (source : String × (Json → Except PyErr (Option Number))) : Prop :=
  match (w.redis.keys source.1).bind fun e => self.price_at source.2 e.value with
  | some (.finite p) => intent.size * p ≤ u
  | _ => True

instance (w : World) (intent : TradeIntent) (u : ℚ)
    (source : String × (Json → Except PyErr (Option Number))) :
    Decidable (self.SourceWithin w intent u source) := by
  unfold SourceWithin
  split <;> infer_instance

/-- The declared notional covers the fill: a limit order has no `size_usd` below
its notional, and an order without a limit price has a `size_usd` that covers
its size at every price that Redis has for it. -/
def Covered (w : World) (intent : TradeIntent) : Prop :=
  match intent.limit_price, intent.size_usd with
  | some limit_price, some u => intent.size * limit_price ≤ u
  | some _, none => True
  | none, some u => ∀ source ∈ all_sources intent, self.SourceWithin w intent u source
  | none, none => False

instance (w : World) (intent : TradeIntent) : Decidable (self.Covered w intent) := by
  unfold Covered
  split <;> infer_instance

theorem le_of_rounded {size p price u : ℚ} (hq : Decimal.quantize 2 p = .ok price)
    (h : size * p ≤ u) : size * price ≤ u + |size| / 200 := by
  have hnear := Decimal.quantize_near hq
  have hdiff : size * (price - p) ≤ |size| * (1 / 200) := by
    calc size * (price - p) ≤ |size * (price - p)| := le_abs_self _
      _ = |size| * |price - p| := abs_mul _ _
      _ ≤ |size| * (1 / 200) := by
        refine mul_le_mul_of_nonneg_left ?_ (abs_nonneg _)
        refine hnear.trans (le_of_eq ?_)
        norm_num
  linarith

/-- For every intent, every limits and every Redis content: what the engine
passed and the paper adapter then filled is within the maximal position size,
up to the rounding of the price, when the notional that the intent declares
covers the fill. -/
theorem filled_notional_is_capped (engine : ExecutionRiskEngine) (request : ExecutionRequest)
    (client_order_id : String) (loss : Option ℚ) (positions : Option Nat)
    (limits_override : Option RiskLimits) (w w' : World) (os os' : List Choice)
    (hpass : approved
      (w.run (onRedis (engine.evaluate request loss positions limits_override)) os).1 = true)
    (hcovered : self.Covered w' request.trade_intent) :
    ∀ n ∈ filled_notional (w'.run (self.adapter.submit request client_order_id) os').1,
      n ≤ (limits_override.getD engine.limits).max_position_size_usd +
        |request.trade_intent.size| / 200 := by
  have hcap := notional_of_approved hpass
  obtain ⟨seen, ⟨-, hseen⟩, hfill⟩ := resumption.run_keeps World.exec .idle
    (I := fun w seen => w.redis.keys = w'.redis.keys ∧
      ∀ x ∈ seen, ∃ e, w'.redis.keys x.1 = some e ∧ e.value = x.2)
    (fun w seen c o h ha => reads_step o h ha) w' os'
    (obeys_onRedis.mpr (self.submit_fills request client_order_id)) ⟨rfl, fun x hx => by cases hx⟩
  intro n hn
  obtain ⟨price, hpos, hprice, rfl⟩ := hfill n hn
  have hroom : 0 ≤ |request.trade_intent.size| / 200 := by positivity
  unfold checked_notional at hcap
  unfold Covered at hcovered
  cases hprice with
  | limit hlimit =>
    rw [hlimit] at hcap hcovered
    cases husd : request.trade_intent.size_usd with
    | none =>
      rw [husd] at hcap
      dsimp only at hcap
      rw [if_pos hpos] at hcap
      have := hcap _ rfl
      linarith
    | some u =>
      rw [husd] at hcap hcovered
      have := hcap _ rfl
      dsimp only at hcovered
      linarith
  | quoted hlimit p hp hq =>
    rw [hlimit] at hcovered
    cases husd : request.trade_intent.size_usd with
    | none =>
      rw [husd] at hcovered
      exact absurd hcovered id
    | some u =>
      rw [husd] at hcap hcovered
      obtain ⟨source, hsource, raw, hmem, hat⟩ := hp
      obtain ⟨e, he, hraw⟩ := hseen _ hmem
      have hwithin := hcovered source hsource
      unfold SourceWithin at hwithin
      rw [he] at hwithin
      simp only [Option.bind_some, hraw, hat] at hwithin
      have hrounded := le_of_rounded hq hwithin
      have := hcap _ rfl
      linarith
  | derived hlimit u husd hsize hq =>
    rw [husd] at hcap
    have hwithin : request.trade_intent.size * (u / request.trade_intent.size) ≤ u := by
      rw [mul_div_cancel₀ _ (ne_of_gt hsize)]
    have hrounded := le_of_rounded hq hwithin
    have := hcap _ rfl
    linarith

/-! ## An order that declares no notional -/

/-- The trade price key of BTCUSDT at 50000. -/
def demo_quoted (price : String) : World :=
  { demo_world with
    redis := Redis.empty.put (RedisKeys.market_price "spot" "BTCUSDT") ⟨price, none⟩ }

/-- `json.loads` for a price: the text is the price itself. -/
def demo_paper : PaperExecutionAdapter where
  sha256 := id
  loads raw := .ok (.obj [("price", .str raw)])

def demo_paper_request (intent : TradeIntent) : ExecutionRequest where
  job_id := "j1"
  trade_intent := intent
  user_id := "u"
  account_id := demo_account
  trading_mode := .paper
  approval_level := .l2_paper

/-- A market order of 1 without `size_usd` passes the check, which has nothing
to compare, and fills 50000 under a cap of 1000. -/
theorem an_undeclared_notional_is_filled :
    approved ((demo_quoted "50000").run (onRedis (({} : ExecutionRiskEngine).evaluate
      (demo_paper_request demo_intent) none none none)) []).1 = true ∧
    ∃ n, filled_notional ((demo_quoted "50000").run (demo_paper.adapter.submit
      (demo_paper_request demo_intent) "c") []).1 = some n ∧
        ¬ n ≤ ({} : RiskLimits).max_position_size_usd + |demo_intent.size| / 200 := by
  refine ⟨by decide +kernel, 50000, by decide +kernel, by decide +kernel⟩

/-- An order of 2 that declares 500 and fills at the price of Redis. -/
theorem a_declared_notional_is_within_the_cap :
    let request := demo_paper_request { demo_intent with size := 2, size_usd := some 500 }
    ∀ n ∈ filled_notional ((demo_quoted "249.996").run
        (demo_paper.adapter.submit request "c") []).1,
      n ≤ ({} : RiskLimits).max_position_size_usd + |(2 : ℚ)| / 200 :=
  demo_paper.filled_notional_is_capped {}
    (demo_paper_request { demo_intent with size := 2, size_usd := some 500 }) "c" none none none
    (demo_quoted "249.996") (demo_quoted "249.996") [] [] (by decide +kernel) (by decide +kernel)

end PaperExecutionAdapter

end trading_platform.execution
