-- The symbol of a paper trade is the text that the client wrote. The risk engine looks that
-- text up in its keys and in its lists, so two spellings of one symbol are two symbols to it.
import TradingPlatform.McpServer.PaperSizes
import TradingPlatform.Normalizer.OrderBook
import Mathlib

open resumption
open trading_platform.shared
open trading_platform.execution (World ExecutionRiskEngine RedisPy)
open trading_platform.normalizer (normalize_symbol)

namespace trading_platform.mcp_server

/-! ## Intents of the tool -/

/-- What a call of the tool puts on the stream. -/
def sent_by (env : PaperEnv) (loads : String → Except PyErr Json) (intent_id : Uuid)
    (args : List (String × Json)) : List IntentMessage :=
  (run env.exec () (call_tool loads intent_id args) [] []).2.1

/-- An intent that `request_paper_trade` can publish. -/
def CanPublish (intent : TradeIntent) : Prop :=
  ∃ env loads intent_id args, ∃ message ∈ sent_by env loads intent_id args, message.intent = intent

/-- Two intents that differ in the spelling of one symbol. -/
structure SpelledAlike (a b : TradeIntent) : Prop where
  rest : b = { a with symbol := b.symbol }
  symbol : normalize_symbol a.symbol = normalize_symbol b.symbol

/-! ## The decision, from what Redis holds -/

/-- The control is set. -/
def isSet (w : World) (key : String) : Bool := (under w key).isSome

section Decision

variable (engine : ExecutionRiskEngine) (w : World) (request : ExecutionRequest)
  (loss : Option ℚ) (positions : Option Nat) (limits : Option RiskLimits)

/-- The evaluation of an intent that reaches the engine in `request`. -/
def decision (intent : TradeIntent) : Except PyErr RiskDecision :=
  answer w (engine.evaluate { request with trade_intent := intent } loss positions limits)

/-- The structural checks of an intent by their names. -/
def results (intent : TradeIntent) : List (String × Bool) :=
  (engine.sync_results { request with trade_intent := intent } (limits.getD engine.limits) loss
    positions).map fun r => (r.name, r.passed)

/-- Whether an intent passes and what was checked, from the five controls and the structural
checks. -/
def verdict_of (kill_switch user_pause symbol_pause circuit_breaker symbol_cooldown : Bool)
    (results : List (String × Bool)) : Bool × List (String × Bool) :=
  if kill_switch then (false, [("kill_switch", false)])
  else if user_pause then (false, [("kill_switch", true), ("user_paused", false)])
  else if symbol_pause then
    (false, [("kill_switch", true), ("user_paused", true), ("symbol_paused", false)])
  else if circuit_breaker then
    (false, [("kill_switch", true), ("user_paused", true), ("symbol_paused", true),
      ("circuit_breaker", false)])
  else if symbol_cooldown then
    (false, [("kill_switch", true), ("user_paused", true), ("symbol_paused", true),
      ("circuit_breaker", true), ("symbol_cooldown", false)])
  else
    (results.all (·.2),
      [("kill_switch", true), ("user_paused", true), ("symbol_paused", true),
        ("circuit_breaker", true), ("symbol_cooldown", true)] ++ results)

/-- The verdict on an intent, on what Redis holds. -/
def verdict (intent : TradeIntent) : Bool × List (String × Bool) :=
  verdict_of (isSet w (RedisKeys.kill_switch request.account_id))
    (isSet w (RedisKeys.user_pause request.account_id))
    (isSet w (RedisKeys.symbol_pause request.account_id intent.symbol))
    (isSet w (RedisKeys.circuit_breaker request.account_id))
    (isSet w (RedisKeys.symbol_cooldown request.account_id intent.symbol))
    (results engine request loss positions limits intent)

theorem answer_exists {α : Type} (key : String) (f : Bool → RedisPy α) :
    answer w (execution.redis (.exists key) >>= f) = answer w (f (isSet w key)) := rfl

theorem answer_ttl {α : Type} (key : String) (f : Int → RedisPy α) :
    answer w (execution.redis (.ttl key) >>= f) = answer w (f (w.redis.secondsLeft w.now key)) :=
  rfl

/-- One control of the evaluation. -/
theorem answer_control {α : Type} (key : String) (blocked rest : RedisPy α) :
    answer w (execution.redis (.exists key) >>= fun b => if b = true then blocked else rest) =
      if isSet w key = true then answer w blocked else answer w rest := by
  rw [answer_exists]
  split <;> rfl

theorem decision_verdict (intent : TradeIntent) :
    ∃ d, decision engine w request loss positions limits intent = .ok d ∧
      (d.passed, d.checks) = verdict engine w request loss positions limits intent := by
  unfold decision ExecutionRiskEngine.evaluate verdict verdict_of
  dsimp only [execution.KillSwitchControl.is_kill_switch_active,
    execution.KillSwitchControl.is_user_paused, execution.KillSwitchControl.is_symbol_paused,
    execution.KillSwitchControl.is_circuit_breaker_active, execution.CooldownControl.is_on_cooldown]
  rw [answer_control]
  split
  · exact ⟨_, rfl, rfl⟩
  rw [answer_control]
  split
  · exact ⟨_, rfl, rfl⟩
  rw [answer_control]
  split
  · exact ⟨_, rfl, rfl⟩
  rw [answer_control]
  split
  · exact ⟨_, rfl, rfl⟩
  rw [answer_control]
  split
  · -- on cooldown: the TTL is read for the report only
    exact ⟨_, rfl, rfl⟩
  · refine ⟨_, rfl, Prod.ext ?_ rfl⟩
    rw [Bool.eq_iff_iff, ExecutionRiskEngine.sync_decision_passed, List.all_eq_true]
    unfold results
    simp only [List.forall_mem_map]

end Decision

/-! ## Two spellings -/

/-- The decisions pass or block alike, by the same checks. -/
def SameDecision (r r' : Except PyErr RiskDecision) : Prop :=
  ∃ d d', r = .ok d ∧ r' = .ok d' ∧ d.passed = d'.passed ∧ d.checks = d'.checks

/-- The allow list and the deny list let a spelling pass. -/
def Permits (engine : ExecutionRiskEngine) (symbol : String) : Prop :=
  symbol ∉ engine.denied_symbols ∧ ∀ l ∈ engine.allowed_symbols, symbol ∈ l

/-- The controls of an account treat two spellings alike. A control of the account blocks both
before the symbol is looked at; or both are paused; or neither is, and a circuit breaker or a
cooldown of each blocks both, or neither is on cooldown and the lists say the same of both. -/
def TreatedAlike (engine : ExecutionRiskEngine) (w : World) (account_id a b : String) : Prop :=
  isSet w (RedisKeys.kill_switch account_id) ∨
  isSet w (RedisKeys.user_pause account_id) ∨
  (isSet w (RedisKeys.symbol_pause account_id a) ∧ isSet w (RedisKeys.symbol_pause account_id b)) ∨
  ¬ isSet w (RedisKeys.symbol_pause account_id a) ∧
    ¬ isSet w (RedisKeys.symbol_pause account_id b) ∧
    (isSet w (RedisKeys.circuit_breaker account_id) ∨
    (isSet w (RedisKeys.symbol_cooldown account_id a) ∧
      isSet w (RedisKeys.symbol_cooldown account_id b)) ∨
    ¬ isSet w (RedisKeys.symbol_cooldown account_id a) ∧
      ¬ isSet w (RedisKeys.symbol_cooldown account_id b) ∧
      (Permits engine a ↔ Permits engine b))

theorem verdict_of_eq_iff (kill pause breaker paused_a paused_b cooling_a cooling_b : Bool)
    (results_a results_b : List (String × Bool)) :
    verdict_of kill pause paused_a breaker cooling_a results_a =
        verdict_of kill pause paused_b breaker cooling_b results_b ↔
      kill = true ∨ pause = true ∨ (paused_a = true ∧ paused_b = true) ∨
        ¬ paused_a = true ∧ ¬ paused_b = true ∧
          (breaker = true ∨ (cooling_a = true ∧ cooling_b = true) ∨
            ¬ cooling_a = true ∧ ¬ cooling_b = true ∧ results_a = results_b) := by
  cases kill
  · cases pause
    · cases paused_a <;> cases paused_b <;> cases breaker <;> cases cooling_a <;>
        cases cooling_b <;> simp [verdict_of]
      rintro rfl
      rfl
    · simp [verdict_of]
  · simp [verdict_of]

section Spelling

variable {engine : ExecutionRiskEngine} {w : World} {request : ExecutionRequest}
  {loss : Option ℚ} {positions : Option Nat} {limits : Option RiskLimits} {a b : TradeIntent}

theorem sameDecision_iff_verdict :
    SameDecision (decision engine w request loss positions limits a)
        (decision engine w request loss positions limits b) ↔
      verdict engine w request loss positions limits a =
        verdict engine w request loss positions limits b := by
  obtain ⟨d, hd, hverdict⟩ := decision_verdict engine w request loss positions limits a
  obtain ⟨d', hd', hverdict'⟩ := decision_verdict engine w request loss positions limits b
  rw [← hverdict, ← hverdict', hd, hd']
  constructor
  · rintro ⟨_, _, ⟨⟩, ⟨⟩, hpassed, hchecks⟩
    rw [hpassed, hchecks]
  · intro h
    obtain ⟨hpassed, hchecks⟩ := Prod.mk.inj h
    exact ⟨d, d', rfl, rfl, hpassed, hchecks⟩

/-- Of the structural checks, only the one of the lists looks at the symbol. -/
theorem results_eq_iff (h : b = { a with symbol := b.symbol }) :
    results engine request loss positions limits a = results engine request loss positions limits b ↔
      (Permits engine a.symbol ↔ Permits engine b.symbol) := by
  obtain ⟨symbol, rfl⟩ : ∃ symbol, b = { a with symbol := symbol } := ⟨_, h⟩
  have hpolicy (i : TradeIntent) :
      (execution.check_symbol_policy { request with trade_intent := i } engine.allowed_symbols
        engine.denied_symbols).passed = true ↔ Permits engine i.symbol :=
    execution.check_symbol_policy_passed _ _ _
  have hname (i : TradeIntent) :
      (execution.check_symbol_policy { request with trade_intent := i } engine.allowed_symbols
        engine.denied_symbols).name = "symbol_policy" := by
    unfold execution.check_symbol_policy
    dsimp only
    split
    · rfl
    · split
      · split <;> rfl
      · rfl
  have hcons (symbol : String) :
      results engine request loss positions limits { a with symbol := symbol } =
        ("symbol_policy", (execution.check_symbol_policy
          { request with trade_intent := { a with symbol := symbol } } engine.allowed_symbols
          engine.denied_symbols).passed) ::
          (results engine request loss positions limits a).tail := by
    rw [← hname { a with symbol := symbol }]
    rfl
  have hself : results engine request loss positions limits a = _ := hcons a.symbol
  rw [hself, hcons symbol, List.cons.injEq, Prod.mk.injEq]
  constructor
  · rintro ⟨⟨-, hsame⟩, -⟩
    rw [← hpolicy { a with symbol := symbol }, ← hsame]
    exact (hpolicy a).symm
  · intro hpermits
    refine ⟨⟨rfl, ?_⟩, rfl⟩
    rw [Bool.eq_iff_iff, hpolicy, hpolicy]
    exact hpermits

/-- For every content of Redis, every allow and deny list and every two intents that differ in
the spelling of the symbol alone: the engine decides the same on both exactly when the controls
treat the two spellings alike. -/
theorem same_decision_iff (h : SpelledAlike a b) :
    SameDecision (decision engine w request loss positions limits a)
        (decision engine w request loss positions limits b) ↔
      TreatedAlike engine w request.account_id a.symbol b.symbol := by
  rw [sameDecision_iff_verdict]
  unfold verdict TreatedAlike
  rw [verdict_of_eq_iff, results_eq_iff h.rest]

end Spelling

/-! ## Only one spelling is safe -/

/-- A world in which an operator has set the key. -/
def controlled_world (key : String) : World :=
  { World.empty with redis := Redis.empty.put key ⟨"1", none⟩ }

theorem isSet_controlled (key k : String) : isSet (controlled_world key) k = decide (k = key) := by
  unfold isSet under controlled_world Redis.live
  dsimp only
  rw [Redis.put_keys]
  by_cases h : k = key
  · simp [h]
  · simp [h, Redis.empty]

/-- Over all contents of Redis, no two spellings are treated alike. -/
theorem always_treated_alike_iff {account_id x y : String} :
    (∀ engine w, TreatedAlike engine w account_id x y) ↔ x = y := by
  constructor
  · intro h
    by_contra hne
    have hkill : RedisKeys.kill_switch account_id ≠ RedisKeys.symbol_pause account_id x :=
      RedisKeys.ne_of_prefix (by decide) (by decide) (by decide)
    have hpause : RedisKeys.user_pause account_id ≠ RedisKeys.symbol_pause account_id x :=
      RedisKeys.ne_of_take 7 (by decide) (by decide) (by decide)
    have hother : RedisKeys.symbol_pause account_id y ≠ RedisKeys.symbol_pause account_id x :=
      fun he => hne (RedisKeys.append_left_inj (RedisKeys.append_left_inj he)).symm
    have hpaused := h {} (controlled_world (RedisKeys.symbol_pause account_id x))
    unfold TreatedAlike at hpaused
    simp only [isSet_controlled, hkill, hpause, hother, decide_true, decide_false] at hpaused
    simp at hpaused
  · rintro rfl engine w
    unfold TreatedAlike
    by_cases hpaused : isSet w (RedisKeys.symbol_pause account_id x) = true
    · exact Or.inr (Or.inr (Or.inl ⟨hpaused, hpaused⟩))
    · refine Or.inr (Or.inr (Or.inr ⟨hpaused, hpaused, ?_⟩))
      by_cases hcooling : isSet w (RedisKeys.symbol_cooldown account_id x) = true
      · exact Or.inr (Or.inl ⟨hcooling, hcooling⟩)
      · exact Or.inr (Or.inr ⟨hcooling, hcooling, Iff.rfl⟩)

/-! ## Every spelling gets to the engine, and a pause holds for one -/

/-- The intent of a trade of one unit. -/
def paper_intent (symbol : String) : TradeIntent where
  intent_id := "i1"
  strategy_id := some "00000000-0000-0000-0000-000000000001"
  strategy_version := some 1
  symbol
  market_type := .futures
  side := .buy
  size := 1
  metadata := [("source", .str "mcp_paper_trade"), ("reason", .str "")]

def spelled_args (symbol : String) : List (String × Json) :=
  [("strategy_id", .str "00000000-0000-0000-0000-000000000001"), ("symbol", .str symbol),
    ("side", .str "BUY"), ("size", .num "1")]

def demo_sid : Uuid := "00000000-0000-0000-0000-000000000001"

/-- What the call reads of those arguments. -/
theorem reads_spelled {symbol : String} (h : symbol ≠ "") :
    missing_argument (spelled_args symbol) = none ∧
      float_argument (spelled_args symbol) "size_usd" = .ok none ∧
      float_argument (spelled_args symbol) "size" = .ok (some (.fin 1)) ∧
      read_request (argument (spelled_args symbol) "strategy_id")
        (argument (spelled_args symbol) "symbol") (argument (spelled_args symbol) "side") none
        (some (.fin 1)) (argument (spelled_args symbol) "reason") =
          .ok ⟨demo_sid, demo_sid, .str symbol, .buy, none, some (.fin 1), .str ""⟩ := by
  have hid : argument (spelled_args symbol) "strategy_id" = .str demo_sid := rfl
  have hsymbol : argument (spelled_args symbol) "symbol" = .str symbol := by
    simp [argument, spelled_args, List.lookup]
  have hside : argument (spelled_args symbol) "side" = .str "BUY" := by
    simp [argument, spelled_args, List.lookup]
  have hreason : argument (spelled_args symbol) "reason" = .str "" := by
    simp [argument, spelled_args, List.lookup]
  have huuid : UUID demo_sid = .ok demo_sid := by decide +kernel
  have hbuy : side_of (upper "BUY") = some .buy := by decide +kernel
  have hone : PyFloat.ofText "1" = .ok (.fin 1) := by decide +kernel
  refine ⟨?_, ?_, ?_, ?_⟩
  · simp [missing_argument, hid, hsymbol, hside, Json.truthy, h, demo_sid]
  · simp [float_argument, spelled_args, List.lookup]
  · simp [float_argument, spelled_args, List.lookup, strategy_service.float_of, hone, Except.map]
  · rw [hid, hsymbol, hside, hreason]
    unfold read_request
    dsimp only
    rw [huuid]
    dsimp only
    rw [hbuy]
    rfl

/-- Whatever the client writes for the symbol is published. -/
theorem can_publish_any_spelling {symbol : String} (h : symbol ≠ "") :
    CanPublish (paper_intent symbol) := by
  obtain ⟨hgiven, husd, hsize, hread⟩ := reads_spelled h
  have hsent : Alone demo_env.exec () [] (call_tool demo_loads "i1" (spelled_args symbol))
      fun _ sent => sent = [⟨paper_intent symbol, "", demo_sid⟩] := by
    unfold call_tool request_paper_trade_tool
    rw [hgiven, husd, hsize, alone_bind, alone_attempt]
    simp only [Prog.ofExcept, Prog.done_bind]
    unfold request_paper_trade
    rw [hread]
    rfl
  refine ⟨demo_env, demo_loads, "i1", spelled_args symbol, ⟨paper_intent symbol, "", demo_sid⟩, ?_,
    rfl⟩
  have hlist : sent_by demo_env demo_loads "i1" (spelled_args symbol) = _ := hsent
  rw [hlist]
  exact List.mem_singleton.mpr rfl

/-- The request that the consumer builds for such an intent. -/
def paper_request : ExecutionRequest where
  job_id := "j1"
  trade_intent := paper_intent "BTCUSDT"
  user_id := "system"
  account_id := "default"
  trading_mode := .paper
  approval_level := .l2_paper

theorem spelled_alike : SpelledAlike (paper_intent "BTCUSDT") (paper_intent "btcusdt") :=
  ⟨rfl, by decide +kernel⟩

/-- Two spellings of BTCUSDT while BTCUSDT is paused: one is blocked, the other passes. -/
theorem a_lowercase_symbol_slips_through_a_pause :
    let w := controlled_world (RedisKeys.symbol_pause "default" "BTCUSDT")
    CanPublish (paper_intent "BTCUSDT") ∧ CanPublish (paper_intent "btcusdt") ∧
      SpelledAlike (paper_intent "BTCUSDT") (paper_intent "btcusdt") ∧
      ¬ SameDecision (decision {} w paper_request none none none (paper_intent "BTCUSDT"))
        (decision {} w paper_request none none none (paper_intent "btcusdt")) := by
  refine ⟨can_publish_any_spelling (by decide), can_publish_any_spelling (by decide),
    spelled_alike, ?_⟩
  rw [sameDecision_iff_verdict]
  decide +kernel

/-- A kill switch blocks both. -/
theorem a_kill_switch_blocks_both_spellings :
    let w := controlled_world (RedisKeys.kill_switch "default")
    SameDecision (decision {} w paper_request none none none (paper_intent "BTCUSDT"))
      (decision {} w paper_request none none none (paper_intent "btcusdt")) :=
  (same_decision_iff spelled_alike).mpr (Or.inl (by decide +kernel))

end trading_platform.mcp_server
