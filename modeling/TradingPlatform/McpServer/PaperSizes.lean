-- The sizes of a paper intent. What is published is the size that the client gave, of any
-- sign, or a quotient that may round to zero: pydantic stops the sizes that are not finite,
-- and nothing stops the others.
import TradingPlatform.McpServer.PaperTrade

open resumption
open trading_platform.shared
open trading_platform.execution (RedisPy)

namespace trading_platform.mcp_server

open Decimal (Number)

/-! ## One call of the tool -/

/-- What each command answers: the rows, the contents of Redis, and the failures. -/
abbrev PaperEnv := (c : PaperCmd) → Except PyErr c.Ans

/-- The stream takes what is published. -/
def PaperEnv.exec (env : PaperEnv) (sent : List IntentMessage) (c : PaperCmd) (_ : Unit) :
    Except PyErr c.Ans × List IntentMessage :=
  (env c, match c with
    | .publish message => sent ++ [message]
    | _ => sent)

/-- What a program of Redis calls gives. -/
def PaperEnv.answer (env : PaperEnv) {α : Type} : RedisPy α → Except PyErr α
  | .done a => .ok a
  | .raise e => .error e
  | .call c k => env.answer (k (env (.redis c)))

section Price

variable (env : PaperEnv) (loads : String → Except PyErr Json)

/-- The price that the lookups find, on what Redis holds. -/
def price_found (market_type symbol : String) : Except PyErr (Option Number) := do
  match ← env.answer (resolve_price loads market_type symbol) with
  | some p => return some p
  | none =>
    if market_type = "spot" then env.answer (resolve_price loads "futures" symbol)
    else if market_type = "futures" then env.answer (resolve_price loads "spot" symbol)
    else return none

variable {env loads} {sent : List IntentMessage}

theorem alone_onPaper {α : Type} {p : RedisPy α} {Q : Except PyErr α → List IntentMessage → Prop} :
    Alone env.exec () sent (onPaper p) Q ↔ Q (env.answer p) sent := by
  induction p with
  | done a => exact Iff.rfl
  | raise e => exact Iff.rfl
  | call c k ih => exact ih _

theorem alone_find_price {market_type symbol : String}
    {Q : Except PyErr (Option Number) → List IntentMessage → Prop} :
    Alone env.exec () sent (find_price loads market_type symbol) Q ↔
      Q (price_found env loads market_type symbol) sent := by
  unfold find_price price_found
  rw [alone_bind, alone_onPaper]
  rcases env.answer (resolve_price loads market_type symbol) with e | _ | p
  · exact Iff.rfl
  · dsimp only [bind, Except.bind]
    split
    · exact alone_onPaper
    · split
      · exact alone_onPaper
      · exact Iff.rfl
  · exact Iff.rfl

end Price

/-! ## What is published -/

/-- A size above zero, and a notional above zero if there is one. Both are finite: pydantic
takes nothing else for a decimal. -/
structure WellFormed (intent : TradeIntent) : Prop where
  size : 0 < intent.size
  size_usd : ∀ u ∈ intent.size_usd, 0 < u

/-- The call publishes one well formed intent, or it publishes nothing and an error comes
back. -/
def Published (result : Except PyErr ToolResult) (sent : List IntentMessage) : Prop :=
  (∃ message, sent = [message] ∧ WellFormed message.intent) ∨
    sent = [] ∧ ∃ r, result = .ok r ∧ r.isError = true

/-- The call publishes well formed intents only. -/
def PublishesWellFormed (env : PaperEnv) (loads : String → Except PyErr Json) (intent_id : Uuid)
    (args : List (String × Json)) : Prop :=
  Alone env.exec () [] (call_tool loads intent_id args) Published

/-! ## When the sizes are good -/

/-- The arguments of the call are those of `request`. -/
structure Reads (args : List (String × Json)) (request : PaperRequest) : Prop where
  given : missing_argument args = none
  reads : ∃ size_usd size, float_argument args "size_usd" = .ok size_usd ∧
    float_argument args "size" = .ok size ∧
    read_request (argument args "strategy_id") (argument args "symbol") (argument args "side")
      size_usd size (argument args "reason") = .ok request

/-- The quotient of a notional and a price is refused, or it is more than half of the last
decimal. No notional is enough for an infinite price. -/
def EnoughFor (size_usd : ℚ) : Number → Prop
  | .finite price =>
    0 < price → (∃ e, Decimal.quantize 5 (size_usd / price) = .error e) ∨
      price < 200000 * size_usd
  | .infinity negative => negative = true
  | .nan => True

/-- The sizes of a request are positive, or one of them is not finite. -/
def SizesHold (env : PaperEnv) (loads : String → Except PyErr Json) (request : PaperRequest)
    (strategy : TradedStrategy) : Prop :=
  match request.size, request.size_usd with
  | some (.fin size), none => 0 < size
  | some (.fin size), some (.fin size_usd) => 0 < size ∧ 0 < size_usd
  | none, some (.fin size_usd) =>
    ∀ price, price_found env loads strategy.market request.symbol.pyStr = .ok (some price) →
      EnoughFor size_usd price
  | _, _ => True

/-- Whenever the call comes to build an intent, its sizes hold. -/
def GoodSizes (env : PaperEnv) (loads : String → Except PyErr Json)
    (args : List (String × Json)) : Prop :=
  ∀ request strategy symbol, Reads args request → request.symbol = .str symbol →
    env (.get_strategy request.sid) = .ok (some strategy) → strategy.state ∈ EMIT_STATES →
    SizesHold env loads request strategy

/-! ## The call, from its end -/

section Call

variable {env : PaperEnv} {loads : String → Except PyErr Json} {intent_id : Uuid}
  {request : PaperRequest} {strategy : TradedStrategy}

/-- What the client gets for the outcome of the tool. -/
def toolResult : Except PyErr PaperReply → ToolResult
  | .ok reply => .content reply
  | .error exc => .tool_error s!"Internal error: {exc.msg}"

/-- The outcome of the tool and what it published, as the client sees them. -/
def Seen (outcome : Except PyErr PaperReply) (sent : List IntentMessage) : Prop :=
  Published (.ok (toolResult outcome)) sent

theorem seen_failed (error message : String) : Seen (.ok (.failed error message)) [] :=
  Or.inr ⟨rfl, _, rfl, rfl⟩

theorem seen_raised (e : PyErr) : Seen (.error e) [] := Or.inr ⟨rfl, _, rfl, rfl⟩

theorem publishes_iff {args : List (String × Json)} :
    PublishesWellFormed env loads intent_id args ↔
      Alone env.exec () [] (request_paper_trade_tool loads intent_id args) Seen := by
  unfold PublishesWellFormed call_tool
  rw [alone_bind, alone_attempt]
  constructor
  · intro h
    refine alone_mono h ?_
    rintro (e | reply) sent h'
    · exact h'
    · exact h'
  · intro h
    refine alone_mono h ?_
    rintro (e | reply) sent h'
    · exact h'
    · exact h'

/-- The intent that a request builds is published; else an error comes back. -/
theorem publish_intent_seen {size : Number} :
    Alone env.exec () [] (publish_intent intent_id request strategy size) Seen ↔
      ∀ intent, build_intent intent_id request strategy size = .ok intent → WellFormed intent := by
  unfold publish_intent
  rw [alone_bind]
  cases hbuild : build_intent intent_id request strategy size with
  | error e =>
    constructor
    · intro _ intent h
      cases h
    · intro _
      exact seen_raised e
  | ok intent =>
    have hsent : Alone env.exec () [] (do
          Prog.perform (V := PaperCmd.Ans) (.publish ⟨intent, "", request.sid⟩)
          return .queued intent.intent_id request.strategy_id intent.symbol intent.side.value
            (Decimal.str intent.size) ((intent.size_usd.filter (· ≠ 0)).map Decimal.str))
          Seen ↔ WellFormed intent := by
      rw [alone_bind, alone_perform]
      have hone (outcome : Except PyErr PaperReply) :
          Seen outcome [⟨intent, "", request.sid⟩] ↔ WellFormed intent := by
        constructor
        · rintro (⟨message, hmessage, h⟩ | ⟨hnil, -⟩)
          · obtain rfl := List.singleton_inj.mp hmessage
            exact h
          · cases hnil
        · intro h
          exact Or.inl ⟨_, rfl, h⟩
      have hexec : env.exec [] (.publish ⟨intent, "", request.sid⟩) () =
          (env (.publish ⟨intent, "", request.sid⟩), [⟨intent, "", request.sid⟩]) := rfl
      rw [hexec]
      cases env (.publish ⟨intent, "", request.sid⟩) with
      | ok _ => exact hone _
      | error e => exact hone _
    constructor
    · intro h intent' heq
      cases heq
      exact hsent.mp h
    · intro h
      exact hsent.mpr (h intent rfl)

/-- The intents of a request are well formed when it gives a size and the sizes hold. -/
theorem build_intent_wellFormed_iff {size : Number} {symbol : String}
    (hsymbol : request.symbol = .str symbol) :
    (∀ intent, build_intent intent_id request strategy size = .ok intent → WellFormed intent) ↔
      match size, request.size_usd with
      | .finite q, none => 0 < q
      | .finite q, some (.fin u) => 0 < q ∧ 0 < u
      | _, _ => True := by
  unfold build_intent
  rw [hsymbol]
  rcases size with q | negative | _
  · rcases hu : request.size_usd with _ | (u | negative | _)
    · constructor
      · intro h
        exact (h _ rfl).size
      · intro h intent heq
        cases heq
        exact ⟨h, by simp⟩
    · constructor
      · intro h
        obtain ⟨hq, hu⟩ := h _ rfl
        exact ⟨hq, hu u rfl⟩
      · intro h intent heq
        cases heq
        refine ⟨h.1, ?_⟩
        rintro u' ⟨⟩
        exact h.2
    · exact ⟨fun _ => trivial, fun _ _ heq => by cases heq⟩
    · exact ⟨fun _ => trivial, fun _ _ heq => by cases heq⟩
  · exact ⟨fun _ => trivial, fun _ _ heq => by cases heq⟩
  · exact ⟨fun _ => trivial, fun _ _ heq => by cases heq⟩

theorem derived_size_cases (size_usd price : Number) :
    (∃ size, derived_size size_usd price = .ok size) ∨
      ∃ message, derived_size size_usd price = stop "size_derivation_error" message := by
  unfold derived_size
  split
  · exact Or.inl ⟨_, rfl⟩
  · exact Or.inr ⟨_, rfl⟩

/-- Where a derived size comes from: a finite quotient, a quotient by an infinite price, or NaN. -/
theorem derived_size_ok {size_usd price size : Number}
    (h : derived_size size_usd price = .ok size) :
    (∃ u p r, size_usd = .finite u ∧ price = .finite p ∧ 0 < p ∧
        Decimal.quantize 5 (u / p) = .ok r ∧ size = .finite r) ∨
      (∃ u, size_usd = .finite u ∧ price = .infinity false ∧ size = .finite 0) ∨
      size_usd = .nan ∧ size = .nan := by
  have hzero : Decimal.quantize 5 0 = .ok 0 := by decide +kernel
  rcases price with p | negative | _
  · by_cases hp : p ≤ 0
    · simp [derived_size, positive_price, hp, bind, Except.bind, stop] at h
    · rcases size_usd with u | s | _
      · cases hquantize : Decimal.quantize 5 (u / p) with
        | error e =>
          simp [derived_size, positive_price, hp, divided, quantize_size, hquantize, bind,
            Except.bind, Except.map, stop] at h
        | ok r =>
          simp [derived_size, positive_price, hp, divided, quantize_size, hquantize, bind,
            Except.bind, Except.map] at h
          exact Or.inl ⟨u, p, r, rfl, rfl, not_le.mp hp, hquantize, h.symm⟩
      · simp [derived_size, positive_price, hp, divided, quantize_size, bind, Except.bind,
          stop] at h
      · simp [derived_size, positive_price, hp, divided, quantize_size, bind, Except.bind] at h
        exact Or.inr (Or.inr ⟨rfl, h.symm⟩)
  · cases negative with
    | true => simp [derived_size, positive_price, bind, Except.bind, stop] at h
    | false =>
      rcases size_usd with u | s | _
      · simp [derived_size, positive_price, divided, quantize_size, hzero, bind, Except.bind,
          Except.map] at h
        exact Or.inr (Or.inl ⟨u, rfl, rfl, h.symm⟩)
      · simp [derived_size, positive_price, divided, bind, Except.bind, stop] at h
      · simp [derived_size, positive_price, divided, quantize_size, bind, Except.bind] at h
        exact Or.inr (Or.inr ⟨rfl, h.symm⟩)
  · simp [derived_size, positive_price, bind, Except.bind, stop] at h

/-- The size that is found, and what follows it. -/
theorem sized_seen {size_usd price : Number} :
    Alone env.exec () [] (match derived_size size_usd price with
      | .error s => s.py
      | .ok size => publish_intent intent_id request strategy size) Seen ↔
    ∀ size, derived_size size_usd price = .ok size →
      ∀ intent, build_intent intent_id request strategy size = .ok intent → WellFormed intent := by
  rcases derived_size_cases size_usd price with ⟨size, h⟩ | ⟨message, h⟩
  · rw [h]
    constructor
    · intro hseen size' heq
      cases heq
      exact publish_intent_seen.mp hseen
    · intro hall
      exact publish_intent_seen.mpr (hall size rfl)
  · rw [h]
    constructor
    · intro _ size' heq
      cases heq
    · intro _
      exact seen_failed ..

theorem derived_size_finite (u : ℚ) {p : ℚ} (hp : 0 < p) {r : ℚ}
    (h : Decimal.quantize 5 (u / p) = .ok r) :
    derived_size (.finite u) (.finite p) = .ok (.finite r) := by
  simp [derived_size, positive_price, not_le.mpr hp, divided, quantize_size, h, bind, Except.bind,
    Except.map]

theorem derived_size_infinite (u : ℚ) :
    derived_size (.finite u) (.infinity false) = .ok (.finite 0) := by
  have hzero : Decimal.quantize 5 0 = .ok 0 := by decide +kernel
  simp [derived_size, positive_price, divided, quantize_size, hzero, bind, Except.bind, Except.map]

/-- Every derived size is a positive number exactly when the notional is enough for the
price. -/
theorem derived_size_enough (u : ℚ) (price : Number) :
    (∀ size, derived_size (.finite u) price = .ok size →
      ∃ q, size = .finite q ∧ 0 < q ∧ 0 < u) ↔ EnoughFor u price := by
  constructor
  · intro h
    rcases price with p | negative | _
    · intro hp
      cases hquantize : Decimal.quantize 5 (u / p) with
      | error e => exact Or.inl ⟨e, rfl⟩
      | ok r =>
        obtain ⟨q, hq, hr, -⟩ := h _ (derived_size_finite u hp hquantize)
        cases hq
        rw [Decimal.quantize_pos_iff hquantize, div_mul_eq_mul_div, lt_div_iff₀ hp] at hr
        exact Or.inr (by linarith)
    · cases negative with
      | true => rfl
      | false =>
        obtain ⟨q, hq, hpos, -⟩ := h _ (derived_size_infinite u)
        cases hq
        exact absurd hpos (lt_irrefl 0)
    · trivial
  · intro h size hsize
    rcases derived_size_ok hsize with ⟨u', p, r, hu, rfl, hp, hquantize, rfl⟩ |
      ⟨u', -, rfl, -⟩ | ⟨hnan, -⟩
    · cases hu
      rcases h hp with ⟨e, he⟩ | henough
      · rw [hquantize] at he
        cases he
      · refine ⟨r, rfl, ?_, by linarith⟩
        rw [Decimal.quantize_pos_iff hquantize, div_mul_eq_mul_div, lt_div_iff₀ hp]
        linarith
    · cases h
    · cases hnan

/-- A derived size makes well formed intents when the notional is enough for the price. -/
theorem derived_wellFormed_iff {symbol : String} (hsymbol : request.symbol = .str symbol)
    {x : PyFloat} (hx : request.size_usd = some x) (price : Number) :
    (∀ size, derived_size (decimal_of x) price = .ok size → ∀ intent,
      build_intent intent_id request strategy size = .ok intent → WellFormed intent) ↔
      ∀ u, x = .fin u → EnoughFor u price := by
  cases x with
  | fin u =>
    have hiff : (∀ u', PyFloat.fin u = .fin u' → EnoughFor u' price) ↔ EnoughFor u price := by
      constructor
      · intro h
        exact h u rfl
      · rintro h u' ⟨⟩
        exact h
    rw [hiff, ← derived_size_enough]
    refine forall_congr' fun size => imp_congr_right fun hsize => ?_
    rw [build_intent_wellFormed_iff hsymbol, hx]
    rcases derived_size_ok hsize with ⟨-, -, q, -, -, -, -, rfl⟩ | ⟨-, -, -, rfl⟩ | ⟨hnan, -⟩
    · simp
    · simp
    · cases hnan
  | inf _ | nan =>
    constructor
    · rintro - u ⟨⟩
    · intro _ size hsize
      rw [build_intent_wellFormed_iff hsymbol, hx]
      cases size <;> trivial

/-- The size that the intent of a request is built with. -/
def FindsSize (env : PaperEnv) (loads : String → Except PyErr Json) (request : PaperRequest)
    (strategy : TradedStrategy) (size : Number) : Prop :=
  match request.size with
  | some x => size = decimal_of x
  | none => ∃ price,
    price_found env loads strategy.market request.symbol.pyStr = .ok (some price) ∧
      derived_size (decimal_of (request.size_usd.getD .nan)) price = .ok size

/-- What follows the state check. -/
theorem found_seen :
    Alone env.exec () [] (do
        match ← find_size loads request strategy with
        | .error s => s.py
        | .ok size => publish_intent intent_id request strategy size) Seen ↔
      ∀ size, FindsSize env loads request strategy size → ∀ intent,
        build_intent intent_id request strategy size = .ok intent → WellFormed intent := by
  rw [alone_bind]
  unfold find_size FindsSize
  cases request.size with
  | some x =>
    constructor
    · rintro h _ rfl
      exact publish_intent_seen.mp h
    · intro h
      exact publish_intent_seen.mpr (h _ rfl)
  | none =>
    dsimp only
    rw [alone_bind, alone_find_price]
    rcases price_found env loads strategy.market request.symbol.pyStr with e | _ | price
    · constructor
      · rintro - _ ⟨_, ⟨⟩, -⟩
      · intro _
        exact seen_raised e
    · -- no price: an incident, and the reply that says so
      constructor
      · rintro - _ ⟨_, ⟨⟩, -⟩
      · intro _
        dsimp only
        rw [alone_bind, alone_swallow, alone_perform]
        exact seen_failed ..
    · have hsized : Alone env.exec () []
          (match derived_size (decimal_of (request.size_usd.getD .nan)) price with
            | .error s => s.py
            | .ok size => publish_intent intent_id request strategy size) Seen ↔ _ := sized_seen
      constructor
      · rintro h size ⟨_, ⟨⟩, hsize⟩
        exact hsized.mp h size hsize
      · intro h
        exact hsized.mpr fun size hsize => h size ⟨price, rfl, hsize⟩

/-- The sizes that are found make well formed intents exactly when the sizes hold. -/
theorem finds_wellFormed_iff {symbol : String} (hsymbol : request.symbol = .str symbol)
    (hgiven : ¬ (request.size_usd = none ∧ request.size = none)) :
    (∀ size, FindsSize env loads request strategy size → ∀ intent,
        build_intent intent_id request strategy size = .ok intent → WellFormed intent) ↔
      SizesHold env loads request strategy := by
  unfold FindsSize SizesHold
  cases hsize : request.size with
  | some x =>
    have hone : (∀ size, size = decimal_of x → ∀ intent,
          build_intent intent_id request strategy size = .ok intent → WellFormed intent) ↔
        ∀ intent, build_intent intent_id request strategy (decimal_of x) = .ok intent →
          WellFormed intent := by
      constructor
      · intro h
        exact h _ rfl
      · rintro h _ rfl
        exact h
    rw [hone, build_intent_wellFormed_iff hsymbol]
    cases x with
    | fin q => rcases request.size_usd with _ | (u | _ | _) <;> exact Iff.rfl
    | inf _ | nan => exact Iff.rfl
  | none =>
    obtain ⟨x, hx⟩ : ∃ x, request.size_usd = some x := by
      cases hu : request.size_usd with
      | some x => exact ⟨x, rfl⟩
      | none => exact absurd ⟨hu, hsize⟩ hgiven
    have hderived (price : Number) : (∀ size, derived_size (decimal_of x) price = .ok size →
        ∀ intent, build_intent intent_id request strategy size = .ok intent →
          WellFormed intent) ↔ _ := derived_wellFormed_iff hsymbol hx price
    have hprices : (∀ size, (∃ price,
          price_found env loads strategy.market request.symbol.pyStr = .ok (some price) ∧
            derived_size (decimal_of x) price = .ok size) → ∀ intent,
          build_intent intent_id request strategy size = .ok intent → WellFormed intent) ↔
        ∀ price, price_found env loads strategy.market request.symbol.pyStr = .ok (some price) →
          ∀ u, x = .fin u → EnoughFor u price := by
      constructor
      · intro h price hprice
        exact (hderived price).mp fun size hsize => h size ⟨price, hprice, hsize⟩
      · rintro h size ⟨price, hprice, hsize⟩
        exact (hderived price).mpr (h price hprice) size hsize
    rw [hx]
    refine hprices.trans ?_
    cases x with
    | fin u =>
      constructor
      · intro h price hprice
        exact h price hprice u rfl
      · rintro h price hprice u' ⟨⟩
        exact h price hprice
    | inf _ | nan =>
      constructor
      · intro _
        trivial
      · rintro - price - u ⟨⟩

theorem no_intent_of_not_text (hsymbol : ∀ s, request.symbol ≠ .str s) (size : Number)
    (intent : TradeIntent) : build_intent intent_id request strategy size ≠ .ok intent := by
  unfold build_intent
  cases hs : request.symbol with
  | str s => exact absurd hs (hsymbol s)
  | null | bool _ | num _ | arr _ | obj _ => exact fun h => by cases h

/-- What follows the arguments. -/
theorem trade_seen (hgiven : ¬ (request.size_usd = none ∧ request.size = none)) :
    Alone env.exec () [] (trade loads intent_id request) Seen ↔
      ∀ strategy symbol, request.symbol = .str symbol →
        env (.get_strategy request.sid) = .ok (some strategy) → strategy.state ∈ EMIT_STATES →
        SizesHold env loads request strategy := by
  unfold trade
  rw [alone_bind, alone_perform]
  have hexec : env.exec [] (.get_strategy request.sid) () =
      (env (.get_strategy request.sid), []) := rfl
  rw [hexec]
  rcases env (.get_strategy request.sid) with e | _ | strategy
  · constructor
    · rintro - _ _ - ⟨⟩
    · intro _
      exact seen_raised e
  · constructor
    · rintro - _ _ - ⟨⟩
    · intro _
      exact seen_failed ..
  · dsimp only
    by_cases hstate : strategy.state ∈ EMIT_STATES
    · rw [if_neg (not_not.mpr hstate)]
      refine found_seen.trans ?_
      by_cases htext : ∃ symbol, request.symbol = .str symbol
      · obtain ⟨symbol, hsymbol⟩ := htext
        rw [finds_wellFormed_iff hsymbol hgiven]
        constructor
        · rintro h _ _ - ⟨⟩ -
          exact h
        · intro h
          exact h strategy symbol hsymbol rfl hstate
      · constructor
        · rintro - _ symbol hsymbol
          exact absurd ⟨symbol, hsymbol⟩ htext
        · intro _ size _ intent hbuild
          exact absurd hbuild (no_intent_of_not_text (not_exists.mp htext) size intent)
    · rw [if_pos hstate]
      constructor
      · rintro - _ _ - ⟨⟩ hactive
        exact absurd hactive hstate
      · intro _
        exact seen_failed ..

theorem read_request_cases (strategy_id symbol side : Json) (size_usd size : Option PyFloat)
    (reason : Json) :
    (∃ e, read_request strategy_id symbol side size_usd size reason = .error (.raised e)) ∨
      (∃ error message,
        read_request strategy_id symbol side size_usd size reason = stop error message) ∨
      ∃ request, read_request strategy_id symbol side size_usd size reason = .ok request ∧
        ¬ (request.size_usd = none ∧ request.size = none) := by
  unfold read_request
  split
  · split
    · exact Or.inr (Or.inl ⟨_, _, rfl⟩)
    · split
      · split
        · exact Or.inr (Or.inl ⟨_, _, rfl⟩)
        · split
          · exact Or.inr (Or.inl ⟨_, _, rfl⟩)
          · rename_i hgiven
            exact Or.inr (Or.inr ⟨_, rfl, hgiven⟩)
      · exact Or.inl ⟨_, rfl⟩
  · exact Or.inl ⟨_, rfl⟩

/-- The arguments that are there and are numbers are read as the facade reads them. -/
theorem reads_iff {args : List (String × Json)} {size_usd size : Option PyFloat}
    (hmissing : missing_argument args = none)
    (husd : float_argument args "size_usd" = .ok size_usd)
    (hsize : float_argument args "size" = .ok size) (request : PaperRequest) :
    Reads args request ↔
      read_request (argument args "strategy_id") (argument args "symbol") (argument args "side")
        size_usd size (argument args "reason") = .ok request := by
  constructor
  · rintro ⟨-, _, _, husd', hsize', h⟩
    rw [husd] at husd'
    rw [hsize] at hsize'
    cases husd'
    cases hsize'
    exact h
  · intro h
    exact ⟨hmissing, _, _, husd, hsize, h⟩

theorem tool_seen {args : List (String × Json)} :
    Alone env.exec () [] (request_paper_trade_tool loads intent_id args) Seen ↔
      GoodSizes env loads args := by
  unfold request_paper_trade_tool GoodSizes
  cases hmissing : missing_argument args with
  | some key =>
    constructor
    · rintro - request _ _ ⟨hgiven, -⟩
      rw [hmissing] at hgiven
      cases hgiven
    · intro _
      exact seen_failed ..
  | none =>
    dsimp only
    cases husd : float_argument args "size_usd" with
    | error e =>
      constructor
      · rintro - request _ _ ⟨-, _, _, h, -⟩
        rw [husd] at h
        cases h
      · intro _
        exact seen_raised e
    | ok size_usd =>
      cases hsize : float_argument args "size" with
      | error e =>
        constructor
        · rintro - request _ _ ⟨-, _, _, -, h, -⟩
          rw [hsize] at h
          cases h
        · intro _
          exact seen_raised e
      | ok size =>
        have hreads (request : PaperRequest) := reads_iff hmissing husd hsize request
        simp only [hreads]
        show Alone env.exec () [] (request_paper_trade ..) Seen ↔ _
        unfold request_paper_trade
        rcases read_request_cases (argument args "strategy_id") (argument args "symbol")
            (argument args "side") size_usd size (argument args "reason") with
          ⟨e, h⟩ | ⟨error, message, h⟩ | ⟨request, h, hgiven⟩
        · rw [h]
          constructor
          · rintro - _ _ _ ⟨⟩
          · intro _
            exact seen_raised e
        · rw [h]
          constructor
          · rintro - _ _ _ ⟨⟩
          · intro _
            exact seen_failed ..
        · rw [h]
          refine (trade_seen hgiven).trans ?_
          constructor
          · rintro hsizes request' strategy symbol ⟨⟩
            exact hsizes strategy symbol
          · intro hsizes strategy symbol
            exact hsizes request strategy symbol rfl

end Call

/-- An active strategy, and a Redis without keys. -/
def demo_env : PaperEnv
  | .redis (.get _) => .ok none
  | .redis _ => .error ⟨"ConnectionError", "not used"⟩
  | .get_strategy _ =>
    .ok (some { state := "paper_active", current_version := 1, market_type := "futures" })
  | .insert_incident _ => .ok ()
  | .publish _ => .ok ()

/-- `json.loads` of a Redis without texts. -/
def demo_loads (_ : String) : Except PyErr Json :=
  .error ⟨"JSONDecodeError", "Expecting value: line 1 column 1 (char 0)"⟩

def demo_args (size : String) : List (String × Json) :=
  [("strategy_id", .str "00000000-0000-0000-0000-000000000001"), ("symbol", .str "BTCUSDT"),
    ("side", .str "BUY"), ("size", .num size)]

end trading_platform.mcp_server
