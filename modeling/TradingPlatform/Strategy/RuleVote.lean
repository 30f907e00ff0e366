-- The rules of a strategy as a vote. Each rule has a weight, counts for one side or for
-- both, and passes or not; the confidence in a side is the share of the weight that
-- passed among the rules that count for it.
import TradingPlatform.Lib.Vote
import TradingPlatform.Strategy.Strategies

open vote
open trading_platform.shared
open trading_platform.shared.PyFloat

namespace trading_platform.strategy_service

/-! ## One rule -/

/-- `rule.get(key)` of a dict. -/
def rule_field (rule : Json) (key : String) : Option Json :=
  match rule with
  | .obj fields => (fields.find? (·.1 = key)).map (·.2)
  | _ => none

/-- The value of a field as a text. -/
def rule_text (rule : Json) (key default : String) : String :=
  ((rule_field rule key).map Json.pyStr).getD default

def rule_threshold (rule : Json) : Json := (rule_field rule "value").getD .null

/-- A rule that the evaluation can read: its weight is a number that is not negative, its side
is BUY, SELL or none, and its operator can read its threshold. -/
structure WellFormedRule (rule : Json) : Prop where
  dict : ∃ fields, rule = .obj fields
  weight : ∃ q : ℚ, 0 ≤ q ∧ float_of ((rule_field rule "weight").getD (.num "1.0")) = .ok (fin q)
  side : rule_field rule "side" ∈ [none, some .null, some (.str "BUY"), some (.str "SELL")]
  readable : ∀ x, ∃ b, compare x (rule_text rule "operator" "gt") (rule_threshold rule) = .ok b

/-- The weight of a rule. -/
def weight_of (rule : Json) : ℚ :=
  match float_of ((rule_field rule "weight").getD (.num "1.0")) with
  | .ok (fin q) => q
  | _ => 0

/-- The rule counts for a side. -/
def counts_for (name : String) (rule : Json) : Bool := is_for name (rule_field rule "side")

/-- The rule passes in a snapshot. -/
def passes (snapshot : UnifiedDecisionSnapshot) (rule : Json) : Bool :=
  match evaluate_rule (snapshot.get_field (rule_text rule "field" ""))
      (rule_text rule "operator" "gt") (rule_threshold rule) with
  | .ok b => b
  | .error _ => false

theorem weight_of_nonneg {rule : Json} (h : WellFormedRule rule) : 0 ≤ weight_of rule := by
  obtain ⟨q, hq, hweight⟩ := h.weight
  rw [weight_of, hweight]
  exact hq

/-- A rule that can be read counts for a side. -/
theorem counts_for_some {rule : Json} (h : WellFormedRule rule) :
    counts_for "BUY" rule = true ∨ counts_for "SELL" rule = true := by
  have hside := h.side
  simp only [List.mem_cons, List.not_mem_nil, or_false] at hside
  unfold counts_for
  rcases hside with hside | hside | hside | hside
  · rw [hside]
    exact Or.inl rfl
  · rw [hside]
    exact Or.inl rfl
  · rw [hside]
    exact Or.inl rfl
  · rw [hside]
    exact Or.inr rfl

theorem evaluate_rule_ok {rule : Json} (h : WellFormedRule rule) (snapshot : UnifiedDecisionSnapshot) :
    evaluate_rule (snapshot.get_field (rule_text rule "field" ""))
      (rule_text rule "operator" "gt") (rule_threshold rule) = .ok (passes snapshot rule) := by
  have hok : ∃ b, evaluate_rule (snapshot.get_field (rule_text rule "field" ""))
      (rule_text rule "operator" "gt") (rule_threshold rule) = .ok b := by
    unfold evaluate_rule
    split
    · exact ⟨_, rfl⟩
    · split
      · exact ⟨_, rfl⟩
      · split
        · exact ⟨_, rfl⟩
        · exact h.readable _
        · exact h.readable _
  obtain ⟨b, hb⟩ := hok
  rw [passes, hb]

/-- What a rule adds to the weights. -/
theorem weigh_ok {rule : Json} (h : WellFormedRule rule) (snapshot : UnifiedDecisionSnapshot)
    (w : Weights) :
    weigh snapshot w rule = .ok
      { buy_weight := if passes snapshot rule && counts_for "BUY" rule then
          w.buy_weight + fin (weight_of rule) else w.buy_weight
        buy_total := if counts_for "BUY" rule then w.buy_total + fin (weight_of rule) else w.buy_total
        sell_weight := if passes snapshot rule && counts_for "SELL" rule then
          w.sell_weight + fin (weight_of rule) else w.sell_weight
        sell_total := if counts_for "SELL" rule then
          w.sell_total + fin (weight_of rule) else w.sell_total } := by
  obtain ⟨q, -, hweight⟩ := h.weight
  have hpass := evaluate_rule_ok h snapshot
  have hq : weight_of rule = q := by rw [weight_of, hweight]
  obtain ⟨fields, rfl⟩ := h.dict
  rw [hq]
  unfold weigh
  rw [text_of_obj, text_of_obj]
  simp only [bind, Except.bind, Json.get]
  change float_of (((fields.find? (·.1 = "weight")).map (·.2)).getD (.num "1.0")) = _ at hweight
  change evaluate_rule (snapshot.get_field ((((fields.find? (·.1 = "field")).map (·.2)).map
    Json.pyStr).getD "")) ((((fields.find? (·.1 = "operator")).map (·.2)).map Json.pyStr).getD "gt")
    (((fields.find? (·.1 = "value")).map (·.2)).getD .null) = _ at hpass
  rw [hweight]
  dsimp only
  rw [hpass]
  rfl

/-! ## The confidences -/

/-- The confidences that `evaluate` writes to the explanation of its result. -/
def confidences (snapshot : UnifiedDecisionSnapshot) (rules : Json) :
    Except PyErr (PyFloat × PyFloat) := do
  let w ← (← items_of rules).foldlM (weigh snapshot) {}
  let buy_confidence ← share w.buy_weight w.buy_total
  let sell_confidence ← share w.sell_weight w.sell_total
  return (buy_confidence, sell_confidence)

/-- What the evaluation makes of the confidences. -/
def BaseStrategy.settle (self : BaseStrategy) (snapshot : UnifiedDecisionSnapshot) (intent_id : Uuid)
    (buy_confidence sell_confidence : PyFloat) : Except PyErr EvaluationResult :=
  match favoured buy_confidence sell_confidence with
  | some (side, confidence) => self.signalled snapshot intent_id side confidence
  | none => .ok { signal := false, confidence := some (fin 0) }

theorem evaluate_rules_eq (strategy : BaseStrategy) (snapshot : UnifiedDecisionSnapshot)
    (rules : Json) (intent_id : Uuid) :
    strategy.evaluate_rules snapshot rules intent_id =
      confidences snapshot rules >>= fun c => strategy.settle snapshot intent_id c.1 c.2 := by
  unfold BaseStrategy.evaluate_rules confidences
  simp only [bind_assoc, pure_bind]
  rfl

/-- The weights of a list of rules. -/
theorem weights_of_rules {rules : List Json} (h : ∀ r ∈ rules, WellFormedRule r)
    (snapshot : UnifiedDecisionSnapshot) :
    rules.foldlM (weigh snapshot) {} = .ok
      { buy_weight := fin (weight_sum weight_of (fun r => passes snapshot r && counts_for "BUY" r) rules)
        buy_total := fin (weight_sum weight_of (counts_for "BUY") rules)
        sell_weight :=
          fin (weight_sum weight_of (fun r => passes snapshot r && counts_for "SELL" r) rules)
        sell_total := fin (weight_sum weight_of (counts_for "SELL") rules) } := by
  induction rules using List.reverseRecOn with
  | nil => rfl
  | append_singleton rules r ih =>
    have ih := ih fun x hx => h x (List.mem_append_left _ hx)
    have hr := h r (by simp)
    have hsum : ∀ p : Json → Bool, fin (weight_sum weight_of p (rules ++ [r])) =
        if p r then fin (weight_sum weight_of p rules) + fin (weight_of r)
        else fin (weight_sum weight_of p rules) := by
      intro p
      unfold weight_sum
      by_cases hp : p r = true
      · simp [hp]
      · simp [hp]
    rw [List.foldlM_append, ih]
    show [r].foldlM (weigh snapshot) _ = _
    rw [List.foldlM_cons, weigh_ok hr]
    simp only [hsum]
    rfl

/-- The confidence in a side, as the vote of the rules. -/
def side_confidence (snapshot : UnifiedDecisionSnapshot) (name : String) (rules : List Json) : ℚ :=
  confidence weight_of (counts_for name) (passes snapshot) rules

theorem share_fin (weight total : ℚ) :
    share (fin weight) (fin total) = .ok (fin (if 0 < total then weight / total else 0)) := by
  unfold share
  rw [lt_fin]
  by_cases h : 0 < total
  · rw [if_pos (decide_eq_true h), if_pos h, div_fin (ne_of_gt h)]
  · rw [if_neg (by simpa using h), if_neg h]

theorem confidences_ok {rules : List Json} (h : ∀ r ∈ rules, WellFormedRule r)
    (snapshot : UnifiedDecisionSnapshot) :
    confidences snapshot (.arr rules) =
      .ok (fin (side_confidence snapshot "BUY" rules), fin (side_confidence snapshot "SELL" rules)) := by
  have hweights := weights_of_rules h snapshot
  unfold confidences items_of
  simp only [bind, Except.bind, hweights, share_fin]
  rfl

/-! ## The result -/

/-- The intent builder takes the parameters of the strategy. -/
def BaseStrategy.Accepts (self : BaseStrategy) (snapshot : UnifiedDecisionSnapshot) : Prop :=
  ∀ intent_id side, ∃ intent,
    build_intent intent_id self.strategy_id self.version side self.parameters snapshot = .ok intent

/-- What the result says for two confidences. -/
structure Decided (buy sell : ℚ) (result : EvaluationResult) : Prop where
  signal : result.signal = true ↔ 0 < buy ∨ 0 < sell
  intent : result.trade_intent.isSome = result.signal
  direction : result.direction =
    if result.signal then some (if sell ≤ buy then "BUY" else "SELL") else none
  confidence : result.confidence = some (fin (max buy sell))

/-- The side that is favoured, by the order of the branches. -/
theorem favoured_fin {buy sell : ℚ} (hbuy : 0 ≤ buy) :
    favoured (fin buy) (fin sell) =
      if 0 < buy ∨ 0 < sell then
        some (if sell ≤ buy then (.buy, fin (max buy sell)) else (.sell, fin (max buy sell)))
      else none := by
  unfold favoured
  simp only [le_fin, lt_fin]
  by_cases hle : sell ≤ buy
  · have hmax : max buy sell = buy := max_eq_left hle
    by_cases hpos : 0 < buy
    · simp [hle, hpos]
    · have hzero : ¬ 0 < sell := fun h => hpos (lt_of_lt_of_le h hle)
      simp [hle, hpos, hzero, not_lt.mpr hle]
  · have hlt : buy < sell := not_le.mp hle
    have hpos : 0 < sell := lt_of_le_of_lt hbuy hlt
    have hmax : max buy sell = sell := max_eq_right hlt.le
    simp [hle, hlt, hpos, hmax]

/-- The evaluation returns what the two confidences decide. -/
theorem evaluate_decides {strategy : BaseStrategy} {snapshot : UnifiedDecisionSnapshot}
    (haccepts : strategy.Accepts snapshot) {rules : Json} {buy sell : ℚ} (hbuy : 0 ≤ buy)
    (hsell : 0 ≤ sell) (h : confidences snapshot rules = .ok (fin buy, fin sell)) (intent_id : Uuid) :
    ∃ result, strategy.evaluate_rules snapshot rules intent_id = .ok result ∧
      Decided buy sell result := by
  have hsignalled : ∀ side : OrderSide, ∃ intent,
      strategy.signalled snapshot intent_id side (fin (max buy sell)) = .ok
        { signal := true
          direction := some side.value
          confidence := some (fin (max buy sell))
          trade_intent := some intent } := by
    intro side
    obtain ⟨intent, hintent⟩ := haccepts intent_id side
    refine ⟨intent, ?_⟩
    rw [BaseStrategy.signalled, hintent]
    rfl
  rw [evaluate_rules_eq, h]
  show ∃ result, strategy.settle snapshot intent_id (fin buy) (fin sell) = .ok result ∧ _
  unfold BaseStrategy.settle
  rw [favoured_fin hbuy]
  by_cases hsome : 0 < buy ∨ 0 < sell
  · rw [if_pos hsome]
    by_cases hle : sell ≤ buy
    · rw [if_pos hle]
      obtain ⟨intent, hintent⟩ := hsignalled .buy
      refine ⟨_, hintent, ?_⟩
      constructor
      · simp [hsome]
      · rfl
      · simp [hle, OrderSide.value]
      · rfl
    · rw [if_neg hle]
      obtain ⟨intent, hintent⟩ := hsignalled .sell
      refine ⟨_, hintent, ?_⟩
      constructor
      · simp [hsome]
      · rfl
      · simp [hle, OrderSide.value]
      · rfl
  · rw [if_neg hsome]
    rw [not_or, not_lt, not_lt] at hsome
    have hb : buy = 0 := le_antisymm hsome.1 hbuy
    have hs : sell = 0 := le_antisymm hsome.2 hsell
    subst hb hs
    refine ⟨_, rfl, ?_⟩
    constructor
    · simp
    · rfl
    · rfl
    · simp

/-! ## The vote -/

/-- A rule that is for the buying side alone. -/
def buy_only (rule : Json) : Bool := counts_for "BUY" rule && !counts_for "SELL" rule

/-- The second snapshot passes the rules that the first one passes, and besides them only such
as are for the buying side alone. -/
def MoreBuys (rules : List Json) (snapshot snapshot' : UnifiedDecisionSnapshot) : Prop :=
  ∀ r ∈ rules, (passes snapshot r = true → passes snapshot' r = true) ∧
    (passes snapshot' r = true → passes snapshot r = true ∨ buy_only r = true)

/-- What the claim of a vote says of one evaluation: the confidences are shares, and they decide
the signal, the direction and the intent. -/
structure Voted (snapshot : UnifiedDecisionSnapshot) (rules : List Json) (buy sell : ℚ)
    (result : EvaluationResult) : Prop where
  buy_share : 0 ≤ buy ∧ buy ≤ 1
  sell_share : 0 ≤ sell ∧ sell ≤ 1
  confidence : ∃ q, result.confidence = some (fin q) ∧ 0 ≤ q ∧ q ≤ 1
  signal : result.signal = true ↔ ∃ r ∈ rules, passes snapshot r = true ∧ 0 < weight_of r
  intent : result.trade_intent.isSome = result.signal
  direction : result.direction = some "BUY" ↔ result.signal = true ∧ sell ≤ buy

section Vote

variable {rules : List Json} (hrules : ∀ r ∈ rules, WellFormedRule r)

include hrules

theorem weights_nonneg : ∀ r ∈ rules, 0 ≤ weight_of r := fun r hr => weight_of_nonneg (hrules r hr)

theorem side_confidence_nonneg (snapshot : UnifiedDecisionSnapshot) (name : String) :
    0 ≤ side_confidence snapshot name rules := confidence_nonneg (weights_nonneg hrules)

/-- There is confidence in a side when a rule of some weight passes. -/
theorem some_confidence_iff (snapshot : UnifiedDecisionSnapshot) :
    0 < side_confidence snapshot "BUY" rules ∨ 0 < side_confidence snapshot "SELL" rules ↔
      ∃ r ∈ rules, passes snapshot r = true ∧ 0 < weight_of r := by
  have hw := weights_nonneg hrules
  unfold side_confidence
  rw [confidence_pos_iff hw, confidence_pos_iff hw]
  constructor
  · rintro (⟨r, hr, ⟨hpass, -⟩, hweight⟩ | ⟨r, hr, ⟨hpass, -⟩, hweight⟩)
    · exact ⟨r, hr, hpass, hweight⟩
    · exact ⟨r, hr, hpass, hweight⟩
  · rintro ⟨r, hr, hpass, hweight⟩
    rcases counts_for_some (hrules r hr) with hbuy | hsell
    · exact Or.inl ⟨r, hr, ⟨hpass, hbuy⟩, hweight⟩
    · exact Or.inr ⟨r, hr, ⟨hpass, hsell⟩, hweight⟩

theorem voted_of_decided {snapshot : UnifiedDecisionSnapshot} {result : EvaluationResult}
    (h : Decided (side_confidence snapshot "BUY" rules) (side_confidence snapshot "SELL" rules)
      result) :
    Voted snapshot rules (side_confidence snapshot "BUY" rules)
      (side_confidence snapshot "SELL" rules) result := by
  have hw := weights_nonneg hrules
  have hbuy := side_confidence_nonneg hrules snapshot "BUY"
  have hbuy1 : side_confidence snapshot "BUY" rules ≤ 1 := confidence_le_one hw
  have hsell1 : side_confidence snapshot "SELL" rules ≤ 1 := confidence_le_one hw
  constructor
  · exact ⟨hbuy, hbuy1⟩
  · exact ⟨side_confidence_nonneg hrules snapshot "SELL", hsell1⟩
  · exact ⟨_, h.confidence, le_max_of_le_left hbuy, max_le hbuy1 hsell1⟩
  · rw [h.signal, some_confidence_iff hrules]
  · exact h.intent
  · rw [h.direction]
    cases result.signal with
    | false => simp
    | true =>
      by_cases hle : side_confidence snapshot "SELL" rules ≤ side_confidence snapshot "BUY" rules
      · simp [hle]
      · simp [hle]

/-- More rules that pass for the buying side alone. -/
theorem confidence_of_more_buys {snapshot snapshot' : UnifiedDecisionSnapshot}
    (h : MoreBuys rules snapshot snapshot') :
    side_confidence snapshot "BUY" rules ≤ side_confidence snapshot' "BUY" rules ∧
      side_confidence snapshot "SELL" rules = side_confidence snapshot' "SELL" rules := by
  constructor
  · exact confidence_mono (weights_nonneg hrules) fun r hr => (h r hr).1
  · apply confidence_congr
    intro r hr hsell
    obtain ⟨hmore, hbuys⟩ := h r hr
    rw [Bool.eq_iff_iff]
    constructor
    · exact hmore
    · intro hpass
      rcases hbuys hpass with hbefore | honly
      · exact hbefore
      · rw [buy_only, hsell] at honly
        simp at honly

end Vote

/-- The evaluation of the rules in a snapshot is a vote: it decides by shares of weights, it does
not depend on the order of the rules, and rules that pass in addition for the buying side alone
do not move it to the other side. -/
def IsVote (strategy : BaseStrategy) (rules : List Json) (snapshot : UnifiedDecisionSnapshot)
    (intent_id : Uuid) : Prop :=
  ∃ result buy sell,
    strategy.evaluate_rules snapshot (.arr rules) intent_id = .ok result ∧
    confidences snapshot (.arr rules) = .ok (fin buy, fin sell) ∧
    Voted snapshot rules buy sell result ∧
    (∀ rules', rules.Perm rules' → ∀ intent_id', ∃ result',
      strategy.evaluate_rules snapshot (.arr rules') intent_id' = .ok result' ∧
      confidences snapshot (.arr rules') = .ok (fin buy, fin sell) ∧
      result'.signal = result.signal ∧ result'.direction = result.direction ∧
      result'.confidence = result.confidence) ∧
    ∀ snapshot', strategy.Accepts snapshot' → MoreBuys rules snapshot snapshot' →
      ∀ intent_id', ∃ result' buy',
        strategy.evaluate_rules snapshot' (.arr rules) intent_id' = .ok result' ∧
        confidences snapshot' (.arr rules) = .ok (fin buy', fin sell) ∧ buy ≤ buy' ∧
        (result.direction = some "BUY" → result'.direction ≠ some "SELL")

/-- The rules of a strategy vote. -/
theorem rules_vote (strategy : BaseStrategy) (rules : List Json)
    (hrules : ∀ r ∈ rules, WellFormedRule r) (snapshot : UnifiedDecisionSnapshot)
    (haccepts : strategy.Accepts snapshot) (intent_id : Uuid) :
    IsVote strategy rules snapshot intent_id := by
  have hconf := confidences_ok hrules snapshot
  have hbuy := side_confidence_nonneg hrules snapshot "BUY"
  have hsell := side_confidence_nonneg hrules snapshot "SELL"
  obtain ⟨result, hresult, hdecided⟩ := evaluate_decides haccepts hbuy hsell hconf intent_id
  refine ⟨result, _, _, hresult, hconf, voted_of_decided hrules hdecided, ?_, ?_⟩
  · intro rules' hperm intent_id'
    have hconf' : confidences snapshot (.arr rules') =
        .ok (fin (side_confidence snapshot "BUY" rules), fin (side_confidence snapshot "SELL" rules)) := by
      rw [confidences_ok (fun r hr => hrules r (hperm.mem_iff.mpr hr))]
      unfold side_confidence
      rw [confidence_perm hperm, confidence_perm hperm]
    obtain ⟨result', hresult', hdecided'⟩ := evaluate_decides haccepts hbuy hsell hconf' intent_id'
    have hsignal : result'.signal = result.signal := by
      rw [Bool.eq_iff_iff, hdecided'.signal, hdecided.signal]
    refine ⟨result', hresult', hconf', hsignal, ?_, ?_⟩
    · rw [hdecided'.direction, hdecided.direction, hsignal]
    · rw [hdecided'.confidence, hdecided.confidence]
  · intro snapshot' haccepts' hmore intent_id'
    obtain ⟨hle, hsame⟩ := confidence_of_more_buys hrules hmore
    have hconf' := confidences_ok hrules snapshot'
    obtain ⟨result', hresult', hdecided'⟩ := evaluate_decides haccepts'
      (side_confidence_nonneg hrules snapshot' "BUY") (side_confidence_nonneg hrules snapshot' "SELL")
      hconf' intent_id'
    rw [← hsame] at hconf' hdecided'
    refine ⟨result', _, hresult', hconf', hle, ?_⟩
    intro hbuys hsells
    have hwas := ((voted_of_decided hrules hdecided).direction.mp hbuys).2
    rw [hdecided'.direction, if_pos (hwas.trans hle)] at hsells
    split at hsells
    · exact absurd hsells (by decide)
    · cases hsells

/-! ## An example -/

/-- A rule on the price, with a weight and a side. -/
def price_rule (operator weight side : String) : Json :=
  .obj [("field", .str "market_state.price"), ("operator", .str operator), ("value", .num "100"),
    ("weight", .num weight), ("side", .str side)]

theorem price_rule_well_formed {operator weight side : String} {q : ℚ} (hq : 0 ≤ q)
    (hweight : ofText weight = .ok (fin q)) (hside : side = "BUY" ∨ side = "SELL")
    (hoperator : operator = "gt" ∨ operator = "lt") : WellFormedRule (price_rule operator weight side) := by
  have hvalue : float_of (.num "100") = .ok (fin 100) := by decide +kernel
  have htext : rule_text (price_rule operator weight side) "operator" "gt" = operator := by
    simp [rule_text, rule_field, price_rule, Json.pyStr]
  have hthreshold : rule_threshold (price_rule operator weight side) = .num "100" := by
    simp [rule_threshold, rule_field, price_rule]
  refine ⟨⟨_, rfl⟩, ⟨q, hq, ?_⟩, ?_, ?_⟩
  · simpa [rule_field, price_rule, float_of] using hweight
  · rcases hside with rfl | rfl
    · simp [rule_field, price_rule]
    · simp [rule_field, price_rule]
  · intro x
    rw [htext, hthreshold]
    rcases hoperator with rfl | rfl
    · simp [compare, hvalue, Except.map]
    · simp [compare, hvalue, Except.map]

/-- A snapshot with this price. -/
def priced (price : ℚ) : UnifiedDecisionSnapshot where
  symbol := "BTCUSDT"
  market_type := .spot
  snapshot_timestamp_ms := 1
  price := some price
  get_field := fun path => if path = "market_state.price" then some (.number (fin price)) else none

/-- A strategy without parameters. -/
def bare_strategy : BaseStrategy :=
  ⟨"00000000-0000-0000-0000-000000000001", 1, .obj [], .rule_based (.arr [])⟩

theorem bare_strategy_accepts (snapshot : UnifiedDecisionSnapshot) : bare_strategy.Accepts snapshot := by
  intro intent_id side
  have hsize : Decimal.ofText "100.0" = .ok 100 := by decide +kernel
  unfold build_intent bare_strategy
  simp only [text_of_obj, bracket, Json.get, bind, Except.bind, List.find?_nil, Option.map_none,
    Option.getD_none, hsize, pure, Except.pure]
  exact ⟨_, rfl⟩

/-- A rule for each side. -/
theorem two_rules_vote :
    IsVote bare_strategy [price_rule "gt" "0.5" "BUY", price_rule "lt" "1" "SELL"] (priced 150)
      "00000000-0000-0000-0000-000000000002" := by
  apply rules_vote
  · intro r hr
    rcases List.mem_pair.mp hr with rfl | rfl
    · exact price_rule_well_formed (q := 1 / 2) (by norm_num) (by decide +kernel) (Or.inl rfl)
        (Or.inl rfl)
    · exact price_rule_well_formed (q := 1) (by norm_num) (by decide +kernel) (Or.inr rfl)
        (Or.inr rfl)
  · exact bare_strategy_accepts _

end trading_platform.strategy_service
