-- The fills of one order in the answer of the exchange. With a list of fills the
-- adapter takes the price and the fee asset of the first one for all of them;
-- without the list it divides the cost by the quantity.
import TradingPlatform.Lib.Average
import TradingPlatform.Execution.LiveAdapter

open average
open trading_platform.shared

namespace trading_platform.execution

/-! ## Answers with fills -/

/-- One entry of `fills`, with the values that the adapter reads in it. -/
structure ExchangeFill where
  json : Json
  price : ℚ
  qty : ℚ
  commission : ℚ
  commission_asset : String
  reads_price : amountOf json "price" = .ok price
  reads_qty : amountOf json "qty" = .ok qty
  reads_commission : amountOf json "commission" = .ok commission
  reads_asset : json.get "commissionAsset" = .ok (some (.str commission_asset))

/-- The prices and quantities of some fills. -/
def lotsOf (fills : List ExchangeFill) : List (Lot ℚ) := fills.map fun f => ⟨f.price, f.qty⟩

/-- The commissions that were charged in an asset. -/
def commissionIn (asset : String) (fills : List ExchangeFill) : ℚ :=
  ((fills.filter (·.commission_asset = asset)).map (·.commission)).sum

/-- The commissions that were charged in other assets. -/
def commissionBeside (asset : String) (fills : List ExchangeFill) : ℚ :=
  ((fills.filter (·.commission_asset ≠ asset)).map (·.commission)).sum

/-- The body of an answer that lists its fills. -/
structure ListsFills (body : Json) (fills : List ExchangeFill) : Prop where
  listed : body.get "fills" = .ok (some (.arr (fills.map (·.json))))
  executed : amountOf body "executedQty" = .ok (size (lotsOf fills))

/-- The body of the same answer without the list: it is FILLED, and tells the whole cost. -/
structure TellsCost (body : Json) (fills : List ExchangeFill) : Prop where
  no_fills : body.get "fills" = .ok none ∨ body.get "fills" = .ok (some (.arr []))
  filled : body.get "status" = .ok (some (.str "FILLED"))
  executed : amountOf body "executedQty" = .ok (size (lotsOf fills))
  cost : ∃ value, body.get "cummulativeQuoteQty" = .ok (some value) ∧
    decimalOf value = .ok (cost (lotsOf fills))

/-- An answer 200 with a body. -/
def accepted_reply (body : Json) (text : String) : HttpReply := ⟨200, some body, text⟩

section Reply

variable {body : Json} {first : ExchangeFill} {rest : List ExchangeFill}

theorem commissions_read (fills : List ExchangeFill) :
    (fills.map (·.json)).mapM (fun f => amountOf f "commission") =
      .ok (fills.map (·.commission)) := by
  induction fills with
  | nil => rfl
  | cons f fills ih =>
    rw [List.map_cons, List.mapM_cons, f.reads_commission, ih]
    rfl

/-- What the adapter takes from a list of fills. -/
theorem reply_fill_of_fills (h : ListsFills body (first :: rest)) :
    reply_fill body = .ok ⟨some first.price, some (size (lotsOf (first :: rest))),
      some ((first :: rest).map (·.commission)).sum, first.commission_asset⟩ := by
  unfold reply_fill
  rw [h.listed]
  simp only [bind, Except.bind, Option.getD_some]
  rw [if_pos (by rfl)]
  simp only [List.map_cons, fillsOf, h.executed]
  have hread := commissions_read (first :: rest)
  rw [List.map_cons] at hread
  rw [hread, first.reads_price, first.reads_asset]
  rfl

/-- What the adapter takes from an answer without fills. -/
theorem reply_fill_of_cost {fills : List ExchangeFill} (h : TellsCost body fills) :
    reply_fill body = .ok ⟨if 0 < size (lotsOf fills) then some (mean (lotsOf fills)) else none,
      some (size (lotsOf fills)), none, "USDT"⟩ := by
  obtain ⟨value, hvalue, hcost⟩ := h.cost
  have hfalsy : ∃ v, body.get "fills" = .ok v ∧ (v.getD (.arr [])).truthy = false := by
    rcases h.no_fills with h | h
    · exact ⟨_, h, rfl⟩
    · exact ⟨_, h, rfl⟩
  obtain ⟨v, hv, hfalsy⟩ := hfalsy
  unfold reply_fill
  rw [hv]
  simp only [bind, Except.bind]
  rw [if_neg (by simp [hfalsy]), h.filled]
  simp only [Option.map_some, Json.pyStr, if_true]
  rw [h.executed]
  dsimp only
  rw [hvalue]
  by_cases hpos : 0 < size (lotsOf fills)
  · simp only [hpos, if_true, Option.getD_some, hcost]
    rfl
  · simp only [hpos, if_false]
    rfl

/-- A body is an object, so that its order id can be read. -/
theorem read_accepted {client_order_id : String} {v : Option Json} {fill : ReplyFill} (text : String)
    (hbody : body.get "fills" = .ok v) (hfill : reply_fill body = .ok fill) :
    ∃ order_id, read_reply client_order_id (accepted_reply body text) = .ok {
      success := true
      client_order_id
      exchange_order_id := some order_id
      fill_price := fill.fill_price
      fill_quantity := fill.fill_qty
      commission := fill.commission
      commission_asset := fill.commission_asset } := by
  have hid : ∃ id, body.get "orderId" = .ok id := by
    cases body with
    | obj fields => exact ⟨_, rfl⟩
    | null | bool _ | num _ | str _ | arr _ => cases hbody
  obtain ⟨id, hid⟩ := hid
  refine ⟨(id.getD (.str "")).pyStr, ?_⟩
  unfold read_reply accepted_reply
  simp only [if_true, bind, Except.bind, hfill, hid]
  rfl

end Reply

/-! ## Cost and commission -/

/-- The response stands for the fills: its price times its quantity is their cost, and its
commission is what they charged in the asset that it names. -/
def StandsFor (response : AdapterResponse) (fills : List ExchangeFill) : Prop :=
  ∃ price qty commission, response.fill_price = some price ∧ response.fill_quantity = some qty ∧
    response.commission = some commission ∧ price * qty = cost (lotsOf fills) ∧
    commission = commissionIn response.commission_asset fills

/-- Two responses tell of one execution. -/
def SameExecution (response response' : AdapterResponse) : Prop :=
  response.fill_price = response'.fill_price ∧ response.fill_quantity = response'.fill_quantity

theorem commissions_split (asset : String) (fills : List ExchangeFill) :
    (fills.map (·.commission)).sum = commissionIn asset fills + commissionBeside asset fills := by
  unfold commissionIn commissionBeside
  induction fills with
  | nil => simp
  | cons f fills ih =>
    rw [List.map_cons, List.sum_cons, ih]
    by_cases h : f.commission_asset = asset
    · rw [List.filter_cons_of_pos (by simpa using h), List.filter_cons_of_neg (by simpa using h),
        List.map_cons, List.sum_cons]
      ring
    · rw [List.filter_cons_of_neg (by simpa using h), List.filter_cons_of_pos (by simpa using h),
        List.map_cons, List.sum_cons]
      ring

/-- For every answer that lists fills, and the same answer without the list: both are read,
and the response stands for the fills and tells the same execution exactly when the price of
the first fill is the average price, and no commission is left in another asset than its own. -/
theorem fills_are_aggregated_iff (client_order_id : String) {body body' : Json} (text text' : String)
    (first : ExchangeFill) (rest : List ExchangeFill) (h : ListsFills body (first :: rest))
    (h' : TellsCost body' (first :: rest)) :
    ∃ response response',
      read_reply client_order_id (accepted_reply body text) = .ok response ∧
      read_reply client_order_id (accepted_reply body' text') = .ok response' ∧
      (StandsFor response (first :: rest) ∧ SameExecution response response' ↔
        0 < size (lotsOf (first :: rest)) ∧ first.price = mean (lotsOf (first :: rest)) ∧
          commissionBeside first.commission_asset (first :: rest) = 0) := by
  obtain ⟨v, hv⟩ : ∃ v, body'.get "fills" = .ok v := h'.no_fills.elim (⟨_, ·⟩) (⟨_, ·⟩)
  obtain ⟨id, hread⟩ := read_accepted text h.listed
    (reply_fill_of_fills h)
  obtain ⟨id', hread'⟩ := read_accepted text' hv
    (reply_fill_of_cost h')
  refine ⟨_, _, hread, hread', ?_⟩
  unfold StandsFor SameExecution
  generalize hlots : lotsOf (first :: rest) = lots
  dsimp only
  have hcom := commissions_split first.commission_asset (first :: rest)
  constructor
  · rintro ⟨⟨price, qty, commission, hp, hq, hc, -, hsum⟩, hsame, -⟩
    cases hc
    by_cases hpos : 0 < size lots
    · rw [if_pos hpos] at hsame
      exact ⟨hpos, Option.some.inj hsame, by linarith⟩
    · rw [if_neg hpos] at hsame
      cases hsame
  · rintro ⟨hpos, hprice, hbeside⟩
    rw [if_pos hpos]
    refine ⟨⟨_, _, _, rfl, rfl, rfl, ?_, by linarith⟩, congrArg some hprice, rfl⟩
    rw [hprice]
    exact mean_mul_size (ne_of_gt hpos)

/-! ## Two fills of 1 -/

/-- A fill of 1 with its price and its fee. -/
def demo_entry (price commission asset : String) : Json :=
  .obj [("price", .str price), ("qty", .str "1"), ("commission", .str commission),
    ("commissionAsset", .str asset)]

def demo_exchange_fill (price commission asset : String) (p c : ℚ)
    (hp : Decimal.ofText price = .ok p) (hc : Decimal.ofText commission = .ok c) :
    ExchangeFill where
  json := demo_entry price commission asset
  price := p
  qty := 1
  commission := c
  commission_asset := asset
  reads_price := hp
  reads_qty := by
    simp [amountOf, demo_entry, Json.get, Json.pyStr, bind, Except.bind, Decimal.decimal_one]
  reads_commission := by
    simp [amountOf, demo_entry, Json.get, Json.pyStr, bind, Except.bind, hc]
  reads_asset := rfl

/-- The answer with two fills, and the one without them. -/
def demo_listing (fills : List ExchangeFill) : Json :=
  .obj [("orderId", .num "7"), ("executedQty", .str "2"), ("fills", .arr (fills.map (·.json)))]

def demo_telling (cost : String) : Json :=
  .obj [("orderId", .num "7"), ("executedQty", .str "2"), ("status", .str "FILLED"),
    ("cummulativeQuoteQty", .str cost)]

theorem demo_lists {fills : List ExchangeFill} (h : size (lotsOf fills) = 2) :
    ListsFills (demo_listing fills) fills := by
  have h2 : Decimal.ofText "2" = .ok 2 := by decide +kernel
  refine ⟨rfl, ?_⟩
  rw [h]
  simp [amountOf, demo_listing, Json.get, Json.pyStr, bind, Except.bind, h2]

theorem demo_tells {fills : List ExchangeFill} {text : String} (h : size (lotsOf fills) = 2)
    (hcost : Decimal.ofText text = .ok (cost (lotsOf fills))) :
    TellsCost (demo_telling text) fills := by
  have h2 : Decimal.ofText "2" = .ok 2 := by decide +kernel
  refine ⟨Or.inl rfl, rfl, ?_, _, rfl, hcost⟩
  rw [h]
  simp [amountOf, demo_telling, Json.get, Json.pyStr, bind, Except.bind, h2]

/-- One at 100 with a fee of 0.1 BNB. -/
def demo_first : ExchangeFill :=
  demo_exchange_fill "100" "0.1" "BNB" 100 (1 / 10) (by decide +kernel) (by decide +kernel)

/-- One at 110 with a fee of 0.11 USDT. -/
def demo_second : ExchangeFill :=
  demo_exchange_fill "110" "0.11" "USDT" 110 (11 / 100) (by decide +kernel) (by decide +kernel)

/-- One at 100 and one at 110 are told as two at 100. -/
theorem first_price_for_all_fills :
    ListsFills (demo_listing [demo_first, demo_second]) [demo_first, demo_second] ∧
      TellsCost (demo_telling "210") [demo_first, demo_second] ∧
      ∃ response response',
        read_reply "tp2-7" (accepted_reply (demo_listing [demo_first, demo_second]) "") =
          .ok response ∧
        read_reply "tp2-7" (accepted_reply (demo_telling "210") "") = .ok response' ∧
        ¬ (StandsFor response [demo_first, demo_second] ∧ SameExecution response response') := by
  have hsize : size (lotsOf [demo_first, demo_second]) = 2 := by
    norm_num [lotsOf, demo_first, demo_second, demo_exchange_fill]
  have hcost : cost (lotsOf [demo_first, demo_second]) = 210 := by
    norm_num [lotsOf, demo_first, demo_second, demo_exchange_fill]
  have hlists := demo_lists hsize
  have htells := demo_tells hsize
    ((by decide +kernel : Decimal.ofText "210" = .ok 210).trans (congrArg Except.ok hcost.symm))
  obtain ⟨id, hread⟩ := read_accepted "" hlists.listed
    (reply_fill_of_fills hlists)
  obtain ⟨id', hread'⟩ := read_accepted "" (v := none) rfl
    (reply_fill_of_cost htells)
  refine ⟨hlists, htells, _, _, hread, hread', ?_⟩
  rintro ⟨⟨price, qty, commission, hp, hq, -, hprod, -⟩, -⟩
  cases hp
  cases hq
  rw [hsize, hcost] at hprod
  have h100 : demo_first.price = 100 := rfl
  rw [h100] at hprod
  norm_num at hprod

/-- Twice the first fill. -/
theorem one_price_for_all_fills :
    ∃ response response',
      read_reply "tp2-7" (accepted_reply (demo_listing [demo_first, demo_first]) "") =
        .ok response ∧
      read_reply "tp2-7" (accepted_reply (demo_telling "200") "") = .ok response' ∧
      StandsFor response [demo_first, demo_first] ∧ SameExecution response response' := by
  have hsize : size (lotsOf [demo_first, demo_first]) = 2 := by
    norm_num [lotsOf, demo_first, demo_exchange_fill]
  have hcost : cost (lotsOf [demo_first, demo_first]) = 200 := by
    norm_num [lotsOf, demo_first, demo_exchange_fill]
  obtain ⟨response, response', hread, hread', hiff⟩ := fills_are_aggregated_iff "tp2-7" "" ""
    demo_first [demo_first] (demo_lists hsize) (demo_tells hsize
      ((by decide +kernel : Decimal.ofText "200" = .ok 200).trans (congrArg Except.ok hcost.symm)))
  refine ⟨response, response', hread, hread', hiff.mpr ⟨?_, ?_, ?_⟩⟩
  · rw [hsize]
    norm_num
  · unfold mean
    rw [hcost, hsize, show demo_first.price = 100 from rfl]
    norm_num
  · simp [commissionBeside]

end trading_platform.execution
