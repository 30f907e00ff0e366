-- The lists of incidents and of strategies with a symbol. The database cuts the rows at the
-- limit, and the symbol is looked for in what is left.
import TradingPlatform.Lib.Page
import TradingPlatform.Shared.Schemas
import Mathlib.Data.List.Sort

open page
open trading_platform.shared

namespace trading_platform.mcp_server

/-! ## The facades -/

/-- The columns of a row of `incident_log` that are answered. Times are in microseconds. -/
structure IncidentRow where
  id : Uuid
  incident_type : String
  severity : String
  description : String
  job_id : Option Uuid
  context : List (String × Json)
  resolved : Bool
  created_at : Int

/-- `ORDER BY created_at DESC`. Rows of one time come in some order. -/
structure NewestFirst where
  sort : List IncidentRow → List IncidentRow
  perm : ∀ rows, (sort rows).Perm rows
  sorted : ∀ rows, (sort rows).Pairwise fun x y => y.created_at ≤ x.created_at

/-- `context.get("symbol", "") == symbol`. -/
def IncidentRow.names (inc : IncidentRow) (symbol : String) : Bool :=
  match inc.context.find? fun field => field.1 = "symbol" with
  | some (_, .str text) => text = symbol
  | some _ => false
  | none => symbol = ""

/-- The rows since a time in milliseconds. No time and zero are the same. -/
def since (since_ts : Option Int) (rows : List IncidentRow) : List IncidentRow :=
  match since_ts with
  | none => rows
  | some ts => if ts = 0 then rows else rows.filter fun inc => ts * 1000 ≤ inc.created_at

/-- `min(max(1, limit), 200)`. -/
def incident_limit (limit : Int) : Nat := (min (max 1 limit) 200).toNat

def get_incidents (order : NewestFirst) (rows : List IncidentRow) (symbol : Option String)
    (since_ts : Option Int) (limit : Int) : List IncidentRow :=
  let incidents := (order.sort (since since_ts rows)).take (incident_limit limit)
  incidents.filter fun inc =>
    match symbol with
    | none => true
    | some symbol => symbol = "" || inc.names symbol

/-- The columns of a row of `strategies` that a summary has. -/
structure StrategySummary where
  id : Uuid
  name : String
  state : String
  market_type : String
  symbol_filters : List String
  current_version : Int
  created_at : Int
  updated_at : Int
  deriving DecidableEq

/-- A query without an order. -/
structure SomeOrder where
  arrange : List StrategySummary → List StrategySummary
  perm : ∀ rows, (arrange rows).Perm rows

/-- The rows in a state. No state and the empty one are the same. -/
def in_state (state_filter : Option String) (rows : List StrategySummary) : List StrategySummary :=
  match state_filter with
  | none => rows
  | some state => if state = "" then rows else rows.filter fun s => s.state = state

def negative_limit : PyErr := ⟨"DBAPIError", "LIMIT must not be negative"⟩

def list_strategies (order : SomeOrder) (rows : List StrategySummary) (symbol_filter : Option String)
    (state_filter : Option String) (limit : Int) : Except PyErr (List StrategySummary) :=
  if limit < 0 then .error negative_limit
  else
    let strategies := (order.arrange (in_state state_filter rows)).take limit.toNat
    .ok (strategies.filter fun s =>
      match symbol_filter with
      | none => true
      | some symbol => symbol = "" || s.symbol_filters.contains symbol)

/-! ## What the lists are for -/

/-- The incidents that name the symbol. -/
def incidents_of (rows : List IncidentRow) (since_ts : Option Int) (symbol : String) :
    List IncidentRow :=
  (since since_ts rows).filter fun inc => inc.names symbol

/-- The strategies that include the symbol. -/
def strategies_of (rows : List StrategySummary) (state_filter : Option String) (symbol : String) :
    List StrategySummary :=
  (in_state state_filter rows).filter fun s => s.symbol_filters.contains symbol

/-- The answer has the newest incidents of the symbol, as many as the limit allows. -/
structure IncidentsFound (order : NewestFirst) (rows : List IncidentRow) (symbol : String)
    (since_ts : Option Int) (limit : Int) : Prop where
  newest : Newest IncidentRow.created_at
    (min limit.toNat (incidents_of rows since_ts symbol).length)
    (incidents_of rows since_ts symbol) (get_incidents order rows (some symbol) since_ts limit)
  complete : (get_incidents order rows (some symbol) since_ts limit).length < limit →
    ∀ inc ∈ incidents_of rows since_ts symbol,
      inc ∈ get_incidents order rows (some symbol) since_ts limit

/-- The answer has strategies of the symbol, as many as the limit allows. -/
structure StrategiesFound (order : SomeOrder) (rows : List StrategySummary) (symbol : String)
    (state_filter : Option String) (limit : Int) : Prop where
  part : ∃ found, list_strategies order rows (some symbol) state_filter limit = .ok found ∧
    Part (min limit.toNat (strategies_of rows state_filter symbol).length)
      (strategies_of rows state_filter symbol) found ∧
    (found.length < limit → ∀ s ∈ strategies_of rows state_filter symbol, s ∈ found)

/-- The cut leaves no incident out: none of the symbol is beyond it, or all before it are of the
symbol and the limit is not cut down. A limit below one is made one. -/
structure IncidentsFit (order : NewestFirst) (rows : List IncidentRow) (symbol : String)
    (since_ts : Option Int) (limit : Int) : Prop where
  positive : 1 ≤ limit →
    (∀ inc ∈ (order.sort (since since_ts rows)).drop (incident_limit limit),
      inc.names symbol = false) ∨
    (limit ≤ 200 ∧ ∀ inc ∈ (order.sort (since since_ts rows)).take limit.toNat,
      inc.names symbol = true)
  below : limit < 1 → ∀ inc ∈ (order.sort (since since_ts rows)).head?, inc.names symbol = false

/-- The cut leaves no strategy out. -/
structure StrategiesFit (order : SomeOrder) (rows : List StrategySummary) (symbol : String)
    (state_filter : Option String) (limit : Int) : Prop where
  not_negative : 0 ≤ limit
  cut : (∀ s ∈ (order.arrange (in_state state_filter rows)).drop limit.toNat,
      symbol ∉ s.symbol_filters) ∨
    ∀ s ∈ (order.arrange (in_state state_filter rows)).take limit.toNat, symbol ∈ s.symbol_filters

section Cut

variable {symbol : String} (hsymbol : symbol ≠ "")

include hsymbol

theorem get_incidents_eq (order : NewestFirst) (rows : List IncidentRow) (since_ts : Option Int)
    (limit : Int) :
    get_incidents order rows (some symbol) since_ts limit =
      page.cut (fun inc => inc.names symbol) (incident_limit limit)
        (order.sort (since since_ts rows)) := by
  unfold get_incidents page.cut
  simp [hsymbol]

theorem list_strategies_eq (order : SomeOrder) (rows : List StrategySummary)
    (state_filter : Option String) {limit : Int} (hlimit : 0 ≤ limit) :
    list_strategies order rows (some symbol) state_filter limit =
      .ok (page.cut (fun s => s.symbol_filters.contains symbol) limit.toNat
        (order.arrange (in_state state_filter rows))) := by
  unfold list_strategies page.cut
  rw [if_neg (not_lt.mpr hlimit)]
  simp [hsymbol]

/-! ### Incidents -/

theorem incidents_length_iff (order : NewestFirst) (rows : List IncidentRow)
    (since_ts : Option Int) (limit : Int) :
    (get_incidents order rows (some symbol) since_ts limit).length =
        min limit.toNat (incidents_of rows since_ts symbol).length ↔
      IncidentsFit order rows symbol since_ts limit := by
  have hall : (incidents_of rows since_ts symbol).length =
      ((order.sort (since since_ts rows)).filter fun inc => inc.names symbol).length :=
    ((order.perm (since since_ts rows)).filter _).length_eq.symm
  rw [get_incidents_eq hsymbol, hall]
  by_cases hlimit : 1 ≤ limit
  · have hle : incident_limit limit ≤ limit.toNat := by
      unfold incident_limit
      omega
    have hcap : limit.toNat = incident_limit limit ↔ limit ≤ 200 := by
      unfold incident_limit
      omega
    rw [page.length_cut_iff hle, hcap]
    constructor
    · intro h
      refine ⟨fun _ => ?_, fun hbelow => absurd hlimit (by omega)⟩
      rcases h with hnone | ⟨hcapped, hfull⟩
      · exact Or.inl hnone
      · rw [← hcap.mpr hcapped] at hfull
        exact Or.inr ⟨hcapped, hfull⟩
    · rintro ⟨hpositive, -⟩
      rcases hpositive hlimit with hnone | ⟨hcapped, hfull⟩
      · exact Or.inl hnone
      · rw [hcap.mpr hcapped] at hfull
        exact Or.inr ⟨hcapped, hfull⟩
  · have hone : incident_limit limit = 1 := by
      unfold incident_limit
      omega
    have hzero : limit.toNat = 0 := by omega
    rw [hone, hzero, Nat.zero_min, page.length_cut_one_iff]
    constructor
    · intro h
      exact ⟨fun hpositive => absurd hpositive hlimit, fun _ => h⟩
    · rintro ⟨-, hbelow⟩
      exact hbelow (by omega)

/-- The incidents are the newest of the symbol exactly when the cut leaves none out. -/
theorem incidents_found_iff (order : NewestFirst) (rows : List IncidentRow)
    (since_ts : Option Int) (limit : Int) :
    IncidentsFound order rows symbol since_ts limit ↔
      IncidentsFit order rows symbol since_ts limit := by
  have hnewest : Newest IncidentRow.created_at
      (min limit.toNat (incidents_of rows since_ts symbol).length)
      (incidents_of rows since_ts symbol) (get_incidents order rows (some symbol) since_ts limit) ↔
        IncidentsFit order rows symbol since_ts limit := by
    rw [← incidents_length_iff hsymbol, get_incidents_eq hsymbol]
    exact page.newest_cut_iff (order.perm (since since_ts rows)) (order.sorted (since since_ts rows))
  constructor
  · intro h
    exact hnewest.mp h.newest
  · intro h
    have hfound := hnewest.mpr h
    refine ⟨hfound, fun hfew => ?_⟩
    exact hfound.part.complete (by omega)

/-! ### Strategies -/

/-- The strategies are those of the symbol exactly when the cut leaves none out. -/
theorem strategies_found_iff (order : SomeOrder) (rows : List StrategySummary)
    (state_filter : Option String) (limit : Int) :
    StrategiesFound order rows symbol state_filter limit ↔
      StrategiesFit order rows symbol state_filter limit := by
  by_cases hlimit : limit < 0
  · have herror : list_strategies order rows (some symbol) state_filter limit =
        .error negative_limit := by
      unfold list_strategies
      rw [if_pos hlimit]
    constructor
    · rintro ⟨found, hok, -⟩
      rw [herror] at hok
      cases hok
    · rintro ⟨hnot, -⟩
      exact absurd hlimit (not_lt.mpr hnot)
  · have hok := list_strategies_eq hsymbol order rows state_filter (not_lt.mp hlimit)
    have hperm := order.perm (in_state state_filter rows)
    have hall : (strategies_of rows state_filter symbol).length =
        ((order.arrange (in_state state_filter rows)).filter fun s =>
          s.symbol_filters.contains symbol).length := (hperm.filter _).length_eq.symm
    have hpart := page.part_cut_iff (p := fun s => s.symbol_filters.contains symbol)
      (n := limit.toNat) (m := min limit.toNat (strategies_of rows state_filter symbol).length) hperm
    rw [hall, page.length_cut_iff le_rfl, ← hall] at hpart
    simp only [true_and, List.contains_iff_mem, ← Bool.not_eq_true] at hpart
    constructor
    · rintro ⟨found, hfound, hof, -⟩
      obtain rfl := Except.ok.inj (hok.symm.trans hfound)
      exact ⟨not_lt.mp hlimit, hpart.mp hof⟩
    · rintro ⟨-, hcut⟩
      have hof := hpart.mpr hcut
      refine ⟨_, hok, hof, fun hfew => ?_⟩
      exact hof.complete (by omega)

end Cut

/-! ## The two lists -/

/-- For any tables, each list has what it should exactly when the cut leaves nothing out of it. -/
theorem symbol_lists_iff (newest_first : NewestFirst) (some_order : SomeOrder)
    (incidents : List IncidentRow) (strategies : List StrategySummary) {symbol : String}
    (hsymbol : symbol ≠ "") (since_ts : Option Int) (state_filter : Option String) (limit : Int) :
    (IncidentsFound newest_first incidents symbol since_ts limit ↔
      IncidentsFit newest_first incidents symbol since_ts limit) ∧
    (StrategiesFound some_order strategies symbol state_filter limit ↔
      StrategiesFit some_order strategies symbol state_filter limit) := by
  constructor
  · exact incidents_found_iff hsymbol newest_first incidents since_ts limit
  · exact strategies_found_iff hsymbol some_order strategies state_filter limit

def by_created_at : NewestFirst where
  sort rows := rows.insertionSort fun x y => y.created_at ≤ x.created_at
  perm rows := List.perm_insertionSort _ rows
  sorted rows := by
    have : Std.Total fun x y : IncidentRow => y.created_at ≤ x.created_at := ⟨fun x y => le_total _ _⟩
    have : IsTrans IncidentRow fun x y => y.created_at ≤ x.created_at :=
      ⟨fun x y z hxy hyz => hyz.trans hxy⟩
    exact List.pairwise_insertionSort _ rows

def as_stored : SomeOrder := ⟨id, fun _ => .refl _⟩

/-- An incident with a symbol, at a time. -/
def incident_at (symbol : String) (created_at : Int) : IncidentRow where
  id := "00000000-0000-0000-0000-000000000001"
  incident_type := "stale_order"
  severity := "warning"
  description := "Job stuck in submitted state"
  job_id := none
  context := [("symbol", .str symbol)]
  resolved := false
  created_at := created_at

theorem newest_incident_is_found :
    IncidentsFound by_created_at [incident_at "ETHUSDT" 1, incident_at "BTCUSDT" 2] "BTCUSDT" none 1 ∧
      StrategiesFound as_stored [] "BTCUSDT" none 1 := by
  have hlists := symbol_lists_iff by_created_at as_stored
    [incident_at "ETHUSDT" 1, incident_at "BTCUSDT" 2] [] (by decide : "BTCUSDT" ≠ "") none none 1
  constructor
  · apply hlists.1.mpr
    constructor
    · intro _
      left
      decide +kernel
    · intro hlimit
      omega
  · apply hlists.2.mpr
    constructor
    · decide
    · left
      intro s hs
      cases hs

/-- The newest incident has another symbol, and takes the place of the one that is asked for. -/
theorem older_incident_is_missing :
    ¬ IncidentsFound by_created_at [incident_at "BTCUSDT" 1, incident_at "ETHUSDT" 2] "BTCUSDT" none
      1 := by
  intro h
  have hnone : (get_incidents by_created_at [incident_at "BTCUSDT" 1, incident_at "ETHUSDT" 2]
      (some "BTCUSDT") none 1).length = 0 := by
    decide +kernel
  have hone : (incidents_of [incident_at "BTCUSDT" 1, incident_at "ETHUSDT" 2] none
      "BTCUSDT").length = 1 := by
    decide +kernel
  have hlength := h.newest.length
  rw [hnone, hone] at hlength
  revert hlength
  decide

end trading_platform.mcp_server
