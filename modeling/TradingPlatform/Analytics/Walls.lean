-- The walls of a book over a sequence of books. A wall that is known is one that was
-- found in the last book, with the time from which on it was found in each book. A wall
-- that is not found any more counts as a spoof when it is young, for whatever reason.
import TradingPlatform.Analytics.BookEngines
import Mathlib.Data.List.DropRight

open keyed
open trading_platform.shared
open trading_platform.shared.PyFloat

namespace trading_platform.analytics

/-- What one call of the detector is given. -/
structure WallCall where
  bids : List Level
  asks : List Level
  price : PyFloat
  now_ms : Int

/-- The levels of one side of the book. -/
def WallCall.side (c : WallCall) (side : String) : List Level := if side = "bid" then c.bids else c.asks

namespace WallDetector

def init (min_notional_usd threshold_multiplier : PyFloat) (depth_levels : Nat)
    (spoofing_max_age_s : ℚ) : WallDetector where
  min_notional := min_notional_usd
  threshold := threshold_multiplier
  depth := depth_levels
  spoof_age_s := spoofing_max_age_s

def on_call (d : WallDetector) (c : WallCall) : WallDetector :=
  (d.update c.bids c.asks c.price c.now_ms).2

def on_calls (d : WallDetector) (cs : List WallCall) : WallDetector := cs.foldl on_call d

theorem on_calls_snoc (d : WallDetector) (cs : List WallCall) (c : WallCall) :
    d.on_calls (cs ++ [c]) = (d.on_calls cs).on_call c := by
  simp [on_calls, List.foldl_append]

local instance lawful_keys : LawfulBEq (String × String) := inferInstance

/-! ## The wall condition -/

/-- The levels that are walls among the sampled ones of a side. -/
def walls_of (d : WallDetector) (levels : List Level) (price : PyFloat) : List Level :=
  match average_qty levels with
  | none => []
  | some avg_qty => levels.filter (d.is_wall price avg_qty)

/-- The sides and prices of the walls in a call. -/
def wall_keys (d : WallDetector) (c : WallCall) : List (String × String) :=
  (d.walls_of (c.bids.take d.depth) c.price).map (fun l => ("bid", l.1)) ++
    (d.walls_of (c.asks.take d.depth) c.price).map fun l => ("ask", l.1)

/-- The time from which on the level was a wall in each call. -/
def since (d : WallDetector) (cs : List WallCall) (k : String × String) : Option Int :=
  (cs.rtakeWhile fun c => k ∈ d.wall_keys c).head?.map (·.now_ms)

theorem since_snoc (d : WallDetector) (cs : List WallCall) (c : WallCall) (k : String × String) :
    d.since (cs ++ [c]) k =
      if k ∈ d.wall_keys c then some ((d.since cs k).getD c.now_ms) else none := by
  unfold since
  rw [List.rtakeWhile_concat]
  by_cases hk : k ∈ d.wall_keys c
  · rw [if_pos (decide_eq_true hk), if_pos hk]
    cases cs.rtakeWhile fun c => decide (k ∈ d.wall_keys c) <;> rfl
  · rw [if_neg (by simpa using hk), if_neg hk]
    rfl

/-! ## One side -/

section Scan

variable (side : String) (now_ms : Int)

/-- What is known of a wall that is in the list `walls`. -/
def seen_since (known : Table WallInfo WallInfo.key) (k : String × String) : Option Int :=
  (known.find k).map (·.first_seen_ms)

/-- No known wall has the mark of a spoof. -/
def Unmarked (known : Table WallInfo WallInfo.key) : Prop :=
  ∀ w ∈ known.rows, w.is_spoofing_candidate = false

theorem find_see (known : Table WallInfo WallInfo.key) (l : Level) (k : String × String) :
    (see side now_ms known l).find k =
      if k = (side, l.1) then
        some (((known.find (side, l.1)).map fun w =>
          { w with last_seen_ms := now_ms, qty := l.2 }).getD
            ⟨l.1, l.2, side, now_ms, now_ms, false, 0⟩)
      else known.find k :=
  Table.find_upsert k

theorem unmarked_see {known : Table WallInfo WallInfo.key} (h : Unmarked known) (l : Level) :
    Unmarked (see side now_ms known l) := by
  intro w hw
  have hfind := Table.find_eq_some.mpr ⟨hw, rfl⟩
  rw [find_see] at hfind
  split at hfind
  · obtain rfl := Option.some.inj hfind
    cases hknown : known.find (side, l.1) with
    | none => rfl
    | some w' => exact h w' (Table.find_eq_some.mp hknown).1
  · exact h w (Table.find_eq_some.mp hfind).1

/-- A scan writes to the walls that it finds and leaves the other known ones. -/
theorem find_sees (known : Table WallInfo WallInfo.key) (walls : List Level)
    (k : String × String) :
    (k ∉ walls.map (fun l => (side, l.1)) →
      (walls.foldl (see side now_ms) known).find k = known.find k) ∧
    (k ∈ walls.map (fun l => (side, l.1)) →
      seen_since (walls.foldl (see side now_ms) known) k =
        some ((seen_since known k).getD now_ms)) := by
  induction walls using List.reverseRecOn with
  | nil => simp
  | append_singleton walls l ih =>
    obtain ⟨hout, hin⟩ := ih
    rw [List.foldl_append, List.foldl_cons, List.foldl_nil, List.map_append, List.map_singleton]
    constructor
    · intro hk
      rw [List.mem_append, not_or, List.mem_singleton] at hk
      rw [find_see, if_neg hk.2, hout hk.1]
    · intro hk
      unfold seen_since at hin ⊢
      rw [find_see]
      by_cases hlast : k = (side, l.1)
      · subst hlast
        rw [if_pos rfl]
        by_cases hbefore : (side, l.1) ∈ walls.map fun l => (side, l.1)
        · have hfirst := hin hbefore
          cases hfind : (walls.foldl (see side now_ms) known).find (side, l.1) with
          | none =>
            rw [hfind] at hfirst
            cases hfirst
          | some w =>
            rw [hfind] at hfirst
            simpa using hfirst
        · rw [hout hbefore]
          cases known.find (side, l.1) <;> rfl
      · rw [if_neg hlast]
        rw [List.mem_append, List.mem_singleton] at hk
        exact hin (hk.resolve_right hlast)

theorem unmarked_sees {known : Table WallInfo WallInfo.key} (h : Unmarked known)
    (walls : List Level) : Unmarked (walls.foldl (see side now_ms) known) := by
  induction walls using List.reverseRecOn with
  | nil => exact h
  | append_singleton walls l ih =>
    rw [List.foldl_append]
    exact unmarked_see side now_ms ih l

theorem scan_side_known (d : WallDetector) (known : Table WallInfo WallInfo.key)
    (levels : List Level) (price : PyFloat) :
    (d.scan_side known levels side price now_ms).2 =
      (d.walls_of levels price).foldl (see side now_ms) known := by
  unfold scan_side walls_of
  cases average_qty levels <;> rfl

theorem scan_side_walls (d : WallDetector) (known : Table WallInfo WallInfo.key)
    (levels : List Level) (price : PyFloat) :
    (d.scan_side known levels side price now_ms).1 =
      (d.walls_of levels price).filterMap fun l =>
        ((d.walls_of levels price).foldl (see side now_ms) known).find (side, l.1) := by
  unfold scan_side walls_of
  cases average_qty levels <;> rfl

/-- The result of a scan has the walls that it finds. -/
theorem keys_of_scan (d : WallDetector) (known : Table WallInfo WallInfo.key)
    (levels : List Level) (price : PyFloat) :
    (d.scan_side known levels side price now_ms).1.map WallInfo.key =
      (d.walls_of levels price).map fun l => (side, l.1) := by
  rw [scan_side_walls, List.map_filterMap]
  have hfound : ∀ l ∈ d.walls_of levels price,
      (((d.walls_of levels price).foldl (see side now_ms) known).find (side, l.1)).map
        WallInfo.key = some (side, l.1) := by
    intro l hl
    have hmem : (side, l.1) ∈ (d.walls_of levels price).map fun l => (side, l.1) :=
      List.mem_map_of_mem hl
    have hseen := (find_sees side now_ms known (d.walls_of levels price) (side, l.1)).2 hmem
    unfold seen_since at hseen
    cases hfind : ((d.walls_of levels price).foldl (see side now_ms) known).find (side, l.1) with
    | none =>
      rw [hfind] at hseen
      cases hseen
    | some w => exact congrArg some (Table.key_of_find hfind)
  rw [List.filterMap_congr hfound, List.filterMap_eq_map']

/-- The result of a scan has no mark of a spoof. -/
theorem unmarked_scan (d : WallDetector) {known : Table WallInfo WallInfo.key} (h : Unmarked known)
    (levels : List Level) (price : PyFloat) :
    ∀ w ∈ (d.scan_side known levels side price now_ms).1, w.is_spoofing_candidate = false := by
  intro w hw
  rw [scan_side_walls, List.mem_filterMap] at hw
  obtain ⟨l, -, hfind⟩ := hw
  exact unmarked_sees side now_ms h _ w (Table.find_eq_some.mp hfind).1

end Scan

/-! ## One call -/

section Call

variable (d : WallDetector) (c : WallCall)

/-- The known walls after both sides of the book were scanned. -/
def scanned : Table WallInfo WallInfo.key :=
  (d.walls_of (c.asks.take d.depth) c.price).foldl (see "ask" c.now_ms)
    ((d.walls_of (c.bids.take d.depth) c.price).foldl (see "bid" c.now_ms) d.known)

/-- The known walls that are not found any more. -/
def gone : List WallInfo := (d.scanned c).rows.filter fun w => w.key ∉ d.wall_keys c

/-- The walls of the result. -/
def shown : List WallInfo :=
  (d.update c.bids c.asks c.price c.now_ms).1.bid_walls ++
    (d.update c.bids c.asks c.price c.now_ms).1.ask_walls

def bid_scan : List WallInfo × Table WallInfo WallInfo.key :=
  d.scan_side d.known (c.bids.take d.depth) "bid" c.price c.now_ms

def ask_scan : List WallInfo × Table WallInfo WallInfo.key :=
  d.scan_side (d.bid_scan c).2 (c.asks.take d.depth) "ask" c.price c.now_ms

theorem ask_scan_known : (d.ask_scan c).2 = d.scanned c := by
  unfold ask_scan bid_scan
  rw [scan_side_known, scan_side_known, scanned]

theorem keys_of_scans : ((d.bid_scan c).1 ++ (d.ask_scan c).1).map WallInfo.key = d.wall_keys c := by
  unfold ask_scan
  rw [List.map_append, keys_of_scan, bid_scan, keys_of_scan, wall_keys]

/-- The known walls after a call. -/
theorem on_call_eq :
    d.on_call c = { d with known := (d.gone c).foldl (fun t w => t.erase w.key) (d.scanned c) } := by
  have hkeys := d.keys_of_scans c
  have hknown := d.ask_scan_known c
  unfold bid_scan at hkeys
  unfold ask_scan bid_scan at hkeys hknown
  unfold on_call update gone
  dsimp only
  rw [hkeys, hknown]

/-- The walls of the result: those that were found, and the young ones that were not. -/
theorem mem_shown (w : WallInfo) :
    w ∈ d.shown c ↔ w ∈ (d.bid_scan c).1 ++ (d.ask_scan c).1 ∨
      w ∈ (d.gone c).filterMap (d.vanish c.now_ms) := by
  have hkeys := d.keys_of_scans c
  have hknown := d.ask_scan_known c
  unfold ask_scan bid_scan at *
  unfold shown update gone
  dsimp only
  rw [hkeys, hknown]
  simp only [List.mem_append, List.mem_filter, decide_eq_true_eq]
  tauto

/-- What is known of a wall is what was known, when it is not found. -/
theorem find_scanned {k : String × String} (hk : k ∉ d.wall_keys c) :
    (d.scanned c).find k = d.known.find k := by
  rw [wall_keys, List.mem_append, not_or] at hk
  rw [scanned, (find_sees "ask" c.now_ms _ _ k).1 hk.2, (find_sees "bid" c.now_ms _ _ k).1 hk.1]

/-- A wall that is found is known from the time on that it was known from, or from now on. -/
theorem seen_since_scanned {k : String × String} (hk : k ∈ d.wall_keys c) :
    seen_since (d.scanned c) k = some ((seen_since d.known k).getD c.now_ms) := by
  have hside : ∀ {side : String} {levels : List Level},
      k ∈ levels.map (fun l => (side, l.1)) → k.1 = side := by
    intro side levels hk
    obtain ⟨l, -, rfl⟩ := List.mem_map.mp hk
    rfl
  rw [wall_keys, List.mem_append] at hk
  rw [scanned]
  rcases hk with hbid | hask
  · have hnot : k ∉ (d.walls_of (c.asks.take d.depth) c.price).map fun l => ("ask", l.1) := by
      intro hask
      have hsame := (hside hbid).symm.trans (hside hask)
      exact absurd hsame (by decide)
    rw [seen_since, (find_sees "ask" c.now_ms _ _ k).1 hnot]
    exact (find_sees "bid" c.now_ms _ _ k).2 hbid
  · have hnot : k ∉ (d.walls_of (c.bids.take d.depth) c.price).map fun l => ("bid", l.1) := by
      intro hbid
      have hsame := (hside hbid).symm.trans (hside hask)
      exact absurd hsame (by decide)
    rw [(find_sees "ask" c.now_ms _ _ k).2 hask, seen_since, (find_sees "bid" c.now_ms _ _ k).1 hnot]
    rfl

theorem find_erases (known : Table WallInfo WallInfo.key) (ws : List WallInfo) (k : String × String) :
    (ws.foldl (fun t w => t.erase w.key) known).find k =
      if k ∈ ws.map WallInfo.key then none else known.find k := by
  induction ws using List.reverseRecOn with
  | nil => simp
  | append_singleton ws w ih =>
    rw [List.foldl_append, List.foldl_cons, List.foldl_nil, Table.find_erase, ih, List.map_append,
      List.map_singleton]
    by_cases hlast : k = w.key
    · simp [hlast]
    · simp [hlast]

/-- After a call just the walls that it found are known. -/
theorem find_on_call (k : String × String) :
    (d.on_call c).known.find k =
      if k ∈ d.wall_keys c then (d.scanned c).find k else none := by
  rw [on_call_eq]
  dsimp only
  rw [find_erases]
  by_cases hk : k ∈ d.wall_keys c
  · have hnot : k ∉ (d.gone c).map WallInfo.key := by
      intro hmem
      obtain ⟨w, hw, rfl⟩ := List.mem_map.mp hmem
      simpa [hk] using (List.mem_filter.mp hw).2
    rw [if_neg hnot, if_pos hk]
  · rw [if_neg hk]
    by_cases hmem : k ∈ (d.gone c).map WallInfo.key
    · rw [if_pos hmem]
    · rw [if_neg hmem, Table.find_eq_none]
      intro w hw hkey
      subst hkey
      exact hmem (List.mem_map_of_mem (List.mem_filter.mpr ⟨hw, by simpa using hk⟩))

/-- The time from which on a wall is known after a call. -/
theorem seen_since_on_call (k : String × String) :
    seen_since (d.on_call c).known k =
      if k ∈ d.wall_keys c then some ((seen_since d.known k).getD c.now_ms) else none := by
  unfold seen_since
  rw [find_on_call]
  by_cases hk : k ∈ d.wall_keys c
  · rw [if_pos hk, if_pos hk]
    exact d.seen_since_scanned c hk
  · rw [if_neg hk, if_neg hk]
    rfl

theorem unmarked_scanned (h : Unmarked d.known) : Unmarked (d.scanned c) :=
  unmarked_sees _ _ (unmarked_sees _ _ h _) _

theorem unmarked_on_call (h : Unmarked d.known) : Unmarked (d.on_call c).known := by
  intro w hw
  have hfind := Table.find_eq_some.mpr ⟨hw, rfl⟩
  rw [find_on_call] at hfind
  split at hfind
  · exact d.unmarked_scanned c h w (Table.find_eq_some.mp hfind).1
  · cases hfind

/-- The wall was first seen less than the age of a spoof ago. -/
def Young (first_seen_ms : Int) : Prop :=
  ((c.now_ms - first_seen_ms : Int) : ℚ) / 1000 < d.spoof_age_s

instance (t : Int) : Decidable (d.Young c t) := inferInstanceAs (Decidable (_ < _))

/-- The call flags the wall as a candidate for a spoof. -/
def Flagged (k : String × String) : Prop :=
  ∃ w ∈ d.shown c, w.key = k ∧ w.is_spoofing_candidate = true

instance (k : String × String) : Decidable (d.Flagged c k) :=
  inferInstanceAs (Decidable (∃ w ∈ d.shown c, _))

/-- A call flags each young wall that it does not find. -/
theorem flagged_iff (h : Unmarked d.known) (k : String × String) :
    d.Flagged c k ↔ k ∉ d.wall_keys c ∧ ∃ t, seen_since d.known k = some t ∧ d.Young c t := by
  have hbid := unmarked_scan "bid" c.now_ms d h (c.bids.take d.depth) c.price
  have hask : ∀ w ∈ (d.ask_scan c).1, w.is_spoofing_candidate = false := by
    apply unmarked_scan
    rw [bid_scan, scan_side_known]
    exact unmarked_sees _ _ h _
  constructor
  · rintro ⟨w, hw, rfl, hmark⟩
    rcases (d.mem_shown c w).mp hw with hfound | hvanished
    · rcases List.mem_append.mp hfound with hw | hw
      · rw [hbid w hw] at hmark
        cases hmark
      · rw [hask w hw] at hmark
        cases hmark
    · obtain ⟨v, hv, hvanish⟩ := List.mem_filterMap.mp hvanished
      obtain ⟨hmem, hlost⟩ := List.mem_filter.mp hv
      have hlost : v.key ∉ d.wall_keys c := by simpa using hlost
      unfold vanish at hvanish
      split at hvanish
      · rename_i hyoung
        obtain rfl := Option.some.inj hvanish
        refine ⟨hlost, v.first_seen_ms, ?_, hyoung⟩
        have hfind := Table.find_eq_some.mpr ⟨hmem, rfl⟩
        rw [find_scanned d c hlost] at hfind
        exact congrArg (Option.map _) hfind
      · cases hvanish
  · rintro ⟨hlost, t, hseen, hyoung⟩
    obtain ⟨v, hfind, rfl⟩ := Option.map_eq_some_iff.mp hseen
    rw [← find_scanned d c hlost] at hfind
    obtain ⟨hmem, hkey⟩ := Table.find_eq_some.mp hfind
    have hgone : v ∈ d.gone c := List.mem_filter.mpr ⟨hmem, by simpa [hkey] using hlost⟩
    refine ⟨{ v with is_spoofing_candidate := true, disappear_count := v.disappear_count + 1 },
      ?_, hkey, rfl⟩
    rw [mem_shown]
    refine Or.inr (List.mem_filterMap.mpr ⟨v, hgone, ?_⟩)
    exact if_pos hyoung

end Call

/-! ## Whole runs -/

/-- A call changes the known walls alone. -/
theorem on_calls_eq (d : WallDetector) (cs : List WallCall) :
    d.on_calls cs = { d with known := (d.on_calls cs).known } := by
  induction cs using List.reverseRecOn with
  | nil => rfl
  | append_singleton cs c ih =>
    rw [on_calls_snoc, on_call_eq]
    generalize ((d.on_calls cs).gone c).foldl _ _ = known
    rw [ih]

theorem wall_keys_on_calls (d : WallDetector) (cs : List WallCall) (c : WallCall) :
    (d.on_calls cs).wall_keys c = d.wall_keys c := by
  rw [on_calls_eq]
  rfl

theorem young_on_calls (d : WallDetector) (cs : List WallCall) (c : WallCall) (t : Int) :
    (d.on_calls cs).Young c t ↔ d.Young c t := by
  rw [on_calls_eq]
  rfl

section Run

variable {d : WallDetector}

/-- A wall is known from the time on from which it was found in each call. -/
theorem seen_since_on_calls (hd : d.known = .empty) (cs : List WallCall) (k : String × String) :
    seen_since (d.on_calls cs).known k = d.since cs k := by
  induction cs using List.reverseRecOn with
  | nil =>
    show seen_since d.known k = none
    rw [hd]
    rfl
  | append_singleton cs c ih =>
    rw [on_calls_snoc, seen_since_on_call, wall_keys_on_calls, ih, since_snoc]

theorem unmarked_on_calls (hd : d.known = .empty) (cs : List WallCall) :
    Unmarked (d.on_calls cs).known := by
  induction cs using List.reverseRecOn with
  | nil =>
    intro w hw
    change w ∈ d.known.rows at hw
    rw [hd] at hw
    cases hw
  | append_singleton cs c ih =>
    rw [on_calls_snoc]
    exact unmarked_on_call _ c ih

end Run

/-- The side of the book has a level at the price, whatever its spelling. -/
def listed (c : WallCall) (k : String × String) : Bool :=
  (c.side k.1).any fun l => PyFloat.ofText l.1 = PyFloat.ofText k.2 &&
    match PyFloat.ofText l.2 with
    | .ok q => !(q.le (fin 0))
    | .error _ => false

/-- The current price has reached or crossed the price of the wall. -/
def traded_through (c : WallCall) (k : String × String) : Bool :=
  match PyFloat.ofText k.2 with
  | .ok p => if k.1 = "bid" then c.price.le p else p.le c.price
  | .error _ => false

/-- A wall is in the side of the book that it was found in. -/
theorem listed_of_wall {d : WallDetector} {c : WallCall} {k : String × String}
    (hk : k ∈ d.wall_keys c) : listed c k = true := by
  have hwall : ∀ {side : String} {levels : List Level}, c.side side = levels →
      k ∈ (d.walls_of (levels.take d.depth) c.price).map (fun l => (side, l.1)) →
      listed c k = true := by
    intro side levels hside hmem
    obtain ⟨l, hl, rfl⟩ := List.mem_map.mp hmem
    unfold walls_of at hl
    split at hl
    · cases hl
    · obtain ⟨hlevel, hcond⟩ := List.mem_filter.mp hl
      unfold is_wall at hcond
      unfold listed
      rw [hside, List.any_eq_true]
      refine ⟨l, List.mem_of_mem_take hlevel, ?_⟩
      split at hcond
      · rename_i q _ hq
        simp only [Bool.and_eq_true] at hcond
        simp [hq, hcond.1.1.1]
      · cases hcond
  rw [wall_keys, List.mem_append] at hk
  rcases hk with hbid | hask
  · exact hwall rfl hbid
  · exact hwall rfl hask

/-- A wall that was found in each call from a time on, less than the age of a spoof ago, whose
level is gone and was not traded through. -/
def Spoofed (d : WallDetector) (before : List WallCall) (c : WallCall) (k : String × String) : Prop :=
  ∃ t, d.since before k = some t ∧ d.Young c t ∧ listed c k = false ∧ traded_through c k = false

/-- What the detector knows after a call and flags in it is right. -/
structure Right (d : WallDetector) (before : List WallCall) (c : WallCall) : Prop where
  known_walls : ∀ k,
    k ∈ (d.on_calls (before ++ [c])).known.rows.map WallInfo.key ↔ k ∈ d.wall_keys c
  known_since : ∀ w ∈ (d.on_calls (before ++ [c])).known.rows,
    d.since (before ++ [c]) w.key = some w.first_seen_ms
  flags : ∀ k, (d.on_calls before).Flagged c k ↔ d.Spoofed before c k

/-- Each young wall that is not found any more is gone from its side of the book and was not
traded through. -/
def OnlyGone (d : WallDetector) (before : List WallCall) (c : WallCall) : Prop :=
  ∀ k t, d.since before k = some t → d.Young c t → k ∉ d.wall_keys c →
    listed c k = false ∧ traded_through c k = false

section Run

variable {d : WallDetector}

theorem known_walls_on_calls (hd : d.known = .empty) (before : List WallCall) (c : WallCall)
    (k : String × String) :
    k ∈ (d.on_calls (before ++ [c])).known.rows.map WallInfo.key ↔ k ∈ d.wall_keys c := by
  have hseen := seen_since_on_calls hd (before ++ [c]) k
  rw [since_snoc] at hseen
  constructor
  · intro hmem
    obtain ⟨w, hw, rfl⟩ := List.mem_map.mp hmem
    rw [seen_since, Table.find_eq_some.mpr ⟨hw, rfl⟩] at hseen
    by_contra hnot
    rw [if_neg hnot] at hseen
    cases hseen
  · intro hmem
    rw [if_pos hmem] at hseen
    obtain ⟨w, hfind, -⟩ := Option.map_eq_some_iff.mp hseen
    obtain ⟨hw, rfl⟩ := Table.find_eq_some.mp hfind
    exact List.mem_map_of_mem hw

theorem known_since_on_calls (hd : d.known = .empty) (cs : List WallCall) :
    ∀ w ∈ (d.on_calls cs).known.rows, d.since cs w.key = some w.first_seen_ms := by
  intro w hw
  rw [← seen_since_on_calls hd, seen_since, Table.find_eq_some.mpr ⟨hw, rfl⟩]
  rfl

/-- The flags of a call are right when each young wall that it does not find is gone. -/
theorem flags_iff (hd : d.known = .empty) (before : List WallCall) (c : WallCall) :
    (∀ k, (d.on_calls before).Flagged c k ↔ d.Spoofed before c k) ↔ d.OnlyGone before c := by
  have hflag : ∀ k, (d.on_calls before).Flagged c k ↔
      k ∉ d.wall_keys c ∧ ∃ t, d.since before k = some t ∧ d.Young c t := by
    intro k
    rw [flagged_iff _ c (unmarked_on_calls hd before), wall_keys_on_calls, seen_since_on_calls hd]
    simp only [young_on_calls]
  constructor
  · intro h k t hsince hyoung hlost
    obtain ⟨t', -, -, hgone⟩ := (h k).mp ((hflag k).mpr ⟨hlost, t, hsince, hyoung⟩)
    exact hgone
  · intro h k
    rw [hflag]
    constructor
    · rintro ⟨hlost, t, hsince, hyoung⟩
      exact ⟨t, hsince, hyoung, h k t hsince hyoung hlost⟩
    · rintro ⟨t, hsince, hyoung, hgone, -⟩
      refine ⟨?_, t, hsince, hyoung⟩
      intro hmem
      rw [listed_of_wall hmem] at hgone
      cases hgone

end Run

/-- The detector is right in each call of a run exactly when each young wall that a call of it
does not find is gone from its side and was not traded through. -/
theorem right_iff_only_gone (min_notional_usd threshold_multiplier : PyFloat) (depth_levels : Nat)
    (spoofing_max_age_s : ℚ) (cs : List WallCall) :
    (∀ before c, before ++ [c] <+: cs →
      Right (init min_notional_usd threshold_multiplier depth_levels spoofing_max_age_s) before c) ↔
    ∀ before c, before ++ [c] <+: cs →
      OnlyGone (init min_notional_usd threshold_multiplier depth_levels spoofing_max_age_s)
        before c := by
  constructor
  · intro h before c hpre
    exact (flags_iff rfl before c).mp (h before c hpre).flags
  · intro h before c hpre
    exact ⟨known_walls_on_calls rfl before c, known_since_on_calls rfl (before ++ [c]),
      (flags_iff rfl before c).mpr (h before c hpre)⟩

/-- A book with a bid of this size at 100 and one of one at 99, and one ask. -/
def book_with (size : String) (price : ℚ) (now_ms : Int) : WallCall :=
  ⟨[("100", size), ("99", "1")], [("102", "1")], fin price, now_ms⟩

/-- The wall at 100 is traded through within a second, and counts as a spoof. -/
theorem traded_wall_is_flagged :
    ¬ ∀ before c, before ++ [c] <+: [book_with "900" 101 1000,
        { book_with "900" 99 2000 with bids := [("99", "1")] }] →
      Right (init (fin 1000) (fin (3 / 2)) 20 30) before c := by
  intro h
  have hright := h [book_with "900" 101 1000] { book_with "900" 99 2000 with bids := [("99", "1")] }
    (List.prefix_refl _)
  obtain ⟨t, -, -, -, hthrough⟩ := (hright.flags ("bid", "100")).mp (by decide +kernel)
  revert hthrough
  decide +kernel

end WallDetector

end trading_platform.analytics
