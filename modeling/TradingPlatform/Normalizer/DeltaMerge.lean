-- The merge of a delta into a stored book: each price keeps what was last written to it,
-- a level with a zero quantity is gone, and the sides are sorted by their prices.
import TradingPlatform.Normalizer.BookReplica

open keyed
open trading_platform.shared

namespace trading_platform.normalizer

/-! ## What a merge leaves -/

/-- What holds of the levels and of the changes holds of what is left. -/
theorem change_levels_keeps {P : String → String → Prop} {m : Levels} {deltas : List Level}
    (hm : ∀ price qty, m price = some qty → P price qty)
    (hd : ∀ l ∈ deltas, ∀ qty, entry l = some qty → P l.1 qty) {price qty : String}
    (h : change_levels m deltas price = some qty) : P price qty := by
  induction deltas generalizing m with
  | nil => exact hm price qty h
  | cons l deltas ih =>
    refine ih ?_ (fun d hmem => hd d (List.mem_cons_of_mem l hmem)) h
    intro price qty hq
    simp only at hq
    by_cases hprice : price = l.1
    · subst hprice
      rw [Function.update_self] at hq
      exact hd l List.mem_cons_self qty hq
    · rw [Function.update_of_ne hprice] at hq
      exact hm price qty hq

theorem change_levels_append (m : Levels) (ds es : List Level) :
    change_levels m (ds ++ es) = change_levels (change_levels m ds) es := by
  simp [change_levels, List.foldl_append]

theorem mem_of_levels_of {levels : List Level} {price qty : String}
    (h : levels_of levels price = some qty) : (price, qty) ∈ levels := by
  obtain ⟨l, hl, rfl⟩ := Option.map_eq_some_iff.mp h
  obtain ⟨hmem, rfl⟩ := lastOf_eq_some hl
  exact hmem

/-- Where each price stands once, its level says what its quantity is. -/
theorem levels_of_eq_some {levels : List Level} (h : (levels.map Prod.fst).Nodup)
    {price qty : String} : levels_of levels price = some qty ↔ (price, qty) ∈ levels := by
  constructor
  · exact mem_of_levels_of
  · intro hmem
    obtain ⟨l, hl⟩ := exists_lastOf Prod.fst hmem
    obtain ⟨hl', hprice⟩ := lastOf_eq_some hl
    have heq := List.inj_on_of_nodup_map h hl' hmem hprice
    simp [levels_of, hl, heq]

/-! ## One side -/

/-- Each price has one spelling. -/
def OneSpelling (levels : List Level) : Prop :=
  ∀ l ∈ levels, ∀ m ∈ levels, number l.1 = number m.1 → l.1 = m.1

/-- Levels that hold no zero quantity, and changes of them. -/
structure Mergeable (levels deltas : List Level) : Prop where
  prices : Readable (levels ++ deltas)
  spelling : OneSpelling (levels ++ deltas)
  quantities : ∀ l ∈ deltas, ∃ q, PyFloat.ofText l.2 = .ok q
  nonzero : ∀ l ∈ levels, is_zero l.2 = false

/-- `merged` has the levels that the changes leave, each price once and none with a zero
quantity, in the order of the prices. -/
structure Merged (order : ℚ → ℚ → Prop) (levels deltas merged : List Level) : Prop where
  level : ∀ l, l ∈ merged ↔ change_levels (levels_of levels) deltas l.1 = some l.2
  once : (merged.map Prod.fst).Nodup
  nonzero : ∀ l ∈ merged, is_zero l.2 = false
  ordered : merged.Pairwise fun l m => order (number l.1) (number m.1)

namespace Mergeable

variable {levels deltas more : List Level}

theorem of_append (h : Mergeable levels (deltas ++ more)) : Mergeable levels deltas := by
  have hsub : ∀ l ∈ levels ++ deltas, l ∈ levels ++ (deltas ++ more) := by
    intro l hl
    rw [← List.append_assoc]
    exact List.mem_append_left more hl
  exact {
    prices := fun l hl => h.prices l (hsub l hl)
    spelling := fun l hl m hm => h.spelling l (hsub l hl) m (hsub m hm)
    quantities := fun l hl => h.quantities l (List.mem_append_left more hl)
    nonzero := h.nonzero }

/-- A level that is left has a price of the levels or of the changes, and no zero quantity. -/
theorem left (h : Mergeable levels deltas) {price qty : String}
    (hleft : change_levels (levels_of levels) deltas price = some qty) :
    (∃ l ∈ levels ++ deltas, l.1 = price) ∧ is_zero qty = false := by
  refine change_levels_keeps
    (P := fun price qty => (∃ l ∈ levels ++ deltas, l.1 = price) ∧ is_zero qty = false) ?_ ?_ hleft
  · intro price qty hq
    have hmem := mem_of_levels_of hq
    exact ⟨⟨(price, qty), List.mem_append_left deltas hmem, rfl⟩, h.nonzero (price, qty) hmem⟩
  · intro l hl qty hq
    refine ⟨⟨l, List.mem_append_right levels hl, rfl⟩, ?_⟩
    unfold entry at hq
    split at hq
    · cases hq
    · obtain rfl := Option.some.inj hq
      simpa using ‹¬ is_zero l.2 = true›

end Mergeable

/-- The merge of one side, with the key that it is sorted by. -/
def merge_side (key : PyFloat → PyFloat) (levels deltas : List Level) :
    Except PyErr (List Level) := do
  let side ← deltas.foldlM apply_level (side_dict levels)
  sorted_by key side.rows

theorem merge_side_eq_ok {key : PyFloat → PyFloat} {levels deltas merged : List Level}
    (h : merge_side key levels deltas = .ok merged) :
    ∃ side, deltas.foldlM apply_level (side_dict levels) = .ok side ∧
      sorted_by key side.rows = .ok merged := by
  unfold merge_side at h
  cases hside : deltas.foldlM apply_level (side_dict levels) with
  | error e => simp [hside, Bind.bind, Except.bind] at h
  | ok side =>
    refine ⟨side, rfl, ?_⟩
    rw [hside] at h
    exact h

/-- A delta is merged side by side. -/
theorem apply_delta_eq {book : Book} {b a : List Level} {bids asks : List Level}
    (hb : merge_side (fun x => -x) book.bids b = .ok bids)
    (ha : merge_side id book.asks a = .ok asks) (u ts : Int) :
    apply_delta book b a u ts = .ok ⟨u, bids, asks, ts⟩ := by
  obtain ⟨bid_side, hbid, hbids⟩ := merge_side_eq_ok hb
  obtain ⟨ask_side, hask, hasks⟩ := merge_side_eq_ok ha
  unfold apply_delta
  rw [hbid, hask]
  simp only [Bind.bind, Except.bind, hbids, hasks]
  rfl

section Side

variable {key : PyFloat → PyFloat} {k : ℚ → ℚ}

/-- Levels that are sorted by their distinct numbers stand in the strict order. -/
theorem sorted_strictly {levels : List Level} (hnodup : levels.Nodup)
    (hk : ∀ l ∈ levels, ∀ m ∈ levels, k (number l.1) = k (number m.1) → l = m) :
    (levels.insertionSort fun l m => k (number l.1) ≤ k (number m.1)).Pairwise
      fun l m => k (number l.1) < k (number m.1) := by
  have htotal : Std.Total fun l m : Level => k (number l.1) ≤ k (number m.1) :=
    ⟨fun l m => le_total _ _⟩
  have htrans : IsTrans Level fun l m : Level => k (number l.1) ≤ k (number m.1) :=
    ⟨fun _ _ _ => le_trans⟩
  have hsorted := List.pairwise_insertionSort
    (fun l m : Level => k (number l.1) ≤ k (number m.1)) levels
  have hperm := List.perm_insertionSort
    (fun l m : Level => k (number l.1) ≤ k (number m.1)) levels
  have hne := hperm.nodup_iff.mpr hnodup
  refine (hsorted.and hne).imp_of_mem ?_
  intro l m hl hm hlm
  obtain ⟨hle, hne⟩ := hlm
  refine lt_of_le_of_ne hle ?_
  intro heq
  exact hne (hk l (hperm.mem_iff.mp hl) m (hperm.mem_iff.mp hm) heq)

/-- One side merges into the levels that the changes leave. -/
theorem merge_side_ok (hkey : ∀ q, key (.fin q) = .fin (k q)) (hk : Function.Injective k)
    {levels deltas : List Level} (h : Mergeable levels deltas) :
    ∃ merged, merge_side key levels deltas = .ok merged ∧
      Merged (fun x y => k x < k y) levels deltas merged := by
  have hreadable : Readable levels := fun l hl => h.prices l (List.mem_append_left deltas hl)
  obtain ⟨side, hside, hrows, hlevels⟩ := apply_levels_ok
    (fun l hl => ⟨h.prices l (List.mem_append_right levels hl), h.quantities l hl⟩)
    (readable_side_dict hreadable)
  rw [dict_levels_side_dict] at hlevels
  have hmem : ∀ l, l ∈ side.rows ↔ change_levels (levels_of levels) deltas l.1 = some l.2 := by
    intro l
    rw [← hlevels, ← levels_of_perm (List.Perm.refl side.rows), levels_of_eq_some side.unique]
  have hinj : ∀ l ∈ side.rows, ∀ m ∈ side.rows, k (number l.1) = k (number m.1) → l = m := by
    intro l hl m hm heq
    obtain ⟨⟨l', hl', hlprice⟩, -⟩ := h.left ((hmem l).mp hl)
    obtain ⟨⟨m', hm', hmprice⟩, -⟩ := h.left ((hmem m).mp hm)
    have hnumber := hk heq
    rw [← hlprice, ← hmprice] at hnumber
    have hprice := h.spelling l' hl' m' hm' hnumber
    rw [hlprice, hmprice] at hprice
    exact List.inj_on_of_nodup_map side.unique hl hm hprice
  have hsorted : sorted_by key side.rows =
      .ok (side.rows.insertionSort fun l m => k (number l.1) ≤ k (number m.1)) := by
    apply sorted_by_eq
    intro l hl
    exact ⟨.fin (number l.1), ofText_number (hrows l hl), hkey _⟩
  have hperm := List.perm_insertionSort
    (fun l m : Level => k (number l.1) ≤ k (number m.1)) side.rows
  refine ⟨side.rows.insertionSort fun l m => k (number l.1) ≤ k (number m.1), ?_, ?_⟩
  · unfold merge_side
    rw [hside]
    exact hsorted
  · exact {
      level := fun l => hperm.mem_iff.trans (hmem l)
      once := (hperm.map Prod.fst).nodup_iff.mpr side.unique
      nonzero := fun l hl => (h.left ((hmem l).mp (hperm.mem_iff.mp hl))).2
      ordered := sorted_strictly side.unique.of_map hinj }

end Side

namespace Merged

variable {order : ℚ → ℚ → Prop} {levels deltas more merged : List Level}

/-- The merged levels say of each price what the changes leave there. -/
theorem levels_of_eq (h : Merged order levels deltas merged) :
    levels_of merged = change_levels (levels_of levels) deltas := by
  funext price
  apply Option.ext
  intro qty
  rw [levels_of_eq_some h.once, h.level (price, qty)]

/-- More changes can be merged into the merged levels. -/
theorem mergeable (h : Merged order levels deltas merged)
    (hall : Mergeable levels (deltas ++ more)) : Mergeable merged more := by
  have hfrom : ∀ l ∈ merged ++ more, ∃ m ∈ levels ++ (deltas ++ more), m.1 = l.1 := by
    intro l hl
    rw [← List.append_assoc]
    rcases List.mem_append.mp hl with hl | hl
    · obtain ⟨⟨m, hm, hprice⟩, -⟩ := hall.of_append.left ((h.level l).mp hl)
      exact ⟨m, List.mem_append_left more hm, hprice⟩
    · exact ⟨l, List.mem_append_right _ hl, rfl⟩
  refine ⟨?_, ?_, ?_, h.nonzero⟩
  · intro l hl
    obtain ⟨l', hl', hprice⟩ := hfrom l hl
    rw [← hprice]
    exact hall.prices l' hl'
  · intro l hl m hm heq
    obtain ⟨l', hl', hlprice⟩ := hfrom l hl
    obtain ⟨m', hm', hmprice⟩ := hfrom m hm
    rw [← hlprice, ← hmprice] at heq ⊢
    exact hall.spelling l' hl' m' hm' heq
  · intro l hl
    exact hall.quantities l (List.mem_append_right deltas hl)

/-- The levels that are left and their order make the list. -/
theorem unique {k : ℚ → ℚ} {levels' deltas' merged' : List Level}
    (h : Merged (fun x y => k x < k y) levels deltas merged)
    (h' : Merged (fun x y => k x < k y) levels' deltas' merged')
    (hsame : change_levels (levels_of levels) deltas =
      change_levels (levels_of levels') deltas') : merged = merged' := by
  have hirrefl : Std.Irrefl fun l m : Level => k (number l.1) < k (number m.1) :=
    ⟨fun l => lt_irrefl _⟩
  have hanti : Std.Antisymm fun l m : Level => k (number l.1) < k (number m.1) :=
    ⟨fun l m hlm hml => absurd hml (lt_asymm hlm)⟩
  apply List.Pairwise.eq_of_mem_iff h.ordered h'.ordered
  intro l
  rw [h.level, h'.level, hsame]

end Merged

/-- Changes that are merged one list after the other leave what they leave together. -/
theorem merge_side_append {key : PyFloat → PyFloat} {k : ℚ → ℚ}
    (hkey : ∀ q, key (.fin q) = .fin (k q)) (hk : Function.Injective k)
    {levels deltas more : List Level} (h : Mergeable levels (deltas ++ more)) :
    ∃ first both, merge_side key levels deltas = .ok first ∧
      Merged (fun x y => k x < k y) levels deltas first ∧
      merge_side key first more = .ok both ∧
      merge_side key levels (deltas ++ more) = .ok both := by
  obtain ⟨first, hfirst, hm⟩ := merge_side_ok hkey hk h.of_append
  obtain ⟨second, hsecond, hm₂⟩ := merge_side_ok hkey hk (hm.mergeable h)
  obtain ⟨both, hboth, hm₃⟩ := merge_side_ok hkey hk h
  have hsame : second = both := by
    apply hm₂.unique hm₃
    rw [hm.levels_of_eq, change_levels_append]
  subst hsame
  exact ⟨first, second, hfirst, hm, hsecond, hboth⟩

/-! ## Both sides -/

/-- A delta is merged last write by last write into bids that go down and asks that go up,
and two deltas one after the other leave the levels that both leave together. -/
theorem apply_delta_merges {book : Book} {b b' a a' : List Level}
    (hb : Mergeable book.bids (b ++ b')) (ha : Mergeable book.asks (a ++ a'))
    (u u' u'' ts ts' ts'' : Int) :
    ∃ first second whole,
      apply_delta book b a u ts = .ok first ∧
      Merged (fun x y => y < x) book.bids b first.bids ∧
      Merged (fun x y => x < y) book.asks a first.asks ∧
      apply_delta first b' a' u' ts' = .ok second ∧
      apply_delta book (b ++ b') (a ++ a') u'' ts'' = .ok whole ∧
      second.bids = whole.bids ∧ second.asks = whole.asks := by
  obtain ⟨bids, bids', hbids, hmb, hbids', hbids''⟩ :=
    merge_side_append PyFloat.fin_neg neg_injective hb
  have hid : ∀ q, id (PyFloat.fin q) = .fin (id q) := fun _ => rfl
  obtain ⟨asks, asks', hasks, hma, hasks', hasks''⟩ :=
    merge_side_append hid Function.injective_id ha
  have hfirst := apply_delta_eq hbids hasks u ts
  have hsecond : apply_delta ⟨u, bids, asks, ts⟩ b' a' u' ts' = _ :=
    apply_delta_eq hbids' hasks' u' ts'
  have hwhole := apply_delta_eq hbids'' hasks'' u'' ts''
  refine ⟨_, _, _, hfirst, ?_, hma, hsecond, hwhole, rfl, rfl⟩
  have hdown : Merged (fun x y => y < x) book.bids b bids := {
    hmb with
    ordered := hmb.ordered.imp fun h => neg_lt_neg_iff.mp h }
  exact hdown

/-- A price that is written twice, one that is removed and one that was not there. -/
theorem a_delta_is_merged :
    let book : Book := ⟨10, [("99.5", "1"), ("100", "2")], [("101", "3")], 0⟩
    let b : List Level := [("100", "4"), ("99.9", "1"), ("100", "5"), ("98", "0.0")]
    let b' : List Level := [("99.9", "0")]
    ∃ first second whole,
      apply_delta book b [("101", "0")] 11 1 = .ok first ∧
      Merged (fun x y => y < x) book.bids b first.bids ∧
      Merged (fun x y => x < y) book.asks [("101", "0")] first.asks ∧
      apply_delta first b' [("102", "1")] 12 2 = .ok second ∧
      apply_delta book (b ++ b') ([("101", "0")] ++ [("102", "1")]) 12 2 = .ok whole ∧
      second.bids = whole.bids ∧ second.asks = whole.asks := by
  intro book b b'
  have read : ∀ deltas : List Level, (deltas.all fun l => is_number l.2) = true →
      ∀ l ∈ deltas, ∃ q, PyFloat.ofText l.2 = .ok q := by
    intro deltas h l hl
    obtain ⟨q, hq⟩ := ofText_of_number (List.all_eq_true.mp h l hl)
    exact ⟨.fin q, hq⟩
  have hb : Mergeable book.bids (b ++ b') :=
    ⟨by unfold Readable; decide +kernel, by unfold OneSpelling; decide +kernel,
      read (b ++ b') (by decide +kernel), by decide +kernel⟩
  have ha : Mergeable book.asks ([("101", "0")] ++ [("102", "1")]) :=
    ⟨by unfold Readable; decide +kernel, by unfold OneSpelling; decide +kernel,
      read _ (by decide +kernel), by decide +kernel⟩
  exact apply_delta_merges hb ha 11 12 12 1 2 2

end trading_platform.normalizer
