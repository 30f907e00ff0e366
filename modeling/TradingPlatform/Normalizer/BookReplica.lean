-- The stored order book against the book that the ids of its updates define. The
-- consumer merges every delta that finds a stored book, whatever its ids are.
import TradingPlatform.Normalizer.OrderBook

open resumption
open keyed
open replica
open trading_platform.shared

namespace trading_platform.normalizer

/-! ## The reference -/

/-- The quantity at each price that has one. -/
abbrev Levels := String → Option String

structure Sides where
  bids : Levels
  asks : Levels

/-- What a list of levels says of each price. -/
def levels_of (levels : List Level) : Levels := fun price =>
  (lastOf Prod.fst levels price).map (·.2)

def is_number (text : String) : Bool :=
  match PyFloat.ofText text with
  | .ok (.fin _) => true
  | _ => false

def is_zero (text : String) : Bool :=
  match PyFloat.ofText text with
  | .ok x => x = .fin 0
  | _ => false

/-- What an entry of a delta puts at its price: a zero quantity removes the level. -/
def entry (l : Level) : Option String := if is_zero l.2 then none else some l.2

def change_levels (m : Levels) (deltas : List Level) : Levels :=
  deltas.foldl (fun m l => Function.update m l.1 (entry l)) m

def change (s : Sides) (d : List Level × List Level) : Sides :=
  ⟨change_levels s.bids d.1, change_levels s.asks d.2⟩

/-- A depth event of a symbol. Its levels are numbers. -/
structure DepthEvent (market_type : MarketType) (symbol : String) where
  raw : RawEvent
  market_eq : raw.market_type = market_type
  depth : has "@depth" (lower raw.source_stream) = true
  symbol_eq : symbol_from_stream raw.source_stream = some symbol
  symbol_ne : symbol ≠ ""
  numbers : ∀ l ∈ raw.payload.bids ++ raw.payload.asks ++ raw.payload.b ++ raw.payload.a,
    is_number l.1 = true ∧ is_number l.2 = true

variable {market_type : MarketType} {symbol : String}

namespace DepthEvent

variable (e : DepthEvent market_type symbol)

def is_snapshot : Bool := is_snapshot_stream e.raw.source_stream

/-- What the event means for a copy of the book. -/
def update : Update Sides (List Level × List Level) :=
  if e.is_snapshot then
    .snapshot e.raw.payload.lastUpdateId
      ⟨levels_of e.raw.payload.bids, levels_of e.raw.payload.asks⟩
  else .delta e.raw.payload.U e.raw.payload.u (e.raw.payload.b, e.raw.payload.a)

end DepthEvent

def copy_of (book : Book) : Copy Sides :=
  ⟨book.last_update_id, levels_of book.bids, levels_of book.asks⟩

/-! ## The merge -/

theorem ofText_of_number {text : String} (h : is_number text = true) :
    ∃ q, PyFloat.ofText text = .ok (.fin q) := by
  unfold is_number at h
  split at h
  · exact ⟨_, ‹_›⟩
  · cases h

/-- The number that a text reads as, if it reads as a finite one. -/
def number (text : String) : ℚ :=
  match PyFloat.ofText text with
  | .ok (.fin q) => q
  | _ => 0

theorem ofText_number {text : String} (h : is_number text = true) :
    PyFloat.ofText text = .ok (.fin (number text)) := by
  obtain ⟨q, hq⟩ := ofText_of_number h
  simp [number, hq]

theorem find_set (t : SideDict) (l : Level) (price : String) :
    (t.set l).find price = if price = l.1 then some l else t.find price := by
  unfold SideDict.set
  apply Table.find_upsert_row
  intro r hr
  rw [hr]

theorem find_side_dict (levels : List Level) (price : String) :
    (side_dict levels).find price = lastOf Prod.fst levels price := by
  induction levels using List.reverseRecOn with
  | nil => rfl
  | append_singleton levels l ih =>
    have hsnoc : side_dict (levels ++ [l]) = (side_dict levels).set l := by
      simp [side_dict, List.foldl_append]
    rw [hsnoc, find_set, lastOf_snoc, ih]
    by_cases hp : price = l.1
    · rw [if_pos hp, if_pos hp.symm]
    · rw [if_neg hp, if_neg (Ne.symm hp)]

/-- The prices of the rows are numbers. -/
def Readable (levels : List Level) : Prop := ∀ l ∈ levels, is_number l.1 = true

theorem readable_side_dict {levels : List Level} (h : Readable levels) :
    Readable (side_dict levels).rows := by
  intro l hl
  have hf := Table.find_eq_some.mpr ⟨hl, rfl⟩
  rw [find_side_dict] at hf
  exact h l (lastOf_eq_some hf).1

/-- What a dict of a side says of each price. -/
def dict_levels (t : SideDict) : Levels := fun price => (t.find price).map (·.2)

theorem apply_level_ok {t : SideDict} {l : Level} (ht : Readable t.rows)
    (hp : is_number l.1 = true) {q : PyFloat} (hq : PyFloat.ofText l.2 = .ok q) :
    ∃ t', apply_level t l = .ok t' ∧ Readable t'.rows ∧
      dict_levels t' = Function.update (dict_levels t) l.1 (entry l) := by
  unfold apply_level entry is_zero
  rw [hq]
  by_cases hzero : q = .fin 0
  · refine ⟨t.erase l.1, by simp [hzero, Bind.bind, Except.bind, Pure.pure, Except.pure], ?_, ?_⟩
    · intro r hr
      exact ht r (List.mem_filter.mp hr).1
    · funext price
      by_cases hprice : price = l.1
      · subst hprice
        simp [dict_levels, Table.find_erase, hzero]
      · simp [dict_levels, Table.find_erase, hprice]
  · refine ⟨t.set l, by simp [hzero, Bind.bind, Except.bind, Pure.pure, Except.pure], ?_, ?_⟩
    · intro r hr
      have hf := Table.find_eq_some.mpr ⟨hr, rfl⟩
      rw [find_set] at hf
      split at hf
      · obtain rfl := Option.some.inj hf
        exact hp
      · exact ht r (Table.find_eq_some.mp hf).1
    · funext price
      by_cases hprice : price = l.1
      · subst hprice
        simp [dict_levels, find_set, hzero]
      · simp [dict_levels, find_set, hprice]

theorem apply_levels_ok {deltas : List Level}
    (hd : ∀ l ∈ deltas, is_number l.1 = true ∧ ∃ q, PyFloat.ofText l.2 = .ok q) {t : SideDict}
    (ht : Readable t.rows) :
    ∃ t', deltas.foldlM apply_level t = .ok t' ∧ Readable t'.rows ∧
      dict_levels t' = change_levels (dict_levels t) deltas := by
  induction deltas generalizing t with
  | nil => exact ⟨t, rfl, ht, rfl⟩
  | cons l deltas ih =>
    obtain ⟨hp, q, hq⟩ := hd l List.mem_cons_self
    obtain ⟨t', he, ht', hlevels⟩ := apply_level_ok ht hp hq
    obtain ⟨t'', he', ht'', hlevels'⟩ := ih (fun x hx => hd x (List.mem_cons_of_mem l hx)) ht'
    refine ⟨t'', ?_, ht'', ?_⟩
    · rw [List.foldlM_cons, he]
      exact he'
    · rw [hlevels', hlevels]
      rfl

theorem mapM_ok {α β : Type} {f : α → Except PyErr β} {g : α → β} {xs : List α}
    (h : ∀ x ∈ xs, f x = .ok (g x)) : xs.mapM f = .ok (xs.map g) := by
  induction xs with
  | nil => rfl
  | cons x xs ih =>
    rw [List.mapM_cons, h x List.mem_cons_self, ih fun y hy => h y (List.mem_cons_of_mem x hy)]
    rfl

/-- The levels sorted by a number, for a key that reads as that number. -/
theorem sorted_by_eq {key : PyFloat → PyFloat} {k : Level → ℚ} {levels : List Level}
    (h : ∀ l ∈ levels, ∃ x, PyFloat.ofText l.1 = .ok x ∧ key x = .fin (k l)) :
    sorted_by key levels = .ok (levels.insertionSort fun l m => k l ≤ k m) := by
  have hkeyed : levels.mapM (fun l => do return (key (← PyFloat.ofText l.1), l)) =
      Except.ok (levels.map fun l => (PyFloat.fin (k l), l)) := by
    apply mapM_ok
    intro l hl
    obtain ⟨x, hx, hkey⟩ := h l hl
    rw [hx, ← hkey]
    rfl
  have hsort : (levels.insertionSort fun l m => k l ≤ k m).map (fun l => (PyFloat.fin (k l), l)) =
      (levels.map fun l => (PyFloat.fin (k l), l)).insertionSort
        fun x y => y.1.lt x.1 = false := by
    apply List.map_insertionSort
    intro l _ m _
    simp
  rw [sorted_by, hkeyed]
  simp only [Bind.bind, Except.bind, Pure.pure, Except.pure, ← hsort, List.map_map]
  simp [Function.comp_def]

/-- Sorting keeps the levels. -/
theorem sorted_by_ok {key : PyFloat → PyFloat} {k : ℚ → ℚ} (hkey : ∀ q, key (.fin q) = .fin (k q))
    {levels : List Level} (h : Readable levels) :
    ∃ sorted, sorted_by key levels = .ok sorted ∧ sorted.Perm levels := by
  refine ⟨_, sorted_by_eq (k := fun l => k (number l.1)) ?_, List.perm_insertionSort _ _⟩
  intro l hl
  exact ⟨.fin (number l.1), ofText_number (h l hl), hkey _⟩

theorem levels_of_perm {t : SideDict} {levels : List Level} (h : levels.Perm t.rows) :
    levels_of levels = dict_levels t := by
  funext price
  unfold levels_of dict_levels
  rw [lastOf_of_perm h]

theorem dict_levels_side_dict (levels : List Level) :
    dict_levels (side_dict levels) = levels_of levels := by
  funext price
  unfold levels_of dict_levels
  rw [find_side_dict]

def ReadableBook (book : Book) : Prop := Readable book.bids ∧ Readable book.asks

theorem read_of_numbers {l : Level} (h : is_number l.1 = true ∧ is_number l.2 = true) :
    is_number l.1 = true ∧ ∃ q, PyFloat.ofText l.2 = .ok q := by
  obtain ⟨q, hq⟩ := ofText_of_number h.2
  exact ⟨h.1, .fin q, hq⟩

/-- The merged book has the id of the delta, and its levels are changed by it. -/
theorem apply_delta_ok {book : Book} (hbook : ReadableBook book) {b a : List Level}
    (hb : ∀ l ∈ b, is_number l.1 = true ∧ is_number l.2 = true)
    (ha : ∀ l ∈ a, is_number l.1 = true ∧ is_number l.2 = true) (u ts : Int) :
    ∃ merged, apply_delta book b a u ts = .ok merged ∧ ReadableBook merged ∧
      copy_of merged = ⟨u, change (copy_of book).content (b, a)⟩ := by
  obtain ⟨bids, hbids, hrb, hlb⟩ := apply_levels_ok (fun l hl => read_of_numbers (hb l hl))
    (readable_side_dict hbook.1)
  obtain ⟨asks, hasks, hra, hla⟩ := apply_levels_ok (fun l hl => read_of_numbers (ha l hl))
    (readable_side_dict hbook.2)
  obtain ⟨sorted_bids, hsb, hpb⟩ := sorted_by_ok PyFloat.fin_neg hrb
  have hid : ∀ q, id (PyFloat.fin q) = .fin (id q) := fun _ => rfl
  obtain ⟨sorted_asks, hsa, hpa⟩ := sorted_by_ok hid hra
  refine ⟨⟨u, sorted_bids, sorted_asks, ts⟩, ?_, ⟨?_, ?_⟩, ?_⟩
  · unfold apply_delta
    rw [hbids, hasks]
    simp only [Bind.bind, Except.bind, hsb, hsa]
    rfl
  · intro l hl
    exact hrb l (hpb.mem_iff.mp hl)
  · intro l hl
    exact hra l (hpa.mem_iff.mp hl)
  · rw [dict_levels_side_dict] at hlb hla
    unfold copy_of change
    rw [levels_of_perm hpb, levels_of_perm hpa, hlb, hla]

/-! ## One event -/

/-- The book stored for a symbol. -/
def stored (market_type : MarketType) (symbol : String) (f : Feed) : Option Book :=
  f.books (RedisKeys.market_book market_type.value symbol)

/-- An entry of the raw stream, handled while nothing expires and nothing fails. -/
def handled (f : Feed) (entry : Nat × DepthEvent market_type symbol) : Feed :=
  (run Feed.exec {} (NormalizerConsumer.handle entry.1 (some (.ok entry.2.raw))) f []).2.1

namespace DepthEvent

variable (e : DepthEvent market_type symbol)

theorem symbol_of_eq (handler : String) : symbol_of handler e.raw = .ok symbol := by
  unfold symbol_of
  rw [e.symbol_eq]
  simp [e.symbol_ne]

/-- The consumer reads the stored book before the event. -/
def merges : Bool := is_depth_delta_stream e.raw.source_stream

theorem prefetch_eq : NormalizerConsumer.prefetch e.raw =
    if e.merges then feed (.get_book (RedisKeys.market_book market_type.value symbol))
    else .done none := by
  unfold NormalizerConsumer.prefetch merges
  rw [e.symbol_eq, e.market_eq]
  simp [e.symbol_ne]

theorem route_eq (current_book : Option Book) : route e.raw current_book =
    some (if e.is_snapshot then handle_orderbook_snapshot e.raw
      else handle_orderbook_delta e.raw current_book) := by
  unfold route is_snapshot
  rw [if_pos e.depth]
  split <;> rfl

/-- The book that the event leaves, from the one that was stored. -/
def next_book (book : Option Book) : Option Book :=
  if e.is_snapshot then
    some ⟨e.raw.payload.lastUpdateId, e.raw.payload.bids, e.raw.payload.asks, e.raw.received_ms⟩
  else if e.merges then
    match book with
    | none => none
    | some b =>
      match apply_delta b e.raw.payload.b e.raw.payload.a e.raw.payload.u e.raw.received_ms with
      | .ok merged => some merged
      | .error _ => some b
  else book

end DepthEvent

/-- Writing books does not look at the streams. -/
theorem books_of_writes {f f' : Feed} (h : f.books = f'.books) (writes : List HotStateWrite) :
    (writes.foldl Feed.set_book f).books = (writes.foldl Feed.set_book f').books := by
  induction writes generalizing f f' with
  | nil => exact h
  | cons w writes ih =>
    apply ih
    simp [Feed.set_book, h]

/-- A normalized event is published, and then its book is stored. -/
theorem alone_deliver (f : Feed) (msg_id : Nat) (result : HandlerResult) :
    Alone Feed.exec {} f
      (do
        feed (.xadd result.event)
        NormalizerConsumer.write_all result.hot_writes
        feed (.xack NormalizerConsumer.RAW msg_id))
      fun _ f' => f'.books = (result.hot_writes.foldl Feed.set_book f).books := by
  unfold NormalizerConsumer.write_all
  cases hw : result.hot_writes with
  | nil => simp [alone_bind, alone_perform, feed, Feed.answer]
  | cons w ws =>
    simp only [alone_bind, alone_perform, feed, Feed.exec_idle, Feed.answer, List.isEmpty_cons,
      Bool.false_eq_true, if_false]
    apply books_of_writes
    rfl

/-- A handler that raises leaves the books as they are. -/
theorem alone_route {f : Feed} {msg_id : Nat} {result : Except PyErr HandlerResult} :
    Alone Feed.exec {} f
      (do
        let result ← Prog.ofExcept result
        feed (.xadd result.event)
        NormalizerConsumer.write_all result.hot_writes
        feed (.xack NormalizerConsumer.RAW msg_id))
      fun _ f' => f'.books =
        match result with
        | .ok result => (result.hot_writes.foldl Feed.set_book f).books
        | .error _ => f.books := by
  cases result with
  | ok result => exact alone_deliver f msg_id result
  | error err => simp [Prog.ofExcept]

/-- What the handlers write for the event. -/
theorem route_writes (e : DepthEvent market_type symbol) (f : Feed) :
    (match (if e.is_snapshot then handle_orderbook_snapshot e.raw
        else handle_orderbook_delta e.raw
          (if e.merges then stored market_type symbol f else none)) with
      | .ok result => (result.hot_writes.foldl Feed.set_book f).books
      | .error _ => f.books) (RedisKeys.market_book market_type.value symbol) =
      e.next_book (stored market_type symbol f) := by
  unfold DepthEvent.next_book
  by_cases hs : e.is_snapshot = true
  · simp [hs, handle_orderbook_snapshot, e.symbol_of_eq, e.market_eq, Bind.bind, Except.bind,
      Pure.pure, Except.pure, Feed.set_book]
  · by_cases hm : e.merges = true
    · simp only [hs, hm, if_true, Bool.false_eq_true, if_false]
      unfold handle_orderbook_delta
      cases hb : stored market_type symbol f with
      | none =>
        simp [e.symbol_of_eq, Bind.bind, Except.bind, Pure.pure, Except.pure]
        exact hb
      | some b =>
        simp only [e.symbol_of_eq, e.market_eq, Bind.bind, Except.bind, Pure.pure, Except.pure]
        cases apply_delta b e.raw.payload.b e.raw.payload.a e.raw.payload.u e.raw.received_ms with
        | ok merged => simp [Feed.set_book]
        | error err => exact hb
    · simp [hs, hm, handle_orderbook_delta, e.symbol_of_eq, Bind.bind, Except.bind, Pure.pure,
        Except.pure, stored]

-- The names of the streams need not be read to see what is stored.
attribute [local irreducible] has

/-- Handling one event takes the stored book to the next one. -/
theorem stored_handled (f : Feed) (entry : Nat × DepthEvent market_type symbol) :
    stored market_type symbol (handled f entry) =
      entry.2.next_book (stored market_type symbol f) := by
  obtain ⟨msg_id, e⟩ := entry
  let book := if e.merges then stored market_type symbol f else none
  suffices hprocess : Alone Feed.exec {} f (NormalizerConsumer.process msg_id (some (.ok e.raw)))
      fun _ f' => f'.books =
        match (if e.is_snapshot then handle_orderbook_snapshot e.raw
          else handle_orderbook_delta e.raw book) with
        | .ok result => (result.hot_writes.foldl Feed.set_book f).books
        | .error _ => f.books by
    have hhandle : Alone Feed.exec {} f
        (NormalizerConsumer.handle msg_id (some (.ok e.raw)))
        fun _ f' => stored market_type symbol f' = e.next_book (stored market_type symbol f) := by
      unfold NormalizerConsumer.handle
      refine alone_bind.mpr ?_
      refine alone_attempt.mpr ?_
      refine alone_mono hprocess ?_
      intro r f' hf'
      have hbook : stored market_type symbol f' = e.next_book (stored market_type symbol f) := by
        unfold stored
        rw [hf']
        exact route_writes e f
      cases r with
      | ok _ => exact hbook
      | error err =>
        refine alone_perform.mpr ?_
        simp only [Feed.exec_idle, Feed.answer]
        exact hbook
    exact hhandle
  refine alone_bind.mpr ?_
  simp only [Prog.ofExcept, alone_done]
  refine alone_bind.mpr ?_
  rw [e.prefetch_eq]
  by_cases hm : e.merges = true
  · rw [if_pos hm]
    refine alone_perform.mpr ?_
    simp only [Feed.exec_idle, Feed.answer, e.route_eq]
    have hbook : f.books (RedisKeys.market_book market_type.value symbol) = book := by
      simp [book, hm, stored]
    rw [hbook]
    exact alone_route
  · rw [if_neg hm]
    simp only [alone_done, e.route_eq]
    have hbook : none = book := by simp [book, hm]
    rw [hbook]
    exact alone_route

/-! ## One event and the reference -/

/-- The last entry of each price puts there what the levels already have. -/
def Repeats (levels deltas : List Level) : Prop :=
  ∀ l ∈ deltas, lastOf Prod.fst deltas l.1 = some l → levels_of levels l.1 = entry l

theorem change_levels_eq_iff (levels deltas : List Level) :
    change_levels (levels_of levels) deltas = levels_of levels ↔ Repeats levels deltas := by
  have hat : ∀ price, change_levels (levels_of levels) deltas price =
      ((lastOf Prod.fst deltas price).map entry).getD (levels_of levels price) :=
    fun price => foldl_update Prod.fst entry deltas (levels_of levels) price
  constructor
  · intro h l _ hlast
    have hl := hat l.1
    rw [h, hlast] at hl
    exact hl
  · intro h
    funext price
    rw [hat]
    cases hlast : lastOf Prod.fst deltas price with
    | none => rfl
    | some l =>
      obtain ⟨hl, rfl⟩ := lastOf_eq_some hlast
      exact (h l hl hlast).symm

/-- The event finds no book, or is a snapshot, or has the ids that its treatment
needs. A delta is merged if its stream is written in lower case. Then it is in
sequence, or it repeats the id and the levels of the book. -/
def Fits (book : Option Book) (e : DepthEvent market_type symbol) : Prop :=
  match book with
  | none => True
  | some b =>
    e.is_snapshot = true ∨
      if e.merges then
        Takes b.last_update_id e.raw.payload.U e.raw.payload.u ∨
          (e.raw.payload.u = b.last_update_id ∧ Repeats b.bids e.raw.payload.b ∧
            Repeats b.asks e.raw.payload.a)
      else ¬ Takes b.last_update_id e.raw.payload.U e.raw.payload.u

namespace DepthEvent

variable (e : DepthEvent market_type symbol)

theorem readable_bids : Readable e.raw.payload.bids := fun l hl => (e.numbers l (by simp [hl])).1

theorem readable_asks : Readable e.raw.payload.asks := fun l hl => (e.numbers l (by simp [hl])).1

theorem next_book_delta {b : Book} (hb : ReadableBook b) (hs : ¬ e.is_snapshot = true)
    (hm : e.merges = true) :
    ∃ merged, e.next_book (some b) = some merged ∧ ReadableBook merged ∧
      copy_of merged =
        ⟨e.raw.payload.u, change (copy_of b).content (e.raw.payload.b, e.raw.payload.a)⟩ := by
  have hnb : ∀ l ∈ e.raw.payload.b, is_number l.1 = true ∧ is_number l.2 = true :=
    fun l hl => e.numbers l (by simp [hl])
  have hna : ∀ l ∈ e.raw.payload.a, is_number l.1 = true ∧ is_number l.2 = true :=
    fun l hl => e.numbers l (by simp [hl])
  obtain ⟨merged, hmerged, hread, hcopy⟩ :=
    apply_delta_ok hb hnb hna e.raw.payload.u e.raw.received_ms
  refine ⟨merged, ?_, hread, hcopy⟩
  simp [next_book, hs, hm, hmerged]

theorem next_book_readable {book : Option Book} (hb : ∀ b, book = some b → ReadableBook b) :
    ∀ b, e.next_book book = some b → ReadableBook b := by
  intro b h
  by_cases hs : e.is_snapshot = true
  · simp only [next_book, hs, if_true] at h
    obtain rfl := Option.some.inj h
    exact ⟨e.readable_bids, e.readable_asks⟩
  · by_cases hm : e.merges = true
    · cases hbook : book with
      | none => simp [next_book, hs, hm, hbook] at h
      | some b' =>
        obtain ⟨merged, hnext, hread, -⟩ := e.next_book_delta (hb b' hbook) hs hm
        rw [hbook, hnext] at h
        obtain rfl := Option.some.inj h
        exact hread
    · simp only [next_book, hs, hm, Bool.false_eq_true, if_false] at h
      exact hb b h

/-- The stored book goes where the reference goes exactly when the event fits. -/
theorem next_book_follows_iff {book : Option Book} (hb : ∀ b, book = some b → ReadableBook b) :
    (e.next_book book).map copy_of = follow change (book.map copy_of) e.update ↔ Fits book e := by
  by_cases hs : e.is_snapshot = true
  · have hfits : Fits book e := by
      cases book with
      | none => trivial
      | some b => exact Or.inl hs
    simp [next_book, update, hs, hfits, follow, copy_of]
  · cases book with
    | none => simp [next_book, update, hs, Fits, follow]
    | some b =>
      simp only [Fits, hs, false_or, update, if_false, Option.map_some, follow, Bool.false_eq_true]
      by_cases hm : e.merges = true
      · obtain ⟨merged, hnext, -, hcopy⟩ := e.next_book_delta (hb b rfl) hs hm
        rw [hnext, Option.map_some, hcopy, if_pos hm]
        by_cases ht : Takes (copy_of b).last e.raw.payload.U e.raw.payload.u
        · have ht' : Takes b.last_update_id e.raw.payload.U e.raw.payload.u := ht
          simp [if_pos ht, ht']
        · have ht' : ¬ Takes b.last_update_id e.raw.payload.U e.raw.payload.u := ht
          rw [if_neg ht, ← change_levels_eq_iff, ← change_levels_eq_iff]
          simp [copy_of, change, ht']
      · rw [if_neg hm]
        have hnext : e.next_book (some b) = some b := by simp [next_book, hs, hm]
        rw [hnext, Option.map_some]
        by_cases ht : Takes (copy_of b).last e.raw.payload.U e.raw.payload.u
        · have hpast : b.last_update_id < e.raw.payload.u := ht.1
          have ht' : Takes b.last_update_id e.raw.payload.U e.raw.payload.u := ht
          simp only [if_pos ht, ht', not_true_eq_false, iff_false]
          intro heq
          have hlast := congrArg Copy.last (Option.some.inj heq)
          simp [copy_of] at hlast
          omega
        · have ht' : ¬ Takes b.last_update_id e.raw.payload.U e.raw.payload.u := ht
          simp [if_neg ht, ht']

end DepthEvent

/-! ## The run -/

/-- The book stored after a list of entries. -/
def book_after (entries : List (Nat × DepthEvent market_type symbol)) : Option Book :=
  stored market_type symbol (entries.foldl handled Feed.empty)

/-- The stored book is the reference after each entry, a delta that the reference
refuses leaves the stored levels, and no delta moves the stored id back. -/
structure FollowsReference (entries : List (Nat × DepthEvent market_type symbol)) : Prop where
  agrees : ∀ pre, pre <+: entries →
    (book_after pre).map copy_of = follow_all change none (pre.map (·.2.update))
  unchanged : ∀ pre x, pre ++ [x] <+: entries → x.2.is_snapshot = false →
    ∀ b, book_after pre = some b →
      ¬ Takes b.last_update_id x.2.raw.payload.U x.2.raw.payload.u →
        ∃ b', book_after (pre ++ [x]) = some b' ∧ levels_of b'.bids = levels_of b.bids ∧
          levels_of b'.asks = levels_of b.asks
  monotone : ∀ pre post, pre ++ post <+: entries → (∀ x ∈ post, x.2.is_snapshot = false) →
    ∀ b b', book_after pre = some b → book_after (pre ++ post) = some b' →
      b.last_update_id ≤ b'.last_update_id

theorem book_after_snoc (pre : List (Nat × DepthEvent market_type symbol))
    (x : Nat × DepthEvent market_type symbol) :
    book_after (pre ++ [x]) = x.2.next_book (book_after pre) := by
  unfold book_after
  rw [List.foldl_append, List.foldl_cons, List.foldl_nil, stored_handled]

/-- Every stored book has prices that are numbers. -/
theorem book_after_readable (entries : List (Nat × DepthEvent market_type symbol)) :
    ∀ b, book_after entries = some b → ReadableBook b := by
  induction entries using List.reverseRecOn with
  | nil =>
    intro b h
    cases h
  | append_singleton pre x ih =>
    rw [book_after_snoc]
    exact x.2.next_book_readable ih

/-- The run agrees with the reference after each entry exactly when each event fits
the book that it finds. -/
theorem agrees_iff_fits (entries : List (Nat × DepthEvent market_type symbol)) :
    (∀ pre, pre <+: entries →
      (book_after pre).map copy_of = follow_all change none (pre.map (·.2.update))) ↔
      ∀ pre x, pre ++ [x] <+: entries → Fits (book_after pre) x.2 := by
  have hsteps := agrees_iff_steps handled
    (fun (c : Option (Copy Sides)) (x : Nat × DepthEvent market_type symbol) =>
      follow change c x.2.update)
    (fun f => (stored market_type symbol f).map copy_of) Feed.empty entries
  have href : ∀ pre : List (Nat × DepthEvent market_type symbol),
      follow_all change none (pre.map (·.2.update)) =
        pre.foldl (fun c x => follow change c x.2.update) none := by
    intro pre
    rw [follow_all, List.foldl_map]
  simp only [href]
  refine hsteps.trans ?_
  refine forall_congr' fun pre => forall_congr' fun x => imp_congr_right fun _ => ?_
  rw [stored_handled]
  exact x.2.next_book_follows_iff (book_after_readable pre)

/-- The stored book follows the reference exactly in the runs where each event fits
the book that it finds. -/
theorem hot_book_follows_reference_iff (entries : List (Nat × DepthEvent market_type symbol)) :
    FollowsReference entries ↔ ∀ pre x, pre ++ [x] <+: entries → Fits (book_after pre) x.2 := by
  rw [← agrees_iff_fits]
  constructor
  · exact FollowsReference.agrees
  · intro hagrees
    refine ⟨hagrees, ?_, ?_⟩
    · intro pre x hpre hdelta b hb hrefused
      have hbefore := hagrees pre ((List.prefix_append pre [x]).trans hpre)
      have hafter := hagrees (pre ++ [x]) hpre
      rw [List.map_append, List.map_singleton, follow_all_snoc, ← hbefore, hb, Option.map_some]
        at hafter
      have hupdate : x.2.update = .delta x.2.raw.payload.U x.2.raw.payload.u
          (x.2.raw.payload.b, x.2.raw.payload.a) := by
        simp [DepthEvent.update, hdelta]
      rw [hupdate, follow_refused change hrefused] at hafter
      obtain ⟨b', hb', hcopy⟩ := Option.map_eq_some_iff.mp hafter
      have hcontent := congrArg Copy.content hcopy
      exact ⟨b', hb', congrArg Sides.bids hcontent, congrArg Sides.asks hcontent⟩
    · intro pre post hpre hdeltas b b' hb hb'
      have hbefore := hagrees pre ((List.prefix_append pre post).trans hpre)
      have hafter := hagrees (pre ++ post) hpre
      have hfollow : follow_all change (some (copy_of b)) (post.map (·.2.update)) =
          some (copy_of b') := by
        rw [hb, Option.map_some] at hbefore
        rw [hb', List.map_append, follow_all, List.foldl_append, Option.map_some] at hafter
        rw [hbefore, hafter]
        rfl
      have hle := last_le_of_follow_all change (c := copy_of b) ?_ hfollow
      · exact hle
      · intro up hup
        obtain ⟨x, hx, rfl⟩ := List.mem_map.mp hup
        refine ⟨x.2.raw.payload.U, x.2.raw.payload.u, (x.2.raw.payload.b, x.2.raw.payload.a), ?_⟩
        simp [DepthEvent.update, hdeltas x hx]

/-- A spot depth event of BTCUSDT. -/
def btc_event (source_stream : String) (payload : DepthPayload)
    (depth : has "@depth" (lower source_stream) = true)
    (symbol_eq : symbol_from_stream source_stream = some "BTCUSDT")
    (numbers : ∀ l ∈ payload.bids ++ payload.asks ++ payload.b ++ payload.a,
      is_number l.1 = true ∧ is_number l.2 = true) : DepthEvent .spot "BTCUSDT" :=
  ⟨⟨.spot, source_stream, 0, payload⟩, rfl, depth, symbol_eq, by decide, numbers⟩

def btc_snapshot : DepthEvent .spot "BTCUSDT" :=
  btc_event "btcusdt@depth20"
    { lastUpdateId := 10, bids := [("100.00", "1.0")], asks := [("101.00", "1.0")] }
    (by decide +kernel) (by decide +kernel) (by decide +kernel)

/-- A delta from before the snapshot, with a bid that was gone by then. -/
def btc_stale_delta : DepthEvent .spot "BTCUSDT" :=
  btc_event "btcusdt@depth@100ms" { U := 4, u := 5, b := [("100.50", "2.0")] }
    (by decide +kernel) (by decide +kernel) (by decide +kernel)

/-- The stale delta is merged: the bid is back, and the stored id goes from 10 to 5. -/
theorem a_stale_delta_is_merged : ¬ FollowsReference [(0, btc_snapshot), (1, btc_stale_delta)] := by
  intro h
  have hbook : book_after [(0, btc_snapshot), (1, btc_stale_delta)] =
      some ⟨5, [("100.50", "2.0"), ("100.00", "1.0")], [("101.00", "1.0")], 0⟩ := by
    decide +kernel
  have hle := h.monotone [(0, btc_snapshot)] [(1, btc_stale_delta)] List.prefix_rfl
    (by decide +kernel) ⟨10, [("100.00", "1.0")], [("101.00", "1.0")], 0⟩ _ (by decide +kernel) hbook
  exact absurd hle (by decide)

end trading_platform.normalizer
