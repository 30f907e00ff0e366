-- The book that the analytics service keeps against the ids that it follows. The
-- ids come with the events, and the book is fetched while the normalizer goes on:
-- the normalizer publishes an event before it writes the book of it, and the book
-- may expire.
import TradingPlatform.Lib.Pool
import TradingPlatform.Normalizer.OrderBook
import TradingPlatform.Analytics.Dispatcher

open resumption
open replica
open trading_platform.shared
open trading_platform.normalizer

namespace trading_platform.analytics

variable {settings : AnalyticsSettings}

/-! ## One event -/

/-- A valid state keeps the book of its last id. -/
def Agrees (state : SymbolState settings) : Prop :=
  state.integrity.is_valid = true →
    ∀ book, state.last_book = some book → book.last_update_id = state.integrity.last_update_id

/-- The last id after the event, if the event moves it in a state that is valid then. -/
def moves_to (integrity : BookIntegrityState) (event : NormalizedEvent) : Option Int :=
  match event.data with
  | .orderbook_snapshot d => some d.last_update_id
  | .orderbook_delta d =>
    if integrity.is_valid = true ∧ integrity.Accepts (d.first_update_id.getD 0) d.last_update_id then
      some d.last_update_id
    else none
  | _ => none

/-- The book that the state will have, the fetched one or the one that it has, is the
book of the event, if the event moves the last id. -/
def Synced (state : SymbolState settings) (event : NormalizedEvent) (fetched : Option Book) : Prop :=
  match moves_to state.integrity event, fetched.or state.last_book with
  | some id, some book => book.last_update_id = id
  | _, _ => True

instance (state : SymbolState settings) (event : NormalizedEvent) (fetched : Option Book) :
    Decidable (Synced state event fetched) :=
  match h1 : moves_to state.integrity event, h2 : fetched.or state.last_book with
  | some id, some book => decidable_of_iff (book.last_update_id = id) (by simp [Synced, h1, h2])
  | none, _ => isTrue (by simp [Synced, h1])
  | some _, none => isTrue (by simp [Synced, h1, h2])

@[simp] theorem set_price_integrity (state : SymbolState settings) (p : Except PyErr PyFloat) :
    (state.set_price p).integrity = state.integrity := by
  unfold SymbolState.set_price
  split
  · split <;> rfl
  · rfl

@[simp] theorem set_price_last_book (state : SymbolState settings) (p : Except PyErr PyFloat) :
    (state.set_price p).last_book = state.last_book := by
  unfold SymbolState.set_price
  split
  · split <;> rfl
  · rfl

@[simp] theorem refresh_walls_integrity (state : SymbolState settings) (ts : Int) :
    (state.refresh_walls ts).integrity = state.integrity := by
  unfold SymbolState.refresh_walls
  split
  · split <;> rfl
  · rfl

@[simp] theorem refresh_walls_last_book (state : SymbolState settings) (ts : Int) :
    (state.refresh_walls ts).last_book = state.last_book := by
  unfold SymbolState.refresh_walls
  split
  · split <;> rfl
  · rfl

theorem on_orderbook_snapshot_book (state : SymbolState settings) (d : BookData)
    (fetched : Option Book) (ts : Int) :
    (state.on_orderbook_snapshot d fetched ts).integrity =
        state.integrity.on_snapshot d.last_update_id ts ∧
      (state.on_orderbook_snapshot d fetched ts).last_book = fetched.or state.last_book := by
  unfold SymbolState.on_orderbook_snapshot
  simp only
  split <;> simp

theorem on_orderbook_delta_book (state : SymbolState settings) (d : BookData)
    (fetched : Option Book) (ts : Int) :
    (state.on_orderbook_delta d fetched ts).integrity =
        (state.integrity.on_delta (d.first_update_id.getD 0) d.last_update_id ts).2 ∧
      (state.on_orderbook_delta d fetched ts).last_book =
        if (state.integrity.on_delta (d.first_update_id.getD 0) d.last_update_id ts).1 then
          fetched.or state.last_book
        else state.last_book := by
  unfold SymbolState.on_orderbook_delta
  simp only
  cases hr : (state.integrity.on_delta (d.first_update_id.getD 0) d.last_update_id ts).1
  · simp
  · cases fetched with
    | none => simp
    | some book => simp

theorem on_trade_book (state : SymbolState settings) (d : TradeData) (ts : Int) :
    (state.on_trade d ts).integrity = state.integrity ∧
      (state.on_trade d ts).last_book = state.last_book := by
  unfold SymbolState.on_trade
  simp

theorem on_kline_book (state : SymbolState settings) (d : KlineData) :
    (state.on_kline d).integrity = state.integrity ∧
      (state.on_kline d).last_book = state.last_book := by
  unfold SymbolState.on_kline
  split
  · simp
  · simp [SymbolState.with_indicator]

/-- The other events leave the ids and the book. -/
theorem update_other (state : SymbolState settings) {event : NormalizedEvent}
    (he : AnalyticsConsumer.is_book_event event = false) (fetched : Option Book) :
    (state.update event fetched).integrity = state.integrity ∧
      (state.update event fetched).last_book = state.last_book := by
  unfold SymbolState.update
  simp only
  cases hd : event.data with
  | orderbook_snapshot d => simp [AnalyticsConsumer.is_book_event, hd] at he
  | orderbook_delta d => simp [AnalyticsConsumer.is_book_event, hd] at he
  | trade d => exact on_trade_book (state.touch event) d event.timestamp_ms
  | agg_trade d => exact on_trade_book (state.touch event) d event.timestamp_ms
  | book_ticker d => simp [SymbolState.on_book_ticker, SymbolState.touch]
  | kline d => exact on_kline_book (state.touch event) d
  | mark_price d => simp [SymbolState.on_mark_price, SymbolState.touch]
  | liquidation d => simp [SymbolState.on_liquidation, SymbolState.touch]
  | other event_type => simp [SymbolState.touch]

theorem moves_to_other (integrity : BookIntegrityState) {event : NormalizedEvent}
    (h : AnalyticsConsumer.is_book_event event = false) : moves_to integrity event = none := by
  unfold AnalyticsConsumer.is_book_event at h
  unfold moves_to
  cases hd : event.data <;> simp [hd] at h ⊢

/-- An event keeps a state in agreement exactly when the fetched book is in step. -/
theorem update_agrees_iff {state : SymbolState settings} (h : Agrees state)
    (event : NormalizedEvent) (fetched : Option Book) :
    Agrees (state.update event fetched) ↔ Synced state event fetched := by
  have htouch : (state.touch event).integrity = state.integrity ∧
      (state.touch event).last_book = state.last_book := ⟨rfl, rfl⟩
  by_cases hbook : AnalyticsConsumer.is_book_event event = false
  · obtain ⟨hi, hb⟩ := update_other state hbook fetched
    have hmoves := moves_to_other state.integrity hbook
    unfold Agrees at h ⊢
    simp only [hi, hb, Synced, hmoves, iff_true]
    exact h
  · cases hd : event.data with
    | orderbook_snapshot d =>
      obtain ⟨hi, hb⟩ := on_orderbook_snapshot_book (state.touch event) d fetched event.timestamp_ms
      rw [htouch.2] at hb
      unfold Agrees SymbolState.update Synced moves_to
      simp only [hd, hi, hb, BookIntegrityState.on_snapshot]
      cases fetched.or state.last_book <;> simp
    | orderbook_delta d =>
      obtain ⟨hi, hb⟩ := on_orderbook_delta_book (state.touch event) d fetched event.timestamp_ms
      rw [htouch.1] at hi hb
      rw [htouch.2] at hb
      unfold Agrees SymbolState.update Synced moves_to
      by_cases hacc : state.integrity.Accepts (d.first_update_id.getD 0) d.last_update_id
      · have hdelta := state.integrity.on_delta_accepted hacc event.timestamp_ms
        simp only [hd, hi, hb, hdelta, if_true]
        by_cases hv : state.integrity.is_valid = true
        · simp only [hv, hacc, and_self, if_true, true_implies]
          cases fetched.or state.last_book <;> simp
        · simp [hv]
      · obtain ⟨hr, -, hlast, hvalid⟩ := state.integrity.on_delta_refused hacc event.timestamp_ms
        simp only [hd, hi, hb, hr, hlast, hacc, and_false, if_false, Bool.false_eq_true, iff_true]
        intro hv
        exact h (hvalid hv)
    | trade d | agg_trade d | book_ticker d | kline d | mark_price d | liquidation d
      | other event_type => simp [AnalyticsConsumer.is_book_event, hd] at hbook

/-! ## The two services -/

/-- Where a thread is. The analytics service has entries of a batch to process: it has
fetched the book for the first of them, or has dispatched it. -/
inductive Phase where
  | other
  | pending (entries : List (Nat × NormalizedEvent))
  | fetched (book : Option Book) (entries : List (Nat × NormalizedEvent))
  | updated (entries : List (Nat × NormalizedEvent))

open AnalyticsConsumer

/-- The calls of the analytics service. The other thread neither reads the normalized
stream nor dispatches. -/
def syncing : Protocol PyErr MarketCmd MarketCmd.Ans Phase where
  allows g c := match g, c with
    | .other, .feed (.xreadgroup _) => False
    | .other, .feed _ => True
    | .pending [], .feed (.xreadgroup _) => True
    | .pending ((_, event) :: _), .feed (.get_book key) =>
      is_book_event event = true ∧ key = book_key event
    | .pending ((_, event) :: _), .update event' book =>
      is_book_event event = false ∧ event' = event ∧ book = none
    | .fetched book ((_, event) :: _), .update event' book' => event' = event ∧ book' = book
    | .updated _, .feed (.xack ..) => True
    | _, _ => False
  next g c r := match g, c, r with
    | .pending [], .feed (.xreadgroup _), .ok entries => .pending entries
    | .pending (x :: xs), .feed (.get_book _), .ok book => .fetched book (x :: xs)
    | .pending (x :: xs), .feed (.get_book _), .error _ => .fetched none (x :: xs)
    | .pending (_ :: xs), .update .., .ok _ => .updated xs
    | .pending (_ :: _), .update .., .error _ => .pending []
    | .fetched _ (_ :: xs), .update .., .ok _ => .updated xs
    | .fetched _ (_ :: _), .update .., .error _ => .pending []
    | .updated xs, .feed (.xack ..), _ => .pending xs
    | g, _, _ => g

def start_phase : Nat → Phase := fun i => if i = 1 then .pending [] else .other

/-- What a read of the key gives. -/
def seen (f : Feed) (key : String) (o : FeedChoice) : Option Book :=
  match o.failure with
  | some _ => none
  | none => if key ∈ o.expired then none else f.books key

/-- When the analytics service fetches a book, the key holds the book of the event, or
it is gone and no other book is kept, if the event moves the last id. -/
def FetchInStep (s : Market settings) (g : Phase) (c : MarketCmd) (o : FeedChoice) : Prop :=
  match g, c with
  | .pending ((_, event) :: _), .feed (.get_book key) =>
    Synced (StateStore.get s.store event.symbol event.market_type) event (seen s.feed key o)
  | _, _ => True

instance (s : Market settings) (g : Phase) (c : MarketCmd) (o : FeedChoice) :
    Decidable (FetchInStep s g c o) := by
  unfold FetchInStep
  split <;> infer_instance

/-- The normalizer with its batches, and the analytics service with `n` rounds. -/
def services (settings : AnalyticsSettings) (f : Feed)
    (batches : List (List (Nat × Option (Except PyErr RawEvent)))) (n : Nat) :
    Config (Market settings) PyErr MarketCmd MarketCmd.Ans Unit :=
  .start ⟨f, fun _ => none⟩ [onFeed (NormalizerConsumer.run batches), ticks settings n]

/-- Each valid state keeps the book of its last id. -/
def BooksAgree (s : Market settings) : Prop := ∀ key state, s.store key = some state → Agrees state

/-! ## What the programs call -/

theorem ack_obeys (msg_id : Nat) (xs : List (Nat × NormalizedEvent)) :
    Obeys syncing (.updated xs) (AnalyticsConsumer.ack msg_id) fun r g => r = .ok () ∧ g = .pending xs := by
  unfold AnalyticsConsumer.ack
  apply obeys_swallow.mpr
  apply obeys_perform.mpr
  exact ⟨trivial, fun r => by simp [syncing]⟩

/-- The entry is dispatched with what was fetched for it, and acknowledged. -/
theorem process_obeys (msg_id : Nat) (event : NormalizedEvent)
    (xs : List (Nat × NormalizedEvent)) :
    Obeys syncing (.pending ((msg_id, event) :: xs)) (process msg_id event) fun r g =>
      match r with
      | .ok _ => g = .pending xs
      | .error _ => g = .pending [] := by
  have hrest : ∀ g book, syncing.allows g (.update event book) →
      syncing.next g (.update event book) (.ok ()) = .updated xs →
      (∀ e, syncing.next g (.update event book) (.error e) = .pending []) →
      Obeys syncing g (do market (.update event book); AnalyticsConsumer.ack msg_id) fun r g =>
        match r with
        | .ok _ => g = .pending xs
        | .error _ => g = .pending [] := by
    intro g book hallows hok herr
    apply obeys_bind.mpr
    apply obeys_perform.mpr
    refine ⟨hallows, fun r => ?_⟩
    cases r with
    | ok v =>
      rw [hok]
      refine obeys_mono (ack_obeys msg_id xs) fun r g h => ?_
      rw [h.1]
      exact h.2
    | error e => exact herr e
  apply obeys_bind.mpr
  unfold current_book_of
  by_cases hbook : is_book_event event = true
  · rw [if_pos hbook]
    unfold fetch_book
    apply obeys_bind.mpr
    apply obeys_attempt.mpr
    apply obeys_perform.mpr
    refine ⟨⟨hbook, rfl⟩, fun r => ?_⟩
    cases r with
    | ok book => exact hrest _ book ⟨rfl, rfl⟩ rfl fun _ => rfl
    | error e => exact hrest _ none ⟨rfl, rfl⟩ rfl fun _ => rfl
  · rw [if_neg hbook]
    exact hrest _ none ⟨by simpa using hbook, rfl, rfl⟩ rfl fun _ => rfl

theorem process_all_obeys (entries : List (Nat × NormalizedEvent)) :
    Obeys syncing (.pending entries) (process_all entries) fun _ g => g = .pending [] := by
  induction entries with
  | nil => rfl
  | cons x xs ih =>
    obtain ⟨msg_id, event⟩ := x
    refine obeys_bind_of (process_obeys msg_id event xs) ?_ ?_
    · intro _ g hg
      obtain rfl : g = .pending xs := hg
      exact ih
    · intro _ g hg
      exact hg

theorem ticks_obeys (settings : AnalyticsSettings) (n : Nat) :
    Obeys syncing (.pending []) (ticks settings n) fun _ _ => True := by
  induction n with
  | zero => trivial
  | succ n ih =>
    apply obeys_bind.mpr
    apply obeys_swallow.mpr
    apply obeys_bind.mpr
    apply obeys_perform.mpr
    refine ⟨trivial, fun r => ?_⟩
    cases r with
    | ok entries =>
      refine obeys_mono (process_all_obeys entries) fun _ g hg => ?_
      rw [hg]
      exact ih
    | error e => exact ih

/-- A command that the normalizer uses. -/
def Plain : FeedCmd → Prop
  | .xreadgroup _ => False
  | _ => True

theorem normalizer_process_plain (msg_id : Nat) (raw : Option (Except PyErr RawEvent)) :
    (NormalizerConsumer.process msg_id raw).Calls Plain := by
  have hack : (feed (.xack NormalizerConsumer.RAW msg_id)).Calls Plain := calls_perform trivial
  cases raw with
  | none => exact hack
  | some raw =>
    apply calls_bind (calls_ofExcept raw)
    intro raw_event
    apply calls_bind
    · unfold NormalizerConsumer.prefetch
      split
      · split
        · split
          · trivial
          · exact calls_perform trivial
        · trivial
      · trivial
    · intro current_book
      split
      · exact hack
      · apply calls_bind (calls_ofExcept _)
        intro result
        apply calls_bind (calls_perform trivial)
        intro _
        apply calls_bind
        · unfold NormalizerConsumer.write_all
          split
          · trivial
          · exact calls_perform trivial
        · intro _
          exact hack

theorem normalizer_plain (batches : List (List (Nat × Option (Except PyErr RawEvent)))) :
    (NormalizerConsumer.run batches).Calls Plain := by
  induction batches with
  | nil => trivial
  | cons batch batches ih =>
    refine calls_bind (calls_swallow ?_) fun _ => ih
    induction batch with
    | nil => trivial
    | cons x batch ihb =>
      obtain ⟨msg_id, raw⟩ := x
      refine calls_bind ?_ fun _ => ihb
      apply calls_bind (calls_attempt (normalizer_process_plain msg_id raw))
      intro r
      cases r with
      | ok _ => trivial
      | error e => exact calls_perform trivial

/-- A program over the feed keeps to its phase. -/
theorem onFeed_obeys {α : Type} {p : FeedPy α} (h : p.Calls Plain) :
    Obeys syncing .other (onFeed p) fun _ _ => True := by
  induction p with
  | done a => trivial
  | raise e => trivial
  | call c k ih =>
    refine ⟨?_, fun r => ?_⟩
    · cases c with
      | xreadgroup n => exact absurd h.1 id
      | get_book key => trivial
      | xadd event => trivial
      | set_books writes => trivial
      | xack stream msg_id => trivial
    · exact ih r (h.2 r)

/-! ## What a step keeps -/

/-- Each state agrees, and a book that was fetched for an event is in step. Only the
analytics service dispatches. -/
structure InStep (s : Market settings) (γ : Nat → Phase) : Prop where
  agrees : BooksAgree s
  synced : ∀ book msg_id event entries, γ 1 = .fetched book ((msg_id, event) :: entries) →
    Synced (StateStore.get s.store event.symbol event.market_type) event book
  others : ∀ i, i ≠ 1 → γ i = .other

theorem get_agrees {s : Market settings} (h : BooksAgree s) (symbol : String)
    (market_type : MarketType) : Agrees (StateStore.get s.store symbol market_type) := by
  unfold StateStore.get
  cases hs : s.store (symbol, market_type) with
  | some state => exact h _ state hs
  | none =>
    intro hv
    cases hv

/-- An event for which the book is in step keeps every state in agreement. -/
theorem update_keeps {s : Market settings} (h : BooksAgree s) {event : NormalizedEvent}
    {book : Option Book}
    (hs : Synced (StateStore.get s.store event.symbol event.market_type) event book) :
    BooksAgree { s with store := StateStore.update s.store event book } := by
  intro key state hstate
  simp only [StateStore.update] at hstate
  by_cases hkey : key = (event.symbol, event.market_type)
  · subst hkey
    rw [Function.update_self] at hstate
    obtain rfl := Option.some.inj hstate
    exact (update_agrees_iff (get_agrees h _ _) event book).mpr hs
  · rw [Function.update_of_ne hkey] at hstate
    exact h key state hstate

theorem synced_of_other (state : SymbolState settings) {event : NormalizedEvent}
    (h : is_book_event event = false) (book : Option Book) : Synced state event book := by
  have hmoves : moves_to state.integrity event = none := moves_to_other state.integrity h
  simp [Synced, hmoves]

/-- A command of the feed leaves the states. -/
theorem feed_keeps {s : Market settings} {γ : Nat → Phase} (h : InStep s γ) {i : Nat}
    {c : FeedCmd} {o : FeedChoice} {g : Phase} (hg : i ≠ 1 → g = .other)
    (hsynced : ∀ book msg_id event entries, i = 1 → g = .fetched book ((msg_id, event) :: entries) →
      Synced (StateStore.get s.store event.symbol event.market_type) event book) :
    InStep (Market.exec s (.feed c) o).2 (Function.update γ i g) := by
  refine ⟨h.agrees, ?_, ?_⟩
  · intro book msg_id event entries hγ
    by_cases hi : i = 1
    · subst hi
      rw [Function.update_self] at hγ
      exact hsynced book msg_id event entries rfl hγ
    · rw [Function.update_of_ne (Ne.symm hi)] at hγ
      exact h.synced book msg_id event entries hγ
  · intro j hj
    by_cases hij : j = i
    · subst hij
      rw [Function.update_self]
      exact hg hj
    · rw [Function.update_of_ne hij]
      exact h.others j hj

theorem exec_get_book (s : Market settings) (key : String) (o : FeedChoice) :
    (Market.exec s (.feed (.get_book key)) o).1 =
      match o.failure with
      | some e => .error e
      | none => .ok (seen s.feed key o) := by
  simp only [Market.exec, Feed.exec, seen]
  cases o.failure <;> simp [Feed.answer, Feed.expire]

/-- A dispatch for which the book is in step. -/
theorem dispatch_keeps {s : Market settings} {γ : Nat → Phase} (h : InStep s γ)
    {event : NormalizedEvent} {book : Option Book} {o : FeedChoice} {xs : List (Nat × NormalizedEvent)}
    (hs : Synced (StateStore.get s.store event.symbol event.market_type) event book) :
    InStep (Market.exec s (.update event book) o).2 (Function.update γ 1 (.updated xs)) := by
  refine ⟨update_keeps h.agrees hs, ?_, ?_⟩
  · intro _ _ _ _ hγ
    rw [Function.update_self] at hγ
    cases hγ
  · intro j hj
    rw [Function.update_of_ne hj]
    exact h.others j hj

/-! What the protocol allows in each phase. -/

theorem allows_other {c : MarketCmd} (h : syncing.allows .other c) : ∃ c', c = .feed c' := by
  cases c with
  | feed c => exact ⟨c, rfl⟩
  | update event book => exact absurd h id

theorem allows_pending_nil {c : MarketCmd} (h : syncing.allows (.pending []) c) :
    ∃ n, c = .feed (.xreadgroup n) := by
  cases c with
  | update event book => exact absurd h id
  | feed c =>
    cases c with
    | xreadgroup n => exact ⟨n, rfl⟩
    | get_book key => exact absurd h id
    | xadd event => exact absurd h id
    | set_books writes => exact absurd h id
    | xack stream msg_id => exact absurd h id

theorem allows_pending_cons {x : Nat × NormalizedEvent} {xs : List (Nat × NormalizedEvent)}
    {c : MarketCmd} (h : syncing.allows (.pending (x :: xs)) c) :
    (∃ key, c = .feed (.get_book key)) ∨ is_book_event x.2 = false ∧ c = .update x.2 none := by
  cases c with
  | update event book =>
    obtain ⟨hother, rfl, rfl⟩ := h
    exact Or.inr ⟨hother, rfl⟩
  | feed c =>
    cases c with
    | get_book key => exact Or.inl ⟨key, rfl⟩
    | xreadgroup n => exact absurd h id
    | xadd event => exact absurd h id
    | set_books writes => exact absurd h id
    | xack stream msg_id => exact absurd h id

theorem allows_fetched {book : Option Book} {entries : List (Nat × NormalizedEvent)}
    {c : MarketCmd} (h : syncing.allows (.fetched book entries) c) :
    ∃ x xs, entries = x :: xs ∧ c = .update x.2 book := by
  cases entries with
  | nil => cases c <;> exact absurd h id
  | cons x xs =>
    cases c with
    | feed c => exact absurd h id
    | update event book' =>
      obtain ⟨rfl, rfl⟩ := h
      exact ⟨x, xs, rfl, rfl⟩

theorem allows_updated {entries : List (Nat × NormalizedEvent)} {c : MarketCmd}
    (h : syncing.allows (.updated entries) c) : ∃ stream msg_id, c = .feed (.xack stream msg_id) := by
  cases c with
  | update event book => exact absurd h id
  | feed c =>
    cases c with
    | xack stream msg_id => exact ⟨stream, msg_id, rfl⟩
    | get_book key => exact absurd h id
    | xreadgroup n => exact absurd h id
    | xadd event => exact absurd h id
    | set_books writes => exact absurd h id

/-- The book that was fetched for an event is in step. -/
theorem next_fetch_in_step {s : Market settings} {x : Nat × NormalizedEvent}
    {xs : List (Nat × NormalizedEvent)} {key : String} {o : FeedChoice}
    (h : FetchInStep s (.pending (x :: xs)) (.feed (.get_book key)) o) :
    ∃ book, syncing.next (.pending (x :: xs)) (.feed (.get_book key))
        (Market.exec s (.feed (.get_book key)) o).1 = .fetched book (x :: xs) ∧
      Synced (StateStore.get s.store x.2.symbol x.2.market_type) x.2 book := by
  refine ⟨seen s.feed key o, ?_, h⟩
  rw [exec_get_book]
  unfold seen
  cases hf : o.failure <;> simp [syncing]

/-- What one step keeps, by the phase of the thread that moves. -/
theorem step_in_step (s : Market settings) (γ : Nat → Phase) (i : Nat) (c : MarketCmd)
    (o : FeedChoice) (h : InStep s γ) (hallowed : syncing.allows (γ i) c)
    (hfetch : FetchInStep s (γ i) c o) :
    InStep (Market.exec s c o).2
      (Function.update γ i (syncing.next (γ i) c (Market.exec s c o).1)) := by
  have hplain : ∀ {c : FeedCmd} {g : Phase}, (i ≠ 1 → g = .other) →
      (∀ book entries, g ≠ .fetched book entries) →
      InStep (Market.exec s (.feed c) o).2 (Function.update γ i g) :=
    fun hg hne => feed_keeps h hg fun _ _ _ _ _ hf => absurd hf (hne _ _)
  have hone : γ i ≠ .other → i = 1 := fun hne => by_contra fun hi => hne (h.others i hi)
  cases hγ : γ i with
  | other =>
    rw [hγ] at hallowed
    obtain ⟨c, rfl⟩ := allows_other hallowed
    exact hplain (fun _ => rfl) fun _ _ hf => nomatch hf
  | pending entries =>
    obtain rfl := hone (by rw [hγ]; simp)
    rw [hγ] at hallowed hfetch
    cases entries with
    | nil =>
      obtain ⟨n, rfl⟩ := allows_pending_nil hallowed
      apply hplain (fun hne => absurd rfl hne)
      intro book entries hf
      revert hf
      cases (Market.exec s (.feed (.xreadgroup n)) o).1 <;> simp [syncing]
    | cons x xs =>
      rcases allows_pending_cons hallowed with ⟨key, rfl⟩ | ⟨hother, rfl⟩
      · obtain ⟨book, hnext, hs⟩ := next_fetch_in_step hfetch
        rw [hnext]
        apply feed_keeps h (fun hne => absurd rfl hne)
        intro _ _ _ _ _ hf
        cases hf
        exact hs
      · exact dispatch_keeps h (synced_of_other _ hother none)
  | fetched book entries =>
    obtain rfl := hone (by rw [hγ]; simp)
    rw [hγ] at hallowed
    obtain ⟨x, xs, rfl, rfl⟩ := allows_fetched hallowed
    exact dispatch_keeps h (h.synced _ _ _ _ hγ)
  | updated entries =>
    obtain rfl := hone (by rw [hγ]; simp)
    rw [hγ] at hallowed
    obtain ⟨stream, msg_id, rfl⟩ := allows_updated hallowed
    exact hplain (fun hne => absurd rfl hne) fun _ _ hf => nomatch hf

/-! ## The run -/

/-- In every run in which each fetch is in step, each valid state keeps the book of its
last id. -/
theorem kept_book_agrees (settings : AnalyticsSettings) (f : Feed)
    (batches : List (List (Nat × Option (Except PyErr RawEvent)))) (n : Nat)
    (acts : List (Act FeedChoice))
    (h : (services settings f batches n).Meets Market.exec syncing start_phase FetchInStep acts) :
    BooksAgree ((services settings f batches n).run Market.exec acts).shared := by
  have hstart : (services settings f batches n).Kept syncing start_phase InStep
      fun _ _ _ => True := by
    apply Config.kept_start
    · refine ⟨?_, ?_, ?_⟩
      · intro key state hs
        cases hs
      · intro _ _ _ _ hγ
        cases hγ
      · intro i hi
        simp [start_phase, hi]
    · intro i p hp
      match i with
      | 0 =>
        obtain rfl := Option.some.inj hp
        exact onFeed_obeys (normalizer_plain batches)
      | 1 =>
        obtain rfl := Option.some.inj hp
        exact ticks_obeys settings n
      | i + 2 => cases hp
  exact (Config.run_keeps step_in_step hstart h).inv.agrees

/-- A snapshot of BTCUSDT with the id 10, and the delta with the ids 11 and 12. -/
def btc_batch : List (Nat × Option (Except PyErr RawEvent)) :=
  [(0, some (.ok ⟨.spot, "btcusdt@depth20", 0,
      { lastUpdateId := 10, bids := [("100.00", "1.0")], asks := [("101.00", "1.0")] }⟩)),
    (1, some (.ok ⟨.spot, "btcusdt@depth@100ms", 0,
      { U := 11, u := 12, b := [("100.50", "2.0")] }⟩))]

/-- The normalizer makes calls, then the analytics service does, and so on. -/
def turns (calls : List (Nat × Nat)) : List (Act FeedChoice) :=
  calls.flatMap fun (thread, count) => List.replicate count ⟨thread, {}⟩

/-- Both books are written before the analytics service reads the events of them. -/
theorem a_written_book_is_kept :
    BooksAgree ((services {} .empty [btc_batch] 2).run Market.exec
      (turns [(0, 4), (1, 4), (0, 4), (1, 4)])).shared :=
  kept_book_agrees {} .empty [btc_batch] 2 _ (by decide +kernel)

/-- The delta is published and the analytics service fetches before the book of the
delta is written: it takes over the id 12 and keeps the book of the id 10. -/
theorem an_unwritten_book_is_missed :
    ¬ BooksAgree ((services {} .empty [btc_batch] 2).run Market.exec
      (turns [(0, 4), (1, 4), (0, 2), (1, 3)])).shared := by
  intro h
  have hstate : (((services {} .empty [btc_batch] 2).run Market.exec
      (turns [(0, 4), (1, 4), (0, 2), (1, 3)])).shared.store ("BTCUSDT", .spot)).map
      (fun state => (state.integrity.is_valid, state.integrity.last_update_id,
        state.last_book.map (·.last_update_id))) = some (true, 12, some 10) := by
    decide +kernel
  obtain ⟨state, hs, heq⟩ := Option.map_eq_some_iff.mp hstate
  simp only [Prod.mk.injEq] at heq
  obtain ⟨hvalid, hlast, hbook⟩ := heq
  obtain ⟨book, hb, hid⟩ := Option.map_eq_some_iff.mp hbook
  have hagrees := h _ state hs hvalid book hb
  omega

end trading_platform.analytics
