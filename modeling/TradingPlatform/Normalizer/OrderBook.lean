-- The order book of the normalizer: the handlers of the depth streams, and the
-- consumer that reads the stored book, publishes the event and writes the book.
import TradingPlatform.Lib.Replica
import TradingPlatform.Lib.Table
import TradingPlatform.Shared.Float
import TradingPlatform.Shared.MarketFeed
import Mathlib.Data.List.Sort

open resumption
open keyed
open replica
open trading_platform.shared

namespace trading_platform.normalizer

/-! ## Streams and symbols -/

/-- `sub in text`. -/
def has (sub text : String) : Bool := decide (sub.toList <:+: text.toList)

/-- `text.lower()`, of ASCII letters. -/
def lower (text : String) : String := String.ofList (text.toList.map Char.toLower)

def strip (cs : List Char) : List Char :=
  ((cs.dropWhile PyFloat.isSpace).reverse.dropWhile PyFloat.isSpace).reverse

def normalize_symbol (raw : String) : String :=
  let s := strip (raw.toList.map Char.toUpper)
  String.ofList (if ".P".toList <:+ s then s.dropLast.dropLast else s)

def symbol_from_stream (source_stream : String) : Option String :=
  match source_stream.toList.idxOf? '@' with
  | some (n + 1) => some (normalize_symbol (String.ofList (source_stream.toList.take (n + 1))))
  | _ => none

def is_depth_delta_stream (source_stream : String) : Bool :=
  has "@depth" source_stream && !has "snapshot" source_stream

/-- The expression `@depth\d` is found in the text. -/
def PARTIAL_DEPTH_RE (text : String) : Bool :=
  text.toList.tails.any fun cs =>
    "@depth".toList.isPrefixOf cs && (cs.drop 6).head?.any Char.isDigit

/-! ## Handlers -/

def BOOK_TTL_S : Nat := 30

structure HandlerResult where
  event : NormalizedEvent
  hot_writes : List HotStateWrite := []

def normalize_error (handler source_stream : String) : PyErr :=
  ⟨"NormalizeError", handler ++ ": cannot determine symbol from '" ++ source_stream ++ "'"⟩

def symbol_of (handler : String) (event : RawEvent) : Except PyErr String :=
  match symbol_from_stream event.source_stream with
  | some symbol =>
    if symbol = "" then .error (normalize_error handler event.source_stream) else .ok symbol
  | none => .error (normalize_error handler event.source_stream)

def handle_orderbook_snapshot (event : RawEvent) : Except PyErr HandlerResult := do
  let d := event.payload
  let symbol ← symbol_of "orderbook_snapshot" event
  return {
    event := {
      market_type := event.market_type
      symbol
      timestamp_ms := event.received_ms
      received_ms := event.received_ms
      source_stream := some event.source_stream
      data := .orderbook_snapshot
        { last_update_id := d.lastUpdateId, bids := d.bids, asks := d.asks } }
    hot_writes := [{
      key := RedisKeys.market_book event.market_type.value symbol
      value := ⟨d.lastUpdateId, d.bids, d.asks, event.received_ms⟩
      ttl_s := some BOOK_TTL_S }] }

/-- One side of a book as a dict from price to quantity. -/
abbrev SideDict := Table Level Prod.fst

/-- `side[price] = qty`. -/
def SideDict.set (t : SideDict) (l : Level) : SideDict := t.upsert l (fun r => (r.1, l.2)) fun _ => rfl

/-- `{lvl[0]: lvl[1] for lvl in levels}`. -/
def side_dict (levels : List Level) : SideDict := levels.foldl SideDict.set .empty

def apply_level (t : SideDict) (l : Level) : Except PyErr SideDict := do
  let qty ← PyFloat.ofText l.2
  return if qty = .fin 0 then t.erase l.1 else t.set l

/-- `sorted(side.items(), key=...)`, with a key that is read from the price. -/
def sorted_by (key : PyFloat → PyFloat) (levels : List Level) : Except PyErr (List Level) := do
  let keyed ← levels.mapM fun l => do return (key (← PyFloat.ofText l.1), l)
  return (keyed.insertionSort fun x y => y.1.lt x.1 = false).map (·.2)

def apply_delta (book : Book) (bid_deltas ask_deltas : List Level) (last_update_id ts : Int) :
    Except PyErr Book := do
  let bids ← bid_deltas.foldlM apply_level (side_dict book.bids)
  let asks ← ask_deltas.foldlM apply_level (side_dict book.asks)
  let sorted_bids ← sorted_by (fun x => -x) bids.rows
  let sorted_asks ← sorted_by id asks.rows
  return ⟨last_update_id, sorted_bids, sorted_asks, ts⟩

def handle_orderbook_delta (event : RawEvent) (current_book : Option Book) :
    Except PyErr HandlerResult := do
  let d := event.payload
  let symbol ← symbol_of "orderbook_delta" event
  let normalized : NormalizedEvent := {
    market_type := event.market_type
    symbol
    timestamp_ms := d.E.getD event.received_ms
    received_ms := event.received_ms
    source_stream := some event.source_stream
    data := .orderbook_delta {
      first_update_id := some d.U, last_update_id := d.u, bids := d.b, asks := d.a } }
  match current_book with
  | none => return { event := normalized }
  | some book =>
    let merged ← apply_delta book d.b d.a d.u event.received_ms
    return {
      event := normalized
      hot_writes := [{
        key := RedisKeys.market_book event.market_type.value symbol
        value := merged
        ttl_s := some BOOK_TTL_S }] }

/-- The stream sends whole books. -/
def is_snapshot_stream (source_stream : String) : Bool :=
  has "snapshot" (lower source_stream) || PARTIAL_DEPTH_RE (lower source_stream)

/-- The depth branch of `route`. The handlers of the other streams are left out. -/
def route (raw_event : RawEvent) (current_book : Option Book) :
    Option (Except PyErr HandlerResult) :=
  if has "@depth" (lower raw_event.source_stream) then
    if is_snapshot_stream raw_event.source_stream then some (handle_orderbook_snapshot raw_event)
    else some (handle_orderbook_delta raw_event current_book)
  else none

/-! ## The consumer -/

abbrev FeedPy := Prog PyErr FeedCmd FeedCmd.Ans

def feed (c : FeedCmd) : FeedPy c.Ans := Prog.perform c

namespace NormalizerConsumer

def RAW : String := "stream:binance:raw"

/-- The book that a delta handler will merge into. -/
def prefetch (raw_event : RawEvent) : FeedPy (Option Book) :=
  if is_depth_delta_stream raw_event.source_stream then
    match symbol_from_stream raw_event.source_stream with
    | some symbol =>
      if symbol = "" then return none
      else feed (.get_book (RedisKeys.market_book raw_event.market_type.value symbol))
    | none => return none
  else return none

def write_all (writes : List HotStateWrite) : FeedPy Unit :=
  if writes.isEmpty then return () else feed (.set_books writes)

/-- The field `event` of an entry may be missing, and its text may be no raw event. -/
def process (msg_id : Nat) (raw : Option (Except PyErr RawEvent)) : FeedPy Unit :=
  match raw with
  | none => feed (.xack RAW msg_id)
  | some raw => do
    let raw_event ← Prog.ofExcept raw
    let current_book ← prefetch raw_event
    match route raw_event current_book with
    | none => feed (.xack RAW msg_id)
    | some result =>
      let result ← Prog.ofExcept result
      feed (.xadd result.event)
      write_all result.hot_writes
      feed (.xack RAW msg_id)

/-- One entry in the loop of `poll_once`. It is acknowledged on an error as well. -/
def handle (msg_id : Nat) (raw : Option (Except PyErr RawEvent)) : FeedPy Unit := do
  match ← (process msg_id raw).attempt with
  | .ok () => return ()
  | .error _ => feed (.xack RAW msg_id)

/-- The entries of one batch. -/
def poll_once : List (Nat × Option (Except PyErr RawEvent)) → FeedPy Unit
  | [] => return ()
  | (msg_id, raw) :: entries => do
    handle msg_id raw
    poll_once entries

/-- The loop of `run`: one batch after the other, whatever becomes of each. -/
def run : List (List (Nat × Option (Except PyErr RawEvent))) → FeedPy Unit
  | [] => return ()
  | batch :: batches => do
    (poll_once batch).swallow
    run batches

end NormalizerConsumer

end trading_platform.normalizer
