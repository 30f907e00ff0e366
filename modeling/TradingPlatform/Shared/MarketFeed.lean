-- What the market services share in Redis: the order book of each symbol, and the
-- stream of normalized events. A JSON text and its value are the same thing here.
-- Each book has a TTL, so a book may go at any time.
import TradingPlatform.Shared.Redis

open resumption

namespace trading_platform.shared

/-! ## Events -/

/-- A price and a quantity, as texts. -/
abbrev Level := String × String

/-- The keys of a depth payload that the handlers read, with their defaults. -/
structure DepthPayload where
  lastUpdateId : Int := 0
  bids : List Level := []
  asks : List Level := []
  U : Int := 0
  u : Int := 0
  b : List Level := []
  a : List Level := []
  E : Option Int := none

structure RawEvent where
  market_type : MarketType
  source_stream : String
  received_ms : Int
  payload : DepthPayload

structure TradeData where
  price : String := ""
  qty : String := ""
  is_buyer_maker : Bool := false
  deriving DecidableEq

structure BookTickerData where
  bid_price : String
  bid_qty : String
  ask_price : String
  ask_qty : String
  deriving DecidableEq

/-- The data of a book event. A snapshot has no first id. -/
structure BookData where
  first_update_id : Option Int := none
  last_update_id : Int
  bids : List Level
  asks : List Level
  deriving DecidableEq

structure KlineData where
  interval : String := ""
  open_ : String := "0"
  high : String := "0"
  low : String := "0"
  close : String := "0"
  volume : String := "0"
  is_closed : Bool := false
  deriving DecidableEq

structure MarkPriceData where
  mark_price : String
  index_price : String
  funding_rate : String
  next_funding_time_ms : Int
  deriving DecidableEq

structure LiquidationData where
  side : String := ""
  orig_qty : String := "0"
  price : String := "0"
  deriving DecidableEq

/-- The type of an event and its data, of which the fields that a service reads
are kept. -/
inductive EventData where
  | trade (d : TradeData)
  | agg_trade (d : TradeData)
  | book_ticker (d : BookTickerData)
  | orderbook_snapshot (d : BookData)
  | orderbook_delta (d : BookData)
  | kline (d : KlineData)
  | mark_price (d : MarkPriceData)
  | liquidation (d : LiquidationData)
  | other (event_type : String)
  deriving DecidableEq

def EventData.event_type : EventData → String
  | trade _ => "trade"
  | agg_trade _ => "agg_trade"
  | book_ticker _ => "book_ticker"
  | orderbook_snapshot _ => "orderbook_snapshot"
  | orderbook_delta _ => "orderbook_delta"
  | kline _ => "kline"
  | mark_price _ => "mark_price"
  | liquidation _ => "liquidation"
  | other event_type => event_type

inductive Venue where
  | binance
  deriving DecidableEq, Repr

structure NormalizedEvent where
  venue : Venue := .binance
  market_type : MarketType
  symbol : String
  timestamp_ms : Int
  received_ms : Int
  source_stream : Option String
  data : EventData
  deriving DecidableEq

/-! ## The stored books -/

def RedisKeys.market_book (market_type symbol : String) : String :=
  "market:" ++ market_type ++ ":" ++ symbol ++ ":book"

def RedisKeys.account_snapshot (user_id : String) : String := "account:" ++ user_id ++ ":snapshot"

def RedisKeys.risk_state (user_id : String) : String := "risk:" ++ user_id ++ ":state"

/-- The value under a book key. -/
structure Book where
  last_update_id : Int
  bids : List Level
  asks : List Level
  ts : Int
  deriving DecidableEq

structure HotStateWrite where
  key : String
  value : Book
  ttl_s : Option Nat

structure Feed where
  books : String → Option Book
  /-- The entries of the normalized stream, oldest first. The id of an entry is its
  position. -/
  normalized : List NormalizedEvent
  /-- The number of entries that the group of the analytics service was given. -/
  delivered : Nat
  /-- The acknowledged entries: stream and entry id. -/
  acks : List (String × Nat)

def Feed.empty : Feed := ⟨fun _ => none, [], 0, []⟩

inductive FeedCmd where
  | get_book (key : String)
  /-- Adds an entry to the normalized stream. -/
  | xadd (event : NormalizedEvent)
  /-- One pipeline of `SET` commands. -/
  | set_books (writes : List HotStateWrite)
  /-- `XREADGROUP` of the analytics group with the id `>`. -/
  | xreadgroup (count : Nat)
  | xack (stream : String) (msg_id : Nat)

abbrev FeedCmd.Ans : FeedCmd → Type
  | .get_book _ => Option Book
  | .xreadgroup _ => List (Nat × NormalizedEvent)
  | _ => Unit

/-- What happens at a command: some keys have expired, and the command may fail. -/
structure FeedChoice where
  expired : List String := []
  failure : Option PyErr := none

def Feed.expire (f : Feed) (keys : List String) : Feed :=
  { f with books := fun key => if key ∈ keys then none else f.books key }

def Feed.set_book (f : Feed) (w : HotStateWrite) : Feed :=
  { f with books := fun key => if key = w.key then some w.value else f.books key }

/-- The next entries of the stream with their ids. -/
def Feed.next_entries (f : Feed) (count : Nat) : List (Nat × NormalizedEvent) :=
  ((f.normalized.drop f.delivered).take count).mapIdx fun i e => (f.delivered + i, e)

def Feed.answer (f : Feed) : (c : FeedCmd) → c.Ans × Feed
  | .get_book key => (f.books key, f)
  | .xadd event => ((), { f with normalized := f.normalized ++ [event] })
  | .set_books writes => ((), writes.foldl Feed.set_book f)
  | .xreadgroup count =>
    (f.next_entries count, { f with delivered := f.delivered + (f.next_entries count).length })
  | .xack stream msg_id => ((), { f with acks := f.acks ++ [(stream, msg_id)] })

def Feed.exec (f : Feed) (c : FeedCmd) (o : FeedChoice) : Except PyErr c.Ans × Feed :=
  match o.failure with
  | some e => (.error e, f.expire o.expired)
  | none => (.ok ((f.expire o.expired).answer c).1, ((f.expire o.expired).answer c).2)

@[simp] theorem Feed.expire_nil (f : Feed) : f.expire [] = f := by
  simp [expire]

/-- A command while nothing expires or fails. -/
@[simp] theorem Feed.exec_idle (f : Feed) (c : FeedCmd) :
    f.exec c {} = (.ok (f.answer c).1, (f.answer c).2) := by
  simp [exec]

end trading_platform.shared
