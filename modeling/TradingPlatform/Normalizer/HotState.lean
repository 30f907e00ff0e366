-- The consumer of the raw stream, and the market keys that it leaves in Redis. Redis may answer a
-- command, lose it, or lose the answer. Whatever it does, a market key of a symbol holds what the
-- last event that speaks of it wrote.
import TradingPlatform.Normalizer.Handlers
import TradingPlatform.Execution.PriceReach

open resumption keyed
open trading_platform.shared

namespace trading_platform.normalizer.handlers

/-! ## Redis with faults -/

/-- What becomes of a command. -/
inductive Fate where
  | answered
  | lost
  /-- The command is executed, and its answer is lost. -/
  | unanswered
  deriving DecidableEq

/-- The time of the server and the fate of a command. -/
structure Turn where
  now : Nat
  fate : Fate

def connection_error : PyErr := ⟨"ConnectionError", "Connection closed by server."⟩

def exec (r : Redis) (c : RedisCmd) (turn : Turn) : Except PyErr c.Ans × Redis :=
  match turn.fate with
  | .answered => r.exec turn.now c
  | .lost => (.error connection_error, r)
  | .unanswered => (.error connection_error, (r.exec turn.now c).2)

def idle : Turn := ⟨0, .lost⟩

/-! ## The consumer -/

abbrev RedisPy (α : Type) := Prog PyErr RedisCmd RedisCmd.Ans α

def redis (c : RedisCmd) : RedisPy c.Ans := Prog.perform c

def NormalizedEvent.json (event : NormalizedEvent) : Json :=
  .obj [("event_type", .str event.event_type), ("venue", .str "binance"),
    ("market_type", .str event.market_type.value), ("symbol", .str event.symbol),
    ("timestamp_ms", to_json (.int event.timestamp_ms)),
    ("received_ms", to_json (.int event.received_ms)), ("sequence", .null),
    ("source_stream", .str event.source_stream), ("data", to_json event.data), ("raw", .null)]

def publish (event : NormalizedEvent) : RedisPy Unit :=
  redis (.xadd StreamNames.NORMALIZED [("event", event.json)])

/-- The commands of a pipeline are all sent. Its first error is raised after them. -/
def execute : List HotStateWrite → RedisPy (Option PyErr)
  | [] => return none
  | w :: writes => do
    let result ← (redis (.set w.key w.value false (some (w.ttl_s : Int)))).attempt
    let rest ← execute writes
    match result with
    | .ok _ => return rest
    | .error e => return some e

def write_all (writes : List HotStateWrite) : RedisPy Unit := do
  match ← execute writes with
  | none => return ()
  | some e => Prog.raise e

structure NormalizerConsumer where
  default_account_id : String := ""
  consumer_group : String := "normalizer"

namespace NormalizerConsumer

variable (self : NormalizerConsumer)

def ack (msg_id : String) : RedisPy Unit :=
  redis (.xack normalizer.NormalizerConsumer.RAW self.consumer_group msg_id)

/-- The stored book, for a delta. -/
def current_book (raw_event : RawEvent) : RedisPy (Option PyJson) :=
  if is_depth_delta_stream raw_event.source_stream then
    match symbol_from_stream raw_event.source_stream with
    | some symbol => do
      if symbol = "" then return none
      match ← redis (.get (RedisKeys.market_book raw_event.market_type.value symbol)) with
      | some book_json =>
        if book_json = "" then return none
        return some (← Prog.ofExcept (json_loads book_json.toList))
      | none => return none
    | none => return none
  else return none

/-- The field `event` of an entry may be missing, and its text may be no raw event. -/
def process (msg_id : String) (raw : Option (Except PyErr RawEvent)) : RedisPy Unit :=
  match raw with
  | none => self.ack msg_id
  | some raw => do
    let raw_event ← Prog.ofExcept raw
    let book ← current_book raw_event
    match ← Prog.ofExcept (route raw_event self.default_account_id book) with
    | none => self.ack msg_id
    | some result =>
      publish result.event
      write_all result.hot_writes
      self.ack msg_id

/-- One entry in the loop of `_poll_once`. It is acknowledged on an error as well. -/
def handle (msg_id : String) (raw : Option (Except PyErr RawEvent)) : RedisPy Unit := do
  match ← (self.process msg_id raw).attempt with
  | .ok () => return ()
  | .error _ => self.ack msg_id

end NormalizerConsumer

/-- An entry of the raw stream, and the turns of Redis while it is handled. -/
structure Handling where
  msg_id : String
  raw : Option (Except PyErr RawEvent)
  turns : List Turn

/-- Redis after an entry. When the acknowledgement fails as well, the rest of the batch is left,
and the next entry is the first one of a later batch. -/
def NormalizerConsumer.step (self : NormalizerConsumer) (r : Redis) (h : Handling) : Redis :=
  (run exec idle (self.handle h.msg_id h.raw) r h.turns).2.1

def NormalizerConsumer.runs (self : NormalizerConsumer) (r : Redis) (hs : List Handling) : Redis :=
  hs.foldl self.step r

/-! ## Keys -/

/-- What of a symbol is kept under a market key, the book apart. -/
inductive Kind where
  | price
  | book_ticker
  | mark
  | funding
  | klines (interval : String)
  deriving DecidableEq

def Kind.tail : Kind → String
  | .price => "price"
  | .book_ticker => "book_ticker"
  | .mark => "mark"
  | .funding => "funding"
  | .klines interval => "klines:" ++ interval

/-- The last words of the keys that have no interval. -/
def TAILS : List String := ["price", "book_ticker", "mark", "funding", "book"]

/-- No other key can read as the key of the interval. -/
def Kind.Plain : Kind → Prop
  | .klines interval => ':' ∉ interval.toList ∧ interval ∉ TAILS
  | _ => True

def market_key (market_type : MarketType) (symbol tail : String) : String :=
  "market:" ++ market_type.value ++ ":" ++ symbol ++ ":" ++ tail

/-- The key of a symbol without a colon. -/
structure MarketKey where
  market_type : MarketType
  symbol : String
  kind : Kind
  plain_symbol : ':' ∉ symbol.toList
  plain_kind : kind.Plain

def MarketKey.key (K : MarketKey) : String := market_key K.market_type K.symbol K.kind.tail

theorem market_key_toList (market_type : MarketType) (symbol tail : String) :
    (market_key market_type symbol tail).toList =
      "market:".toList ++ (market_type.value.toList ++ ':' :: (symbol.toList ++ ':' :: tail.toList)) := by
  simp [market_key]

/-- A text without a colon is the first part of a text with one. -/
theorem first_part {S s t t' : List Char} (hS : ':' ∉ S) (h : S ++ ':' :: t = s ++ ':' :: t') :
    s = S ∧ t' = t ∨ ∃ rest, s = S ++ ':' :: rest ∧ t = rest ++ ':' :: t' := by
  rcases List.append_eq_append_iff.mp h with ⟨more, hs, ht⟩ | ⟨more, hS', ht⟩
  · cases more with
    | nil =>
      left
      simp only [List.nil_append, List.cons.injEq, true_and] at ht
      exact ⟨by rw [hs, List.append_nil], ht.symm⟩
    | cons c rest =>
      right
      rw [List.cons_append, List.cons.injEq] at ht
      obtain ⟨rfl, ht⟩ := ht
      exact ⟨rest, hs, ht⟩
  · cases more with
    | nil =>
      left
      simp only [List.nil_append, List.cons.injEq, true_and] at ht
      exact ⟨by rw [hS', List.append_nil], ht⟩
    | cons c rest =>
      rw [List.cons_append, List.cons.injEq] at ht
      obtain ⟨rfl, -⟩ := ht
      exact absurd (by rw [hS']; simp) hS

theorem market_key_inj {m m' : MarketType} {S s tail tail' : String} (hS : ':' ∉ S.toList)
    (h : market_key m S tail = market_key m' s tail') :
    m' = m ∧ (s = S ∧ tail' = tail ∨
      ∃ rest, s = S ++ ":" ++ rest ∧ tail.toList = rest.toList ++ ':' :: tail'.toList) := by
  have hlist := congrArg String.toList h
  rw [market_key_toList, market_key_toList] at hlist
  have hrest := List.append_cancel_left hlist
  have hmarket : m' = m := by
    cases m <;> cases m'
    · rfl
    · simp [MarketType.value] at hrest
    · simp [MarketType.value] at hrest
    · rfl
  subst hmarket
  have hparts := List.append_cancel_left hrest
  simp only [List.cons.injEq, true_and] at hparts
  refine ⟨rfl, ?_⟩
  rcases first_part hS hparts with ⟨hs, htail⟩ | ⟨rest, hs, htail⟩
  · exact Or.inl ⟨String.toList_injective hs, String.toList_injective htail⟩
  · refine Or.inr ⟨String.ofList rest, String.toList_injective ?_, ?_⟩
    · simpa using hs
    · simpa using htail

/-- A plain key is no other key of the market. -/
theorem MarketKey.key_eq (K : MarketKey) {m : MarketType} {s tail : String}
    (htail : tail ∈ TAILS ∨ ∃ interval, tail = "klines:" ++ interval)
    (h : K.key = market_key m s tail) :
    m = K.market_type ∧ s = K.symbol ∧ tail = K.kind.tail := by
  obtain ⟨hm, hsame | ⟨rest, -, hrest⟩⟩ := market_key_inj K.plain_symbol h
  · exact ⟨hm, hsame.1, hsame.2⟩
  · exfalso
    have hplain := K.plain_kind
    have hcolon : ':' ∈ K.kind.tail.toList := by rw [hrest]; simp
    cases hkind : K.kind with
    | klines interval =>
      rw [hkind] at hplain hrest
      have hklines : ':' ∉ "klines".toList := by simp
      have hsplit : "klines".toList ++ ':' :: interval.toList = rest.toList ++ ':' :: tail.toList := by
        simpa [Kind.tail] using hrest
      rcases first_part hklines hsplit with ⟨-, hinterval⟩ | ⟨more, -, hmore⟩
      · rcases htail with htail | ⟨other, rfl⟩
        · rw [String.toList_injective hinterval] at htail
          exact hplain.2 htail
        · apply hplain.1
          rw [← hinterval]
          simp
      · apply hplain.1
        rw [hmore]
        simp
    | price => simp [hkind, Kind.tail] at hcolon
    | book_ticker => simp [hkind, Kind.tail] at hcolon
    | mark => simp [hkind, Kind.tail] at hcolon
    | funding => simp [hkind, Kind.tail] at hcolon

theorem MarketKey.ne_account (K : MarketKey) (rest : String) : K.key ≠ "account:" ++ rest := by
  have hkey : K.key = "market:" ++ (K.market_type.value ++ ":" ++ K.symbol ++ ":" ++ K.kind.tail) := by
    simp [MarketKey.key, market_key, String.append_assoc]
  rw [hkey]
  exact RedisKeys.ne_of_prefix (by simp) (by simp) (by simp)

theorem market_book_eq (market_type : MarketType) (symbol : String) :
    RedisKeys.market_book market_type.value symbol = market_key market_type symbol "book" := by
  apply String.toList_injective
  rw [market_key_toList]
  simp [RedisKeys.market_book]

/-- The book is kept elsewhere. -/
theorem MarketKey.ne_book (K : MarketKey) (market_type : MarketType) (symbol : String) :
    K.key ≠ RedisKeys.market_book market_type.value symbol := by
  rw [market_book_eq]
  intro h
  obtain ⟨-, -, htail⟩ := K.key_eq (Or.inl (by simp [TAILS])) h
  have hlist := congrArg String.toList htail
  cases hkind : K.kind <;> simp [hkind, Kind.tail] at hlist

/-! ## What an event can write -/

/-- The TTL of the klines of an interval. -/
def kline_ttl (interval : String) : Nat :=
  ((INTERVAL_TTL.find? (·.1 = interval)).map (·.2)).getD DEFAULT_TTL_S

/-- The interval that the data of a kline names. -/
def NormalizedEvent.interval (event : NormalizedEvent) : Option String :=
  match event.data with
  | .dict fields =>
    match (PyJson.lookup "interval" fields).map py_str_of with
    | some (.ok name) => some name
    | _ => none
  | _ => none

/-- The last words of the keys that an event writes, and their TTLs. -/
def NormalizedEvent.tails (event : NormalizedEvent) : List (String × Nat) :=
  if event.event_type = "trade" ∨ event.event_type = "agg_trade" then [("price", PRICE_TTL_S)]
  else if event.event_type = "book_ticker" then [("book_ticker", BOOK_TICKER_TTL_S)]
  else if event.event_type = "mark_price" then [("mark", MARK_TTL_S), ("funding", FUNDING_TTL_S)]
  else if event.event_type = "kline" then
    event.interval.toList.map fun interval => ("klines:" ++ interval, kline_ttl interval)
  else []

section Normalized

variable (event : RawEvent) (event_type symbol : String) (timestamp_ms : Int) (data : PyJson)

@[simp] theorem normalized_event_type :
    (event.normalized event_type symbol timestamp_ms data).event_type = event_type := rfl

@[simp] theorem normalized_market_type :
    (event.normalized event_type symbol timestamp_ms data).market_type = event.market_type := rfl

@[simp] theorem normalized_symbol :
    (event.normalized event_type symbol timestamp_ms data).symbol = symbol := rfl

end Normalized

theorem mem_of_mapM {α β : Type} {f : α → Except PyErr β} {xs : List α} {ys : List β}
    (h : xs.mapM f = .ok ys) {y : β} (hy : y ∈ ys) : ∃ x ∈ xs, f x = .ok y := by
  induction xs generalizing ys with
  | nil =>
    cases h
    cases hy
  | cons x xs ih =>
    rw [List.mapM_cons] at h
    obtain ⟨b, hb, h⟩ := of_bind_ok h
    obtain ⟨bs, hbs, h⟩ := of_bind_ok h
    cases h
    rcases List.mem_cons.mp hy with rfl | hy
    · exact ⟨x, List.mem_cons_self, hb⟩
    · obtain ⟨x', hx', hy'⟩ := ih hbs hy
      exact ⟨x', List.mem_cons_of_mem x hx', hy'⟩

/-- The writes go to the book of a symbol. -/
def ToBook (writes : List HotStateWrite) : Prop :=
  ∀ w ∈ writes, ∃ (market_type : MarketType) (symbol : String),
    w.key = RedisKeys.market_book market_type.value symbol

theorem to_book_depth {event : RawEvent} {event_type : String} {data : PyJson}
    {result : normalizer.HandlerResult} {r : HandlerResult}
    (hkeys : ∀ w ∈ result.hot_writes, ∃ (market_type : MarketType) (symbol : String),
      w.key = RedisKeys.market_book market_type.value symbol)
    (htails : ∀ symbol timestamp_ms,
      (event.normalized event_type symbol timestamp_ms data).tails = [])
    (h : depth_result event event_type data result = .ok r) :
    ToBook r.hot_writes ∧ r.event.tails = [] := by
  obtain ⟨writes, hwrites, h⟩ := of_bind_ok h
  cases h
  refine ⟨?_, htails _ _⟩
  intro w hw
  obtain ⟨w', hw', hwrite⟩ := mem_of_mapM hwrites hw
  obtain ⟨value, -, hwrite⟩ := of_bind_ok hwrite
  cases hwrite
  exact hkeys w' hw'

theorem to_book_snapshot {event : RawEvent} {r : HandlerResult}
    (h : handle_orderbook_snapshot event = .ok r) :
    ToBook r.hot_writes ∧ r.event.tails = [] := by
  obtain ⟨_, -, h⟩ := of_bind_ok h
  obtain ⟨_, -, h⟩ := of_bind_ok h
  obtain ⟨lastUpdateId, -, h⟩ := of_bind_ok h
  obtain ⟨_, -, h⟩ := of_bind_ok h
  obtain ⟨bids, -, h⟩ := of_bind_ok h
  obtain ⟨_, -, h⟩ := of_bind_ok h
  obtain ⟨asks, -, h⟩ := of_bind_ok h
  obtain ⟨result, hresult, h⟩ := of_bind_ok h
  refine to_book_depth ?_ (by simp [NormalizedEvent.tails]) h
  obtain ⟨symbol, -, hresult⟩ := of_bind_ok hresult
  cases hresult
  intro w hw
  rw [List.mem_singleton.mp hw]
  exact ⟨event.market_type, symbol, rfl⟩

theorem to_book_delta {event : RawEvent} {book : Option PyJson} {r : HandlerResult}
    (h : handle_orderbook_delta event book = .ok r) :
    ToBook r.hot_writes ∧ r.event.tails = [] := by
  obtain ⟨_, -, h⟩ := of_bind_ok h
  obtain ⟨_, -, h⟩ := of_bind_ok h
  obtain ⟨U, -, h⟩ := of_bind_ok h
  obtain ⟨_, -, h⟩ := of_bind_ok h
  obtain ⟨u, -, h⟩ := of_bind_ok h
  obtain ⟨_, -, h⟩ := of_bind_ok h
  obtain ⟨b, -, h⟩ := of_bind_ok h
  obtain ⟨_, -, h⟩ := of_bind_ok h
  obtain ⟨a, -, h⟩ := of_bind_ok h
  obtain ⟨_, -, h⟩ := of_bind_ok h
  obtain ⟨E, -, h⟩ := of_bind_ok h
  obtain ⟨stored, -, h⟩ := of_bind_ok h
  obtain ⟨result, hresult, h⟩ := of_bind_ok h
  refine to_book_depth ?_ (by simp [NormalizedEvent.tails]) h
  obtain ⟨symbol, -, hresult⟩ := of_bind_ok hresult
  cases stored with
  | none =>
    cases hresult
    simp
  | some book =>
    obtain ⟨merged, -, hresult⟩ := of_bind_ok hresult
    cases hresult
    intro w hw
    rw [List.mem_singleton.mp hw]
    exact ⟨event.market_type, symbol, rfl⟩

/-- The writes go to an account. -/
def ToAccount (writes : List HotStateWrite) : Prop := ∀ w ∈ writes, ∃ rest, w.key = "account:" ++ rest

theorem to_account_update {event : RawEvent} {user_id : String} {r : HandlerResult}
    (h : handle_account_update event user_id = .ok r) :
    ToAccount r.hot_writes ∧ r.event.tails = [] := by
  obtain ⟨a, -, h⟩ := of_bind_ok h
  obtain ⟨_, -, h⟩ := of_bind_ok h
  obtain ⟨event_ms, -, h⟩ := of_bind_ok h
  obtain ⟨reason, -, h⟩ := of_bind_ok h
  obtain ⟨_, -, h⟩ := of_bind_ok h
  obtain ⟨balances, -, h⟩ := of_bind_ok h
  obtain ⟨_, -, h⟩ := of_bind_ok h
  obtain ⟨positions, -, h⟩ := of_bind_ok h
  split at h
  · cases h
    exact ⟨nofun, by simp [NormalizedEvent.tails]⟩
  · obtain ⟨first, -, h⟩ := of_bind_ok h
    obtain ⟨second, -, h⟩ := of_bind_ok h
    cases h
    refine ⟨?_, by simp [NormalizedEvent.tails]⟩
    intro w hw
    simp only [List.mem_cons, List.not_mem_nil, or_false] at hw
    rcases hw with rfl | rfl
    · exact ⟨user_id ++ ":balances", String.append_assoc⟩
    · exact ⟨user_id ++ ":positions", String.append_assoc⟩

theorem to_open_orders {user_id : String} {status payload : PyJson} {writes : List HotStateWrite}
    (h : open_order_writes user_id status payload = .ok writes) : ToAccount writes := by
  unfold open_order_writes at h
  split at h
  · cases h
    exact fun w hw => nomatch hw
  · obtain ⟨is_open, -, h⟩ := of_bind_ok h
    split at h
    · obtain ⟨value, -, h⟩ := of_bind_ok h
      cases h
      intro w hw
      rw [List.mem_singleton.mp hw]
      exact ⟨user_id ++ ":open_orders", String.append_assoc⟩
    · cases h
      exact fun w hw => nomatch hw

theorem to_user_order {event : RawEvent} {user_id : String} {r : HandlerResult}
    (h : handle_user_order event user_id = .ok r) :
    ToAccount r.hot_writes ∧ r.event.tails = [] := by
  unfold handle_user_order at h
  -- every line of the handler up to the writes
  iterate 22 obtain ⟨_, -, h⟩ := of_bind_ok h
  obtain ⟨writes, hwrites, h⟩ := of_bind_ok h
  cases h
  exact ⟨to_open_orders hwrites, by simp [NormalizedEvent.tails]⟩

/-! ## What is stored -/

/-- What a write leaves under the key, if it reaches Redis. Redis takes no TTL of zero. -/
def HotStateWrite.applied (key : String) (w : HotStateWrite) (turn : Turn) : Option RedisEntry :=
  if w.key = key ∧ 0 < w.ttl_s ∧ turn.fate ≠ .lost then
    some ⟨w.value, some (turn.now + 1000 * w.ttl_s)⟩
  else none

/-- What the last of the writes that reach Redis leaves under the key. -/
def applied (key : String) : List HotStateWrite → List Turn → Option RedisEntry
  | [], _ => none
  | w :: writes, turns => (applied key writes turns.tail).or (w.applied key (turns.headD idle))

/-- What the handling of an entry leaves under the key: its event is published first. -/
def stored (key : String) (h : Handling) : Option RedisEntry :=
  match h.raw with
  | some (.ok event) =>
    match route event "" none with
    | .ok (some result) =>
      if (h.turns.headD idle).fate = .answered then applied key result.hot_writes h.turns.tail
      else none
    | _ => none
  | _ => none

theorem applied_of_ne {key : String} {writes : List HotStateWrite}
    (h : ∀ w ∈ writes, key ≠ w.key) (turns : List Turn) : applied key writes turns = none := by
  induction writes generalizing turns with
  | nil => rfl
  | cons w writes ih =>
    have hw : ¬ w.key = key := fun he => h w List.mem_cons_self he.symm
    rw [applied, ih fun w' hw' => h w' (List.mem_cons_of_mem w hw'), HotStateWrite.applied]
    simp [hw]

/-- A command that is answered or not changes no key but its own. -/
theorem exec_keys (r : Redis) {c : RedisCmd} {key : String} (h : ¬ c.writes key) (turn : Turn) :
    (exec r c turn).2.keys key = r.keys key := by
  unfold exec
  split
  · exact Redis.exec_keys r turn.now c key h
  · rfl
  · exact Redis.exec_keys r turn.now c key h

theorem run_keys {α : Type} {p : RedisPy α} {key : String} (h : p.Calls fun c => ¬ c.writes key)
    (r : Redis) (turns : List Turn) : (run exec idle p r turns).2.1.keys key = r.keys key :=
  run_keeps_of_calls (I := fun r' => r'.keys key = r.keys key) h
    (fun s _ turn hc hs => (exec_keys s hc turn).trans hs) r turns rfl

theorem exec_set (r : Redis) (w : HotStateWrite) (key : String) (turn : Turn) :
    (exec r (.set w.key w.value false (some (w.ttl_s : Int))) turn).2.keys key =
      (w.applied key turn).or (r.keys key) := by
  have hset : (r.exec turn.now (.set w.key w.value false (some (w.ttl_s : Int)))).2.keys key =
      (if w.key = key ∧ 0 < w.ttl_s then some ⟨w.value, some (turn.now + 1000 * w.ttl_s)⟩
      else none).or (r.keys key) := by
    by_cases httl : 0 < w.ttl_s
    · have hexpiry : expiry turn.now (some (w.ttl_s : Int)) =
          .ok (some (turn.now + 1000 * w.ttl_s)) := by
        simp [expiry, httl]
      simp only [Redis.exec, hexpiry, Bool.false_and, Bool.false_eq_true, if_false, Redis.put_keys]
      by_cases hkey : w.key = key
      · simp [hkey, httl]
      · simp [hkey, Ne.symm hkey]
    · have hexpiry : expiry turn.now (some (w.ttl_s : Int)) = .error invalid_expire_time := by
        simp [expiry, httl]
      simp [Redis.exec, hexpiry, httl]
  unfold exec HotStateWrite.applied
  cases hfate : turn.fate with
  | answered => simpa using hset
  | lost => simp
  | unanswered => simpa using hset

/-- Every write of a pipeline is tried, and the rest of the turns is left. -/
theorem run_execute (writes : List HotStateWrite) (key : String) (r : Redis) (turns : List Turn) :
    (run exec idle (execute writes) r turns).2.1.keys key =
      (applied key writes turns).or (r.keys key) := by
  induction writes generalizing r turns with
  | nil => rfl
  | cons w writes ih =>
    have hset := exec_set r w key (turns.headD idle)
    have hexec := ih (exec r (.set w.key w.value false (some (w.ttl_s : Int)))
      (turns.headD idle)).2 turns.tail
    rw [hset, ← Option.or_assoc] at hexec
    unfold execute
    rw [run_bind, run_attempt, redis, run_perform]
    simp only
    rw [run_bind, applied, ← hexec]
    generalize run exec idle (execute writes) _ turns.tail = outcome
    obtain ⟨result, r', turns'⟩ := outcome
    cases result with
    | ok rest =>
      dsimp only
      split <;> rfl
    | error e => rfl

/-! ## One entry -/

/-- The stream has a book, or belongs to a user. -/
def Elsewhere (source_stream : String) : Prop :=
  lower source_stream = "user_data.account_update" ∨
    lower source_stream = "user_data.order_trade_update" ∨ has "@depth" (lower source_stream) = true

instance (source_stream : String) : Decidable (Elsewhere source_stream) :=
  inferInstanceAs (Decidable (_ ∨ _ ∨ _))

theorem of_map_some {α : Type} {x : Except PyErr α} {a : α} (h : some <$> x = .ok (some a)) :
    x = .ok a := by
  cases x with
  | error e => cases h
  | ok b =>
    cases h
    rfl

theorem writes_elsewhere (K : MarketKey) {event : RawEvent} (helse : Elsewhere event.source_stream)
    {user_id : String} {book : Option PyJson} {result : HandlerResult}
    (h : route event user_id book = .ok (some result)) :
    (∀ w ∈ result.hot_writes, K.key ≠ w.key) ∧ result.event.tails = [] := by
  have haccount (hto : ToAccount result.hot_writes ∧ result.event.tails = []) :
      (∀ w ∈ result.hot_writes, K.key ≠ w.key) ∧ result.event.tails = [] := by
    refine ⟨?_, hto.2⟩
    intro w hw
    obtain ⟨rest, hkey⟩ := hto.1 w hw
    rw [hkey]
    exact K.ne_account rest
  have hbook (hto : ToBook result.hot_writes ∧ result.event.tails = []) :
      (∀ w ∈ result.hot_writes, K.key ≠ w.key) ∧ result.event.tails = [] := by
    refine ⟨?_, hto.2⟩
    intro w hw
    obtain ⟨market_type, symbol, hkey⟩ := hto.1 w hw
    rw [hkey]
    exact K.ne_book market_type symbol
  unfold route at h
  dsimp only at h
  split at h
  · exact haccount (to_account_update (of_map_some h))
  · split at h
    · exact haccount (to_user_order (of_map_some h))
    · rename_i haccount_update horder
      have hdepth : has "@depth" (lower event.source_stream) = true :=
        (helse.resolve_left haccount_update).resolve_left horder
      rw [if_pos hdepth] at h
      split at h
      · exact hbook (to_book_snapshot (of_map_some h))
      · exact hbook (to_book_delta (of_map_some h))

/-- The other streams need neither the user nor the book. -/
theorem route_market {event : RawEvent} (helse : ¬ Elsewhere event.source_stream) (user_id : String)
    (book : Option PyJson) : route event user_id book = route event "" none := by
  have haccount : lower event.source_stream ≠ "user_data.account_update" :=
    fun h => helse (Or.inl h)
  have horder : lower event.source_stream ≠ "user_data.order_trade_update" :=
    fun h => helse (Or.inr (Or.inl h))
  have hdepth : ¬ has "@depth" (lower event.source_stream) = true :=
    fun h => helse (Or.inr (Or.inr h))
  unfold route
  simp only [haccount, horder, hdepth, if_false, Bool.false_eq_true]

theorem has_lower {sub text : String} (hsub : lower sub = sub) (h : has sub text = true) :
    has sub (lower text) = true := by
  unfold has at h ⊢
  rw [decide_eq_true_eq] at h ⊢
  obtain ⟨front, behind, htext⟩ := h
  refine ⟨front.map Char.toLower, behind.map Char.toLower, ?_⟩
  have hsub' : sub.toList.map Char.toLower = sub.toList := by
    have hlist := congrArg String.toList hsub
    simpa [lower] using hlist
  unfold lower
  rw [String.toList_ofList, ← htext, List.map_append, List.map_append, hsub']

theorem current_book_market {event : RawEvent} (helse : ¬ Elsewhere event.source_stream) :
    NormalizerConsumer.current_book event = .done none := by
  have hdelta : is_depth_delta_stream event.source_stream = false := by
    by_contra hdelta
    have hdepth : has "@depth" event.source_stream = true := by
      have hboth := eq_true_of_ne_false hdelta
      simp only [is_depth_delta_stream, Bool.and_eq_true] at hboth
      exact hboth.1
    exact helse (Or.inr (Or.inr (has_lower rfl hdepth)))
  unfold NormalizerConsumer.current_book
  rw [hdelta]
  rfl

namespace NormalizerConsumer

variable (self : NormalizerConsumer)

theorem ack_calls (key msg_id : String) : (self.ack msg_id).Calls fun c => ¬ c.writes key :=
  calls_perform id

theorem current_book_calls (key : String) (event : RawEvent) :
    (NormalizerConsumer.current_book event).Calls fun c => ¬ c.writes key := by
  unfold NormalizerConsumer.current_book
  split
  · split
    · split
      · trivial
      · refine calls_bind (calls_perform id) fun book_json => ?_
        split
        · split
          · trivial
          · exact calls_bind (calls_ofExcept _) fun _ => trivial
        · trivial
    · trivial
  · trivial

theorem execute_calls {key : String} {writes : List HotStateWrite} (h : ∀ w ∈ writes, key ≠ w.key) :
    (execute writes).Calls fun c => ¬ c.writes key := by
  induction writes with
  | nil => trivial
  | cons w writes ih =>
    have hw : ¬ (RedisCmd.set w.key w.value false (some (w.ttl_s : Int))).writes key :=
      h w List.mem_cons_self
    unfold execute
    refine calls_bind (calls_attempt (calls_perform hw)) fun result => ?_
    refine calls_bind (ih fun w' hw' => h w' (List.mem_cons_of_mem w hw')) fun rest => ?_
    split <;> trivial

theorem write_all_calls {key : String} {writes : List HotStateWrite}
    (h : ∀ w ∈ writes, key ≠ w.key) : (write_all writes).Calls fun c => ¬ c.writes key := by
  refine calls_bind (execute_calls h) fun result => ?_
  split <;> trivial

/-- An event that writes elsewhere leaves the key. -/
theorem process_calls {key : String} (msg_id : String) {event : RawEvent}
    (h : ∀ book result, route event self.default_account_id book = .ok (some result) →
      ∀ w ∈ result.hot_writes, key ≠ w.key) :
    (self.process msg_id (some (.ok event))).Calls fun c => ¬ c.writes key := by
  unfold process
  simp only [Prog.ofExcept, Prog.done_bind]
  refine calls_bind (current_book_calls key event) fun book => ?_
  cases hroute : route event self.default_account_id book with
  | error e => trivial
  | ok result =>
    cases result with
    | none => exact self.ack_calls key msg_id
    | some result =>
      simp only [Prog.done_bind]
      have hwrites := write_all_calls (h book result hroute)
      have hpublish : (publish result.event).Calls fun c => ¬ c.writes key := calls_perform id
      exact calls_bind hpublish fun _ => calls_bind hwrites fun _ => self.ack_calls key msg_id

/-- The acknowledgement on an error changes no key. -/
theorem handle_keys (key : String) (r : Redis) (h : Handling) :
    (self.step r h).keys key =
      (run exec idle (self.process h.msg_id h.raw) r h.turns).2.1.keys key := by
  unfold NormalizerConsumer.step NormalizerConsumer.handle
  rw [run_bind, run_attempt]
  generalize run exec idle (self.process h.msg_id h.raw) r h.turns = outcome
  obtain ⟨result, r', turns⟩ := outcome
  cases result with
  | ok _ => rfl
  | error e => exact run_keys (self.ack_calls key h.msg_id) r' turns

/-- What is run after a result of the router. -/
theorem run_result {result : HandlerResult} (key msg_id : String) (r : Redis) (turns : List Turn) :
    (run exec idle (do
      publish result.event
      write_all result.hot_writes
      self.ack msg_id) r turns).2.1.keys key =
      (if (turns.headD idle).fate = .answered then applied key result.hot_writes turns.tail
      else none).or (r.keys key) := by
  have hpublish : (exec r (.xadd StreamNames.NORMALIZED [("event", result.event.json)])
      (turns.headD idle)).2.keys key = r.keys key := exec_keys r id _
  rw [run_bind, publish, redis, run_perform]
  cases hfate : (turns.headD idle).fate with
  | answered =>
    have hok : (exec r (.xadd StreamNames.NORMALIZED [("event", result.event.json)])
        (turns.headD idle)).1 = .ok () := by
      unfold exec
      rw [hfate]
      rfl
    rw [hok, if_pos rfl, ← hpublish, ← run_execute]
    dsimp only
    rw [run_bind, write_all, run_bind]
    generalize run exec idle (execute result.hot_writes) _ turns.tail = outcome
    obtain ⟨error, r', turns'⟩ := outcome
    cases error with
    | error e => rfl
    | ok error =>
      cases error with
      | some e => rfl
      | none => exact run_keys (self.ack_calls key msg_id) r' turns'
  | lost =>
    have herror : (exec r (.xadd StreamNames.NORMALIZED [("event", result.event.json)])
        (turns.headD idle)).1 = .error connection_error := by
      unfold exec
      rw [hfate]
    rw [herror]
    simpa using hpublish
  | unanswered =>
    have herror : (exec r (.xadd StreamNames.NORMALIZED [("event", result.event.json)])
        (turns.headD idle)).1 = .error connection_error := by
      unfold exec
      rw [hfate]
    rw [herror]
    simpa using hpublish

/-- What the handling of an entry leaves under a market key. -/
theorem step_keys (K : MarketKey) (r : Redis) (h : Handling) :
    (self.step r h).keys K.key = (stored K.key h).or (r.keys K.key) := by
  rw [self.handle_keys]
  unfold stored
  cases hraw : h.raw with
  | none => exact run_keys (self.ack_calls K.key h.msg_id) r h.turns
  | some raw =>
    cases raw with
    | error e => rfl
    | ok event =>
      dsimp only
      by_cases helse : Elsewhere event.source_stream
      · have hnone : ∀ result, route event "" none = .ok (some result) →
            applied K.key result.hot_writes h.turns.tail = none := fun result hroute =>
          applied_of_ne (writes_elsewhere K helse hroute).1 _
        have hkeys := run_keys (self.process_calls h.msg_id
          fun book result hroute => (writes_elsewhere K helse hroute).1) r h.turns
        rw [hkeys]
        split
        · rename_i result hroute
          rw [hnone result hroute]
          simp
        · rfl
      · unfold NormalizerConsumer.process
        have hbook := current_book_market helse
        have hroute := route_market helse self.default_account_id none
        simp only [Prog.ofExcept, hbook, Prog.done_bind, hroute]
        cases route event "" none with
        | error e => rfl
        | ok result =>
          cases result with
          | none => exact run_keys (self.ack_calls K.key h.msg_id) r h.turns
          | some result => exact self.run_result K.key h.msg_id r h.turns

theorem keys_of_runs (K : MarketKey) (r : Redis) (hs : List Handling) :
    (self.runs r hs).keys K.key = ((hs.filterMap (stored K.key)).getLast?).or (r.keys K.key) := by
  have hstep : ∀ r h, (self.step r h).keys K.key =
      (Option.map some (stored K.key h)).getD (r.keys K.key) := by
    intro r h
    rw [self.step_keys]
    cases stored K.key h <;> rfl
  have hlast := foldl_last_report self.step (fun r => r.keys K.key) hstep r hs
  have hmap : hs.filterMap (fun h => Option.map some (stored K.key h)) =
      (hs.filterMap (stored K.key)).map some := by rw [List.map_filterMap]
  rw [hmap, List.getLast?_map] at hlast
  unfold NormalizerConsumer.runs
  rw [hlast]
  cases (hs.filterMap (stored K.key)).getLast? <;> rfl

end NormalizerConsumer

/-! ## Whose events write a key -/

/-- What a trade of either kind leaves: its price, as the payload has it. -/
structure TradeWrite (event : RawEvent) (result : HandlerResult) : Prop where
  written : ∃ ts value,
    json_dumps (py_dict [("price", (PyJson.lookup "p" event.payload).getD (str_value "0")),
      ("ts", .int ts)]) = .ok value ∧
    result.hot_writes = [⟨RedisKeys.market_price event.market_type.value result.event.symbol, value,
      PRICE_TTL_S⟩]

/-- The writes of a result go to the keys of its event's symbol, and only a trade writes a price. -/
structure Writes (event : RawEvent) (result : HandlerResult) : Prop where
  keys : result.hot_writes.map (fun w => (w.key, w.ttl_s)) =
    result.event.tails.map fun t => (market_key result.event.market_type result.event.symbol t.1, t.2)
  price : "price" ∈ result.event.tails.map (·.1) → TradeWrite event result

theorem market_price_eq (market_type : MarketType) (symbol : String) :
    RedisKeys.market_price market_type.value symbol = market_key market_type symbol "price" := by
  apply String.toList_injective
  rw [market_key_toList]
  simp [RedisKeys.market_price]

theorem market_book_ticker_eq (market_type : MarketType) (symbol : String) :
    RedisKeys.market_book_ticker market_type.value symbol =
      market_key market_type symbol "book_ticker" := by
  apply String.toList_injective
  rw [market_key_toList]
  simp [RedisKeys.market_book_ticker]

theorem market_mark_eq (market_type : MarketType) (symbol : String) :
    market_mark market_type.value symbol = market_key market_type symbol "mark" := by
  apply String.toList_injective
  rw [market_key_toList]
  simp [market_mark]

theorem market_funding_eq (market_type : MarketType) (symbol : String) :
    market_funding market_type.value symbol = market_key market_type symbol "funding" := by
  apply String.toList_injective
  rw [market_key_toList]
  simp [market_funding]

theorem market_klines_eq (market_type : MarketType) (symbol interval : String) :
    market_klines market_type.value symbol interval =
      market_key market_type symbol ("klines:" ++ interval) := by
  apply String.toList_injective
  rw [market_key_toList]
  simp [market_klines]

theorem writes_trade {event : RawEvent} {result : HandlerResult} (h : handle_trade event = .ok result) :
    Writes event result := by
  unfold handle_trade at h
  iterate 2 obtain ⟨_, -, h⟩ := of_bind_ok h
  obtain ⟨price, hprice, h⟩ := of_bind_ok h
  iterate 5 obtain ⟨_, -, h⟩ := of_bind_ok h
  obtain ⟨write, hwrite, h⟩ := of_bind_ok h
  obtain ⟨value, hvalue, hwrite⟩ := of_bind_ok hwrite
  cases hwrite
  cases h
  cases hprice
  refine ⟨?_, fun _ => ⟨_, value, hvalue, rfl⟩⟩
  simp [NormalizedEvent.tails, market_price_eq]

theorem writes_agg_trade {event : RawEvent} {result : HandlerResult}
    (h : handle_agg_trade event = .ok result) : Writes event result := by
  unfold handle_agg_trade at h
  iterate 2 obtain ⟨_, -, h⟩ := of_bind_ok h
  obtain ⟨price, hprice, h⟩ := of_bind_ok h
  iterate 4 obtain ⟨_, -, h⟩ := of_bind_ok h
  obtain ⟨write, hwrite, h⟩ := of_bind_ok h
  iterate 3 obtain ⟨_, -, h⟩ := of_bind_ok h
  obtain ⟨value, hvalue, hwrite⟩ := of_bind_ok hwrite
  cases hwrite
  cases h
  cases hprice
  refine ⟨?_, fun _ => ⟨_, value, hvalue, rfl⟩⟩
  simp [NormalizedEvent.tails, market_price_eq]

theorem writes_book_ticker {event : RawEvent} {result : HandlerResult}
    (h : handle_book_ticker event = .ok result) : Writes event result := by
  unfold handle_book_ticker at h
  iterate 8 obtain ⟨_, -, h⟩ := of_bind_ok h
  cases h
  refine ⟨?_, by simp [NormalizedEvent.tails]⟩
  simp [NormalizedEvent.tails, market_book_ticker_eq]

theorem writes_mark_price {event : RawEvent} {result : HandlerResult}
    (h : handle_mark_price event = .ok result) : Writes event result := by
  unfold handle_mark_price at h
  iterate 12 obtain ⟨_, -, h⟩ := of_bind_ok h
  cases h
  refine ⟨?_, by simp [NormalizedEvent.tails]⟩
  simp [NormalizedEvent.tails, market_mark_eq, market_funding_eq]

theorem writes_liquidation {event : RawEvent} {result : HandlerResult}
    (h : handle_liquidation event = .ok result) : Writes event result := by
  unfold handle_liquidation at h
  iterate 13 obtain ⟨_, -, h⟩ := of_bind_ok h
  cases h
  exact ⟨by simp [NormalizedEvent.tails], by simp [NormalizedEvent.tails]⟩

theorem interval_of_data (event : RawEvent) {name : String} {interval : PyJson}
    (hname : py_str_of interval = .ok name) (symbol : String) (open_time_ms : Int)
    (rest : List (String × PyJson)) (hrest : "interval" ∉ rest.map (·.1)) :
    (event.normalized "kline" symbol open_time_ms (py_dict (("interval", interval) :: rest))).interval =
      some name := by
  have hfind : (("interval", interval) :: rest).reverse.find? (·.1 = "interval") =
      some ("interval", interval) := by
    have hnone : rest.reverse.find? (·.1 = "interval") = none := by
      rw [List.find?_eq_none]
      intro f hf he
      apply hrest
      rw [← of_decide_eq_true he]
      exact List.mem_map_of_mem (List.mem_reverse.mp hf)
    rw [List.reverse_cons, List.find?_append, hnone]
    simp
  unfold NormalizedEvent.interval RawEvent.normalized py_dict
  simp only [lookup_py_dict, hfind, Option.map_some, hname]

theorem writes_kline {event : RawEvent} {result : HandlerResult} (h : handle_kline event = .ok result) :
    Writes event result := by
  unfold handle_kline at h
  iterate 20 obtain ⟨_, -, h⟩ := of_bind_ok h
  obtain ⟨name, hname, h⟩ := of_bind_ok h
  obtain ⟨value, -, h⟩ := of_bind_ok h
  cases h
  have hinterval := interval_of_data event hname
  refine ⟨?_, ?_⟩
  · simp [NormalizedEvent.tails, hinterval, market_klines_eq, kline_ttl]
  · intro hprice
    simp [NormalizedEvent.tails, hinterval] at hprice
    have hlist := congrArg String.toList hprice
    simp at hlist

/-- The streams of a market write the keys of their own events. -/
theorem writes_market {event : RawEvent} (helse : ¬ Elsewhere event.source_stream) {user_id : String}
    {book : Option PyJson} {result : HandlerResult}
    (h : route event user_id book = .ok (some result)) : Writes event result := by
  have haccount : lower event.source_stream ≠ "user_data.account_update" :=
    fun h => helse (Or.inl h)
  have horder : lower event.source_stream ≠ "user_data.order_trade_update" :=
    fun h => helse (Or.inr (Or.inl h))
  have hdepth : ¬ has "@depth" (lower event.source_stream) = true :=
    fun h => helse (Or.inr (Or.inr h))
  unfold route at h
  simp only [haccount, horder, hdepth, if_false, Bool.false_eq_true] at h
  split at h
  · exact writes_kline (of_map_some h)
  · split at h
    · exact writes_trade (of_map_some h)
    · split at h
      · exact writes_agg_trade (of_map_some h)
      · split at h
        · exact writes_book_ticker (of_map_some h)
        · split at h
          · exact writes_mark_price (of_map_some h)
          · split at h
            · exact writes_liquidation (of_map_some h)
            · cases h

theorem tails_nodup (event : NormalizedEvent) : (event.tails.map (·.1)).Nodup := by
  unfold NormalizedEvent.tails
  split
  · simp
  · split
    · simp
    · split
      · simp
      · split
        · cases event.interval <;> simp
        · simp

theorem kline_ttl_pos (interval : String) : 0 < kline_ttl interval := by
  have htable : ∀ row ∈ INTERVAL_TTL, 0 < row.2 := by decide
  unfold kline_ttl
  cases hfind : INTERVAL_TTL.find? (·.1 = interval) with
  | none => simp [DEFAULT_TTL_S]
  | some row => exact htable row (List.mem_of_find?_eq_some hfind)

/-- The TTLs that Redis takes, and the last words that the keys know. -/
theorem of_mem_tails {event : NormalizedEvent} {t : String × Nat} (h : t ∈ event.tails) :
    0 < t.2 ∧ (t.1 ∈ TAILS ∨ ∃ interval, t.1 = "klines:" ++ interval) := by
  unfold NormalizedEvent.tails at h
  split at h
  · rw [List.mem_singleton.mp h]
    exact ⟨by simp [PRICE_TTL_S], Or.inl (by simp [TAILS])⟩
  · split at h
    · rw [List.mem_singleton.mp h]
      exact ⟨by simp [BOOK_TICKER_TTL_S], Or.inl (by simp [TAILS])⟩
    · split at h
      · simp only [List.mem_cons, List.not_mem_nil, or_false] at h
        rcases h with rfl | rfl
        · exact ⟨by simp [MARK_TTL_S], Or.inl (by simp [TAILS])⟩
        · exact ⟨by simp [FUNDING_TTL_S], Or.inl (by simp [TAILS])⟩
      · split at h
        · obtain ⟨interval, -, rfl⟩ := List.mem_map.mp h
          exact ⟨kline_ttl_pos interval, Or.inr ⟨interval, rfl⟩⟩
        · cases h

/-- A pipeline writes a key once, where its keys are distinct. -/
theorem applied_of_nodup {key : String} {writes : List HotStateWrite}
    (h : (writes.map (·.key)).Nodup) (turns : List Turn) :
    applied key writes turns = (writes.findIdx? (·.key = key)).bind fun i =>
      writes[i]?.bind fun w => w.applied key ((turns.drop i).headD idle) := by
  induction writes generalizing turns with
  | nil => rfl
  | cons w writes ih =>
    rw [List.map_cons, List.nodup_cons] at h
    rw [applied, List.findIdx?_cons]
    by_cases hkey : w.key = key
    · have hrest : applied key writes turns.tail = none := by
        apply applied_of_ne
        intro w' hw' he
        apply h.1
        rw [hkey, he]
        exact List.mem_map_of_mem hw'
      simp [hrest, hkey, List.head?_eq_getElem?]
    · have hw : w.applied key (turns.headD idle) = none := by simp [HotStateWrite.applied, hkey]
      rw [hw, ih h.2]
      simp [hkey, Option.bind_map]

/-- Where in the pipeline of an event the key is written. -/
def MarketKey.place (K : MarketKey) (event : NormalizedEvent) : Option Nat :=
  if event.market_type = K.market_type ∧ event.symbol = K.symbol then
    event.tails.findIdx? (·.1 = K.kind.tail)
  else none

/-- What an entry tells of the key. Its event must be published, and the write must reach Redis. -/
def MarketKey.told (K : MarketKey) (h : Handling) : Option RedisEntry :=
  match h.raw with
  | some (.ok event) =>
    match route event "" none with
    | .ok (some result) => do
      let i ← K.place result.event
      let w ← result.hot_writes[i]?
      let turn := (h.turns.drop (i + 1)).headD idle
      if (h.turns.headD idle).fate = .answered ∧ turn.fate ≠ .lost then
        some ⟨w.value, some (turn.now + 1000 * w.ttl_s)⟩
      else none
    | _ => none
  | _ => none

theorem findIdx_congr {α : Type} {p q : α → Bool} {xs : List α} (h : ∀ x ∈ xs, p x = q x) :
    xs.findIdx? p = xs.findIdx? q := by
  induction xs with
  | nil => rfl
  | cons x xs ih =>
    rw [List.findIdx?_cons, List.findIdx?_cons, h x List.mem_cons_self,
      ih fun y hy => h y (List.mem_cons_of_mem x hy)]

theorem place_of_writes (K : MarketKey) {event : RawEvent} {result : HandlerResult}
    (h : Writes event result) :
    result.hot_writes.findIdx? (·.key = K.key) = K.place result.event := by
  have hpair : result.hot_writes.findIdx? (·.key = K.key) =
      (result.hot_writes.map fun w => (w.key, w.ttl_s)).findIdx? (·.1 = K.key) := by
    rw [List.findIdx?_map]
    rfl
  rw [hpair, h.keys, List.findIdx?_map, MarketKey.place]
  have hsame : ∀ t ∈ result.event.tails,
      market_key result.event.market_type result.event.symbol t.1 = K.key →
        (result.event.market_type = K.market_type ∧ result.event.symbol = K.symbol) ∧
          t.1 = K.kind.tail := by
    intro t ht he
    obtain ⟨hmarket, hsymbol, htail⟩ := K.key_eq (of_mem_tails ht).2 he.symm
    exact ⟨⟨hmarket, hsymbol⟩, htail⟩
  split
  · rename_i hown
    apply findIdx_congr
    intro t ht
    apply decide_eq_decide.mpr
    refine ⟨fun he => (hsame t ht he).2, ?_⟩
    intro htail
    show market_key result.event.market_type result.event.symbol t.1 = K.key
    rw [hown.1, hown.2, htail]
    rfl
  · rename_i hown
    rw [List.findIdx?_eq_none_iff]
    intro t ht
    exact decide_eq_false fun he => hown (hsame t ht he).1

theorem keys_nodup {event : RawEvent} {result : HandlerResult}
    (h : Writes event result) :
    (result.hot_writes.map (·.key)).Nodup := by
  have hkeys : result.hot_writes.map (·.key) = (result.event.tails.map (·.1)).map
      (market_key result.event.market_type result.event.symbol) := by
    have hfirst := congrArg (List.map Prod.fst) h.keys
    simpa [Function.comp_def] using hfirst
  rw [hkeys]
  refine (tails_nodup result.event).map ?_
  intro tail tail' he
  have hlist := congrArg String.toList he
  rw [market_key_toList, market_key_toList] at hlist
  have hrest := List.append_cancel_left (List.append_cancel_left hlist)
  rw [List.cons.injEq] at hrest
  have htail := List.append_cancel_left hrest.2
  rw [List.cons.injEq] at htail
  exact String.toList_injective htail.2

theorem ttl_pos {event : RawEvent} {result : HandlerResult}
    (h : Writes event result) :
    ∀ w ∈ result.hot_writes, 0 < w.ttl_s := by
  intro w hw
  have hpair := List.mem_map_of_mem (f := fun w => (w.key, w.ttl_s)) hw
  rw [h.keys] at hpair
  obtain ⟨t, ht, he⟩ := List.mem_map.mp hpair
  rw [← (Prod.mk.inj he).2]
  exact (of_mem_tails ht).1

/-- What the handling of an entry leaves under the key is what the entry tells of it. -/
theorem stored_eq_told (K : MarketKey) (h : Handling) : stored K.key h = K.told h := by
  unfold stored MarketKey.told
  cases h.raw with
  | none => rfl
  | some raw =>
    cases raw with
    | error e => rfl
    | ok event =>
      dsimp only
      cases hroute : route event "" none with
      | error e => rfl
      | ok result =>
        cases result with
        | none => rfl
        | some result =>
          dsimp only
          by_cases helse : Elsewhere event.source_stream
          · obtain ⟨hkeys, htails⟩ := writes_elsewhere K helse hroute
            have hplace : K.place result.event = none := by simp [MarketKey.place, htails]
            rw [applied_of_ne hkeys, hplace]
            simp
          · have hwrites := writes_market helse hroute
            rw [applied_of_nodup (keys_nodup hwrites), ← place_of_writes K hwrites]
            cases hplace : result.hot_writes.findIdx? (·.key = K.key) with
            | none => simp
            | some i =>
              obtain ⟨hi, hkey, -⟩ := List.findIdx?_eq_some_iff_getElem.mp hplace
              have httl := ttl_pos hwrites _ (List.getElem_mem hi)
              have hown := of_decide_eq_true hkey
              by_cases hpublished : (h.turns.headD idle).fate = .answered
              · simp only [hpublished]
                simp [HotStateWrite.applied, hi, hown, httl]
              · simp only [hpublished]
                simp

namespace NormalizerConsumer

variable (self : NormalizerConsumer)

/-- Whatever the entries are, and whatever Redis makes of the commands: a market key holds what
the last event told that tells of its symbol. -/
theorem market_key_holds_last_event (K : MarketKey) (r : Redis) (hs : List Handling) :
    (self.runs r hs).keys K.key = ((hs.filterMap K.told).getLast?).or (r.keys K.key) := by
  rw [self.keys_of_runs]
  have htold : stored K.key = K.told := funext (stored_eq_told K)
  rw [htold]

end NormalizerConsumer

end trading_platform.normalizer.handlers
