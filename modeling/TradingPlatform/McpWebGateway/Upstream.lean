-- The exchange of the gateway with the MCP server, step by step. The loop of the server's event
-- stream, the lines on the wire, the reader task and the posts of the gateway are interleaved in
-- any order; the gateway still gets the result that the tool gave.
import TradingPlatform.McpServer.Protocol
import TradingPlatform.McpWebGateway.Proxy
import TradingPlatform.Lib.Progress

open event_stream progress
open trading_platform.shared
open trading_platform.mcp_server.protocol (content handle_message call_result HANDLERS
  McpServerSettings)

namespace trading_platform.mcp_web_gateway

/-! ## Messages -/

/-- The body of a message that is posted, as the server reads it. -/
def Message.body (m : Message) : PyJson :=
  let method_and_params := [("method", .str (py_text m.method)), ("params", of_json m.params)]
  match m.id with
  | some n => py_dict (("jsonrpc", .str (py_text "2.0")) :: ("id", .int n) :: method_and_params)
  | none => py_dict (("jsonrpc", .str (py_text "2.0")) :: method_and_params)

/-! ## Lines -/

/-- What a line is to `_read_sse`. -/
def line_kind (line : String) : Kind String :=
  let line := rstrip line.toList
  if "event:".toList.isPrefixOf line then .event (String.ofList (strip (line.drop 6)))
  else if "data:".toList.isPrefixOf line then .data (String.ofList (strip (line.drop 5)))
  else .other

section Reader

variable (loads : String → Except PyErr Json)

/-- What the reader makes of data that has the name. -/
def Reader.deliver (r : Reader) (name : Option String) (data : String) : Reader :=
  if r.session_path.isNone ∧ data.toList.head? = some '/' then { r with session_path := some data }
  else if name = some "message" ∧ data.toList ≠ [] then r.route loads data
  else r

theorem read_line_eq (r : Reader) (line : String) :
    r.read_line loads line =
      match line_kind line with
      | .event name => { r with event_type := some name }
      | .data data => { r.deliver loads r.event_type data with event_type := none }
      | .other => r := by
  unfold Reader.read_line line_kind Reader.deliver
  dsimp only
  split
  · rfl
  · split
    · simp only [String.toList_ofList]
    · rfl

end Reader

/-- A py_text on one line that `strip` leaves as it is. -/
structure Tidy (data : List Char) : Prop where
  unbroken : Unbroken data
  head : ∃ c cs, data = c :: cs ∧ PyFloat.isSpace c = false
  last : ∀ c ∈ data.getLast?, PyFloat.isSpace c = false

theorem rstrip_of_last {cs : List Char} (h : ∀ c ∈ cs.getLast?, PyFloat.isSpace c = false) :
    rstrip cs = cs := by
  unfold rstrip
  cases hcs : cs.reverse with
  | nil => simpa using hcs.symm
  | cons c rest =>
    have hlast : cs.getLast? = some c := by
      rw [← List.head?_reverse, hcs, List.head?_cons]
    rw [List.dropWhile_cons_of_neg (by simp [h c hlast]), ← hcs, List.reverse_reverse]

theorem Tidy.line {data : List Char} (h : Tidy data) (front : List Char) :
    rstrip (front ++ data) = front ++ data := by
  obtain ⟨c, cs, hdata, -⟩ := h.head
  apply rstrip_of_last
  intro d hd
  apply h.last
  rw [List.getLast?_append, Option.mem_def] at hd
  rw [Option.mem_def]
  cases hlast : data.getLast? with
  | none => simp [hdata] at hlast
  | some e =>
    rw [hlast] at hd
    exact hd

/-- The data of a frame, behind the blank. -/
theorem Tidy.strip {data : List Char} (h : Tidy data) : strip (' ' :: data) = data := by
  obtain ⟨c, cs, hdata, hc⟩ := h.head
  have hblank : PyFloat.isSpace ' ' = true := rfl
  unfold mcp_web_gateway.strip
  rw [List.dropWhile_cons_of_pos hblank]
  have hdrop : data.dropWhile PyFloat.isSpace = data := by
    rw [hdata, List.dropWhile_cons_of_neg (by simp [hc])]
  rw [hdrop, rstrip_of_last h.last]

theorem line_kind_event {name : List Char} (h : Tidy name) :
    line_kind (String.ofList (event_field ++ name)) = .event (String.ofList name) := by
  have hdrop : (event_field ++ name).drop 6 = ' ' :: name := rfl
  have hfield : "event:".toList.isPrefixOf (event_field ++ name) = true := rfl
  unfold line_kind
  simp only [String.toList_ofList, h.line, hfield, if_true, hdrop, h.strip]

theorem line_kind_data {data : List Char} (h : Tidy data) :
    line_kind (String.ofList (data_field ++ data)) = .data (String.ofList data) := by
  have hdrop : (data_field ++ data).drop 5 = ' ' :: data := rfl
  have hevent : "event:".toList.isPrefixOf (data_field ++ data) = false := rfl
  have hfield : "data:".toList.isPrefixOf (data_field ++ data) = true := rfl
  unfold line_kind
  simp only [String.toList_ofList, h.line, hevent, hfield, if_true, hdrop, h.strip]
  rfl

/-- The lines of a frame, as `aiter_lines` gives them. -/
def frame_lines (f : Frame) : List String := (splitlines f.text).map String.ofList

theorem received_event {name data : List Char} (hname : Tidy name) (hdata : Tidy data)
    (before : Option String) :
    received line_kind before (frame_lines (.event name data)) =
      [(some (String.ofList name), String.ofList data)] := by
  have hempty : line_kind (String.ofList []) = .other := rfl
  have hlines := Frame.splitlines_frame (f := .event name data) ⟨hname.unbroken, hdata.unbroken⟩
  simp only [frame_lines, hlines, Frame.lines, List.map_cons, List.map_nil, received,
    line_kind_event hname, line_kind_data hdata, hempty]

/-! ## The server's event stream -/

/-- A session id is a UUID. -/
structure SessionId where
  text : List Char
  uuid : ∀ c ∈ text, c.isAlphanum = true ∨ c = '-'

def endpoint_path (session_id : SessionId) : List Char :=
  "/messages?session_id=".toList ++ session_id.text

def endpoint_frame (session_id : SessionId) : Frame := .event "endpoint".toList (endpoint_path session_id)

def message_frame (message : List Char) : Frame := .event "message".toList message

def keepalive_frame : Frame := .comment "keepalive".toList

/-! ## Steps -/

inductive Post where
  | initializing
  | initialized
  | calling
  deriving DecidableEq

/-- How far `_one_shot_rpc` is: a post is on its way, the server has answered it, or its response
is waited for. -/
inductive Stage where
  | ready
  | posting (p : Post)
  | answered (p : Post)
  | waiting (p : Post)
  | done (response : Dict)

structure Upstream where
  /-- The endpoint event was sent. -/
  opened : Bool := false
  queue : List (List Char) := []
  wire : List String := []
  reader : Reader := {}
  stage : Stage := .ready
  /-- The lines that were read, by the stages. -/
  seen : Exchange := {}

inductive UpstreamAct where
  /-- The loop of the event stream sends the endpoint, and then what is in the queue. -/
  | send
  | keepalive
  | read
  | post
  /-- The server handles the request that is on its way. -/
  | serve
  | accepted
  | receive
  deriving DecidableEq

section Steps

variable (printable : CodePoint → Bool) (settings : McpServerSettings)
  (handler : String → PyJson → Except PyStr PyJson) (session_id : SessionId)
  (name : String) (arguments : Json)

/-- The message of a post. -/
def message_of : Post → Message
  | .initializing => initialize_message
  | .initialized => initialized_message
  | .calling => ⟨some 2, "tools/call", .obj [("name", .str name), ("arguments", arguments)]⟩

/-- The post that a stage belongs to. -/
def Stage.post : Stage → Option Post
  | .ready => none
  | .posting p | .answered p | .waiting p => some p
  | .done _ => some .calling

/-- The line goes to the lines of its stage. -/
def Exchange.saw (x : Exchange) (line : String) : Option Post → Exchange
  | none => { x with until_ready := x.until_ready ++ [line] }
  | some .initializing => { x with until_initialized := x.until_initialized ++ [line] }
  | some .initialized => { x with during_notification := x.during_notification ++ [line] }
  | some .calling => { x with until_response := x.until_response ++ [line] }

namespace Upstream

variable (s : Upstream)

/-- One step, if it can happen. -/
def step : UpstreamAct → Option Upstream
  | .send =>
    if s.opened then
      match s.queue with
      | [] => none
      | message :: queue =>
        some { s with queue, wire := s.wire ++ frame_lines (message_frame message) }
    else some { s with opened := true, wire := s.wire ++ frame_lines (endpoint_frame session_id) }
  | .keepalive =>
    if s.opened then some { s with wire := s.wire ++ frame_lines keepalive_frame } else none
  | .read =>
    match s.stage, s.wire with
    | .done _, _ => none
    | _, [] => none
    | stage, line :: wire =>
      some { s with
        wire
        reader := s.reader.read_line loads_json line
        seen := s.seen.saw line stage.post }
  | .post =>
    match s.stage with
    | .ready =>
      if s.reader.session_path.isSome then
        some { s with reader := s.reader.expect 1, stage := .posting .initializing }
      else none
    | _ => none
  | .serve =>
    match s.stage with
    | .posting p =>
      match handle_message printable settings handler (message_of name arguments p).body with
      | .ok response => some { s with queue := s.queue ++ [response], stage := .answered p }
      -- `http.post` does not raise on a status of 500
      | .error _ => some { s with stage := .answered p }
    | _ => none
  | .accepted =>
    match s.stage with
    | .answered .initialized =>
      some { s with reader := s.reader.expect 2, stage := .posting .calling }
    | .answered p => some { s with stage := .waiting p }
    | _ => none
  | .receive =>
    match s.stage with
    | .waiting .initializing =>
      if (s.reader.result 1).isSome then some { s with stage := .posting .initialized } else none
    | .waiting .calling =>
      match s.reader.result 2 with
      | some response => some { s with stage := .done response }
      | none => none
    | _ => none

def run : Upstream → List UpstreamAct → Option Upstream :=
  unwinding.run (step printable settings handler session_id name arguments)

end Upstream

end Steps

/-! ## The replies -/

section Replies

variable (printable : CodePoint → Bool) (settings : McpServerSettings)
  (handler : String → PyJson → Except PyStr PyJson) (session_id : SessionId)
  (name : String) (arguments : Json)

/-- The id of a response, as the gateway reads it. -/
def response_id : Post → Json
  | .initializing => .num "1"
  | .initialized => .null
  | .calling => .num "2"

/-- What the server answers to a post, and what the gateway reads of it. -/
structure Reply (p : Post) where
  response : List Char
  dict : Dict
  handled : handle_message printable settings handler (message_of name arguments p).body = .ok response
  tidy : Tidy response
  brace : response.head? = some '{'
  loads : loads_json (String.ofList response) = .ok (.obj dict)
  id : Dict.get dict "id" = some (response_id p)

end Replies

section Served

variable {printable : CodePoint → Bool} {settings : McpServerSettings}
  {handler : String → PyJson → Except PyStr PyJson} {name : String} {arguments : Json}

theorem tidy_of_braces {data inner : List Char} (h : data = '{' :: (inner ++ ['}']))
    (hprintable : Printable data) : Tidy data where
  unbroken := unbroken_of_printable hprintable
  head := ⟨'{', _, h, rfl⟩
  last c hc := by
    rw [h, ← List.cons_append, List.getLast?_concat] at hc
    cases hc
    rfl

/-- A result that can be written is a reply. -/
theorem reply_of_ok {p : Post} {id_ result : PyJson} (hid : Writable id_) (hresult : Writable result)
    (hread : to_json (read_back id_) = response_id p)
    (hhandle : handle_message printable settings handler (message_of name arguments p).body =
      mcp_server.protocol.ok id_ result) :
    ∃ reply : Reply printable settings handler name arguments p,
      reply.dict = [("jsonrpc", .str "2.0"), ("id", response_id p),
        ("result", to_json (read_back result))] := by
  obtain ⟨response, hok, hloads, hresponds⟩ := mcp_server.protocol.responds_ok hid hresult
  obtain ⟨inner, hinner⟩ := mcp_server.protocol.dumps_dict_braces hok
  have hjson : loads_json (String.ofList response) = .ok (.obj [("jsonrpc", .str "2.0"),
      ("id", response_id p), ("result", to_json (read_back result))]) := by
    rw [loads_json, String.toList_ofList, hloads, ← hread]
    simp [Except.map, mcp_server.protocol.result_response, to_json_py_dict, to_json]
  refine ⟨⟨response, _, hhandle.trans hok, tidy_of_braces hinner hresponds.printable, ?_,
    hjson, ?_⟩, rfl⟩
  · rw [hinner]
    rfl
  · simp [Dict.get]

theorem handle_body (m : Message) :
    handle_message printable settings handler m.body =
      mcp_server.protocol.dispatch printable settings handler (.str (py_text m.method))
        (match m.id with
        | some n => .int n
        | none => .null) (mcp_server.protocol.or_empty (of_json m.params)) := by
  obtain ⟨id, method, params⟩ := m
  cases id with
  | none =>
    unfold Message.body
    dsimp only
    rw [py_dict, mcp_server.protocol.handle_dict]
    simp only [lookup_py_dict]
    simp
  | some n =>
    unfold Message.body
    dsimp only
    rw [py_dict, mcp_server.protocol.handle_dict]
    simp only [lookup_py_dict]
    simp

variable (printable settings handler name arguments) in
theorem initialize_reply :
    Nonempty (Reply printable settings handler name arguments .initializing) := by
  have hhandle : handle_message printable settings handler
      (message_of name arguments .initializing).body =
      mcp_server.protocol.ok (.int 1) (mcp_server.protocol.initialize_result settings.server_name settings.server_version) := by
    rw [message_of, handle_body]
    simp [initialize_message, mcp_server.protocol.dispatch, mcp_server.protocol.is_text]
  have hresult : Writable
      (mcp_server.protocol.initialize_result settings.server_name settings.server_version) := by
    have hempty : Writable (.dict []) := trivial
    simp [mcp_server.protocol.initialize_result, hempty]
  have hid : Writable (.int 1) := by
    unfold Writable
    decide
  obtain ⟨reply, -⟩ := reply_of_ok hid hresult (p := .initializing) rfl hhandle
  exact ⟨reply⟩

variable (printable settings handler name arguments) in
theorem notification_reply :
    Nonempty (Reply printable settings handler name arguments .initialized) := by
  have hhandle : handle_message printable settings handler
      (message_of name arguments .initialized).body = mcp_server.protocol.ok .null (.dict []) := by
    rw [message_of, handle_body]
    simp [initialized_message, mcp_server.protocol.dispatch, mcp_server.protocol.is_text]
  have hnull : Writable .null := trivial
  have hempty : Writable (.dict []) := trivial
  obtain ⟨reply, -⟩ := reply_of_ok hnull hempty (p := .initialized) rfl hhandle
  exact ⟨reply⟩

/-- The arguments that the handler is called with. -/
def call_arguments (arguments : Json) : PyJson := mcp_server.protocol.or_empty (of_json arguments)

variable (printable settings handler arguments) in
/-- The reply to a call of a tool has the result of its handler. -/
theorem call_reply (hname : name ∈ HANDLERS) :
    ∃ reply : Reply printable settings handler name arguments .calling,
      Dict.get reply.dict "error" = none ∧ Dict.get reply.dict "result" =
        some (to_json (read_back (call_result handler name (call_arguments arguments)))) := by
  have hid : Writable (.int 2) := by
    unfold Writable
    decide
  have hhandle : handle_message printable settings handler (message_of name arguments .calling).body =
      mcp_server.protocol.ok (.int 2) (call_result handler name (call_arguments arguments)) := by
    have hparams : mcp_server.protocol.or_empty (of_json (.obj [("name", .str name), ("arguments", arguments)])) =
        py_dict [("name", .str (py_text name)), ("arguments", of_json arguments)] := rfl
    rw [message_of, handle_body]
    dsimp only
    rw [hparams, py_dict, mcp_server.protocol.dispatch_of_call]
    simp only [lookup_py_dict, List.reverse_cons, List.reverse_nil, List.nil_append,
      List.cons_append]
    simp [mcp_server.protocol.handler_of_text hname, bind, Except.bind, mcp_server.protocol.call_handler_eq hid,
      call_arguments]
  have hresult : Writable (call_result handler name (call_arguments arguments)) :=
    mcp_server.protocol.writable_call_result name _
  obtain ⟨reply, hdict⟩ := reply_of_ok hid hresult (p := .calling) rfl hhandle
  refine ⟨reply, ?_, ?_⟩
  · rw [hdict]
    simp [Dict.get]
  · rw [hdict]
    simp [Dict.get]

end Served

/-! ## The invariant of the steps -/

/-- How many posts the server has answered. -/
def Stage.served : Stage → Nat
  | .ready => 0
  | .posting .initializing => 0
  | .answered .initializing => 1
  | .waiting .initializing => 1
  | .posting .initialized => 1
  | .answered .initialized => 2
  | .waiting .initialized => 2
  | .posting .calling => 2
  | .answered .calling => 3
  | .waiting .calling => 3
  | .done _ => 3

/-- How many events the reader has seen at the least. -/
def Stage.passed : Stage → Nat
  | .ready => 0
  | .posting .initializing | .answered .initializing | .waiting .initializing => 1
  | .posting _ | .answered _ | .waiting _ => 2
  | .done _ => 4

/-- The ids that have a future. -/
def Stage.pending : Stage → List Nat
  | .ready => []
  | .posting .initializing | .answered .initializing | .waiting .initializing => [1]
  | .posting .initialized | .answered .initialized => [1]
  | _ => [2, 1]

section Invariant

variable {printable : CodePoint → Bool} {settings : McpServerSettings}
  {handler : String → PyJson → Except PyStr PyJson} {session_id : SessionId}
  {name : String} {arguments : Json}
  (reply : ∀ p, Reply printable settings handler name arguments p)

def message_event (message : List Char) : Option String × String :=
  (some "message", String.ofList message)

def endpoint_event (session_id : SessionId) : Option String × String :=
  (some "endpoint", String.ofList (endpoint_path session_id))

/-- The responses in their order. -/
def responses : List (List Char) :=
  [(reply .initializing).response, (reply .initialized).response, (reply .calling).response]

/-- The events of the stream when that many posts were answered. -/
def stream_events (session_id : SessionId) (served : Nat) : List (Option String × String) :=
  endpoint_event session_id :: ((responses reply).take served).map message_event

/-- The futures that have a result when that many events were seen. -/
def results_after (seen : Nat) : List (Nat × Dict) :=
  if seen < 2 then []
  else if seen < 4 then [(1, (reply .initializing).dict)]
  else [(2, (reply .calling).dict), (1, (reply .initializing).dict)]

/-- What was seen, what is on the wire and what is in the queue are the events of the stream in
their order, and the reader is what it becomes by the events that were seen. -/
structure Good (session_id : SessionId) (s : Upstream) (seen : Nat) : Prop where
  events : received line_kind s.reader.event_type s.wire ++
      (if s.opened then [] else [endpoint_event session_id]) ++ s.queue.map message_event =
    (stream_events reply session_id s.stage.served).drop seen
  le : seen ≤ s.stage.served + 1
  passed : s.stage.passed ≤ seen
  session_path : s.reader.session_path =
    if seen = 0 then none else some (String.ofList (endpoint_path session_id))
  pending : s.reader.pending = s.stage.pending
  results : s.reader.results = results_after reply seen
  response : ∀ response, s.stage = .done response → response = (reply .calling).dict

variable {reply} {s s' : Upstream} {seen : Nat}

theorem good_start : Good reply session_id {} 0 where
  events := rfl
  le := Nat.zero_le _
  passed := Nat.le_refl _
  session_path := rfl
  pending := rfl
  results := rfl
  response := fun _ h => nomatch h

theorem of_drop_eq_cons {α : Type} {l rest : List α} {a : α} {n : Nat} (h : l.drop n = a :: rest) :
    l[n]? = some a ∧ l.drop (n + 1) = rest := by
  have hget : (l.drop n)[0]? = l[n]? := by rw [List.getElem?_drop, Nat.add_zero]
  have hdrop : l.drop (n + 1) = (l.drop n).drop 1 := by rw [List.drop_drop]
  rw [← hget, hdrop, h]
  exact ⟨rfl, rfl⟩

/-- A message of the stream is one of the responses. -/
theorem response_of_event {message : List Char} {served : Nat}
    (h : message_event message ∈ stream_events reply session_id served) :
    message ∈ responses reply := by
  rcases List.mem_cons.mp h with hendpoint | hmessage
  · exact absurd (congrArg Prod.fst hendpoint) (by simp [message_event, endpoint_event])
  · obtain ⟨response, hresponse, heq⟩ := List.mem_map.mp hmessage
    have htext : String.ofList response = String.ofList message := congrArg Prod.snd heq
    rw [← String.ofList_injective htext]
    exact List.mem_of_mem_take hresponse

theorem tidy_response {message : List Char} (h : message ∈ responses reply) : Tidy message := by
  simp only [responses, List.mem_cons, List.not_mem_nil, or_false] at h
  rcases h with rfl | rfl | rfl
  · exact (reply .initializing).tidy
  · exact (reply .initialized).tidy
  · exact (reply .calling).tidy

theorem tidy_message : Tidy "message".toList where
  unbroken := by simp [Unbroken, is_break]
  head := ⟨'m', _, rfl, rfl⟩
  last := by simp [PyFloat.isSpace]

theorem tidy_endpoint : Tidy "endpoint".toList where
  unbroken := by simp [Unbroken, is_break]
  head := ⟨'e', _, rfl, rfl⟩
  last := by simp [PyFloat.isSpace]

theorem printable_of_uuid {c : Char} (h : c.isAlphanum = true ∨ c = '-') :
    '-' ≤ c ∧ c ≤ 'z' := by
  have hrange : 45 ≤ c.toNat ∧ c.toNat ≤ 122 := by
    rcases h with h | rfl
    · have hupper : 'A'.toNat = 65 ∧ 'Z'.toNat = 90 := ⟨rfl, rfl⟩
      have hlower : 'a'.toNat = 97 ∧ 'z'.toNat = 122 := ⟨rfl, rfl⟩
      have hdigit : '0'.toNat = 48 ∧ '9'.toNat = 57 := ⟨rfl, rfl⟩
      simp only [Char.isAlphanum, Char.isAlpha, Char.isUpper, Char.isLower, Char.isDigit,
        Bool.or_eq_true, Bool.and_eq_true, decide_eq_true_eq, UInt32.le_iff_toNat_le] at h
      have hcode : c.val.toNat = c.toNat := rfl
      simp only [hcode] at h
      norm_num at h
      omega
    · decide
  simp only [Char.le_def, UInt32.le_iff_toNat_le]
  exact hrange

theorem not_space_of_printable {c : Char} (h : '-' ≤ c ∧ c ≤ 'z') : PyFloat.isSpace c = false := by
  simp only [Char.le_def, UInt32.le_iff_toNat_le] at h
  have hrange : 45 ≤ c.toNat ∧ c.toNat ≤ 122 := h
  unfold PyFloat.isSpace
  generalize c.toNat = n at hrange
  simp only [Bool.or_eq_false_iff, Bool.and_eq_false_iff, decide_eq_false_iff_not]
  omega

theorem tidy_path (session_id : SessionId) : Tidy (endpoint_path session_id) where
  unbroken := by
    have hplain : Unbroken "/messages?session_id=".toList := by simp [Unbroken, is_break]
    refine unbroken_append hplain (unbroken_of_printable fun c hc => ?_)
    obtain ⟨hlow, hhigh⟩ := printable_of_uuid (session_id.uuid c hc)
    exact ⟨le_trans (by decide) hlow, le_trans hhigh (by decide)⟩
  head := ⟨'/', _, rfl, rfl⟩
  last c hc := by
    have hplain : ∀ d ∈ "/messages?session_id=".toList, PyFloat.isSpace d = false := by
      simp [PyFloat.isSpace]
    rcases List.mem_append.mp (List.mem_of_getLast? hc) with hmem | hmem
    · exact hplain c hmem
    · exact not_space_of_printable (printable_of_uuid (session_id.uuid c hmem))

theorem received_message {message : List Char} (h : Tidy message) (before : Option String) :
    received line_kind before (frame_lines (message_frame message)) = [message_event message] :=
  received_event tidy_message h before

theorem received_endpoint (session_id : SessionId) (before : Option String) :
    received line_kind before (frame_lines (endpoint_frame session_id)) =
      [endpoint_event session_id] :=
  received_event tidy_endpoint (tidy_path session_id) before

theorem received_keepalive (before : Option String) :
    received line_kind before (frame_lines keepalive_frame) = [] := rfl

/-- The server sends its next event. -/
theorem good_send (h : Good reply session_id s seen)
    (hstep : s.step printable settings handler session_id name arguments .send = some s') :
    Good reply session_id s' seen := by
  have hevents := h.events
  unfold Upstream.step at hstep
  dsimp only at hstep
  split at hstep
  · rename_i hopened
    split at hstep
    · cases hstep
    · rename_i message queue hqueue
      have hmem : message_event message ∈ stream_events reply session_id s.stage.served := by
        apply List.mem_of_mem_drop (i := seen)
        rw [← hevents, hqueue]
        simp
      have htidy := tidy_response (response_of_event hmem)
      rw [hqueue, if_pos hopened] at hevents
      cases hstep
      refine { h with events := ?_ }
      dsimp only
      rw [received_append, received_message htidy, if_pos hopened, ← hevents]
      simp
  · rename_i hopened
    rw [if_neg hopened] at hevents
    cases hstep
    refine { h with events := ?_ }
    dsimp only
    rw [received_append, received_endpoint, ← hevents]
    simp

theorem good_keepalive (h : Good reply session_id s seen)
    (hstep : s.step printable settings handler session_id name arguments .keepalive = some s') :
    Good reply session_id s' seen := by
  unfold Upstream.step at hstep
  dsimp only at hstep
  split at hstep
  · cases hstep
    refine { h with events := ?_ }
    rw [← h.events]
    dsimp only
    rw [received_append, received_keepalive, List.append_nil]
  · cases hstep

/-! ## Reading -/

theorem served_lt_of_event {served : Nat} {event : Option String × String}
    (h : (stream_events reply session_id served)[seen]? = some event) : seen ≤ served := by
  have hlt := (List.getElem?_eq_some_iff.mp h).1
  simp only [stream_events, List.length_cons, List.length_map, List.length_take] at hlt
  omega

/-- A message that has an id of a future gives it its result, and another one does nothing. -/
theorem route_reply (r : Reader) (p : Post) :
    r.route loads_json (String.ofList (reply p).response) =
      match r.pending.find? fun n => is_id n (response_id p) with
      | some n =>
        if (r.result n).isSome then r else { r with results := (n, (reply p).dict) :: r.results }
      | none => r := by
  unfold Reader.route
  rw [(reply p).loads]
  simp only [(reply p).id, Option.bind_some]
  all_goals rfl

theorem find_first {stage : Stage} (h : 1 ≤ stage.served) :
    (stage.pending.find? fun n => is_id n (response_id .initializing)) = some 1 := by
  have hpending : stage.pending = [1] ∨ stage.pending = [2, 1] := by
    cases stage with
    | ready => cases h
    | posting p =>
      cases p with
      | initializing => cases h
      | initialized => exact Or.inl rfl
      | calling => exact Or.inr rfl
    | answered p => cases p <;> simp [Stage.pending]
    | waiting p => cases p <;> simp [Stage.pending]
    | done response => exact Or.inr rfl
  rcases hpending with h | h
  · rw [h]
    rfl
  · rw [h]
    rfl

theorem find_second {stage : Stage} (h : 3 ≤ stage.served)
    (hdone : ∀ response, stage ≠ .done response) :
    (stage.pending.find? fun n => is_id n (response_id .calling)) = some 2 := by
  have hpending : stage.pending = [2, 1] := by
    cases stage with
    | ready => cases h
    | posting p => cases p <;> simp [Stage.served] at h
    | answered p => cases p <;> simp [Stage.served, Stage.pending] at h ⊢
    | waiting p => cases p <;> simp [Stage.served, Stage.pending] at h ⊢
    | done response => rfl
  rw [hpending]
  rfl

/-- What the reader is after the next event. -/
theorem deliver_event {r : Reader} {stage : Stage} {event : Option String × String}
    (hevent : (stream_events reply session_id stage.served)[seen]? = some event)
    (hdone : ∀ response, stage ≠ .done response)
    (hpath : r.session_path = if seen = 0 then none
      else some (String.ofList (endpoint_path session_id)))
    (hpending : r.pending = stage.pending) (hresults : r.results = results_after reply seen) :
    (r.deliver loads_json event.1 event.2).session_path =
        some (String.ofList (endpoint_path session_id)) ∧
      (r.deliver loads_json event.1 event.2).pending = stage.pending ∧
      (r.deliver loads_json event.1 event.2).results = results_after reply (seen + 1) := by
  have hle := served_lt_of_event hevent
  cases seen with
  | zero =>
    cases hevent
    have hhead : (String.ofList (endpoint_path session_id)).toList.head? = some '/' := by
      rw [String.toList_ofList]
      rfl
    have hnone : r.session_path.isNone = true := by rw [hpath]; rfl
    unfold Reader.deliver endpoint_event
    rw [if_pos ⟨hnone, hhead⟩]
    exact ⟨rfl, hpending, hresults⟩
  | succ i =>
    -- the endpoint was seen, and the event is the next response
    have hsome : r.session_path = some (String.ofList (endpoint_path session_id)) := hpath
    have hresponse : ∃ p, event = message_event (reply p).response ∧
        (i = 0 ∧ p = .initializing ∨ i = 1 ∧ p = .initialized ∨ i = 2 ∧ p = .calling) := by
      unfold stream_events at hevent
      rw [List.getElem?_cons_succ, List.getElem?_map] at hevent
      obtain ⟨message, hmessage, rfl⟩ := Option.map_eq_some_iff.mp hevent
      rw [List.getElem?_take_of_lt (by omega)] at hmessage
      match i, hmessage with
      | 0, h =>
        cases h
        exact ⟨.initializing, rfl, Or.inl ⟨rfl, rfl⟩⟩
      | 1, h =>
        cases h
        exact ⟨.initialized, rfl, Or.inr (Or.inl ⟨rfl, rfl⟩)⟩
      | 2, h =>
        cases h
        exact ⟨.calling, rfl, Or.inr (Or.inr ⟨rfl, rfl⟩)⟩
      | n + 3, h => cases h
    obtain ⟨p, rfl, hp⟩ := hresponse
    have hbrace := (reply p).brace
    have hroute : r.deliver loads_json (message_event (reply p).response).1
        (message_event (reply p).response).2 =
          r.route loads_json (String.ofList (reply p).response) := by
      unfold Reader.deliver message_event
      rw [if_neg (by simp [hsome]), if_pos]
      refine ⟨rfl, fun h => ?_⟩
      rw [String.toList_ofList] at h
      rw [h] at hbrace
      cases hbrace
    rw [hroute, route_reply]
    rcases hp with ⟨rfl, rfl⟩ | ⟨rfl, rfl⟩ | ⟨rfl, rfl⟩
    · have hfind : (r.pending.find? fun n => is_id n (response_id .initializing)) = some 1 := by
        rw [hpending]
        exact find_first (by omega)
      have hnone : r.result 1 = none := by
        rw [Reader.result, hresults]
        rfl
      rw [hfind]
      simp only [hnone, Option.isSome_none, Bool.false_eq_true, if_false]
      refine ⟨hsome, hpending, ?_⟩
      rw [hresults]
      rfl
    · have hfind : (r.pending.find? fun n => is_id n (response_id .initialized)) = none :=
        List.find?_eq_none.mpr fun n _ => by simp [is_id, response_id]
      rw [hfind]
      exact ⟨hsome, hpending, hresults⟩
    · have hfind : (r.pending.find? fun n => is_id n (response_id .calling)) = some 2 := by
        rw [hpending]
        exact find_second (by omega) hdone
      have hnone : r.result 2 = none := by
        rw [Reader.result, hresults]
        rfl
      rw [hfind]
      simp only [hnone, Option.isSome_none, Bool.false_eq_true, if_false]
      refine ⟨hsome, hpending, ?_⟩
      rw [hresults]
      rfl

/-- The reader takes the next line. -/
theorem good_read (h : Good reply session_id s seen)
    (hstep : s.step printable settings handler session_id name arguments .read = some s') :
    ∃ seen', Good reply session_id s' seen' := by
  have hevents := h.events
  unfold Upstream.step at hstep
  dsimp only at hstep
  split at hstep
  · cases hstep
  · cases hstep
  · rename_i line wire hwire hdone
    cases hstep
    rw [hwire, received] at hevents
    cases hkind : line_kind line with
    | event n =>
      rw [hkind] at hevents
      refine ⟨seen, ?_, h.le, h.passed, ?_, ?_, ?_, h.response⟩
      all_goals dsimp only
      all_goals rw [read_line_eq, hkind]
      · exact hevents
      · exact h.session_path
      · exact h.pending
      · exact h.results
    | other =>
      rw [hkind] at hevents
      refine ⟨seen, ?_, h.le, h.passed, ?_, ?_, ?_, h.response⟩
      all_goals dsimp only
      all_goals rw [read_line_eq, hkind]
      · exact hevents
      · exact h.session_path
      · exact h.pending
      · exact h.results
    | data data =>
      rw [hkind] at hevents
      obtain ⟨hevent, hrest⟩ := of_drop_eq_cons hevents.symm
      obtain ⟨hpath, hpending, hresults⟩ :=
        deliver_event hevent hdone h.session_path h.pending h.results
      refine ⟨seen + 1, ?_, ?_, ?_, ?_, ?_, ?_, h.response⟩
      all_goals dsimp only
      · rw [read_line_eq, hkind]
        exact hrest.symm
      · exact Nat.succ_le_succ (served_lt_of_event hevent)
      · exact Nat.le_succ_of_le h.passed
      · rw [read_line_eq, hkind]
        exact hpath
      · rw [read_line_eq, hkind]
        exact hpending
      · rw [read_line_eq, hkind]
        exact hresults

/-- The server answers the post that is on its way. -/
theorem good_serve (h : Good reply session_id s seen)
    (hstep : s.step printable settings handler session_id name arguments .serve = some s') :
    Good reply session_id s' seen := by
  have hevents := h.events
  have hle := h.le
  have hpassed := h.passed
  have hpending := h.pending
  unfold Upstream.step at hstep
  dsimp only at hstep
  split at hstep
  · rename_i p hstage
    rw [(reply p).handled] at hstep
    cases hstep
    rw [hstage] at hevents hle hpassed hpending
    have hnext : (Stage.answered p).served = (Stage.posting p).served + 1 := by
      cases p <;> rfl
    have hsame : (Stage.answered p).passed = (Stage.posting p).passed := by
      cases p <;> rfl
    have hfutures : (Stage.answered p).pending = (Stage.posting p).pending := by
      cases p <;> rfl
    refine ⟨?_, ?_, ?_, h.session_path, ?_, h.results, fun _ h => nomatch h⟩
    all_goals dsimp only
    · have hmore : stream_events reply session_id (Stage.answered p).served =
          stream_events reply session_id (Stage.posting p).served ++
            [message_event (reply p).response] := by
        cases p <;> rfl
      have hlength : seen ≤ (stream_events reply session_id (Stage.posting p).served).length := by
        cases p <;> simpa [stream_events, responses, Stage.served] using hle
      rw [hmore, List.drop_append_of_le_length hlength, ← hevents]
      simp
    · omega
    · omega
    · rw [hfutures]
      exact hpending
  · cases hstep

/-- A step of the gateway leaves the stream as it is. -/
theorem good_of_stage (h : Good reply session_id s seen) {stage : Stage} {reader : Reader}
    (hserved : stage.served = s.stage.served) (hpassed : stage.passed ≤ seen)
    (hreader : reader = { s.reader with pending := stage.pending })
    (hresponse : ∀ response, stage = .done response → response = (reply .calling).dict) :
    Good reply session_id { s with reader, stage } seen where
  events := by
    rw [hreader]
    dsimp only
    rw [hserved]
    exact h.events
  le := by
    dsimp only
    rw [hserved]
    exact h.le
  passed := hpassed
  session_path := by
    rw [hreader]
    exact h.session_path
  pending := by rw [hreader]
  results := by
    rw [hreader]
    exact h.results
  response := hresponse

theorem good_post (h : Good reply session_id s seen)
    (hstep : s.step printable settings handler session_id name arguments .post = some s') :
    Good reply session_id s' seen := by
  have hpending := h.pending
  have hpath := h.session_path
  unfold Upstream.step at hstep
  dsimp only at hstep
  split at hstep
  · rename_i hstage
    split at hstep
    · rename_i hready
      cases hstep
      rw [hstage] at hpending
      apply good_of_stage h
      · rw [hstage]
        rfl
      · rw [hpath] at hready
        split at hready
        · cases hready
        · exact Nat.one_le_iff_ne_zero.mpr (by assumption)
      · rw [Reader.expect, hpending]
        rfl
      · exact fun _ h => nomatch h
    · cases hstep
  · cases hstep

theorem good_accepted (h : Good reply session_id s seen)
    (hstep : s.step printable settings handler session_id name arguments .accepted = some s') :
    Good reply session_id s' seen := by
  have hpending := h.pending
  have hpassed := h.passed
  unfold Upstream.step at hstep
  dsimp only at hstep
  split at hstep
  · rename_i hstage
    cases hstep
    rw [hstage] at hpending hpassed
    apply good_of_stage h
    · rw [hstage]
      rfl
    · exact hpassed
    · rw [Reader.expect, hpending]
      rfl
    · exact fun _ h => nomatch h
  · rename_i p hne hstage
    cases hstep
    rw [hstage] at hpending hpassed
    apply good_of_stage h
    · rw [hstage]
      cases p <;> rfl
    · cases p <;> exact hpassed
    · cases p with
      | initializing => rw [show (Stage.waiting .initializing).pending = s.reader.pending from hpending.symm]
      | initialized => exact absurd rfl hne
      | calling => rw [show (Stage.waiting .calling).pending = s.reader.pending from hpending.symm]
    · exact fun _ h => nomatch h
  · cases hstep

/-- A future has a result only when its response was seen. -/
theorem seen_of_result {n : Nat} {response : Dict} (h : Good reply session_id s seen)
    (hresult : s.reader.result n = some response) :
    2 ≤ seen ∧ (n = 2 → 4 ≤ seen ∧ response = (reply .calling).dict) := by
  rw [Reader.result, h.results, results_after] at hresult
  split at hresult
  · cases hresult
  · rename_i hseen
    refine ⟨by omega, fun hn => ?_⟩
    subst hn
    split at hresult
    · cases hresult
    · rename_i hall
      refine ⟨by omega, ?_⟩
      cases hresult
      rfl

theorem good_receive (h : Good reply session_id s seen)
    (hstep : s.step printable settings handler session_id name arguments .receive = some s') :
    Good reply session_id s' seen := by
  have hpending := h.pending
  unfold Upstream.step at hstep
  dsimp only at hstep
  split at hstep
  · rename_i hstage
    split at hstep
    · rename_i hready
      cases hstep
      obtain ⟨response, hresult⟩ := Option.isSome_iff_exists.mp hready
      rw [hstage] at hpending
      apply good_of_stage h
      · rw [hstage]
        rfl
      · exact (seen_of_result h hresult).1
      · rw [show (Stage.posting .initialized).pending = s.reader.pending from hpending.symm]
      · exact fun _ h => nomatch h
    · cases hstep
  · rename_i hstage
    split at hstep
    · rename_i response hresult
      cases hstep
      obtain ⟨hall, heq⟩ := (seen_of_result h hresult).2 rfl
      rw [hstage] at hpending
      apply good_of_stage h
      · rw [hstage]
        rfl
      · exact hall
      · rw [show (Stage.done response).pending = s.reader.pending from hpending.symm]
      · intro response' h
        cases h
        exact heq
    · cases hstep
  · cases hstep

/-- Every step keeps the invariant. -/
theorem good_step {a : UpstreamAct} (h : Good reply session_id s seen)
    (hstep : s.step printable settings handler session_id name arguments a = some s') :
    ∃ seen', Good reply session_id s' seen' := by
  cases a with
  | send => exact ⟨seen, good_send h hstep⟩
  | keepalive => exact ⟨seen, good_keepalive h hstep⟩
  | read => exact good_read h hstep
  | post => exact ⟨seen, good_post h hstep⟩
  | serve => exact ⟨seen, good_serve h hstep⟩
  | accepted => exact ⟨seen, good_accepted h hstep⟩
  | receive => exact ⟨seen, good_receive h hstep⟩

theorem good_run {acts : List UpstreamAct} (h : Good reply session_id s seen)
    (hrun : s.run printable settings handler session_id name arguments acts = some s') :
    ∃ seen', Good reply session_id s' seen' := by
  refine keeps_run (fun s => ∃ seen, Good reply session_id s seen) ?_ ⟨seen, h⟩ hrun
  rintro s a s' ⟨seen, hgood⟩ hstep
  exact good_step hgood hstep

end Invariant

/-! ## The exchange of a run -/

/-- The reader of an exchange at the post. -/
def Exchange.reader_at (x : Exchange) : Option Post → Reader
  | none => x.at_ready loads_json
  | some .initializing => x.at_initialized loads_json
  | some .initialized => (x.at_initialized loads_json).read_lines loads_json x.during_notification
  | some .calling => x.at_response loads_json 2

/-- No line of a later post was read. -/
def Exchange.Before (x : Exchange) : Option Post → Prop
  | none => x.until_initialized = [] ∧ x.during_notification = [] ∧ x.until_response = []
  | some .initializing => x.during_notification = [] ∧ x.until_response = []
  | some .initialized => x.until_response = []
  | some .calling => True

/-- The waits before the post are over. -/
def Exchange.Passed (x : Exchange) : Option Post → Prop
  | none => True
  | some .initializing => (x.at_ready loads_json).session_path.isSome = true
  | some _ =>
    (x.at_ready loads_json).session_path.isSome = true ∧
      ((x.at_initialized loads_json).result 1).isSome = true

/-- Nothing fails but what the messages make fail. -/
structure Exchange.Plain (x : Exchange) : Prop extends x.Clean where
  initialize_post : x.initialize_post = .ok ()
  notification_post : x.notification_post = .ok ()
  call_post : x.call_post = .ok ()

/-- The reader of a run is the one of its exchange. -/
structure Traced (s : Upstream) : Prop where
  plain : s.seen.Plain
  reader : s.reader = s.seen.reader_at s.stage.post
  before : s.seen.Before s.stage.post
  passed : s.seen.Passed s.stage.post
  response : ∀ response, s.stage = .done response →
    (s.seen.at_response loads_json 2).result 2 = some response

theorem read_lines_snoc (r : Reader) (lines : List String) (line : String) :
    r.read_lines loads_json (lines ++ [line]) =
      (r.read_lines loads_json lines).read_line loads_json line := by
  unfold Reader.read_lines
  rw [List.foldl_append]
  rfl

theorem plain_saw {x : Exchange} (h : x.Plain) (line : String) (p : Option Post) :
    (x.saw line p).Plain := by
  obtain ⟨⟨h1, h2, h3, h4, h5⟩, h6, h7, h8⟩ := h
  match p with
  | none => exact ⟨⟨h1, h2, h3, h4, h5⟩, h6, h7, h8⟩
  | some .initializing => exact ⟨⟨h1, h2, h3, h4, h5⟩, h6, h7, h8⟩
  | some .initialized => exact ⟨⟨h1, h2, h3, h4, h5⟩, h6, h7, h8⟩
  | some .calling => exact ⟨⟨h1, h2, h3, h4, h5⟩, h6, h7, h8⟩

/-- A line that is read moves the reader of the exchange, and no earlier one. -/
theorem saw_reader (x : Exchange) (line : String) (p : Option Post) :
    (x.saw line p).reader_at p = (x.reader_at p).read_line loads_json line ∧
      (x.Before p → (x.saw line p).Before p) ∧ (x.Passed p → (x.saw line p).Passed p) := by
  match p with
  | none => exact ⟨read_lines_snoc _ _ line, id, id⟩
  | some .initializing => exact ⟨read_lines_snoc _ _ line, id, id⟩
  | some .initialized => exact ⟨read_lines_snoc _ _ line, id, id⟩
  | some .calling => exact ⟨read_lines_snoc _ _ line, id, id⟩

section Traced

variable {printable : CodePoint → Bool} {settings : McpServerSettings}
  {handler : String → PyJson → Except PyStr PyJson} {session_id : SessionId}
  {name : String} {arguments : Json} {s s' : Upstream}

theorem traced_start : Traced {} where
  plain := ⟨⟨rfl, rfl, rfl, rfl, rfl⟩, rfl, rfl, rfl⟩
  reader := rfl
  before := ⟨rfl, rfl, rfl⟩
  passed := trivial
  response := fun _ h => nomatch h

/-- A step that belongs to the same post. -/
theorem Traced.same (h : Traced s) {opened : Bool} {queue : List (List Char)} {wire : List String}
    {stage : Stage} (hpost : stage.post = s.stage.post)
    (hdone : ∀ response, stage = .done response → s.reader.result 2 = some response) :
    Traced { s with opened, queue, wire, stage } where
  plain := h.plain
  reader := by
    dsimp only
    rw [hpost]
    exact h.reader
  before := by
    dsimp only
    rw [hpost]
    exact h.before
  passed := by
    dsimp only
    rw [hpost]
    exact h.passed
  response response hstage := by
    have hreader := h.reader
    dsimp only at hstage ⊢
    rw [hstage] at hpost
    rw [← hpost] at hreader
    rw [← hdone response hstage, hreader]
    rfl

theorem traced_step {a : UpstreamAct} (h : Traced s)
    (hstep : s.step printable settings handler session_id name arguments a = some s') :
    Traced s' := by
  have hsame (response : Dict) (hstage : s.stage = .done response) :
      s.reader.result 2 = some response := by
    have hreader := h.reader
    rw [hstage] at hreader
    rw [hreader]
    exact h.response response hstage
  have hreader := h.reader
  have hbefore := h.before
  have hpassed := h.passed
  cases a with
  | send =>
    unfold Upstream.step at hstep
    dsimp only at hstep
    split at hstep
    · split at hstep
      · cases hstep
      · cases hstep
        exact h.same rfl hsame
    · cases hstep
      exact h.same rfl hsame
  | keepalive =>
    unfold Upstream.step at hstep
    dsimp only at hstep
    split at hstep
    · cases hstep
      exact h.same rfl hsame
    · cases hstep
  | read =>
    unfold Upstream.step at hstep
    dsimp only at hstep
    split at hstep
    · cases hstep
    · cases hstep
    · rename_i line wire hwire hdone
      cases hstep
      obtain ⟨hread, hlater, hearlier⟩ := saw_reader s.seen line s.stage.post
      refine ⟨plain_saw h.plain line _, ?_, hlater hbefore, hearlier hpassed, ?_⟩
      · dsimp only
        rw [hread, hreader]
      · exact fun response hstage => (hdone response hstage).elim
  | post =>
    unfold Upstream.step at hstep
    dsimp only at hstep
    split at hstep
    · rename_i hstage
      split at hstep
      · rename_i hready
        cases hstep
        rw [hstage] at hreader hbefore
        obtain ⟨hnone, hrest⟩ := hbefore
        refine ⟨h.plain, ?_, hrest, ?_, fun _ h => nomatch h⟩
        · dsimp only
          rw [hreader]
          simp only [Stage.post, Exchange.reader_at, Exchange.at_initialized, hnone]
          rfl
        · rw [hreader] at hready
          exact hready
      · cases hstep
    · cases hstep
  | serve =>
    unfold Upstream.step at hstep
    dsimp only at hstep
    split at hstep
    · rename_i p hstage
      split at hstep
      · cases hstep
        exact h.same (by rw [hstage]; rfl) fun _ h => nomatch h
      · cases hstep
        exact h.same (by rw [hstage]; rfl) fun _ h => nomatch h
    · cases hstep
  | accepted =>
    unfold Upstream.step at hstep
    dsimp only at hstep
    split at hstep
    · rename_i hstage
      cases hstep
      rw [hstage] at hreader hbefore hpassed
      refine ⟨h.plain, ?_, trivial, hpassed, fun _ h => nomatch h⟩
      dsimp only
      rw [hreader]
      have hnone : s.seen.until_response = [] := hbefore
      simp only [Stage.post, Exchange.reader_at, Exchange.at_response, hnone]
      rfl
    · rename_i p hne hstage
      cases hstep
      exact h.same (by rw [hstage]; rfl) fun _ h => nomatch h
    · cases hstep
  | receive =>
    unfold Upstream.step at hstep
    dsimp only at hstep
    split at hstep
    · rename_i hstage
      split at hstep
      · rename_i hready
        cases hstep
        rw [hstage] at hreader hbefore hpassed
        obtain ⟨hnone, hrest⟩ := hbefore
        refine ⟨h.plain, ?_, hrest, ⟨hpassed, ?_⟩, fun _ h => nomatch h⟩
        · dsimp only
          rw [hreader]
          simp only [Stage.post, Exchange.reader_at, hnone]
          rfl
        · rw [hreader] at hready
          exact hready
      · cases hstep
    · rename_i hstage
      split at hstep
      · rename_i response hresult
        cases hstep
        refine h.same (by rw [hstage]; rfl) fun response' h => ?_
        cases h
        exact hresult
      · cases hstep
    · cases hstep

theorem traced_run {acts : List UpstreamAct} (h : Traced s)
    (hrun : s.run printable settings handler session_id name arguments acts = some s') :
    Traced s' :=
  keeps_run Traced traced_step h hrun

/-- A run that is over is an exchange whose call gives the response. -/
theorem Traced.call_tool {response : Dict} (h : Traced s) (hdone : s.stage = .done response)
    (herror : Dict.get response "error" = none) :
    (s.seen.call_tool loads_json (.str name) arguments).1 = .ok response := by
  obtain ⟨hclean, hinitialize, hnotification, hcall⟩ := h.plain
  have hpassed := h.passed
  rw [hdone] at hpassed
  obtain ⟨hpath, hfirst⟩ := hpassed
  have hreply : s.seen.reply loads_json 2 = some response := by
    unfold Exchange.reply
    rw [if_pos ⟨hpath, hinitialize, hfirst, hnotification, hcall⟩]
    exact h.response response hdone
  unfold Exchange.call_tool
  have hrpc := @Exchange.one_shot_rpc_of_clean loads_json s.seen hclean "tools/call"
    (.obj [("name", .str name), ("arguments", arguments)]) 2
  rcases hrpc with ⟨response', hok, hreply', -⟩ | ⟨message, code, -, hno⟩
  · rw [hreply] at hreply'
    cases hreply'
    exact hok
  · exact absurd herror (hno response hreply)

end Traced

/-! ## No run is stuck -/

/-- What is left of `_one_shot_rpc`. -/
def Stage.left : Stage → Nat
  | .ready => 9
  | .posting .initializing => 8
  | .answered .initializing => 7
  | .waiting .initializing => 6
  | .posting .initialized => 5
  | .answered .initialized => 4
  | .waiting .initialized => 4
  | .posting .calling => 3
  | .answered .calling => 2
  | .waiting .calling => 1
  | .done _ => 0

section Progress

open Upstream (step)

variable (printable : CodePoint → Bool) (settings : McpServerSettings)
  (handler : String → PyJson → Except PyStr PyJson) (session_id : SessionId)
  (name : String) (arguments : Json) {s s' : Upstream}

/-- The notification has no id, so its response is not waited for. -/
theorem not_waiting_step {a : UpstreamAct} (h : s.stage ≠ .waiting .initialized)
    (hstep : s.step printable settings handler session_id name arguments a = some s') :
    s'.stage ≠ .waiting .initialized := by
  intro hstage
  cases a with
  | send =>
    unfold Upstream.step at hstep
    dsimp only at hstep
    split at hstep
    · split at hstep
      · cases hstep
      · cases hstep
        exact h hstage
    · cases hstep
      exact h hstage
  | keepalive =>
    unfold Upstream.step at hstep
    dsimp only at hstep
    split at hstep
    · cases hstep
      exact h hstage
    · cases hstep
  | read =>
    unfold Upstream.step at hstep
    dsimp only at hstep
    split at hstep
    · cases hstep
    · cases hstep
    · cases hstep
      exact h hstage
  | post =>
    unfold Upstream.step at hstep
    dsimp only at hstep
    split at hstep
    · split at hstep
      · cases hstep
        cases hstage
      · cases hstep
    · cases hstep
  | serve =>
    unfold Upstream.step at hstep
    dsimp only at hstep
    split at hstep
    · split at hstep
      · cases hstep
        cases hstage
      · cases hstep
        cases hstage
    · cases hstep
  | accepted =>
    unfold Upstream.step at hstep
    dsimp only at hstep
    split at hstep
    · cases hstep
      cases hstage
    · rename_i p hne hanswered
      cases hstep
      cases hstage
      exact hne rfl
    · cases hstep
  | receive =>
    unfold Upstream.step at hstep
    dsimp only at hstep
    split at hstep
    · split at hstep
      · cases hstep
        cases hstage
      · cases hstep
    · split at hstep
      · cases hstep
        cases hstage
      · cases hstep
    · cases hstep

theorem step_read {line : String} {wire : List String} (hwire : s.wire = line :: wire)
    (hdone : ∀ response, s.stage ≠ .done response) :
    s.step printable settings handler session_id name arguments .read =
      some { s with wire, reader := s.reader.read_line loads_json line,
                    seen := s.seen.saw line s.stage.post } := by
  unfold Upstream.step
  simp only [hwire]

/-- The reader can read all that is on the wire. -/
theorem reads_wire (hdone : ∀ response, s.stage ≠ .done response) :
    ∃ s', Leads (step printable settings handler session_id name arguments) s s' ∧
      s'.stage = s.stage ∧ s'.opened = s.opened ∧ s'.queue = s.queue ∧ s'.wire = [] := by
  induction hwire : s.wire generalizing s with
  | nil => exact ⟨s, Leads.rfl, rfl, rfl, rfl, hwire⟩
  | cons line wire ih =>
    have hstep := step_read printable settings handler session_id name arguments hwire hdone
    obtain ⟨s', hleads, hstage, hopened, hqueue, hnil⟩ := ih (s := { s with
      wire, reader := s.reader.read_line loads_json line, seen := s.seen.saw line s.stage.post })
      hdone rfl
    exact ⟨s', (Leads.of_step hstep).trans hleads, hstage, hopened, hqueue, hnil⟩

/-- The server can send all that it has, and the reader can read it. -/
theorem drains_queue (hopened : s.opened = true) (hdone : ∀ response, s.stage ≠ .done response) :
    ∃ s', Leads (step printable settings handler session_id name arguments) s s' ∧
      s'.stage = s.stage ∧ s'.opened = true ∧ s'.queue = [] ∧ s'.wire = [] := by
  induction hqueue : s.queue generalizing s with
  | nil =>
    obtain ⟨s', hleads, hstage, hopened', hqueue', hwire⟩ := reads_wire printable settings
      handler session_id name arguments hdone
    exact ⟨s', hleads, hstage, hopened'.trans hopened, hqueue'.trans hqueue, hwire⟩
  | cons message queue ih =>
    have hstep : s.step printable settings handler session_id name arguments .send =
        some { s with queue, wire := s.wire ++ frame_lines (message_frame message) } := by
      unfold Upstream.step
      simp only [hopened, hqueue, if_true]
    obtain ⟨s', hleads, hrest⟩ := ih (s := { s with
      queue, wire := s.wire ++ frame_lines (message_frame message) }) hopened hdone rfl
    exact ⟨s', (Leads.of_step hstep).trans hleads, hrest⟩

theorem drains (hdone : ∀ response, s.stage ≠ .done response) :
    ∃ s', Leads (step printable settings handler session_id name arguments) s s' ∧
      s'.stage = s.stage ∧ s'.opened = true ∧ s'.queue = [] ∧ s'.wire = [] := by
  cases hopened : s.opened with
  | true => exact drains_queue printable settings handler session_id name arguments hopened hdone
  | false =>
    have hstep : s.step printable settings handler session_id name arguments .send =
        some { s with opened := true, wire := s.wire ++ frame_lines (endpoint_frame session_id) } := by
      unfold Upstream.step
      simp [hopened]
    obtain ⟨s', hleads, hrest⟩ := drains_queue printable settings handler session_id
      name arguments (s := { s with opened := true, wire := s.wire ++ frame_lines (endpoint_frame session_id) })
      rfl hdone
    exact ⟨s', (Leads.of_step hstep).trans hleads, hrest⟩

variable {printable settings handler session_id name arguments}
  {reply : ∀ p, Reply printable settings handler name arguments p} {seen : Nat}

/-- When nothing is on its way, the reader has seen every response that there is. -/
theorem seen_of_quiet (h : Good reply session_id s seen) (hopened : s.opened = true)
    (hqueue : s.queue = []) (hwire : s.wire = []) : seen = s.stage.served + 1 := by
  have hle := h.le
  have hevents := h.events
  have hserved : s.stage.served ≤ 3 := by
    cases s.stage with
    | ready => exact Nat.zero_le 3
    | posting p => cases p <;> simp [Stage.served]
    | answered p => cases p <;> simp [Stage.served]
    | waiting p => cases p <;> simp [Stage.served]
    | done response => exact Nat.le_refl 3
  rw [hopened, hqueue, hwire] at hevents
  have hnil := congrArg List.length hevents
  simp [received, stream_events, responses] at hnil
  omega

/-- A quiet exchange that is not over can take a step forward. -/
theorem steps_forward (h : Good reply session_id s seen) (hwaiting : s.stage ≠ .waiting .initialized)
    (hdone : ∀ response, s.stage ≠ .done response) (hseen : seen = s.stage.served + 1) :
    ∃ a s', s.step printable settings handler session_id name arguments a = some s' ∧
      s'.stage.left < s.stage.left := by
  have hpath := h.session_path
  have hresults := h.results
  have hresult (n : Nat) : s.reader.result n =
      ((results_after reply seen).find? (fun r => r.1 = n)).map (·.2) := by
    rw [← hresults]
    rfl
  cases hstage : s.stage with
  | ready =>
    have hready : s.reader.session_path.isSome = true := by
      rw [hpath, if_neg (by omega)]
      rfl
    refine ⟨.post, { s with reader := s.reader.expect 1, stage := .posting .initializing }, ?_, ?_⟩
    · unfold Upstream.step
      simp only [hstage, hready, if_true]
    · simp [Stage.left]
  | posting p =>
    refine ⟨.serve, { s with queue := s.queue ++ [(reply p).response], stage := .answered p }, ?_, ?_⟩
    · unfold Upstream.step
      simp only [hstage, (reply p).handled]
    · cases p <;> simp [Stage.left]
  | answered p =>
    cases p with
    | initializing =>
      refine ⟨.accepted, { s with stage := .waiting .initializing }, ?_, ?_⟩
      · unfold Upstream.step
        simp only [hstage]
      · simp [Stage.left]
    | initialized =>
      refine ⟨.accepted, { s with reader := s.reader.expect 2, stage := .posting .calling }, ?_, ?_⟩
      · unfold Upstream.step
        simp only [hstage]
      · simp [Stage.left]
    | calling =>
      refine ⟨.accepted, { s with stage := .waiting .calling }, ?_, ?_⟩
      · unfold Upstream.step
        simp only [hstage]
      · simp [Stage.left]
  | waiting p =>
    rw [hstage] at hseen
    cases p with
    | initializing =>
      have hfirst : (s.reader.result 1).isSome = true := by
        rw [hresult, hseen]
        rfl
      refine ⟨.receive, { s with stage := .posting .initialized }, ?_, ?_⟩
      · unfold Upstream.step
        simp only [hstage, hfirst, if_true]
      · simp [Stage.left]
    | initialized => exact absurd hstage hwaiting
    | calling =>
      have hsecond : s.reader.result 2 = some (reply .calling).dict := by
        rw [hresult, hseen]
        rfl
      refine ⟨.receive, { s with stage := .done (reply .calling).dict }, ?_, ?_⟩
      · unfold Upstream.step
        simp only [hstage, hsecond]
      · simp [Stage.left]
  | done response => exact absurd hstage (hdone response)

/-- Every state of a run leads to a response. -/
theorem leads_to_response (h : Good reply session_id s seen)
    (hwaiting : s.stage ≠ .waiting .initialized) :
    ∃ s', Leads (step printable settings handler session_id name arguments) s s' ∧
      ∃ response, s'.stage = .done response := by
  let inv (s : Upstream) : Prop :=
    (∃ seen, Good reply session_id s seen) ∧ s.stage ≠ .waiting .initialized
  have hkeeps : ∀ {s a s'}, inv s →
      s.step printable settings handler session_id name arguments a = some s' → inv s' := by
    rintro s a s' ⟨⟨seen, hgood⟩, hnot⟩ hstep
    exact ⟨good_step hgood hstep, not_waiting_step _ _ _ _ _ _ hnot hstep⟩
  refine leads_to_goal inv (fun s => s.stage.left) (fun s hs hgoal => ?_) ⟨⟨seen, h⟩, hwaiting⟩
  have hdone : ∀ response, s.stage ≠ .done response := fun response h => hgoal ⟨response, h⟩
  obtain ⟨quiet, hquiet, hstage, hopened, hqueue, hwire⟩ := drains printable settings handler
    session_id name arguments hdone
  obtain ⟨⟨seen', hgood⟩, hnot⟩ := hquiet.keeps inv hkeeps hs
  obtain ⟨a, s', hstep, hless⟩ := steps_forward hgood hnot (by rw [hstage]; exact hdone)
    (seen_of_quiet hgood hopened hqueue hwire)
  have hleads := hquiet.trans (Leads.of_step hstep)
  refine ⟨s', hleads, hleads.keeps inv hkeeps hs, ?_⟩
  rw [hstage] at hless
  exact hless

end Progress

/-! ## What the gateway gets -/

section Transparent

variable {printable : CodePoint → Bool} {settings : McpServerSettings}
  {handler : String → PyJson → Except PyStr PyJson} {session_id : SessionId}
  {name : String} {arguments : Json} {s : Upstream}

variable (printable settings handler arguments) in
theorem exists_replies (hname : name ∈ HANDLERS) :
    ∃ reply : ∀ p, Reply printable settings handler name arguments p,
      Dict.get (reply .calling).dict "error" = none ∧
        Dict.get (reply .calling).dict "result" = some (to_json
          (read_back (call_result handler name (call_arguments arguments)))) := by
  obtain ⟨first⟩ := initialize_reply printable settings handler name arguments
  obtain ⟨second⟩ := notification_reply printable settings handler name arguments
  obtain ⟨third, hthird⟩ := call_reply printable settings handler arguments hname
  exact ⟨fun
    | .initializing => first
    | .initialized => second
    | .calling => third, hthird⟩

/-- From the start, a response can be reached. -/
theorem start_leads_to_response (hname : name ∈ HANDLERS) :
    ∃ acts s response, Upstream.run printable settings handler session_id name arguments {} acts =
      some s ∧ s.stage = .done response := by
  obtain ⟨reply, -⟩ := exists_replies printable settings handler arguments hname
  have hstart : Good reply session_id {} 0 := good_start
  obtain ⟨s, ⟨acts, hrun⟩, response, hdone⟩ := leads_to_response hstart nofun
  exact ⟨acts, s, response, hrun, hdone⟩

/-- However the steps are interleaved, the response that the gateway gets has the result of the
handler, and it is the one of the call of the exchange. -/
theorem response_is_result_of_handler (hname : name ∈ HANDLERS) (acts : List UpstreamAct)
    (hrun : Upstream.run printable settings handler session_id name arguments {} acts = some s)
    {response : Dict} (hdone : s.stage = .done response) :
    (s.seen.call_tool loads_json (.str name) arguments).1 = .ok response ∧
      Dict.get response "result" = some (to_json
        (read_back (call_result handler name (call_arguments arguments)))) := by
  obtain ⟨reply, herror, hresult⟩ := exists_replies printable settings handler arguments hname
  have hstart : Good reply session_id {} 0 := good_start
  obtain ⟨seen, hgood⟩ := good_run hstart hrun
  have heq : response = (reply .calling).dict := hgood.response response hdone
  subst heq
  exact ⟨(traced_run traced_start hrun).call_tool hdone herror, hresult⟩

/-- Whatever the steps were, the exchange can still come to its response. -/
theorem run_leads_to_response (hname : name ∈ HANDLERS) (acts : List UpstreamAct)
    (hrun : Upstream.run printable settings handler session_id name arguments {} acts = some s) :
    ∃ more s' response, s.run printable settings handler session_id name arguments more = some s' ∧
      s'.stage = .done response := by
  obtain ⟨reply, -⟩ := exists_replies printable settings handler arguments hname
  have hstart : Good reply session_id {} 0 := good_start
  obtain ⟨seen, hgood⟩ := good_run hstart hrun
  have hready : ({} : Upstream).stage ≠ .waiting .initialized := nofun
  have hwaiting : s.stage ≠ .waiting .initialized :=
    keeps_run (fun s => s.stage ≠ .waiting .initialized) (not_waiting_step _ _ _ _ _ _) hready hrun
  obtain ⟨s', ⟨more, hmore⟩, response, hdone⟩ := leads_to_response hgood hwaiting
  exact ⟨more, s', response, hmore, hdone⟩

end Transparent

/-- A server whose tools all return an empty dict. -/
def empty_handler (_ : String) (_ : PyJson) : Except PyStr PyJson := .ok (.dict [])

def zero_session : SessionId := ⟨['0'], fun _ h => Or.inl (by rw [List.mem_singleton.mp h]; rfl)⟩

theorem empty_result_is_forwarded :
    ∃ acts s response, Upstream.run (fun _ => true) {} empty_handler zero_session "get_symbol_snapshot"
        .null {} acts = some s ∧ s.stage = .done response ∧
      (s.seen.call_tool loads_json (.str "get_symbol_snapshot") .null).1 = .ok response ∧
        Dict.get response "result" = some (to_json (read_back
          (call_result empty_handler "get_symbol_snapshot" (call_arguments .null)))) := by
  have hname : "get_symbol_snapshot" ∈ HANDLERS := by simp [HANDLERS]
  obtain ⟨acts, s, response, hrun, hdone⟩ := start_leads_to_response hname
  obtain ⟨hok, hresult⟩ := response_is_result_of_handler hname acts hrun hdone
  exact ⟨acts, s, response, hrun, hdone, hok, hresult⟩

theorem a_started_exchange_leads_to_response :
    ∃ more s' response, Upstream.run (fun _ => true) {} empty_handler zero_session "get_symbol_snapshot"
      .null { opened := true, wire := frame_lines (endpoint_frame zero_session) } more = some s' ∧
        s'.stage = .done response := by
  have hname : "get_symbol_snapshot" ∈ HANDLERS := by simp [HANDLERS]
  exact run_leads_to_response hname [.send] rfl

end trading_platform.mcp_web_gateway
