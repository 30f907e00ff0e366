-- One exchange of the MCP web gateway with the internal MCP server. A reader task routes the
-- lines of the event stream to the futures of the requests, and the requests are posted in
-- turn. What fails inside the `try` comes out as an `UpstreamError`; what fails around it
-- comes out as it is.
import TradingPlatform.Shared.Float
import TradingPlatform.Shared.Schemas

open trading_platform.shared

namespace trading_platform.mcp_web_gateway

/-! ## Python values -/

/-- A dict that was read from JSON. -/
abbrev Dict := List (String × Json)

/-- `d.get(key)`. -/
def Dict.get (d : Dict) (key : String) : Option Json := (d.find? (·.1 = key)).map (·.2)

/-- `type(value).__name__`. -/
def type_name : Json → String
  | .null => "NoneType"
  | .bool _ => "bool"
  | .num text => if text.toList.all fun c => c.isDigit || c = '-' then "int" else "float"
  | .str _ => "str"
  | .arr _ => "list"
  | .obj _ => "dict"

def no_get (value : Json) : PyErr :=
  ⟨"AttributeError", s!"'{type_name value}' object has no attribute 'get'"⟩

def hex_digits (width n : Nat) : List Char :=
  let digits := Nat.toDigits 16 n
  List.replicate (width - digits.length) '0' ++ digits

/-- One character of `repr` of a text. Beyond ASCII, all are taken to be printable. -/
def escaped (quote c : Char) : List Char :=
  if c = quote || c = '\\' then ['\\', c]
  else if c = '\n' then ['\\', 'n']
  else if c = '\r' then ['\\', 'r']
  else if c = '\t' then ['\\', 't']
  else if c.toNat < 32 || c.toNat = 127 then '\\' :: 'x' :: hex_digits 2 c.toNat
  else [c]

def repr_text (s : String) : String :=
  let quote := if '\'' ∈ s.toList ∧ '"' ∉ s.toList then '"' else '\''
  String.ofList (quote :: s.toList.flatMap (escaped quote) ++ [quote])

mutual

/-- `repr(value)`. -/
def repr_json : Json → String
  | .null => "None"
  | .bool true => "True"
  | .bool false => "False"
  | .num text => text
  | .str s => repr_text s
  | .arr items => "[" ++ ", ".intercalate (repr_items items) ++ "]"
  | .obj fields => "\x7b" ++ ", ".intercalate (repr_fields fields) ++ "\x7d"

def repr_items : List Json → List String
  | [] => []
  | v :: vs => repr_json v :: repr_items vs

def repr_fields : List (String × Json) → List String
  | [] => []
  | (k, v) :: fields => (repr_text k ++ ": " ++ repr_json v) :: repr_fields fields

end

/-- `str(value)`. -/
def str_json : Json → String
  | .str s => s
  | value => repr_json value

def rstrip (cs : List Char) : List Char := (cs.reverse.dropWhile PyFloat.isSpace).reverse

def strip (cs : List Char) : List Char := rstrip (cs.dropWhile PyFloat.isSpace)

/-- What the gateway's own code raises, and what it lets through. -/
inductive Raised where
  | upstream (message code : Json)
  | denied (reason : String)
  | other (e : PyErr)

/-- What `wait_for` raises. -/
def timed_out : Raised := .other ⟨"TimeoutError", ""⟩

/-! ## The reader task -/

structure Reader where
  event_type : Option String := none
  session_path : Option String := none
  /-- The ids that have a future. -/
  pending : List Nat := []
  /-- The futures that have a result. -/
  results : List (Nat × Dict) := []

/-- `mid == n`. -/
def is_id (n : Nat) : Json → Bool
  | .num text => text = toString n || text = toString n ++ ".0"
  | .bool b => n = if b then 1 else 0
  | _ => false

section Exchange

variable (loads : String → Except PyErr Json)

namespace Reader

/-- A new future. -/
def expect (r : Reader) (n : Nat) : Reader := { r with pending := n :: r.pending }

def result (r : Reader) (n : Nat) : Option Dict := (r.results.find? (·.1 = n)).map (·.2)

/-- A message goes to the future of its id. What is no message is passed over. -/
def route (r : Reader) (data : String) : Reader :=
  match loads data with
  | .ok (.obj msg) =>
    match (Dict.get msg "id").bind fun mid => r.pending.find? fun n => is_id n mid with
    | some n => if (r.result n).isSome then r else { r with results := (n, msg) :: r.results }
    | none => r
  | _ => r

/-- One turn of the loop of `_read_sse`. -/
def read_line (r : Reader) (line : String) : Reader :=
  let line := rstrip line.toList
  if "event:".toList.isPrefixOf line then
    { r with event_type := some (String.ofList (strip (line.drop 6))) }
  else if "data:".toList.isPrefixOf line then
    let data := strip (line.drop 5)
    let read :=
      if r.session_path.isNone ∧ data.head? = some '/' then
        { r with session_path := some (String.ofList data) }
      else if r.event_type = some "message" ∧ data ≠ [] then r.route loads (String.ofList data)
      else r
    { read with event_type := none }
  else r

def read_lines (r : Reader) (lines : List String) : Reader := lines.foldl (read_line loads) r

end Reader

/-! ## The exchange -/

/-- What the network and the internal server do in one exchange. The lines of a stage are those
that the reader reads until its wait is over. -/
structure Exchange where
  /-- The client is opened, and `GET /sse` is answered. -/
  client : Except PyErr Unit := .ok ()
  stream : Except PyErr Unit := .ok ()
  until_ready : List String := []
  initialize_post : Except PyErr Unit := .ok ()
  until_initialized : List String := []
  notification_post : Except PyErr Unit := .ok ()
  during_notification : List String := []
  call_post : Except PyErr Unit := .ok ()
  until_response : List String := []
  /-- How the reader task ended: an error of the stream, or at its end or when cancelled. -/
  reader : Except PyErr Unit := .ok ()
  close_stream : Except PyErr Unit := .ok ()
  close_client : Except PyErr Unit := .ok ()

/-- A message that is posted to the internal server. -/
structure Message where
  id : Option Nat
  method : String
  params : Json

def initialize_message : Message :=
  ⟨some 1, "initialize", .obj [
    ("protocolVersion", .str "2024-11-05"),
    ("capabilities", .obj []),
    ("clientInfo", .obj [("name", .str "mcp-web-gateway"), ("version", .str "1.0")])]⟩

def initialized_message : Message := ⟨none, "notifications/initialized", .obj []⟩

namespace Exchange

variable (x : Exchange)

/-- The reader when the wait for the session endpoint is over. -/
def at_ready : Reader := ({} : Reader).read_lines loads x.until_ready

/-- The reader when the wait for the answer to `initialize` is over. -/
def at_initialized : Reader := ((x.at_ready loads).expect 1).read_lines loads x.until_initialized

/-- The reader when the wait for the response is over. -/
def at_response (msg_id : Nat) : Reader :=
  (((x.at_initialized loads).read_lines loads x.during_notification).expect msg_id).read_lines
    loads x.until_response

/-- A response with an error raises it. -/
def checked (response : Dict) : Except Raised Dict :=
  match Dict.get response "error" with
  | none => .ok response
  | some (.obj err) =>
    .error (.upstream ((Dict.get err "message").getD (.str "upstream MCP error"))
      ((Dict.get err "code").getD (.num "-32000")))
  | some err => .error (.other (no_get err))

/-- The body of the `try` of `_one_shot_rpc`, and what it posts. -/
def converse (method : String) (params : Json) (msg_id : Nat) :
    Except Raised Dict × List Message :=
  match (x.at_ready loads).session_path with
  | none => (.error timed_out, [])
  | some _ =>
    match x.initialize_post with
    | .error e => (.error (.other e), [initialize_message])
    | .ok _ =>
      match (x.at_initialized loads).result 1 with
      | none => (.error timed_out, [initialize_message])
      | some _ =>
        match x.notification_post with
        | .error e => (.error (.other e), [initialize_message, initialized_message])
        | .ok _ =>
          let posted := [initialize_message, initialized_message, ⟨some msg_id, method, params⟩]
          match x.call_post with
          | .error e => (.error (.other e), posted)
          | .ok _ =>
            match (x.at_response loads msg_id).result msg_id with
            | none => (.error timed_out, posted)
            | some response => (checked response, posted)

/-- The `except` clauses of `_one_shot_rpc`. -/
def converted : Raised → Raised
  | .upstream message code => .upstream message code
  | .denied reason => .upstream (.str ("Internal MCP communication error: " ++ reason)) (.num "-32000")
  | .other e =>
    if e.kind = "TimeoutError" then
      .upstream (.str "Timeout waiting for internal MCP server response") (.num "-32000")
    else .upstream (.str ("Internal MCP communication error: " ++ e.msg)) (.num "-32000")

/-- Leaves a block. What is raised on the way out takes the place of its outcome. -/
def leave {α : Type} (closing : Except PyErr Unit) (outcome : Except Raised α) : Except Raised α :=
  match closing with
  | .ok _ => outcome
  | .error e => .error (.other e)

/-- `_one_shot_rpc`, and what it posts. The `finally` clause awaits the reader. -/
def one_shot_rpc (method : String) (params : Json) (msg_id : Nat) :
    Except Raised Dict × List Message :=
  match x.client with
  | .error e => (.error (.other e), [])
  | .ok _ =>
    match x.stream with
    | .error e => (leave x.close_client (.error (.other e)), [])
    | .ok _ =>
      let (outcome, posted) := x.converse loads method params msg_id
      (leave x.close_client (leave x.close_stream (leave x.reader (outcome.mapError converted))),
        posted)

/-- `call_tool`. -/
def call_tool (name arguments : Json) : Except Raised Dict × List Message :=
  x.one_shot_rpc loads "tools/call" (.obj [("name", name), ("arguments", arguments)]) 2

end Exchange

/-! ## When it raises -/

/-- Nothing is raised outside the `try`. -/
structure Exchange.Clean (x : Exchange) : Prop where
  client : x.client = .ok ()
  stream : x.stream = .ok ()
  reader : x.reader = .ok ()
  close_stream : x.close_stream = .ok ()
  close_client : x.close_client = .ok ()

/-- The reply of the internal server, if all goes well before it. -/
def Exchange.reply (x : Exchange) (msg_id : Nat) : Option Dict :=
  if (x.at_ready loads).session_path.isSome ∧ x.initialize_post = .ok () ∧
      ((x.at_initialized loads).result 1).isSome ∧ x.notification_post = .ok () ∧ x.call_post = .ok () then
    (x.at_response loads msg_id).result msg_id
  else none

section Laws

variable {loads : String → Except PyErr Json} {x : Exchange}

namespace Exchange

theorem converted_eq_upstream (e : Raised) : ∃ message code, converted e = .upstream message code := by
  cases e with
  | upstream message code => exact ⟨message, code, rfl⟩
  | denied reason => exact ⟨_, _, rfl⟩
  | other e =>
    unfold converted
    dsimp only
    split
    · exact ⟨_, _, rfl⟩
    · exact ⟨_, _, rfl⟩

/-- Only the three messages of the exchange are posted. -/
theorem mem_posted {method : String} {params : Json} {msg_id : Nat} {m : Message}
    (h : m ∈ (x.one_shot_rpc loads method params msg_id).2) :
    m = initialize_message ∨ m = initialized_message ∨ m = ⟨some msg_id, method, params⟩ := by
  have hconverse : ∀ m ∈ (x.converse loads method params msg_id).2,
      m ∈ [initialize_message, initialized_message, ⟨some msg_id, method, params⟩] := by
    intro m hm
    unfold converse at hm
    repeat' split at hm
    all_goals simp only [List.mem_cons, List.not_mem_nil, or_false] at hm ⊢
    all_goals tauto
  unfold one_shot_rpc at h
  split at h
  · cases h
  · split at h
    · cases h
    · simpa using hconverse m h

/-- The exchange gives a response exactly when the reply comes and has no error. -/
theorem converse_eq_ok {method : String} {params : Json} {msg_id : Nat} {response : Dict} :
    (x.converse loads method params msg_id).1 = .ok response ↔
      x.reply loads msg_id = some response ∧ Dict.get response "error" = none := by
  have hchecked : ∀ {reply}, checked reply = .ok response ↔
      reply = response ∧ Dict.get response "error" = none := by
    intro reply
    unfold checked
    constructor
    · intro h
      split at h
      · rename_i hnone
        cases h
        exact ⟨rfl, hnone⟩
      · cases h
      · cases h
    · rintro ⟨rfl, hnone⟩
      rw [hnone]
  unfold converse reply
  cases hpath : (x.at_ready loads).session_path with
  | none => simp
  | some path =>
    cases hinit : x.initialize_post with
    | error e => simp
    | ok _ =>
      cases hanswer : (x.at_initialized loads).result 1 with
      | none => simp
      | some answer =>
        cases hnotification : x.notification_post with
        | error e => simp
        | ok _ =>
          cases hcall : x.call_post with
          | error e => simp
          | ok _ =>
            cases hreply : (x.at_response loads msg_id).result msg_id with
            | none => simp
            | some reply => simp [hchecked]

/-- Nothing is raised outside the `try`: a response without an error, or an `UpstreamError`. -/
theorem one_shot_rpc_of_clean (h : x.Clean) (method : String) (params : Json) (msg_id : Nat) :
    (∃ response, (x.one_shot_rpc loads method params msg_id).1 = .ok response ∧
        x.reply loads msg_id = some response ∧ Dict.get response "error" = none) ∨
      ∃ message code,
        (x.one_shot_rpc loads method params msg_id).1 = .error (.upstream message code) ∧
          ∀ response, x.reply loads msg_id = some response → Dict.get response "error" ≠ none := by
  have hrpc : (x.one_shot_rpc loads method params msg_id).1 =
      (x.converse loads method params msg_id).1.mapError converted := by
    simp [one_shot_rpc, leave, h.client, h.stream, h.reader, h.close_stream, h.close_client]
  cases houtcome : (x.converse loads method params msg_id).1 with
  | ok response =>
    left
    refine ⟨response, ?_, converse_eq_ok.mp houtcome⟩
    rw [hrpc, houtcome]
    rfl
  | error e =>
    right
    obtain ⟨message, code, he⟩ := converted_eq_upstream e
    refine ⟨message, code, ?_, ?_⟩
    · rw [hrpc, houtcome, ← he]
      rfl
    · intro response hreply hnone
      have hok : (x.converse loads method params msg_id).1 = .ok response :=
        converse_eq_ok.mpr ⟨hreply, hnone⟩
      rw [houtcome] at hok
      cases hok

theorem leave_eq_other {α : Type} (closing : Except PyErr Unit) (e : PyErr) :
    ∃ e', (leave closing (.error (.other e)) : Except Raised α) = .error (.other e') := by
  cases closing with
  | ok _ => exact ⟨e, rfl⟩
  | error e' => exact ⟨e', rfl⟩

/-- What is raised outside the `try` is no `UpstreamError`. -/
theorem one_shot_rpc_of_not_clean (h : ¬ x.Clean) (method : String) (params : Json) (msg_id : Nat) :
    ∃ e, (x.one_shot_rpc loads method params msg_id).1 = .error (.other e) := by
  unfold one_shot_rpc
  cases hclient : x.client with
  | error e => exact ⟨e, rfl⟩
  | ok _ =>
    cases hstream : x.stream with
    | error e => exact leave_eq_other x.close_client e
    | ok _ =>
      cases hclose : x.close_client with
      | error e => exact ⟨e, rfl⟩
      | ok _ =>
        cases hend : x.close_stream with
        | error e => exact ⟨e, rfl⟩
        | ok _ =>
          cases hreader : x.reader with
          | error e => exact ⟨e, rfl⟩
          | ok _ => exact absurd ⟨hclient, hstream, hreader, hend, hclose⟩ h

end Exchange

end Laws

end Exchange

end trading_platform.mcp_web_gateway
