-- `AccountStreamListener`: the user-data stream of one exchange account, over the
-- WebSocket API (spot) or over a listen key (futures), and its reconnect loops.
import TradingPlatform.Lib.Backoff
import TradingPlatform.Shared.Float
import TradingPlatform.Shared.WebSocket

open backoff
open trading_platform.shared

namespace trading_platform.execution

/-- What an observer of a listener sees. -/
inductive StreamEvent where
  /-- `_set_status(status, error)`. -/
  | status (status : String) (error : Option String)
  /-- A message that was read and parsed. -/
  | received (payload : Json)
  /-- `_mark_event`, which writes the status `connected` to Redis. -/
  | mark_event
  | incident (incident_type message severity : String)
  | delete_listen_key

/-- What a connection attempt raises. -/
inductive StreamExc where
  /-- `_AuthError`. -/
  | auth (text : String)
  /-- `ConnectionClosed`. -/
  | closed (text : String)
  | other (text : String)

def StreamExc.text : StreamExc → String
  | .auth text | .closed text | .other text => text

/-- The end of a connection, for a reader who waits for one message. -/
def StreamExc.ofEnd : WsEnd → StreamExc
  | .closed_ok => .closed "received 1000 (OK); then sent 1000 (OK)"
  | .closed text => .closed text
  | .failed text => .other text

/-- The end of a connection, for a reader who takes messages until it ends. -/
def outcome : WsEnd → Except StreamExc Unit
  | .closed_ok => .ok ()
  | ending => .error (.ofEnd ending)

/-- `_RECONNECT_MAX_S`. -/
def reconnect_max_s : ℚ := 60

/-- `min(_RECONNECT_MAX_S, _RECONNECT_BASE_S * (_RECONNECT_FACTOR ** attempt))`. -/
def reconnect_delay (attempt : Nat) : Except PyErr ℚ := do
  let power ← PyFloat.pow 2 attempt
  return min reconnect_max_s (2 * power)

/-- One pass of a reconnect loop: the stop flag is set before it begins, or it
makes an attempt. -/
inductive Pass (α : Type) where
  | stop
  | attempt (conn : α)

/-- A connection of the WebSocket API, with the subscribe request on it. -/
structure WsApiConnection extends WsConnection where
  req_id : String
  /-- `ws.send` and `ws.recv` of the answer: the message, or what they raise. -/
  answer : Except WsEnd (Except String Json)

/-- The answer of the listen key endpoint. -/
structure ListenKeyReply where
  status : Nat
  /-- `resp.json()`. -/
  json : Except String Json

/-- `str` of a JSON value is kept as it is. -/
structure AccountStreamListener where
  str : Json → String

namespace AccountStreamListener

variable (self : AccountStreamListener)

/-! ## The spot path -/

/-- The error of an answer that is not a success. -/
def err_text (resp status : Json) : String :=
  let err := ((resp.field "error").getD .null).orDefault (.obj [])
  let code := if err.isDict then ((err.field "code").map self.str).getD "?" else "?"
  let msg := if err.isDict then ((err.field "msg").map self.str).getD (self.str resp)
    else self.str resp
  s!"subscribe {self.str status}: {code} {msg}"

def check_status (status : Json) (err_text : String) : Except StreamExc Unit :=
  if status.isNum 200 then .ok ()
  else match status with
    -- a list or a dict has no hash, so the lookup in the set of statuses raises
    | .arr _ | .obj _ => .error (.other "unhashable type")
    | _ =>
      if status.isNum 401 ∨ status.isNum 403 then .error (.auth err_text)
      else .error (.other err_text)

/-- `_check_subscribe_response`. -/
def check_subscribe_response (resp : Json) (expected_id : String) : Except StreamExc Unit :=
  match resp.get "id" with
  | .error e => .error (.other e.msg)
  | .ok id =>
    if ¬ (id.getD .null).isStr expected_id then .ok ()
    else
      let status := (resp.field "status").getD (.num "0")
      check_status status (self.err_text resp status)

/-- The messages behind the acknowledgement. -/
def read_events (ending : WsEnd) : List WsMessage → List StreamEvent × Except StreamExc Unit
  | [] => ([], outcome ending)
  | msg :: rest =>
    if msg.stop then ([], .ok ())
    else match msg.payload with
      | .error text => ([], .error (.other text))
      | .ok payload =>
        match payload.contains "id" with
        | .error e => ([.received payload], .error (.other e.msg))
        | .ok answers =>
          let tail := read_events ending rest
          -- an answer to a request is no event
          (.received payload ::
            ((if ¬ answers ∧ msg.handled then [StreamEvent.mark_event] else []) ++ tail.1), tail.2)

/-- `_connect_and_subscribe`. -/
def connect_and_subscribe (conn : WsApiConnection) : List StreamEvent × Except StreamExc Unit :=
  match conn.handshake with
  | .error refusal => ([], .error (.other refusal.text))
  | .ok () =>
    match conn.answer with
    | .error ending =>
      ([], .error (.ofEnd ending))
    | .ok (.error text) => ([], .error (.other text))
    | .ok (.ok ack) =>
      match self.check_subscribe_response ack conn.req_id with
      | .error exc => ([.received ack], .error exc)
      | .ok () =>
        let tail := read_events conn.ending conn.messages
        (.received ack :: .status "connected" none :: tail.1, tail.2)

/-- What follows an attempt that did not end the loop. -/
def reconnect (seen : List StreamEvent) (stopped : Bool) (attempt : Nat) :
    List StreamEvent × Next PyErr ℚ :=
  if stopped then (seen ++ [.status "stopped" none], .returned)
  else (seen, waitAt reconnect_delay attempt)

/-- One pass of the loop of `_run_ws_api`. -/
def ws_api_pass (attempt : Nat) : Pass WsApiConnection → List StreamEvent × Next PyErr ℚ
  | .stop => ([.status "stopped" none], .returned)
  | .attempt conn =>
    match self.connect_and_subscribe conn with
    | (seen, .ok ()) => reconnect seen conn.stopped 0
    | (seen, .error (.auth text)) =>
      (seen ++ [.status "auth_error" (some text), .incident "stream_auth_error" text "error"],
        .returned)
    | (seen, .error exc) =>
      reconnect (seen ++ [.status "reconnecting" (some exc.text)]) conn.stopped attempt

/-- `_run_ws_api`: the passes that the loop makes. -/
def run_ws_api (passes : List (Pass WsApiConnection)) :
    List (List StreamEvent × Next PyErr ℚ) :=
  loop self.ws_api_pass 0 passes

/-! ## The futures path -/

/-- `_create_listen_key`. An error is what the request itself raises. -/
def create_listen_key (reply : Except String ListenKeyReply) : Except String Json :=
  match reply with
  | .error text => .error text
  | .ok resp =>
    if resp.status = 401 ∨ resp.status = 403 then .error s!"listen key HTTP {resp.status}"
    else if 400 ≤ resp.status then .error s!"{resp.status}"
    else match resp.json with
      | .error text => .error text
      | .ok data =>
        match data.get "listenKey" with
        | .error e => .error e.msg
        | .ok none => .error "'listenKey'"
        | .ok (some key) => .ok key

/-- The messages of the stream. What a message raises is caught at once. -/
def read_stream (ending : WsEnd) : List WsMessage → List StreamEvent × Except StreamExc Unit
  | [] => ([], outcome ending)
  | msg :: rest =>
    if msg.stop then ([], .ok ())
    else
      let tail := read_stream ending rest
      match msg.payload with
      | .error _ => tail
      | .ok payload =>
        (.received payload ::
          ((if msg.handled then [StreamEvent.mark_event] else []) ++ tail.1), tail.2)

/-- The `try` of the loop of `_run_legacy_stream`, with its handlers. -/
def legacy_seen (conn : WsConnection) : List StreamEvent :=
  match conn.handshake with
  | .error refusal => [.status "reconnecting" (some refusal.text)]
  | .ok () =>
    match read_stream conn.ending conn.messages with
    | (seen, .ok ()) => .status "connected" none :: seen
    | (seen, .error exc) =>
      .status "connected" none :: seen ++ [.status "reconnecting" (some exc.text)]

/-- The `finally` of `_run_legacy_stream`. -/
def closing (listen_key : Json) : List StreamEvent :=
  (if listen_key.truthy then [.delete_listen_key] else []) ++ [.status "stopped" none]

/-- One pass of the loop of `_run_legacy_stream`, with the `finally` when it is
the last one. A connection resets the counter. -/
def legacy_pass (listen_key : Json) (attempt : Nat) :
    Pass WsConnection → List StreamEvent × Next PyErr ℚ
  | .stop => (closing listen_key, .returned)
  | .attempt conn =>
    let attempt := used attempt conn.connects
    let seen := .status "connecting" none :: legacy_seen conn
    if conn.stopped then (seen ++ closing listen_key, .returned)
    else match reconnect_delay attempt with
      | .ok delay => (seen, .again delay (attempt + 1))
      | .error e => (seen ++ closing listen_key, .died e)

/-- `_run_legacy_stream`: what happens before the loop, and the passes of the loop. -/
def run_legacy_stream (reply : Except String ListenKeyReply) (passes : List (Pass WsConnection)) :
    List StreamEvent × List (List StreamEvent × Next PyErr ℚ) :=
  match create_listen_key reply with
  | .error text =>
    ([.status "auth_error" (some text), .incident "stream_auth_error" text "error"], [])
  | .ok listen_key => ([], loop (legacy_pass listen_key) 0 passes)

end AccountStreamListener

end trading_platform.execution
