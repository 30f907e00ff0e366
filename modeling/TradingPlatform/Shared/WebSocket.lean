-- A WebSocket connection as its reader meets it: how the handshake ends, what is
-- read, and how the connection ends. The stop flag of the reader is set from
-- outside, and it is never cleared.
import TradingPlatform.Shared.Schemas

namespace trading_platform.shared

/-- Why `websockets.connect` raises. `status` is the HTTP status when the
handshake was answered. -/
structure Refusal where
  status : Option Nat
  text : String

/-- How the peer or the network ends a connection. -/
inductive WsEnd where
  /-- A normal close: the iteration over the messages just ends. -/
  | closed_ok
  /-- `ConnectionClosed` is raised. -/
  | closed (text : String)
  /-- Any other exception is raised. -/
  | failed (text : String)

/-- A message. -/
structure WsMessage where
  /-- `json.loads` of the message, or the text of the exception that it raises. -/
  payload : Except String Json
  /-- The stop flag is set when the message is taken. -/
  stop : Bool := false
  /-- What the reader does with the message passes without an exception. -/
  handled : Bool := true

structure WsConnection where
  handshake : Except Refusal Unit := .ok ()
  messages : List WsMessage := []
  ending : WsEnd := .closed_ok
  /-- The stop flag is set at the end. -/
  stop : Bool := false

namespace WsConnection

variable (conn : WsConnection)

/-- `self._stop.is_set()` behind the connection. -/
def stopped : Bool := conn.stop || conn.messages.any (·.stop)

/-- The handshake was passed. -/
def connects : Bool := conn.handshake.isOk

/-- The handshake was answered with status 401 or 403. -/
def RefusedAuth : Prop :=
  ∃ refusal, conn.handshake = .error refusal ∧
    (refusal.status = some 401 ∨ refusal.status = some 403)

end WsConnection

namespace Json

/-- `value == number`. -/
def isNum (number : ℚ) : Json → Bool
  | .num text => Decimal.ofText text = .ok number
  | _ => false

/-- `value == text`. -/
def isStr (text : String) : Json → Bool
  | .str s => s = text
  | _ => false

/-- `isinstance(value, dict)`. -/
def isDict : Json → Bool
  | .obj _ => true
  | _ => false

/-- The value of a key of a dict. -/
def field (key : String) : Json → Option Json
  | .obj fields => (fields.find? (·.1 = key)).map (·.2)
  | _ => none

/-- `key in value`, which raises for a number, a bool and `None`. -/
def contains (key : String) : Json → Except PyErr Bool
  | .obj fields => .ok (fields.any (·.1 = key))
  | .arr items => .ok (items.any (isStr key))
  | .str s => .ok (s.toList.tails.any key.toList.isPrefixOf)
  | _ => .error ⟨"TypeError", "argument is not iterable"⟩

end Json

end trading_platform.shared
