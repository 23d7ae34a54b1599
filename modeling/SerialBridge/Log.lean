import SerialBridge.Failure
import SerialBridge.Gatt
import SerialBridge.Hex

/-!
# Log and effects

What a bridge shows to the outside: what it has to say about its own work, its answers, and its
physical writes.

## Log

Entries are values; level and wording are functions of the entry.
-/

namespace SerialBridge.Log

inductive Level where
  | warn
  | info
  | debug
  | trace
  deriving DecidableEq, Repr

namespace Level

def name : Level → String
  | .warn => "WARN"
  | .info => "INFO"
  | .debug => "DEBUG"
  | .trace => "TRACE"

/-- Grows with the detail. -/
def detail : Level → Nat
  | .warn => 0
  | .info => 1
  | .debug => 2
  | .trace => 3

end Level

/-- What the engine says, then the transmission pump, then what is said about notifications and the
connection, and by the peripheral in memory. -/
inductive Entry where
  | engineStarted
  | readPending (length : Nat)
  | active
  | staged (queued : Nat)
  | received (data : Bytes)
  | notificationFailed (position : Nat) (failure : Failure)
  | idle
  | writeErrorDropped (failure held : Failure)
  | deliveryStopped
  | engineClosed (reads flushes : Nat)
  | sending (data : Bytes)
  | chunkFailed (failure : Failure)
  | reportDropped
  | truncated (length : Nat)
  | notificationDropped (length : Nat)
  | characteristicsMissing
  | discovered (characteristics : Characteristics)
  | handshakeFailed (failure : Failure)
  | rollBackFailed (failure : Failure)
  | bridgeOpen
  | closing
  | echo (length : Nat)
  deriving DecidableEq, Repr

namespace Entry

def level : Entry → Level
  | .notificationFailed .. | .writeErrorDropped .. | .deliveryStopped | .chunkFailed _
  | .truncated _ | .handshakeFailed _ => .warn
  | .engineClosed .. | .characteristicsMissing | .bridgeOpen => .info
  | .engineStarted | .active | .idle | .reportDropped | .notificationDropped _ | .discovered _
  | .rollBackFailed _ | .closing => .debug
  | .readPending _ | .staged _ | .received _ | .sending _ | .echo _ => .trace

def message : Entry → String
  | .engineStarted => "engine started"
  | .readPending n => "no inbound data, read of " ++ toString n ++ " bytes pending"
  | .active => "=> Active"
  | .staged n => toString n ++ " bytes staged for transmission"
  | .received data => "received " ++ toString data.length ++ " bytes\n" ++ HexView.render data
  | .notificationFailed p f =>
    "notification error at stream offset " ++ toString p ++ ": " ++ f.message
  | .idle => "=> Idle"
  | .writeErrorDropped f held =>
    "write error '" ++ f.message ++ "' while '" ++ held.message ++ "' is not reported yet"
  | .deliveryStopped => "notification delivery stopped, shutting down"
  | .engineClosed r f =>
    "bridge closed (" ++ toString r ++ " pending reads, " ++ toString f ++ " pending flushes)"
  | .sending data => "sending " ++ toString data.length ++ " bytes\n" ++ HexView.render data
  | .chunkFailed f => "chunk write failed: " ++ f.message
  | .reportDropped => "engine is gone, write error dropped"
  | .truncated n =>
    "notification of " ++ toString n ++ " bytes truncated to " ++ toString chunkLimit ++ " bytes"
  | .notificationDropped n =>
    "notification of " ++ toString n ++ " bytes after close, dropped"
  | .characteristicsMissing => "peripheral is missing serial bridge characteristics"
  | .discovered c => c.text
  | .handshakeFailed f => "bridge mode handshake failed: " ++ f.message
  | .rollBackFailed f => "could not unsubscribe from notifications: " ++ f.message
  | .bridgeOpen => "serial bridge open"
  | .closing => "closing serial bridge"
  | .echo n => "loopback echo of " ++ toString n ++ " bytes"

end Entry

/-- The entries that a log of the given detail keeps. -/
def upTo (limit : Level) (entries : List Entry) : List Entry :=
  entries.filter fun e => e.level.detail ≤ limit.detail

end SerialBridge.Log

/-!
## Effects

What a step shows to the outside, in the order in which it happens.
-/

namespace SerialBridge

/-- The answer to a request, by the kind of request. -/
inductive Reply where
  | read (result : Except CallError Bytes)
  | flush (result : Except CallError Unit)
  deriving DecidableEq, Repr

inductive Effect where
  /-- The request of this number is answered. -/
  | replied (request : Nat) (reply : Reply)
  /-- A physical write has ended, well or with a failure. -/
  | wrote (data : Bytes) (failure : Option Failure)
  | logged (entry : Log.Entry)
  deriving DecidableEq, Repr

namespace Effect

def reply? : Effect → Option (Nat × Reply)
  | .replied n r => some (n, r)
  | _ => none

def write? : Effect → Option (Bytes × Option Failure)
  | .wrote d f => some (d, f)
  | _ => none

def entry? : Effect → Option Log.Entry
  | .logged e => some e
  | _ => none

/-- The answers among some effects. -/
def replies (effects : List Effect) : List (Nat × Reply) := effects.filterMap reply?

/-- The physical writes among some effects. -/
def writes (effects : List Effect) : List (Bytes × Option Failure) := effects.filterMap write?

/-- The log entries among some effects. -/
def entries (effects : List Effect) : List Log.Entry := effects.filterMap entry?

@[simp] theorem replies_append (a b : List Effect) : replies (a ++ b) = replies a ++ replies b :=
  List.filterMap_append

@[simp] theorem writes_append (a b : List Effect) : writes (a ++ b) = writes a ++ writes b :=
  List.filterMap_append

@[simp] theorem entries_append (a b : List Effect) : entries (a ++ b) = entries a ++ entries b :=
  List.filterMap_append

end Effect

end SerialBridge
