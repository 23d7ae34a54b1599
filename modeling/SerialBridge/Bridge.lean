import SerialBridge.Link
import SerialBridge.Opening

/-!
# The bridge

An open bridge: a link joined to the peripheral that it writes to. Reads and flushes are requests
with numbers; their answers are effects, now or later. A call on a bridge whose engine is gone fails
like a call on a closed one.
-/

namespace SerialBridge

structure Bridge (P Q : Type) where
  peripheral : P
  characteristics : Characteristics
  link : Link Q
  /-- The number of the next request. -/
  nextRequest : Nat := 0

/-- What a caller gets back from a request at once: a result, or the number to wait for. -/
inductive Issued (α : Type) where
  | settled (result : Except CallError α)
  | request (number : Nat)

namespace Bridge

variable {P Q : Type} [Peripheral P Unit] [ByteQueue Q]

def new (peripheral : P) (characteristics : Characteristics) (settings : Settings) : Bridge P Q :=
  { peripheral := peripheral, characteristics := characteristics, link := Link.new settings }

def isClosed (b : Bridge P Q) : Bool := b.link.closed

def withLink (b : Bridge P Q) (step : Link Q × List Effect) : Bridge P Q × List Effect :=
  ({ b with link := step.1 }, step.2)

/-- Read up to `length` bytes. A read of nothing needs no engine. -/
def read (b : Bridge P Q) (length : Nat) : Bridge P Q × Issued Bytes × List Effect :=
  if b.isClosed then (b, .settled (.error .closed), [])
  else if length = 0 then (b, .settled (.ok []), [])
  else
    match b.link.feed? (.read b.nextRequest length) with
    | none => (b, .settled (.error .closed), [])
    | some (link, effects) =>
      ({ b with link := link, nextRequest := b.nextRequest + 1 }, .request b.nextRequest, effects)

/-- Hand over all of `data` at once. A write of nothing needs no engine. -/
def write (b : Bridge P Q) (data : Bytes) : Bridge P Q × Except CallError Nat × List Effect :=
  if b.isClosed then (b, .error .closed, [])
  else if data = [] then (b, .ok 0, [])
  else
    match b.link.feed? (.write data) with
    | none => (b, .error .closed, [])
    | some (link, effects) => ({ b with link := link }, .ok data.length, effects)

def flush (b : Bridge P Q) : Bridge P Q × Issued Unit × List Effect :=
  if b.isClosed then (b, .settled (.error .closed), [])
  else
    match b.link.feed? (.flush b.nextRequest) with
    | none => (b, .settled (.error .closed), [])
    | some (link, effects) =>
      ({ b with link := link, nextRequest := b.nextRequest + 1 }, .request b.nextRequest, effects)

/-- Closing is always possible and only the first time says so. -/
def close (b : Bridge P Q) : Bridge P Q × List Log.Entry :=
  if b.isClosed then (b, [])
  else ({ b with link := { b.link with closed := true } }, [.closing])

/-- The peripheral notifies, if it still holds the handler. -/
def notify (b : Bridge P Q) (data : Bytes) (failure : Option Failure) :
    Bridge P Q × List Log.Entry × List Effect :=
  if b.link.subscribed then
    let (n, log) := Notification.receive data failure
    match b.link.feed? (.incoming n) with
    | none => (b, log ++ [.notificationDropped data.length], [])
    | some (link, effects) => ({ b with link := link }, log, effects)
  else (b, [], [])

def dropHandler (b : Bridge P Q) : Bridge P Q :=
  { b with link := { b.link with subscribed := false } }

/-- The notifications that came with a response reach the engine one after another. -/
def receive (b : Bridge P Q) : List (Delivery Unit) → Bridge P Q × List Effect
  | [] => (b, [])
  | d :: rest =>
    let (b, log, effects) := b.notify d.data d.failure
    let (b, later) := b.receive rest
    (b, log.map Effect.logged ++ effects ++ later)

/-- The physical write that the pump is at, and all that comes of it. -/
def transmit? (b : Bridge P Q) : Option (Bridge P Q × List Effect) :=
  match b.link.pump with
  | .writing data =>
    let (response, peripheral) := Peripheral.respond b.peripheral
      (.write b.characteristics.rx data b.link.engine.settings.writeWithResponse)
    let (b, echoed) := ({ b with peripheral := peripheral } : Bridge P Q).receive response.deliveries
    match b.link.complete? response.failure? with
    | none => none
    | some (link, effects) =>
      some ({ b with link := link }, response.log.map Effect.logged ++ echoed ++ effects)
  | _ => none

/-- The next move that the bridge makes by itself. A physical write only ends where `mayTransmit`
says so. An engine that is to end does so before anything else. -/
def advance? (b : Bridge P Q) (mayTransmit : Bool) : Option (Bridge P Q × List Effect) :=
  match b.link.shutdown? with
  | some step => some (b.withLink step)
  | none =>
    match b.link.report? with
    | some step => some (b.withLink step)
    | none =>
      match b.link.handOff? with
      | some step => some (b.withLink step)
      | none =>
        match b.link.halt? with
        | some step => some (b.withLink step)
        | none => if mayTransmit then b.transmit? else none

end Bridge

end SerialBridge
