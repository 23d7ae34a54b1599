import SerialBridge.Engine

/-!
# The link

An engine and the transmission pump that carries its chunks to the peripheral. The two meet only
when the pump takes the chunk on offer and when it reports a failed write. Every move of the pair is
one step here, and which step comes next is left open: a run is any sequence of steps that are
possible one after another.
-/

namespace SerialBridge

/-- What the transmission pump is doing. -/
inductive Pump where
  | ready
  | writing (data : Bytes)
  /-- A write failed and the engine does not know yet. -/
  | failed (failure : Failure)
  | stopped
  deriving DecidableEq, Repr

structure Link (Q : Type) where
  engine : Engine Q
  pump : Pump := .ready
  /-- Whether the loop of the engine still runs. -/
  serving : Bool := true
  /-- Whether the bridge was closed. -/
  closed : Bool := false
  /-- Whether the peripheral still holds the handler that feeds notifications to the engine. -/
  subscribed : Bool := true
  deriving DecidableEq, Repr

namespace Link

inductive Event where
  | read (id length : Nat)
  | write (data : Bytes)
  | flush (id : Nat)
  | incoming (notification : Notification)
  /-- The pump takes the chunk on offer. -/
  | handOff
  /-- The physical write ends, well or with a failure. -/
  | complete (failure : Option Failure)
  /-- The pump reports a failed write and is ready again. -/
  | report
  | close
  /-- The peripheral lets go of the notification handler. -/
  | unsubscribe
  /-- The engine notices that it is to end. -/
  | shutdown
  /-- The pump notices that it is to end. -/
  | halt
  deriving DecidableEq, Repr

variable {Q : Type} [ByteQueue Q]

def new (settings : Settings) : Link Q := { engine := Engine.new settings }

/-- An event reaches the engine, if its loop still runs. -/
def feed? (l : Link Q) (event : Engine.Event) : Option (Link Q × List Effect) :=
  if l.serving then
    let (engine, effects) := l.engine.step event
    some ({ l with engine := engine }, effects)
  else none

/-- An empty chunk leaves the pump ready at once, any other one starts a write. -/
def handOff? (l : Link Q) : Option (Link Q × List Effect) :=
  match l.pump with
  | .ready =>
    if l.serving && l.engine.transmitting then
      let data := l.engine.outbound.chunk.bytes
      let (engine, effects) := l.engine.step .chunkTaken
      if data = [] then some ({ l with engine := engine }, effects)
      else some ({ l with engine := engine, pump := .writing data },
        .logged (.sending data) :: effects)
    else none
  | _ => none

def complete? (l : Link Q) (failure : Option Failure) : Option (Link Q × List Effect) :=
  match l.pump with
  | .writing data =>
    match failure with
    | none => some ({ l with pump := .ready }, [.wrote data none])
    | some f => some ({ l with pump := .failed f }, [.wrote data (some f), .logged (.chunkFailed f)])
  | _ => none

/-- A report for an engine that is gone is dropped. -/
def report? (l : Link Q) : Option (Link Q × List Effect) :=
  match l.pump with
  | .failed f =>
    match ({ l with pump := .ready } : Link Q).feed? (.writeFailed f) with
    | some (l, effects) => some (l, effects)
    | none => some ({ l with pump := .ready }, [.logged .reportDropped])
  | _ => none

/-- The engine ends once the bridge is closed or no notification can come any more. -/
def shutdown? (l : Link Q) : Option (Link Q × List Effect) :=
  if l.serving && (l.closed || !l.subscribed) then
    let (engine, effects) := l.engine.shutdown
    let warning : List Effect := if l.closed then [] else [.logged .deliveryStopped]
    some ({ l with engine := engine, serving := false }, warning ++ effects)
  else none

/-- A pump without work ends once the bridge is closed or the engine is gone. -/
def halt? (l : Link Q) : Option (Link Q × List Effect) :=
  match l.pump with
  | .ready => if l.closed || !l.serving then some ({ l with pump := .stopped }, []) else none
  | _ => none

/-- The step of an event, where it is possible. -/
def step? (l : Link Q) : Event → Option (Link Q × List Effect)
  | .read id length => l.feed? (.read id length)
  | .write data => l.feed? (.write data)
  | .flush id => l.feed? (.flush id)
  | .incoming n => l.feed? (.incoming n)
  | .handOff => l.handOff?
  | .complete failure => l.complete? failure
  | .report => l.report?
  | .close => some ({ l with closed := true }, [])
  | .unsubscribe => some ({ l with subscribed := false }, [])
  | .shutdown => l.shutdown?
  | .halt => l.halt?

/-- A run of steps, each possible where it stands. -/
def run? (l : Link Q) : List Event → Option (Link Q × List Effect)
  | [] => some (l, [])
  | event :: rest =>
    match l.step? event with
    | none => none
    | some (l, effects) =>
      match l.run? rest with
      | none => none
      | some (l, later) => some (l, effects ++ later)

@[simp] theorem run?_nil (l : Link Q) : l.run? [] = some (l, []) := rfl

end Link

end SerialBridge
