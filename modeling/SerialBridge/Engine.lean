import SerialBridge.Engine.Inbound
import SerialBridge.Engine.Outbound

/-!
# The engine

The engine owns the whole state of a running bridge and handles one event at a time. Its two halves
share nothing but the events: what comes in goes to readers, what goes out is cut into chunks and
reported to flushes.
-/

namespace SerialBridge

structure Engine (Q : Type) where
  settings : Settings
  inbound : Inbound Q
  outbound : Outbound Q
  deriving DecidableEq, Repr

namespace Engine

inductive Event where
  /-- A caller wants up to `length` bytes. -/
  | read (id length : Nat)
  | write (data : Bytes)
  /-- A caller wants to know how its writes went. -/
  | flush (id : Nat)
  | incoming (notification : Notification)
  /-- The pump took the chunk on offer. -/
  | chunkTaken
  /-- The pump failed to write a chunk. -/
  | writeFailed (failure : Failure)
  deriving DecidableEq, Repr

variable {Q : Type} [ByteQueue Q]

def new (settings : Settings) : Engine Q :=
  ⟨settings, Inbound.new settings.queueGrowth, Outbound.new settings.queueGrowth⟩

/-- Put back the inbound half after it made a step. -/
def withInbound (e : Engine Q) (step : Inbound Q × List Effect) : Engine Q × List Effect :=
  ({ e with inbound := step.1 }, step.2)

/-- Put back the outbound half after it made a step. -/
def withOutbound (e : Engine Q) (step : Outbound Q × List Effect) : Engine Q × List Effect :=
  ({ e with outbound := step.1 }, step.2)

def step (e : Engine Q) : Event → Engine Q × List Effect
  | .read id length => e.withInbound (e.inbound.read id length)
  | .write data => e.withOutbound (e.outbound.write e.settings.maxChunk data)
  | .flush id => e.withOutbound (e.outbound.flush id)
  | .incoming n => e.withInbound (e.inbound.incoming n)
  | .chunkTaken => e.withOutbound (e.outbound.taken e.settings.maxChunk)
  | .writeFailed f => e.withOutbound (e.outbound.failed f)

/-- The end of the engine: pending flushes, then pending reads, are answered, and nothing else
changes. -/
def shutdown (e : Engine Q) : Engine Q × List Effect :=
  let (outbound, flushes) := e.outbound.close
  let (inbound, reads) := e.inbound.close
  ({ e with outbound := outbound, inbound := inbound },
    .logged (.engineClosed e.inbound.waiting.length e.outbound.waiting.length) ::
      (flushes ++ reads))

/-- The effects of a run are those of its steps, in order. -/
def run (e : Engine Q) : List Event → Engine Q × List Effect
  | [] => (e, [])
  | event :: rest =>
    let (e, effects) := e.step event
    let (e, later) := e.run rest
    (e, effects ++ later)

@[simp] theorem run_nil (e : Engine Q) : e.run [] = (e, []) := rfl

@[simp] theorem run_cons (e : Engine Q) (event : Event) (rest : List Event) :
    e.run (event :: rest) =
      (((e.step event).1.run rest).1, (e.step event).2 ++ ((e.step event).1.run rest).2) := rfl

theorem run_append (e : Engine Q) (a b : List Event) :
    e.run (a ++ b) = (((e.run a).1.run b).1, (e.run a).2 ++ ((e.run a).1.run b).2) := by
  induction a generalizing e with
  | nil => simp
  | cons event rest ih => simp [ih]

def transmitting (e : Engine Q) : Bool := e.outbound.mode == .active

/-- Take the chunks on offer, up to `fuel` of them, until the engine is idle. -/
def drainWithin : Nat → Engine Q → List Chunk × Engine Q × List Effect
  | 0, e => ([], e, [])
  | fuel + 1, e =>
    if e.transmitting then
      let (next, effects) := e.step .chunkTaken
      let (chunks, last, later) := drainWithin fuel next
      (e.outbound.chunk :: chunks, last, effects ++ later)
    else ([], e, [])

/-- Take the chunks on offer until the engine is idle. A chunk takes one byte off the queue at
least, and two more hand-offs end the burst. -/
def drain (e : Engine Q) : List Chunk × Engine Q × List Effect :=
  drainWithin (ByteQueue.queued e.outbound.queue + 2) e

/-- The ends of the channels that feed an engine; losing one of them ends its loop. -/
inductive Channel where
  | reads
  | writes
  | flushes
  | incoming
  | writeErrors
  | closed
  | outgoing
  deriving DecidableEq, Repr

/-- Whether the loss of a channel is noticed: the outgoing one is only watched while a chunk is on
offer. -/
def notices (e : Engine Q) : Channel → Bool
  | .outgoing => e.transmitting
  | _ => true

/-- The engine's loop started on an engine that has already lost a channel. -/
def loopWithout (e : Engine Q) (channel : Channel) : Engine Q × List Effect :=
  let (last, effects) := e.shutdown
  let warning : List Effect := if channel = .incoming then [.logged .deliveryStopped] else []
  (last, .logged .engineStarted :: (warning ++ effects))

/-!
## Moves of an engine

An engine handles events until it is shut down. Shutting down is a move like any other here: what
is held on to then can be looked at, and a move after it finds the engine as it was left.
-/

inductive Move where
  | event (event : Event)
  | shutdown
  deriving DecidableEq, Repr

def move (e : Engine Q) : Move → Engine Q × List Effect
  | .event event => e.step event
  | .shutdown => e.shutdown

/-- The state that some moves lead to. -/
def after (e : Engine Q) (moves : List Move) : Engine Q :=
  moves.foldl (fun e move => (e.move move).1) e

@[simp] theorem after_nil (e : Engine Q) : e.after [] = e := rfl

@[simp] theorem after_cons (e : Engine Q) (move : Move) (rest : List Move) :
    e.after (move :: rest) = (e.move move).1.after rest := rfl

end Engine

end SerialBridge
