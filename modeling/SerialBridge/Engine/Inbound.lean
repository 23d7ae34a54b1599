import SerialBridge.Chunk
import SerialBridge.Queue

/-!
# The inbound half of the engine

Notifications are joined into one stream of bytes. A failure that came with a notification has a
place in that stream, just behind the bytes that came before it, and is reported there, once, to
the read that reaches it. A read that finds nothing to report waits, and waiting reads are served in
the order in which they came.
-/

namespace SerialBridge

structure ReadRequest where
  id : Nat
  length : Nat
  deriving DecidableEq, Repr

structure Inbound (Q : Type) where
  queue : Q
  /-- Reads without an answer, oldest first. -/
  waiting : List ReadRequest
  /-- Failures not reported yet, each with its position in the stream. -/
  failures : List (Nat × Failure)
  /-- Bytes that came in so far. -/
  received : Nat
  /-- Bytes handed to readers so far. -/
  delivered : Nat
  deriving DecidableEq, Repr

namespace Inbound

variable {Q : Type} [ByteQueue Q]

def new (growth : Nat) : Inbound Q := ⟨ByteQueue.withGrowth growth, [], [], 0, 0⟩

/-- Up to `limit` queued bytes, or nothing if there are none. -/
def takeBytes? (s : Inbound Q) (limit : Nat) : Option (Except CallError Bytes × Inbound Q) :=
  let n := min (ByteQueue.queued s.queue) limit
  if n = 0 then none
  else
    let (data, queue) := ByteQueue.read s.queue n
    some (.ok data, { s with queue := queue, delivered := s.delivered + data.length })

/-- What a read of `length` bytes gets now: the failure at the current position, or bytes up to the
next failure. -/
def take? (s : Inbound Q) (length : Nat) : Option (Except CallError Bytes × Inbound Q) :=
  match s.failures with
  | [] => s.takeBytes? length
  | (position, failure) :: later =>
    if position = s.delivered then
      some (.error (.transport failure), { s with failures := later })
    else s.takeBytes? (min length (position - s.delivered))

/-- A read is answered at once if there is something to report. -/
def read (s : Inbound Q) (id length : Nat) : Inbound Q × List Effect :=
  match s.take? length with
  | some (result, s) => (s, [.replied id (.read result)])
  | none =>
    ({ s with waiting := s.waiting ++ [⟨id, length⟩] }, [.logged (.readPending length)])

/-- Answer the reads of a list from the front, up to the first that finds nothing; that one and the
ones behind it are left waiting. -/
def serve (s : Inbound Q) : List ReadRequest → Inbound Q × List Effect
  | [] => ({ s with waiting := [] }, [])
  | r :: rest =>
    match s.take? r.length with
    | some (result, s) =>
      let (s, effects) := s.serve rest
      (s, .replied r.id (.read result) :: effects)
    | none => ({ s with waiting := r :: rest }, [])

/-- The data joins the stream, then the failure takes the place behind it. -/
def accept (s : Inbound Q) (n : Notification) : Inbound Q :=
  let data := n.chunk.bytes
  let received := s.received + data.length
  { s with
    queue := ByteQueue.write s.queue data
    received := received
    failures :=
      match n.failure with
      | none => s.failures
      | some f => s.failures ++ [(received, f)] }

def incoming (s : Inbound Q) (n : Notification) : Inbound Q × List Effect :=
  let s := s.accept n
  let warning : List Effect :=
    match n.failure with
    | none => []
    | some f => [.logged (.notificationFailed s.received f)]
  let (s, served) := s.serve s.waiting
  (s, .logged (.received n.chunk.bytes) :: (warning ++ served))

/-- Every waiting read is told that the bridge was closed. -/
def close (s : Inbound Q) : Inbound Q × List Effect :=
  ({ s with waiting := [] }, s.waiting.map fun r => .replied r.id (.read (.error .closed)))

end Inbound

end SerialBridge
