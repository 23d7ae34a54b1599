import SerialBridge.Chunk
import SerialBridge.Queue

/-!
# The outbound half of the engine

Written bytes leave in chunks. A write to an idle engine fills the first chunk directly and makes
the engine active; all other bytes pass through a queue, from which the chunk is filled again each
time it was taken. When the queue has run empty one empty chunk is still offered: it can only be
taken by a pump that is done with the write before it, so once it is taken every outcome is known,
and the engine goes idle and answers the flushes.
-/

namespace SerialBridge

inductive Mode where
  | idle
  | active
  deriving DecidableEq, Repr

structure Outbound (Q : Type) where
  queue : Q
  /-- The chunk on offer, while active. -/
  chunk : Chunk
  mode : Mode
  /-- Flushes without an answer, oldest first. -/
  waiting : List Nat
  /-- The earliest failed write that no flush has reported. -/
  failure : Option Failure
  deriving DecidableEq, Repr

namespace Outbound

variable {Q : Type} [ByteQueue Q]

def new (growth : Nat) : Outbound Q := ⟨ByteQueue.withGrowth growth, Chunk.empty, .idle, [], none⟩

/-- Queue bytes behind all others. -/
def stage (s : Outbound Q) (data : Bytes) : Outbound Q × List Effect :=
  let queue := ByteQueue.write s.queue data
  ({ s with queue := queue }, [.logged (.staged (ByteQueue.queued queue))])

def write (s : Outbound Q) (maxChunk : Nat) (data : Bytes) : Outbound Q × List Effect :=
  if data = [] then (s, [])
  else
    match s.mode with
    | .active => s.stage data
    | .idle =>
      let s := { s with chunk := Chunk.ofBytes (data.take maxChunk), mode := .active }
      let (s, effects) := s.stage (data.drop maxChunk)
      (s, .logged .active :: effects)

/-- What the next flush has to report; reporting a failure forgets it. -/
def outcome (s : Outbound Q) : Except CallError Unit :=
  match s.failure with
  | none => .ok ()
  | some f => .error (.transport f)

def flush (s : Outbound Q) (id : Nat) : Outbound Q × List Effect :=
  match s.mode with
  | .active => ({ s with waiting := s.waiting ++ [id] }, [])
  | .idle => ({ s with failure := none }, [.replied id (.flush s.outcome)])

/-- The oldest flush gets the outcome, and the ones behind it have nothing left to report. -/
def answers (outcome : Except CallError Unit) : List Nat → List Effect
  | [] => []
  | id :: rest =>
    .replied id (.flush outcome) :: rest.map fun id => .replied id (.flush (.ok ()))

/-- Back to idle. A failure is kept for a later flush if none is waiting. -/
def settle (s : Outbound Q) : Outbound Q × List Effect :=
  let s := { s with mode := .idle }
  (if s.waiting = [] then s else { s with failure := none, waiting := [] },
    .logged .idle :: answers s.outcome s.waiting)

/-- The chunk on offer was taken: offer the next one. -/
def taken (s : Outbound Q) (maxChunk : Nat) : Outbound Q × List Effect :=
  let (data, queue) := ByteQueue.read s.queue maxChunk
  let s := { s with queue := queue }
  if data ≠ [] then ({ s with chunk := s.chunk.refill data }, [])
  else if s.chunk.isEmpty then s.settle
  else ({ s with chunk := s.chunk.clear }, [])

/-- A write failed. An earlier failure that is still to be reported comes first. -/
def failed (s : Outbound Q) (f : Failure) : Outbound Q × List Effect :=
  match s.failure with
  | none => ({ s with failure := some f }, [])
  | some held => (s, [.logged (.writeErrorDropped f held)])

/-- Every waiting flush is told that the bridge was closed. -/
def close (s : Outbound Q) : Outbound Q × List Effect :=
  ({ s with waiting := [] }, s.waiting.map fun id => .replied id (.flush (.error .closed)))

end Outbound

end SerialBridge
