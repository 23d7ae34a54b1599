import SerialBridge.Link

/-!
# Callers

Callers in different threads can share one bridge. A call first looks whether the bridge was closed
and then turns to the engine, which takes one thing at a time; so between the two it may have to
wait, at the door of the link, and the bridge may be closed meanwhile. There the engine takes it, or
it is refused because the engine is gone.
-/

namespace SerialBridge

inductive Call where
  | read (length : Nat)
  | write (data : Bytes)
  | flush
  deriving DecidableEq, Repr

namespace Call

/-- Whether nothing is asked for. Such a call needs no engine. -/
def isVoid : Call → Bool
  | .read length => length == 0
  | .write data => data.isEmpty
  | .flush => false

/-- The call as the engine takes it, with the number that its answer is to bear. -/
def event (id : Nat) : Call → Link.Event
  | .read length => .read id length
  | .write data => .write data
  | .flush => .flush id

/-- What is shown when a call is refused. A write fails at once and is not among the requests that
are answered. -/
def refusal (id : Nat) : Call → List Effect
  | .read _ => [.replied id (.read (.error .closed))]
  | .write _ => []
  | .flush => [.replied id (.flush (.error .closed))]

end Call

/-- Whether an event of a link is a call that it takes. -/
def Link.Event.isCall : Link.Event → Bool
  | .read _ _ | .write _ | .flush _ => true
  | _ => false

/-- A link with the calls at its door: those that found the bridge open, that ask for something and
that the engine has not taken yet. -/
structure Shared (Q : Type) where
  link : Link Q
  door : List (Nat × Call) := []
  deriving DecidableEq, Repr

namespace Shared

inductive Act where
  /-- A call finds the bridge open and turns to the engine. -/
  | enter (id : Nat) (call : Call)
  /-- The engine takes a call from the door. -/
  | take (id : Nat) (call : Call)
  /-- A call at the door finds that the engine is gone. -/
  | refuse (id : Nat) (call : Call)
  /-- Whatever else the link does. -/
  | move (event : Link.Event)
  deriving DecidableEq, Repr

variable {Q : Type} [ByteQueue Q]

def new (settings : Settings) : Shared Q := { link := Link.new settings }

/-- The step of an act, where it is possible. -/
def step? (s : Shared Q) : Act → Option (Shared Q × List Effect)
  | .enter id call =>
    if s.link.closed || call.isVoid then none
    else some ({ s with door := s.door ++ [(id, call)] }, [])
  | .take id call =>
    if (id, call) ∈ s.door then
      (s.link.step? (call.event id)).map fun (link, effects) =>
        (⟨link, s.door.erase (id, call)⟩, effects)
    else none
  | .refuse id call =>
    if (id, call) ∈ s.door ∧ s.link.serving = false then
      some ({ s with door := s.door.erase (id, call) }, call.refusal id)
    else none
  | .move event =>
    if event.isCall then none
    else (s.link.step? event).map fun (link, effects) => ({ s with link := link }, effects)

/-- A run of acts, each possible where it stands. -/
def run? (s : Shared Q) : List Act → Option (Shared Q × List Effect)
  | [] => some (s, [])
  | act :: rest =>
    match s.step? act with
    | none => none
    | some (s, effects) =>
      match s.run? rest with
      | none => none
      | some (s, later) => some (s, effects ++ later)

end Shared

end SerialBridge
