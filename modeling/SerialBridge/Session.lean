import SerialBridge.Bridge

/-!
# Sessions

A bridge used step by step. Between two steps everything that can happen without a caller does
happen, so the outcome of a step does not depend on timing. A gate holds back the physical writes:
while it is shut, a write that was started ends only when it is released. Calls that would block are
started apart and joined later. While one of them waits, the bridge stays open even if its caller
has let go of it.
-/

namespace SerialBridge

/-- A call that was started apart. -/
inductive Ticket where
  | read (call : Issued Bytes)
  | flush (call : Issued Unit)

structure Session (P Q : Type) where
  bridge : Bridge P Q
  /-- How many writes may still end, where there is a gate. -/
  gate : Option Nat := none
  /-- The answers so far, by the number of the request. -/
  replies : List (Nat × Reply) := []
  tickets : Array Ticket := #[]
  /-- Whether the caller let go of the bridge. -/
  dropped : Bool := false

namespace Session

inductive Step where
  | read (length : Nat)
  | write (data : Bytes)
  | flush
  | close
  /-- Write until all of `data` is accepted. One call accepts everything, and nothing to write makes
  no call. -/
  | writeAll (data : Bytes)
  /-- Read until `length` bytes are there. -/
  | readExact (length : Nat)
  | notify (data : Bytes) (failure : Option Failure)
  | shutGate
  | release (writes : Nat)
  | openGate
  | beginRead (length : Nat)
  | beginFlush
  | join (ticket : Nat)
  /-- The peripheral lets go of the notification handler. -/
  | dropHandler
  /-- The caller lets go of the bridge, which closes once no call started apart waits. -/
  | drop
  deriving DecidableEq, Repr

inductive Result where
  | bytes (result : Except CallError Bytes)
  | count (result : Except CallError Nat)
  | unit (result : Except CallError Unit)
  | begun (ticket : Nat)
  | nothing
  /-- The step waits for something that does not come by itself. -/
  | blocked

/-- What a step came to: its result, the caller's own log, and everything that happened. -/
structure Outcome where
  result : Result
  log : List Log.Entry
  effects : List Effect

variable {P Q : Type} [Peripheral P Unit] [ByteQueue Q]

/-- Whether a write that was started may end now. -/
def mayTransmit (s : Session P Q) : Bool := s.gate != some 0

/-- Keep the answers among some effects, and count the ended writes at the gate. -/
def record (s : Session P Q) (effects : List Effect) : Session P Q :=
  { s with
    replies := Effect.replies effects ++ s.replies
    gate := s.gate.map (· - (Effect.writes effects).length) }

/-- Make the moves that need no caller, up to `fuel` of them. -/
def settleWithin : Nat → Session P Q → Array Effect → Session P Q × Array Effect
  | 0, s, done => (s, done)
  | fuel + 1, s, done =>
    match s.bridge.advance? s.mayTransmit with
    | none => (s, done)
    | some (bridge, effects) =>
      settleWithin fuel (({ s with bridge := bridge } : Session P Q).record effects)
        (done ++ effects.toArray)

/-- Make all the moves that need no caller. A queued byte costs three of them at most: it is handed
over, its write ends, and the write is reported. -/
def settle (s : Session P Q) : Session P Q × Array Effect :=
  settleWithin (3 * ByteQueue.queued s.bridge.link.engine.outbound.queue + 12) s #[]

def reply? (s : Session P Q) (request : Nat) : Option Reply := s.replies.lookup request

def isAnswered (s : Session P Q) : Ticket → Bool
  | .read (.request n) | .flush (.request n) => (s.reply? n).isSome
  | .read (.settled _) | .flush (.settled _) => true

/-- Whether nobody has the bridge any more: neither its caller nor a call started apart. -/
def isUnused (s : Session P Q) : Bool := s.dropped && s.tickets.all s.isAnswered

/-- Take over a bridge after a call and let everything else happen. The last answer may leave the
bridge to nobody; that closes it, and the caller, who let go before, has no log of it. -/
def follow (s : Session P Q) (bridge : Bridge P Q) (effects : List Effect) :
    Session P Q × List Effect :=
  let (s, later) := (({ s with bridge := bridge } : Session P Q).record effects).settle
  if s.isUnused then
    let (s, last) := ({ s with bridge := s.bridge.close.1 } : Session P Q).settle
    (s, effects ++ later.toList ++ last.toList)
  else (s, effects ++ later.toList)

/-- Whether bytes are left that nobody will write: the engine is gone with them, no write is under
way, and the bridge was not closed, which would have given them up. -/
def isStranded (s : Session P Q) : Bool :=
  let out := s.bridge.link.engine.outbound
  let underWay :=
    match s.bridge.link.pump with
    | .writing _ => true
    | _ => false
  !s.bridge.isClosed && !underWay && 0 < out.chunk.len + ByteQueue.queued out.queue

/-- Move the gate and wait until all bytes are written or a write is held. -/
def setGate (s : Session P Q) (gate : Option Nat) : Session P Q × Outcome :=
  let (s, effects) := ({ s with gate := gate } : Session P Q).follow s.bridge []
  (s, ⟨if s.isStranded then .blocked else .nothing, [], effects⟩)

def readResult (s : Session P Q) : Issued Bytes → Result
  | .settled result => .bytes result
  | .request n =>
    match s.reply? n with
    | some (.read result) => .bytes result
    | _ => .blocked

def flushResult (s : Session P Q) : Issued Unit → Result
  | .settled result => .unit result
  | .request n =>
    match s.reply? n with
    | some (.flush result) => .unit result
    | _ => .blocked

/-- Start a read and let everything else happen. -/
def startRead (s : Session P Q) (length : Nat) : Session P Q × Issued Bytes × List Effect :=
  let (bridge, issued, effects) := s.bridge.read length
  let (s, effects) := s.follow bridge effects
  (s, issued, effects)

def startFlush (s : Session P Q) : Session P Q × Issued Unit × List Effect :=
  let (bridge, issued, effects) := s.bridge.flush
  let (s, effects) := s.follow bridge effects
  (s, issued, effects)

/-- Read after read until `missing` more bytes are there; a failure loses those read before it. Each
read that succeeds brings a byte, so `missing` reads are enough. -/
def readExactly (s : Session P Q) (missing : Nat) (found : Bytes) (done : List Effect) :
    Nat → Session P Q × Result × List Effect
  | 0 => (s, .bytes (.ok found), done)
  | fuel + 1 =>
    if missing = 0 then (s, .bytes (.ok found), done)
    else
      let (s, issued, effects) := s.startRead missing
      match s.readResult issued with
      | .bytes (.ok data) =>
        readExactly s (missing - data.length) (found ++ data) (done ++ effects) fuel
      | other => (s, other, done ++ effects)

def step (s : Session P Q) : Step → Session P Q × Outcome
  | .read length =>
    let (s, issued, effects) := s.startRead length
    (s, ⟨s.readResult issued, [], effects⟩)
  | .write data =>
    let (bridge, result, effects) := s.bridge.write data
    let (s, effects) := s.follow bridge effects
    (s, ⟨.count result, [], effects⟩)
  | .flush =>
    let (s, issued, effects) := s.startFlush
    (s, ⟨s.flushResult issued, [], effects⟩)
  | .close =>
    let (bridge, log) := s.bridge.close
    let (s, effects) := s.follow bridge []
    (s, ⟨.unit (.ok ()), log, effects⟩)
  | .writeAll data =>
    if data = [] then (s, ⟨.count (.ok 0), [], []⟩)
    else
      let (bridge, result, effects) := s.bridge.write data
      let (s, effects) := s.follow bridge effects
      (s, ⟨.count result, [], effects⟩)
  | .readExact length =>
    let (s, result, effects) := s.readExactly length [] [] length
    (s, ⟨result, [], effects⟩)
  | .notify data failure =>
    let (bridge, log, effects) := s.bridge.notify data failure
    let (s, effects) := s.follow bridge effects
    (s, ⟨.nothing, log, effects⟩)
  | .shutGate => ({ s with gate := some 0 }, ⟨.nothing, [], []⟩)
  | .release writes => s.setGate (s.gate.map (· + writes))
  | .openGate => s.setGate none
  | .beginRead length =>
    let (s, issued, effects) := s.startRead length
    ({ s with tickets := s.tickets.push (.read issued) },
      ⟨.begun s.tickets.size, [], effects⟩)
  | .beginFlush =>
    let (s, issued, effects) := s.startFlush
    ({ s with tickets := s.tickets.push (.flush issued) },
      ⟨.begun s.tickets.size, [], effects⟩)
  | .join ticket =>
    let result :=
      match s.tickets[ticket]? with
      | some (.read issued) => s.readResult issued
      | some (.flush issued) => s.flushResult issued
      | none => .nothing
    (s, ⟨result, [], []⟩)
  | .dropHandler =>
    let (s, effects) := s.follow s.bridge.dropHandler []
    (s, ⟨.nothing, [], effects⟩)
  | .drop =>
    let s := { s with dropped := true }
    let (bridge, log) := if s.isUnused then s.bridge.close else (s.bridge, [])
    let (s, effects) := s.follow bridge []
    (s, ⟨.nothing, log, effects⟩)

/-- Open a bridge on a peripheral and start a session with it. -/
def start (peripheral : P) (settings : Settings) :
    Except CallError (Session P Q) × Opening P :=
  match Opening.run peripheral with
  | (.ok characteristics, o) =>
    (.ok { bridge := Bridge.new o.peripheral characteristics settings }, o)
  | (.error e, o) => (.error e, o)

end Session

end SerialBridge
