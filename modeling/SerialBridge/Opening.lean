import SerialBridge.Peripheral

/-!
# Opening a bridge

The service and its characteristics are looked up, notifications are switched off and on again, and
a handshake puts the peer into bridge mode. The first failure ends the attempt; only a failed
handshake leaves something to undo.

A peripheral is taken to notify nothing before its bridge is open: nobody receives notifications
yet, and one that came all the same would keep the call that brings it from ever returning. Such
deliveries are not modelled, and `call` leaves out those of a response.
-/

namespace SerialBridge

/-- An attempt to open a bridge: the calls made so far, failed ones included, and the log. -/
structure Opening (P : Type) where
  peripheral : P
  calls : List (Request Unit) := []
  log : List Log.Entry := []

namespace Opening

variable {P : Type} [Peripheral P Unit]

/-- Steps of an attempt; a step that ends the attempt keeps what was done. -/
abbrev Attempt (P : Type) := EStateM CallError (Opening P)

def note (entry : Log.Entry) : Attempt P Unit :=
  modify fun o => { o with log := o.log ++ [entry] }

/-- Make a call and hand back its result, whatever it is. -/
def call (request : Request Unit) : Attempt P (Except Failure (List Attribute)) := do
  let o ← get
  let (response, peripheral) := Peripheral.respond o.peripheral request
  set { o with
    peripheral := peripheral
    calls := o.calls ++ [request]
    log := o.log ++ response.log }
  return response.result

/-- Make a call that ends the attempt if it fails. -/
def demand (request : Request Unit) : Attempt P (List Attribute) := do
  match ← call request with
  | .ok found => return found
  | .error f => throw (.transport f)

/-- The service, its three characteristics, and a look at the descriptors of the notifying one. -/
def discover : Attempt P Characteristics := do
  let services ← demand (.services [.bridgeService])
  let some service := Attribute.first? .bridgeService services
    | throw .missingService
  let found ← demand (.characteristics [.bridgeMode, .bridgeRx, .bridgeTx] service)
  match Attribute.first? .bridgeMode found, Attribute.first? .bridgeRx found,
      Attribute.first? .bridgeTx found with
  | some mode, some rx, some tx =>
    discard <| demand (.descriptors [] tx)
    return ⟨service, mode, rx, tx⟩
  | _, _, _ =>
    note .characteristicsMissing
    throw .missingService

/-- A handler that an earlier connection left behind is removed first. -/
def subscribe (tx : Attribute) : Attempt P Unit := do
  discard <| demand (.indicate tx none)
  discard <| demand (.indicate tx (some ()))

/-- Switch notifications off again and end the attempt with the failure that made it necessary. -/
def rollBack (tx : Attribute) (failure : Failure) : Attempt P Unit := do
  match ← call (.indicate tx none) with
  | .ok _ => pure ()
  | .error f => note (.rollBackFailed f)
  throw (.transport failure)

def shakeHands (c : Characteristics) : Attempt P Unit := do
  match ← call (.write c.mode [1] true) with
  | .ok _ => pure ()
  | .error f =>
    note (.handshakeFailed f)
    rollBack c.tx f

def attempt : Attempt P Characteristics := do
  let c ← discover
  note (.discovered c)
  subscribe c.tx
  shakeHands c
  note .bridgeOpen
  return c

/-- Try to open a bridge: the characteristics or the error, and what was done. -/
def run (peripheral : P) : Except CallError Characteristics × Opening P :=
  match attempt.run { peripheral := peripheral } with
  | .ok c o => (.ok c, o)
  | .error e o => (.error e, o)

end Opening

end SerialBridge
