import SerialBridge.Log

/-!
# Peripherals

What can be asked of a connected peripheral, and what comes back. `H` stands for the handlers to
which notifications go.
-/

namespace SerialBridge

inductive Request (H : Type) where
  | services (filter : List Uuid)
  | characteristics (filter : List Uuid) (service : Attribute)
  | descriptors (filter : List Uuid) (characteristic : Attribute)
  /-- Sends the notifications of a characteristic to a handler, or to nobody. -/
  | indicate (characteristic : Attribute) (handler : Option H)
  | write (characteristic : Attribute) (value : Bytes) (withResponse : Bool)
  deriving DecidableEq, Repr

/-- A notification on its way to a handler. -/
structure Delivery (H : Type) where
  handler : H
  data : Bytes
  failure : Option Failure
  deriving DecidableEq, Repr

structure Response (H : Type) where
  /-- The attributes found, none for a request that looks for nothing. -/
  result : Except Failure (List Attribute)
  /-- The notifications delivered before the response. -/
  deliveries : List (Delivery H) := []
  log : List Log.Entry := []

/-- The failure of a response, if it is one. -/
def Response.failure? {H : Type} (r : Response H) : Option Failure :=
  match r.result with
  | .ok _ => none
  | .error f => some f

class Peripheral (P : Type) (H : outParam Type) where
  respond : P → Request H → Response H × P

/-!
## The loopback peripheral

A peripheral in memory that offers the serial bridge service. In bridge mode it notifies back every
value written to its receiving characteristic. It judges a request by the whole attribute: the right
identifier under a wrong handle is a stranger.
-/

structure Loopback (H : Type) where
  handler : Option H := none
  bridgeMode : Bool := false
  /-- Bytes echoed so far, whether or not anyone listened. -/
  echoed : Nat := 0
  deriving DecidableEq, Repr

namespace Loopback

def service : Attribute := ⟨.bridgeService, 0x10⟩
def mode : Attribute := ⟨.bridgeMode, 0x12⟩
def rx : Attribute := ⟨.bridgeRx, 0x15⟩
def tx : Attribute := ⟨.bridgeTx, 0x18⟩
def txConfiguration : Attribute := ⟨.clientConfiguration, 0x19⟩

variable {H : Type}

def refuse (p : Loopback H) (f : Failure) : Response H × Loopback H := ({ result := .error f }, p)

/-- A value on the receiving characteristic is counted and sent back, but only in bridge mode. -/
def echo (p : Loopback H) (value : Bytes) : Response H × Loopback H :=
  if p.bridgeMode then
    let p := { p with echoed := p.echoed + value.length }
    match p.handler with
    | none => ({ result := .ok [] }, p)
    | some h =>
      ({ result := .ok [], deliveries := [⟨h, value, none⟩], log := [.echo value.length] }, p)
  else ({ result := .ok [] }, p)

def write (p : Loopback H) (characteristic : Attribute) (value : Bytes) :
    Response H × Loopback H :=
  if characteristic = mode then ({ result := .ok [] }, { p with bridgeMode := value = [1] })
  else if characteristic ≠ rx then p.refuse (.notWritable characteristic.uuid)
  else if chunkLimit < value.length then p.refuse (.oversized value.length)
  else p.echo value

def respond (p : Loopback H) : Request H → Response H × Loopback H
  | .services filter => ({ result := .ok (Attribute.matching filter [service]) }, p)
  | .characteristics filter s =>
    if s = service then ({ result := .ok (Attribute.matching filter [mode, rx, tx]) }, p)
    else p.refuse (.unknownService s.uuid)
  | .descriptors filter c =>
    let found := if c = tx then Attribute.matching filter [txConfiguration] else []
    ({ result := .ok found }, p)
  | .indicate c handler =>
    if c = tx then ({ result := .ok [] }, { p with handler := handler })
    else p.refuse (.notNotifying c.uuid)
  | .write c value _ => p.write c value

instance : Peripheral (Loopback H) H where
  respond := respond

end Loopback

end SerialBridge
