import SerialBridge.Peripheral
import SerialBridge.Hex

/-!
# Scripted peripherals

A peripheral whose answers are laid down beforehand: what it lists, which of its calls fail, and
which data writes fail. The first write it gets is the handshake, all later ones are data.
-/

namespace SerialBridge

/-- The calls of an opening bridge, by their purpose. -/
inductive Stage where
  | services
  | characteristics
  | descriptors
  /-- The first time that notifications are switched off. -/
  | unsubscribe
  | subscribe
  | handshake
  /-- Every later time that notifications are switched off. -/
  | rollBack
  deriving DecidableEq, Repr

/-- Picks data writes by their number, counted from 0, or by the digits that their hexadecimal text
starts with, which may end within a byte. -/
inductive WritePattern where
  | numbered (index : Nat)
  | startingWith (digits : String)
  deriving DecidableEq, Repr

namespace WritePattern

def fits (index : Nat) (data : Bytes) : WritePattern → Bool
  | .numbered n => n == index
  | .startingWith digits => digits.toList.isPrefixOf (Hex.encode data).toList

/-- The rule of a list of patterns; of two that fit, the first counts. -/
def rule (patterns : List (WritePattern × Failure)) (index : Nat) (data : Bytes) :
    Option Failure :=
  (patterns.find? (·.1.fits index data)).map (·.2)

end WritePattern

structure Script where
  services : List Attribute := [⟨.bridgeService, 32⟩]
  characteristics : List Attribute := [⟨.bridgeMode, 34⟩, ⟨.bridgeRx, 37⟩, ⟨.bridgeTx, 40⟩]
  /-- Which calls fail. -/
  failure? : Stage → Option Failure := fun _ => none
  /-- Which data writes fail, by their number and their bytes. -/
  writeFailure? : Nat → Bytes → Option Failure := fun _ _ => none

structure Scripted where
  script : Script
  subscribed : Bool := false
  /-- How often notifications were switched off. -/
  unsubscriptions : Nat := 0
  handshaken : Bool := false
  /-- Data writes so far. -/
  written : Nat := 0

namespace Scripted

/-- The given attributes, unless the call is to fail. -/
def answer (failure : Option Failure) (found : List Attribute) : Response Unit :=
  match failure with
  | none => { result := .ok found }
  | some f => { result := .error f }

def respond (p : Scripted) : Request Unit → Response Unit × Scripted
  | .services _ => (answer (p.script.failure? .services) p.script.services, p)
  | .characteristics _ _ =>
    (answer (p.script.failure? .characteristics) p.script.characteristics, p)
  | .descriptors _ _ => (answer (p.script.failure? .descriptors) [], p)
  | .indicate _ none =>
    let failure := p.script.failure? (if p.unsubscriptions = 0 then .unsubscribe else .rollBack)
    (answer failure [],
      { p with
        unsubscriptions := p.unsubscriptions + 1
        subscribed := p.subscribed && failure.isSome })
  | .indicate _ (some _) =>
    let failure := p.script.failure? .subscribe
    (answer failure [], { p with subscribed := p.subscribed || failure.isNone })
  | .write _ data _ =>
    if p.handshaken then
      (answer (p.script.writeFailure? p.written data) [], { p with written := p.written + 1 })
    else (answer (p.script.failure? .handshake) [], { p with handshaken := true })

instance : Peripheral Scripted Unit where
  respond := respond

end Scripted

end SerialBridge
