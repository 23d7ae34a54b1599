import SerialBridge.Hex

/-!
# Attributes and their identifiers

## UUIDs

A 128-bit identifier, its hyphenated text and its bytes as they are broadcast.
-/

namespace SerialBridge

structure Uuid where
  value : BitVec 128
  deriving DecidableEq, Repr

namespace Uuid

/-- Digits in each of the five groups. -/
def groups : List Nat := [8, 4, 4, 4, 12]

/-- Cut a list into groups of the given sizes. -/
def grouped : List Nat → List Char → List String
  | [], _ => []
  | n :: ns, cs => String.ofList (cs.take n) :: grouped ns (cs.drop n)

/-- Lower-case digits, the five groups joined by hyphens. -/
def text (u : Uuid) : String :=
  "-".intercalate (grouped groups (Hex.fixed 32 u.value.toNat).toList)

instance : ToString Uuid := ⟨text⟩

/-- Reads the hyphenated text, in digits of either case. -/
def ofText? (s : String) : Option Uuid :=
  let digits := String.ofList (s.toList.filter (· ≠ '-'))
  match Hex.decode digits with
  | .ok bytes =>
    let u : Uuid := ⟨BitVec.ofNat 128 (Bytes.toNatLE bytes.reverse)⟩
    if bytes.length = 16 ∧ u.text = s.toLower then some u else none
  | .error _ => none

/-- The sixteen bytes, least significant first. -/
def littleEndian (u : Uuid) : Bytes := Bytes.ofNatLE 16 u.value.toNat

/-- The serial bridge service. -/
def bridgeService : Uuid := ⟨0xDA2B84F1627948DEBDC0AFBEA0226079#128⟩

/-- The characteristic of the mode handshake. -/
def bridgeMode : Uuid := ⟨0xA87988B9694C479C900E95DFA6C00A24#128⟩

/-- The characteristic that receives what is sent to the peer. -/
def bridgeRx : Uuid := ⟨0xBF03260C72054C25AF4393B1C299D159#128⟩

/-- The characteristic on which the peer notifies. -/
def bridgeTx : Uuid := ⟨0x18CDA7844BD3437085BBBFED91EC86AF#128⟩

/-- The descriptor that switches notifications on. -/
def clientConfiguration : Uuid := ⟨0x0000290200001000800000805F9B34FB#128⟩

end Uuid

/-!
## Attributes

Services, characteristics and descriptors are all an identifier with a handle. Two attributes of one
identifier under different handles are different attributes.
-/

structure Attribute where
  uuid : Uuid
  handle : UInt16
  deriving DecidableEq, Repr

namespace Attribute

/-- The attributes that a filter lets through; an empty filter lets everything through. -/
def matching (filter : List Uuid) (attributes : List Attribute) : List Attribute :=
  attributes.filter fun a => filter.isEmpty || filter.contains a.uuid

/-- The first attribute of an identifier. -/
def first? (uuid : Uuid) (attributes : List Attribute) : Option Attribute :=
  attributes.find? (·.uuid == uuid)

end Attribute

/-- The attributes of a peripheral that make up the serial bridge. -/
structure Characteristics where
  service : Attribute
  /-- Written with the byte 1 to enter bridge mode. -/
  mode : Attribute
  /-- Written with the outbound chunks. -/
  rx : Attribute
  /-- Notifies the inbound chunks. -/
  tx : Attribute
  deriving DecidableEq, Repr

namespace Characteristics

/-- A named field that holds an attribute of a kind, indented by one level. -/
def fieldText (name kind : String) (a : Attribute) : String :=
  "    " ++ name ++ ": " ++ kind ++ " \x7b\n        uuid: " ++ a.uuid.text ++
    ",\n        handle: " ++ toString a.handle.toNat ++ ",\n    \x7d,\n"

/-- The four attributes laid out one field a line, for the log. -/
def text (c : Characteristics) : String :=
  "BridgeCharacteristics \x7b\n" ++ fieldText "service" "Service" c.service ++
    fieldText "mode" "Characteristic" c.mode ++ fieldText "rx" "Characteristic" c.rx ++
    fieldText "tx" "Characteristic" c.tx ++ "\x7d"

end Characteristics

end SerialBridge
