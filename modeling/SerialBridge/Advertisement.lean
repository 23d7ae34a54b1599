import SerialBridge.Bytes
import SerialBridge.Gatt

/-!
# Advertisements

What a serial bridge device broadcasts about itself, in either of two formats. Data that fits both
is read as the first.

## Advertising structures

Advertising data is a row of structures, each behind a byte that gives its length. The row ends with
the data, at a length of zero, or at a structure that is cut off.
-/

namespace SerialBridge.Advertisement

/-- The structures of some advertising data, without their length bytes. -/
def scan : Bytes → List Bytes
  | [] => []
  | n :: rest =>
    let body := rest.take n.toNat
    if n = 0 ∨ body.length < n.toNat then []
    else body :: scan (rest.drop n.toNat)
termination_by raw => raw.length
decreasing_by
  simp only [List.length_drop, List.length_cons]
  omega

/-- Each structure behind its length byte. -/
def encode (structures : List Bytes) : Bytes :=
  structures.flatMap fun s => UInt8.ofNat s.length :: s

@[simp] theorem scan_nil : scan [] = [] := by rw [scan]

@[simp] theorem encode_nil : encode [] = [] := rfl

@[simp] theorem encode_cons (s : Bytes) (rest : List Bytes) :
    encode (s :: rest) = UInt8.ofNat s.length :: (s ++ encode rest) := by
  simp [encode]

/-!
## First generation devices

They broadcast their full name, the serial bridge service in the list of services, and a structure
of manufacturer data with the fields. Fixed marker bytes stand among the fields.
-/

structure FirstGeneration where
  id : UInt32
  key : UInt32
  /-- A maintenance condition; 0 comes from a device that does not report any. -/
  condition : UInt8
  status : UInt8
  deriving DecidableEq, Repr

namespace FirstGeneration

def conditionNone : UInt8 := 8
def conditionClock : UInt8 := 9
def conditionInactivity : UInt8 := 10
def conditionCashlessPending : UInt8 := 11
def conditionCashPending : UInt8 := 12
def conditionConnectRequest : UInt8 := 13

def statusReady : UInt8 := 0
def statusBusy : UInt8 := 1
def statusDisabled : UInt8 := 2
def statusOffline : UInt8 := 0xff

def canTransact (a : FirstGeneration) : Bool := a.status == statusReady

def supportsMaintenance (a : FirstGeneration) : Bool := a.condition != 0

/-- Every condition but the one that says that there is none, also that of a device that does not
report any. -/
def needsMaintenance (a : FirstGeneration) : Bool := a.condition != conditionNone

/-- The complete local name `PayRange`. -/
def name : Bytes := [0x09, 0x50, 0x61, 0x79, 0x52, 0x61, 0x6e, 0x67, 0x65]

/-- The complete list of long service identifiers, with the bridge service alone in it. -/
def serviceList : Bytes := 0x07 :: Uuid.bridgeService.littleEndian

def maker : Bytes := [0xff, 0x85, 0x00, 0xff]

def isManufacturerData (s : Bytes) : Bool :=
  s.length == 16 && s.take 4 == maker && s[8]? == some 1 && s[15]? == some 1

/-- What was seen of the three marks; of repeated manufacturer data the last counts. -/
structure Marks where
  named : Bool := false
  listed : Bool := false
  payload : Option Bytes := none
  deriving DecidableEq, Repr

def Marks.note (m : Marks) (s : Bytes) : Marks :=
  if s = name then { m with named := true }
  else if s = serviceList then { m with listed := true }
  else if isManufacturerData s then { m with payload := some (s.drop 4) }
  else m

/-- The fields of the manufacturer data behind the maker. -/
def ofPayload? (payload : Bytes) : Option FirstGeneration := do
  let id ← Bytes.u32? payload
  let key ← Bytes.u32? (payload.drop 7)
  let condition ← payload[5]?
  let status ← payload[6]?
  return ⟨id, key, condition, status⟩

def decode (raw : Bytes) : Option FirstGeneration :=
  let marks := (scan raw).foldl Marks.note {}
  match marks.payload with
  | none => none
  | some payload => if marks.named && marks.listed then ofPayload? payload else none

/-- The manufacturer data of a device. -/
def manufacturerData (a : FirstGeneration) : Bytes :=
  maker ++ Bytes.ofNatLE 4 a.id.toNat ++ [1, a.condition, a.status] ++
    Bytes.ofNatLE 4 a.key.toNat ++ [1]

/-- The structures that a device broadcasts. -/
def structures (a : FirstGeneration) : List Bytes := [name, serviceList, a.manufacturerData]

end FirstGeneration

/-!
## Second generation devices

They broadcast a short name and a structure of manufacturer data with the fields. A second such
structure may carry data of a partner, which is handed on as it is.
-/

/-- The status word: a status, two groups of alarms, and three single bits. -/
structure StatusWord where
  bits : UInt16
  deriving DecidableEq, Repr

namespace StatusWord

def canTransactBit : UInt16 := 0x2000
def cashPending : UInt16 := 0x0800
def cashlessPending : UInt16 := 0x0400

def machineAlarmMask : UInt16 := 0x03c0
def machineAlarmNone : UInt16 := 0x0000
def machineAlarmInactivity : UInt16 := 0x0040

def connectionAlarmMask : UInt16 := 0x0038
def connectionAlarmNone : UInt16 := 0x0000
def connectionAlarmClockNotSet : UInt16 := 0x0008
def connectionAlarmDebugPending : UInt16 := 0x0010
def connectionAlarmFirmwareUpdateNeeded : UInt16 := 0x0018

def statusMask : UInt16 := 0x0007
def statusReady : UInt16 := 0x0000
def statusBusy : UInt16 := 0x0001
def statusDisabled : UInt16 := 0x0002
def statusReadyMaintenance : UInt16 := 0x0004
def statusOffline : UInt16 := 0x0007

def status (w : StatusWord) : UInt16 := w.bits &&& statusMask

def machineAlarm (w : StatusWord) : UInt16 := w.bits &&& machineAlarmMask

def connectionAlarm (w : StatusWord) : UInt16 := w.bits &&& connectionAlarmMask

/-- Whether one at least of the given bits is set. -/
def contains (w : StatusWord) (bits : UInt16) : Bool := w.bits &&& bits != 0

/-- A device that is ready, or that says so by a bit of its own. -/
def canTransact (w : StatusWord) : Bool := w.status == statusReady || w.contains canTransactBit

/-- Money is waiting or the connection has an alarm; alarms of the machine do not count. -/
def needsMaintenance (w : StatusWord) : Bool :=
  w.contains (cashPending ||| cashlessPending) || w.connectionAlarm != connectionAlarmNone

end StatusWord

structure SecondGeneration where
  id : UInt32
  key : UInt32
  flags : StatusWord
  firmware : UInt16
  partner : Option Bytes
  deriving DecidableEq, Repr

namespace SecondGeneration

def canTransact (a : SecondGeneration) : Bool := a.flags.canTransact

def supportsMaintenance (_ : SecondGeneration) : Bool := true

def needsMaintenance (a : SecondGeneration) : Bool := a.flags.needsMaintenance

/-- The complete local name `PR`. -/
def name : Bytes := [0x09, 0x50, 0x52]

def statusMaker : Bytes := [0xff, 0xc9, 0x02, 0x00]

def partnerMaker : Bytes := [0xff, 0xc9, 0x02, 0x01]

def isStatus (s : Bytes) : Bool := s.length == 17 && s.take 4 == statusMaker

/-- A partner structure holds two bytes of data at least. -/
def isPartner (s : Bytes) : Bool := decide (5 < s.length) && s.take 4 == partnerMaker

/-- What was seen of the name and the two structures; of repeated structures the last counts. -/
structure Marks where
  named : Bool := false
  payload : Option Bytes := none
  partner : Option Bytes := none
  deriving DecidableEq, Repr

def Marks.note (m : Marks) (s : Bytes) : Marks :=
  if s = name then { m with named := true }
  else if isStatus s then { m with payload := some (s.drop 4) }
  else if isPartner s then { m with partner := some (s.drop 4) }
  else m

/-- The fields of the status structure behind the maker. -/
def ofPayload? (payload : Bytes) (partner : Option Bytes) : Option SecondGeneration := do
  let id ← Bytes.u32? payload
  let key ← Bytes.u32? (payload.drop 4)
  let flags ← Bytes.u16? (payload.drop 8)
  let firmware ← Bytes.u16? (payload.drop 10)
  return ⟨id, key, ⟨flags⟩, firmware, partner⟩

def decode (raw : Bytes) : Option SecondGeneration :=
  let marks := (scan raw).foldl Marks.note {}
  match marks.payload with
  | none => none
  | some payload => if marks.named then ofPayload? payload marks.partner else none

/-- The status structure of a device; its last byte has no meaning. -/
def statusStructure (a : SecondGeneration) (last : UInt8) : Bytes :=
  statusMaker ++ Bytes.ofNatLE 4 a.id.toNat ++ Bytes.ofNatLE 4 a.key.toNat ++
    Bytes.ofNatLE 2 a.flags.bits.toNat ++ Bytes.ofNatLE 2 a.firmware.toNat ++ [last]

/-- The structures that a device broadcasts. -/
def structures (a : SecondGeneration) (last : UInt8) : List Bytes :=
  [name, a.statusStructure last] ++ (a.partner.map (partnerMaker ++ ·)).toList

end SecondGeneration

end SerialBridge.Advertisement

/-! ## Either generation -/

namespace SerialBridge

inductive Advertisement where
  | first (device : Advertisement.FirstGeneration)
  | second (device : Advertisement.SecondGeneration)
  deriving DecidableEq, Repr

namespace Advertisement

def id : Advertisement → UInt32
  | .first a => a.id
  | .second a => a.id

/-- The key with which a session is authorised. -/
def key : Advertisement → UInt32
  | .first a => a.key
  | .second a => a.key

def canTransact : Advertisement → Bool
  | .first a => a.canTransact
  | .second a => a.canTransact

def supportsMaintenance : Advertisement → Bool
  | .first a => a.supportsMaintenance
  | .second a => a.supportsMaintenance

def needsMaintenance : Advertisement → Bool
  | .first a => a.needsMaintenance
  | .second a => a.needsMaintenance

def decode (raw : Bytes) : Option Advertisement :=
  match FirstGeneration.decode raw with
  | some a => some (.first a)
  | none => (SecondGeneration.decode raw).map .second

end Advertisement

end SerialBridge
