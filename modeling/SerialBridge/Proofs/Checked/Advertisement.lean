import SerialBridge.Proofs.Advertisement.Marks
import SerialBridge.Proofs.Advertisement.Structures

/-!
# The decoders in checked arithmetic

The decoders, look by look: each byte and each stretch of a structure has a value only where the
structure has it. No look of theirs is ever without one, and together they find what the decoders
find.
-/

namespace SerialBridge.Advertisement

/-- Two tests, of which the second one is made only where the first one holds. -/
def checkedAnd (first : Bool) (second : Option Bool) : Option Bool :=
  if first then second else some false

/-- Whether a structure starts with the four bytes of a maker. -/
def checkedMaker (s maker : Bytes) : Option Bool := do
  let front ← s.slice? 0 4
  return front == maker

/-- A scan, and one look at each structure. -/
def checkedMarks {M : Type} (note : M → Bytes → Option M) (start : M) (raw : Bytes) : Option M := do
  let structures ← checkedScan (raw.length / 2 + 1) raw
  structures.foldlM note start

/-- A field that starts at a place of the payload, and what is done with it; there is no device
without it. -/
def checkedField {α β : Type} (field? : Bytes → Option α) (payload : Bytes) (start : Nat)
    (next : α → Option (Option β)) : Option (Option β) := do
  let stretch ← payload.slice? start payload.length
  match field? stretch with
  | none => return none
  | some value => next value

theorem checkedAnd_some (first second : Bool) :
    checkedAnd first (some second) = some (first && second) := by
  cases first <;> rfl

theorem checkedMaker_eq {s : Bytes} (h : 4 ≤ s.length) (maker : Bytes) :
    checkedMaker s maker = some (s.take 4 == maker) := by
  rw [checkedMaker, Bytes.slice?_front h]
  rfl

/-- A maker is only looked for in a structure that is long enough for it. -/
theorem checkedAnd_maker {test : Bool} {s : Bytes} (h : test = true → 4 ≤ s.length)
    (maker : Bytes) :
    checkedAnd test (checkedMaker s maker) = some (test && s.take 4 == maker) := by
  cases test with
  | false => rfl
  | true => exact checkedMaker_eq (h rfl) maker

theorem checkedMarks_eq {M : Type} {note? : M → Bytes → Option M} {note : M → Bytes → M}
    (h : ∀ m s, note? m s = some (note m s)) (start : M) (raw : Bytes) :
    checkedMarks note? start raw = some ((scan raw).foldl note start) := by
  have hnote : note? = fun m s => pure (note m s) := funext fun m => funext fun s => h m s
  rw [checkedMarks, checkedScan_eq (Nat.lt_succ_self _), hnote]
  exact List.foldlM_pure

theorem checkedField_eq {α β : Type} (field? : Bytes → Option α) {payload : Bytes} {start : Nat}
    (h : start ≤ payload.length) (next : α → Option (Option β)) :
    checkedField field? payload start next =
      match field? (payload.drop start) with
      | none => some none
      | some value => next value := by
  rw [checkedField, Bytes.slice?_back h]
  rfl

namespace FirstGeneration

def checkedIsManufacturerData (s : Bytes) : Option Bool :=
  checkedAnd (s.length == 16) do
    checkedAnd (← checkedMaker s maker) do
      let middle ← s[8]?
      checkedAnd (middle == 1) do
        let last ← s[15]?
        return last == 1

def checkedNote (m : Marks) (s : Bytes) : Option Marks :=
  if s = name then some { m with named := true }
  else if s = serviceList then some { m with listed := true }
  else do
    if ← checkedIsManufacturerData s then
      let payload ← s.slice? 4 s.length
      return { m with payload := some payload }
    else return m

def checkedPayload (payload : Bytes) : Option (Option FirstGeneration) :=
  checkedField Bytes.u32? payload 0 fun id =>
    checkedField Bytes.u32? payload 7 fun key => do
      let condition ← payload[5]?
      let status ← payload[6]?
      return some ⟨id, key, condition, status⟩

def checkedDecode (raw : Bytes) : Option (Option FirstGeneration) := do
  let marks ← checkedMarks checkedNote {} raw
  match marks.payload with
  | none => return none
  | some payload => if marks.named && marks.listed then checkedPayload payload else return none

theorem length_of_isManufacturerData {s : Bytes} (h : isManufacturerData s = true) :
    s.length = 16 := by
  simp only [isManufacturerData, Bool.and_eq_true, beq_iff_eq] at h
  exact h.1.1.1

theorem checkedIsManufacturerData_eq (s : Bytes) :
    checkedIsManufacturerData s = some (isManufacturerData s) := by
  by_cases hlength : s.length = 16
  · have hmaker := checkedMaker_eq (show 4 ≤ s.length by omega) maker
    have hmiddle : s[8]? = some s[8] := List.getElem?_eq_getElem (by omega)
    have hlast : s[15]? = some s[15] := List.getElem?_eq_getElem (by omega)
    simp only [checkedIsManufacturerData, isManufacturerData, hmaker, hmiddle, hlast,
      Option.bind_eq_bind, Option.bind_some, Option.pure_def, checkedAnd_some, Option.some_beq_some,
      Bool.and_assoc]
  · simp [checkedIsManufacturerData, isManufacturerData, checkedAnd, hlength]

theorem checkedNote_eq (m : Marks) (s : Bytes) : checkedNote m s = some (m.note s) := by
  rw [checkedNote, Marks.note, checkedIsManufacturerData_eq]
  split
  · rfl
  · split
    · rfl
    · cases hdata : isManufacturerData s with
      | false => rfl
      | true =>
        have hlength := length_of_isManufacturerData hdata
        have hpayload := Bytes.slice?_back (show 4 ≤ s.length by omega)
        simp [hpayload]

theorem checkedPayload_eq {payload : Bytes} (h : payload.length = 12) :
    checkedPayload payload = some (ofPayload? payload) := by
  have hcondition : payload[5]? = some payload[5] := List.getElem?_eq_getElem (by omega)
  have hstatus : payload[6]? = some payload[6] := List.getElem?_eq_getElem (by omega)
  rw [checkedPayload, ofPayload?, checkedField_eq _ (Nat.zero_le _), List.drop_zero]
  cases Bytes.u32? payload with
  | none => rfl
  | some id =>
    simp only [checkedField_eq Bytes.u32? (show 7 ≤ payload.length by omega)]
    cases Bytes.u32? (payload.drop 7) with
    | none => rfl
    | some key => simp [hcondition, hstatus]

theorem checkedDecode_eq (raw : Bytes) : checkedDecode raw = some (decode raw) := by
  rw [checkedDecode, decode, checkedMarks_eq checkedNote_eq, foldl_note]
  cases hlast : last? isManufacturerData (scan raw) with
  | none => rfl
  | some m =>
    have hlength : (m.drop 4).length = 12 := by
      rw [List.length_drop, length_of_isManufacturerData (kind_of_last? hlast)]
    simp only [Option.map_some, Option.bind_eq_bind, Option.bind_some, checkedPayload_eq hlength]
    split <;> rfl

end FirstGeneration

namespace SecondGeneration

def checkedNote (m : Marks) (s : Bytes) : Option Marks :=
  if s = name then some { m with named := true }
  else do
    if ← checkedAnd (s.length == 17) (checkedMaker s statusMaker) then
      let payload ← s.slice? 4 s.length
      return { m with payload := some payload }
    else if ← checkedAnd (decide (5 < s.length)) (checkedMaker s partnerMaker) then
      let partner ← s.slice? 4 s.length
      return { m with partner := some partner }
    else return m

def checkedPayload (payload : Bytes) (partner : Option Bytes) : Option (Option SecondGeneration) :=
  checkedField Bytes.u32? payload 0 fun id =>
    checkedField Bytes.u32? payload 4 fun key =>
      checkedField Bytes.u16? payload 8 fun flags =>
        checkedField Bytes.u16? payload 10 fun firmware =>
          some (some ⟨id, key, ⟨flags⟩, firmware, partner⟩)

def checkedDecode (raw : Bytes) : Option (Option SecondGeneration) := do
  let marks ← checkedMarks checkedNote {} raw
  match marks.payload with
  | none => return none
  | some payload => if marks.named then checkedPayload payload marks.partner else return none

theorem length_of_isStatus {s : Bytes} (h : isStatus s = true) : s.length = 17 := by
  simp only [isStatus, Bool.and_eq_true, beq_iff_eq] at h
  exact h.1

theorem length_of_isPartner {s : Bytes} (h : isPartner s = true) : 5 < s.length := by
  simp only [isPartner, Bool.and_eq_true, decide_eq_true_eq] at h
  exact h.1

theorem checkedNote_eq (m : Marks) (s : Bytes) : checkedNote m s = some (m.note s) := by
  have hstatus : checkedAnd (s.length == 17) (checkedMaker s statusMaker) = some (isStatus s) :=
    checkedAnd_maker (fun h => by rw [beq_iff_eq] at h; omega) statusMaker
  have hpartner : checkedAnd (decide (5 < s.length)) (checkedMaker s partnerMaker) =
      some (isPartner s) :=
    checkedAnd_maker (fun h => by rw [decide_eq_true_eq] at h; omega) partnerMaker
  rw [checkedNote, Marks.note, hstatus, hpartner]
  split
  · rfl
  · cases hs : isStatus s with
    | true =>
      have hlength := length_of_isStatus hs
      have hpayload := Bytes.slice?_back (show 4 ≤ s.length by omega)
      simp [hpayload]
    | false =>
      cases hp : isPartner s with
      | false => rfl
      | true =>
        have hlength := length_of_isPartner hp
        have hpayload := Bytes.slice?_back (show 4 ≤ s.length by omega)
        simp [hpayload]

theorem checkedPayload_eq {payload : Bytes} (h : payload.length = 13) (partner : Option Bytes) :
    checkedPayload payload partner = some (ofPayload? payload partner) := by
  rw [checkedPayload, ofPayload?, checkedField_eq _ (Nat.zero_le _), List.drop_zero]
  cases Bytes.u32? payload with
  | none => rfl
  | some id =>
    simp only [checkedField_eq Bytes.u32? (show 4 ≤ payload.length by omega)]
    cases Bytes.u32? (payload.drop 4) with
    | none => rfl
    | some key =>
      simp only [checkedField_eq Bytes.u16? (show 8 ≤ payload.length by omega)]
      cases Bytes.u16? (payload.drop 8) with
      | none => rfl
      | some flags =>
        simp only [checkedField_eq Bytes.u16? (show 10 ≤ payload.length by omega)]
        cases Bytes.u16? (payload.drop 10) <;> rfl

theorem checkedDecode_eq (raw : Bytes) : checkedDecode raw = some (decode raw) := by
  rw [checkedDecode, decode, checkedMarks_eq checkedNote_eq, foldl_note]
  cases hlast : last? isStatus (scan raw) with
  | none => rfl
  | some m =>
    have hlength : (m.drop 4).length = 13 := by
      rw [List.length_drop, length_of_isStatus (kind_of_last? hlast)]
    simp only [Option.map_some, Option.bind_eq_bind, Option.bind_some, checkedPayload_eq hlength]
    split <;> rfl

end SecondGeneration

/-- Both decoders, the second one only for data that the first one does not accept. -/
def checkedDecode (raw : Bytes) : Option (Option Advertisement) := do
  match ← FirstGeneration.checkedDecode raw with
  | some a => return some (.first a)
  | none =>
    let a ← SecondGeneration.checkedDecode raw
    return a.map .second

/-- No look of the decoders is without a value, whatever the data. -/
theorem checkedDecode_eq (raw : Bytes) : checkedDecode raw = some (decode raw) := by
  rw [checkedDecode, decode, FirstGeneration.checkedDecode_eq]
  cases FirstGeneration.decode raw with
  | some a => rfl
  | none =>
    simp only [Option.bind_eq_bind, Option.bind_some, SecondGeneration.checkedDecode_eq,
      Option.pure_def]

end SerialBridge.Advertisement
