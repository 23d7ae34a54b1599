import SerialBridge.Proofs.Checked.Advertisement

/-!
# Which data a first generation device sends

Data is read as that of a first generation device exactly when three marks are among its structures,
wherever they stand and whatever else there is. The fields are those of the last structure of
manufacturer data.
-/

namespace SerialBridge.Advertisement

theorem decode_eq_first_iff {raw : Bytes} {a : FirstGeneration} :
    decode raw = some (.first a) ↔ FirstGeneration.decode raw = some a := by
  rw [decode]
  cases FirstGeneration.decode raw with
  | some b => simp
  | none => simp

namespace FirstGeneration

/-- Sixteen bytes, with the maker and two single bytes at their places. -/
def Marked (m : Bytes) : Prop :=
  m.length = 16 ∧ m.extract 0 4 = [0xff, 0x85, 0x00, 0xff] ∧ m[8]? = some 0x01 ∧
    m[15]? = some 0x01

/-- Manufacturer data with the fields of a device at their places, the numbers in it least
significant byte first. -/
structure Carries (m : Bytes) (a : FirstGeneration) : Prop where
  id : a.id.toNat = Bytes.toNatLE (m.extract 4 8)
  condition : m[9]? = some a.condition
  status : m[10]? = some a.status
  key : a.key.toNat = Bytes.toNatLE (m.extract 11 15)

theorem isManufacturerData_iff {m : Bytes} : isManufacturerData m = true ↔ Marked m := by
  simp only [isManufacturerData, Bool.and_eq_true, beq_iff_eq, and_assoc]
  exact Iff.rfl

/-- Sixteen bytes have all the fields. -/
theorem exists_ofPayload? {m : Bytes} (h : m.length = 16) :
    ∃ a, ofPayload? (m.drop 4) = some a ∧ Carries m a := by
  have hid : 4 ≤ (m.drop 4).length := by
    rw [List.length_drop]
    omega
  have hkey : 4 ≤ ((m.drop 4).drop 7).length := by
    rw [List.length_drop, List.length_drop]
    omega
  obtain ⟨id, hid, hidBytes⟩ := Bytes.exists_u32? hid
  obtain ⟨key, hkey, hkeyBytes⟩ := Bytes.exists_u32? hkey
  have hcondition : m[9]? = some m[9] := List.getElem?_eq_getElem (by omega)
  have hstatus : m[10]? = some m[10] := List.getElem?_eq_getElem (by omega)
  rw [List.drop_drop] at hkeyBytes
  refine ⟨⟨id, key, m[9], m[10]⟩, ?_, hidBytes, hcondition, hstatus, hkeyBytes⟩
  simp only [ofPayload?, hid, hkey, List.getElem?_drop, hcondition, hstatus, Option.bind_eq_bind,
    Option.bind_some, Option.pure_def]

theorem decode_eq_some_iff {raw : Bytes} {a : FirstGeneration} :
    decode raw = some a ↔ (name ∈ scan raw ∧ serviceList ∈ scan raw) ∧
      ∃ m, last? isManufacturerData (scan raw) = some m ∧ ofPayload? (m.drop 4) = some a := by
  rw [decode, foldl_note]
  cases last? isManufacturerData (scan raw) with
  | none => simp
  | some m =>
    by_cases hmarks : name ∈ scan raw ∧ serviceList ∈ scan raw
    · simp [hmarks]
    · simp [hmarks]

end FirstGeneration

open FirstGeneration (Marked Carries)

/-- Data is read as that of a first generation device exactly when the full name, the list with the
bridge service, and manufacturer data are among its structures. The device is then the one whose
fields the last of the manufacturer data carries. In checked arithmetic the decoders have a value on
all data. -/
theorem first_decoded (raw : Bytes) :
    ((∃ a, decode raw = some (.first a)) ↔
      (0x09 :: "PayRange".toUTF8.data.toList) ∈ scan raw ∧
      (0x07 :: Uuid.bridgeService.littleEndian) ∈ scan raw ∧ ∃ m ∈ scan raw, Marked m) ∧
    (∀ a, decode raw = some (.first a) → ∃ earlier m later, scan raw = earlier ++ m :: later ∧
      Marked m ∧ (∀ s ∈ later, ¬Marked s) ∧ Carries m a) ∧
    checkedDecode raw = some (decode raw) := by
  have hname : 0x09 :: "PayRange".toUTF8.data.toList = FirstGeneration.name := by decide
  rw [hname]
  refine ⟨⟨?_, ?_⟩, ?_, checkedDecode_eq raw⟩
  · rintro ⟨a, ha⟩
    obtain ⟨⟨hnamed, hlisted⟩, m, hlast, -⟩ :=
      FirstGeneration.decode_eq_some_iff.mp (decode_eq_first_iff.mp ha)
    obtain ⟨s, hs, hdata⟩ := exists_last?_iff.mp ⟨m, hlast⟩
    exact ⟨hnamed, hlisted, s, hs, FirstGeneration.isManufacturerData_iff.mp hdata⟩
  · rintro ⟨hnamed, hlisted, s, hs, hmarked⟩
    obtain ⟨m, hlast⟩ :=
      exists_last?_iff.mpr ⟨s, hs, FirstGeneration.isManufacturerData_iff.mpr hmarked⟩
    obtain ⟨a, ha, -⟩ := FirstGeneration.exists_ofPayload?
      (FirstGeneration.length_of_isManufacturerData (kind_of_last? hlast))
    exact ⟨a, decode_eq_first_iff.mpr
      (FirstGeneration.decode_eq_some_iff.mpr ⟨⟨hnamed, hlisted⟩, m, hlast, ha⟩)⟩
  · intro a ha
    obtain ⟨-, m, hlast, hfields⟩ :=
      FirstGeneration.decode_eq_some_iff.mp (decode_eq_first_iff.mp ha)
    obtain ⟨earlier, later, hsplit, hdata, hlater⟩ := last?_eq_some_iff.mp hlast
    obtain ⟨b, hb, hcarries⟩ := FirstGeneration.exists_ofPayload?
      (FirstGeneration.length_of_isManufacturerData hdata)
    obtain rfl : b = a := Option.some.inj (hb.symm.trans hfields)
    refine ⟨earlier, m, later, hsplit, FirstGeneration.isManufacturerData_iff.mp hdata, ?_,
      hcarries⟩
    exact fun s hs hmarked => hlater s hs (FirstGeneration.isManufacturerData_iff.mpr hmarked)

/-- A device among other structures: the marks of the second generation, manufacturer data of
another device before its own, and a structure that is cut off at the end. -/
theorem first_decoded_of_two :
    let a : FirstGeneration := ⟨0x12345678, 0xdeadbeef, 8, 0⟩
    let other : FirstGeneration := ⟨1, 2, 0, 0xff⟩
    let structures : List Bytes := [[0x01, 0x06], SecondGeneration.name, other.manufacturerData,
      FirstGeneration.serviceList, a.manufacturerData, [0xff, 0x85, 0x00, 0xff],
      FirstGeneration.name]
    let raw := encode structures ++ [9, 0x09, 0x50]
    decode raw = some (.first a) ∧ ∃ earlier m later, scan raw = earlier ++ m :: later ∧
      Marked m ∧ (∀ s ∈ later, ¬Marked s) ∧ Carries m a := by
  intro a other structures raw
  obtain ⟨-, hfields, -⟩ := first_decoded raw
  have ha : decode raw = some (.first a) := by decide +kernel
  exact ⟨ha, hfields a ha⟩

end SerialBridge.Advertisement
