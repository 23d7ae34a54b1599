import SerialBridge.Proofs.Advertisement.FirstGeneration

/-!
# Which data a second generation device sends

Data that is not that of a first generation device is read as that of a second generation device
exactly when the short name and a status structure are among its structures, wherever they stand and
whatever else there is. The fields are those of the last status structure, and the partner's data
that of the last partner structure. What a device broadcasts is read back as that device.
-/

namespace SerialBridge.Advertisement

theorem decode_eq_second_iff {raw : Bytes} {a : SecondGeneration} :
    decode raw = some (.second a) ↔
      FirstGeneration.decode raw = none ∧ SecondGeneration.decode raw = some a := by
  rw [decode]
  cases FirstGeneration.decode raw with
  | some b => simp
  | none => simp

namespace SecondGeneration

/-- Seventeen bytes behind the maker of status structures. -/
def Status (m : Bytes) : Prop := m.length = 17 ∧ m.extract 0 4 = [0xff, 0xc9, 0x02, 0x00]

/-- The maker of partner structures and two bytes at least. -/
def Partner (m : Bytes) : Prop := 6 ≤ m.length ∧ m.extract 0 4 = [0xff, 0xc9, 0x02, 0x01]

/-- A status structure with the fields of a device at their places, the numbers in it least
significant byte first. -/
structure Carries (m : Bytes) (a : SecondGeneration) : Prop where
  id : a.id.toNat = Bytes.toNatLE (m.extract 4 8)
  key : a.key.toNat = Bytes.toNatLE (m.extract 8 12)
  flags : a.flags.bits.toNat = Bytes.toNatLE (m.extract 12 14)
  firmware : a.firmware.toNat = Bytes.toNatLE (m.extract 14 16)

theorem isStatus_iff {m : Bytes} : isStatus m = true ↔ Status m := by
  simp only [isStatus, Bool.and_eq_true, beq_iff_eq]
  exact Iff.rfl

theorem isPartner_iff {m : Bytes} : isPartner m = true ↔ Partner m := by
  simp only [isPartner, Bool.and_eq_true, beq_iff_eq, decide_eq_true_eq]
  exact Iff.rfl

/-- Seventeen bytes have all the fields. -/
theorem exists_ofPayload? {m : Bytes} (h : m.length = 17) (partner : Option Bytes) :
    ∃ a, ofPayload? (m.drop 4) partner = some a ∧ Carries m a ∧ a.partner = partner := by
  have hlength (start : Nat) : ((m.drop 4).drop start).length = 13 - start := by
    rw [List.length_drop, List.length_drop]
    omega
  have hidLong : 4 ≤ ((m.drop 4).drop 0).length := by
    rw [hlength]
    decide
  have hkeyLong : 4 ≤ ((m.drop 4).drop 4).length := by
    rw [hlength]
    decide
  have hflagsLong : 2 ≤ ((m.drop 4).drop 8).length := by
    rw [hlength]
    decide
  have hfirmwareLong : 2 ≤ ((m.drop 4).drop 10).length := by
    rw [hlength]
    decide
  obtain ⟨id, hid, hidBytes⟩ := Bytes.exists_u32? hidLong
  obtain ⟨key, hkey, hkeyBytes⟩ := Bytes.exists_u32? hkeyLong
  obtain ⟨flags, hflags, hflagsBytes⟩ := Bytes.exists_u16? hflagsLong
  obtain ⟨firmware, hfirmware, hfirmwareBytes⟩ := Bytes.exists_u16? hfirmwareLong
  rw [List.drop_zero] at hid hidBytes
  rw [List.drop_drop] at hkeyBytes hflagsBytes hfirmwareBytes
  refine ⟨⟨id, key, ⟨flags⟩, firmware, partner⟩, ?_,
    ⟨hidBytes, hkeyBytes, hflagsBytes, hfirmwareBytes⟩, rfl⟩
  simp only [ofPayload?, hid, hkey, hflags, hfirmware, Option.bind_eq_bind, Option.bind_some,
    Option.pure_def]

theorem decode_eq_some_iff {raw : Bytes} {a : SecondGeneration} :
    decode raw = some a ↔ name ∈ scan raw ∧ ∃ m, last? isStatus (scan raw) = some m ∧
      ofPayload? (m.drop 4) ((last? isPartner (scan raw)).map (List.drop 4)) = some a := by
  rw [decode, foldl_note]
  cases last? isStatus (scan raw) with
  | none => simp
  | some m => simp

/-- What the last partner structure holds, if there is one. -/
theorem partner_cases (structures : List Bytes) :
    ((∀ s ∈ structures, ¬Partner s) ∧ (last? isPartner structures).map (List.drop 4) = none) ∨
      ∃ earlier p later, structures = earlier ++ p :: later ∧ Partner p ∧
        (∀ s ∈ later, ¬Partner s) ∧
        (last? isPartner structures).map (List.drop 4) = some (p.drop 4) := by
  cases hlast : last? isPartner structures with
  | none =>
    refine .inl ⟨?_, rfl⟩
    intro s hs hpartner
    obtain ⟨p, hp⟩ := exists_last?_iff.mpr ⟨s, hs, isPartner_iff.mpr hpartner⟩
    rw [hlast] at hp
    cases hp
  | some p =>
    obtain ⟨earlier, later, hsplit, hp, hlater⟩ := last?_eq_some_iff.mp hlast
    refine .inr ⟨earlier, p, later, hsplit, isPartner_iff.mp hp, ?_, rfl⟩
    intro s hs hpartner
    exact hlater s hs (isPartner_iff.mpr hpartner)

/-! ## What a device broadcasts -/

variable (a : SecondGeneration) (last : UInt8)

/-- Partner data that has a structure of its own: two bytes at least, and no more than a length byte
can count behind the maker. -/
def Fits : Prop := ∀ p ∈ a.partner, 2 ≤ p.length ∧ p.length ≤ 251

theorem isStatus_statusStructure : isStatus (a.statusStructure last) = true := by
  simp [isStatus, statusStructure, statusMaker]

theorem isPartner_append {p : Bytes} (h : 2 ≤ p.length) : isPartner (partnerMaker ++ p) = true := by
  have hlong : 5 < (partnerMaker ++ p).length := by
    simp [partnerMaker]
    omega
  have hmaker : (partnerMaker ++ p).take 4 = partnerMaker := List.take_left' rfl
  simp only [isPartner, hlong, hmaker, decide_true, beq_self_eq_true, Bool.and_self]

/-- The fields are read back from where they were put. -/
theorem ofPayload?_statusStructure (partner : Option Bytes) :
    ofPayload? ((a.statusStructure last).drop 4) partner = some { a with partner := partner } := by
  have hpayload : (a.statusStructure last).drop 4 =
      Bytes.ofNatLE 4 a.id.toNat ++ (Bytes.ofNatLE 4 a.key.toNat ++
        (Bytes.ofNatLE 2 a.flags.bits.toNat ++ (Bytes.ofNatLE 2 a.firmware.toNat ++ [last]))) := by
    simp [statusStructure, statusMaker]
  have hkey : ((a.statusStructure last).drop 4).drop 4 = Bytes.ofNatLE 4 a.key.toNat ++
      (Bytes.ofNatLE 2 a.flags.bits.toNat ++ (Bytes.ofNatLE 2 a.firmware.toNat ++ [last])) := by
    rw [hpayload, List.drop_left' (Bytes.length_ofNatLE _ _)]
  have hflags : ((a.statusStructure last).drop 4).drop 8 =
      Bytes.ofNatLE 2 a.flags.bits.toNat ++ (Bytes.ofNatLE 2 a.firmware.toNat ++ [last]) := by
    rw [show 8 = 4 + 4 from rfl, ← List.drop_drop, hkey,
      List.drop_left' (Bytes.length_ofNatLE _ _)]
  have hfirmware : ((a.statusStructure last).drop 4).drop 10 =
      Bytes.ofNatLE 2 a.firmware.toNat ++ [last] := by
    rw [show 10 = 8 + 2 from rfl, ← List.drop_drop, hflags,
      List.drop_left' (Bytes.length_ofNatLE _ _)]
  rw [ofPayload?, hkey, hflags, hfirmware, hpayload]
  simp only [Bytes.u32?_ofNatLE, Bytes.u16?_ofNatLE, Option.bind_eq_bind, Option.bind_some,
    Option.pure_def]

variable {a}

theorem filter_isStatus_structures (h : a.Fits) :
    (a.structures last).filter isStatus = [a.statusStructure last] := by
  have hstatus := isStatus_statusStructure a last
  cases hp : a.partner with
  | none => simp [structures, hp, isStatus_name, hstatus]
  | some p =>
    have hother : isStatus (partnerMaker ++ p) = false :=
      isStatus_of_isPartner (isPartner_append (h p hp).1)
    simp [structures, hp, isStatus_name, hstatus, hother]

theorem filter_isPartner_structures (h : a.Fits) :
    (a.structures last).filter isPartner = (a.partner.map (partnerMaker ++ ·)).toList := by
  have hstatus := isPartner_of_isStatus (isStatus_statusStructure a last)
  cases hp : a.partner with
  | none => simp [structures, hp, isPartner_name, hstatus]
  | some p =>
    have hpartner := isPartner_append (h p hp).1
    simp [structures, hp, isPartner_name, hstatus, hpartner]

variable {last}

theorem mem_structures_iff {s : Bytes} : s ∈ a.structures last ↔
    s = name ∨ s = a.statusStructure last ∨ ∃ p, a.partner = some p ∧ partnerMaker ++ p = s := by
  simp only [structures, List.mem_append, List.mem_cons, List.not_mem_nil, or_false,
    Option.mem_toList, Option.map_eq_some_iff, or_assoc]

theorem length_of_mem_structures (h : a.Fits) :
    ∀ s ∈ a.structures last, 1 ≤ s.length ∧ s.length ≤ 255 := by
  intro s hs
  obtain rfl | rfl | ⟨p, hp, rfl⟩ := mem_structures_iff.mp hs
  · decide
  · simp [length_of_isStatus (isStatus_statusStructure a last)]
  · have hlength := h p hp
    simp [partnerMaker]
    omega

/-- The full name of the first generation is not among them. -/
theorem firstName_notMem_structures (h : a.Fits) : FirstGeneration.name ∉ a.structures last := by
  intro hs
  obtain hname | hstatus | ⟨p, hp, hpartner⟩ := mem_structures_iff.mp hs
  · revert hname
    decide
  · have hkind := isStatus_statusStructure a last
    rw [← hstatus] at hkind
    revert hkind
    decide
  · have hkind := isPartner_append (h p hp).1
    rw [hpartner] at hkind
    revert hkind
    decide

/-- What a device broadcasts is read back as that device, in whatever order. -/
theorem decode_encode_of_perm (h : a.Fits) {order : List Bytes}
    (hperm : order.Perm (a.structures last)) :
    Advertisement.decode (encode order) = some (.second a) := by
  have hscan : scan (encode order) = order :=
    scan_encode fun s hs => length_of_mem_structures h s (hperm.mem_iff.mp hs)
  have hstatus : last? isStatus order = some (a.statusStructure last) := by
    have hfilter := filter_isStatus_structures last h
    have hone : (a.structures last).countP isStatus ≤ 1 := by
      rw [List.countP_eq_length_filter, hfilter]
      exact Nat.le_refl 1
    rw [← last?_perm hperm.symm hone, last?, hfilter]
    rfl
  have hpartner : (last? isPartner order).map (List.drop 4) = a.partner := by
    have hfilter := filter_isPartner_structures last h
    have hone : (a.structures last).countP isPartner ≤ 1 := by
      rw [List.countP_eq_length_filter, hfilter]
      cases a.partner <;> simp
    rw [← last?_perm hperm.symm hone, last?, hfilter]
    cases a.partner with
    | none => rfl
    | some p => rfl
  rw [decode_eq_second_iff, decode_eq_some_iff, hscan, hstatus, hpartner]
  constructor
  · cases hfirst : FirstGeneration.decode (encode order) with
    | none => rfl
    | some b =>
      obtain ⟨⟨hname, -⟩, -⟩ := FirstGeneration.decode_eq_some_iff.mp hfirst
      rw [hscan] at hname
      exact absurd (hperm.mem_iff.mp hname) (firstName_notMem_structures h)
  · have hname : name ∈ order := hperm.mem_iff.mpr (by simp [structures])
    exact ⟨hname, _, rfl, ofPayload?_statusStructure a last a.partner⟩

end SecondGeneration

open SecondGeneration (Status Partner Carries Fits)

/-- Data that no first generation device sends is read as that of a second generation device exactly
when the short name and a status structure are among its structures, and not read at all otherwise.
The device is then the one whose fields the last of the status structures carries, with the data of
the last partner structure if there is one. In checked arithmetic the decoders have a value on all
data. What a device broadcasts, in any order, is read back as that device. -/
theorem second_decoded :
    (∀ raw : Bytes, (∀ a, decode raw ≠ some (.first a)) →
      ((∃ a, decode raw = some (.second a)) ↔
        (0x09 :: "PR".toUTF8.data.toList) ∈ scan raw ∧ ∃ m ∈ scan raw, Status m) ∧
      ((∀ a, decode raw ≠ some (.second a)) → decode raw = none) ∧
      (∀ a, decode raw = some (.second a) →
        (∃ earlier m later, scan raw = earlier ++ m :: later ∧ Status m ∧
          (∀ s ∈ later, ¬Status s) ∧ Carries m a) ∧
        ((∀ s ∈ scan raw, ¬Partner s) ∧ a.partner = none ∨
          ∃ earlier p later, scan raw = earlier ++ p :: later ∧ Partner p ∧
            (∀ s ∈ later, ¬Partner s) ∧ a.partner = some (p.drop 4))) ∧
      checkedDecode raw = some (decode raw)) ∧
    ∀ (a : SecondGeneration) (last : UInt8) (order : List Bytes), a.Fits →
      order.Perm (a.structures last) → decode (encode order) = some (.second a) := by
  refine ⟨?_, fun a last order hfits hperm => SecondGeneration.decode_encode_of_perm hfits hperm⟩
  intro raw hother
  have hname : 0x09 :: "PR".toUTF8.data.toList = SecondGeneration.name := by decide
  have hfirst : FirstGeneration.decode raw = none := by
    cases hfirst : FirstGeneration.decode raw with
    | none => rfl
    | some a => exact absurd (decode_eq_first_iff.mpr hfirst) (hother a)
  rw [hname]
  refine ⟨⟨?_, ?_⟩, ?_, ?_, checkedDecode_eq raw⟩
  · rintro ⟨a, ha⟩
    obtain ⟨hnamed, m, hlast, -⟩ :=
      SecondGeneration.decode_eq_some_iff.mp (decode_eq_second_iff.mp ha).2
    obtain ⟨s, hs, hstatus⟩ := exists_last?_iff.mp ⟨m, hlast⟩
    exact ⟨hnamed, s, hs, SecondGeneration.isStatus_iff.mp hstatus⟩
  · rintro ⟨hnamed, s, hs, hstatus⟩
    obtain ⟨m, hlast⟩ :=
      exists_last?_iff.mpr ⟨s, hs, SecondGeneration.isStatus_iff.mpr hstatus⟩
    obtain ⟨a, ha, -⟩ := SecondGeneration.exists_ofPayload?
      (SecondGeneration.length_of_isStatus (kind_of_last? hlast)) _
    exact ⟨a, decode_eq_second_iff.mpr
      ⟨hfirst, SecondGeneration.decode_eq_some_iff.mpr ⟨hnamed, m, hlast, ha⟩⟩⟩
  · intro hsecond
    cases hall : decode raw with
    | none => rfl
    | some found =>
      cases found with
      | first a => exact absurd hall (hother a)
      | second a => exact absurd hall (hsecond a)
  · intro a ha
    obtain ⟨-, m, hlast, hfields⟩ :=
      SecondGeneration.decode_eq_some_iff.mp (decode_eq_second_iff.mp ha).2
    obtain ⟨earlier, later, hsplit, hstatus, hlater⟩ := last?_eq_some_iff.mp hlast
    obtain ⟨b, hb, hcarries, hpartner⟩ := SecondGeneration.exists_ofPayload?
      (SecondGeneration.length_of_isStatus hstatus)
      ((last? SecondGeneration.isPartner (scan raw)).map (List.drop 4))
    obtain rfl : b = a := Option.some.inj (hb.symm.trans hfields)
    constructor
    · refine ⟨earlier, m, later, hsplit, SecondGeneration.isStatus_iff.mp hstatus, ?_, hcarries⟩
      exact fun s hs hkind => hlater s hs (SecondGeneration.isStatus_iff.mpr hkind)
    · rw [hpartner]
      exact SecondGeneration.partner_cases (scan raw)

/-- A device among other structures: a status structure of another device and partner data before
its own, a first generation name, and a structure that is cut off at the end. Without the status of
the other device the data is what the device broadcasts. -/
theorem second_decoded_of_two :
    let a : SecondGeneration := ⟨0x01020304, 0xcafef00d, ⟨0x2800⟩, 0x0207, some [0x61, 0x63]⟩
    let other : SecondGeneration := ⟨1, 2, ⟨3⟩, 4, none⟩
    let partner := SecondGeneration.partnerMaker ++ [0x61, 0x63]
    let structures : List Bytes := [SecondGeneration.partnerMaker ++ [1, 2, 3],
      other.statusStructure 0xff, FirstGeneration.name, partner, SecondGeneration.name,
      a.statusStructure 7]
    let raw := encode structures ++ [9, 0x09, 0x50]
    let order := [partner, SecondGeneration.name, a.statusStructure 0]
    (decode raw = some (.second a) ∧ ∃ earlier m later, scan raw = earlier ++ m :: later ∧
      Status m ∧ (∀ s ∈ later, ¬Status s) ∧ Carries m a) ∧
    a.Fits ∧ order.Perm (a.structures 0) ∧ decode (encode order) = some (.second a) := by
  intro a other partner structures raw order
  obtain ⟨hdecoded, hback⟩ := second_decoded
  have ha : decode raw = some (.second a) := by decide +kernel
  have hother : ∀ b, decode raw ≠ some (.first b) := by
    intro b hb
    cases ha.symm.trans hb
  obtain ⟨-, -, hfields, -⟩ := hdecoded raw hother
  have hfits : a.Fits := by
    intro p hp
    obtain rfl : [0x61, 0x63] = p := Option.some.inj hp
    decide
  have hperm : order.Perm (a.structures 0) := by decide
  exact ⟨⟨ha, (hfields a ha).1⟩, hfits, hperm, hback a 0 order hfits hperm⟩

end SerialBridge.Advertisement
