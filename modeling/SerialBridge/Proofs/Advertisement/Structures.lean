import SerialBridge.Advertisement
import SerialBridge.Proofs.Checked.Words

/-!
# The one reading of advertising data

Advertising data is the structures that a scan finds, each behind its length, and an end that holds
no further structure. No other structures and no other end spell the same data.
-/

namespace SerialBridge.Advertisement

/-- The end of a row of structures: nothing, a length of zero with anything behind it, or a length
with fewer bytes behind it. -/
def Ending (rest : Bytes) : Prop :=
  rest = [] ∨ (∃ later, rest = 0 :: later) ∨ ∃ n part, rest = n :: part ∧ part.length < n.toNat

variable {n : UInt8} {raw rest : Bytes}

theorem ending_cons_iff :
    Ending (n :: rest) ↔ n = 0 ∨ (rest.take n.toNat).length < n.toNat := by
  have hlength : (rest.take n.toNat).length = min n.toNat rest.length := List.length_take
  constructor
  · rintro (h | ⟨later, h⟩ | ⟨m, part, h, hshort⟩)
    · cases h
    · exact .inl (List.cons.inj h).1
    · obtain ⟨rfl, rfl⟩ := List.cons.inj h
      exact .inr (by omega)
  · rintro (rfl | hshort)
    · exact .inr (.inl ⟨rest, rfl⟩)
    · exact .inr (.inr ⟨n, rest, rfl, by omega⟩)

/-- A length that does not end the row has its structure behind it. -/
theorem length_of_not_ending (h : ¬Ending (n :: rest)) :
    1 ≤ n.toNat ∧ (rest.take n.toNat).length = n.toNat ∧ n.toNat ≤ rest.length := by
  obtain ⟨hne, hlong⟩ := not_or.mp (mt ending_cons_iff.mpr h)
  have hpos : n.toNat ≠ 0 := fun h0 => hne (UInt8.toNat.inj h0)
  have hlength : (rest.take n.toNat).length = min n.toNat rest.length := List.length_take
  omega

/-! ## From structures to data and back -/

theorem scan_of_ending (h : Ending raw) : scan raw = [] := by
  cases raw with
  | nil => exact scan_nil
  | cons n rest => rw [scan, if_pos (ending_cons_iff.mp h)]

theorem scan_of_not_ending (h : ¬Ending (n :: rest)) :
    scan (n :: rest) = rest.take n.toNat :: scan (rest.drop n.toNat) := by
  rw [scan, if_neg (mt ending_cons_iff.mpr h)]

/-- A structure behind its length comes first, whatever follows. -/
theorem scan_structure {s : Bytes} (hpos : 1 ≤ s.length) (hle : s.length ≤ 255) (rest : Bytes) :
    scan (UInt8.ofNat s.length :: (s ++ rest)) = s :: scan rest := by
  have hlength : (UInt8.ofNat s.length).toNat = s.length := by
    rw [UInt8.toNat_ofNat']
    omega
  have hmore : ¬Ending (UInt8.ofNat s.length :: (s ++ rest)) := by
    rw [ending_cons_iff, hlength, List.take_left, not_or]
    constructor
    · intro h0
      have hzero : s.length = 0 := hlength.symm.trans (congrArg UInt8.toNat h0)
      omega
    · exact Nat.lt_irrefl _
  rw [scan_of_not_ending hmore, hlength, List.take_left, List.drop_left]

theorem scan_encode_append {structures : List Bytes}
    (hsizes : ∀ s ∈ structures, 1 ≤ s.length ∧ s.length ≤ 255) (h : Ending rest) :
    scan (encode structures ++ rest) = structures := by
  induction structures with
  | nil => exact scan_of_ending h
  | cons s later ih =>
    obtain ⟨⟨hpos, hle⟩, hlater⟩ := List.forall_mem_cons.mp hsizes
    rw [encode_cons, List.cons_append, List.append_assoc, scan_structure hpos hle, ih hlater]

theorem scan_encode {structures : List Bytes}
    (hsizes : ∀ s ∈ structures, 1 ≤ s.length ∧ s.length ≤ 255) :
    scan (encode structures) = structures := by
  have hscan := scan_encode_append hsizes (.inl rfl : Ending [])
  rwa [List.append_nil] at hscan

/-- A length byte counts up to 255, and a length of zero ends the scan. -/
theorem length_of_mem_scan {s : Bytes} (h : s ∈ scan raw) : 1 ≤ s.length ∧ s.length ≤ 255 := by
  fun_induction scan raw with
  | case1 => cases h
  | case2 n rest body hend => cases h
  | case3 n rest body hend ih =>
    rcases List.mem_cons.mp h with rfl | hlater
    · obtain ⟨hpos, hlength, -⟩ := length_of_not_ending (mt ending_cons_iff.mp hend)
      have hbound := n.toNat_lt
      have hbody : body.length = n.toNat := hlength
      omega
    · exact ih hlater

/-- Nothing is lost by a scan but the end. -/
theorem exists_ending (raw : Bytes) : ∃ rest, raw = encode (scan raw) ++ rest ∧ Ending rest := by
  fun_induction scan raw with
  | case1 => exact ⟨[], rfl, .inl rfl⟩
  | case2 n rest body hend => exact ⟨n :: rest, rfl, ending_cons_iff.mpr hend⟩
  | case3 n rest body hend ih =>
    obtain ⟨last, hrest, hlast⟩ := ih
    obtain ⟨-, hlength, -⟩ := length_of_not_ending (mt ending_cons_iff.mp hend)
    have hbyte : UInt8.ofNat body.length = n := by
      rw [hlength, UInt8.ofNat_toNat]
    refine ⟨last, ?_, hlast⟩
    rw [encode_cons, hbyte, List.cons_append, List.append_assoc, ← hrest]
    exact congrArg (n :: ·) (List.take_append_drop n.toNat rest).symm

/-! ## The scan in checked arithmetic -/

/-- What a scan finds next, if anything, and the data left: one look at the length, and two
stretches of the data. -/
def checkedNext (raw : Bytes) : Option (Option Bytes × Bytes) :=
  if raw.length ≤ 1 then some (none, raw)
  else do
    let n ← raw[0]?
    let stop ← Word.add? n.toNat 1
    if n.toNat = 0 ∨ raw.length < stop then return (none, [])
    else
      let body ← raw.slice? 1 stop
      let rest ← raw.slice? stop raw.length
      return (some body, rest)

/-- The structures found until there is no next one. There is no value if a step has none, or if
more looks are needed than allowed. -/
def checkedScan : Nat → Bytes → Option (List Bytes)
  | 0, _ => none
  | looks + 1, raw => do
    let (found, rest) ← checkedNext raw
    match found with
    | none => return []
    | some body =>
      let later ← checkedScan looks rest
      return body :: later

theorem checkedNext_long (hlong : ¬(n :: rest).length ≤ 1) :
    checkedNext (n :: rest) =
      if n = 0 ∨ (n :: rest).length < n.toNat + 1 then some (none, [])
      else do
        let body ← Bytes.slice? (n :: rest) 1 (n.toNat + 1)
        let rest ← Bytes.slice? (n :: rest) (n.toNat + 1) (n :: rest).length
        return (some body, rest) := by
  have hstop : Word.add? n.toNat 1 = some (n.toNat + 1) :=
    Word.add?_eq (Nat.lt_of_le_of_lt n.toNat_lt (by decide))
  have hzero : n.toNat = 0 ↔ n = 0 := ⟨fun h => UInt8.toNat.inj h, fun h => h ▸ rfl⟩
  rw [checkedNext, if_neg hlong]
  simp only [List.getElem?_cons_zero, hstop, hzero, Option.bind_eq_bind, Option.bind_some,
    Option.pure_def]

theorem checkedNext_of_ending (h : Ending raw) : ∃ left, checkedNext raw = some (none, left) := by
  by_cases hlong : raw.length ≤ 1
  · exact ⟨raw, if_pos hlong⟩
  · cases raw with
    | nil => exact absurd (Nat.zero_le 1) hlong
    | cons n rest =>
      have hlength : (rest.take n.toNat).length = min n.toNat rest.length := List.length_take
      have hend : n = 0 ∨ (n :: rest).length < n.toNat + 1 := by
        rw [List.length_cons]
        exact (ending_cons_iff.mp h).imp_right (by omega)
      exact ⟨[], by rw [checkedNext_long hlong, if_pos hend]⟩

theorem checkedNext_of_not_ending (h : ¬Ending (n :: rest)) :
    checkedNext (n :: rest) = some (some (rest.take n.toNat), rest.drop n.toNat) := by
  obtain ⟨hpos, -, hle⟩ := length_of_not_ending h
  have hstop : n.toNat + 1 ≤ (n :: rest).length := Nat.succ_le_succ hle
  have hlong : ¬(n :: rest).length ≤ 1 := by omega
  have hmore : ¬(n = 0 ∨ (n :: rest).length < n.toNat + 1) := by
    rw [not_or]
    exact ⟨fun h0 => h (ending_cons_iff.mpr (.inl h0)), by omega⟩
  have hbody : Bytes.slice? (n :: rest) 1 (n.toNat + 1) = some (rest.take n.toNat) :=
    Bytes.slice?_eq (by omega) hstop
  have hrest : Bytes.slice? (n :: rest) (n.toNat + 1) (n :: rest).length =
      some (rest.drop n.toNat) := Bytes.slice?_back hstop
  rw [checkedNext_long hlong, if_neg hmore]
  simp only [hbody, hrest, Option.bind_eq_bind, Option.bind_some, Option.pure_def]

/-- Each structure takes two bytes of the data at least, so that half as many looks are enough. -/
theorem checkedScan_eq {looks : Nat} (h : raw.length / 2 < looks) :
    checkedScan looks raw = some (scan raw) := by
  induction looks generalizing raw with
  | zero => omega
  | succ looks ih =>
    by_cases hend : Ending raw
    · obtain ⟨left, hnext⟩ := checkedNext_of_ending hend
      rw [checkedScan, hnext, scan_of_ending hend]
      rfl
    · cases raw with
      | nil => exact absurd (.inl rfl) hend
      | cons n rest =>
        obtain ⟨hpos, -, hle⟩ := length_of_not_ending hend
        have hfewer : (rest.drop n.toNat).length / 2 < looks := by
          rw [List.length_cons] at h
          rw [List.length_drop]
          omega
        rw [checkedScan, checkedNext_of_not_ending hend, scan_of_not_ending hend]
        simp only [Option.bind_eq_bind, Option.bind_some, ih hfewer, Option.pure_def]

/-- Advertising data has one reading. A scan finds structures of 1 to 255 bytes that, each behind
its length and with an end behind them, are the data; and whatever such structures and such an end
spell the data, it is these structures that a scan finds. In checked arithmetic a scan has a value on
all data, and ends after one look at every second byte and one more. -/
theorem scan_unique (raw : Bytes) :
    (∀ structures, scan raw = structures ↔
      (∀ s ∈ structures, 1 ≤ s.length ∧ s.length ≤ 255) ∧
        ∃ rest, raw = encode structures ++ rest ∧ Ending rest) ∧
    checkedScan (raw.length / 2 + 1) raw = some (scan raw) := by
  refine ⟨fun structures => ⟨?_, ?_⟩, checkedScan_eq (Nat.lt_succ_self _)⟩
  · rintro rfl
    exact ⟨fun s hs => length_of_mem_scan hs, exists_ending raw⟩
  · rintro ⟨hsizes, rest, rfl, hrest⟩
    exact scan_encode_append hsizes hrest

/-- Two structures, and a third one that is cut off. -/
theorem scan_unique_of_two :
    let structures : List Bytes := [[0x01, 0x06], [0x09]]
    let rest : Bytes := [5, 0xff, 0x01, 0x02]
    (∀ s ∈ structures, 1 ≤ s.length ∧ s.length ≤ 255) ∧ Ending rest ∧
      scan [2, 0x01, 0x06, 1, 0x09, 5, 0xff, 0x01, 0x02] = structures := by
  intro structures rest
  have hsizes : ∀ s ∈ structures, 1 ≤ s.length ∧ s.length ≤ 255 := by decide
  have hrest : Ending rest := .inr (.inr ⟨5, [0xff, 0x01, 0x02], rfl, by decide⟩)
  obtain ⟨hreading, -⟩ := scan_unique [2, 0x01, 0x06, 1, 0x09, 5, 0xff, 0x01, 0x02]
  exact ⟨hsizes, hrest, (hreading structures).mpr ⟨hsizes, rest, rfl, hrest⟩⟩

end SerialBridge.Advertisement
