import SerialBridge.Proofs.Advertisement.SecondGeneration

/-!
# What decoding does not depend on

The order of the structures does not matter where no kind that carries fields is repeated. Structures
of none of the kinds that the decoders know do not matter anywhere, and neither does what stands
behind the last structure.
-/

namespace SerialBridge.Advertisement

open FirstGeneration (isManufacturerData)
open SecondGeneration (isStatus isPartner)

variable {structures others more : List Bytes} {kind : Bytes → Bool} {s : Bytes}

/-- The six kinds that the decoders know: two names, the list with the bridge service, and three
structures of manufacturer data. -/
def Recognised (s : Bytes) : Prop :=
  s = FirstGeneration.name ∨ s = FirstGeneration.serviceList ∨ FirstGeneration.Marked s ∨
    s = SecondGeneration.name ∨ SecondGeneration.Status s ∨ SecondGeneration.Partner s

/-- Structures, and the same with others of no known kind put in anywhere. -/
inductive Inserted : List Bytes → List Bytes → Prop where
  | nil : Inserted [] []
  | keep (s : Bytes) {structures more : List Bytes} (rest : Inserted structures more) :
    Inserted (s :: structures) (s :: more)
  | insert {s : Bytes} {structures more : List Bytes} (hs : ¬Recognised s)
    (rest : Inserted structures more) : Inserted structures (s :: more)

/-- The decoders look at nothing but whether three structures are there and which the last one is of
three kinds. -/
theorem decode_congr {raw other : Bytes}
    (hmem : ∀ s, s = FirstGeneration.name ∨ s = FirstGeneration.serviceList ∨
      s = SecondGeneration.name → (s ∈ scan raw ↔ s ∈ scan other))
    (hfields : last? FirstGeneration.isManufacturerData (scan raw) =
      last? FirstGeneration.isManufacturerData (scan other))
    (hstatus : last? SecondGeneration.isStatus (scan raw) =
      last? SecondGeneration.isStatus (scan other))
    (hpartner : last? SecondGeneration.isPartner (scan raw) =
      last? SecondGeneration.isPartner (scan other)) :
    decode raw = decode other := by
  have hfirst : FirstGeneration.decode raw = FirstGeneration.decode other := by
    have hnamed := hmem _ (.inl rfl)
    have hlisted := hmem _ (.inr (.inl rfl))
    simp only [FirstGeneration.decode, FirstGeneration.foldl_note, hnamed, hlisted, hfields]
  have hsecond : SecondGeneration.decode raw = SecondGeneration.decode other := by
    have hnamed := hmem _ (.inr (.inr rfl))
    simp only [SecondGeneration.decode, SecondGeneration.foldl_note, hnamed, hstatus, hpartner]
  rw [decode, decode, hfirst, hsecond]

theorem Inserted.mem_iff (h : Inserted structures more) (hs : Recognised s) :
    s ∈ structures ↔ s ∈ more := by
  induction h with
  | nil => rfl
  | keep t rest ih => rw [List.mem_cons, List.mem_cons, ih]
  | @insert t structures more ht rest ih =>
    have hne : s ≠ t := by
      rintro rfl
      exact ht hs
    rw [ih, List.mem_cons, or_iff_right hne]

theorem Inserted.last?_eq (h : Inserted structures more)
    (hkind : ∀ s, kind s = true → Recognised s) : last? kind structures = last? kind more := by
  have hfilter : structures.filter kind = more.filter kind := by
    induction h with
    | nil => rfl
    | keep t rest ih => rw [List.filter_cons, List.filter_cons, ih]
    | insert ht rest ih =>
      rw [ih, List.filter_cons_of_neg (mt (hkind _) ht)]
  rw [last?, last?, hfilter]

/-- Decoding does not depend on order or on structures of no known kind. A permutation of structures
among which no kind that carries fields is repeated is decoded alike; so are structures with others
of no known kind put in anywhere, be the known ones repeated or not; and so is the data with a length
of zero and anything, or a structure that is cut off, behind the last structure. -/
theorem decode_indifferent (structures : List Bytes)
    (hsizes : ∀ s ∈ structures, 1 ≤ s.length ∧ s.length ≤ 255) :
    (∀ others, structures.Perm others → structures.countP isManufacturerData ≤ 1 →
      structures.countP isStatus ≤ 1 → structures.countP isPartner ≤ 1 →
        decode (encode others) = decode (encode structures)) ∧
    (∀ more, Inserted structures more → (∀ s ∈ more, 1 ≤ s.length ∧ s.length ≤ 255) →
      decode (encode more) = decode (encode structures)) ∧
    (∀ later, decode (encode structures ++ 0 :: later) = decode (encode structures)) ∧
    ∀ (n : UInt8) (part : Bytes), part.length < n.toNat →
      decode (encode structures ++ n :: part) = decode (encode structures) := by
  have hscan := scan_encode hsizes
  have hending (rest : Bytes) (hrest : Ending rest) :
      decode (encode structures ++ rest) = decode (encode structures) := by
    have hsame : scan (encode structures ++ rest) = scan (encode structures) := by
      rw [hscan, scan_encode_append hsizes hrest]
    apply decode_congr <;> rw [hsame]
    exact fun s _ => Iff.rfl
  refine ⟨?_, ?_, fun later => hending _ (.inr (.inl ⟨later, rfl⟩)),
    fun n part hshort => hending _ (.inr (.inr ⟨n, part, rfl, hshort⟩))⟩
  · intro others hperm hfields hstatus hpartner
    have hothers : scan (encode others) = others :=
      scan_encode fun s hs => hsizes s (hperm.mem_iff.mpr hs)
    apply decode_congr <;> rw [hscan, hothers]
    · exact fun s _ => hperm.symm.mem_iff
    · exact (last?_perm hperm hfields).symm
    · exact (last?_perm hperm hstatus).symm
    · exact (last?_perm hperm hpartner).symm
  · intro more hinserted hmore
    apply decode_congr <;> rw [hscan, scan_encode hmore]
    · rintro s (rfl | rfl | rfl)
      · exact (hinserted.mem_iff (.inl rfl)).symm
      · exact (hinserted.mem_iff (.inr (.inl rfl))).symm
      · exact (hinserted.mem_iff (.inr (.inr (.inr (.inl rfl))))).symm
    · refine (hinserted.last?_eq fun s hs => ?_).symm
      exact .inr (.inr (.inl (FirstGeneration.isManufacturerData_iff.mp hs)))
    · refine (hinserted.last?_eq fun s hs => ?_).symm
      exact .inr (.inr (.inr (.inr (.inl (SecondGeneration.isStatus_iff.mp hs)))))
    · refine (hinserted.last?_eq fun s hs => ?_).symm
      exact .inr (.inr (.inr (.inr (.inr (SecondGeneration.isPartner_iff.mp hs)))))

/-- The marks of both generations in two orders, with an unknown structure put in between, and with
a structure cut off at the end. -/
theorem decode_indifferent_of_both :
    let a : FirstGeneration := ⟨0x12345678, 0xdeadbeef, 8, 0⟩
    let b : SecondGeneration := ⟨1, 2, ⟨3⟩, 4, some [5, 6]⟩
    let structures := a.structures ++ b.structures 0
    let others := b.structures 0 ++ a.structures
    let more := FirstGeneration.name :: [0x01, 0x06] :: (a.structures.tail ++ b.structures 0)
    structures.Perm others ∧ Inserted structures more ∧
      decode (encode others) = decode (encode structures) ∧
      decode (encode more) = decode (encode structures) ∧
      decode (encode structures ++ [0, 2, 0x0a, 0x00]) = decode (encode structures) ∧
      decode (encode structures ++ [9, 0x09, 0x50]) = decode (encode structures) := by
  intro a b structures others more
  have hsizes : ∀ s ∈ structures, 1 ≤ s.length ∧ s.length ≤ 255 := by decide
  have hunknown : ¬Recognised [0x01, 0x06] := by
    rintro (h | h | h | h | h | h)
    · cases h
    · cases h
    · cases h.1
    · cases h
    · cases h.1
    · exact absurd h.1 (by decide)
  have hinserted : Inserted structures more := by
    have hsame (rest : List Bytes) : Inserted rest rest := by
      induction rest with
      | nil => exact .nil
      | cons s rest ih => exact .keep s ih
    exact .keep _ (.insert hunknown (hsame _))
  have hperm : structures.Perm others := List.perm_append_comm
  obtain ⟨horder, hforeign, hzero, hshort⟩ := decode_indifferent structures hsizes
  exact ⟨hperm, hinserted, horder others hperm (by decide) (by decide) (by decide),
    hforeign more hinserted (by decide), hzero [2, 0x0a, 0x00], hshort 9 [0x09, 0x50] (by decide)⟩

end SerialBridge.Advertisement
