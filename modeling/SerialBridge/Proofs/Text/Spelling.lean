import Mathlib.Data.List.Basic
import SerialBridge.Hex

/-!
# Which texts spell bytes

A text is read as bytes exactly when it is a row of hexadecimal digits of either case, two to a byte
and the high one first. Reading works on the UTF-8 codes of a text, and no code of a character
beyond ASCII is that of a digit.
-/

namespace SerialBridge.Hex

/-- The digits of both cases, each with its value. -/
def digitValues : List (Char × Nat) :=
  "0123456789abcdef".toList.zipIdx ++ "0123456789ABCDEF".toList.zipIdx

/-- Two digits for each byte, the high one first. -/
inductive Spells : List Char → Bytes → Prop where
  | nil : Spells [] []
  | byte {high low : Char} {h l : Nat} {digits : List Char} {bytes : Bytes}
    (hhigh : (high, h) ∈ digitValues) (hlow : (low, l) ∈ digitValues)
    (rest : Spells digits bytes) :
    Spells (high :: low :: digits) (UInt8.ofNat (16 * h + l) :: bytes)

variable {c : Char} {n offset : Nat} {v : UInt8} {text digits : List Char}
  {bytes : Bytes}

/-! ## One character -/

theorem value?_digit (hc : (c, n) ∈ digitValues) :
    c.toNat < 128 ∧ value? (UInt8.ofNat c.toNat) = some (UInt8.ofNat n) := by
  have htable : ∀ p ∈ digitValues,
      p.1.toNat < 128 ∧ value? (UInt8.ofNat p.1.toNat) = some (UInt8.ofNat p.2) := by
    decide +kernel
  exact htable (c, n) hc

theorem digit_of_value? (hc : c.toNat < 128) (hv : value? (UInt8.ofNat c.toNat) = some v) :
    (c, v.toNat) ∈ digitValues := by
  have htable : ∀ code : Fin 128, (value? (UInt8.ofNat code)).all
      (fun v => (Char.ofNat code, v.toNat) ∈ digitValues) = true := by
    decide +kernel
  have hentry := htable ⟨c.toNat, hc⟩
  rw [hv, Option.all_some, decide_eq_true_eq, Char.ofNat_toNat] at hentry
  exact hentry

/-- No code above those of ASCII is that of a digit. -/
theorem value?_of_high (hv : 128 ≤ v.toNat) : value? v = none := by
  simp only [value?, UInt8.le_iff_toNat_le]
  rw [if_neg, if_neg, if_neg]
  all_goals
    rintro ⟨-, hle⟩
    simp at hle
    omega

/-- The codes of a character: one in ASCII, and beyond it several, the first of which is high. -/
theorem utf8EncodeChar_cases (c : Char) :
    c.toNat < 128 ∧ String.utf8EncodeChar c = [UInt8.ofNat c.toNat] ∨
      ∃ code more, String.utf8EncodeChar c = code :: more ∧ 128 ≤ code.toNat := by
  by_cases hc : c.toNat < 128
  · have hle : c.val.toNat ≤ 127 := Nat.le_of_lt_succ hc
    refine .inl ⟨hc, ?_⟩
    rw [String.utf8EncodeChar]
    exact if_pos hle
  · have hgt : ¬c.val.toNat ≤ 127 := fun hle => hc (Nat.lt_succ_of_le hle)
    right
    simp only [String.utf8EncodeChar, if_neg hgt]
    split
    · refine ⟨_, _, rfl, ?_⟩
      rw [UInt8.toNat_ofNat']
      omega
    · split
      · refine ⟨_, _, rfl, ?_⟩
        rw [UInt8.toNat_ofNat']
        omega
      · refine ⟨_, _, rfl, ?_⟩
        rw [UInt8.toNat_ofNat']
        omega

/-! ## From digits to bytes and back -/

theorem ofNat_digits (h l : Nat) :
    UInt8.ofNat (16 * h + l) = UInt8.ofNat h * 16 + UInt8.ofNat l := by
  rw [UInt8.ofNat_add, UInt8.ofNat_mul, UInt8.mul_comm]
  rfl

theorem codes_of_ascii (hc : c.toNat < 128) (rest : List Char) :
    codes (c :: rest) = UInt8.ofNat c.toNat :: codes rest := by
  have hchar : String.utf8EncodeChar c = [UInt8.ofNat c.toNat] := if_pos (Nat.le_of_lt_succ hc)
  rw [codes, List.flatMap_cons, hchar]
  rfl

theorem pairs_of_spells (hs : Spells digits bytes) (offset : Nat) :
    (codes digits).length % 2 = 0 ∧ pairs offset (codes digits) = .ok bytes := by
  induction hs generalizing offset with
  | nil => exact ⟨rfl, rfl⟩
  | @byte high low h l digits bytes hhigh hlow rest ih =>
    obtain ⟨hhighAscii, hhighValue⟩ := value?_digit hhigh
    obtain ⟨hlowAscii, hlowValue⟩ := value?_digit hlow
    obtain ⟨heven, hpairs⟩ := ih (offset + 2)
    rw [codes_of_ascii hhighAscii, codes_of_ascii hlowAscii]
    constructor
    · rw [List.length_cons, List.length_cons]
      omega
    · simp only [pairs, value, hhighValue, hlowValue, hpairs]
      rw [ofNat_digits]
      rfl

/-- The first two codes of an even row that is read, and what is behind them. -/
theorem eq_of_pairs {code : UInt8} {more : List UInt8} (heven : (code :: more).length % 2 = 0)
    (hpairs : pairs offset (code :: more) = .ok bytes) :
    ∃ next rest v w later, more = next :: rest ∧ value? code = some v ∧ value? next = some w ∧
      pairs (offset + 2) rest = .ok later ∧ bytes = (v * 16 + w) :: later := by
  cases more with
  | nil => cases heven
  | cons next rest =>
    rw [pairs] at hpairs
    cases hv : value? code with
    | none =>
      simp only [value, hv] at hpairs
      cases hpairs
    | some v =>
      cases hw : value? next with
      | none =>
        simp only [value, hv, hw] at hpairs
        cases hpairs
      | some w =>
        cases hrest : pairs (offset + 2) rest with
        | error e =>
          simp only [value, hv, hw, hrest] at hpairs
          cases hpairs
        | ok later =>
          simp only [value, hv, hw, hrest] at hpairs
          cases hpairs
          exact ⟨next, rest, v, w, later, rfl, rfl, hw, hrest, rfl⟩

/-- A character whose first code is that of a digit is that digit. -/
theorem eq_of_codes {code : UInt8} {more : List UInt8} (hcodes : codes (c :: text) = code :: more)
    (hv : value? code = some v) : (c, v.toNat) ∈ digitValues ∧ more = codes text := by
  obtain ⟨hascii, -⟩ | ⟨high, later, hchar, hhigh⟩ := utf8EncodeChar_cases c
  · rw [codes_of_ascii hascii] at hcodes
    obtain ⟨rfl, rfl⟩ := List.cons.inj hcodes
    exact ⟨digit_of_value? hascii hv, rfl⟩
  · rw [codes, List.flatMap_cons, hchar] at hcodes
    obtain ⟨rfl, -⟩ := List.cons.inj hcodes
    rw [value?_of_high hhigh] at hv
    cases hv

theorem spells_of_pairs (heven : (codes digits).length % 2 = 0)
    (hpairs : pairs offset (codes digits) = .ok bytes) : Spells digits bytes := by
  induction hlength : digits.length using Nat.strongRecOn generalizing digits bytes offset with
  | ind length ih =>
    cases digits with
    | nil =>
      cases hpairs
      exact .nil
    | cons high rest =>
      obtain ⟨code, more, hcodes⟩ : ∃ code more, codes (high :: rest) = code :: more := by
        obtain ⟨-, hchar⟩ | ⟨code, more, hchar, -⟩ := utf8EncodeChar_cases high
        · exact ⟨_, _, by rw [codes, List.flatMap_cons, hchar]; rfl⟩
        · exact ⟨_, _, by rw [codes, List.flatMap_cons, hchar]; rfl⟩
      rw [hcodes] at heven hpairs
      obtain ⟨next, behind, v, w, later, rfl, hv, hw, hbehind, rfl⟩ := eq_of_pairs heven hpairs
      obtain ⟨hhigh, hmore⟩ := eq_of_codes hcodes hv
      cases rest with
      | nil => cases hmore
      | cons low rest =>
        obtain ⟨hlow, rfl⟩ := eq_of_codes hmore.symm hw
        have hlater : Spells rest later := by
          refine ih rest.length ?_ ?_ hbehind rfl
          · rw [← hlength, List.length_cons, List.length_cons]
            omega
          · rw [List.length_cons, List.length_cons] at heven
            omega
        have hbytes := Spells.byte hhigh hlow hlater
        rwa [ofNat_digits, UInt8.ofNat_toNat, UInt8.ofNat_toNat] at hbytes

/-- A text is read as bytes exactly when it spells them. -/
theorem decodeCodes_eq_ok_iff : decodeCodes (codes digits) = .ok bytes ↔ Spells digits bytes := by
  constructor
  · intro h
    rw [decodeCodes] at h
    split at h
    · cases h
    · exact spells_of_pairs (by omega) h
  · intro h
    obtain ⟨heven, hpairs⟩ := pairs_of_spells h 0
    rw [decodeCodes, if_neg (by omega), hpairs]

end SerialBridge.Hex
