/-!
# Byte strings

Byte strings are plain lists. Beside them stand the two readings that the formats need: numbers
written least significant byte first, and a string cut into pieces of one length.
-/

namespace SerialBridge

abbrev Bytes := List UInt8

namespace Bytes

/-- The number that the bytes spell, least significant byte first. -/
def toNatLE : Bytes → Nat
  | [] => 0
  | b :: bs => b.toNat + 256 * toNatLE bs

/-- The lowest `width` bytes of a number, least significant byte first. -/
def ofNatLE : Nat → Nat → Bytes
  | 0, _ => []
  | width + 1, n => UInt8.ofNat n :: ofNatLE width (n / 256)

@[simp] theorem length_ofNatLE (width n : Nat) : (ofNatLE width n).length = width := by
  induction width generalizing n with
  | zero => rfl
  | succ w ih => simp [ofNatLE, ih]

/-- The 16-bit number in the first two bytes; what follows them does not matter. -/
def u16? (bs : Bytes) : Option UInt16 :=
  if bs.length < 2 then none else some (UInt16.ofNat (toNatLE (bs.take 2)))

/-- The 32-bit number in the first four bytes; what follows them does not matter. -/
def u32? (bs : Bytes) : Option UInt32 :=
  if bs.length < 4 then none else some (UInt32.ofNat (toNatLE (bs.take 4)))

theorem toNatLE_lt (bs : Bytes) : toNatLE bs < Nat.pow 256 bs.length := by
  induction bs with
  | nil => exact Nat.one_pos
  | cons b bs ih =>
    have hb := b.toNat_lt
    change b.toNat + 256 * toNatLE bs < Nat.pow 256 bs.length * 256
    omega

theorem exists_u16? {bs : Bytes} (h : 2 ≤ bs.length) :
    ∃ n, u16? bs = some n ∧ n.toNat = toNatLE (bs.take 2) := by
  have hlt := toNatLE_lt (bs.take 2)
  rw [List.length_take, Nat.min_eq_left h, show Nat.pow 256 2 = 65536 from rfl] at hlt
  refine ⟨_, if_neg (by omega), ?_⟩
  rw [UInt16.toNat_ofNat']
  omega

theorem exists_u32? {bs : Bytes} (h : 4 ≤ bs.length) :
    ∃ n, u32? bs = some n ∧ n.toNat = toNatLE (bs.take 4) := by
  have hlt := toNatLE_lt (bs.take 4)
  rw [List.length_take, Nat.min_eq_left h, show Nat.pow 256 4 = 4294967296 from rfl] at hlt
  refine ⟨_, if_neg (by omega), ?_⟩
  rw [UInt32.toNat_ofNat']
  omega

/-- A number that fits is read back from its bytes. -/
theorem toNatLE_ofNatLE {width n : Nat} (h : n < Nat.pow 256 width) :
    toNatLE (ofNatLE width n) = n := by
  induction width generalizing n with
  | zero =>
    have hzero : n = 0 := Nat.lt_one_iff.mp h
    rw [hzero]
    rfl
  | succ width ih =>
    have hrest : n / 256 < Nat.pow 256 width :=
      Nat.div_lt_of_lt_mul (Nat.lt_of_lt_of_eq h (Nat.mul_comm _ _))
    rw [ofNatLE, toNatLE, ih hrest, UInt8.toNat_ofNat']
    omega

theorem u16?_ofNatLE (n : UInt16) (rest : Bytes) : u16? (ofNatLE 2 n.toNat ++ rest) = some n := by
  have hlength : ¬(ofNatLE 2 n.toNat ++ rest).length < 2 := by
    rw [List.length_append, length_ofNatLE]
    omega
  have htake : (ofNatLE 2 n.toNat ++ rest).take 2 = ofNatLE 2 n.toNat :=
    List.take_left' (length_ofNatLE _ _)
  rw [u16?, if_neg hlength, htake, toNatLE_ofNatLE n.toNat_lt, UInt16.ofNat_toNat]

theorem u32?_ofNatLE (n : UInt32) (rest : Bytes) : u32? (ofNatLE 4 n.toNat ++ rest) = some n := by
  have hlength : ¬(ofNatLE 4 n.toNat ++ rest).length < 4 := by
    rw [List.length_append, length_ofNatLE]
    omega
  have htake : (ofNatLE 4 n.toNat ++ rest).take 4 = ofNatLE 4 n.toNat :=
    List.take_left' (length_ofNatLE _ _)
  rw [u32?, if_neg hlength, htake, toNatLE_ofNatLE n.toNat_lt, UInt32.ofNat_toNat]

/-- The bytes in place of the front of a buffer, whose other bytes stay as they were. -/
def overlay (front buffer : Bytes) : Bytes := front ++ buffer.drop front.length

/-- Consecutive pieces of `n` bytes, the last one possibly shorter. -/
def pieces (n : Nat) (bs : Bytes) : List Bytes :=
  if n = 0 ∨ bs = [] then [] else bs.take n :: pieces n (bs.drop n)
termination_by bs.length
decreasing_by
  rename_i h
  have hb : bs.length ≠ 0 := by
    intro h0
    exact h (Or.inr (List.eq_nil_of_length_eq_zero h0))
  simp only [List.length_drop]
  omega

@[simp] theorem pieces_nil (n : Nat) : pieces n [] = [] := by
  rw [pieces]; simp

theorem pieces_of_ne_nil {n : Nat} {bs : Bytes} (hn : n ≠ 0) (hb : bs ≠ []) :
    pieces n bs = bs.take n :: pieces n (bs.drop n) := by
  rw [pieces]; simp [hn, hb]

end Bytes

end SerialBridge
