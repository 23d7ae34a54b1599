import SerialBridge.Bytes

/-!
# Checked arithmetic

Sums and differences of machine words, and stretches of buffers. Each has a value only where a
machine of 64 bits has one: no sum overflows, no difference is negative, no stretch leaves its
buffer, and what is copied over a stretch is as long as the stretch.
-/

namespace SerialBridge

namespace Word

/-- The first number that does not fit in a word: 2 to the power of 64. -/
def limit : Nat := 0x10000000000000000

/-- A quarter of the words: 2 to the power of 62. -/
def quarter : Nat := 0x4000000000000000

def add? (a b : Nat) : Option Nat := if a + b < limit then some (a + b) else none

def sub? (a b : Nat) : Option Nat := if b ≤ a then some (a - b) else none

theorem limit_eq : limit = 4 * quarter := rfl

theorem add?_eq {a b : Nat} (h : a + b < limit) : add? a b = some (a + b) := if_pos h

theorem sub?_eq {a b : Nat} (h : b ≤ a) : sub? a b = some (a - b) := if_pos h

end Word

namespace Bytes

/-- The bytes from `start` on, up to `stop` and without it. -/
def slice? (bs : Bytes) (start stop : Nat) : Option Bytes :=
  if start ≤ stop ∧ stop ≤ bs.length then some ((bs.take stop).drop start) else none

/-- The buffer with `src` in the place of the bytes from `start` on, up to `stop` and without it. -/
def replace? (bs : Bytes) (start stop : Nat) (src : Bytes) : Option Bytes :=
  if start ≤ stop ∧ stop ≤ bs.length ∧ src.length = stop - start then
    some (bs.take start ++ src ++ bs.drop stop)
  else none

variable {bs src : Bytes} {start stop : Nat}

theorem slice?_eq (h : start ≤ stop) (hs : stop ≤ bs.length) :
    bs.slice? start stop = some ((bs.take stop).drop start) := if_pos ⟨h, hs⟩

theorem slice?_front (h : stop ≤ bs.length) : bs.slice? 0 stop = some (bs.take stop) :=
  slice?_eq (Nat.zero_le stop) h

theorem slice?_back (h : start ≤ bs.length) :
    bs.slice? start bs.length = some (bs.drop start) := by
  rw [slice?_eq h (Nat.le_refl _), List.take_length]

theorem replace?_eq (h : start + src.length ≤ bs.length) :
    bs.replace? start (start + src.length) src =
      some (bs.take start ++ src ++ bs.drop (start + src.length)) :=
  if_pos ⟨Nat.le_add_right _ _, h, by omega⟩

theorem replace?_back (h : start ≤ bs.length) (hl : src.length = bs.length - start) :
    bs.replace? start bs.length src = some (bs.take start ++ src) := by
  rw [replace?, if_pos ⟨h, Nat.le_refl _, hl⟩, List.drop_length, List.append_nil]

theorem replace?_front (h : src.length ≤ bs.length) :
    bs.replace? 0 src.length src = some (src.overlay bs) :=
  if_pos ⟨Nat.zero_le _, h, rfl⟩

/-- Bytes laid over a stretch at the front, and that put back in its place, are laid over it all. -/
theorem replace?_overlay {front : Bytes} (hf : front.length ≤ stop) (hs : stop ≤ bs.length) :
    bs.replace? 0 stop (front.overlay (bs.take stop)) = some (front.overlay bs) := by
  have hlength : (front.overlay (bs.take stop)).length = stop := by
    rw [overlay, List.length_append, List.length_drop, List.length_take]
    omega
  have hback : (bs.take stop).drop front.length ++ bs.drop stop = bs.drop front.length := by
    have hle : front.length ≤ (bs.take stop).length := by
      rw [List.length_take]
      omega
    rw [← List.drop_append_of_le_length hle, List.take_append_drop]
  have hreplace := replace?_front
    (show (front.overlay (bs.take stop)).length ≤ bs.length by omega)
  rw [hlength] at hreplace
  rw [hreplace, overlay, hlength, overlay, overlay, List.append_assoc, hback]

end Bytes

end SerialBridge
