import SerialBridge.Bytes

/-!
# Byte queues

What the two directions of a bridge need of the queue that holds their bytes. A plain list of bytes
is the queue that every other one has to agree with.
-/

namespace SerialBridge

class ByteQueue (Q : Type) where
  /-- An empty queue that grows by the given number of bytes at least. -/
  withGrowth : Nat → Q
  /-- The number of bytes held. -/
  queued : Q → Nat
  write : Q → Bytes → Q
  /-- Takes up to the given number of bytes off the front. -/
  read : Q → Nat → Bytes × Q

instance : ByteQueue (List UInt8) where
  withGrowth _ := []
  queued bs := bs.length
  write bs src := bs ++ src
  read bs n := (bs.take n, bs.drop n)

namespace ByteQueue

variable {Q : Type} [ByteQueue Q]

/-- Reads into a buffer: the count, the buffer with its front overwritten, and what stays queued. -/
def readInto (q : Q) (buffer : Bytes) : Nat × Bytes × Q :=
  let (data, rest) := read q buffer.length
  (data.length, data.overlay buffer, rest)

end ByteQueue

/-!
## Ring queue

A byte queue over a buffer that is used in a circle. `head` is the cell of the next byte written,
`tail` that of the next byte read. Equal cursors mean an empty queue, so one cell always stays
free; a queue that is read empty starts again at cell 0. The buffer grows and never shrinks.

Memory is taken to be there: every operation gets the buffer that it asks for. But there is a size
that no buffer exceeds, whatever the memory, and a queue that asks for more than that is lost with
all that depends on it. The operations do not look at that size; `fits` tells whether a queue has
kept to it. As a buffer never shrinks, a queue that fits has fitted all along.
-/

/-- No buffer has more bytes. -/
def bufferLimit : Nat := 9223372036854775807

structure Ring where
  cells : ByteArray
  head : Nat
  tail : Nat
  /-- The least number of cells added when the buffer grows. -/
  growth : Nat

instance : DecidableEq Ring := fun a b =>
  decidable_of_iff
    (a.cells.data = b.cells.data ∧ a.head = b.head ∧ a.tail = b.tail ∧ a.growth = b.growth) (by
      cases a
      cases b
      simp [ByteArray.ext_iff])

namespace Ring

def withGrowth (growth : Nat) : Ring := ⟨.empty, 0, 0, max growth 1⟩

def queued (q : Ring) : Nat :=
  if q.tail ≤ q.head then q.head - q.tail else q.cells.size + q.head - q.tail

/-- Whether there is such a buffer. -/
def fits (q : Ring) : Bool := q.cells.size ≤ bufferLimit

/-- The cells in use, oldest first: one stretch of them, or two when the content wraps. -/
def content (q : Ring) : ByteArray :=
  if q.tail ≤ q.head then q.cells.extract q.tail q.head
  else q.cells.extract q.tail q.cells.size ++ q.cells.extract 0 q.head

/-- The bytes held, oldest first. -/
def toList (q : Ring) : Bytes := q.content.data.toList

/-- Store bytes in consecutive cells from the cell `start` on. -/
def store (cells : ByteArray) (start : Nat) : Bytes → ByteArray
  | [] => cells
  | b :: bs => store (cells.set! start b) (start + 1) bs

@[simp] theorem size_store (cells : ByteArray) (start : Nat) (bs : Bytes) :
    (store cells start bs).size = cells.size := by
  induction bs generalizing cells start with
  | nil => rfl
  | cons b bs ih => simp [store, ih]

/-- Move the reading cursor; a queue left empty starts again at cell 0. -/
def moveTail (q : Ring) (tail : Nat) : Ring :=
  if tail = q.head then { q with head := 0, tail := 0 } else { q with tail := tail }

/-- Takes up to `n` bytes: from the tail to the head, or to the end of the buffer and then, if that
end was reached, from the start of it. -/
def read (q : Ring) (n : Nat) : Bytes × Ring :=
  if q.tail ≤ q.head then
    let k := min n (q.head - q.tail)
    ((q.cells.extract q.tail (q.tail + k)).data.toList, q.moveTail (q.tail + k))
  else
    let k := min n (q.cells.size - q.tail)
    let first := (q.cells.extract q.tail (q.tail + k)).data.toList
    if q.tail + k = q.cells.size then
      let m := min (n - k) q.head
      (first ++ (q.cells.extract 0 m).data.toList, q.moveTail m)
    else (first, q.moveTail (q.tail + k))

/-- A larger buffer with at least `shortfall` more cells, the content moved to its start. -/
def grow (q : Ring) (shortfall : Nat) : Ring :=
  let size := q.cells.size + max shortfall q.growth
  { q with
    cells := q.content ++ ⟨Array.replicate (size - q.queued) 0⟩
    head := q.queued
    tail := 0 }

/-- Store bytes from the head on, in two stretches if the end of the buffer is in the way. The
cursor never rests behind the last cell. -/
def append (q : Ring) (src : Bytes) : Ring :=
  let size := q.cells.size
  let room := size - q.head
  let (cells, head) :=
    if room < src.length then
      (store (store q.cells q.head (src.take room)) 0 (src.drop room), src.length - room)
    else (store q.cells q.head src, q.head + src.length)
  { q with cells := cells, head := if head = size then 0 else head }

/-- Appends all of `src`, after the buffer has grown if it could not keep a free cell. -/
def write (q : Ring) (src : Bytes) : Ring :=
  if src = [] then q
  else
    let space := q.cells.size - q.queued
    if space ≤ src.length then (q.grow (src.length - space + 1)).append src else q.append src

end Ring

instance : ByteQueue Ring where
  withGrowth := Ring.withGrowth
  queued := Ring.queued
  write := Ring.write
  read := Ring.read

end SerialBridge
