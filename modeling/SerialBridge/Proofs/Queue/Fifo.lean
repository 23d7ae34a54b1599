import SerialBridge.Proofs.Queue.Content

/-!
# A ring is a queue

Bytes leave a ring in the order in which they came, whatever the cursors do. A read copies them into
a buffer, one stretch of cells after the other, and touches no more of the buffer than it fills.
-/

namespace SerialBridge

namespace Bytes

/-- As much of `src` as fits, copied over the front of a buffer: how much, and the buffer. -/
def copyOnto (buffer src : Bytes) : Nat × Bytes :=
  let n := min buffer.length src.length
  (n, src.take n ++ buffer.drop n)

variable {buffer a : Bytes}

theorem copyOnto_of_le (h : a.length ≤ buffer.length) :
    buffer.copyOnto a = (a.length, a ++ buffer.drop a.length) := by
  simp only [copyOnto, Nat.min_eq_right h, List.take_length]

/-- Two copies, the second one behind the first, are one copy. -/
theorem copyOnto_append (h : a.length ≤ buffer.length) (b : Bytes) :
    buffer.copyOnto (a ++ b) =
      (a.length + (Bytes.copyOnto (buffer.drop a.length) b).1,
        a ++ (Bytes.copyOnto (buffer.drop a.length) b).2) := by
  have hmin : min buffer.length (a.length + b.length) =
      a.length + min (buffer.length - a.length) b.length := by omega
  simp only [copyOnto, List.length_append, List.length_drop, hmin, List.take_length_add_append,
    List.drop_drop, List.append_assoc]

/-- A copy that fills the buffer needs no more bytes. -/
theorem copyOnto_append_of_ge (h : buffer.length ≤ a.length) (b : Bytes) :
    buffer.copyOnto (a ++ b) = buffer.copyOnto a := by
  have hmin : min buffer.length (a.length + b.length) = buffer.length := by omega
  simp only [copyOnto, List.length_append, hmin, Nat.min_eq_left h,
    List.take_append_of_le_length h]

end Bytes

namespace Ring

/-- Reads into a buffer: first the cells up to the head or the end of the ring, and then, if that
end was reached, the cells from the start of it. -/
def fill (q : Ring) (buffer : Bytes) : Nat × Bytes × Ring :=
  let cells := q.cells.data.toList
  if q.tail ≤ q.head then
    let (n, buffer) := buffer.copyOnto ((cells.take q.head).drop q.tail)
    (n, buffer, q.moveTail (q.tail + n))
  else
    let (n, buffer) := buffer.copyOnto (cells.drop q.tail)
    if q.tail + n = q.cells.size then
      let (m, rest) := Bytes.copyOnto (buffer.drop n) (cells.take q.head)
      (n + m, buffer.take n ++ rest, q.moveTail m)
    else (n, buffer, q.moveTail (q.tail + n))

/-- A read that moves the tail to a cell in range, as a copy of the content. -/
theorem readInto_of_readsTo {q : Ring} {buffer : Bytes} {tail : Nat}
    (h : q.ReadsTo buffer.length tail) :
    ByteQueue.readInto q buffer =
      ((buffer.copyOnto q.toList).1, (buffer.copyOnto q.toList).2, q.moveTail tail) := by
  obtain ⟨hr, -, -⟩ := h
  have hread : ByteQueue.read q buffer.length = q.read buffer.length := rfl
  have htake : q.toList.take (min buffer.length q.toList.length) = q.toList.take buffer.length :=
    List.take_eq_take_min.symm
  simp only [ByteQueue.readInto, hread, hr, Bytes.copyOnto, Bytes.overlay, List.length_take, htake]

theorem fill_straight {q : Ring} (h : q.Valid) (hle : q.tail ≤ q.head) (buffer : Bytes) :
    q.fill buffer = ByteQueue.readInto q buffer := by
  have hcells : (q.cells.data.toList.take q.head).drop q.tail = q.toList := by
    rw [List.drop_take, toList_eq_window, window, if_pos hle]
  have hn : (buffer.copyOnto q.toList).1 = min buffer.length (q.head - q.tail) := by
    rw [Bytes.copyOnto, length_toList h, queued, if_pos hle]
  rw [readInto_of_readsTo (read_straight h hle buffer.length), ← hn, fill, if_pos hle, hcells]

/-- Wrapped content stands in two stretches. -/
theorem toList_wrapped {q : Ring} (hlt : q.head < q.tail) :
    q.toList = q.cells.data.toList.drop q.tail ++ q.cells.data.toList.take q.head := by
  rw [toList_eq_window, window, if_neg (by omega)]

theorem fill_before_end {q : Ring} (hlt : q.head < q.tail) {buffer : Bytes}
    (hn : buffer.length < q.cells.size - q.tail) : q.fill buffer = ByteQueue.readInto q buffer := by
  have hfirst : buffer.length ≤ (q.cells.data.toList.drop q.tail).length := by
    rw [List.length_drop, length_cells]
    omega
  have hcopy := Bytes.copyOnto_append_of_ge hfirst (q.cells.data.toList.take q.head)
  have hcount : (buffer.copyOnto (q.cells.data.toList.drop q.tail)).1 = buffer.length :=
    Nat.min_eq_left hfirst
  rw [readInto_of_readsTo (read_before_end hlt hn), toList_wrapped hlt, hcopy, fill,
    if_neg (by omega)]
  simp only [hcount]
  rw [if_neg (by omega)]

theorem fill_past_end {q : Ring} (h : q.Valid) (hlt : q.head < q.tail) {buffer : Bytes}
    (hn : q.cells.size - q.tail ≤ buffer.length) :
    q.fill buffer = ByteQueue.readInto q buffer := by
  have hi := h.inside
  have hfirst : (q.cells.data.toList.drop q.tail).length = q.cells.size - q.tail := by
    rw [List.length_drop, length_cells]
  have hsecond : (q.cells.data.toList.take q.head).length = q.head := by
    rw [List.length_take, length_cells]
    omega
  have hend : q.tail + (q.cells.size - q.tail) = q.cells.size := by omega
  have hle : (q.cells.data.toList.drop q.tail).length ≤ buffer.length := by omega
  have hrest : (Bytes.copyOnto (buffer.drop (q.cells.size - q.tail))
      (q.cells.data.toList.take q.head)).1 =
      min (buffer.length - (q.cells.size - q.tail)) q.head := by
    rw [Bytes.copyOnto, hsecond, List.length_drop]
  rw [readInto_of_readsTo (read_past_end h hlt hn), toList_wrapped hlt,
    Bytes.copyOnto_append hle, fill, if_neg (by omega)]
  simp only [Bytes.copyOnto_of_le hle, hfirst, hend, if_true, List.drop_left' hfirst,
    List.take_left' hfirst, hrest]

theorem fill_eq_readInto {q : Ring} (h : q.Valid) (buffer : Bytes) :
    q.fill buffer = ByteQueue.readInto q buffer := by
  by_cases hle : q.tail ≤ q.head
  · exact fill_straight h hle buffer
  · by_cases hn : buffer.length < q.cells.size - q.tail
    · exact fill_before_end (by omega) hn
    · exact fill_past_end h (by omega) (by omega)

end Ring

/-! ## Runs of operations -/

inductive QueueOperation where
  | write (src : Bytes)
  | read (buffer : Bytes)
  deriving DecidableEq, Repr

namespace QueueOperation

/-- Operations one after another, with what each of them gives back. -/
def performAll {S : Type} (perform : S → QueueOperation → Option (Nat × Bytes) × S) :
    S → List QueueOperation → List (Option (Nat × Bytes)) × S
  | s, [] => ([], s)
  | s, operation :: rest =>
    let (result, s) := perform s operation
    let (results, s) := performAll perform s rest
    (result :: results, s)

end QueueOperation

/-- What an operation means for a list of bytes: a write appends, and a read copies the front of the
list to the front of its buffer, gives back the count and the buffer, and drops what it copied. -/
def Bytes.perform (bs : Bytes) : QueueOperation → Option (Nat × Bytes) × Bytes
  | .write src => (none, bs ++ src)
  | .read buffer =>
    let n := min buffer.length bs.length
    (some (n, bs.take n ++ buffer.drop n), bs.drop n)

namespace Ring

def perform (q : Ring) : QueueOperation → Option (Nat × Bytes) × Ring
  | .write src => (none, q.write src)
  | .read buffer =>
    let (n, buffer, q) := q.fill buffer
    (some (n, buffer), q)

/-- One operation on a ring is that operation on its list. -/
theorem perform_toList {q : Ring} (h : q.Valid) (operation : QueueOperation) :
    (q.perform operation).2.Valid ∧
      q.toList.perform operation = ((q.perform operation).1, (q.perform operation).2.toList) := by
  cases operation with
  | write src =>
    have hw := toList_write h src
    constructor
    · exact valid_write h src
    · simp only [perform, Bytes.perform, hw]
  | read buffer =>
    have hv := valid_read h buffer.length
    have hl := toList_read h buffer.length
    obtain ⟨tail, hr⟩ := exists_readsTo h buffer.length
    have hq : q.moveTail tail = (q.read buffer.length).2 := by rw [hr.1]
    have hdrop : q.toList.drop (min buffer.length q.toList.length) =
        q.toList.drop buffer.length := by
      by_cases hn : buffer.length ≤ q.toList.length
      · rw [Nat.min_eq_left hn]
      · rw [Nat.min_eq_right (by omega), List.drop_length, List.drop_eq_nil_of_le (by omega)]
    simp only [perform, Bytes.perform, fill_eq_readInto h, readInto_of_readsTo hr, hq, hl, hdrop,
      Bytes.copyOnto]
    exact ⟨hv, trivial⟩

/-- A run of operations on a ring is that run on its list. -/
theorem performAll_toList {q : Ring} (h : q.Valid) (operations : List QueueOperation) :
    (QueueOperation.performAll perform q operations).2.Valid ∧
      QueueOperation.performAll Bytes.perform q.toList operations =
        ((QueueOperation.performAll perform q operations).1,
          (QueueOperation.performAll perform q operations).2.toList) := by
  induction operations generalizing q with
  | nil => exact ⟨h, rfl⟩
  | cons operation rest ih =>
    obtain ⟨hnext, hstep⟩ := perform_toList h operation
    obtain ⟨hlast, hrest⟩ := ih hnext
    constructor
    · exact hlast
    · simp only [QueueOperation.performAll, hstep, hrest]

/-- Every run of operations on a ring, whatever its growth, is the run on a plain list: the results
are the same, the ring holds the list, and it counts as many bytes as the list has. -/
theorem fifo (growth : Nat) (operations : List QueueOperation) :
    let ring := QueueOperation.performAll perform (withGrowth growth) operations
    let list := QueueOperation.performAll Bytes.perform [] operations
    ring.1 = list.1 ∧ ring.2.toList = list.2 ∧ ring.2.queued = list.2.length := by
  intro ring list
  obtain ⟨hvalid, hrun⟩ := performAll_toList (valid_withGrowth growth) operations
  obtain ⟨hresults, hlist⟩ := Prod.mk.inj hrun
  refine ⟨hresults.symm, hlist.symm, ?_⟩
  rw [← length_toList hvalid]
  exact congrArg List.length hlist.symm

/-- A read of wrapped content, into a buffer with room to spare. -/
example : (QueueOperation.performAll perform (withGrowth 4)
    [.write [1, 2, 3], .read [0, 0], .write [4, 5], .read [9, 9, 9, 9, 9]]).1 =
      [none, some (2, [1, 2]), none, some (3, [3, 4, 5, 9, 9])] := by
  decide +kernel

end Ring

end SerialBridge
