import SerialBridge.Proofs.Checked.Words
import SerialBridge.Proofs.Queue.Memory

/-!
# The ring in checked arithmetic

The operations of a ring, step by step in checked arithmetic. On a ring that is not too large all
steps have a value, and together they do what the operations do.
-/

namespace SerialBridge

/-- A copy to the front of a buffer. -/
def Bytes.checkedCopyOnto (buffer src : Bytes) : Option (Nat × Bytes) := do
  let n := min buffer.length src.length
  let front ← src.slice? 0 n
  let buffer ← buffer.replace? 0 n front
  return (n, buffer)

theorem Bytes.length_copyOnto (buffer src : Bytes) :
    (buffer.copyOnto src).2.length = buffer.length := by
  simp only [copyOnto, List.length_append, List.length_take, List.length_drop]
  omega

theorem Bytes.copyOnto_fst (buffer src : Bytes) :
    (buffer.copyOnto src).1 = min buffer.length src.length := rfl

theorem Bytes.checkedCopyOnto_eq (buffer src : Bytes) :
    buffer.checkedCopyOnto src = some (buffer.copyOnto src) := by
  have hlength : (src.take (min buffer.length src.length)).length =
      min buffer.length src.length := by
    rw [List.length_take]
    omega
  have hslice : src.slice? 0 (min buffer.length src.length) =
      some (src.take (min buffer.length src.length)) := slice?_front (Nat.min_le_right _ _)
  have hreplace := replace?_front
    (show (src.take (min buffer.length src.length)).length ≤ buffer.length by omega)
  rw [hlength, overlay, hlength] at hreplace
  simp only [checkedCopyOnto, hslice, hreplace, Option.bind_eq_bind, Option.bind_some, copyOnto,
    Option.pure_def]

namespace Ring

def checkedQueued (q : Ring) : Option Nat :=
  if q.tail ≤ q.head then Word.sub? q.head q.tail
  else do
    let stop ← Word.add? q.cells.size q.head
    Word.sub? stop q.tail

def checkedFill (q : Ring) (buffer : Bytes) : Option (Nat × Bytes × Ring) := do
  let cells : Bytes := q.cells.data.toList
  if q.tail ≤ q.head then
    let stretch ← cells.slice? q.tail q.head
    let (n, buffer) ← buffer.checkedCopyOnto stretch
    let tail ← Word.add? q.tail n
    return (n, buffer, q.moveTail tail)
  else
    let stretch ← cells.slice? q.tail cells.length
    let (n, buffer) ← buffer.checkedCopyOnto stretch
    let tail ← Word.add? q.tail n
    if tail = cells.length then
      let room ← buffer.slice? n buffer.length
      let stretch ← cells.slice? 0 q.head
      let (m, room) ← room.checkedCopyOnto stretch
      let buffer ← buffer.replace? n buffer.length room
      let count ← Word.add? n m
      return (count, buffer, q.moveTail m)
    else return (n, buffer, q.moveTail tail)

def checkedGrow (q : Ring) (shortfall : Nat) : Option Ring := do
  let size ← Word.add? q.cells.size (max shortfall q.growth)
  let (n, cells, _) ← q.checkedFill (List.replicate size 0)
  return { q with cells := ⟨cells.toArray⟩, head := n, tail := 0 }

/-- Stores bytes in one stretch of the cells and leaves the head behind them. -/
def checkedStore (q : Ring) (cells : Bytes) (start : Nat) (src : Bytes) : Option Ring := do
  let stop ← Word.add? start src.length
  let cells ← cells.replace? start stop src
  return { q with cells := ⟨cells.toArray⟩, head := if stop = cells.length then 0 else stop }

/-- Stores bytes from the head on, in two stretches if the end of the buffer is in the way. -/
def checkedAppend (q : Ring) (src : Bytes) : Option Ring := do
  let cells : Bytes := q.cells.data.toList
  let room ← Word.sub? cells.length q.head
  if room < src.length then
    let front ← src.slice? 0 room
    let cells ← cells.replace? q.head cells.length front
    let rest ← src.slice? room src.length
    q.checkedStore cells 0 rest
  else q.checkedStore cells q.head src

def checkedWrite (q : Ring) (src : Bytes) : Option Ring :=
  if src = [] then some q
  else do
    let queued ← q.checkedQueued
    let space ← Word.sub? q.cells.size queued
    if space ≤ src.length then
      let missing ← Word.sub? src.length space
      let shortfall ← Word.add? missing 1
      let larger ← q.checkedGrow shortfall
      larger.checkedAppend src
    else q.checkedAppend src

theorem checkedQueued_eq {q : Ring} (h : q.Valid) (hs : q.cells.size + q.cells.size < Word.limit) :
    q.checkedQueued = some q.queued := by
  have hi := h.inside
  rw [checkedQueued, queued]
  split
  · next hle => exact Word.sub?_eq hle
  · have hadd : Word.add? q.cells.size q.head = some (q.cells.size + q.head) :=
      Word.add?_eq (by omega)
    rw [hadd]
    exact Word.sub?_eq (by omega)

theorem checkedFill_straight {q : Ring} (h : q.Valid) (hle : q.tail ≤ q.head)
    (hs : q.cells.size < Word.limit) (buffer : Bytes) :
    q.checkedFill buffer = some (q.fill buffer) := by
  have hi := h.inside
  have hslice : Bytes.slice? q.cells.data.toList q.tail q.head =
      some ((q.cells.data.toList.take q.head).drop q.tail) :=
    Bytes.slice?_eq hle (by rw [length_cells]; omega)
  have hadd : Word.add? q.tail
      (buffer.copyOnto ((q.cells.data.toList.take q.head).drop q.tail)).1 = some _ :=
    Word.add?_eq (by
      simp only [Bytes.copyOnto, List.length_drop, List.length_take, length_cells]
      omega)
  simp only [checkedFill, fill, if_pos hle, hslice, Bytes.checkedCopyOnto_eq, hadd,
    Option.bind_eq_bind, Option.bind_some, Option.pure_def]

theorem checkedFill_wrapped {q : Ring} (h : q.Valid) (hlt : q.head < q.tail)
    (hs : q.cells.size < Word.limit) (buffer : Bytes) :
    q.checkedFill buffer = some (q.fill buffer) := by
  have hi := h.inside
  have hfirst : Bytes.slice? q.cells.data.toList q.tail q.cells.size =
      some (q.cells.data.toList.drop q.tail) :=
    Bytes.slice?_back (by rw [length_cells]; omega)
  have hsecond : Bytes.slice? q.cells.data.toList 0 q.head =
      some (q.cells.data.toList.take q.head) :=
    Bytes.slice?_front (by rw [length_cells]; omega)
  have hcount := Bytes.copyOnto_fst buffer (q.cells.data.toList.drop q.tail)
  have hlength := Bytes.length_copyOnto buffer (q.cells.data.toList.drop q.tail)
  rw [List.length_drop, length_cells] at hcount
  simp only [checkedFill, fill, if_neg (Nat.not_le.mpr hlt), length_cells, hfirst,
    Bytes.checkedCopyOnto_eq, Option.bind_eq_bind, Option.bind_some, Option.pure_def]
  generalize buffer.copyOnto (q.cells.data.toList.drop q.tail) = copied at hcount hlength ⊢
  obtain ⟨n, buffer'⟩ := copied
  dsimp only at hcount hlength ⊢
  rw [Word.add?_eq (by omega), Option.bind_some]
  by_cases hend : q.tail + n = q.cells.size
  · have hle : n ≤ buffer'.length := by omega
    have hroom := Bytes.slice?_back hle
    have hm := Bytes.copyOnto_fst (buffer'.drop n) (q.cells.data.toList.take q.head)
    have hrest := Bytes.length_copyOnto (buffer'.drop n) (q.cells.data.toList.take q.head)
    rw [List.length_drop] at hrest
    have hreplace := Bytes.replace?_back hle hrest
    rw [List.length_take, length_cells] at hm
    simp only [if_pos hend, hroom, hsecond, hreplace, Option.bind_some]
    rw [Word.add?_eq (by omega), Option.bind_some]
  · simp only [if_neg hend]

theorem checkedFill_eq {q : Ring} (h : q.Valid) (hs : q.cells.size < Word.limit) (buffer : Bytes) :
    q.checkedFill buffer = some (q.fill buffer) := by
  by_cases hle : q.tail ≤ q.head
  · exact checkedFill_straight h hle hs buffer
  · exact checkedFill_wrapped h (by omega) hs buffer

theorem ofList_toList {cells : ByteArray} {bs : Bytes} (h : cells.data.toList = bs) :
    (⟨bs.toArray⟩ : ByteArray) = cells := by
  rw [← h]

theorem checkedGrow_eq {q : Ring} (h : q.Valid) {shortfall : Nat}
    (hs : q.cells.size + max shortfall q.growth < Word.limit) :
    q.checkedGrow shortfall = some (q.grow shortfall) := by
  obtain ⟨tail, hr⟩ := exists_readsTo h (q.cells.size + max shortfall q.growth)
  have hlength := length_toList h
  have hq := queued_lt h
  have hempty : (List.replicate (q.cells.size + max shortfall q.growth) (0 : UInt8)).length =
      q.cells.size + max shortfall q.growth := List.length_replicate
  rw [← hempty] at hr
  have hfill := readInto_of_readsTo hr
  rw [← fill_eq_readInto h, Bytes.copyOnto_of_le (by omega), List.drop_replicate, hlength] at hfill
  have hcells : (q.grow shortfall).cells.data.toList = q.toList ++
      List.replicate (q.cells.size + max shortfall q.growth - q.queued) 0 := by
    rw [grow, ByteArray.data_append, Array.toList_append, Array.toList_replicate]
    rfl
  simp only [checkedGrow, Word.add?_eq hs, checkedFill_eq h (by omega), hfill,
    ofList_toList hcells, Option.bind_eq_bind, Option.bind_some, Option.pure_def]
  rfl

theorem checkedStore_eq (q : Ring) {cells : ByteArray} {start : Nat} {src : Bytes}
    (hfit : start + src.length ≤ cells.size) (hs : cells.size < Word.limit) :
    q.checkedStore cells.data.toList start src = some { q with
      cells := store cells start src
      head := if start + src.length = cells.size then 0 else start + src.length } := by
  have hcells := toList_store cells start src hfit
  have hsize : (cells.data.toList.take start ++ src ++
      cells.data.toList.drop (start + src.length)).length = cells.size := by
    rw [← hcells, length_cells, size_store]
  simp only [checkedStore, Word.add?_eq (show start + src.length < Word.limit by omega),
    Bytes.replace?_eq (show start + src.length ≤ cells.data.toList.length from hfit),
    ofList_toList hcells, hsize, Option.bind_eq_bind, Option.bind_some, Option.pure_def]

theorem checkedAppend_eq {q : Ring} (h : q.Valid) {src : Bytes}
    (hfit : q.queued + src.length < q.cells.size) (hs : q.cells.size < Word.limit) :
    q.checkedAppend src = some (q.append src) := by
  have hi := h.inside
  have hroom : Word.sub? q.cells.size q.head = some (q.cells.size - q.head) :=
    Word.sub?_eq (by omega)
  simp only [checkedAppend, length_cells, hroom, Option.bind_eq_bind, Option.bind_some]
  by_cases hlt : q.cells.size - q.head < src.length
  · have hlength : (src.take (q.cells.size - q.head)).length = q.cells.size - q.head := by
      rw [List.length_take]
      omega
    have hrest : (src.drop (q.cells.size - q.head)).length =
        src.length - (q.cells.size - q.head) := List.length_drop
    have hle : q.cells.size - q.head ≤ src.length := Nat.le_of_lt hlt
    have hfront := Bytes.slice?_front hle
    have hback := Bytes.slice?_back hle
    have hcells := toList_store q.cells q.head (src.take (q.cells.size - q.head)) (by omega)
    rw [List.drop_eq_nil_of_le (by rw [length_cells]; omega), List.append_nil] at hcells
    have hhead : q.head ≤ q.cells.data.toList.length := by
      rw [length_cells]
      omega
    have hreplace := Bytes.replace?_back hhead hlength
    rw [length_cells, ← hcells] at hreplace
    have hstored := size_store q.cells q.head (src.take (q.cells.size - q.head))
    have hstore := checkedStore_eq q
      (show 0 + (src.drop (q.cells.size - q.head)).length ≤
        (store q.cells q.head (src.take (q.cells.size - q.head))).size by omega) (by omega)
    rw [append_wrapped hlt, if_pos hlt]
    simp only [hfront, hreplace, hback, Option.bind_some, hstore, hrest, size_store, Nat.zero_add]
  · rw [if_neg hlt, append_straight (by omega), checkedStore_eq q (by omega) hs]

theorem checkedWrite_eq {q : Ring} (h : q.Valid) {src : Bytes}
    (hsize : q.cells.size + q.cells.size < Word.limit)
    (hgrown : q.cells.size + max (src.length + 1) q.growth < Word.limit) :
    q.checkedWrite src = some (q.write src) := by
  by_cases hsrc : src = []
  · rw [checkedWrite, write, if_pos hsrc, if_pos hsrc]
  · have hq := queued_lt h
    have hpos := List.length_pos_iff.mpr hsrc
    have hspace : Word.sub? q.cells.size q.queued = some (q.cells.size - q.queued) :=
      Word.sub?_eq (by omega)
    simp only [checkedWrite, write, if_neg hsrc, checkedQueued_eq h hsize, hspace,
      Option.bind_eq_bind, Option.bind_some]
    by_cases hle : q.cells.size - q.queued ≤ src.length
    · have hmissing := Word.sub?_eq hle
      have hshort : Word.add? (src.length - (q.cells.size - q.queued)) 1 = some _ :=
        Word.add?_eq (by omega)
      have hgrow : q.checkedGrow (src.length - (q.cells.size - q.queued) + 1) = some _ :=
        checkedGrow_eq h (by omega)
      have hlarger := size_grow h (src.length - (q.cells.size - q.queued) + 1)
      simp only [if_pos hle, hmissing, hshort, hgrow, Option.bind_some]
      refine checkedAppend_eq (valid_grow h (by omega)) ?_ (by omega)
      rw [queued_grow]
      omega
    · simp only [if_neg hle]
      exact checkedAppend_eq h (by omega) (by omega)

/-! ## Rings that are not too large -/

variable {q : Ring} {growth bytes : Nat}

theorem Within.checkedQueued (h : q.Within growth bytes) (hg : growth < Word.quarter)
    (hb : bytes < Word.quarter) : q.checkedQueued = some q.queued := by
  have hlimit := Word.limit_eq
  have hsize := h.size
  exact checkedQueued_eq h.valid (by omega)

/-- A read in checked arithmetic hands out the front of the list. -/
theorem Within.checkedFill (h : q.Within growth bytes) (hg : growth < Word.quarter)
    (hb : bytes < Word.quarter) (buffer : Bytes) :
    q.checkedFill buffer = some (ByteQueue.readInto q buffer) := by
  have hlimit := Word.limit_eq
  have hsize := h.size
  rw [checkedFill_eq h.valid (by omega), fill_eq_readInto h.valid]

theorem Within.checkedWrite (h : q.Within growth bytes) (hg : growth < Word.quarter) {src : Bytes}
    (hb : bytes + src.length < Word.quarter) : q.checkedWrite src = some (q.write src) := by
  have hlimit := Word.limit_eq
  have hsize := h.size
  have hgrows := h.grows
  exact checkedWrite_eq h.valid (by omega) (by omega)

end Ring

end SerialBridge
