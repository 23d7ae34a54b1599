import SerialBridge.Queue

/-!
# What a ring holds

A ring whose cursors are in range is a plain list of bytes: a write appends, a read takes off the
front, and the count is the length of the list, wherever the cursors stand.
-/

namespace SerialBridge

namespace Ring

/-- The cells in use between two cursors, read in a circle. -/
def window (cells : Bytes) (tail head : Nat) : Bytes :=
  if tail ≤ head then (cells.drop tail).take (head - tail) else cells.drop tail ++ cells.take head

/-- Both cursors lie inside the buffer, or there is no buffer yet; an empty ring has them at 0. -/
structure Valid (q : Ring) : Prop where
  inside : q.head < q.cells.size ∧ q.tail < q.cells.size ∨
    q.cells.size = 0 ∧ q.head = 0 ∧ q.tail = 0
  rewound : q.head = q.tail → q.tail = 0

theorem toList_extract (cells : ByteArray) (start stop : Nat) :
    (cells.extract start stop).data.toList = (cells.data.toList.drop start).take (stop - start) := by
  rw [ByteArray.data_extract, Array.toList_extract, List.extract_eq_take_drop]

@[simp] theorem length_cells (cells : ByteArray) : cells.data.toList.length = cells.size := rfl

theorem toList_eq_window (q : Ring) : q.toList = window q.cells.data.toList q.tail q.head := by
  by_cases h : q.tail ≤ q.head
  · simp only [toList, content, window, if_pos h, toList_extract]
  · have hc : (q.cells.data.toList.drop q.tail).take (q.cells.size - q.tail) =
        q.cells.data.toList.drop q.tail := by
      apply List.take_of_length_le
      simp
    simp only [toList, content, window, if_neg h, ByteArray.data_append, Array.toList_append,
      toList_extract, hc, List.drop_zero, Nat.sub_zero]

theorem length_toList {q : Ring} (h : q.Valid) : q.toList.length = q.queued := by
  have hi := h.inside
  rw [toList_eq_window, window, queued]
  split
  · simp only [List.length_take, List.length_drop, length_cells]
    omega
  · simp only [List.length_append, List.length_take, List.length_drop, length_cells]
    omega

theorem valid_withGrowth (growth : Nat) : (withGrowth growth).Valid :=
  ⟨.inr ⟨rfl, rfl, rfl⟩, fun _ => rfl⟩

@[simp] theorem toList_withGrowth (growth : Nat) : (withGrowth growth).toList = [] := rfl

/-! ## Reading -/

theorem toList_moveTail (q : Ring) (tail : Nat) :
    (q.moveTail tail).toList = window q.cells.data.toList tail q.head := by
  rw [toList_eq_window, moveTail]
  split
  · next h => simp [window, h]
  · rfl

theorem valid_moveTail {q : Ring} (h : q.Valid) {tail : Nat}
    (ht : tail < q.cells.size ∨ tail = q.head) : (q.moveTail tail).Valid := by
  have hi := h.inside
  rw [moveTail]
  split
  · refine ⟨?_, fun _ => rfl⟩
    dsimp only
    omega
  · next hne =>
    refine ⟨?_, fun he => absurd he.symm hne⟩
    dsimp only
    omega

/-- What a read does to a ring: it hands out the front of the list, and the tail moves to a cell in
range from which the rest of the list is seen. -/
def ReadsTo (q : Ring) (n tail : Nat) : Prop :=
  q.read n = (q.toList.take n, q.moveTail tail) ∧
    window q.cells.data.toList tail q.head = q.toList.drop n ∧
    (tail < q.cells.size ∨ tail = q.head)

/-- Content in one stretch: the tail moves up to the head at most. -/
theorem read_straight {q : Ring} (h : q.Valid) (hle : q.tail ≤ q.head) (n : Nat) :
    q.ReadsTo n (q.tail + min n (q.head - q.tail)) := by
  have hi := h.inside
  have hl := length_toList h
  have hw : q.toList = (q.cells.data.toList.drop q.tail).take (q.head - q.tail) := by
    rw [toList_eq_window, window, if_pos hle]
  rw [queued, if_pos hle] at hl
  refine ⟨?_, ?_, by omega⟩
  · rw [read, if_pos hle]
    simp only [toList_extract, Nat.add_sub_cancel_left, hw, List.take_take]
  · rw [window, if_pos (by omega)]
    by_cases hn : n ≤ q.head - q.tail
    · rw [Nat.min_eq_left hn, hw, List.drop_take, List.drop_drop]
      congr 1
      omega
    · have hz : q.head - (q.tail + min n (q.head - q.tail)) = 0 := by omega
      rw [List.drop_eq_nil_of_le (i := n) (by omega), hz, List.take_zero]

/-- Wrapped content and a read that stays in its first stretch. -/
theorem read_before_end {q : Ring} (hlt : q.head < q.tail) {n : Nat}
    (hn : n < q.cells.size - q.tail) : q.ReadsTo n (q.tail + n) := by
  have hw : q.toList = q.cells.data.toList.drop q.tail ++ q.cells.data.toList.take q.head := by
    rw [toList_eq_window, window, if_neg (by omega)]
  have hd : n ≤ (q.cells.data.toList.drop q.tail).length := by
    rw [List.length_drop, length_cells]
    omega
  refine ⟨?_, ?_, by omega⟩
  · rw [read, if_neg (by omega)]
    simp only [Nat.min_eq_left (Nat.le_of_lt hn)]
    rw [if_neg (by omega), toList_extract, Nat.add_sub_cancel_left, hw,
      List.take_append_of_le_length hd]
  · rw [window, if_neg (by omega), hw, List.drop_append_of_le_length hd, List.drop_drop]

/-- Wrapped content and a read that reaches the end of the buffer: it goes on at cell 0. -/
theorem read_past_end {q : Ring} (h : q.Valid) (hlt : q.head < q.tail) {n : Nat}
    (hn : q.cells.size - q.tail ≤ n) :
    q.ReadsTo n (min (n - (q.cells.size - q.tail)) q.head) := by
  have hi := h.inside
  have hw : q.toList = q.cells.data.toList.drop q.tail ++ q.cells.data.toList.take q.head := by
    rw [toList_eq_window, window, if_neg (by omega)]
  have hd : (q.cells.data.toList.drop q.tail).length = q.cells.size - q.tail := by
    rw [List.length_drop, length_cells]
  refine ⟨?_, ?_, by omega⟩
  · have ht : q.tail + (q.cells.size - q.tail) = q.cells.size := by omega
    rw [read, if_neg (by omega)]
    simp only [Nat.min_eq_right hn, ht, if_true]
    rw [toList_extract, toList_extract, List.take_of_length_le (Nat.le_of_eq hd), List.drop_zero,
      Nat.sub_zero, hw, List.take_append, hd, List.take_of_length_le (i := n) (by omega),
      List.take_take]
  · rw [window, if_pos (Nat.min_le_right _ _), hw, List.drop_append, hd,
      List.drop_eq_nil_of_le (i := n) (by omega), List.nil_append, List.drop_take]
    by_cases hm : n - (q.cells.size - q.tail) ≤ q.head
    · rw [Nat.min_eq_left hm]
    · rw [Nat.min_eq_right (by omega), Nat.sub_self, Nat.sub_eq_zero_of_le (by omega),
        List.take_zero, List.take_zero]

theorem exists_readsTo {q : Ring} (h : q.Valid) (n : Nat) : ∃ tail, q.ReadsTo n tail := by
  by_cases hle : q.tail ≤ q.head
  · exact ⟨_, read_straight h hle n⟩
  · by_cases hn : n < q.cells.size - q.tail
    · exact ⟨_, read_before_end (by omega) hn⟩
    · exact ⟨_, read_past_end h (by omega) (by omega)⟩

/-- A read hands out the front of the list. -/
theorem read_fst {q : Ring} (h : q.Valid) (n : Nat) : (q.read n).1 = q.toList.take n := by
  obtain ⟨tail, hr, -, -⟩ := exists_readsTo h n
  rw [hr]

/-- A read leaves the rest of the list. -/
theorem toList_read {q : Ring} (h : q.Valid) (n : Nat) : (q.read n).2.toList = q.toList.drop n := by
  obtain ⟨tail, hr, hw, -⟩ := exists_readsTo h n
  rw [hr, toList_moveTail, hw]

theorem valid_read {q : Ring} (h : q.Valid) (n : Nat) : (q.read n).2.Valid := by
  obtain ⟨tail, hr, -, ht⟩ := exists_readsTo h n
  rw [hr]
  exact valid_moveTail h ht

theorem queued_read {q : Ring} (h : q.Valid) (n : Nat) : (q.read n).2.queued = q.queued - n := by
  rw [← length_toList (valid_read h n), toList_read h, List.length_drop, length_toList h]

/-- The buffer and its growth stay what they are. -/
theorem cells_read {q : Ring} (h : q.Valid) (n : Nat) :
    (q.read n).2.cells = q.cells ∧ (q.read n).2.growth = q.growth := by
  obtain ⟨tail, hr, -, -⟩ := exists_readsTo h n
  rw [hr, moveTail]
  split
  · exact ⟨rfl, rfl⟩
  · exact ⟨rfl, rfl⟩

/-! ## Writing -/

theorem toList_store (cells : ByteArray) (start : Nat) (bs : Bytes)
    (h : start + bs.length ≤ cells.size) :
    (store cells start bs).data.toList =
      cells.data.toList.take start ++ bs ++ cells.data.toList.drop (start + bs.length) := by
  induction bs generalizing cells start with
  | nil => simp [store]
  | cons b bs ih =>
    rw [List.length_cons] at h
    have hs : start < cells.data.toList.length := by
      rw [length_cells]
      omega
    have hset : (cells.set! start b).data.toList = cells.data.toList.set start b := by
      simp [ByteArray.set!]
    have hfront : (cells.data.toList.set start b).take (start + 1) =
        cells.data.toList.take start ++ [b] := by
      rw [List.set_eq_take_append_cons_drop, if_pos hs, List.take_append, List.length_take,
        Nat.min_eq_left (by omega), List.take_of_length_le (by rw [List.length_take]; omega),
        Nat.add_sub_cancel_left]
      rfl
    have hback : (cells.data.toList.set start b).drop (start + 1 + bs.length) =
        cells.data.toList.drop (start + (b :: bs).length) := by
      rw [List.drop_set_of_lt (by omega), List.length_cons]
      congr 1
      omega
    rw [store, ih _ _ (by rw [ByteArray.size_set!]; omega), hset, hfront, hback]
    simp

theorem toList_grow {q : Ring} (h : q.Valid) (shortfall : Nat) :
    (q.grow shortfall).toList = q.toList := by
  have hl := length_toList h
  have hc : (q.grow shortfall).cells.data.toList = q.toList ++
      (Array.replicate (q.cells.size + max shortfall q.growth - q.queued) (0 : UInt8)).toList := by
    rw [grow, ByteArray.data_append, Array.toList_append]
    rfl
  rw [toList_eq_window, hc]
  simp only [grow, window, Nat.zero_le, if_true, List.drop_zero, Nat.sub_zero]
  rw [← hl, List.take_left]

theorem queued_lt {q : Ring} (h : q.Valid) : q.queued < q.cells.size ∨ q.queued = 0 := by
  have hi := h.inside
  rw [queued]
  split <;> omega

theorem size_grow {q : Ring} (h : q.Valid) (shortfall : Nat) :
    (q.grow shortfall).cells.size = q.cells.size + max shortfall q.growth := by
  have hc : q.content.size = q.queued := length_toList h
  have hq := queued_lt h
  simp only [grow, ByteArray.size_append, hc]
  rw [ByteArray.size, Array.size_replicate]
  omega

@[simp] theorem queued_grow (q : Ring) (shortfall : Nat) :
    (q.grow shortfall).queued = q.queued := by
  rw [grow, queued, if_pos (Nat.zero_le _), Nat.sub_zero]

theorem valid_grow {q : Ring} (h : q.Valid) {shortfall : Nat} (hs : 0 < shortfall) :
    (q.grow shortfall).Valid := by
  have hq := queued_lt h
  have hz := size_grow h shortfall
  have hh : (q.grow shortfall).head = q.queued := rfl
  have ht : (q.grow shortfall).tail = 0 := rfl
  exact ⟨.inl (by omega), fun _ => ht⟩

/-- Bytes that end before the buffer does are stored in one stretch. -/
theorem append_straight {q : Ring} {src : Bytes} (h : src.length ≤ q.cells.size - q.head) :
    q.append src = { q with
      cells := store q.cells q.head src
      head := if q.head + src.length = q.cells.size then 0 else q.head + src.length } := by
  simp only [append]
  rw [if_neg (by omega)]

/-- Other bytes go on at cell 0. -/
theorem append_wrapped {q : Ring} {src : Bytes} (h : q.cells.size - q.head < src.length) :
    q.append src = { q with
      cells := store (store q.cells q.head (src.take (q.cells.size - q.head))) 0
        (src.drop (q.cells.size - q.head))
      head := if src.length - (q.cells.size - q.head) = q.cells.size then 0
        else src.length - (q.cells.size - q.head) } := by
  simp only [append]
  rw [if_pos h]

theorem drop_stored {cells src : Bytes} {tail head : Nat} (ht : tail ≤ head)
    (hh : head ≤ cells.length) (rest : Bytes) :
    (cells.take head ++ src ++ rest).drop tail =
      (cells.drop tail).take (head - tail) ++ src ++ rest := by
  have hl : (cells.take head).length = head := by
    rw [List.length_take]
    omega
  rw [List.append_assoc, List.drop_append_of_le_length (by omega), List.drop_take,
    List.append_assoc]

/-- Content in one stretch, with room behind it. -/
theorem toList_append_straight {q : Ring} (h : q.Valid) (hle : q.tail ≤ q.head) {src : Bytes}
    (hroom : src.length ≤ q.cells.size - q.head) (hfit : q.queued + src.length < q.cells.size) :
    (q.append src).toList = q.toList ++ src := by
  have hi := h.inside
  have hs := toList_store q.cells q.head src (by omega)
  rw [queued, if_pos hle] at hfit
  rw [append_straight hroom, toList_eq_window, toList_eq_window, window, hs]
  simp only [drop_stored hle (show q.head ≤ q.cells.data.toList.length by rw [length_cells]; omega)]
  have hw : (q.cells.data.toList.drop q.tail).take (q.head - q.tail) =
      window q.cells.data.toList q.tail q.head := by
    rw [window, if_pos hle]
  rw [hw]
  have hl : (window q.cells.data.toList q.tail q.head).length = q.head - q.tail := by
    rw [← toList_eq_window, length_toList h, queued, if_pos hle]
  by_cases he : q.head + src.length = q.cells.size
  · rw [if_pos he, if_neg (by omega), List.take_zero, List.append_nil,
      List.drop_eq_nil_of_le (by rw [length_cells]; omega), List.append_nil]
  · rw [if_neg he, if_pos (by omega)]
    apply List.take_left'
    rw [List.length_append, hl]
    omega

/-- Content in one stretch, and bytes that go on at cell 0, where they end before the tail. -/
theorem toList_append_around {q : Ring} (h : q.Valid) (hle : q.tail ≤ q.head) {src : Bytes}
    (hroom : q.cells.size - q.head < src.length) (hfit : q.queued + src.length < q.cells.size) :
    (q.append src).toList = q.toList ++ src := by
  have hi := h.inside
  rw [queued, if_pos hle] at hfit
  have hlen : (src.drop (q.cells.size - q.head)).length = src.length - (q.cells.size - q.head) :=
    List.length_drop
  have htake : (src.take (q.cells.size - q.head)).length = q.cells.size - q.head := by
    rw [List.length_take]
    omega
  have hfirst := toList_store q.cells q.head (src.take (q.cells.size - q.head)) (by omega)
  rw [htake, List.drop_eq_nil_of_le (by rw [length_cells]; omega), List.append_nil] at hfirst
  have hsecond := toList_store (store q.cells q.head (src.take (q.cells.size - q.head))) 0
    (src.drop (q.cells.size - q.head)) (by rw [size_store]; omega)
  rw [List.take_zero, List.nil_append, Nat.zero_add, hfirst, hlen] at hsecond
  have hback : (src.drop (q.cells.size - q.head) ++ (q.cells.data.toList.take q.head ++
      src.take (q.cells.size - q.head)).drop (src.length - (q.cells.size - q.head))).drop q.tail =
      q.toList ++ src.take (q.cells.size - q.head) := by
    rw [List.drop_append, List.drop_eq_nil_of_le (by omega), List.nil_append, List.drop_drop, hlen,
      Nat.add_sub_cancel' (by omega), List.drop_append_of_le_length (by
        rw [List.length_take, length_cells]
        omega), List.drop_take, toList_eq_window, window, if_pos hle]
  rw [append_wrapped hroom, toList_eq_window]
  simp only [hsecond]
  rw [if_neg (show ¬src.length - (q.cells.size - q.head) = q.cells.size by omega), window,
    if_neg (by omega), hback, List.take_left' hlen, List.append_assoc, List.take_append_drop]

/-- Wrapped content: the bytes end before the tail. -/
theorem toList_append_between {q : Ring} (h : q.Valid) (hlt : q.head < q.tail) {src : Bytes}
    (hfit : q.queued + src.length < q.cells.size) : (q.append src).toList = q.toList ++ src := by
  have hi := h.inside
  rw [queued, if_neg (by omega)] at hfit
  have hs := toList_store q.cells q.head src (by omega)
  have hh : (q.cells.data.toList.take q.head).length = q.head := by
    rw [List.length_take, length_cells]
    omega
  have hback : (q.cells.data.toList.take q.head ++ src ++
      q.cells.data.toList.drop (q.head + src.length)).drop q.tail =
        q.cells.data.toList.drop q.tail := by
    rw [List.drop_append, List.drop_eq_nil_of_le (by rw [List.length_append, hh]; omega),
      List.nil_append, List.drop_drop, List.length_append, hh]
    congr 1
    omega
  rw [append_straight (by omega), toList_eq_window, toList_eq_window, window, hs]
  simp only [hback]
  rw [if_neg (show ¬q.head + src.length = q.cells.size by omega), if_neg (by omega),
    List.take_left' (by rw [List.length_append, hh]), window, if_neg (by omega), List.append_assoc]

theorem toList_append {q : Ring} (h : q.Valid) {src : Bytes}
    (hfit : q.queued + src.length < q.cells.size) : (q.append src).toList = q.toList ++ src := by
  by_cases hle : q.tail ≤ q.head
  · by_cases hroom : src.length ≤ q.cells.size - q.head
    · exact toList_append_straight h hle hroom hfit
    · exact toList_append_around h hle (by omega) hfit
  · exact toList_append_between h (by omega) hfit

@[simp] theorem tail_append (q : Ring) (src : Bytes) : (q.append src).tail = q.tail := rfl

@[simp] theorem size_append (q : Ring) (src : Bytes) : (q.append src).cells.size = q.cells.size := by
  by_cases hroom : src.length ≤ q.cells.size - q.head
  · rw [append_straight hroom]
    simp
  · rw [append_wrapped (by omega)]
    simp

/-- The free cell keeps the cursors of a ring that was written to apart. -/
theorem valid_append {q : Ring} (h : q.Valid) {src : Bytes} (hne : src ≠ [])
    (hfit : q.queued + src.length < q.cells.size) : (q.append src).Valid := by
  have hi := h.inside
  have hpos := List.length_pos_iff.mpr hne
  have hhead : (q.append src).head < q.cells.size ∧ (q.append src).head ≠ q.tail := by
    rw [queued] at hfit
    by_cases hroom : src.length ≤ q.cells.size - q.head
    · rw [append_straight hroom]
      dsimp only
      split at hfit <;> split <;> omega
    · rw [append_wrapped (by omega)]
      dsimp only
      split at hfit <;> split <;> omega
  refine ⟨.inl ⟨?_, ?_⟩, fun he => absurd he hhead.2⟩
  · rw [size_append]
    exact hhead.1
  · rw [tail_append, size_append]
    omega

theorem write_nil (q : Ring) : q.write [] = q := by simp [write]

/-- A write of something appends to a ring that has a free cell left after it. -/
theorem exists_write_eq_append {q : Ring} (h : q.Valid) {src : Bytes} (hne : src ≠ []) :
    ∃ r : Ring, q.write src = r.append src ∧ r.Valid ∧ r.toList = q.toList ∧
      r.queued + src.length < r.cells.size := by
  have hq := queued_lt h
  have hpos := List.length_pos_iff.mpr hne
  simp only [write, if_neg hne]
  by_cases hspace : q.cells.size - q.queued ≤ src.length
  · refine ⟨_, if_pos hspace, valid_grow h (by omega), toList_grow h _, ?_⟩
    rw [queued_grow, size_grow h]
    omega
  · exact ⟨q, if_neg hspace, h, rfl, by omega⟩

theorem toList_write {q : Ring} (h : q.Valid) (src : Bytes) :
    (q.write src).toList = q.toList ++ src := by
  by_cases hne : src = []
  · rw [hne, write_nil, List.append_nil]
  · obtain ⟨r, hw, hr, hl, hfit⟩ := exists_write_eq_append h hne
    rw [hw, toList_append hr hfit, hl]

@[simp] theorem growth_write (q : Ring) (src : Bytes) : (q.write src).growth = q.growth := by
  simp only [write]
  split
  · rfl
  · split
    · rfl
    · rfl

/-- A buffer that grows has been full: it gets no larger than its content and one step of growth
need. -/
theorem size_write_le {q : Ring} (h : q.Valid) (hg : 1 ≤ q.growth) (src : Bytes) :
    (q.write src).cells.size ≤ max q.cells.size (q.queued + src.length + q.growth) := by
  have hq := queued_lt h
  simp only [write]
  split
  · exact Nat.le_max_left _ _
  · split
    · rw [size_append, size_grow h]
      omega
    · rw [size_append]
      exact Nat.le_max_left _ _

theorem valid_write {q : Ring} (h : q.Valid) (src : Bytes) : (q.write src).Valid := by
  by_cases hne : src = []
  · rw [hne, write_nil]
    exact h
  · obtain ⟨r, hw, hr, -, hfit⟩ := exists_write_eq_append h hne
    rw [hw]
    exact valid_append hr hne hfit

theorem queued_write {q : Ring} (h : q.Valid) (src : Bytes) :
    (q.write src).queued = q.queued + src.length := by
  rw [← length_toList (valid_write h src), toList_write h, List.length_append, length_toList h]

end Ring

end SerialBridge
