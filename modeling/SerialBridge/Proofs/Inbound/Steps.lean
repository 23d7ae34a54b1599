import SerialBridge.Engine.Inbound

/-!
# The stream of what comes in

Bytes and failures that came in form one stream, a failure being a mark behind the bytes that came
before it. A read takes a piece off the front of what is undelivered of it: one mark, or bytes up to
the next mark.
-/

namespace SerialBridge

/-- What a stream is made of. -/
inductive Item where
  | byte (b : UInt8)
  | mark (failure : Failure)
  deriving DecidableEq, Repr

namespace Item

/-- The bytes before the first mark, counted. -/
def leading : List Item → Nat
  | [] => 0
  | .byte _ :: rest => leading rest + 1
  | .mark _ :: _ => 0

/-- Bytes from the position `start` on, with failures at positions of their own. -/
def layOut (start : Nat) (bytes : Bytes) : List (Nat × Failure) → List Item
  | [] => bytes.map .byte
  | (position, failure) :: later =>
    (bytes.take (position - start)).map .byte ++
      .mark failure :: layOut position (bytes.drop (position - start)) later

/-- Positions in order, none before `start` and none behind `stop`. -/
def Placed (start stop : Nat) : List (Nat × Failure) → Prop
  | [] => start ≤ stop
  | (position, _) :: later => start ≤ position ∧ Placed position stop later

variable {start stop : Nat} {failures : List (Nat × Failure)}

theorem leading_append (bytes : Bytes) (rest : List Item) :
    leading (bytes.map .byte ++ rest) = bytes.length + leading rest := by
  induction bytes with
  | nil => simp
  | cons b bytes ih =>
    rw [List.map_cons, List.cons_append, leading, ih, List.length_cons]
    omega

theorem leading_bytes (bytes : Bytes) : leading (bytes.map .byte) = bytes.length := by
  have h := leading_append bytes []
  rwa [List.append_nil] at h

theorem Placed.le (h : Placed start stop failures) : start ≤ stop := by
  induction failures generalizing start with
  | nil => exact h
  | cons first later ih => exact Nat.le_trans h.1 (ih h.2)

theorem Placed.extend {stop' : Nat} (h : Placed start stop failures) (hstop : stop ≤ stop') :
    Placed start stop' failures := by
  induction failures generalizing start with
  | nil => exact Nat.le_trans h hstop
  | cons first later ih => exact ⟨h.1, ih h.2⟩

theorem Placed.concat (h : Placed start stop failures) (failure : Failure) :
    Placed start stop (failures ++ [(stop, failure)]) := by
  induction failures generalizing start with
  | nil => exact ⟨h, Nat.le_refl stop⟩
  | cons first later ih => exact ⟨h.1, ih h.2⟩

theorem layOut_eq_nil_iff (bytes : Bytes) :
    layOut start bytes failures = [] ↔ bytes = [] ∧ failures = [] := by
  cases failures with
  | nil => simp [layOut]
  | cons first later => simp [layOut]

/-- New bytes go behind everything that is there. -/
theorem layOut_append {bytes : Bytes} (h : Placed start (start + bytes.length) failures)
    (data : Bytes) :
    layOut start (bytes ++ data) failures = layOut start bytes failures ++ data.map .byte := by
  induction failures generalizing start bytes with
  | nil => simp [layOut]
  | cons first later ih =>
    obtain ⟨position, failure⟩ := first
    obtain ⟨hstart, hlater⟩ := h
    have hle : position - start ≤ bytes.length := by
      have hstop := hlater.le
      omega
    have hrest : Placed position (position + (bytes.drop (position - start)).length) later := by
      have hlength : position + (bytes.drop (position - start)).length = start + bytes.length := by
        rw [List.length_drop]
        omega
      rwa [hlength]
    rw [layOut, layOut, List.take_append_of_le_length hle, List.drop_append_of_le_length hle,
      ih hrest, List.append_assoc, List.cons_append]

/-- A failure at the end goes behind everything that is there. -/
theorem layOut_concat {bytes : Bytes} (h : Placed start (start + bytes.length) failures)
    (failure : Failure) :
    layOut start bytes (failures ++ [(start + bytes.length, failure)]) =
      layOut start bytes failures ++ [.mark failure] := by
  induction failures generalizing start bytes with
  | nil => simp [layOut]
  | cons first later ih =>
    obtain ⟨position, held⟩ := first
    obtain ⟨hstart, hlater⟩ := h
    have hlength : start + bytes.length = position + (bytes.drop (position - start)).length := by
      have hstop := hlater.le
      rw [List.length_drop]
      omega
    rw [hlength] at hlater ⊢
    rw [List.cons_append, layOut, layOut, ih hlater, List.append_assoc, List.cons_append]

/-- Bytes before the first mark can be taken off the front. -/
theorem layOut_drop (bytes : Bytes) {n : Nat} (h : Placed (start + n) stop failures) :
    layOut start bytes failures =
      (bytes.take n).map .byte ++ layOut (start + n) (bytes.drop n) failures := by
  cases failures with
  | nil => rw [layOut, layOut, ← List.map_append, List.take_append_drop]
  | cons first later =>
    obtain ⟨position, failure⟩ := first
    have hsplit : position - start = n + (position - (start + n)) := by
      have hstart := h.1
      omega
    rw [layOut, layOut, hsplit, List.take_add, List.map_append, List.append_assoc, List.drop_drop]

end Item

/-- What a notification adds to the stream. -/
def Notification.items (n : Notification) : List Item :=
  n.chunk.bytes.map .byte ++ n.failure.toList.map .mark

/-- What an answer to a read takes off the stream. -/
def Item.ofResult : Except CallError Bytes → List Item
  | .ok data => data.map .byte
  | .error (.transport failure) => [.mark failure]
  | .error _ => []

namespace Inbound

open Item (leading layOut Placed)

/-- What came in and was not handed to a reader. -/
def undelivered (s : Inbound Bytes) : List Item := layOut s.delivered s.queue s.failures

/-- The counters agree with the queue, and no failure has its place outside of it. -/
structure Consistent (s : Inbound Bytes) : Prop where
  received : s.received = s.delivered + s.queue.length
  placed : Placed s.delivered s.received s.failures

theorem consistent_new (growth : Nat) : Consistent (new growth) := ⟨rfl, Nat.le_refl 0⟩

/-- What a read of `length` bytes was given. -/
structure Taken (s : Inbound Bytes) (length : Nat) (result : Except CallError Bytes)
    (t : Inbound Bytes) : Prop where
  consistent : Consistent t
  waiting : t.waiting = s.waiting
  stream : Item.ofResult result ++ t.undelivered = s.undelivered
  told : (∃ data, result = .ok data) ∨ ∃ failure, result = .error (.transport failure)
  full : ∀ data, result = .ok data → data ≠ [] ∧ data.length = min length (leading s.undelivered)

variable {s t : Inbound Bytes} {length : Nat} {result : Except CallError Bytes}

theorem leading_undelivered_nil (h : s.failures = []) :
    leading s.undelivered = s.queue.length := by
  rw [undelivered, h, layOut, Item.leading_bytes]

theorem leading_undelivered_cons (h : Consistent s) {position : Nat} {failure : Failure}
    {later : List (Nat × Failure)} (hf : s.failures = (position, failure) :: later) :
    leading s.undelivered = position - s.delivered ∧ position - s.delivered ≤ s.queue.length := by
  have hreceived := h.received
  have hplaced := h.placed
  rw [hf] at hplaced
  have hstop := hplaced.2.le
  have hle : position - s.delivered ≤ s.queue.length := by omega
  constructor
  · rw [undelivered, hf, layOut, Item.leading_append, leading, List.length_take,
      Nat.min_eq_left hle, Nat.add_zero]
  · exact hle

/-- A read of bytes alone that finds some: as many as it may take. -/
theorem eq_of_takeBytes? {limit : Nat} (ht : s.takeBytes? limit = some (result, t)) :
    ∃ n, n = min s.queue.length limit ∧ n ≠ 0 ∧ result = .ok (s.queue.take n) ∧
      t = { s with queue := s.queue.drop n, delivered := s.delivered + n } := by
  rw [takeBytes?] at ht
  split at ht
  · cases ht
  · next hpos =>
    obtain ⟨rfl, rfl⟩ := Prod.mk.inj (Option.some.inj ht)
    refine ⟨_, rfl, hpos, rfl, ?_⟩
    have hlength : (s.queue.take (min s.queue.length limit)).length = min s.queue.length limit := by
      rw [List.length_take, Nat.min_eq_left (Nat.min_le_left _ _)]
    exact congrArg (fun n => { s with
      queue := s.queue.drop (min s.queue.length limit)
      delivered := s.delivered + n }) hlength

/-- Bytes that no failure lies before are right to give. -/
theorem taken_of_takeBytes? (h : Consistent s) {limit : Nat}
    (hplaced : Placed (s.delivered + min s.queue.length limit) s.received s.failures)
    (hleading : min s.queue.length limit = min length (leading s.undelivered))
    (ht : s.takeBytes? limit = some (result, t)) : Taken s length result t := by
  obtain ⟨n, hn, hpos, rfl, rfl⟩ := eq_of_takeBytes? ht
  rw [← hn] at hplaced hleading
  have hle : n ≤ s.queue.length := by omega
  have hreceived := h.received
  refine ⟨⟨?_, hplaced⟩, rfl, ?_, .inl ⟨_, rfl⟩, ?_⟩
  · simp only [List.length_drop]
    omega
  · exact (Item.layOut_drop s.queue hplaced).symm
  · rintro data ⟨⟩
    have hlength : (s.queue.take n).length = n := by
      rw [List.length_take, Nat.min_eq_left hle]
    constructor
    · intro hnil
      rw [hnil] at hlength
      exact hpos hlength.symm
    · exact hlength.trans hleading

/-- A read that is answered takes its answer off the front of the stream. -/
theorem taken_of_take? (h : Consistent s) (ht : s.take? length = some (result, t)) :
    Taken s length result t := by
  have hreceived := h.received
  have hplaced := h.placed
  rw [take?] at ht
  split at ht
  · next hf =>
    have hleading := leading_undelivered_nil hf
    refine taken_of_takeBytes? h ?_ ?_ ht
    · rw [hf, Placed]
      omega
    · omega
  · next position failure later hf =>
    rw [hf] at hplaced
    split at ht
    · next hposition =>
      obtain ⟨rfl, rfl⟩ := Prod.mk.inj (Option.some.inj ht)
      refine ⟨⟨hreceived, hposition ▸ hplaced.2⟩, rfl, ?_, .inr ⟨failure, rfl⟩, ?_⟩
      · rw [undelivered, undelivered, hf, layOut, hposition, Nat.sub_self]
        rfl
      · intro data hd
        cases hd
    · next hposition =>
      obtain ⟨hleading, hle⟩ := leading_undelivered_cons h hf
      have hstart := hplaced.1
      refine taken_of_takeBytes? h ?_ ?_ ht
      · rw [hf]
        constructor
        · omega
        · exact hplaced.2
      · omega

/-- A read of at least one byte is left waiting only when everything was delivered: a failure is
told where it is reached, and has bytes before it where it is not. -/
theorem undelivered_of_take?_none (h : Consistent s) (hpos : 0 < length)
    (ht : s.take? length = none) : s.undelivered = [] := by
  have hplaced := h.placed
  rw [take?] at ht
  split at ht
  · next hf =>
    rw [takeBytes?] at ht
    split at ht
    · next hn =>
      have hqueue : s.queue = [] := List.length_eq_zero_iff.mp (by
        have hq : min s.queue.length length = 0 := hn
        omega)
      rw [undelivered, Item.layOut_eq_nil_iff]
      exact ⟨hqueue, hf⟩
    · cases ht
  · next position failure later hf =>
    rw [hf] at hplaced
    split at ht
    · cases ht
    · next hposition =>
      obtain ⟨-, hle⟩ := leading_undelivered_cons h hf
      have hstart := hplaced.1
      rw [takeBytes?] at ht
      split at ht
      · next hn =>
        have hq : min s.queue.length (min length (position - s.delivered)) = 0 := hn
        omega
      · cases ht

/-! ## Whole steps -/

/-- What a notification brings goes behind everything that is there. -/
theorem consistent_accept (h : Consistent s) (n : Notification) : Consistent (s.accept n) := by
  have hreceived := h.received
  have hgrown := h.placed.extend (Nat.le_add_right s.received n.chunk.bytes.length)
  constructor
  · simp only [accept, ByteQueue.write, List.length_append]
    omega
  · rw [accept]
    cases n.failure with
    | none => exact hgrown
    | some failure => exact hgrown.concat failure

theorem undelivered_accept (h : Consistent s) (n : Notification) :
    (s.accept n).undelivered = s.undelivered ++ n.items := by
  have hreceived := h.received
  have hplaced : Placed s.delivered (s.delivered + s.queue.length) s.failures :=
    hreceived ▸ h.placed
  have hdata := Item.layOut_append hplaced n.chunk.bytes
  rw [undelivered, accept, Notification.items, undelivered, ← List.append_assoc, ← hdata]
  cases n.failure with
  | none => exact (List.append_nil _).symm
  | some failure =>
    have hlength : s.received + n.chunk.bytes.length =
        s.delivered + (s.queue ++ n.chunk.bytes).length := by
      rw [List.length_append]
      omega
    have hgrown : Placed s.delivered (s.delivered + (s.queue ++ n.chunk.bytes).length)
        s.failures := by
      rw [← hlength]
      exact h.placed.extend (Nat.le_add_right _ _)
    simp only [hlength]
    exact Item.layOut_concat hgrown failure

end Inbound

end SerialBridge
