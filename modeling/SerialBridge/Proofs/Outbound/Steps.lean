import SerialBridge.Engine.Outbound

/-!
# Steps of the outbound half

Over a plain queue the bytes that wait for the pump are those of the chunk on offer and those queued
behind it. A write adds its bytes to their end, a hand-off takes the chunk off their front, and no
other step touches them. An idle half has nothing left.
-/

namespace SerialBridge

theorem Bytes.length_pieces {n : Nat} (hn : n ≠ 0) (bs : Bytes) :
    (pieces n bs).length = (bs.length + n - 1) / n := by
  fun_induction pieces n bs with
  | case1 bs h =>
    obtain rfl : bs = [] := h.resolve_left hn
    rw [List.length_nil, List.length_nil, Nat.zero_add, Nat.div_eq_of_lt (by omega)]
  | case2 bs h ih =>
    have hpos : 0 < bs.length := List.length_pos_iff.mpr fun hnil => h (.inr hnil)
    have hdrop : (bs.drop n).length = bs.length - n := List.length_drop
    rw [List.length_cons, ih, hdrop]
    obtain hlt | hle := Nat.lt_or_ge bs.length n
    · have hone : bs.length + n - 1 = (bs.length - 1) + n := by omega
      rw [hone, Nat.add_div_right _ (by omega), Nat.div_eq_of_lt (by omega),
        Nat.div_eq_of_lt (by omega)]
    · have hsum : bs.length + n - 1 = (bs.length - n + n - 1) + n := by omega
      rw [hsum, Nat.add_div_right _ (by omega)]

/-- No piece is empty. -/
theorem Bytes.ne_nil_of_mem_pieces {n : Nat} {bs piece : Bytes} (h : piece ∈ pieces n bs) :
    piece ≠ [] := by
  fun_induction pieces n bs with
  | case1 bs hnone => cases h
  | case2 bs hsome ih =>
    obtain rfl | hrest := List.mem_cons.mp h
    · rw [ne_eq, List.take_eq_nil_iff]
      exact hsome
    · exact ih hrest

namespace Chunk

theorem length_bytes {c : Chunk} (h : c.WellFormed) : c.bytes.length = c.len := by
  obtain ⟨hb, hl⟩ := h
  rw [bytes, List.length_take]
  omega

theorem isEmpty_iff_bytes {c : Chunk} (h : c.WellFormed) : c.isEmpty = true ↔ c.bytes = [] := by
  rw [isEmpty, beq_iff_eq, ← List.length_eq_zero_iff, length_bytes h]

theorem wellFormed_empty : empty.WellFormed := ⟨by decide, by decide⟩

theorem wellFormed_clear {c : Chunk} (h : c.WellFormed) : c.clear.WellFormed :=
  ⟨h.1, Nat.zero_le _⟩

theorem wellFormed_ofBytes (data : Bytes) : (ofBytes data).WellFormed := by
  apply wellFormed_refill wellFormed_empty
  rw [List.length_take]
  omega

theorem isEmpty_ofBytes {data : Bytes} (h : data ≠ []) : (ofBytes data).isEmpty = false := by
  have hpos := List.length_pos_iff.mpr h
  have hl : (ofBytes data).len ≠ 0 := by
    rw [ofBytes, len_refill, List.length_take, chunkLimit]
    omega
  rw [isEmpty, beq_eq_false_iff_ne]
  exact hl

theorem isEmpty_refill (c : Chunk) {data : Bytes} (h : data ≠ []) :
    (c.refill data).isEmpty = false := by
  rw [isEmpty, len_refill, beq_eq_false_iff_ne]
  exact mt List.length_eq_zero_iff.mp h

end Chunk

namespace Outbound

/-- The bytes not yet taken, in the order in which they will be. -/
def remaining (s : Outbound Bytes) : Bytes := s.chunk.bytes ++ s.queue

/-- The chunk on offer fits its buffer and the settings; an idle half has nothing to send and no
flush waiting. -/
structure Sound (maxChunk : Nat) (s : Outbound Bytes) : Prop where
  wellFormed : s.chunk.WellFormed
  fits : s.chunk.len ≤ maxChunk
  idle : s.mode = .idle → s.chunk.isEmpty = true ∧ s.queue = [] ∧ s.waiting = []

variable {maxChunk : Nat} {s : Outbound Bytes}

theorem sound_new (growth : Nat) : Sound maxChunk (new growth) :=
  ⟨Chunk.wellFormed_empty, Nat.zero_le _, fun _ => ⟨rfl, rfl, rfl⟩⟩

theorem Sound.remaining_idle (h : Sound maxChunk s) (hm : s.mode = .idle) : s.remaining = [] := by
  obtain ⟨hc, hq, -⟩ := h.idle hm
  rw [remaining, hq, List.append_nil]
  exact (Chunk.isEmpty_iff_bytes h.wellFormed).mp hc

/-! ## What each step can do -/

theorem write_cases (maxChunk : Nat) (s : Outbound Bytes) (data : Bytes) :
    data = [] ∧ s.write maxChunk data = (s, []) ∨
    data ≠ [] ∧ s.mode = .active ∧
      s.write maxChunk data = ({ s with queue := s.queue ++ data },
        [.logged (.staged (s.queue ++ data).length)]) ∨
    data ≠ [] ∧ s.mode = .idle ∧
      s.write maxChunk data =
        ({ s with
            queue := s.queue ++ data.drop maxChunk
            chunk := Chunk.ofBytes (data.take maxChunk)
            mode := .active },
          [.logged .active, .logged (.staged (s.queue ++ data.drop maxChunk).length)]) := by
  by_cases hd : data = []
  · exact .inl ⟨hd, by rw [write, if_pos hd]⟩
  · obtain ⟨queue, chunk, mode, waiting, failure⟩ := s
    rw [write, if_neg hd]
    cases mode with
    | active => exact .inr (.inl ⟨hd, rfl, rfl⟩)
    | idle => exact .inr (.inr ⟨hd, rfl, rfl⟩)

/-- A hand-off fills the chunk again, or clears it, or ends the burst. -/
theorem taken_cases (hm : 0 < maxChunk) (s : Outbound Bytes) :
    s.queue ≠ [] ∧ s.taken maxChunk =
      ({ s with
          queue := s.queue.drop maxChunk
          chunk := s.chunk.refill (s.queue.take maxChunk) }, []) ∨
    s.queue = [] ∧ s.chunk.isEmpty = false ∧
        s.taken maxChunk = ({ s with chunk := s.chunk.clear }, []) ∨
    s.queue = [] ∧ s.chunk.isEmpty = true ∧ s.taken maxChunk = s.settle := by
  obtain ⟨queue, chunk, mode, waiting, failure⟩ := s
  by_cases hq : queue = []
  · subst hq
    simp only [taken, ByteQueue.read, List.take_nil, List.drop_nil, ne_eq, not_true_eq_false, if_false]
    cases he : chunk.isEmpty with
    | false => simp
    | true => simp
  · have ht : queue.take maxChunk ≠ [] := by
      rw [ne_eq, List.take_eq_nil_iff, not_or]
      exact ⟨by omega, hq⟩
    refine .inl ⟨hq, ?_⟩
    simp only [taken, ByteQueue.read, if_pos ht]

@[simp] theorem settle_queue {Q : Type} (s : Outbound Q) : s.settle.1.queue = s.queue := by
  rw [settle]
  split <;> rfl

@[simp] theorem settle_chunk {Q : Type} (s : Outbound Q) : s.settle.1.chunk = s.chunk := by
  rw [settle]
  split <;> rfl

@[simp] theorem settle_mode {Q : Type} (s : Outbound Q) : s.settle.1.mode = .idle := by
  rw [settle]
  split <;> rfl

@[simp] theorem settle_waiting {Q : Type} (s : Outbound Q) : s.settle.1.waiting = [] := by
  rw [settle]
  split
  · next h => exact h
  · rfl

theorem settle_failure {Q : Type} (s : Outbound Q) :
    s.settle.1.failure = if s.waiting = [] then s.failure else none := by
  simp only [settle]
  split <;> rfl

/-! ## Bytes through a step -/

theorem remaining_write (h : Sound maxChunk s) (hm : maxChunk ≤ chunkLimit) (data : Bytes) :
    (s.write maxChunk data).1.remaining = s.remaining ++ data := by
  obtain ⟨rfl, hw⟩ | ⟨-, -, hw⟩ | ⟨-, hidle, hw⟩ := write_cases maxChunk s data
  · rw [hw, List.append_nil]
  · rw [hw, remaining, remaining, List.append_assoc]
  · have hq := (h.idle hidle).2.1
    rw [hw, h.remaining_idle hidle, remaining, hq, Chunk.bytes_ofBytes, List.take_take,
      Nat.min_eq_right hm, List.nil_append, List.nil_append, List.take_append_drop]

theorem remaining_taken (h : Sound maxChunk s) (hm : 0 < maxChunk) :
    s.chunk.bytes ++ (s.taken maxChunk).1.remaining = s.remaining := by
  obtain ⟨-, ht⟩ | ⟨hq, -, ht⟩ | ⟨-, he, ht⟩ := taken_cases hm s
  · rw [ht, remaining, remaining, Chunk.bytes_refill, List.take_append_drop]
  · rw [ht, remaining, remaining, hq, Chunk.bytes_clear, List.nil_append]
  · rw [ht, remaining, settle_queue, settle_chunk, (Chunk.isEmpty_iff_bytes h.wellFormed).mp he,
      List.nil_append, remaining, (Chunk.isEmpty_iff_bytes h.wellFormed).mp he]

/-- Two halves that differ in flushes and failures only. -/
structure SameOffer (s t : Outbound Bytes) : Prop where
  queue : t.queue = s.queue
  chunk : t.chunk = s.chunk
  mode : t.mode = s.mode

theorem sameOffer_flush (s : Outbound Bytes) (id : Nat) : SameOffer s (s.flush id).1 := by
  rw [flush]
  cases hm : s.mode with
  | active => exact ⟨rfl, rfl, hm.symm⟩
  | idle => exact ⟨rfl, rfl, hm.symm⟩

theorem sameOffer_failed (s : Outbound Bytes) (f : Failure) : SameOffer s (s.failed f).1 := by
  rw [failed]
  split <;> exact ⟨rfl, rfl, rfl⟩

theorem SameOffer.remaining {t : Outbound Bytes} (h : SameOffer s t) :
    t.remaining = s.remaining := by
  rw [Outbound.remaining, Outbound.remaining, h.queue, h.chunk]

/-- A hand-off in an idle half leaves it idle. -/
theorem taken_idle (hpos : 0 < maxChunk) (h : Sound maxChunk s) (hm : s.mode = .idle) :
    s.taken maxChunk = s.settle := by
  obtain ⟨he, hq, -⟩ := h.idle hm
  obtain ⟨hn, -⟩ | ⟨-, hn, -⟩ | ⟨-, -, ht⟩ := taken_cases hpos s
  · exact absurd hq hn
  · cases he.symm.trans hn
  · exact ht

/-- A burst starts with its first bytes on offer. -/
theorem isEmpty_write (hpos : 0 < maxChunk) (hm : s.mode = .idle) {data : Bytes}
    (hs : (s.write maxChunk data).1.mode = .active) :
    (s.write maxChunk data).1.chunk.isEmpty = false := by
  obtain ⟨-, hw⟩ | ⟨-, hactive, -⟩ | ⟨hd, -, hw⟩ := write_cases maxChunk s data
  · rw [hw] at hs
    cases hm.symm.trans hs
  · cases hm.symm.trans hactive
  · have ht : data.take maxChunk ≠ [] := by
      rw [ne_eq, List.take_eq_nil_iff, not_or]
      exact ⟨by omega, hd⟩
    rw [hw]
    exact Chunk.isEmpty_ofBytes ht

/-- A write to an active half leaves the chunk on offer alone. -/
theorem write_active (hm : s.mode = .active) (data : Bytes) :
    (s.write maxChunk data).1.chunk = s.chunk ∧ (s.write maxChunk data).1.mode = .active := by
  obtain ⟨-, hw⟩ | ⟨-, -, hw⟩ | ⟨-, hidle, -⟩ := write_cases maxChunk s data
  · rw [hw]
    exact ⟨rfl, hm⟩
  · rw [hw]
    exact ⟨rfl, hm⟩
  · cases hm.symm.trans hidle

@[simp] theorem failure_write {Q : Type} [ByteQueue Q] (s : Outbound Q) (maxChunk : Nat)
    (data : Bytes) : (s.write maxChunk data).1.failure = s.failure := by
  rw [write]
  split
  · rfl
  · cases s.mode <;> rfl

/-- A write keeps the flushes waiting, and leaves the half active unless it writes nothing. -/
theorem waiting_write {Q : Type} [ByteQueue Q] (s : Outbound Q) (maxChunk : Nat) (data : Bytes) :
    (s.write maxChunk data).1.waiting = s.waiting ∧
      ((s.write maxChunk data).1.mode = .active ∨ (s.write maxChunk data).1.mode = s.mode) := by
  rw [write]
  split
  · exact ⟨rfl, .inr rfl⟩
  · cases hm : s.mode with
    | active => exact ⟨rfl, .inl hm⟩
    | idle => exact ⟨rfl, .inl rfl⟩

/-- A burst ends by the hand-off of an empty chunk with nothing queued. -/
theorem taken_ends (hpos : 0 < maxChunk) (hm : s.mode = .active)
    (hidle : (s.taken maxChunk).1.mode = .idle) : s.chunk.isEmpty = true ∧ s.queue = [] := by
  obtain ⟨-, ht⟩ | ⟨-, -, ht⟩ | ⟨hq, he, -⟩ := taken_cases hpos s
  · rw [ht] at hidle
    cases hm.symm.trans hidle
  · rw [ht] at hidle
    cases hm.symm.trans hidle
  · exact ⟨he, hq⟩

/-- After an empty chunk a burst that goes on has bytes to offer. -/
theorem taken_after_empty (hpos : 0 < maxChunk) (he : s.chunk.isEmpty = true)
    (hm : (s.taken maxChunk).1.mode = .active) : (s.taken maxChunk).1.chunk.isEmpty = false := by
  obtain ⟨hq, ht⟩ | ⟨-, hn, -⟩ | ⟨-, -, ht⟩ := taken_cases hpos s
  · have hd : s.queue.take maxChunk ≠ [] := by
      rw [ne_eq, List.take_eq_nil_iff, not_or]
      exact ⟨by omega, hq⟩
    rw [ht]
    exact Chunk.isEmpty_refill _ hd
  · cases he.symm.trans hn
  · rw [ht, settle_mode] at hm
    cases hm

/-! ## What is on offer after a step -/

/-- What is on offer after a hand-off is the front of what remains. -/
theorem offer_taken (h : s.Sound maxChunk) (hpos : 0 < maxChunk) :
    (s.taken maxChunk).1.chunk.bytes = (s.taken maxChunk).1.remaining.take maxChunk := by
  obtain ⟨-, ht⟩ | ⟨hq, -, ht⟩ | ⟨hq, he, ht⟩ := taken_cases hpos s
  · rw [ht, remaining, Chunk.bytes_refill, List.take_append_drop]
  · rw [ht, remaining, Chunk.bytes_clear, hq, List.append_nil, List.take_nil]
  · rw [ht, remaining, settle_chunk, settle_queue, hq,
      (Chunk.isEmpty_iff_bytes h.wellFormed).mp he, List.append_nil, List.take_nil]

/-- So it is after a write to an idle half. -/
theorem offer_write (h : s.Sound maxChunk) (hm : maxChunk ≤ chunkLimit) (hidle : s.mode = .idle)
    (data : Bytes) : (s.write maxChunk data).1.chunk.bytes = data.take maxChunk := by
  obtain ⟨rfl, hw⟩ | ⟨-, hactive, -⟩ | ⟨-, -, hw⟩ := write_cases maxChunk s data
  · rw [hw, (Chunk.isEmpty_iff_bytes h.wellFormed).mp (h.idle hidle).1, List.take_nil]
  · cases hidle.symm.trans hactive
  · rw [hw, Chunk.bytes_ofBytes, List.take_take, Nat.min_eq_right hm]

/-- With nothing left to send a hand-off ends the burst. -/
theorem taken_of_remaining_nil (h : s.Sound maxChunk) (hpos : 0 < maxChunk)
    (hr : s.remaining = []) : s.taken maxChunk = s.settle := by
  obtain ⟨hbytes, hqueue⟩ := List.append_eq_nil_iff.mp hr
  obtain ⟨hq, -⟩ | ⟨-, he, -⟩ | ⟨-, -, ht⟩ := taken_cases hpos s
  · exact absurd hqueue hq
  · rw [(Chunk.isEmpty_iff_bytes h.wellFormed).mpr hbytes] at he
    cases he
  · exact ht

/-! ## Soundness through a step -/

theorem sound_write (h : Sound maxChunk s) (data : Bytes) :
    Sound maxChunk (s.write maxChunk data).1 := by
  obtain ⟨-, hw⟩ | ⟨-, hactive, hw⟩ | ⟨-, -, hw⟩ := write_cases maxChunk s data
  · rw [hw]
    exact h
  · rw [hw]
    exact ⟨h.wellFormed, h.fits, fun hidle => by simp [hactive] at hidle⟩
  · rw [hw]
    refine ⟨Chunk.wellFormed_ofBytes _, ?_, fun hidle => ?_⟩
    · rw [Chunk.ofBytes, Chunk.len_refill, List.length_take, List.length_take]
      omega
    · cases hidle

theorem sound_taken (h : Sound maxChunk s) (hpos : 0 < maxChunk) (hm : maxChunk ≤ chunkLimit) :
    Sound maxChunk (s.taken maxChunk).1 := by
  obtain ⟨hq, ht⟩ | ⟨-, -, ht⟩ | ⟨hq, he, ht⟩ := taken_cases hpos s
  · have hl : (s.queue.take maxChunk).length ≤ maxChunk := List.length_take_le _ _
    rw [ht]
    refine ⟨Chunk.wellFormed_refill h.wellFormed (by omega), hl, fun hidle => ?_⟩
    exact absurd (h.idle hidle).2.1 hq
  · rw [ht]
    refine ⟨Chunk.wellFormed_clear h.wellFormed, Nat.zero_le _, fun hidle => ?_⟩
    obtain ⟨-, hq, hw⟩ := h.idle hidle
    exact ⟨rfl, hq, hw⟩
  · rw [ht]
    refine ⟨?_, ?_, fun _ => ⟨?_, ?_, settle_waiting s⟩⟩
    · rw [settle_chunk]
      exact h.wellFormed
    · rw [settle_chunk]
      exact h.fits
    · rw [settle_chunk]
      exact he
    · rw [settle_queue]
      exact hq

theorem sound_flush (h : Sound maxChunk s) (id : Nat) : Sound maxChunk (s.flush id).1 := by
  rw [flush]
  cases hm : s.mode with
  | active => exact ⟨h.wellFormed, h.fits, fun hidle => by cases hidle⟩
  | idle => exact ⟨h.wellFormed, h.fits, fun _ => h.idle hm⟩

theorem sound_failed (h : Sound maxChunk s) (f : Failure) : Sound maxChunk (s.failed f).1 := by
  rw [failed]
  split
  · exact ⟨h.wellFormed, h.fits, h.idle⟩
  · exact h

end Outbound

end SerialBridge
