import SerialBridge.Proofs.Checked.Queue
import SerialBridge.Proofs.Engine.Memory
import SerialBridge.Proofs.Inbound.Steps
import SerialBridge.Proofs.Outbound.Steps
import SerialBridge.Proofs.Plain

/-!
# Both halves in checked arithmetic

What the engine does with its counters and its chunk, step by step in checked arithmetic. While the
counters are consistent and the chunk fits its buffer, all steps have a value.
-/

namespace SerialBridge

namespace Chunk

def checkedBytes (c : Chunk) : Option Bytes := c.buffer.slice? 0 c.len

def checkedOfBytes (data : Bytes) : Option Chunk := do
  let len := min data.length chunkLimit
  let front ← data.slice? 0 len
  let buffer ← empty.buffer.replace? 0 len front
  return ⟨buffer, len⟩

theorem checkedBytes_eq {c : Chunk} (h : c.WellFormed) : c.checkedBytes = some c.bytes := by
  obtain ⟨hbuffer, hlen⟩ := h
  exact Bytes.slice?_front (by omega)

theorem checkedOfBytes_eq (data : Bytes) : checkedOfBytes data = some (ofBytes data) := by
  have hlength : (data.take chunkLimit).length = min data.length chunkLimit := by
    rw [List.length_take, Nat.min_comm]
  have hslice := Bytes.slice?_front (Nat.min_le_left data.length chunkLimit)
  have hbuffer : empty.buffer.length = chunkLimit := List.length_replicate
  have hreplace := Bytes.replace?_front
    (show (data.take chunkLimit).length ≤ empty.buffer.length by omega)
  rw [Nat.min_comm, ← List.take_eq_take_min, Nat.min_comm] at hslice
  rw [hlength] at hreplace
  simp only [checkedOfBytes, hslice, hreplace, Option.bind_eq_bind, Option.bind_some,
    Option.pure_def, ofBytes, refill, hlength]

end Chunk

namespace Inbound

def checkedTakeBytes (s : Inbound Ring) (limit : Nat) :
    Option (Option (Except CallError Bytes × Inbound Ring)) := do
  let queued ← s.queue.checkedQueued
  let n := min queued limit
  if n = 0 then return none
  else
    let (count, buffer, queue) ← s.queue.checkedFill (List.replicate n 0)
    let delivered ← Word.add? s.delivered count
    return some (.ok (buffer.take count), { s with queue := queue, delivered := delivered })

def checkedTake (s : Inbound Ring) (length : Nat) :
    Option (Option (Except CallError Bytes × Inbound Ring)) :=
  match s.failures with
  | [] => s.checkedTakeBytes length
  | (position, failure) :: later =>
    if position = s.delivered then
      some (some (.error (.transport failure), { s with failures := later }))
    else do
      let ahead ← Word.sub? position s.delivered
      s.checkedTakeBytes (min length ahead)

def checkedRead (s : Inbound Ring) (id length : Nat) : Option (Inbound Ring × List Effect) := do
  match ← s.checkedTake length with
  | some (result, s) => return (s, [.replied id (.read result)])
  | none =>
    return ({ s with waiting := s.waiting ++ [⟨id, length⟩] }, [.logged (.readPending length)])

def checkedServe (s : Inbound Ring) : List ReadRequest → Option (Inbound Ring × List Effect)
  | [] => some ({ s with waiting := [] }, [])
  | r :: rest => do
    match ← s.checkedTake r.length with
    | some (result, s) =>
      let (s, effects) ← s.checkedServe rest
      return (s, .replied r.id (.read result) :: effects)
    | none => return ({ s with waiting := r :: rest }, [])

def checkedAccept (s : Inbound Ring) (n : Notification) : Option (Inbound Ring) := do
  let data ← n.chunk.checkedBytes
  let queue ← s.queue.checkedWrite data
  let received ← Word.add? s.received data.length
  return { s with
    queue := queue
    received := received
    failures :=
      match n.failure with
      | none => s.failures
      | some f => s.failures ++ [(received, f)] }

def checkedIncoming (s : Inbound Ring) (n : Notification) :
    Option (Inbound Ring × List Effect) := do
  let data ← n.chunk.checkedBytes
  let s ← s.checkedAccept n
  let warning : List Effect :=
    match n.failure with
    | none => []
    | some f => [.logged (.notificationFailed s.received f)]
  let (s, served) ← s.checkedServe s.waiting
  return (s, .logged (.received data) :: (warning ++ served))

/-- The ring is not too large for what came in, and the counters agree with it. -/
structure Safe (growth bytes : Nat) (s : Inbound Ring) : Prop where
  queue : s.queue.Within growth bytes
  small : growth < Word.quarter
  consistent : s.plain.Consistent
  received : s.received ≤ bytes

variable {s t : Inbound Ring} {growth bytes : Nat}

theorem safe_new (hpos : 1 ≤ growth) (h : growth < Word.quarter) : (new growth).Safe growth 0 :=
  ⟨Ring.within_new hpos, h, consistent_new growth, Nat.le_refl 0⟩

theorem Safe.withWaiting (h : s.Safe growth bytes) (waiting : List ReadRequest) :
    ({ s with waiting := waiting } : Inbound Ring).Safe growth bytes :=
  ⟨h.queue, h.small, ⟨h.consistent.received, h.consistent.placed⟩, h.received⟩

theorem Safe.counted (h : s.Safe growth bytes) : s.received = s.delivered + s.queue.queued := by
  have hreceived : s.received = s.delivered + s.queue.toList.length := h.consistent.received
  rwa [Ring.length_toList h.queue.valid] at hreceived

theorem checkedTakeBytes_eq (h : s.Safe growth bytes) (hb : bytes < Word.quarter) (limit : Nat) :
    s.checkedTakeBytes limit = some (s.takeBytes? limit) := by
  have hlimit := Word.limit_eq
  have hcounted := h.counted
  have hreceived := h.received
  have hlength : (s.queue.read (min s.queue.queued limit)).1.length =
      min s.queue.queued limit := by
    rw [Ring.read_fst h.queue.valid, List.length_take, Ring.length_toList h.queue.valid]
    omega
  have hqueued : ByteQueue.queued s.queue = s.queue.queued := rfl
  have hread (n : Nat) : ByteQueue.read s.queue n = s.queue.read n := rfl
  simp only [checkedTakeBytes, takeBytes?, h.queue.checkedQueued h.small hb,
    h.queue.checkedFill h.small hb, ByteQueue.readInto, List.length_replicate, hqueued, hread,
    Option.bind_eq_bind, Option.bind_some, Option.pure_def]
  by_cases hn : min s.queue.queued limit = 0
  · rw [if_pos hn, if_pos hn]
  · rw [if_neg hn, if_neg hn, Word.add?_eq (by omega), Option.bind_some, Bytes.overlay,
      List.take_left]

/-- Failures lie ahead of what was delivered. -/
theorem checkedTake_eq (h : s.Safe growth bytes) (hb : bytes < Word.quarter) (length : Nat) :
    s.checkedTake length = some (s.take? length) := by
  have hplaced : Item.Placed s.delivered s.received s.failures := h.consistent.placed
  rw [checkedTake, take?]
  cases hf : s.failures with
  | nil => exact checkedTakeBytes_eq h hb length
  | cons first later =>
    rw [hf] at hplaced
    dsimp only
    split
    · rfl
    · rw [Word.sub?_eq hplaced.1]
      exact checkedTakeBytes_eq h hb _

theorem safe_of_take? (h : s.Safe growth bytes) {length : Nat} {result : Except CallError Bytes}
    (ht : s.take? length = some (result, t)) : t.Safe growth bytes := by
  obtain ⟨hdrained, hreceived⟩ := drained_of_take? h.queue.valid ht
  have hplain := (take?_plain h.queue.valid length).1
  rw [ht, Option.map_some] at hplain
  refine ⟨h.queue.drained hdrained, h.small, (taken_of_take? h.consistent hplain).consistent, ?_⟩
  rw [hreceived]
  exact h.received

theorem checkedRead_eq (h : s.Safe growth bytes) (hb : bytes < Word.quarter) (id length : Nat) :
    s.checkedRead id length = some (s.read id length) ∧ (s.read id length).1.Safe growth bytes := by
  rw [checkedRead, checkedTake_eq h hb, Option.bind_eq_bind, Option.bind_some, read]
  cases ht : s.take? length with
  | none => exact ⟨rfl, h.withWaiting _⟩
  | some answer => exact ⟨rfl, safe_of_take? h ht⟩

theorem checkedServe_eq (h : s.Safe growth bytes) (hb : bytes < Word.quarter)
    (requests : List ReadRequest) :
    s.checkedServe requests = some (s.serve requests) ∧ (s.serve requests).1.Safe growth bytes := by
  induction requests generalizing s with
  | nil => exact ⟨rfl, h.withWaiting _⟩
  | cons r rest ih =>
    rw [checkedServe, checkedTake_eq h hb, Option.bind_eq_bind, Option.bind_some, serve]
    cases ht : s.take? r.length with
    | none => exact ⟨rfl, h.withWaiting _⟩
    | some answer =>
      obtain ⟨hrest, hsafe⟩ := ih (safe_of_take? h ht)
      constructor
      · simp only [hrest, Option.bind_eq_bind, Option.bind_some, Option.pure_def]
      · exact hsafe

theorem checkedAccept_eq (h : s.Safe growth bytes) {n : Notification} (hn : n.chunk.WellFormed)
    (hb : bytes + n.chunk.bytes.length < Word.quarter) :
    s.checkedAccept n = some (s.accept n) ∧
      (s.accept n).Safe growth (bytes + n.chunk.bytes.length) := by
  have hlimit := Word.limit_eq
  have hreceived := h.received
  have hwrite : ByteQueue.write s.queue n.chunk.bytes = s.queue.write n.chunk.bytes := rfl
  have hadd : Word.add? s.received n.chunk.bytes.length = some _ := Word.add?_eq (by omega)
  constructor
  · cases hf : n.failure <;>
      simp only [checkedAccept, accept, hf, Chunk.checkedBytes_eq hn,
        h.queue.checkedWrite h.small hb, hwrite, hadd, Option.bind_eq_bind, Option.bind_some,
        Option.pure_def]
  · refine ⟨h.queue.write _, h.small, ?_, Nat.add_le_add_right h.received _⟩
    rw [← (accept_plain h.queue.valid n).2]
    exact consistent_accept h.consistent n

theorem checkedIncoming_eq (h : s.Safe growth bytes) {n : Notification} (hn : n.chunk.WellFormed)
    (hb : bytes + n.chunk.bytes.length < Word.quarter) :
    s.checkedIncoming n = some (s.incoming n) ∧
      (s.incoming n).1.Safe growth (bytes + n.chunk.bytes.length) := by
  obtain ⟨haccept, hsafe⟩ := checkedAccept_eq h hn hb
  obtain ⟨hserve, hlast⟩ := checkedServe_eq hsafe hb (s.accept n).waiting
  constructor
  · cases hf : n.failure <;>
      simp only [checkedIncoming, incoming, hf, Chunk.checkedBytes_eq hn, haccept, hserve,
        Option.bind_eq_bind, Option.bind_some, Option.pure_def]
  · exact hlast

end Inbound

namespace Outbound

def checkedStage (s : Outbound Ring) (data : Bytes) : Option (Outbound Ring × List Effect) := do
  let queue ← s.queue.checkedWrite data
  let queued ← queue.checkedQueued
  return ({ s with queue := queue }, [.logged (.staged queued)])

def checkedWrite (s : Outbound Ring) (maxChunk : Nat) (data : Bytes) :
    Option (Outbound Ring × List Effect) :=
  if data = [] then some (s, [])
  else
    match s.mode with
    | .active => s.checkedStage data
    | .idle => do
      let n := min data.length maxChunk
      let front ← data.slice? 0 n
      let chunk ← Chunk.checkedOfBytes front
      let rest ← data.slice? n data.length
      let (s, effects) ← checkedStage { s with chunk := chunk, mode := .active } rest
      return (s, .logged .active :: effects)

def checkedTaken (s : Outbound Ring) (maxChunk : Nat) :
    Option (Outbound Ring × List Effect) := do
  let room ← s.chunk.buffer.slice? 0 maxChunk
  let (n, room, queue) ← s.queue.checkedFill room
  let buffer ← s.chunk.buffer.replace? 0 maxChunk room
  let s := { s with queue := queue, chunk := { s.chunk with buffer := buffer } }
  if 0 < n then return ({ s with chunk := { s.chunk with len := n } }, [])
  else if s.chunk.isEmpty then return s.settle
  else return ({ s with chunk := s.chunk.clear }, [])

/-- The ring is not too large for what was written, and the chunk on offer fits its buffer and the
settings. -/
structure Safe (maxChunk growth bytes : Nat) (s : Outbound Ring) : Prop where
  queue : s.queue.Within growth bytes
  small : growth < Word.quarter
  sound : s.plain.Sound maxChunk

variable {s : Outbound Ring} {maxChunk growth bytes : Nat}

theorem safe_new (hpos : 1 ≤ growth) (h : growth < Word.quarter) :
    (new growth).Safe maxChunk growth 0 :=
  ⟨Ring.within_new hpos, h, sound_new growth⟩

theorem checkedStage_eq (h : s.queue.Within growth bytes) (hg : growth < Word.quarter)
    {data : Bytes} (hb : bytes + data.length < Word.quarter) :
    s.checkedStage data = some (s.stage data) := by
  have hqueued := (h.write data).checkedQueued hg hb
  simp only [checkedStage, h.checkedWrite hg hb, hqueued, Option.bind_eq_bind, Option.bind_some,
    Option.pure_def]
  rfl

theorem checkedWrite_eq (h : s.queue.Within growth bytes) (hg : growth < Word.quarter)
    {data : Bytes} (hb : bytes + data.length < Word.quarter) :
    s.checkedWrite maxChunk data = some (s.write maxChunk data) := by
  rw [checkedWrite, write]
  split
  · rfl
  · cases s.mode with
    | active => exact checkedStage_eq h hg hb
    | idle =>
      have hrest : (data.drop maxChunk).length = data.length - maxChunk := List.length_drop
      have hfront := Bytes.slice?_front (Nat.min_le_left data.length maxChunk)
      have hback := Bytes.slice?_back (Nat.min_le_left data.length maxChunk)
      have htake : data.take (min data.length maxChunk) = data.take maxChunk := by
        rw [Nat.min_comm, ← List.take_eq_take_min]
      have hdrop : data.drop (min data.length maxChunk) = data.drop maxChunk := by
        by_cases hle : maxChunk ≤ data.length
        · rw [Nat.min_eq_right hle]
        · rw [Nat.min_eq_left (by omega), List.drop_length, List.drop_eq_nil_of_le (by omega)]
      rw [htake] at hfront
      rw [hdrop] at hback
      have hstage := checkedStage_eq (s := { s with
        chunk := Chunk.ofBytes (data.take maxChunk), mode := .active }) h hg
        (show bytes + (data.drop maxChunk).length < Word.quarter by omega)
      simp only [hfront, hback, Chunk.checkedOfBytes_eq, hstage, Option.bind_eq_bind,
        Option.bind_some, Option.pure_def]

theorem safe_write (h : s.Safe maxChunk growth bytes) (data : Bytes) :
    (s.write maxChunk data).1.Safe maxChunk growth (bytes + data.length) := by
  have hplain := (write_plain h.queue.valid maxChunk data).2
  have hsound := sound_write h.sound data
  rw [hplain] at hsound
  exact ⟨within_write h.queue maxChunk data, h.small, hsound⟩

/-- The front of the chunk's buffer has room for what is read into it. -/
theorem checkedTaken_eq (h : s.Safe maxChunk growth bytes) (hm : maxChunk ≤ chunkLimit)
    (hb : bytes < Word.quarter) : s.checkedTaken maxChunk = some (s.taken maxChunk) := by
  have hbuffer : s.chunk.buffer.length = chunkLimit := h.sound.wellFormed.1
  have hroom := Bytes.slice?_front (show maxChunk ≤ s.chunk.buffer.length by omega)
  have hlength : (s.chunk.buffer.take maxChunk).length = maxChunk := by
    rw [List.length_take]
    omega
  have hread : ByteQueue.read s.queue maxChunk = s.queue.read maxChunk := rfl
  have hdata : (s.queue.read maxChunk).1.length ≤ maxChunk := by
    rw [Ring.read_fst h.queue.valid]
    exact List.length_take_le _ _
  have hreplace := Bytes.replace?_overlay hdata (show maxChunk ≤ s.chunk.buffer.length by omega)
  simp only [checkedTaken, taken, hroom, h.queue.checkedFill h.small hb, ByteQueue.readInto,
    hlength, hread, hreplace, Option.bind_eq_bind, Option.bind_some, Option.pure_def]
  by_cases hd : (s.queue.read maxChunk).1 = []
  · have hnone : ¬0 < (s.queue.read maxChunk).1.length := by
      rw [hd]
      exact Nat.lt_irrefl 0
    rw [if_neg hnone, if_neg (not_not_intro hd), hd]
    show (if s.chunk.isEmpty = true then _ else _) = _
    split
    · rfl
    · rfl
  · rw [if_pos (List.length_pos_iff.mpr hd), if_pos hd]
    rfl

theorem safe_taken (h : s.Safe maxChunk growth bytes) (hpos : 0 < maxChunk)
    (hm : maxChunk ≤ chunkLimit) : (s.taken maxChunk).1.Safe maxChunk growth bytes := by
  have hplain := (taken_plain h.queue.valid maxChunk).2
  have hsound := sound_taken h.sound hpos hm
  rw [hplain] at hsound
  exact ⟨h.queue.drained (drained_taken h.queue.valid maxChunk), h.small, hsound⟩

end Outbound

end SerialBridge
