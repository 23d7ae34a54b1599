import SerialBridge.Proofs.Outbound.Stream
import SerialBridge.Proofs.Queue.Memory

/-!
# The memory of an engine

The ring of each direction takes no more memory than all bytes that went its way and one step of
growth need. The inbound one is written in short pieces, so it grows by single steps.
-/

namespace SerialBridge

namespace Inbound

variable {s t : Inbound Ring}

/-- An answer to a read leaves a ring that was read from, if at all, and no other count of what came
in. -/
theorem drained_of_take? (h : s.queue.Valid) {length : Nat} {result : Except CallError Bytes}
    (ht : s.take? length = some (result, t)) :
    s.queue.Drained t.queue ∧ t.received = s.received := by
  have htaken {limit : Nat} (ht : s.takeBytes? limit = some (result, t)) :
      s.queue.Drained t.queue ∧ t.received = s.received := by
    rw [takeBytes?] at ht
    split at ht
    · cases ht
    · obtain ⟨-, rfl⟩ := Prod.mk.inj (Option.some.inj ht)
      exact ⟨Ring.drained_read h _, rfl⟩
  rw [take?] at ht
  split at ht
  · exact htaken ht
  · split at ht
    · obtain ⟨-, rfl⟩ := Prod.mk.inj (Option.some.inj ht)
      exact ⟨Ring.drained_self h, rfl⟩
    · exact htaken ht

theorem drained_read (h : s.queue.Valid) (id length : Nat) :
    s.queue.Drained (s.read id length).1.queue := by
  rw [read]
  cases ht : s.take? length with
  | none => exact Ring.drained_self h
  | some answer => exact (drained_of_take? h ht).1

theorem drained_serve (h : s.queue.Valid) (requests : List ReadRequest) :
    s.queue.Drained (s.serve requests).1.queue := by
  induction requests generalizing s with
  | nil => exact Ring.drained_self h
  | cons r rest ih =>
    rw [serve]
    cases ht : s.take? r.length with
    | none => exact Ring.drained_self h
    | some answer =>
      have htaken := (drained_of_take? h ht).1
      exact htaken.trans (ih htaken.valid)

/-- A notification is written, and then the reads that waited take what they can. -/
theorem drained_incoming (h : s.queue.Valid) (n : Notification) :
    (s.queue.write n.chunk.bytes).Drained (s.incoming n).1.queue := by
  have hvalid : (s.accept n).queue.Valid := Ring.valid_write h n.chunk.bytes
  exact drained_serve hvalid (s.accept n).waiting

end Inbound

namespace Outbound

variable {s : Outbound Ring} {growth bytes : Nat}

/-- What goes on offer at once does not pass through the ring. -/
theorem within_write (h : s.queue.Within growth bytes) (maxChunk : Nat) (data : Bytes) :
    (s.write maxChunk data).1.queue.Within growth (bytes + data.length) := by
  rw [write]
  split
  · exact h.mono (Nat.le_add_right _ _)
  · cases s.mode with
    | active => exact h.write data
    | idle =>
      have hrest : (data.drop maxChunk).length ≤ data.length := by
        rw [List.length_drop]
        exact Nat.sub_le _ _
      exact (h.write (data.drop maxChunk)).mono (Nat.add_le_add_left hrest _)

theorem drained_taken (h : s.queue.Valid) (maxChunk : Nat) :
    s.queue.Drained (s.taken maxChunk).1.queue := by
  have hqueue : (s.taken maxChunk).1.queue = (s.queue.read maxChunk).2 := by
    simp only [taken]
    split
    · rfl
    · split
      · rw [settle_queue]
        rfl
      · rfl
  rw [hqueue]
  exact Ring.drained_read h maxChunk

theorem queue_flush (s : Outbound Ring) (id : Nat) : (s.flush id).1.queue = s.queue := by
  rw [flush]
  cases s.mode <;> rfl

theorem queue_failed (s : Outbound Ring) (f : Failure) : (s.failed f).1.queue = s.queue := by
  rw [failed]
  cases s.failure <;> rfl

end Outbound

namespace Engine

/-- The bytes that an event brings in. -/
def Event.received : Event → Bytes
  | .incoming n => n.chunk.bytes
  | _ => []

/-- The bytes that events bring in, one notification after another. -/
def received (events : List Event) : Bytes := events.flatMap Event.received

/-- The rings of an engine to which some bytes came in and some were written. -/
structure Within (growth came went : Nat) (e : Engine Ring) : Prop where
  inbound : e.inbound.queue.Within growth came
  outbound : e.outbound.queue.Within growth went
  steps : chunkLimit < growth → growth ∣ e.inbound.queue.cells.size

variable {e : Engine Ring} {growth came went : Nat}

theorem within_new {settings : Settings} (h : settings.Valid) :
    (new settings).Within settings.queueGrowth 0 0 :=
  ⟨Ring.within_new h.2.2, Ring.within_new h.2.2, fun _ => Nat.dvd_zero _⟩

theorem Within.mono {more : Nat} (h : e.Within growth came went) (hle : came ≤ more) :
    e.Within growth more went :=
  ⟨h.inbound.mono hle, h.outbound, h.steps⟩

/-- Reading leaves the inbound ring as large as it was. -/
theorem Within.drained {rest : Inbound Ring} (h : e.Within growth came went)
    (hd : e.inbound.queue.Drained rest.queue) :
    ({ e with inbound := rest } : Engine Ring).Within growth came went := by
  refine ⟨h.inbound.drained hd, h.outbound, fun hstep => ?_⟩
  rw [hd.cells]
  exact h.steps hstep

/-- A step adds to each ring no more than the bytes that go its way. -/
theorem within_step (h : e.Within growth came went) {event : Event}
    (hfits : event.received.length ≤ chunkLimit) :
    (e.step event).1.Within growth (came + event.received.length)
      (went + event.written.length) := by
  cases event with
  | read id length => exact h.drained (Inbound.drained_read h.inbound.valid id length)
  | write data =>
    exact ⟨h.inbound, Outbound.within_write h.outbound e.settings.maxChunk data, h.steps⟩
  | flush id =>
    refine ⟨h.inbound, ?_, h.steps⟩
    show (e.outbound.flush id).1.queue.Within growth went
    rw [Outbound.queue_flush]
    exact h.outbound
  | incoming n =>
    have hdrained := Inbound.drained_incoming h.inbound.valid n
    refine ⟨(h.inbound.write n.chunk.bytes).drained hdrained, h.outbound, fun hstep => ?_⟩
    have hgrows := h.inbound.grows
    have hshort : n.chunk.bytes.length < e.inbound.queue.growth := by
      rw [hgrows]
      exact Nat.lt_of_le_of_lt hfits hstep
    have hdvd := Ring.dvd_size_write h.inbound.valid hshort (by rw [hgrows]; exact h.steps hstep)
    show growth ∣ (e.inbound.incoming n).1.queue.cells.size
    rw [hdrained.cells, ← hgrows]
    exact hdvd
  | chunkTaken =>
    have hdrained := Outbound.drained_taken h.outbound.valid e.settings.maxChunk
    exact ⟨h.inbound, h.outbound.drained hdrained, h.steps⟩
  | writeFailed f =>
    refine ⟨h.inbound, ?_, h.steps⟩
    show (e.outbound.failed f).1.queue.Within growth went
    rw [Outbound.queue_failed]
    exact h.outbound

end Engine

end SerialBridge
