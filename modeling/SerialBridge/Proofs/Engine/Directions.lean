import SerialBridge.Proofs.Inbound.Stream
import SerialBridge.Proofs.Link.Reports
import SerialBridge.Proofs.Outbound.Stream

/-!
# The two directions do not interfere

What comes in and the reads of it, what goes out and the flushes of it: an engine handles the events
of both as they come. It does not matter how the two are put together. Each half takes its own
events one after another, as if there were no others, and only that half answers their requests.
-/

namespace SerialBridge

namespace Effect

/-- A read that is answered, with its answer. -/
def readAnswer? : Effect → Option (Nat × Except CallError Bytes)
  | .replied id (.read result) => some (id, result)
  | _ => none

/-- A flush that is answered, with its answer. -/
def flushAnswer? : Effect → Option (Nat × Except CallError Unit)
  | .replied id (.flush result) => some (id, result)
  | _ => none

/-- The answers to reads among some effects, in order. -/
def readAnswers (effects : List Effect) : List (Nat × Except CallError Bytes) :=
  effects.filterMap readAnswer?

/-- The answers to flushes among some effects, in order. -/
def flushAnswers (effects : List Effect) : List (Nat × Except CallError Unit) :=
  effects.filterMap flushAnswer?

@[simp] theorem readAnswers_append (a b : List Effect) :
    readAnswers (a ++ b) = readAnswers a ++ readAnswers b :=
  List.filterMap_append

@[simp] theorem flushAnswers_append (a b : List Effect) :
    flushAnswers (a ++ b) = flushAnswers a ++ flushAnswers b :=
  List.filterMap_append

theorem readAnswers_eq_nil {effects : List Effect} (h : ∀ x ∈ effects, x.read? = none) :
    readAnswers effects = [] := by
  refine List.filterMap_eq_nil_iff.mpr fun x hx => ?_
  have hread := h x hx
  cases x with
  | replied id reply =>
    cases reply with
    | read result => cases hread
    | flush result => rfl
  | _ => rfl

theorem flushAnswers_eq_nil {effects : List Effect} (h : ∀ x ∈ effects, x.Quiet) :
    flushAnswers effects = [] := by
  refine List.filterMap_eq_nil_iff.mpr fun x hx => ?_
  have hflush := (h x hx).2
  cases x with
  | replied id reply =>
    cases reply with
    | read result => rfl
    | flush result => cases hflush
  | _ => rfl

end Effect

namespace Engine

open Effect (readAnswers flushAnswers)

/-- Reads and notifications are for the inbound half, all other events for the outbound one. -/
def Event.isInbound : Event → Bool
  | .read _ _ | .incoming _ => true
  | _ => false

/-- Inbound events and outbound ones put together in some way, those of each kind in their order. -/
inductive Interleaving : List Event → List Event → List Event → Prop where
  | nil : Interleaving [] [] []
  | inbound {event : Event} {ins outs events : List Event} (h : event.isInbound = true)
      (rest : Interleaving ins outs events) : Interleaving (event :: ins) outs (event :: events)
  | outbound {event : Event} {ins outs events : List Event} (h : event.isInbound = false)
      (rest : Interleaving ins outs events) : Interleaving ins (event :: outs) (event :: events)

theorem Interleaving.isInbound {ins outs events : List Event} (h : Interleaving ins outs events) :
    (∀ event ∈ ins, event.isInbound = true) ∧ ∀ event ∈ outs, event.isInbound = false := by
  induction h with
  | nil => exact ⟨List.forall_mem_nil _, List.forall_mem_nil _⟩
  | inbound h _ ih => exact ⟨List.forall_mem_cons.mpr ⟨h, ih.1⟩, ih.2⟩
  | outbound h _ ih => exact ⟨ih.1, List.forall_mem_cons.mpr ⟨h, ih.2⟩⟩

variable {Q : Type} [ByteQueue Q] {event : Event} {events : List Event}

/-! ## One half at a time -/

/-- An inbound event neither looks at the outbound half nor touches it. -/
theorem step_of_inbound (h : event.isInbound = true) (e : Engine Q) (s : Outbound Q) :
    ({ e with outbound := s } : Engine Q).step event =
      ({ (e.step event).1 with outbound := s }, (e.step event).2) := by
  cases event with
  | read id length => rfl
  | incoming n => rfl
  | _ => cases h

/-- An outbound event neither looks at the inbound half nor touches it. -/
theorem step_of_outbound (h : event.isInbound = false) (e : Engine Q) (s : Inbound Q) :
    ({ e with inbound := s } : Engine Q).step event =
      ({ (e.step event).1 with inbound := s }, (e.step event).2) := by
  cases event with
  | read id length => cases h
  | incoming n => cases h
  | _ => rfl

theorem run_of_inbound (h : ∀ event ∈ events, event.isInbound = true) (e : Engine Q)
    (s : Outbound Q) :
    ({ e with outbound := s } : Engine Q).run events =
      ({ (e.run events).1 with outbound := s }, (e.run events).2) := by
  induction events generalizing e with
  | nil => rfl
  | cons event rest ih =>
    obtain ⟨hevent, hrest⟩ := List.forall_mem_cons.mp h
    rw [run_cons, run_cons, step_of_inbound hevent, ih hrest]

theorem run_of_outbound (h : ∀ event ∈ events, event.isInbound = false) (e : Engine Q)
    (s : Inbound Q) :
    ({ e with inbound := s } : Engine Q).run events =
      ({ (e.run events).1 with inbound := s }, (e.run events).2) := by
  induction events generalizing e with
  | nil => rfl
  | cons event rest ih =>
    obtain ⟨hevent, hrest⟩ := List.forall_mem_cons.mp h
    rw [run_cons, run_cons, step_of_outbound hevent, ih hrest]

theorem handOffs_of_outbound (h : ∀ event ∈ events, event.isInbound = false) (e : Engine Q)
    (s : Inbound Q) : ({ e with inbound := s } : Engine Q).handOffs events = e.handOffs events := by
  induction events generalizing e with
  | nil => rfl
  | cons event rest ih =>
    obtain ⟨hevent, hrest⟩ := List.forall_mem_cons.mp h
    have hnow : ({ e with inbound := s } : Engine Q).handedOff event = e.handedOff event := by
      cases event <;> rfl
    rw [handOffs, handOffs, hnow, step_of_outbound hevent, ih hrest]

/-- An inbound event answers no flush and takes no chunk. -/
theorem silent_of_inbound (h : event.isInbound = true) (e : Engine Q) :
    flushAnswers (e.step event).2 = [] ∧ e.handedOff event = [] ∧
      (e.step event).1 = { e with inbound := (e.step event).1.inbound } := by
  cases event with
  | read id length => exact ⟨Effect.flushAnswers_eq_nil (Inbound.quiet_read _ id length), rfl, rfl⟩
  | incoming n => exact ⟨Effect.flushAnswers_eq_nil (Inbound.quiet_incoming _ n), rfl, rfl⟩
  | _ => cases h

/-- An outbound event answers no read. -/
theorem silent_of_outbound (h : event.isInbound = false) (e : Engine Q) :
    readAnswers (e.step event).2 = [] ∧
      (e.step event).1 = { e with outbound := (e.step event).1.outbound } := by
  cases event with
  | read id length => cases h
  | incoming n => cases h
  | write data => exact ⟨Effect.readAnswers_eq_nil (Outbound.no_read_write _ _ data), rfl⟩
  | flush id => exact ⟨Effect.readAnswers_eq_nil (Outbound.no_read_flush _ id), rfl⟩
  | chunkTaken => exact ⟨Effect.readAnswers_eq_nil (Outbound.no_read_taken _ _), rfl⟩
  | writeFailed f => exact ⟨Effect.readAnswers_eq_nil (Outbound.no_read_failed _ f), rfl⟩

/-! ## Both halves together -/

/-- A run of both kinds of events is the run of the inbound ones in the inbound half and that of the
outbound ones in the outbound half. -/
theorem run_interleaving {ins outs : List Event} (h : Interleaving ins outs events)
    (e : Engine Q) :
    (e.run events).1 =
        { e with inbound := (e.run ins).1.inbound, outbound := (e.run outs).1.outbound } ∧
      readAnswers (e.run events).2 = readAnswers (e.run ins).2 ∧
      flushAnswers (e.run events).2 = flushAnswers (e.run outs).2 ∧
      e.handOffs events = e.handOffs outs := by
  induction h generalizing e with
  | nil => exact ⟨rfl, rfl, rfl, rfl⟩
  | @inbound event ins outs events hin hrest ih =>
    obtain ⟨hflush, htaken, hnext⟩ := silent_of_inbound hin e
    obtain ⟨hstate, hreads, hflushes, hchunks⟩ := ih (e.step event).1
    have houts : (e.step event).1.run outs =
        ({ (e.run outs).1 with inbound := (e.step event).1.inbound }, (e.run outs).2) := by
      rw [hnext]
      exact run_of_outbound hrest.isInbound.2 e _
    have hsame : (e.step event).1.handOffs outs = e.handOffs outs := by
      rw [hnext]
      exact handOffs_of_outbound hrest.isInbound.2 e _
    refine ⟨?_, ?_, ?_, ?_⟩
    · rw [run_cons, run_cons, hstate, houts, hnext]
    · rw [run_cons, run_cons, Effect.readAnswers_append, Effect.readAnswers_append, hreads]
    · rw [run_cons, Effect.flushAnswers_append, hflush, hflushes, houts]
      rfl
    · rw [handOffs, htaken, hchunks, hsame]
      rfl
  | @outbound event ins outs events hout hrest ih =>
    obtain ⟨hread, hnext⟩ := silent_of_outbound hout e
    obtain ⟨hstate, hreads, hflushes, hchunks⟩ := ih (e.step event).1
    have hins : (e.step event).1.run ins =
        ({ (e.run ins).1 with outbound := (e.step event).1.outbound }, (e.run ins).2) := by
      rw [hnext]
      exact run_of_inbound hrest.isInbound.1 e _
    refine ⟨?_, ?_, ?_, ?_⟩
    · rw [run_cons, run_cons, hstate, hins, hnext]
    · rw [run_cons, Effect.readAnswers_append, hread, hreads, hins]
      rfl
    · rw [run_cons, run_cons, Effect.flushAnswers_append, Effect.flushAnswers_append, hflushes]
    · rw [handOffs, handOffs, hchunks]

/-- Any two interleavings of the same inbound and outbound events lead from an engine, whatever its
state, to one and the same state. Each read and each flush gets the same answer, and each hand-off
takes the same chunk. The answers to reads are those of the inbound events alone; the answers to
flushes and the chunks are those of the outbound events alone. -/
theorem directions_independent (e : Engine Ring) {ins outs events others : List Event}
    (h : Interleaving ins outs events) (h' : Interleaving ins outs others) :
    (e.run events).1 = (e.run others).1 ∧
    readAnswers (e.run events).2 = readAnswers (e.run others).2 ∧
    flushAnswers (e.run events).2 = flushAnswers (e.run others).2 ∧
    e.handOffs events = e.handOffs others ∧
    readAnswers (e.run events).2 = readAnswers (e.run ins).2 ∧
    flushAnswers (e.run events).2 = flushAnswers (e.run outs).2 ∧
    e.handOffs events = e.handOffs outs := by
  obtain ⟨hstate, hreads, hflushes, hchunks⟩ := run_interleaving h e
  obtain ⟨hstate', hreads', hflushes', hchunks'⟩ := run_interleaving h' e
  exact ⟨hstate.trans hstate'.symm, hreads.trans hreads'.symm, hflushes.trans hflushes'.symm,
    hchunks.trans hchunks'.symm, hreads, hflushes, hchunks⟩

/-- A notification and two reads, a write of five bytes in chunks of two and a flush behind it: all
of one direction first, or the two in turns. -/
theorem directions_independent_of_two :
    let e : Engine Ring := new (Settings.build [.maxChunk 2])
    let ins : List Event := [.read 1 2, .incoming ⟨.ofBytes [7, 8, 9], none⟩, .read 2 5]
    let outs : List Event := [.write [1, 2, 3, 4, 5], .flush 3, .chunkTaken, .chunkTaken,
      .chunkTaken, .chunkTaken]
    let turns : List Event := [.write [1, 2, 3, 4, 5], .read 1 2, .flush 3, .chunkTaken,
      .incoming ⟨.ofBytes [7, 8, 9], none⟩, .chunkTaken, .chunkTaken, .read 2 5, .chunkTaken]
    Interleaving ins outs (ins ++ outs) ∧ Interleaving ins outs turns ∧
      (e.run (ins ++ outs)).1 = (e.run turns).1 ∧
      readAnswers (e.run turns).2 = [(1, .ok [7, 8]), (2, .ok [9])] ∧
      flushAnswers (e.run turns).2 = [(3, .ok ())] ∧
      (e.handOffs turns).map Chunk.bytes = [[1, 2], [3, 4], [5], []] := by
  intro e ins outs turns
  have hfirst : Interleaving ins outs (ins ++ outs) :=
    .inbound rfl (.inbound rfl (.inbound rfl (.outbound rfl (.outbound rfl (.outbound rfl
      (.outbound rfl (.outbound rfl (.outbound rfl .nil))))))))
  have hturns : Interleaving ins outs turns :=
    .outbound rfl (.inbound rfl (.outbound rfl (.outbound rfl (.inbound rfl (.outbound rfl
      (.outbound rfl (.inbound rfl (.outbound rfl .nil))))))))
  obtain ⟨hstate, -, -, -, hreads, hflushes, hchunks⟩ :=
    directions_independent e hturns hfirst
  refine ⟨hfirst, hturns, hstate.symm, ?_, ?_, ?_⟩
  · rw [hreads]
    decide +kernel
  · rw [hflushes]
    decide +kernel
  · rw [hchunks]
    decide +kernel

end Engine

end SerialBridge
