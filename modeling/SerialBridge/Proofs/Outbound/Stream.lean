import Mathlib.Data.List.Chain
import SerialBridge.Proofs.Outbound.Steps
import SerialBridge.Proofs.Plain

/-!
# The outbound stream

What the pump takes is what was written: the chunks handed off, the chunk on offer and the queue
together spell the written bytes at any time. An active period is a run of non-empty chunks with
single empty ones between them, and it ends with an empty one.
-/

namespace SerialBridge

namespace Engine

/-- The bytes that an event writes. -/
def Event.written : Event → Bytes
  | .write data => data
  | _ => []

/-- The bytes that events write, one write after another. -/
def written (events : List Event) : Bytes := events.flatMap Event.written

section History

variable {Q : Type} [ByteQueue Q]

/-- The chunk that the pump takes in an event, if it takes one. -/
def handedOff (e : Engine Q) : Event → List Chunk
  | .chunkTaken => [e.outbound.chunk]
  | _ => []

/-- The chunks that the pump takes in a run, in order. -/
def handOffs (e : Engine Q) : List Event → List Chunk
  | [] => []
  | event :: rest => e.handedOff event ++ (e.step event).1.handOffs rest

/-- Each event of a run finds the engine transmitting. -/
def StaysActive (e : Engine Q) : List Event → Prop
  | [] => True
  | event :: rest => e.transmitting = true ∧ (e.step event).1.StaysActive rest

/-- An idle engine starts to transmit with the first event and transmits until the last one; that
one may end the period. -/
structure ActivePeriod (e : Engine Q) (first : Event) (rest : List Event) : Prop where
  idle : e.transmitting = false
  starts : (e.step first).1.transmitting = true
  stays : (e.step first).1.StaysActive rest

end History

theorem handOffs_plain {e : Engine Ring} (h : e.Valid) (events : List Event) :
    e.plain.handOffs events = e.handOffs events := by
  induction events generalizing e with
  | nil => rfl
  | cons event rest ih =>
    obtain ⟨hv, hs⟩ := step_plain h event
    have hf : e.plain.handedOff event = e.handedOff event := by cases event <;> rfl
    rw [handOffs, handOffs, hf, hs, ih hv]

theorem staysActive_plain {e : Engine Ring} (h : e.Valid) (events : List Event) :
    e.plain.StaysActive events ↔ e.StaysActive events := by
  induction events generalizing e with
  | nil => rfl
  | cons event rest ih =>
    obtain ⟨hv, hs⟩ := step_plain h event
    rw [StaysActive, StaysActive, hs, ih hv]
    rfl

theorem activePeriod_plain {e : Engine Ring} (h : e.Valid) {first : Event} {rest : List Event}
    (hp : e.ActivePeriod first rest) : e.plain.ActivePeriod first rest := by
  obtain ⟨hv, hs⟩ := step_plain h first
  refine ⟨hp.idle, ?_, ?_⟩
  · rw [hs]
    exact hp.starts
  · rw [hs]
    exact (staysActive_plain hv rest).mpr hp.stays

/-! ## Bytes -/

/-- Usable settings, and an outbound half that is sound under them. -/
structure Sends (e : Engine Bytes) : Prop where
  settings : e.settings.Valid
  outbound : e.outbound.Sound e.settings.maxChunk

theorem sends_new (choices : List Setting) : (new (Settings.build choices) : Engine Bytes).Sends :=
  ⟨Settings.build_valid choices, Outbound.sound_new _⟩

@[simp] theorem settings_step {Q : Type} [ByteQueue Q] (e : Engine Q) (event : Event) :
    (e.step event).1.settings = e.settings := by
  cases event <;> rfl

theorem sends_step {e : Engine Bytes} (h : e.Sends) (event : Event) : (e.step event).1.Sends := by
  obtain ⟨hpos, hmax, -⟩ := h.settings
  refine ⟨by rw [settings_step]; exact h.settings, ?_⟩
  rw [settings_step]
  cases event with
  | read id length => exact h.outbound
  | write data => exact Outbound.sound_write h.outbound data
  | flush id => exact Outbound.sound_flush h.outbound id
  | incoming n => exact h.outbound
  | chunkTaken => exact Outbound.sound_taken h.outbound hpos hmax
  | writeFailed f => exact Outbound.sound_failed h.outbound f

theorem sends_run {e : Engine Bytes} (h : e.Sends) (events : List Event) :
    (e.run events).1.Sends := by
  induction events generalizing e with
  | nil => exact h
  | cons event rest ih => exact ih (sends_step h event)

@[simp] theorem settings_run {Q : Type} [ByteQueue Q] (e : Engine Q) (events : List Event) :
    (e.run events).1.settings = e.settings := by
  induction events generalizing e with
  | nil => rfl
  | cons event rest ih => rw [run_cons, ih, settings_step]

/-- One event takes its hand-off from the front and adds its write to the end. -/
theorem remaining_step {e : Engine Bytes} (h : e.Sends) (event : Event) :
    (e.handedOff event).flatMap Chunk.bytes ++ (e.step event).1.outbound.remaining =
      e.outbound.remaining ++ event.written := by
  obtain ⟨hpos, hmax, -⟩ := h.settings
  cases event with
  | read id length => exact (List.append_nil _).symm
  | write data => exact Outbound.remaining_write h.outbound hmax data
  | flush id =>
    exact (Outbound.sameOffer_flush _ id).remaining.trans (List.append_nil _).symm
  | incoming n => exact (List.append_nil _).symm
  | chunkTaken =>
    rw [handedOff, List.flatMap_singleton]
    exact (Outbound.remaining_taken h.outbound hpos).trans (List.append_nil _).symm
  | writeFailed f =>
    exact (Outbound.sameOffer_failed _ f).remaining.trans (List.append_nil _).symm

/-- Nothing is lost, repeated or put out of order on the way to the pump. -/
theorem remaining_run {e : Engine Bytes} (h : e.Sends) (events : List Event) :
    (e.handOffs events).flatMap Chunk.bytes ++ (e.run events).1.outbound.remaining =
      e.outbound.remaining ++ written events := by
  induction events generalizing e with
  | nil => exact (List.append_nil _).symm
  | cons event rest ih =>
    rw [handOffs, run_cons, List.flatMap_append, List.append_assoc, ih (sends_step h event),
      ← List.append_assoc, remaining_step h event, List.append_assoc]
    rfl

/-- Every chunk handed off was sound when it was on offer. -/
theorem handOffs_fit {e : Engine Bytes} (h : e.Sends) (events : List Event) :
    ∀ c ∈ e.handOffs events, c.WellFormed ∧ c.len ≤ e.settings.maxChunk := by
  induction events generalizing e with
  | nil =>
    intro c hc
    cases hc
  | cons event rest ih =>
    intro c hc
    rcases List.mem_append.mp hc with hnow | hlater
    · cases event with
      | chunkTaken =>
        rw [handedOff, List.mem_singleton] at hnow
        rw [hnow]
        exact ⟨h.outbound.wellFormed, h.outbound.fits⟩
      | _ => exact absurd hnow (List.not_mem_nil)
    · have hl := ih (sends_step h event) c hlater
      rwa [settings_step] at hl

/-- What fits has between 1 and the largest number of bytes, unless it is empty. -/
theorem length_bytes_of_fit {c : Chunk} {limit : Nat} (h : c.WellFormed ∧ c.len ≤ limit)
    (hne : c.isEmpty = false) : 1 ≤ c.bytes.length ∧ c.bytes.length ≤ limit := by
  have hz : c.len ≠ 0 := by
    intro hz
    simp [Chunk.isEmpty, hz] at hne
  rw [Chunk.length_bytes h.1]
  omega

/-! ## Active periods -/

theorem transmitting_iff {Q : Type} (e : Engine Q) :
    e.transmitting = true ↔ e.outbound.mode = .active := by
  rw [transmitting]
  cases e.outbound.mode <;> decide

theorem not_transmitting_iff {Q : Type} (e : Engine Q) :
    e.transmitting = false ↔ e.outbound.mode = .idle := by
  rw [transmitting]
  cases e.outbound.mode <;> decide

/-- Only writes and hand-offs touch what is on offer. -/
theorem sameOffer_step (e : Engine Bytes) (event : Event) :
    e.outbound.SameOffer (e.step event).1.outbound ∨ (∃ data, event = .write data) ∨
      event = .chunkTaken := by
  cases event with
  | read id length => exact .inl ⟨rfl, rfl, rfl⟩
  | write data => exact .inr (.inl ⟨data, rfl⟩)
  | flush id => exact .inl (Outbound.sameOffer_flush _ id)
  | incoming n => exact .inl ⟨rfl, rfl, rfl⟩
  | chunkTaken => exact .inr (.inr rfl)
  | writeFailed f => exact .inl (Outbound.sameOffer_failed _ f)

/-- An active period starts with bytes on offer. -/
theorem offer_of_start {e : Engine Bytes} (h : e.Sends) (hidle : e.transmitting = false)
    {event : Event} (hs : (e.step event).1.transmitting = true) :
    (e.step event).1.outbound.chunk.isEmpty = false := by
  rw [not_transmitting_iff] at hidle
  rw [transmitting_iff] at hs
  obtain hsame | ⟨data, rfl⟩ | rfl := sameOffer_step e event
  · cases hidle.symm.trans (hsame.mode.symm.trans hs)
  · exact Outbound.isEmpty_write h.settings.1 hidle hs
  · have ht := Outbound.taken_idle h.settings.1 h.outbound hidle
    rw [step, withOutbound, ht, Outbound.settle_mode] at hs
    cases hs

/-- An active period ends when an empty chunk is taken with nothing queued. -/
theorem event_of_end {e : Engine Bytes} (h : e.Sends) (hactive : e.transmitting = true)
    {event : Event} (hs : (e.step event).1.transmitting = false) :
    event = .chunkTaken ∧ e.outbound.chunk.isEmpty = true ∧ e.outbound.queue = [] := by
  rw [transmitting_iff] at hactive
  rw [not_transmitting_iff] at hs
  obtain hsame | ⟨data, rfl⟩ | rfl := sameOffer_step e event
  · cases hactive.symm.trans (hsame.mode.symm.trans hs)
  · cases (Outbound.write_active hactive data).2.symm.trans hs
  · exact ⟨rfl, Outbound.taken_ends h.settings.1 hactive hs⟩

/-- An engine that hands off bytes goes on transmitting. -/
theorem transmitting_of_bytes {e : Engine Bytes} (h : e.Sends) (hactive : e.transmitting = true)
    (hd : e.outbound.chunk.bytes ≠ []) : (e.step .chunkTaken).1.transmitting = true := by
  cases ht : (e.step .chunkTaken).1.transmitting with
  | true => rfl
  | false =>
    have he := (event_of_end h hactive ht).2.1
    exact absurd ((Chunk.isEmpty_iff_bytes h.outbound.wellFormed).mp he) hd

/-- The chunk on offer stays until it is taken. -/
theorem offer_kept {e : Engine Bytes} (hactive : e.transmitting = true) {event : Event}
    (hne : event ≠ .chunkTaken) : (e.step event).1.outbound.chunk = e.outbound.chunk := by
  rw [transmitting_iff] at hactive
  obtain hsame | ⟨data, rfl⟩ | rfl := sameOffer_step e event
  · exact hsame.chunk
  · exact (Outbound.write_active hactive data).1
  · exact absurd rfl hne

/-- The next chunk that an active engine hands off is the one on offer. -/
theorem head_handOffs {e : Engine Bytes} {events : List Event} (h : e.StaysActive events) :
    ∀ c ∈ (e.handOffs events).head?, c = e.outbound.chunk := by
  induction events generalizing e with
  | nil =>
    intro c hc
    cases hc
  | cons event rest ih =>
    intro c hc
    by_cases ht : event = .chunkTaken
    · subst ht
      exact (Option.some.inj hc).symm
    · have hf : e.handedOff event = [] := by cases event <;> simp_all [handedOff]
      rw [handOffs, hf, List.nil_append] at hc
      rw [ih h.2 c hc, offer_kept h.1 ht]

/-- No two chunks handed off one after the other are both empty. -/
theorem isChain_handOffs {e : Engine Bytes} (h : e.Sends) {events : List Event}
    (hs : e.StaysActive events) :
    (e.handOffs events).IsChain fun a b => a.isEmpty = true → b.isEmpty = false := by
  induction events generalizing e with
  | nil => exact .nil
  | cons event rest ih =>
    have hrest := ih (sends_step h event) hs.2
    by_cases ht : event = .chunkTaken
    · subst ht
      refine List.isChain_cons.mpr ⟨?_, hrest⟩
      intro next hnext he
      have hactive : (e.step .chunkTaken).1.transmitting = true := by
        cases rest with
        | nil => cases hnext
        | cons event' rest => exact hs.2.1
      rw [head_handOffs hs.2 next hnext]
      exact Outbound.taken_after_empty h.settings.1 he ((transmitting_iff _).mp hactive)
    · have hf : e.handedOff event = [] := by cases event <;> simp_all [handedOff]
      rw [handOffs, hf, List.nil_append]
      exact hrest

/-- A period that is over ended with the hand-off of an empty chunk, with nothing queued. -/
theorem exists_end {e : Engine Bytes} (h : e.Sends) (hactive : e.transmitting = true)
    {events : List Event} (hs : e.StaysActive events)
    (hend : (e.run events).1.transmitting = false) :
    ∃ front, events = front ++ [.chunkTaken] ∧ (e.run front).1.outbound.chunk.isEmpty = true ∧
      (e.run front).1.outbound.queue = [] := by
  induction events generalizing e with
  | nil => cases hactive.symm.trans hend
  | cons event rest ih =>
    cases ht : (e.step event).1.transmitting with
    | true =>
      obtain ⟨front, rfl, he, hq⟩ := ih (sends_step h event) ht hs.2 hend
      exact ⟨event :: front, rfl, he, hq⟩
    | false =>
      obtain ⟨rfl, he, hq⟩ := event_of_end h hactive ht
      cases rest with
      | nil => exact ⟨[], rfl, he, hq⟩
      | cons event' rest => cases ht.symm.trans hs.2.1

/-- The hand-offs of an engine that was idle until now: the first chunk is the one on offer and not
empty, no two empty ones follow each other, and the period ends only when an empty chunk is taken
with nothing queued. -/
structure Burst (active : Engine Ring) (rest : List Event) : Prop where
  offer : active.outbound.chunk.isEmpty = false
  head : ∀ c ∈ (active.handOffs rest).head?, c = active.outbound.chunk
  single : (active.handOffs rest).IsChain fun a b => a.isEmpty = true → b.isEmpty = false
  ends : (active.run rest).1.transmitting = false →
    ∃ front, rest = front ++ [.chunkTaken] ∧
      (active.run front).1.outbound.chunk.isEmpty = true ∧
      (active.run front).1.outbound.queue.toList = []

theorem burst_of_activePeriod {e : Engine Ring} (hv : e.Valid) (hs : e.plain.Sends) {first : Event}
    {rest : List Event} (hperiod : e.ActivePeriod first rest) : (e.step first).1.Burst rest := by
  have hp := activePeriod_plain hv hperiod
  obtain ⟨hva, hstep⟩ := step_plain hv first
  have ha : (e.plain.step first).1 = (e.step first).1.plain := congrArg Prod.fst hstep
  have hsa := sends_step hs first
  have hoffer := offer_of_start hs hp.idle hp.starts
  have hstays := hp.stays
  rw [ha] at hsa hoffer hstays
  have hh := handOffs_plain hva rest
  refine ⟨hoffer, ?_, ?_, ?_⟩
  · rw [← hh]
    exact head_handOffs hstays
  · rw [← hh]
    exact isChain_handOffs hsa hstays
  · intro hend
    have hlast := (run_plain hva rest).2
    obtain ⟨front, hf, hempty, hq⟩ :=
      exists_end hsa hperiod.starts hstays (by rw [hlast]; exact hend)
    rw [(run_plain hva front).2] at hempty hq
    exact ⟨front, hf, hempty, hq⟩

/-- The outbound stream over every run of an engine with settings that can be built. The chunks
taken, the chunk on offer and the queue spell what was written; chunks that are not empty have 1 to
`maxChunk` bytes; an idle engine has sent everything and answered every flush; and every active
period is a burst. -/
theorem outbound_stream (choices : List Setting) (events : List Event) :
    let start : Engine Ring := new (Settings.build choices)
    let e := (start.run events).1
    (start.handOffs events).flatMap Chunk.bytes ++ e.outbound.chunk.bytes ++
        e.outbound.queue.toList = written events ∧
    (∀ c, c ∈ start.handOffs events ∨ c = e.outbound.chunk → c.isEmpty = false →
      1 ≤ c.bytes.length ∧ c.bytes.length ≤ (Settings.build choices).maxChunk) ∧
    (e.transmitting = false → e.outbound.chunk.bytes = [] ∧ e.outbound.queue.toList = [] ∧
      e.outbound.waiting = []) ∧
    ∀ first rest, e.ActivePeriod first rest → (e.step first).1.Burst rest := by
  intro start e
  have hstart : (new (Settings.build choices) : Engine Bytes).Sends := sends_new choices
  obtain ⟨hve, hrun⟩ := run_new_plain (Settings.build choices) events
  have hs := sends_run hstart events
  have hr := remaining_run hstart events
  have hset := settings_run (new (Settings.build choices) : Engine Bytes) events
  rw [hrun] at hs hr hset
  have hh : _ = start.handOffs events := handOffs_plain (valid_new _) events
  refine ⟨?_, ?_, ?_, fun _ _ => burst_of_activePeriod hve hs⟩
  · rw [← hh, List.append_assoc]
    exact hr
  · intro c hc
    apply length_bytes_of_fit
    rcases hc with hc | rfl
    · rw [← hh] at hc
      exact handOffs_fit hstart events c hc
    · have hf := hs.outbound.fits
      rw [hset] at hf
      exact ⟨hs.outbound.wellFormed, hf⟩
  · intro hidle
    obtain ⟨hc, hq, hw⟩ := hs.outbound.idle ((not_transmitting_iff e).mp hidle)
    exact ⟨(Chunk.isEmpty_iff_bytes hs.outbound.wellFormed).mp hc, hq, hw⟩

end Engine

end SerialBridge
