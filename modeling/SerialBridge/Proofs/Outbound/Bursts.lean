import SerialBridge.Proofs.Outbound.Stream

/-!
# How a burst is cut

The first chunk of a burst is cut from its first write alone. All that is written behind it is cut
into pieces as one stream, and an empty chunk closes the burst. What is still to be handed off can
be read off the state at any time: a hand-off takes the first chunk of it, and a burst is over when
nothing of it is left.
-/

namespace SerialBridge

open Bytes (pieces)

namespace Outbound

variable {maxChunk : Nat} {s t : Outbound Bytes}

/-- The chunks to be taken until the half is idle, if nothing more is written: the one on offer, the
queue in pieces, and an empty one. The chunk on offer is that last one already if it is empty and
nothing is queued. -/
def upcoming (maxChunk : Nat) (s : Outbound Bytes) : List Bytes :=
  match s.mode with
  | .idle => []
  | .active =>
    if s.chunk.isEmpty ∧ s.queue = [] then [[]]
    else s.chunk.bytes :: (pieces maxChunk s.queue ++ [[]])

theorem upcoming_idle (hm : s.mode = .idle) : s.upcoming maxChunk = [] := by
  rw [upcoming, hm]

theorem upcoming_last (hm : s.mode = .active) (he : s.chunk.isEmpty = true) (hq : s.queue = []) :
    s.upcoming maxChunk = [[]] := by
  simp only [upcoming, hm, if_pos (And.intro he hq)]

theorem upcoming_more (hm : s.mode = .active) (h : s.chunk.isEmpty = false ∨ s.queue ≠ []) :
    s.upcoming maxChunk = s.chunk.bytes :: (pieces maxChunk s.queue ++ [[]]) := by
  have hne : ¬ (s.chunk.isEmpty = true ∧ s.queue = []) := by
    rintro ⟨he, hq⟩
    obtain hfull | hqueued := h
    · cases he.symm.trans hfull
    · exact hqueued hq
  simp only [upcoming, hm, if_neg hne]

theorem upcoming_eq_nil : s.upcoming maxChunk = [] ↔ s.mode = .idle := by
  cases hm : s.mode with
  | idle => simp [upcoming_idle hm]
  | active =>
    simp only [upcoming, hm]
    split <;> simp

theorem SameOffer.upcoming (h : SameOffer s t) : t.upcoming maxChunk = s.upcoming maxChunk := by
  rw [Outbound.upcoming, Outbound.upcoming, h.mode, h.chunk, h.queue]

/-- A hand-off in an active half takes the first of the chunks to be taken. Where no more bytes are
queued it leaves the empty chunk that ends the burst, and behind that one nothing. -/
theorem upcoming_taken (h : s.Sound maxChunk) (hpos : 0 < maxChunk) (hm : s.mode = .active) :
    s.upcoming maxChunk = s.chunk.bytes :: (s.taken maxChunk).1.upcoming maxChunk := by
  obtain ⟨hq, ht⟩ | ⟨hq, he, ht⟩ | ⟨hq, he, ht⟩ := taken_cases hpos s
  · have hfull : (s.chunk.refill (s.queue.take maxChunk)).isEmpty = false := by
      refine Chunk.isEmpty_refill _ ?_
      rw [ne_eq, List.take_eq_nil_iff, not_or]
      exact ⟨Nat.ne_of_gt hpos, hq⟩
    have hnext : (s.taken maxChunk).1.upcoming maxChunk =
        (s.chunk.refill (s.queue.take maxChunk)).bytes ::
          (pieces maxChunk (s.queue.drop maxChunk) ++ [[]]) := by
      rw [ht]
      exact upcoming_more hm (.inl hfull)
    rw [hnext, Chunk.bytes_refill, upcoming_more hm (.inr hq),
      Bytes.pieces_of_ne_nil (Nat.ne_of_gt hpos) hq, List.cons_append]
  · have hnext : (s.taken maxChunk).1.upcoming maxChunk = [[]] := by
      rw [ht]
      exact upcoming_last hm rfl hq
    rw [hnext, upcoming_more hm (.inl he), hq, Bytes.pieces_nil, List.nil_append]
  · have hnext : (s.taken maxChunk).1.upcoming maxChunk = [] := by
      rw [ht]
      exact upcoming_idle (settle_mode s)
    rw [hnext, upcoming_last hm he hq, (Chunk.isEmpty_iff_bytes h.wellFormed).mp he]

/-- A write to an idle half starts a burst with a chunk of its own bytes. -/
theorem write_starts (h : s.Sound maxChunk) (hpos : 0 < maxChunk) (hmax : maxChunk ≤ chunkLimit)
    (hm : s.mode = .idle) {data : Bytes} (hd : data ≠ []) :
    (s.write maxChunk data).1.mode = .active ∧
      (s.write maxChunk data).1.chunk.isEmpty = false ∧
      (s.write maxChunk data).1.chunk.bytes = data.take maxChunk ∧
      (s.write maxChunk data).1.queue = data.drop maxChunk := by
  have hstart : (s.write maxChunk data).1.mode = .active ∧
      (s.write maxChunk data).1.queue = data.drop maxChunk := by
    obtain ⟨hnil, -⟩ | ⟨-, hactive, -⟩ | ⟨-, -, hs⟩ := write_cases maxChunk s data
    · exact absurd hnil hd
    · cases hm.symm.trans hactive
    · rw [hs, (h.idle hm).2.1]
      exact ⟨rfl, List.nil_append _⟩
  exact ⟨hstart.1, isEmpty_write hpos hm hstart.1, offer_write h hmax hm data, hstart.2⟩

theorem length_upcoming (hpos : 0 < maxChunk) (hm : s.mode = .active) :
    (s.upcoming maxChunk).length =
      if s.chunk.isEmpty ∧ s.queue.length = 0 then 1
      else (s.queue.length + maxChunk - 1) / maxChunk + 2 := by
  simp only [upcoming, hm, List.length_eq_zero_iff]
  split
  · rfl
  · rw [List.length_cons, List.length_append, Bytes.length_pieces (Nat.ne_of_gt hpos)]
    rfl

theorem length_upcoming_le (hpos : 0 < maxChunk) :
    (s.upcoming maxChunk).length ≤ s.queue.length + 2 := by
  cases hm : s.mode with
  | idle => rw [upcoming_idle hm]; exact Nat.zero_le _
  | active =>
    have hceil : (s.queue.length + maxChunk - 1) / maxChunk ≤ s.queue.length := by
      rw [Nat.div_le_iff_le_mul_add_pred hpos]
      have hmul := Nat.le_mul_of_pos_left s.queue.length hpos
      omega
    rw [length_upcoming hpos hm]
    split <;> omega

end Outbound

namespace Engine

/-- The writes among some events that have bytes to write, in order. -/
def writesOf (events : List Event) : List Bytes :=
  (events.map Event.written).filter (· ≠ [])

theorem writesOf_cons_of_nil {event : Event} (h : event.written = []) (rest : List Event) :
    writesOf (event :: rest) = writesOf rest := by
  rw [writesOf, List.map_cons, h]
  rfl

theorem writesOf_cons {event : Event} (h : event.written ≠ []) (rest : List Event) :
    writesOf (event :: rest) = event.written :: writesOf rest := by
  rw [writesOf, List.map_cons, List.filter_cons_of_pos (by simpa using h)]
  rfl

theorem flatten_writesOf (events : List Event) : (writesOf events).flatten = written events := by
  rw [writesOf, List.flatten_filter_ne_nil, written, List.flatMap_def]

/-- While a run writes nothing, each hand-off takes the next chunk of a list, and the engine is
idle once all of them are taken. -/
structure HandsOver {Q : Type} [ByteQueue Q] (e : Engine Q) (chunks : List Bytes)
    (events : List Event) : Prop where
  active : (e.run events).1.transmitting = true ↔ events.count .chunkTaken < chunks.length
  taken : events.count .chunkTaken ≤ chunks.length →
    (e.handOffs events).map Chunk.bytes = chunks.take (events.count .chunkTaken)

/-- The chunks to be taken until the engine is idle, if nothing more is written. -/
def upcoming (e : Engine Bytes) : List Bytes := e.outbound.upcoming e.settings.maxChunk

variable {e : Engine Bytes}

theorem upcoming_eq_nil : e.upcoming = [] ↔ e.transmitting = false :=
  Outbound.upcoming_eq_nil.trans (not_transmitting_iff e).symm

/-! ## Loading -/

/-- An event that neither writes bytes nor takes a chunk leaves alone what is on offer. -/
theorem sameOffer_of_written (e : Engine Bytes) {event : Event} (hw : event.written = [])
    (ht : event ≠ .chunkTaken) : e.outbound.SameOffer (e.step event).1.outbound := by
  obtain hsame | ⟨data, rfl⟩ | rfl := sameOffer_step e event
  · exact hsame
  · obtain rfl : data = [] := hw
    exact ⟨rfl, rfl, rfl⟩
  · exact absurd rfl ht

theorem outbound_of_written (e : Engine Bytes) {event : Event} (h : event.written ≠ []) :
    (e.step event).1.outbound = (e.outbound.write e.settings.maxChunk event.written).1 := by
  cases event with
  | write data => rfl
  | _ => exact absurd rfl h

theorem load_step {event : Event} (hm : e.outbound.mode = .active) (ht : event ≠ .chunkTaken) :
    (e.step event).1.outbound.mode = .active ∧
      (e.step event).1.outbound.chunk = e.outbound.chunk ∧
      (e.step event).1.outbound.queue = e.outbound.queue ++ event.written := by
  by_cases hw : event.written = []
  · have hsame := sameOffer_of_written e hw ht
    rw [hw, List.append_nil]
    exact ⟨hsame.mode.trans hm, hsame.chunk, hsame.queue⟩
  · rw [outbound_of_written e hw]
    obtain ⟨hd, -⟩ | ⟨-, -, hs⟩ | ⟨-, hidle, -⟩ :=
      Outbound.write_cases e.settings.maxChunk e.outbound event.written
    · exact absurd hd hw
    · rw [hs]
      exact ⟨hm, rfl, rfl⟩
    · cases hm.symm.trans hidle

/-- Until the next hand-off all writes to an active engine are queued. -/
theorem load_active {events : List Event} (hm : e.outbound.mode = .active)
    (hno : ∀ event ∈ events, event ≠ .chunkTaken) :
    (e.run events).1.outbound.mode = .active ∧
      (e.run events).1.outbound.chunk = e.outbound.chunk ∧
      (e.run events).1.outbound.queue = e.outbound.queue ++ written events := by
  induction events generalizing e with
  | nil => exact ⟨hm, rfl, (List.append_nil _).symm⟩
  | cons event rest ih =>
    obtain ⟨hevent, hrest⟩ := List.forall_mem_cons.mp hno
    obtain ⟨hmode, hchunk, hqueue⟩ := load_step hm hevent
    obtain ⟨hmode', hchunk', hqueue'⟩ := ih hmode hrest
    refine ⟨hmode', hchunk'.trans hchunk, ?_⟩
    rw [run_cons, hqueue', hqueue, List.append_assoc]
    rfl

/-- The first write to an idle engine is cut; its rest and the writes behind it are queued. -/
theorem load_idle {events : List Event} (h : e.Sends) (hm : e.outbound.mode = .idle)
    (hno : ∀ event ∈ events, event ≠ .chunkTaken) {first : Bytes} {rest : List Bytes}
    (hwrites : writesOf events = first :: rest) :
    (e.run events).1.upcoming = first.take e.settings.maxChunk ::
      (pieces e.settings.maxChunk (first.drop e.settings.maxChunk ++ rest.flatten) ++ [[]]) := by
  induction events generalizing e with
  | nil => cases hwrites
  | cons event later ih =>
    obtain ⟨hevent, hlater⟩ := List.forall_mem_cons.mp hno
    by_cases hw : event.written = []
    · have hsame := sameOffer_of_written e hw hevent
      rw [writesOf_cons_of_nil hw] at hwrites
      have hload := ih (sends_step h event) (hsame.mode.trans hm) hlater hwrites
      rwa [settings_step] at hload
    · rw [writesOf_cons hw] at hwrites
      obtain ⟨rfl, rfl⟩ := List.cons.inj hwrites
      obtain ⟨hpos, hmax, -⟩ := h.settings
      obtain ⟨hactive, hfull, hbytes, hqueue⟩ := Outbound.write_starts h.outbound hpos hmax hm hw
      rw [← outbound_of_written e hw] at hactive hfull hbytes hqueue
      obtain ⟨hactive', hchunk', hqueue'⟩ := load_active hactive hlater
      rw [← hchunk'] at hfull hbytes
      rw [run_cons, upcoming, Outbound.upcoming_more hactive' (.inl hfull), hbytes, hqueue', hqueue,
        settings_run, settings_step, ← flatten_writesOf]

/-! ## Taking -/

theorem upcoming_step (h : e.Sends) {event : Event} (hw : event.written = []) :
    event = .chunkTaken ∧ (e.step event).1.upcoming = e.upcoming.tail ∧
        (∀ bytes ∈ e.upcoming.head?, bytes = e.outbound.chunk.bytes) ∨
      event ≠ .chunkTaken ∧ (e.step event).1.upcoming = e.upcoming := by
  by_cases ht : event = .chunkTaken
  · subst ht
    refine .inl ⟨rfl, ?_⟩
    have hstep : (e.step .chunkTaken).1.upcoming =
        (e.outbound.taken e.settings.maxChunk).1.upcoming e.settings.maxChunk := rfl
    cases hm : e.outbound.mode with
    | idle =>
      have hnil : e.upcoming = [] := Outbound.upcoming_idle hm
      rw [hstep, Outbound.taken_idle h.settings.1 h.outbound hm, hnil]
      exact ⟨Outbound.upcoming_idle (Outbound.settle_mode _), fun _ hb => by cases hb⟩
    | active =>
      have hcons := Outbound.upcoming_taken h.outbound h.settings.1 hm
      rw [hstep, upcoming, hcons]
      exact ⟨rfl, fun _ hb => (Option.some.inj hb).symm⟩
  · refine .inr ⟨ht, ?_⟩
    rw [upcoming, settings_step]
    exact (sameOffer_of_written e hw ht).upcoming

/-- A run without a write goes down the list of chunks to be taken. -/
theorem upcoming_run (h : e.Sends) {events : List Event}
    (hw : ∀ event ∈ events, event.written = []) :
    (e.run events).1.upcoming = e.upcoming.drop (events.count .chunkTaken) ∧
      (events.count .chunkTaken ≤ e.upcoming.length →
        (e.handOffs events).map Chunk.bytes = e.upcoming.take (events.count .chunkTaken)) := by
  induction events generalizing e with
  | nil => exact ⟨rfl, fun _ => rfl⟩
  | cons event rest ih =>
    obtain ⟨hevent, hrest⟩ := List.forall_mem_cons.mp hw
    obtain ⟨hstate, hchunks⟩ := ih (sends_step h event) hrest
    obtain ⟨rfl, hnext, hhead⟩ | ⟨ht, hnext⟩ := upcoming_step h hevent
    · rw [hnext] at hstate hchunks
      rw [List.count_cons_self]
      refine ⟨?_, fun hle => ?_⟩
      · rw [run_cons, hstate, List.drop_tail]
      · cases hlist : e.upcoming with
        | nil =>
          rw [hlist] at hle
          cases hle
        | cons bytes others =>
          rw [hlist] at hle hhead hchunks
          have hlater := hchunks (Nat.le_of_succ_le_succ hle)
          rw [handOffs, handedOff, List.map_append, hlater, List.take_succ_cons,
            hhead bytes rfl]
          rfl
    · have hf : e.handedOff event = [] := by cases event <;> simp_all [handedOff]
      rw [hnext] at hstate hchunks
      rw [List.count_cons_of_ne ht, handOffs, hf]
      exact ⟨hstate, hchunks⟩

theorem handsOver_upcoming (h : e.Sends) {events : List Event}
    (hw : ∀ event ∈ events, event.written = []) : e.HandsOver e.upcoming events := by
  obtain ⟨hstate, hchunks⟩ := upcoming_run h hw
  refine ⟨?_, hchunks⟩
  have hnil : (e.run events).1.upcoming = [] ↔ e.upcoming.length ≤ events.count .chunkTaken := by
    rw [hstate, List.drop_eq_nil_iff]
  rw [← Bool.not_eq_false, ← upcoming_eq_nil, hnil, Nat.not_le]

/-! ## Whole bursts -/

/-- Draining an engine is handing off until it is idle. -/
theorem drainWithin_eq {Q : Type} [ByteQueue Q] (e : Engine Q) {n fuel : Nat} (hle : n ≤ fuel)
    (h : ∀ k, (e.run (List.replicate k .chunkTaken)).1.transmitting = true ↔ k < n) :
    e.drainWithin fuel =
      (e.handOffs (List.replicate n .chunkTaken), e.run (List.replicate n .chunkTaken)) := by
  induction fuel generalizing e n with
  | zero =>
    obtain rfl : n = 0 := Nat.le_zero.mp hle
    rfl
  | succ fuel ih =>
    have hnow : e.transmitting = true ↔ 0 < n := h 0
    rw [drainWithin]
    cases n with
    | zero => rw [if_neg (mt hnow.mp (Nat.lt_irrefl 0))]; rfl
    | succ n =>
      have hnext := ih (e.step .chunkTaken).1 (Nat.le_of_succ_le_succ hle) fun k =>
        (h (k + 1)).trans Nat.succ_lt_succ_iff
      rw [if_pos (hnow.mpr (Nat.succ_pos n))]
      simp only [hnext]
      rfl

section Rings

variable {e : Engine Ring}

theorem handsOver_plain (hv : e.Valid) (hs : e.plain.Sends) {events : List Event}
    (hw : ∀ event ∈ events, event.written = []) : e.HandsOver e.plain.upcoming events := by
  obtain ⟨hactive, htaken⟩ := handsOver_upcoming hs hw
  rw [(run_plain hv events).2] at hactive
  rw [handOffs_plain hv events] at htaken
  exact ⟨hactive, htaken⟩

theorem drain_plain (hv : e.Valid) (hs : e.plain.Sends) :
    e.drain.1.map Chunk.bytes = e.plain.upcoming ∧ e.drain.2.1.transmitting = false := by
  have hover : ∀ k, e.HandsOver e.plain.upcoming (List.replicate k .chunkTaken) := fun k =>
    handsOver_plain hv hs fun event hin => by
      rw [List.eq_of_mem_replicate hin]
      rfl
  have htakes : ∀ k, (e.run (List.replicate k .chunkTaken)).1.transmitting = true ↔
      k < e.plain.upcoming.length := fun k => by
    have hactive := (hover k).active
    rwa [List.count_replicate_self] at hactive
  have hfuel : e.plain.upcoming.length ≤ ByteQueue.queued e.outbound.queue + 2 := by
    have hle : e.plain.upcoming.length ≤ e.outbound.queue.toList.length + 2 :=
      Outbound.length_upcoming_le hs.settings.1
    rwa [Ring.length_toList hv.outbound] at hle
  rw [drain, drainWithin_eq e hfuel htakes]
  constructor
  · have htaken := (hover e.plain.upcoming.length).taken
    rw [List.count_replicate_self, List.take_length] at htaken
    exact htaken (Nat.le_refl _)
  · exact Bool.eq_false_iff.mpr (mt (htakes _).mp (Nat.lt_irrefl _))

end Rings

@[simp] theorem settings_after {Q : Type} [ByteQueue Q] (e : Engine Q) (moves : List Move) :
    (e.after moves).settings = e.settings := by
  induction moves generalizing e with
  | nil => rfl
  | cons move rest ih =>
    rw [after_cons, ih]
    cases move with
    | event event => exact settings_step e event
    | shutdown => rfl

theorem sends_after (h : e.Sends) (moves : List Move) : (e.after moves).Sends := by
  induction moves generalizing e with
  | nil => exact h
  | cons move rest ih =>
    rw [after_cons]
    refine ih ?_
    cases move with
    | event event => exact sends_step h event
    | shutdown =>
      have hsound := h.outbound
      exact ⟨h.settings, hsound.wellFormed, hsound.fits, fun hidle =>
        ⟨(hsound.idle hidle).1, (hsound.idle hidle).2.1, rfl⟩⟩

/-- From any idle state an engine can reach, a burst is cut as its writes tell: the first chunk is
the front of the first write, all the rest is cut into pieces as one stream, and an empty chunk ends
it. That is what the pump takes, whatever else happens before the first hand-off and between the
hand-offs, as long as nothing more is written then. And from any active state, without a further
write, the number of hand-offs up to idle is the number of pieces that the queue is cut into and two
more, or just one where an empty chunk is on offer with nothing behind it. -/
theorem burst_cut (choices : List Setting) (moves : List Move) :
    let m := (Settings.build choices).maxChunk
    let e : Engine Ring := (new (Settings.build choices)).after moves
    (e.transmitting = false →
      ∀ loading first rest, (∀ event ∈ loading, event ≠ .chunkTaken) →
        writesOf loading = first :: rest →
        let busy := (e.run loading).1
        let cut := first.take m :: (pieces m (first.drop m ++ rest.flatten) ++ [[]])
        (∀ events, (∀ event ∈ events, event.written = []) → busy.HandsOver cut events) ∧
        busy.drain.1.map Chunk.bytes = cut ∧ busy.drain.2.1.transmitting = false) ∧
    (e.transmitting = true →
      let q := ByteQueue.queued e.outbound.queue
      let takes := if e.outbound.chunk.isEmpty ∧ q = 0 then 1 else (q + m - 1) / m + 2
      ∀ events, (∀ event ∈ events, event.written = []) →
        ((e.run events).1.transmitting = true ↔ events.count .chunkTaken < takes)) := by
  intro m e
  obtain ⟨hv, hplain⟩ := after_new_plain (Settings.build choices) moves
  have hs : e.plain.Sends := hplain ▸ sends_after (sends_new choices) moves
  have hm : e.plain.settings.maxChunk = m :=
    congrArg Settings.maxChunk (settings_after (new (Settings.build choices) : Engine Ring) moves)
  constructor
  · intro hidle loading first rest hno hwrites busy cut
    obtain ⟨hvb, hrun⟩ := run_plain hv loading
    have hbusy : (e.plain.run loading).1 = busy.plain := congrArg Prod.fst hrun
    have hsb : busy.plain.Sends := hbusy ▸ sends_run hs loading
    have hcut : busy.plain.upcoming = cut := by
      rw [← hbusy, load_idle hs ((not_transmitting_iff _).mp hidle) hno hwrites, hm]
    rw [← hcut]
    exact ⟨fun events hw => handsOver_plain hvb hsb hw, drain_plain hvb hsb⟩
  · intro hactive q takes events hw
    have hq : e.plain.outbound.queue.length = q := Ring.length_toList hv.outbound
    have htakes : e.plain.upcoming.length = takes := by
      rw [upcoming, Outbound.length_upcoming hs.settings.1 ((transmitting_iff _).mp hactive), hm,
        hq]
      rfl
    have hover := (handsOver_plain hv hs hw).active
    rwa [htakes] at hover

/-- Chunks of two bytes, on an engine that already sent a burst. Two writes with a flush between
them leave in four chunks, the second of which has bytes of both; a write of five bytes is four
hand-offs away from idle. -/
theorem burst_cut_of_two_writes :
    let e : Engine Ring := (new (Settings.build [.maxChunk 2])).after
      [.event (.write [9]), .event .chunkTaken, .event .chunkTaken]
    let loading : List Event := [.write [1, 2, 3], .flush 7, .write [4, 5, 6]]
    let other : Engine Ring := (new (Settings.build [.maxChunk 2])).after
      [.event (.write [1, 2, 3, 4, 5])]
    (e.transmitting = false ∧ writesOf loading = [[1, 2, 3], [4, 5, 6]] ∧
      (e.run loading).1.drain.1.map Chunk.bytes = [[1, 2], [3, 4], [5, 6], []]) ∧
    (other.transmitting = true ∧ ∀ events, (∀ event ∈ events, event.written = []) →
      ((other.run events).1.transmitting = true ↔ events.count .chunkTaken < 4)) := by
  intro e loading other
  have hidle : e.transmitting = false := by decide +kernel
  have hwrites : writesOf loading = [[1, 2, 3], [4, 5, 6]] := by decide
  have hactive : other.transmitting = true := by decide +kernel
  obtain ⟨hburst, -⟩ := burst_cut [.maxChunk 2]
    [.event (.write [9]), .event .chunkTaken, .event .chunkTaken]
  obtain ⟨-, hrest⟩ := burst_cut [.maxChunk 2] [.event (.write [1, 2, 3, 4, 5])]
  obtain ⟨-, hchunks, -⟩ := hburst hidle loading [1, 2, 3] [[4, 5, 6]] (by decide) hwrites
  refine ⟨⟨hidle, hwrites, hchunks.trans ?_⟩, hactive, fun events hw => ?_⟩
  · simp [Settings.build, Settings.set, chunkLimit, Bytes.pieces]
  · have htakes :
        (if other.outbound.chunk.isEmpty ∧ ByteQueue.queued other.outbound.queue = 0 then 1
          else (ByteQueue.queued other.outbound.queue + 2 - 1) / 2 + 2) = 4 := by
      decide +kernel
    rw [← htakes]
    exact hrest hactive events hw

end Engine

end SerialBridge
