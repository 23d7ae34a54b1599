import SerialBridge.Proofs.Checked.Halves
import SerialBridge.Proofs.Outbound.Stream

/-!
# The engine in checked arithmetic

An engine whose settings were built never overflows a counter, never takes a stretch out of the
bounds of its buffers and never subtracts a number from a smaller one, as long as fewer than 2 to
the power of 62 bytes came in and went out.
-/

namespace SerialBridge

theorem Settings.queueGrowth_build_lt {choices : List Setting}
    (h : ∀ n, .queueGrowth n ∈ choices → n < Word.quarter) :
    (build choices).queueGrowth < Word.quarter := by
  suffices ∀ s : Settings, s.queueGrowth < Word.quarter →
      (choices.foldl set s).queueGrowth < Word.quarter from this {} (by decide)
  induction choices with
  | nil => exact fun _ hs => hs
  | cons c rest ih =>
    intro s hs
    refine ih (fun n hn => h n (List.mem_cons_of_mem _ hn)) (s.set c) ?_
    cases c with
    | maxChunk n => exact hs
    | writeWithResponse wait => exact hs
    | queueGrowth n => exact Nat.max_lt.mpr ⟨h n List.mem_cons_self, by decide⟩

theorem Item.Placed.ordered {start stop : Nat} {failures : List (Nat × Failure)}
    (h : Placed start stop failures) :
    (failures.map Prod.fst).Pairwise (· ≤ ·) ∧ ∀ f ∈ failures, start ≤ f.1 ∧ f.1 ≤ stop := by
  induction failures generalizing start with
  | nil => exact ⟨.nil, fun f hf => absurd hf List.not_mem_nil⟩
  | cons first later ih =>
    obtain ⟨hstart, hlater⟩ := h
    obtain ⟨hordered, hbetween⟩ := ih hlater
    constructor
    · refine List.pairwise_cons.mpr ⟨?_, hordered⟩
      intro position hp
      obtain ⟨f, hf, rfl⟩ := List.mem_map.mp hp
      exact (hbetween f hf).1
    · intro f hf
      rcases List.mem_cons.mp hf with rfl | hf
      · exact ⟨hstart, hlater.le⟩
      · obtain ⟨hlow, hhigh⟩ := hbetween f hf
        exact ⟨Nat.le_trans hstart hlow, hhigh⟩

namespace Engine

/-- The chunk that an event brings, if it brings one, has the size of every chunk. -/
def Event.WellFormed : Event → Prop
  | .incoming n => n.chunk.WellFormed
  | _ => True

def checkedStep (e : Engine Ring) : Event → Option (Engine Ring × List Effect)
  | .read id length => (e.inbound.checkedRead id length).map e.withInbound
  | .write data => (e.outbound.checkedWrite e.settings.maxChunk data).map e.withOutbound
  | .flush id => some (e.withOutbound (e.outbound.flush id))
  | .incoming n => (e.inbound.checkedIncoming n).map e.withInbound
  | .chunkTaken => (e.outbound.checkedTaken e.settings.maxChunk).map e.withOutbound
  | .writeFailed f => some (e.withOutbound (e.outbound.failed f))

def checkedRun (e : Engine Ring) : List Event → Option (Engine Ring × List Effect)
  | [] => some (e, [])
  | event :: rest => do
    let (e, effects) ← e.checkedStep event
    let (e, later) ← e.checkedRun rest
    return (e, effects ++ later)

/-- Both halves are safe under usable settings. -/
structure Safe (came went : Nat) (e : Engine Ring) : Prop where
  settings : e.settings.Valid
  inbound : e.inbound.Safe e.settings.queueGrowth came
  outbound : e.outbound.Safe e.settings.maxChunk e.settings.queueGrowth went

variable {e : Engine Ring} {came went : Nat}

theorem safe_new {choices : List Setting} (h : ∀ n, .queueGrowth n ∈ choices → n < Word.quarter) :
    (new (Settings.build choices)).Safe 0 0 := by
  have hvalid := Settings.build_valid choices
  have hsmall := Settings.queueGrowth_build_lt h
  exact ⟨hvalid, Inbound.safe_new hvalid.2.2 hsmall, Outbound.safe_new hvalid.2.2 hsmall⟩

/-- One step has a value in checked arithmetic, and leads to a state where the next one has. -/
theorem checkedStep_eq (h : e.Safe came went) {event : Event} (hw : event.WellFormed)
    (hcame : came + event.received.length < Word.quarter)
    (hwent : went + event.written.length < Word.quarter) :
    e.checkedStep event = some (e.step event) ∧
      (e.step event).1.Safe (came + event.received.length) (went + event.written.length) := by
  obtain ⟨hpos, hmax, -⟩ := h.settings
  cases event with
  | read id length =>
    obtain ⟨hread, hsafe⟩ := Inbound.checkedRead_eq h.inbound hcame id length
    exact ⟨by rw [checkedStep, hread]; rfl, h.settings, hsafe, h.outbound⟩
  | write data =>
    have hwrite : e.outbound.checkedWrite e.settings.maxChunk data = some _ :=
      Outbound.checkedWrite_eq h.outbound.queue h.outbound.small hwent
    exact ⟨by rw [checkedStep, hwrite]; rfl, h.settings, h.inbound,
      Outbound.safe_write h.outbound data⟩
  | flush id =>
    have hsound := Outbound.sound_flush h.outbound.sound id
    have hplain := Outbound.flush_plain h.outbound.queue.valid id
    rw [hplain.2] at hsound
    refine ⟨rfl, h.settings, h.inbound, ?_, h.outbound.small, hsound⟩
    exact (Outbound.queue_flush e.outbound id).symm ▸ h.outbound.queue
  | incoming n =>
    obtain ⟨hincoming, hsafe⟩ := Inbound.checkedIncoming_eq h.inbound hw hcame
    exact ⟨by rw [checkedStep, hincoming]; rfl, h.settings, hsafe, h.outbound⟩
  | chunkTaken =>
    have htaken := Outbound.checkedTaken_eq h.outbound hmax hwent
    exact ⟨by rw [checkedStep, htaken]; rfl, h.settings, h.inbound,
      Outbound.safe_taken h.outbound hpos hmax⟩
  | writeFailed f =>
    have hsound := Outbound.sound_failed h.outbound.sound f
    have hplain := Outbound.failed_plain h.outbound.queue.valid f
    rw [hplain.2] at hsound
    refine ⟨rfl, h.settings, h.inbound, ?_, h.outbound.small, hsound⟩
    exact (Outbound.queue_failed e.outbound f).symm ▸ h.outbound.queue

/-- Every run has a value in checked arithmetic. -/
theorem checkedRun_eq (h : e.Safe came went) {events : List Event}
    (hw : ∀ event ∈ events, event.WellFormed)
    (hcame : came + (received events).length < Word.quarter)
    (hwent : went + (written events).length < Word.quarter) :
    e.checkedRun events = some (e.run events) ∧
      (e.run events).1.Safe (came + (received events).length)
        (went + (written events).length) := by
  induction events generalizing e came went with
  | nil => exact ⟨rfl, h⟩
  | cons event rest ih =>
    obtain ⟨hfirst, hlater⟩ := List.forall_mem_cons.mp hw
    have hreceived : (received (event :: rest)).length =
        event.received.length + (received rest).length := List.length_append
    have hwritten : (written (event :: rest)).length =
        event.written.length + (written rest).length := List.length_append
    rw [hreceived, ← Nat.add_assoc] at hcame
    rw [hwritten, ← Nat.add_assoc] at hwent
    obtain ⟨hstep, hsafe⟩ := checkedStep_eq h hfirst (by omega) (by omega)
    obtain ⟨hrun, hlast⟩ := ih hsafe hlater hcame hwent
    rw [hreceived, hwritten, ← Nat.add_assoc, ← Nat.add_assoc]
    constructor
    · simp only [checkedRun, hstep, hrun, run_cons, Option.bind_eq_bind, Option.bind_some,
        Option.pure_def]
    · exact hlast

/-- No run panics in which fewer than 2 to the power of 62 bytes were written and received: all that
it does has a value in checked arithmetic, and what it comes to is consistent. A notification that
is received, whatever it brings, has a chunk that such a run can take. -/
theorem never_panics {choices : List Setting} {events : List Event}
    (hgrowth : ∀ n, .queueGrowth n ∈ choices → n < Word.quarter)
    (hchunks : ∀ event ∈ events, event.WellFormed)
    (htotal : (written events).length + (received events).length < Word.quarter) :
    let start : Engine Ring := new (Settings.build choices)
    let e := (start.run events).1
    start.checkedRun events = some (start.run events) ∧
    (∀ data failure, let n := (Notification.receive data failure).1
      Chunk.checkedOfBytes data = some n.chunk ∧ (Event.incoming n).WellFormed) ∧
    (e.outbound.chunk.checkedBytes = some e.outbound.chunk.bytes ∧
      e.outbound.chunk.len ≤ e.settings.maxChunk ∧
      1 ≤ e.settings.maxChunk ∧ e.settings.maxChunk ≤ 20) ∧
    (e.inbound.delivered ≤ e.inbound.received ∧
      e.inbound.received - e.inbound.delivered = e.inbound.queue.queued) ∧
    (e.inbound.failures.map Prod.fst).Pairwise (· ≤ ·) ∧
    ∀ f ∈ e.inbound.failures, e.inbound.delivered ≤ f.1 ∧ f.1 ≤ e.inbound.received := by
  intro start e
  obtain ⟨hrun, hsafe⟩ := checkedRun_eq (safe_new hgrowth) hchunks (by omega) (by omega)
  have hsound := hsafe.outbound.sound
  have hcounted : e.inbound.received = e.inbound.delivered + e.inbound.queue.queued :=
    hsafe.inbound.counted
  have hplaced : Item.Placed e.inbound.delivered e.inbound.received e.inbound.failures :=
    hsafe.inbound.consistent.placed
  refine ⟨hrun, ?_, ⟨?_, hsound.fits, hsafe.settings.1, hsafe.settings.2.1⟩, ?_, hplaced.ordered⟩
  · intro data failure n
    exact ⟨Chunk.checkedOfBytes_eq data, Chunk.wellFormed_ofBytes data⟩
  · exact Chunk.checkedBytes_eq hsound.wellFormed
  · exact ⟨hplaced.le, by omega⟩

/-- A read of nothing, a chunk taken while idle, a failure that comes alone, an empty write, and a
write that is cut. -/
theorem never_panics_at_the_edges :
    ∃ (e : Engine Ring) (effects : List Effect),
      (new (Settings.build [.maxChunk 0, .queueGrowth 0])).checkedRun [.read 1 0, .chunkTaken,
        .incoming (Notification.receive [] (some (.oversized 0))).1, .write [], .write [1, 2, 3],
        .chunkTaken, .incoming (Notification.receive [4, 5] none).1, .read 2 9] =
          some (e, effects) ∧
      e.outbound.chunk.len ≤ e.settings.maxChunk ∧
      e.inbound.received - e.inbound.delivered = e.inbound.queue.queued := by
  have hgrowth : ∀ n, .queueGrowth n ∈ [Setting.maxChunk 0, .queueGrowth 0] →
      n < Word.quarter := by
    intro n hn
    simp only [List.mem_cons, reduceCtorEq, Setting.queueGrowth.injEq, List.not_mem_nil, or_false,
      false_or] at hn
    rw [hn]
    decide
  have hchunks : ∀ event ∈ [Event.read 1 0, .chunkTaken,
      .incoming (Notification.receive [] (some (.oversized 0))).1, .write [], .write [1, 2, 3],
      .chunkTaken, .incoming (Notification.receive [4, 5] none).1, .read 2 9],
      event.WellFormed := by
    simp only [List.forall_mem_cons, Event.WellFormed, true_and]
    exact ⟨Chunk.wellFormed_ofBytes _, Chunk.wellFormed_ofBytes _, fun _ hn => by cases hn⟩
  obtain ⟨hrun, -, ⟨-, hlen, -⟩, ⟨-, hcounted⟩, -⟩ := never_panics hgrowth hchunks (by decide)
  generalize (new (Settings.build [.maxChunk 0, .queueGrowth 0]) : Engine Ring).run _ = r
    at hrun hlen hcounted
  obtain ⟨e, effects⟩ := r
  exact ⟨e, effects, hrun, hlen, hcounted⟩

end Engine

end SerialBridge
