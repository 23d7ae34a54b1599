import SerialBridge.Proofs.Link.FlushBarrier
import SerialBridge.Proofs.Link.Pieces
import SerialBridge.Proofs.Outbound.Failures

/-!
# A burst drains

While the engine transmits there is always one step, and only one kind of step, that the engine and
the pump can make without a caller. Each such step brings the burst nearer to its end, and nothing
but a further write takes it away from it. The flushes are answered when it ends.
-/

namespace SerialBridge

namespace Outbound

/-- How many steps the chunk on offer takes: a full one is handed over, written and, where it has
to be, reported before the next hand-off. Only an empty one with nothing behind it ends the
burst. -/
def offerWork (s : Outbound Bytes) : Nat :=
  if s.chunk.isEmpty then (if s.queue = [] then 1 else 2) else 4

variable {s : Outbound Bytes} {maxChunk : Nat}

/-- A hand-off that does not end the burst leaves less work, even with that of the pump. -/
theorem offerWork_taken (hpos : 0 < maxChunk)
    (hnext : (s.taken maxChunk).1.mode = .active) :
    3 * (Bytes.pieces maxChunk (s.taken maxChunk).1.queue).length +
        (s.taken maxChunk).1.offerWork + (if s.chunk.isEmpty then 0 else 2) <
      3 * (Bytes.pieces maxChunk s.queue).length + s.offerWork := by
  obtain ⟨hq, ht⟩ | ⟨hq, he, ht⟩ | ⟨-, -, ht⟩ := taken_cases hpos s
  · have hfull : (s.chunk.refill (s.queue.take maxChunk)).isEmpty = false := by
      refine Chunk.isEmpty_refill _ ?_
      rw [ne_eq, List.take_eq_nil_iff, not_or]
      exact ⟨by omega, hq⟩
    rw [ht, Bytes.pieces_of_ne_nil (Nat.ne_of_gt hpos) hq, List.length_cons, offerWork, offerWork,
      hfull, if_neg hq]
    cases s.chunk.isEmpty <;> simp only [Bool.false_eq_true, if_false, if_true] <;> omega
  · have hempty : s.chunk.clear.isEmpty = true := rfl
    rw [ht, offerWork, offerWork, hempty, he, hq]
    simp
  · rw [ht, settle_mode] at hnext
    cases hnext

end Outbound

namespace Link

open Bytes (pieces)

/-- The steps that the engine and the pump make without a caller. -/
inductive Internal where
  | handOff
  | completion
  | delivery
  deriving DecidableEq, Repr

namespace Event

/-- Which of the internal steps an event is. A physical write may end in any way. -/
def internal? : Event → Option Internal
  | .handOff => some .handOff
  | .complete _ => some .completion
  | .report => some .delivery
  | _ => none

def isInternal (event : Event) : Bool := event.internal?.isSome

/-- The flush that an event asks for. -/
def flush? : Event → Option Nat
  | .flush id => some id
  | _ => none

/-- Whether an event may come while a burst drains: a read, a flush, a notification or an internal
step. -/
def isDraining : Event → Bool
  | .read _ _ | .flush _ | .incoming _ | .handOff | .complete _ | .report => true
  | _ => false

end Event

/-- Among the internal steps those of one kind are possible, all of them, and no other. -/
def Awaits {Q : Type} [ByteQueue Q] (l : Link Q) (kind : Internal) : Prop :=
  ∀ event other, event.internal? = some other → ((l.step? event).isSome = true ↔ other = kind)

/-- How many internal steps are left of a burst, at most. -/
def toGo (l : Link Bytes) : Nat :=
  if l.engine.transmitting then
    l.pump.work + 3 * (pieces l.engine.settings.maxChunk l.engine.outbound.queue).length +
      l.engine.outbound.offerWork
  else 0

/-- What events that bring no write do to a link: they leave its two sides running, each internal
step is one less to go, and each flush was answered or waits, in order. -/
structure Drains (l l' : Link Bytes) (events : List Event) (effects : List Effect) : Prop where
  serving : l'.serving = l.serving
  pumping : l.pump ≠ .stopped → l'.pump ≠ .stopped
  toGo : l'.toGo + events.countP Event.isInternal ≤ l.toGo
  flushes : effects.filterMap Effect.flush? ++ l'.engine.outbound.waiting =
    l.engine.outbound.waiting ++ events.filterMap Event.flush?

variable {l l' l'' : Link Bytes} {accepted : Bytes} {past effects later : List Effect}
  {events rest : List Event}

theorem drains_nil : Drains l l [] [] :=
  ⟨rfl, id, Nat.le_refl _, (List.append_nil _).symm⟩

theorem Drains.trans (h : Drains l l' events effects) (h' : Drains l' l'' rest later) :
    Drains l l'' (events ++ rest) (effects ++ later) where
  serving := h'.serving.trans h.serving
  pumping := fun hpump => h'.pumping (h.pumping hpump)
  toGo := by
    have htoGo := h.toGo
    have htoGo' := h'.toGo
    rw [List.countP_append]
    omega
  flushes := by
    rw [List.filterMap_append, List.append_assoc, h'.flushes, ← List.append_assoc, h.flushes,
      List.filterMap_append, List.append_assoc]

/-- A burst has an end to come to. -/
theorem toGo_pos (hactive : l.engine.transmitting = true) : 0 < l.toGo := by
  rw [toGo, if_pos hactive, Outbound.offerWork]
  split
  · split <;> omega
  · omega

theorem toGo_le (hpos : 0 < l.engine.settings.maxChunk) :
    l.toGo ≤ 3 * ((l.engine.outbound.queue.length + l.engine.settings.maxChunk - 1) /
      l.engine.settings.maxChunk) + 6 := by
  have hwork : l.pump.work ≤ 2 := by
    cases l.pump <;> simp [Pump.work]
  have hoffer : l.engine.outbound.offerWork ≤ 4 := by
    rw [Outbound.offerWork]
    split
    · split <;> omega
    · omega
  rw [toGo, ← Bytes.length_pieces (Nat.ne_of_gt hpos)]
  split <;> omega

/-! ## The step to make -/

/-- The pump says which internal step comes next. -/
theorem exists_awaits {Q : Type} [ByteQueue Q] {l : Link Q} (hserving : l.serving = true)
    (hpump : l.pump ≠ .stopped) (hactive : l.engine.transmitting = true) :
    ∃ kind, l.Awaits kind := by
  cases hp : l.pump with
  | ready =>
    refine ⟨.handOff, fun event other hkind => ?_⟩
    cases event <;> cases hkind
    · simp only [step?, handOff?, hp, hserving, hactive, Bool.and_self, if_true]
      split <;> simp
    · simp [step?, complete?, hp]
    · simp [step?, report?, hp]
  | writing data =>
    refine ⟨.completion, fun event other hkind => ?_⟩
    cases event <;> cases hkind
    · simp [step?, handOff?, hp]
    · simp only [step?, complete?, hp]
      split <;> simp
    · simp [step?, report?, hp]
  | failed f =>
    refine ⟨.delivery, fun event other hkind => ?_⟩
    cases event <;> cases hkind
    · simp [step?, handOff?, hp]
    · simp [step?, complete?, hp]
    · simp [step?, report?, hp, feed?, hserving]
  | stopped => exact absurd hp hpump

/-! ## One step -/

theorem toGo_congr (hpump : l'.pump = l.pump)
    (hsettings : l'.engine.settings = l.engine.settings)
    (hoffer : Outbound.SameOffer l.engine.outbound l'.engine.outbound) : l'.toGo = l.toGo := by
  rw [toGo, toGo, Engine.transmitting, Engine.transmitting, hpump, hsettings, hoffer.mode,
    hoffer.queue, Outbound.offerWork, Outbound.offerWork, hoffer.chunk, hoffer.queue]

theorem flushes_step (h : Accounts l accepted past) (event : Engine.Event) :
    (l.engine.step event).2.filterMap Effect.flush? ++
        (l.engine.step event).1.outbound.waiting =
      l.engine.outbound.waiting ++ Engine.Move.flushed (.event event) :=
  (Engine.orderly_move (fun hidle => (h.sends.outbound.idle hidle).2.2) (.event event)).2

/-- The engine makes a step that leaves the offer alone. -/
theorem drains_feed (h : Accounts l accepted past) {event : Event} (e : Engine.Event)
    (hs : l.feed? e = some (l', effects)) (hinternal : event.isInternal = false)
    (hflush : [event].filterMap Event.flush? = Engine.Move.flushed (.event e))
    (hoffer : Outbound.SameOffer l.engine.outbound (l.engine.step e).1.outbound) :
    Drains l l' [event] effects := by
  obtain ⟨-, rfl, rfl⟩ := eq_of_feed? e hs
  refine ⟨rfl, id, ?_, ?_⟩
  · have htoGo : toGo { l with engine := (l.engine.step e).1 } = l.toGo :=
      toGo_congr rfl (Engine.settings_step _ _) hoffer
    rw [htoGo, List.countP_singleton, hinternal]
    exact Nat.le_refl _
  · rw [hflush]
    exact flushes_step h e

/-- A hand-off ends the burst, or leaves less to go even with the write that it starts. -/
theorem drains_handOff (h : Accounts l accepted past) (hs : l.handOff? = some (l', effects)) :
    Drains l l' [.handOff] effects := by
  have hflushes := flushes_step h .chunkTaken
  have hempty := Chunk.isEmpty_iff_bytes h.sends.outbound.wellFormed
  obtain ⟨hpump, -, hactive, hend⟩ := eq_of_handOff? hs
  have hpos := toGo_pos hactive
  have hless : (l.engine.step .chunkTaken).1.transmitting = true →
      3 * (pieces l.engine.settings.maxChunk
            (l.engine.step .chunkTaken).1.outbound.queue).length +
          (l.engine.step .chunkTaken).1.outbound.offerWork +
          (if l.engine.outbound.chunk.isEmpty then 0 else 2) < l.toGo := by
    intro hnext
    have hlt := Outbound.offerWork_taken h.sends.settings.1 ((Engine.transmitting_iff _).mp hnext)
    rw [toGo, if_pos hactive, hpump]
    simp only [Pump.work, Nat.zero_add]
    exact hlt
  obtain ⟨hd, rfl, rfl⟩ | ⟨hd, rfl, rfl⟩ := hend
  · refine ⟨rfl, id, ?_, hflushes⟩
    cases hnext : (l.engine.step .chunkTaken).1.transmitting with
    | false =>
      rw [toGo, if_neg (Bool.eq_false_iff.mp hnext)]
      exact hpos
    | true =>
      have hlt := hless hnext
      rw [if_pos (hempty.mpr hd)] at hlt
      rw [toGo, if_pos hnext, hpump]
      simp only [Pump.work, Engine.settings_step, Nat.zero_add]
      exact hlt
  · refine ⟨rfl, fun _ => Pump.noConfusion, ?_, hflushes⟩
    have hnext := Engine.transmitting_of_bytes h.sends hactive hd
    have hlt := hless hnext
    rw [if_neg fun he => hd (hempty.mp he)] at hlt
    rw [toGo, if_pos hnext]
    simp only [Pump.work, Engine.settings_step, List.countP_singleton]
    show 2 + _ + _ + 1 ≤ _
    omega

/-- A pump with work has a burst to come back to. -/
theorem transmitting_of_busy (h : Accounts l accepted past) (hbusy : l.pump.isBusy = true) :
    l.engine.transmitting = true := by
  cases hidle : l.engine.transmitting with
  | true => rfl
  | false => cases hbusy.symm.trans (h.idle hidle)

/-- The end of a physical write brings the pump nearer to the next hand-off. -/
theorem drains_complete (h : Accounts l accepted past) {failure : Option Failure}
    (hs : l.complete? failure = some (l', effects)) : Drains l l' [.complete failure] effects := by
  obtain ⟨data, hpump, hend⟩ := eq_of_complete? hs
  have hactive := transmitting_of_busy h (by rw [hpump]; rfl)
  obtain ⟨rfl, rfl, rfl⟩ | ⟨f, rfl, rfl, rfl⟩ := hend
  all_goals
    refine ⟨rfl, fun _ => Pump.noConfusion, ?_, (List.append_nil _).symm⟩
    rw [toGo, toGo, if_pos hactive, if_pos hactive, hpump]
    simp only [Pump.work]
    show _ + 1 ≤ _
    omega

/-- So does a report. -/
theorem drains_report (h : Accounts l accepted past) (hserving : l.serving = true)
    (hs : l.report? = some (l', effects)) : Drains l l' [.report] effects := by
  obtain ⟨f, hpump, ⟨-, rfl, rfl⟩ | ⟨hgone, -, -⟩⟩ := eq_of_report? hs
  · refine ⟨rfl, fun _ => Pump.noConfusion, ?_, flushes_step h (.writeFailed f)⟩
    have hactive := transmitting_of_busy h (by rw [hpump]; rfl)
    have hsame : toGo { l with engine := (l.engine.step (.writeFailed f)).1 } = l.toGo :=
      toGo_congr rfl rfl (Outbound.sameOffer_failed l.engine.outbound f)
    have hnext : (l.engine.step (.writeFailed f)).1.transmitting = true :=
      (congrArg (· == .active) (Outbound.sameOffer_failed l.engine.outbound f).mode).trans hactive
    rw [← hsame, toGo, toGo, if_pos hnext, if_pos hnext, hpump]
    simp only [Pump.work]
    show _ + 1 ≤ _
    omega
  · cases hserving.symm.trans hgone

theorem drains_step (h : Accounts l accepted past) (hserving : l.serving = true) {event : Event}
    (hs : l.step? event = some (l', effects)) (hdraining : event.isDraining = true) :
    Drains l l' [event] effects := by
  cases event with
  | read id length => exact drains_feed h (.read id length) hs rfl rfl ⟨rfl, rfl, rfl⟩
  | flush id => exact drains_feed h (.flush id) hs rfl rfl (Outbound.sameOffer_flush _ id)
  | incoming n => exact drains_feed h (.incoming n) hs rfl rfl ⟨rfl, rfl, rfl⟩
  | handOff => exact drains_handOff h hs
  | complete failure => exact drains_complete h hs
  | report => exact drains_report h hserving hs
  | _ => cases hdraining

/-! ## Runs -/

theorem drains_run (h : Accounts l accepted past) (hserving : l.serving = true)
    (hr : l.run? events = some (l', effects))
    (hdraining : ∀ event ∈ events, event.isDraining = true) : Drains l l' events effects := by
  induction events generalizing l accepted past effects with
  | nil =>
    obtain ⟨rfl, rfl⟩ := Prod.mk.inj (Option.some.inj hr)
    exact drains_nil
  | cons event rest ih =>
    obtain ⟨hevent, hrest⟩ := List.forall_mem_cons.mp hdraining
    obtain ⟨next, first, later, hs, hlast, rfl⟩ := eq_of_run?_cons hr
    have hstep := drains_step h hserving hs hevent
    exact hstep.trans (ih (accounts_step h hs) (hstep.serving.trans hserving) hlast hrest)

/-- From every state of a transmitting engine with a pump that has not stopped there is just one
kind of internal step to make. However reads, flushes and notifications come between these steps,
their number is bounded by three for each chunk still queued and six more; short of that there is
always one to make, and when the engine has gone idle every flush was answered, in order. -/
theorem transmission_drains (choices : List Setting) {before : List Event} {l : Link Ring}
    {past : List Effect} (hrun : (new (Settings.build choices)).run? before = some (l, past))
    (hserving : l.serving = true) (hpump : l.pump ≠ .stopped)
    (hactive : l.engine.transmitting = true) :
    let queued := ByteQueue.queued l.engine.outbound.queue
    let maxChunk := l.engine.settings.maxChunk
    let bound := 3 * ((queued + maxChunk - 1) / maxChunk) + 6
    (∃ kind, l.Awaits kind) ∧
    ∀ after l' effects, l.run? after = some (l', effects) →
      (∀ event ∈ after, event.isDraining = true) →
      after.countP Event.isInternal ≤ bound ∧
      (l'.engine.transmitting = true →
        after.countP Event.isInternal < bound ∧ ∃ kind, l'.Awaits kind) ∧
      (l'.engine.transmitting = false →
        l'.engine.outbound.waiting = [] ∧
        effects.filterMap Effect.flush? =
          l.engine.outbound.waiting ++ after.filterMap Event.flush?) := by
  intro queued maxChunk bound
  obtain ⟨hr, hv⟩ := run?_new_plain (Settings.build choices) before
  rw [hrun, Option.map_some] at hr
  have haccounts : Accounts l.plain (written before) past := accounts_run (accounts_new choices) hr
  have hbound : l.plain.toGo ≤ bound := by
    have hle := toGo_le haccounts.sends.settings.1
    have hqueued : l.plain.engine.outbound.queue.length = queued :=
      Ring.length_toList (hv _ hrun).outbound
    rw [hqueued] at hle
    exact hle
  refine ⟨exists_awaits hserving hpump hactive, fun after l' effects hafter hdraining => ?_⟩
  have hafter' := (run?_plain (hv _ hrun) after).1
  rw [hafter, Option.map_some] at hafter'
  have hdrains : Drains l.plain l'.plain after effects :=
    drains_run haccounts hserving hafter' hdraining
  have hcount := hdrains.toGo
  refine ⟨by omega, fun hactive' => ⟨?_, ?_⟩, fun hidle => ?_⟩
  · have hpos : 0 < l'.plain.toGo := toGo_pos hactive'
    omega
  · exact exists_awaits (hdrains.serving.trans hserving) (hdrains.pumping hpump) hactive'
  · have hlast := accounts_run haccounts hafter'
    have hwaiting : l'.engine.outbound.waiting = [] :=
      (hlast.sends.outbound.idle ((Engine.not_transmitting_iff _).mp hidle)).2.2
    have hflushes := hdrains.flushes
    have hplain : l'.plain.engine.outbound.waiting = [] := hwaiting
    rw [hplain, List.append_nil] at hflushes
    exact ⟨hwaiting, hflushes⟩

/-- Three bytes in chunks of two leave one byte queued, and at most nine internal steps to go. -/
theorem transmission_drains_of_three :
    ∃ (l : Link Ring) (past : List Effect),
      (new (Settings.build [.maxChunk 2, .queueGrowth 4])).run? [.write [1, 2, 3], .flush 7] =
        some (l, past) ∧
      l.serving = true ∧ l.pump ≠ .stopped ∧ l.engine.transmitting = true ∧
      l.engine.outbound.waiting = [7] ∧ (∃ kind, l.Awaits kind) ∧
      ∀ after l' effects, l.run? after = some (l', effects) →
        (∀ event ∈ after, event.isDraining = true) →
        after.countP Event.isInternal ≤ 9 ∧
        (l'.engine.transmitting = true →
          after.countP Event.isInternal < 9 ∧ ∃ kind, l'.Awaits kind) ∧
        (l'.engine.transmitting = false →
          l'.engine.outbound.waiting = [] ∧
          effects.filterMap Effect.flush? = [7] ++ after.filterMap Event.flush?) := by
  have hstate : ((new (Settings.build [.maxChunk 2, .queueGrowth 4]) : Link Ring).run?
      [.write [1, 2, 3], .flush 7]).map (fun r => (r.1.serving, r.1.pump,
        r.1.engine.transmitting, r.1.engine.outbound.waiting,
        ByteQueue.queued r.1.engine.outbound.queue, r.1.engine.settings.maxChunk)) =
      some (true, .ready, true, [7], 1, 2) := by
    decide +kernel
  obtain ⟨⟨l, past⟩, hrun, hl⟩ := Option.map_eq_some_iff.mp hstate
  simp only [Prod.mk.injEq] at hl
  obtain ⟨hserving, hready, hactive, hwaiting, hqueued, hmax⟩ := hl
  have hpump : l.pump ≠ .stopped := by
    rw [hready]
    exact Pump.noConfusion
  have hdrains := transmission_drains _ hrun hserving hpump hactive
  rw [hqueued, hmax, hwaiting] at hdrains
  exact ⟨l, past, hrun, hserving, hpump, hactive, hwaiting, hdrains⟩

end Link

end SerialBridge
