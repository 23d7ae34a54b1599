import SerialBridge.Proofs.Bridge.Turns
import SerialBridge.Proofs.Engine.Memory
import SerialBridge.Proofs.Link.Drain

/-!
# A link on which nothing fails

As long as every physical write ends well and no notification brings a failure, every read is
answered with bytes and every flush is told that all is well. The bytes read and those that can be
read are then just those that came in.
-/

namespace SerialBridge

namespace Item

/-- Among bytes alone no failure has a place. -/
theorem failures_of_layOut {start : Nat} {bytes data : Bytes} {failures : List (Nat × Failure)}
    (h : layOut start bytes failures = data.map .byte) : failures = [] := by
  cases failures with
  | nil => rfl
  | cons first later =>
    have hmark : mark first.2 ∈ data.map byte := by
      rw [← h, layOut]
      simp
    simp at hmark

end Item

namespace Effect

/-- Neither a request answered with a failure nor a physical write that failed. -/
def Smooth : Effect → Prop
  | .replied _ (.read result) => ∃ data, result = .ok data
  | .replied _ (.flush result) => result = .ok ()
  | .wrote _ failure => failure = none
  | .logged _ => True

/-- The bytes that an effect hands to a reader. -/
def bytes : Effect → Bytes
  | .replied _ (.read (.ok data)) => data
  | _ => []

/-- The bytes handed to readers, in order. -/
def bytesRead (effects : List Effect) : Bytes := effects.flatMap bytes

variable {effects : List Effect}

theorem smooth_of_isLogged (h : ∀ x ∈ effects, x.IsLogged) : ∀ x ∈ effects, x.Smooth := by
  intro x hx
  obtain ⟨entry, rfl⟩ := h x hx
  trivial

theorem told_of_smooth (h : ∀ x ∈ effects, x.Smooth) :
    told effects = (bytesRead effects).map .byte := by
  induction effects with
  | nil => rfl
  | cons x rest ih =>
    obtain ⟨hx, hrest⟩ := List.forall_mem_cons.mp h
    have hitems : x.items = x.bytes.map .byte := by
      cases x with
      | replied id reply =>
        cases reply with
        | read result =>
          obtain ⟨data, rfl⟩ := hx
          rfl
        | flush result => rfl
      | _ => rfl
    rw [told_cons, ih hrest, hitems]
    exact List.map_append.symm

theorem unreported?_of_smooth (h : ∀ x ∈ effects, x.Smooth) : unreported? effects = none := by
  have hopen : ∀ x ∈ effects, x.isFlushError = false := by
    intro x hx
    have hsmooth := h x hx
    cases x with
    | replied id reply =>
      cases reply with
      | read result => rfl
      | flush result =>
        obtain rfl : result = .ok () := hsmooth
        rfl
    | _ => rfl
  have happend : unreported? ([] ++ effects) =
      (unreported? []).or (effects.findSome? writeFailure?) := unreported?_append hopen
  have hnone : effects.findSome? writeFailure? = none := by
    rw [List.findSome?_eq_none_iff]
    intro x hx
    have hsmooth := h x hx
    cases x with
    | wrote data failure => exact hsmooth
    | _ => rfl
  rw [List.nil_append, hnone, Option.or_none] at happend
  exact happend

end Effect

open Effect (sent told bytesRead unreported?)

namespace Engine

/-- Only the pump shows physical writes. -/
theorem write?_step {Q : Type} [ByteQueue Q] (e : Engine Q) (event : Event) :
    ∀ x ∈ (e.step event).2, x.write? = none := by
  cases event with
  | read id length => exact fun x hx => (Inbound.quiet_read _ id length x hx).1
  | write data => exact fun x hx => (Outbound.quiet_write _ _ data x hx).1
  | incoming n => exact fun x hx => (Inbound.quiet_incoming _ n x hx).1
  | writeFailed f => exact fun x hx => (Outbound.quiet_failed _ f x hx).1
  | flush id =>
    simp only [step, withOutbound, Outbound.flush]
    cases e.outbound.mode <;> simp [Effect.write?]
  | chunkTaken =>
    simp only [step, withOutbound]
    obtain ⟨queue, chunk, ht⟩ | ⟨queue, ht⟩ :=
      e.outbound.taken_keeps_or_settles e.settings.maxChunk
    · rw [ht]
      exact fun x hx => absurd hx List.not_mem_nil
    · rw [ht]
      exact List.forall_mem_cons.mpr ⟨rfl, Outbound.write?_answers _ _⟩

variable {e : Engine Bytes} {came : Bytes} {past : List Effect}

/-- An event brings no more bytes than it has items. -/
theorem Event.length_received_le {event : Event} {added : Bytes}
    (hitems : event.items = added.map .byte) : event.received.length ≤ added.length := by
  cases event with
  | incoming n =>
    have hlength := congrArg List.length hitems
    simp only [Event.items, Notification.items, List.length_append, List.length_map] at hlength
    exact Nat.le.intro hlength
  | _ => exact Nat.zero_le _

theorem Receives.logged {came : List Item} (h : Receives e came past) {front : List Effect}
    (hfront : ∀ x ∈ front, x.IsLogged) : Receives e came (past ++ front) := by
  have htold : told front = [] := Effect.told_eq_nil fun x hx => by
    obtain ⟨entry, rfl⟩ := hfront x hx
    rfl
  refine ⟨h.consistent, ?_⟩
  rw [Effect.told_append, htold, List.append_nil]
  exact h.law

/-- Where no failure came in and none is held, a step answers as if none ever could: the stream would
show one that a reader is told of. -/
theorem smooth_step (h : Receives e (came.map .byte) past) (hf : e.outbound.failure = none)
    {event : Event} {added : Bytes} (hitems : event.items = added.map .byte) :
    ∀ x ∈ (e.step event).2, x.Smooth := by
  intro x hx
  cases x with
  | logged entry => trivial
  | wrote data failure => cases write?_step e event _ hx
  | replied id reply =>
    obtain ⟨earlier, later, he⟩ := List.append_of_mem hx
    cases reply with
    | read result =>
      obtain ⟨-, -, ⟨data, rfl⟩ | ⟨failure, rfl⟩, -⟩ :=
        exact_step h.consistent event earlier id result later he
      · exact ⟨data, rfl⟩
      · have hlaw := (receives_step h event).law
        rw [he, hitems, ← List.map_append] at hlaw
        have hmark : Item.mark failure ∈ (came ++ added).map Item.byte := by
          rw [← hlaw]
          simp [Effect.items, Item.ofResult]
        simp at hmark
    | flush result =>
      have hresult : result ∈ (e.step event).2.filterMap Effect.flushReply? :=
        List.mem_filterMap.mpr ⟨_, hx, rfl⟩
      obtain hnone | ⟨others, htold⟩ := told_step e event
      · rw [hnone] at hresult
        cases hresult
      · rw [htold, hf, List.mem_cons, List.mem_replicate] at hresult
        obtain rfl | ⟨-, rfl⟩ := hresult <;> rfl

end Engine

namespace Link

/-- The engine's part in a call, a notification or a hand-off. -/
def Event.engine? : Event → Option Engine.Event
  | .read id length => some (.read id length)
  | .write data => some (.write data)
  | .flush id => some (.flush id)
  | .incoming n => some (.incoming n)
  | .handOff => some .chunkTaken
  | _ => none

theorem engine_of_step? {Q : Type} [ByteQueue Q] {l l' : Link Q} {event : Event}
    {e : Engine.Event} {effects : List Effect} (he : event.engine? = some e)
    (hs : l.step? event = some (l', effects)) :
    l'.engine = (l.engine.step e).1 ∧
      ∃ front, (∀ x ∈ front, x.IsLogged) ∧ effects = front ++ (l.engine.step e).2 := by
  have hfeed (hs : l.feed? e = some (l', effects)) : l'.engine = (l.engine.step e).1 ∧
      ∃ front, (∀ x ∈ front, x.IsLogged) ∧ effects = front ++ (l.engine.step e).2 := by
    obtain ⟨-, rfl, rfl⟩ := eq_of_feed? e hs
    exact ⟨rfl, [], fun x hx => absurd hx List.not_mem_nil, rfl⟩
  cases event with
  | handOff =>
    obtain rfl : Engine.Event.chunkTaken = e := Option.some.inj he
    obtain ⟨-, -, -, ⟨-, rfl, rfl⟩ | ⟨-, rfl, rfl⟩⟩ := eq_of_handOff? hs
    · exact ⟨rfl, [], fun x hx => absurd hx List.not_mem_nil, rfl⟩
    · exact ⟨rfl, [_], List.forall_mem_singleton.mpr ⟨_, rfl⟩, rfl⟩
  | _ =>
    cases he <;> exact hfeed hs

/-- What an event has the engine accept is what it writes to the engine. -/
theorem written_of_engine? {event : Event} {e : Engine.Event} (he : event.engine? = some e) :
    event.written = e.written := by
  cases event <;> cases he <;> rfl

/-- An open link on which nothing has failed, with all that came in, the bytes accepted and the
number of requests made so far. -/
structure Smooth (settings : Settings) (came accepted : Bytes) (past : List Effect)
    (requests : Nat) (l : Link Ring) : Prop where
  running : l.Running settings
  accounts : Accounts l.plain accepted past
  receives : Engine.Receives l.plain.engine (came.map .byte) past
  smooth : ∀ x ∈ past, x.Smooth
  fits : ∀ data, l.pump = .writing data → data.length ≤ chunkLimit
  flushes : ∀ id ∈ past.filterMap Effect.flush? ++ l.engine.outbound.waiting, id < requests
  memory : l.engine.Within settings.queueGrowth came.length accepted.length

variable {settings : Settings} {came accepted added : Bytes} {past effects : List Effect}
  {requests later : Nat} {l l' : Link Ring} {event : Event} {e : Engine.Event}

theorem smooth_new (choices : List Setting) :
    Smooth (Settings.build choices) [] [] [] 0 (new (Settings.build choices)) where
  running := ⟨rfl, rfl, rfl, rfl, Pump.noConfusion, Engine.valid_new _⟩
  accounts := by
    rw [plain_new]
    exact accounts_new choices
  receives := by
    rw [plain_new]
    exact Engine.receives_new _
  smooth := fun _ hx => absurd hx List.not_mem_nil
  fits := fun _ hpump => by cases hpump
  flushes := fun _ hid => absurd hid List.not_mem_nil
  memory := Engine.within_new (Settings.build_valid choices)

/-- There is no failure to report, and none on its way. -/
theorem Smooth.no_failure (h : Smooth settings came accepted past requests l) :
    l.engine.outbound.failure = none ∧ l.pump.undelivered? = none := by
  have hfailure := h.accounts.failure h.running.serving
  rw [Effect.unreported?_of_smooth h.smooth] at hfailure
  exact Option.or_eq_none_iff.mp hfailure.symm

/-- The pump is ready or has a piece to write. -/
theorem Smooth.pump_cases (h : Smooth settings came accepted past requests l) :
    l.pump = .ready ∨ ∃ data, l.pump = .writing data := by
  have hundelivered := h.no_failure.2
  cases hpump : l.pump with
  | ready => exact .inl rfl
  | writing data => exact .inr ⟨data, rfl⟩
  | failed f =>
    rw [hpump] at hundelivered
    cases hundelivered
  | stopped => exact absurd hpump h.running.pumping

/-- What was read and what can be read are all that came in. -/
theorem Smooth.readable (h : Smooth settings came accepted past requests l) :
    bytesRead past ++ l.engine.inbound.queue.toList = came := by
  have hlaw := h.receives.law
  rw [Effect.told_of_smooth h.smooth] at hlaw
  have hall : l.plain.engine.inbound.undelivered =
      (came.drop (bytesRead past).length).map .byte := by
    have hdrop := congrArg (List.drop (bytesRead past).length) hlaw
    rw [← List.map_drop, List.drop_left'] at hdrop
    · exact hdrop
    · rw [List.length_map]
  have hbytes : l.plain.engine.inbound.undelivered =
      l.engine.inbound.queue.toList.map .byte := by
    rw [Inbound.undelivered, Item.failures_of_layOut hall]
    rfl
  rw [hbytes, ← List.map_append] at hlaw
  exact List.map_injective_iff.mpr (fun _ _ => Item.byte.inj) hlaw

theorem flushes_of_isLogged {front : List Effect} (h : ∀ x ∈ front, x.IsLogged) :
    front.filterMap Effect.flush? = [] :=
  List.filterMap_eq_nil_iff.mpr fun x hx =>
    Effect.flush?_of_quiet (Effect.quiet_of_isLogged h x hx).2

theorem Smooth.logged (h : Smooth settings came accepted past requests l)
    (hl : ∀ x ∈ effects, x.IsLogged) :
    Smooth settings came accepted (past ++ effects) requests l where
  running := h.running
  accounts := h.accounts.of_isLogged hl
  receives := h.receives.logged hl
  smooth := List.forall_mem_append.mpr ⟨h.smooth, Effect.smooth_of_isLogged hl⟩
  fits := h.fits
  flushes := by
    rw [List.filterMap_append, flushes_of_isLogged hl, List.append_nil]
    exact h.flushes
  memory := h.memory

/-- A chunk on offer is not too long for a notification. -/
theorem Smooth.offer_fits (h : Smooth settings came accepted past requests l) :
    l.engine.outbound.chunk.bytes.length ≤ chunkLimit := by
  have hsends := h.accounts.sends
  have hlength := Chunk.length_bytes hsends.outbound.wellFormed
  exact Nat.le_trans (Nat.le_of_eq hlength)
    (Nat.le_trans hsends.outbound.fits hsends.settings.2.1)

/-- The engine makes a step. -/
theorem smooth_engine (h : Smooth settings came accepted past requests l)
    (he : event.engine? = some e) (hs : l.step? event = some (l', effects))
    (hitems : e.items = added.map .byte) (hfits : added.length ≤ chunkLimit)
    (hlater : requests ≤ later)
    (hasked : ∀ id ∈ Engine.Move.flushed (.event e), id < later) :
    Smooth settings (came ++ added) (accepted ++ event.written) (past ++ effects) later l' := by
  have hplain := step?_plain_of_eq h.running.valid event hs
  have haccounts := accounts_step h.accounts hplain
  obtain ⟨hengine, front, hfront, rfl⟩ := engine_of_step? he hplain
  refine ⟨?_, haccounts, ?_, ?_, ?_, ?_, ?_⟩
  · refine running_step h.running event hs ?_ ?_ <;> rintro rfl <;> cases he
  · have hreceives := Engine.receives_step (h.receives.logged hfront) e
    rw [hengine, List.map_append, ← hitems, ← List.append_assoc]
    exact hreceives
  · have hsmooth := Engine.smooth_step h.receives h.no_failure.1 hitems
    exact List.forall_mem_append.mpr
      ⟨h.smooth, List.forall_mem_append.mpr ⟨Effect.smooth_of_isLogged hfront, hsmooth⟩⟩
  · have hfeed (hf : l.feed? e = some (l', front ++ (l.plain.engine.step e).2)) :
        ∀ data, l'.pump = .writing data → data.length ≤ chunkLimit := by
      obtain ⟨-, rfl, -⟩ := eq_of_feed? e hf
      exact h.fits
    cases event with
    | handOff =>
      obtain ⟨-, -, -, ⟨-, rfl, -⟩ | ⟨-, rfl, -⟩⟩ := eq_of_handOff? hs
      · exact h.fits
      · rintro data ⟨⟩
        exact h.offer_fits
    | _ => cases he <;> exact hfeed hs
  · have hflushes := flushes_step h.accounts e
    have hwaiting : l'.engine.outbound.waiting =
        (l.plain.engine.step e).1.outbound.waiting :=
      congrArg (fun engine : Engine Bytes => engine.outbound.waiting) hengine
    rw [List.filterMap_append, List.filterMap_append, flushes_of_isLogged hfront, List.nil_append,
      List.append_assoc, hwaiting, hflushes, ← List.append_assoc]
    refine List.forall_mem_append.mpr ⟨fun id hid => ?_, hasked⟩
    exact Nat.lt_of_lt_of_le (h.flushes id hid) hlater
  · have hreceived := Engine.Event.length_received_le hitems
    have hnext := Engine.within_step h.memory (Nat.le_trans hreceived hfits)
    rw [List.length_append, List.length_append, written_of_engine? he, (engine_of_step? he hs).1]
    exact hnext.mono (Nat.add_le_add_left hreceived _)

/-- A notification without a failure comes in; nothing shows but answers to reads. -/
theorem exists_incoming (h : Smooth settings came accepted past requests l) {n : Notification}
    (hitems : n.items = added.map .byte) (hfits : added.length ≤ chunkLimit) :
    ∃ l' effects, l.feed? (.incoming n) = some (l', effects) ∧
      Smooth settings (came ++ added) accepted (past ++ effects) requests l' ∧
      l'.pump = l.pump ∧ ∀ x ∈ effects, x.Quiet := by
  have hfeed := h.running.feed? (.incoming n)
  have hs : l.step? (.incoming n) = _ := hfeed
  have hin : (Engine.Event.incoming n).items = added.map .byte := hitems
  have hnext := smooth_engine h rfl hs hin hfits (Nat.le_refl _)
    (fun id hid => absurd hid List.not_mem_nil)
  have hwritten : (Event.incoming n).written = [] := rfl
  rw [hwritten, List.append_nil] at hnext
  exact ⟨_, _, hfeed, hnext, rfl, Inbound.quiet_incoming _ n⟩

theorem sent_of_engine (he : event.engine? = some e) (hs : l.step? event = some (l', effects)) :
    sent effects = [] := by
  obtain ⟨-, front, hfront, rfl⟩ := engine_of_step? he hs
  rw [Effect.sent_append, Effect.sent_eq_nil (Engine.write?_step _ e),
    Effect.sent_eq_nil fun x hx => (Effect.quiet_of_isLogged hfront x hx).1]
  rfl

/-- A physical write ends well. -/
theorem smooth_complete (h : Smooth settings came accepted past requests l) {data : Bytes}
    (hpump : l.pump = .writing data) :
    ∃ l', l.complete? none = some (l', [.wrote data none]) ∧
      Smooth settings came accepted (past ++ [.wrote data none]) requests l' := by
  have hs : l.step? (.complete none) = some ({ l with pump := .ready }, [.wrote data none]) := by
    simp only [step?, complete?, hpump]
  have haccounts := accounts_of_no_write h.accounts (.complete none)
    (step?_plain_of_eq h.running.valid _ hs) rfl
  refine ⟨_, hs, running_step h.running _ hs (by simp) (by simp), haccounts,
    ⟨h.receives.consistent, ?_⟩, ?_, ?_, ?_, h.memory⟩
  · rw [Effect.told_append]
    exact (congrArg (· ++ _) (List.append_nil _)).trans h.receives.law
  · exact List.forall_mem_append.mpr ⟨h.smooth, List.forall_mem_singleton.mpr rfl⟩
  · intro data hready
    cases hready
  · rw [List.filterMap_append]
    exact (List.append_nil (past.filterMap Effect.flush?)).symm ▸ h.flushes

/-- When a flush is answered, every byte accepted so far has been written. -/
theorem sent_of_flushed (h : Smooth settings came accepted past requests l)
    (hs : l.step? event = some (l', effects)) {id : Nat}
    (hid : .replied id (.flush (.ok ())) ∈ effects) :
    sent (past ++ effects) = accepted ++ event.written := by
  have hplain := step?_plain_of_eq h.running.valid event hs
  obtain ⟨earlier, later, hsplit⟩ := List.append_of_mem hid
  have hanswered := answered_step h.accounts hplain hsplit.symm (by simp)
  exact (accounts_step h.accounts hplain).sent_of_idle hanswered.idle

end Link

end SerialBridge
