import SerialBridge.Proofs.Link.Moves
import SerialBridge.Proofs.Link.Reports
import SerialBridge.Proofs.Outbound.Stream

/-!
# Accounts of a link

Whatever order the callers, the engine and the pump move in, every accepted byte was written, is
being written or is still in the engine, and every failed write that is to be reported is known to
the engine or to the pump. While the engine is idle the pump has no work.
-/

namespace SerialBridge

namespace Pump

/-- The bytes of the physical write in progress. -/
def inFlight : Pump → Bytes
  | .writing data => data
  | _ => []

/-- The failure that the engine does not know yet. -/
def undelivered? : Pump → Option Failure
  | .failed f => some f
  | _ => none

/-- Whether a physical write is in progress or its failure still to be delivered. -/
def isBusy : Pump → Bool
  | .writing _ | .failed _ => true
  | _ => false

theorem undelivered?_of_not_busy {p : Pump} (h : p.isBusy = false) : p.undelivered? = none := by
  cases p with
  | failed f => cases h
  | _ => rfl

theorem inFlight_of_not_busy {p : Pump} (h : p.isBusy = false) : p.inFlight = [] := by
  cases p with
  | writing data => cases h
  | _ => rfl

end Pump

namespace Link

open Effect (sent unreported? verdict)

/-- The bytes that an event has the engine accept. -/
def Event.written : Event → Bytes
  | .write data => data
  | _ => []

/-- The bytes that events have the engine accept, one write after another. -/
def written (events : List Event) : Bytes := events.flatMap Event.written

/-- Every accepted byte was sent, is being sent or waits for the pump; an idle engine has a pump
without work; and the failure to report is the one that the engine holds or the pump has yet to
deliver. -/
structure Accounts (l : Link Bytes) (accepted : Bytes) (past : List Effect) : Prop where
  sends : l.engine.Sends
  bytes : sent past ++ l.pump.inFlight ++ l.engine.outbound.remaining = accepted
  idle : l.engine.transmitting = false → l.pump.isBusy = false
  failure : l.serving = true →
    unreported? past = l.engine.outbound.failure.or l.pump.undelivered?

theorem accounts_new (choices : List Setting) : Accounts (new (Settings.build choices)) [] [] :=
  ⟨Engine.sends_new choices, rfl, fun _ => rfl, fun _ => rfl⟩

variable {l l' : Link Bytes} {accepted : Bytes} {past effects : List Effect}

/-- With an idle engine everything accepted was sent. -/
theorem Accounts.sent_of_idle (h : Accounts l accepted past)
    (hidle : l.engine.transmitting = false) : sent past = accepted := by
  have hb := h.bytes
  have hm := (Engine.not_transmitting_iff _).mp hidle
  rwa [Pump.inFlight_of_not_busy (h.idle hidle), h.sends.outbound.remaining_idle hm,
    List.append_nil, List.append_nil] at hb

/-- With an idle engine the failure to report is the one that it holds. -/
theorem Accounts.failure_of_idle (h : Accounts l accepted past) (hserving : l.serving = true)
    (hidle : l.engine.transmitting = false) : unreported? past = l.engine.outbound.failure := by
  rw [h.failure hserving, Pump.undelivered?_of_not_busy (h.idle hidle), Option.or_none]

/-- The engine moves and the pump does not. -/
theorem Accounts.of_engine {engine : Engine Bytes} {added : Bytes} {effects : List Effect}
    (h : Accounts l accepted past) (hs : engine.Sends)
    (hr : engine.outbound.remaining = l.engine.outbound.remaining ++ added)
    (ht : engine.transmitting = false → l.pump.isBusy = false)
    (hw : ∀ x ∈ effects, x.write? = none)
    (hf : unreported? past = l.engine.outbound.failure.or l.pump.undelivered? →
      unreported? (past ++ effects) = engine.outbound.failure.or l.pump.undelivered?) :
    Accounts { l with engine := engine } (accepted ++ added) (past ++ effects) := by
  refine ⟨hs, ?_, ht, fun hserving => hf (h.failure hserving)⟩
  rw [Effect.sent_append, Effect.sent_eq_nil hw, List.append_nil, hr, ← List.append_assoc, h.bytes]

/-- The engine makes a step that shows no more than log entries and answers to reads. Such a step
does not end a burst, so an engine that is idle behind it was so before. -/
theorem Accounts.of_quiet (h : Accounts l accepted past) (event : Engine.Event)
    (hne : event ≠ .chunkTaken)
    (hq : ∀ x ∈ (l.engine.step event).2, x.Quiet)
    (hf : (l.engine.step event).1.outbound.failure = l.engine.outbound.failure) :
    Accounts { l with engine := (l.engine.step event).1 } (accepted ++ event.written)
      (past ++ (l.engine.step event).2) := by
  have hr := Engine.remaining_step h.sends event
  have hn : l.engine.handedOff event = [] := by cases event <;> simp_all [Engine.handedOff]
  rw [hn, List.flatMap_nil, List.nil_append] at hr
  refine h.of_engine (Engine.sends_step h.sends event) hr ?_ (fun x hx => (hq x hx).1) ?_
  · intro ht
    cases hactive : l.engine.transmitting with
    | false => exact h.idle hactive
    | true => exact absurd (Engine.event_of_end h.sends hactive ht).1 hne
  · intro hu
    rw [Effect.unreported?_quiet _ hq, hf, hu]

/-! ## One move -/

theorem accounts_flush (h : Accounts l accepted past) (hserving : l.serving = true) (id : Nat) :
    Accounts { l with engine := (l.engine.step (.flush id)).1 } (accepted ++ [])
      (past ++ (l.engine.step (.flush id)).2) := by
  cases hactive : l.engine.transmitting with
  | true =>
    have hm := (Engine.transmitting_iff _).mp hactive
    have he : (l.engine.step (.flush id)).2 = [] := by
      simp only [Engine.step, Engine.withOutbound, Outbound.flush, hm]
    refine h.of_quiet (.flush id) (by simp) ?_ ?_
    · rw [he]
      intro x hx
      cases hx
    · simp only [Engine.step, Engine.withOutbound, Outbound.flush, hm]
  | false =>
    have hm := (Engine.not_transmitting_iff _).mp hactive
    have hu := h.failure_of_idle hserving hactive
    have he : (l.engine.step (.flush id)).2 =
        [.replied id (.flush (verdict (unreported? past)))] := by
      simp only [Engine.step, Engine.withOutbound, Outbound.flush, hm, hu,
        Outbound.outcome_eq_verdict]
    have hf : (l.engine.step (.flush id)).1.outbound.failure = none := by
      simp only [Engine.step, Engine.withOutbound, Outbound.flush, hm]
    have hr := (Outbound.sameOffer_flush l.engine.outbound id).remaining
    refine h.of_engine (Engine.sends_step h.sends _) ?_ (fun _ => h.idle hactive) ?_ fun _ => ?_
    · exact hr.trans (List.append_nil _).symm
    · rw [he]
      simp [Effect.write?]
    · rw [he, hf, Effect.unreported?_answer, Pump.undelivered?_of_not_busy (h.idle hactive)]
      rfl

/-- A hand-off to a pump without work shows nothing, unless it ends the burst: then the flushes are
told what there is to report. -/
theorem chunkTaken_cases (h : Accounts l accepted past) (hserving : l.serving = true)
    (hbusy : l.pump.isBusy = false) :
    (l.engine.step .chunkTaken).2 = [] ∧
        (l.engine.step .chunkTaken).1.outbound.failure = unreported? past ∨
      l.engine.outbound.chunk.bytes = [] ∧
        (l.engine.step .chunkTaken).2 =
          .logged .idle :: Outbound.answers (verdict (unreported? past)) l.engine.outbound.waiting ∧
        (l.engine.step .chunkTaken).1.transmitting = false ∧
        (l.engine.step .chunkTaken).1.outbound.failure =
          if l.engine.outbound.waiting = [] then unreported? past else none := by
  have hpos : 0 < l.engine.settings.maxChunk := h.sends.settings.1
  have hf := h.failure hserving
  rw [Pump.undelivered?_of_not_busy hbusy, Option.or_none] at hf
  obtain ⟨-, ht⟩ | ⟨-, -, ht⟩ | ⟨-, he, ht⟩ := Outbound.taken_cases hpos l.engine.outbound
  · exact .inl (by simp [Engine.step, Engine.withOutbound, ht, hf])
  · exact .inl (by simp [Engine.step, Engine.withOutbound, ht, hf])
  · refine .inr ⟨(Chunk.isEmpty_iff_bytes h.sends.outbound.wellFormed).mp he, ?_, ?_, ?_⟩
    · simp only [Engine.step, Engine.withOutbound, ht, Outbound.settle, hf,
        ← Outbound.outcome_eq_verdict]
      rfl
    · rw [Engine.not_transmitting_iff]
      simp only [Engine.step, Engine.withOutbound, ht, Outbound.settle_mode]
    · simp only [Engine.step, Engine.withOutbound, ht, Outbound.settle, hf]
      split <;> rfl

/-- A hand-off of bytes: they pass to the pump. -/
theorem accounts_handOff_bytes (h : Accounts l accepted past) (hpump : l.pump = .ready)
    (hserving : l.serving = true) (hactive : l.engine.transmitting = true)
    (hd : l.engine.outbound.chunk.bytes ≠ []) :
    Accounts { l with
        engine := (l.engine.step .chunkTaken).1
        pump := .writing l.engine.outbound.chunk.bytes } accepted
      (past ++ .logged (.sending l.engine.outbound.chunk.bytes) ::
        (l.engine.step .chunkTaken).2) := by
  have hr := Engine.remaining_step h.sends .chunkTaken
  have hmode := Engine.transmitting_of_bytes h.sends hactive hd
  obtain ⟨heffects, hfailure⟩ | ⟨hempty, -⟩ := chunkTaken_cases h hserving (by rw [hpump]; rfl)
  · have hq : ∀ x ∈ [Effect.logged (.sending l.engine.outbound.chunk.bytes)], x.Quiet := by
      simp [Effect.quiet_logged]
    rw [heffects]
    refine ⟨Engine.sends_step h.sends _, ?_, ?_, fun _ => ?_⟩
    · have hb := h.bytes
      simp only [hpump, Pump.inFlight, List.append_nil] at hb
      rw [Engine.handedOff, List.flatMap_singleton] at hr
      simp only [Effect.sent_append, Effect.sent_eq_nil (fun x hx => (hq x hx).1), Pump.inFlight,
        List.append_nil]
      rw [List.append_assoc, hr, ← hb]
      exact congrArg _ (List.append_nil _)
    · intro hidle
      cases hmode.symm.trans hidle
    · rw [Effect.unreported?_quiet _ hq, hfailure]
      exact (Option.or_none).symm
  · exact absurd hempty hd

/-- A hand-off of an empty chunk: at the end of a burst its flushes are answered. -/
theorem accounts_handOff_empty (h : Accounts l accepted past) (hpump : l.pump = .ready)
    (hserving : l.serving = true) (hd : l.engine.outbound.chunk.bytes = []) :
    Accounts { l with engine := (l.engine.step .chunkTaken).1 } (accepted ++ [])
      (past ++ (l.engine.step .chunkTaken).2) := by
  have hbusy : l.pump.isBusy = false := by
    rw [hpump]
    rfl
  have hr := Engine.remaining_step h.sends .chunkTaken
  rw [Engine.handedOff, List.flatMap_singleton, hd, List.nil_append] at hr
  have hs := Engine.sends_step h.sends .chunkTaken
  obtain ⟨heffects, hfailure⟩ | ⟨-, heffects, -, hfailure⟩ := chunkTaken_cases h hserving hbusy
  · refine h.of_engine hs hr (fun _ => hbusy) ?_ fun _ => ?_
    · simp [heffects]
    · rw [heffects, hfailure, List.append_nil, Pump.undelivered?_of_not_busy hbusy, Option.or_none]
  · refine h.of_engine hs hr (fun _ => hbusy) ?_ fun _ => ?_
    · rw [heffects]
      intro x hx
      rcases List.mem_cons.mp hx with rfl | hx
      · rfl
      · exact Outbound.write?_answers _ _ x hx
    · have ha := Outbound.unreported?_answers (past ++ [.logged .idle]) l.engine.outbound.waiting
      rw [Effect.unreported?_idle, List.append_assoc, List.singleton_append] at ha
      rw [heffects, hfailure, ha, Pump.undelivered?_of_not_busy hbusy, Option.or_none]

theorem accounts_complete (h : Accounts l accepted past) {failure : Option Failure}
    (hs : l.complete? failure = some (l', effects)) : Accounts l' accepted (past ++ effects) := by
  obtain ⟨data, hpump, hend⟩ := eq_of_complete? hs
  have hb := h.bytes
  have hf := h.failure
  simp only [hpump, Pump.inFlight] at hb
  simp only [hpump, Pump.undelivered?, Option.or_none] at hf
  have hactive : l.engine.transmitting ≠ false := by
    intro hidle
    have hbusy := h.idle hidle
    rw [hpump] at hbusy
    cases hbusy
  obtain ⟨rfl, rfl, rfl⟩ | ⟨f, rfl, rfl, rfl⟩ := hend
  · refine ⟨h.sends, ?_, fun _ => rfl, fun hserving => ?_⟩
    · rw [← hb]
      simp [sent, Effect.writes, Effect.write?, Pump.inFlight]
    · rw [Effect.unreported?_append (by simp [Effect.isFlushError]), hf hserving]
      rfl
  · refine ⟨h.sends, ?_, fun hidle => absurd hidle hactive, fun hserving => ?_⟩
    · rw [← hb]
      simp [sent, Effect.writes, Effect.write?, Pump.inFlight]
    · rw [Effect.unreported?_append (by simp [Effect.isFlushError]), hf hserving]
      rfl

theorem accounts_report (h : Accounts l accepted past) (hs : l.report? = some (l', effects)) :
    Accounts l' accepted (past ++ effects) := by
  obtain ⟨f, hpump, ⟨hserving, rfl, rfl⟩ | ⟨hgone, rfl, rfl⟩⟩ := eq_of_report? hs
  all_goals
    have hb := h.bytes
    simp only [hpump, Pump.inFlight] at hb
  · have hf := h.failure hserving
    have hq : ∀ x ∈ (l.engine.step (.writeFailed f)).2, x.Quiet :=
      Outbound.quiet_failed l.engine.outbound f
    have hr := (Outbound.sameOffer_failed l.engine.outbound f).remaining
    refine ⟨Engine.sends_step h.sends (.writeFailed f), ?_, fun _ => rfl, fun _ => ?_⟩
    · rw [Effect.sent_append, Effect.sent_eq_nil (fun x hx => (hq x hx).1), List.append_nil, ← hb]
      exact congrArg _ hr
    · rw [Effect.unreported?_quiet _ hq, hf, hpump]
      simp only [Engine.step, Engine.withOutbound, Outbound.failed, Pump.undelivered?]
      cases hheld : l.engine.outbound.failure with
      | none => rfl
      | some held => simp [hheld]
  · have hq : ∀ x ∈ [Effect.logged .reportDropped], x.Quiet := by simp [Effect.quiet_logged]
    refine ⟨h.sends, ?_, fun _ => rfl, ?_⟩
    · rw [Effect.sent_append, Effect.sent_eq_nil (fun x hx => (hq x hx).1), List.append_nil, ← hb]
      rfl
    · intro hserving
      cases hgone.symm.trans hserving

/-- An engine that ends answers every flush with `closed` and shows no physical write. -/
theorem effects_of_shutdown? {Q : Type} {l l' : Link Q}
    (hs : l.shutdown? = some (l', effects)) :
    ∀ x ∈ effects, x.write? = none ∧
      ∀ result, x.flushReply? = some result → result = .error .closed := by
  obtain ⟨-, -, -, rfl⟩ := eq_of_shutdown? hs
  intro x hx
  simp only [Engine.shutdown, Outbound.close, Inbound.close, List.mem_append, List.mem_cons,
    List.mem_map] at hx
  rcases hx with hx | rfl | ⟨id, -, rfl⟩ | ⟨r, -, rfl⟩
  · split at hx
    · cases hx
    · rw [List.mem_singleton.mp hx]
      exact ⟨rfl, fun _ hr => by cases hr⟩
  · exact ⟨rfl, fun _ hr => by cases hr⟩
  · exact ⟨rfl, fun result hr => (Option.some.inj hr).symm⟩
  · exact ⟨rfl, fun _ hr => by cases hr⟩

theorem accounts_shutdown (h : Accounts l accepted past) (hs : l.shutdown? = some (l', effects)) :
    Accounts l' accepted (past ++ effects) := by
  have hw := effects_of_shutdown? hs
  obtain ⟨-, -, rfl, -⟩ := eq_of_shutdown? hs
  refine ⟨⟨h.sends.settings, ⟨h.sends.outbound.wellFormed, h.sends.outbound.fits, fun hm => ?_⟩⟩,
    ?_, h.idle, fun hserving => ?_⟩
  · obtain ⟨he, hq, -⟩ := h.sends.outbound.idle hm
    exact ⟨he, hq, rfl⟩
  · rw [Effect.sent_append, Effect.sent_eq_nil (fun x hx => (hw x hx).1), List.append_nil]
    exact h.bytes
  · cases hserving

theorem accounts_halt (h : Accounts l accepted past) (hs : l.halt? = some (l', effects)) :
    Accounts l' accepted (past ++ effects) := by
  obtain ⟨hpump, -, rfl, rfl⟩ := eq_of_halt? hs
  have hb := h.bytes
  have hf := h.failure
  rw [hpump] at hb hf
  rw [List.append_nil]
  exact ⟨h.sends, hb, fun _ => rfl, hf⟩

/-- Every move keeps the accounts. -/
theorem accounts_step (h : Accounts l accepted past) {event : Event}
    (hs : l.step? event = some (l', effects)) :
    Accounts l' (accepted ++ event.written) (past ++ effects) := by
  have hn : accepted ++ [] = accepted := List.append_nil accepted
  cases event with
  | read id length =>
    obtain ⟨-, rfl, rfl⟩ := eq_of_feed? (.read id length) hs
    exact h.of_quiet (.read id length) (by simp) (Inbound.quiet_read _ id length) rfl
  | write data =>
    obtain ⟨-, rfl, rfl⟩ := eq_of_feed? (.write data) hs
    refine h.of_quiet (.write data) (by simp) (Outbound.quiet_write _ _ data) ?_
    exact Outbound.failure_write l.engine.outbound _ data
  | flush id =>
    obtain ⟨hserving, rfl, rfl⟩ := eq_of_feed? (.flush id) hs
    exact accounts_flush h hserving id
  | incoming n =>
    obtain ⟨-, rfl, rfl⟩ := eq_of_feed? (.incoming n) hs
    exact h.of_quiet (.incoming n) (by simp) (Inbound.quiet_incoming _ n) rfl
  | handOff =>
    obtain ⟨hpump, hserving, hactive, ⟨hd, rfl, rfl⟩ | ⟨hd, rfl, rfl⟩⟩ := eq_of_handOff? hs
    · exact accounts_handOff_empty h hpump hserving hd
    · exact hn.symm ▸ accounts_handOff_bytes h hpump hserving hactive hd
  | complete failure => exact hn.symm ▸ accounts_complete h hs
  | report => exact hn.symm ▸ accounts_report h hs
  | close =>
    obtain ⟨rfl, rfl⟩ := Prod.mk.inj (Option.some.inj hs)
    rw [List.append_nil]
    exact hn.symm ▸ ⟨h.sends, h.bytes, h.idle, h.failure⟩
  | unsubscribe =>
    obtain ⟨rfl, rfl⟩ := Prod.mk.inj (Option.some.inj hs)
    rw [List.append_nil]
    exact hn.symm ▸ ⟨h.sends, h.bytes, h.idle, h.failure⟩
  | shutdown => exact hn.symm ▸ accounts_shutdown h hs
  | halt => exact hn.symm ▸ accounts_halt h hs

/-- Every run keeps the accounts. -/
theorem accounts_run (h : Accounts l accepted past) {events : List Event}
    (hr : l.run? events = some (l', effects)) :
    Accounts l' (accepted ++ written events) (past ++ effects) := by
  induction events generalizing l accepted past effects with
  | nil =>
    obtain ⟨rfl, rfl⟩ := Prod.mk.inj (Option.some.inj hr)
    rw [List.append_nil]
    exact (List.append_nil accepted).symm ▸ h
  | cons event rest ih =>
    obtain ⟨next, first, later, hs, hrest, rfl⟩ := eq_of_run?_cons hr
    have hlast := ih (accounts_step h hs) hrest
    rwa [List.append_assoc, List.append_assoc] at hlast

end Link

end SerialBridge
