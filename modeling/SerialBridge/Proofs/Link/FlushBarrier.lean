import SerialBridge.Proofs.Link.Accounts
import SerialBridge.Proofs.Plain

/-!
# Flush is a barrier

An answer to a flush comes when every byte accepted before it has been written and every failure has
been delivered. It names the first failure that no flush has reported, if there is one.
-/

namespace SerialBridge

namespace Link

open Effect (sent unreported? verdict)

variable {l : Link Bytes} {accepted : Bytes} {past : List Effect}

/-- A step whose effects answer no flush, against one that does. -/
theorem not_answered {effects earlier later : List Effect} {id : Nat}
    {result : Except CallError Unit} (h : ∀ x ∈ effects, x.flushReply? = none)
    (he : earlier ++ .replied id (.flush result) :: later = effects) : False := by
  have hx := h (.replied id (.flush result)) (by rw [← he]; simp)
  cases hx

/-- What holds around a step that answers a flush, with some effects before that answer. -/
structure Answered (l l' : Link Bytes) (past effects earlier : List Effect)
    (result : Except CallError Unit) : Prop where
  idle : l'.engine.transmitting = false
  before : l.pump.isBusy = false
  after : l'.pump.isBusy = false
  silent : ∀ x ∈ effects, x.write? = none
  result : result = verdict (unreported? (past ++ earlier))

variable {l' : Link Bytes} {effects earlier later : List Effect} {id : Nat}
  {result : Except CallError Unit}

theorem answered_flush (h : Accounts l accepted past) {request : Nat}
    (hs : l.feed? (.flush request) = some (l', effects))
    (he : earlier ++ .replied id (.flush result) :: later = effects) :
    Answered l l' past effects earlier result := by
  obtain ⟨hserving, rfl, rfl⟩ := eq_of_feed? (.flush request) hs
  cases hactive : l.engine.transmitting with
  | true =>
    have hm := (Engine.transmitting_iff _).mp hactive
    simp [Engine.step, Engine.withOutbound, Outbound.flush, hm] at he
  | false =>
    have hm := (Engine.not_transmitting_iff _).mp hactive
    have hidle := h.idle hactive
    have hreply : (l.engine.step (.flush request)).2 =
        Outbound.answers (verdict (unreported? past)) [request] := by
      simp only [Engine.step, Engine.withOutbound, Outbound.flush, hm, Outbound.outcome_eq_verdict,
        h.failure_of_idle hserving hactive]
      rfl
    rw [hreply] at he ⊢
    refine ⟨?_, hidle, hidle, Outbound.write?_answers _ _, ?_⟩
    · have hkeep := (Outbound.sameOffer_flush l.engine.outbound request).mode
      exact (Engine.not_transmitting_iff _).mpr (hkeep.trans hm)
    · exact Outbound.result_of_answers past he.symm

theorem answered_handOff (h : Accounts l accepted past)
    (hs : l.handOff? = some (l', effects))
    (he : earlier ++ .replied id (.flush result) :: later = effects) :
    Answered l l' past effects earlier result := by
  obtain ⟨hpump, hserving, -, ⟨-, rfl, rfl⟩ | ⟨hd, -, rfl⟩⟩ := eq_of_handOff? hs
  all_goals
    have hbusy : l.pump.isBusy = false := by
      rw [hpump]
      rfl
  · obtain ⟨heffects, -⟩ | ⟨-, heffects, hidle, -⟩ := chunkTaken_cases h hserving hbusy
    · simp [heffects] at he
    · rw [heffects] at he ⊢
      refine ⟨hidle, hbusy, hbusy, ?_, ?_⟩
      · intro x hx
        rcases List.mem_cons.mp hx with rfl | hx
        · rfl
        · exact Outbound.write?_answers _ _ x hx
      · cases earlier with
        | nil => simp at he
        | cons first earlier =>
          simp only [List.cons_append, List.cons.injEq] at he
          obtain ⟨rfl, he⟩ := he
          rw [← Effect.unreported?_idle past] at he
          have hr := Outbound.result_of_answers _ he.symm
          rwa [List.append_assoc, List.singleton_append] at hr
  · obtain ⟨heffects, -⟩ | ⟨hempty, -⟩ := chunkTaken_cases h hserving hbusy
    · rw [heffects] at he
      exact (not_answered (by simp [Effect.flushReply?]) he).elim
    · exact absurd hempty hd

/-- Flushes are answered by an idle engine at once, or by the hand-off that ends a burst. -/
theorem answered_step (h : Accounts l accepted past) {event : Event}
    (hs : l.step? event = some (l', effects))
    (he : earlier ++ .replied id (.flush result) :: later = effects)
    (hopen : result ≠ .error .closed) : Answered l l' past effects earlier result := by
  cases event with
  | read request length =>
    obtain ⟨-, -, rfl⟩ := eq_of_feed? (.read request length) hs
    exact (not_answered (fun x hx => (Inbound.quiet_read _ request length x hx).2) he).elim
  | write data =>
    obtain ⟨-, -, rfl⟩ := eq_of_feed? (.write data) hs
    exact (not_answered (fun x hx => (Outbound.quiet_write _ _ data x hx).2) he).elim
  | incoming n =>
    obtain ⟨-, -, rfl⟩ := eq_of_feed? (.incoming n) hs
    exact (not_answered (fun x hx => (Inbound.quiet_incoming _ n x hx).2) he).elim
  | flush request => exact answered_flush h hs he
  | handOff => exact answered_handOff h hs he
  | complete failure =>
    obtain ⟨data, -, ⟨-, -, rfl⟩ | ⟨f, -, -, rfl⟩⟩ := eq_of_complete? hs
    · exact (not_answered (by simp [Effect.flushReply?]) he).elim
    · exact (not_answered (by simp [Effect.flushReply?]) he).elim
  | report =>
    obtain ⟨f, -, ⟨-, -, rfl⟩ | ⟨-, -, rfl⟩⟩ := eq_of_report? hs
    · exact (not_answered (fun x hx => (Outbound.quiet_failed _ f x hx).2) he).elim
    · exact (not_answered (by simp [Effect.flushReply?]) he).elim
  | close =>
    obtain ⟨-, rfl⟩ := Prod.mk.inj (Option.some.inj hs)
    exact absurd he (by simp)
  | unsubscribe =>
    obtain ⟨-, rfl⟩ := Prod.mk.inj (Option.some.inj hs)
    exact absurd he (by simp)
  | shutdown =>
    have hclosed := effects_of_shutdown? hs (.replied id (.flush result)) (by simp [← he])
    exact absurd (hclosed.2 result rfl) hopen
  | halt =>
    obtain ⟨-, -, -, rfl⟩ := eq_of_halt? hs
    exact absurd he (by simp)

/-- When a flush is answered with anything but `closed`, the physical writes that ended carried just
the bytes of all writes accepted so far, the pump has no work and no failure to deliver, and the
answer is the first failure since a flush was last answered with an error. -/
theorem flush_barrier (choices : List Setting) {before : List Event} {event : Event}
    {l next : Link Ring} {past earlier later : List Effect} {id : Nat}
    {result : Except CallError Unit}
    (hrun : (new (Settings.build choices)).run? before = some (l, past))
    (hstep : l.step? event = some (next, earlier ++ .replied id (.flush result) :: later))
    (hopen : result ≠ .error .closed) :
    sent (past ++ earlier) = written (before ++ [event]) ∧
      l.pump.isBusy = false ∧ next.pump.isBusy = false ∧
      result = verdict (unreported? (past ++ earlier)) := by
  obtain ⟨hr, hv⟩ := run?_new_plain (Settings.build choices) before
  rw [hrun, Option.map_some] at hr
  obtain ⟨hs, -⟩ := step?_plain (hv _ hrun) event
  rw [hstep, Option.map_some] at hs
  have haccounts : Accounts l.plain (written before) past := accounts_run (accounts_new choices) hr
  have hnext := accounts_step haccounts hs
  have hanswered := answered_step haccounts hs rfl hopen
  refine ⟨?_, hanswered.before, hanswered.after, hanswered.result⟩
  have hearlier : sent earlier = [] :=
    Effect.sent_eq_nil fun x hx => hanswered.silent x (List.mem_append_left _ hx)
  have hsent := hnext.sent_of_idle hanswered.idle
  rw [Effect.sent_append, Effect.sent_eq_nil hanswered.silent, List.append_nil] at hsent
  rw [Effect.sent_append, hearlier, List.append_nil, hsent, written, written, List.flatMap_append,
    List.flatMap_singleton]

/-- Three bytes leave in two chunks, the first of which fails, and the hand-off after them answers a
flush that waited for all of it. -/
theorem flush_barrier_after_failure :
    ∃ (l next : Link Ring) (past : List Effect),
      (new (Settings.build [.maxChunk 2, .queueGrowth 4])).run?
        [.write [1, 2, 3], .flush 7, .handOff, .complete (some (.oversized 2)), .report, .handOff,
          .complete none] = some (l, past) ∧
      l.step? .handOff = some (next,
        [.logged .idle] ++ .replied 7 (.flush (.error (.transport (.oversized 2)))) :: []) ∧
      sent (past ++ [.logged .idle]) = [1, 2, 3] ∧
      l.pump.isBusy = false ∧ next.pump.isBusy = false ∧
      .error (.transport (.oversized 2)) = verdict (unreported? (past ++ [.logged .idle])) := by
  have hall : (((new (Settings.build [.maxChunk 2, .queueGrowth 4]) : Link Ring).run?
      [.write [1, 2, 3], .flush 7, .handOff, .complete (some (.oversized 2)), .report, .handOff,
        .complete none]).bind fun r => (r.1.step? .handOff).map fun s => s.2) =
      some [.logged .idle, .replied 7 (.flush (.error (.transport (.oversized 2))))] := by
    decide +kernel
  obtain ⟨⟨l, past⟩, hrun, hlast⟩ := Option.bind_eq_some_iff.mp hall
  obtain ⟨⟨next, effects⟩, hs, rfl⟩ := Option.map_eq_some_iff.mp hlast
  have hstep : l.step? .handOff = some (next,
      [.logged .idle] ++ .replied 7 (.flush (.error (.transport (.oversized 2)))) :: []) := hs
  exact ⟨l, next, past, hrun, hstep, flush_barrier _ hrun hstep (by simp)⟩

end Link

end SerialBridge
