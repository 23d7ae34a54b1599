import SerialBridge.Engine
import SerialBridge.Proofs.Outbound.Ledger
import SerialBridge.Queue

/-!
# What becomes of failed writes

Every failed write is told to a flush once, or held for the next one, or was logged because an
earlier one was held. Flushes are answered in order, and of several that are answered together only
the oldest can be told of a failure. Shutting down tells nobody and keeps what is held.
-/

namespace SerialBridge

open Effect (verdict)

namespace Outbound

variable {Q : Type} [ByteQueue Q]

/-- A hand-off changes nothing for the flushes, or settles with them. -/
theorem taken_keeps_or_settles (s : Outbound Q) (maxChunk : Nat) :
    (∃ queue chunk, s.taken maxChunk = ({ s with queue := queue, chunk := chunk }, [])) ∨
      ∃ queue, s.taken maxChunk = ({ s with queue := queue } : Outbound Q).settle := by
  simp only [taken]
  split
  · exact .inl ⟨_, _, rfl⟩
  · split
    · exact .inr ⟨_, rfl⟩
    · exact .inl ⟨_, _, rfl⟩

theorem flushes_answers (outcome : Except CallError Unit) (waiting : List Nat) :
    (answers outcome waiting).filterMap Effect.flush? = waiting := by
  induction waiting generalizing outcome with
  | nil => rfl
  | cons id rest ih =>
    rw [answers_cons]
    exact congrArg (id :: ·) (ih (.ok ()))

/-- Only the oldest of some flushes is told the outcome. -/
theorem told_answers (outcome : Except CallError Unit) (id : Nat) (rest : List Nat) :
    (answers outcome (id :: rest)).filterMap Effect.flushReply? =
      outcome :: List.replicate rest.length (.ok ()) := by
  induction rest generalizing outcome id with
  | nil => rfl
  | cons next rest ih =>
    rw [answers_cons]
    exact congrArg (outcome :: ·) (ih (.ok ()) next)

end Outbound

namespace Engine

variable {Q : Type} [ByteQueue Q]

/-- What a move adds to the history of failed writes. -/
def happenings (e : Engine Q) : Move → List Happening
  | .event (.writeFailed f) => [.failed f (e.step (.writeFailed f)).2]
  | move => (e.move move).2.map .showed

/-- The history of failed writes over some moves. -/
def history (e : Engine Q) : List Move → List Happening
  | [] => []
  | move :: rest => e.happenings move ++ (e.move move).1.history rest

/-- The flush that a move asks for. -/
def Move.flushed : Move → List Nat
  | .event (.flush id) => [id]
  | _ => []

open Happening (Ledger)

theorem ledger_flush (e : Engine Q) (id : Nat) :
    Ledger e.outbound.failure ((e.step (.flush id)).2.map .showed)
      (e.step (.flush id)).1.outbound.failure := by
  have hanswer := Happening.ledger_answers e.outbound.failure [id]
  simp only [step, withOutbound, Outbound.flush]
  cases e.outbound.mode with
  | active => rfl
  | idle =>
    rw [Outbound.outcome_eq_verdict]
    exact hanswer

theorem ledger_taken (e : Engine Q) :
    Ledger e.outbound.failure ((e.step .chunkTaken).2.map .showed)
      (e.step .chunkTaken).1.outbound.failure := by
  simp only [step, withOutbound]
  obtain ⟨queue, chunk, ht⟩ | ⟨queue, ht⟩ :=
    e.outbound.taken_keeps_or_settles e.settings.maxChunk
  · rw [ht]
    rfl
  · have hanswers := Happening.ledger_answers e.outbound.failure e.outbound.waiting
    rw [ht, Outbound.settle_failure]
    refine ⟨trivial, ?_⟩
    rw [Outbound.outcome_eq_verdict]
    exact hanswers

theorem ledger_failed (e : Engine Q) (f : Failure) :
    Ledger e.outbound.failure (e.happenings (.event (.writeFailed f)))
      (e.step (.writeFailed f)).1.outbound.failure := by
  simp only [happenings, step, withOutbound, Outbound.failed]
  cases hf : e.outbound.failure with
  | none => exact ⟨rfl, rfl⟩
  | some held => exact ⟨rfl, hf.symm⟩

omit [ByteQueue Q] in
theorem ledger_shutdown (e : Engine Q) :
    Ledger e.outbound.failure (e.shutdown.2.map .showed) e.shutdown.1.outbound.failure := by
  have hflushes := Happening.ledger_closed e.outbound.failure e.outbound.waiting
  have hreads : Ledger e.outbound.failure (e.inbound.close.2.map .showed) e.outbound.failure := by
    apply Happening.ledger_quiet
    intro x hx
    obtain ⟨r, -, rfl⟩ := List.mem_map.mp hx
    rfl
  simp only [shutdown, Outbound.close, List.map_cons, List.map_append, List.map_map]
  exact ⟨trivial, Happening.ledger_append hflushes hreads⟩

/-- Every move keeps the ledger. -/
theorem ledger_move (e : Engine Q) (move : Move) :
    Ledger e.outbound.failure (e.happenings move) (e.move move).1.outbound.failure := by
  cases move with
  | shutdown => exact ledger_shutdown e
  | event event =>
    cases event with
    | read id length =>
      exact Happening.ledger_quiet fun x hx => (Inbound.quiet_read _ id length x hx).2
    | incoming n =>
      exact Happening.ledger_quiet fun x hx => (Inbound.quiet_incoming _ n x hx).2
    | write data =>
      have hf : (e.move (.event (.write data))).1.outbound.failure = e.outbound.failure :=
        Outbound.failure_write e.outbound e.settings.maxChunk data
      rw [hf]
      exact Happening.ledger_quiet fun x hx => (Outbound.quiet_write _ _ data x hx).2
    | flush id => exact ledger_flush e id
    | chunkTaken => exact ledger_taken e
    | writeFailed f => exact ledger_failed e f

/-- Every history keeps the ledger. -/
theorem ledger_history (e : Engine Q) (moves : List Move) :
    Ledger e.outbound.failure (e.history moves) (e.after moves).outbound.failure := by
  induction moves generalizing e with
  | nil => rfl
  | cons move rest ih => exact Happening.ledger_append (ledger_move e move) (ih _)

/-! ## Order of the flushes -/

/-- An idle engine has no flush waiting. -/
def Orderly (e : Engine Q) : Prop := e.outbound.mode = .idle → e.outbound.waiting = []

theorem flushes_happenings (e : Engine Q) (move : Move) :
    (e.happenings move).filterMap Happening.flush? = (e.move move).2.filterMap Effect.flush? := by
  have hshowed (effects : List Effect) :
      (effects.map .showed).filterMap Happening.flush? = effects.filterMap Effect.flush? := by
    rw [List.filterMap_map]
    rfl
  cases move with
  | shutdown => exact hshowed _
  | event event =>
    cases event with
    | writeFailed f =>
      have hquiet : (e.step (.writeFailed f)).2.filterMap Effect.flush? = [] :=
        List.filterMap_eq_nil_iff.mpr fun x hx =>
          Effect.flush?_of_quiet (Outbound.quiet_failed _ f x hx).2
      exact hquiet.symm
    | _ => exact hshowed _

omit [ByteQueue Q] in
/-- A move that answers no flush. -/
theorem orderly_of_quiet {e e' : Engine Q} (h : Orderly e) {effects : List Effect}
    (hq : ∀ x ∈ effects, x.flushReply? = none)
    (hw : e'.outbound.waiting = e.outbound.waiting)
    (hm : e'.outbound.mode = .active ∨ e'.outbound.mode = e.outbound.mode) :
    Orderly e' ∧ effects.filterMap Effect.flush? ++ e'.outbound.waiting =
      e.outbound.waiting ++ [] := by
  have hnone : effects.filterMap Effect.flush? = [] :=
    List.filterMap_eq_nil_iff.mpr fun x hx => Effect.flush?_of_quiet (hq x hx)
  constructor
  · intro hidle
    obtain hactive | hsame := hm
    · cases hactive.symm.trans hidle
    · rw [hw]
      exact h (hsame.symm.trans hidle)
  · rw [hnone, hw, List.nil_append, List.append_nil]

theorem orderly_flush {e : Engine Q} (h : Orderly e) (id : Nat) :
    Orderly (e.step (.flush id)).1 ∧
      (e.step (.flush id)).2.filterMap Effect.flush? ++ (e.step (.flush id)).1.outbound.waiting =
        e.outbound.waiting ++ [id] := by
  simp only [step, withOutbound, Outbound.flush, Orderly]
  cases hm : e.outbound.mode with
  | active =>
    refine ⟨?_, rfl⟩
    intro hidle
    cases hidle
  | idle =>
    have hw := h hm
    refine ⟨fun _ => hw, ?_⟩
    rw [hw]
    rfl

theorem orderly_taken {e : Engine Q} (h : Orderly e) :
    Orderly (e.step .chunkTaken).1 ∧
      (e.step .chunkTaken).2.filterMap Effect.flush? ++
          (e.step .chunkTaken).1.outbound.waiting = e.outbound.waiting ++ [] := by
  simp only [step, withOutbound, Orderly]
  obtain ⟨queue, chunk, ht⟩ | ⟨queue, ht⟩ :=
    e.outbound.taken_keeps_or_settles e.settings.maxChunk
  · rw [ht]
    exact ⟨h, (List.append_nil _).symm⟩
  · rw [ht, Outbound.settle_waiting]
    refine ⟨fun _ => rfl, ?_⟩
    have hanswers := Outbound.flushes_answers e.outbound.outcome e.outbound.waiting
    rw [List.append_nil, List.append_nil]
    exact hanswers

omit [ByteQueue Q] in
theorem orderly_shutdown (e : Engine Q) :
    Orderly e.shutdown.1 ∧
      e.shutdown.2.filterMap Effect.flush? ++ e.shutdown.1.outbound.waiting =
        e.outbound.waiting ++ [] := by
  have hflushes (waiting : List Nat) :
      (waiting.map fun id => Effect.replied id (.flush (.error .closed))).filterMap
        Effect.flush? = waiting := by
    rw [List.filterMap_map]
    exact List.filterMap_some
  have hreads : e.inbound.close.2.filterMap Effect.flush? = [] := by
    rw [List.filterMap_eq_nil_iff]
    intro x hx
    obtain ⟨r, -, rfl⟩ := List.mem_map.mp hx
    rfl
  refine ⟨fun _ => rfl, ?_⟩
  simp only [shutdown, Outbound.close]
  rw [List.filterMap_cons_none rfl, List.filterMap_append, hflushes, hreads, List.append_nil]

/-- The flushes that a move answers, and then those left waiting, are those that waited, and then
the one that the move asks for. -/
theorem orderly_move {e : Engine Q} (h : Orderly e) (move : Move) :
    Orderly (e.move move).1 ∧
      (e.move move).2.filterMap Effect.flush? ++ (e.move move).1.outbound.waiting =
        e.outbound.waiting ++ move.flushed := by
  cases move with
  | shutdown => exact orderly_shutdown e
  | event event =>
    cases event with
    | read id length =>
      exact orderly_of_quiet h (fun x hx => (Inbound.quiet_read _ id length x hx).2) rfl (.inr rfl)
    | incoming n =>
      exact orderly_of_quiet h (fun x hx => (Inbound.quiet_incoming _ n x hx).2) rfl (.inr rfl)
    | write data =>
      obtain ⟨hw, hm⟩ := Outbound.waiting_write e.outbound e.settings.maxChunk data
      exact orderly_of_quiet h (fun x hx => (Outbound.quiet_write _ _ data x hx).2) hw hm
    | flush id => exact orderly_flush h id
    | chunkTaken => exact orderly_taken h
    | writeFailed f =>
      have hsame : (e.outbound.failed f).1.waiting = e.outbound.waiting ∧
          (e.outbound.failed f).1.mode = e.outbound.mode := by
        rw [Outbound.failed]
        split <;> exact ⟨rfl, rfl⟩
      exact orderly_of_quiet h (fun x hx => (Outbound.quiet_failed _ f x hx).2) hsame.1
        (.inr hsame.2)

theorem flushes_history {e : Engine Q} (h : Orderly e) (moves : List Move) :
    (e.history moves).filterMap Happening.flush? ++ (e.after moves).outbound.waiting =
      e.outbound.waiting ++ moves.flatMap Move.flushed := by
  induction moves generalizing e with
  | nil => exact (List.append_nil _).symm
  | cons move rest ih =>
    obtain ⟨hnext, hmove⟩ := orderly_move h move
    rw [history, List.filterMap_append, List.append_assoc, after_cons, ih hnext,
      flushes_happenings, ← List.append_assoc, hmove, List.append_assoc, List.flatMap_cons]

/-! ## Answers given together -/

/-- Of the flushes that an event answers the oldest is told what there is to tell, and the others
that all is well. -/
theorem told_step (e : Engine Q) (event : Event) :
    (e.step event).2.filterMap Effect.flushReply? = [] ∨
      ∃ others, (e.step event).2.filterMap Effect.flushReply? =
        verdict e.outbound.failure :: List.replicate others (.ok ()) := by
  have hnone {effects : List Effect} (h : ∀ x ∈ effects, x.Quiet) :
      effects.filterMap Effect.flushReply? = [] :=
    List.filterMap_eq_nil_iff.mpr fun x hx => (h x hx).2
  cases event with
  | read id length => exact .inl (hnone (Inbound.quiet_read _ id length))
  | incoming n => exact .inl (hnone (Inbound.quiet_incoming _ n))
  | write data => exact .inl (hnone (Outbound.quiet_write _ _ data))
  | writeFailed f => exact .inl (hnone (Outbound.quiet_failed _ f))
  | flush id =>
    simp only [step, withOutbound, Outbound.flush]
    cases e.outbound.mode with
    | active => exact .inl rfl
    | idle =>
      rw [Outbound.outcome_eq_verdict]
      exact .inr ⟨0, rfl⟩
  | chunkTaken =>
    simp only [step, withOutbound]
    obtain ⟨queue, chunk, ht⟩ | ⟨queue, ht⟩ :=
      e.outbound.taken_keeps_or_settles e.settings.maxChunk
    · rw [ht]
      exact .inl rfl
    · rw [ht, ← Outbound.outcome_eq_verdict]
      simp only [Outbound.settle]
      cases e.outbound.waiting with
      | nil => exact .inl rfl
      | cons id rest => exact .inr ⟨rest.length, Outbound.told_answers _ id rest⟩

omit [ByteQueue Q] in
/-- Shutting down tells no flush more than that the bridge was closed. -/
theorem told_shutdown (e : Engine Q) :
    ∀ result ∈ e.shutdown.2.filterMap Effect.flushReply?, result = .error .closed := by
  intro result hr
  simp only [shutdown, Outbound.close, Inbound.close, List.mem_filterMap, List.mem_cons,
    List.mem_append, List.mem_map] at hr
  obtain ⟨x, rfl | ⟨id, -, rfl⟩ | ⟨r, -, rfl⟩, hx⟩ := hr
  · cases hx
  · exact (Option.some.inj hx).symm
  · cases hx

/-- A hand-off with no flush waiting keeps the failure. -/
theorem failure_taken {e : Engine Q} (h : e.outbound.waiting = []) :
    (e.step .chunkTaken).1.outbound.failure = e.outbound.failure := by
  simp only [step, withOutbound]
  obtain ⟨queue, chunk, ht⟩ | ⟨queue, ht⟩ :=
    e.outbound.taken_keeps_or_settles e.settings.maxChunk
  · rw [ht]
  · rw [ht, Outbound.settle_failure, if_pos h]

/-- Failed writes over every life of an engine. Flushes are answered in the order in which they
were asked for. An answer, unless the bridge was closed, tells of the first failure that came in
since a flush was last told of one; a failure that comes in while there is one to tell is logged as
a warning beside it, and the other failures are told one after another, each once, up to the one
that is held. Of the flushes that one event answers, only the oldest can be told of a failure. An
engine that goes idle with no flush waiting, or is shut down, keeps what it holds. -/
theorem write_failures_reported (settings : Settings) (moves : List Move) :
    let start : Engine Ring := new settings
    let e := start.after moves
    let history := start.history moves
    (history.filterMap Happening.flush? ++ e.outbound.waiting = moves.flatMap Move.flushed) ∧
    (∀ before x later, history = before ++ x :: later →
      x.Right (Happening.untold before).head?) ∧
    (∀ f held, (Log.Entry.writeErrorDropped f held).level = .warn) ∧
    (history.filterMap Happening.captured? =
      history.filterMap Happening.told? ++ e.outbound.failure.toList) ∧
    (∀ event, (e.step event).2.filterMap Effect.flushReply? = [] ∨
      ∃ others, (e.step event).2.filterMap Effect.flushReply? =
        verdict (Happening.untold history).head? :: List.replicate others (.ok ())) ∧
    (e.outbound.waiting = [] → (e.step .chunkTaken).1.outbound.failure = e.outbound.failure) ∧
    (e.shutdown.1.outbound.failure = e.outbound.failure ∧
      ∀ result ∈ e.shutdown.2.filterMap Effect.flushReply?, result = .error .closed) := by
  intro start e history
  have hledger : Ledger none history e.outbound.failure := ledger_history start moves
  have hbalanced := Happening.balanced_ledger Happening.balanced_nil hledger
  rw [List.nil_append] at hbalanced
  have horder : Orderly start := fun _ => rfl
  refine ⟨flushes_history horder moves, ?_, fun _ _ => rfl, hbalanced.settled, ?_,
    failure_taken, rfl, told_shutdown e⟩
  · intro before x later hsplit
    rw [hsplit] at hledger
    obtain ⟨held, hbefore, hx⟩ := Happening.exists_ledger_of_append hledger
    have hb := Happening.balanced_ledger Happening.balanced_nil hbefore
    rw [List.nil_append] at hb
    rw [← hb.oldest]
    exact hx.1
  · intro event
    rw [← hbalanced.oldest]
    exact told_step e event

end Engine

end SerialBridge
