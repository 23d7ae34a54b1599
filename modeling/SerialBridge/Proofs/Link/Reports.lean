import Mathlib.Data.List.DropRight
import SerialBridge.Engine.Inbound
import SerialBridge.Proofs.Outbound.Steps

/-!
# What flushes have to report

Physical writes and answers to flushes are read off the effects of a link. A failed write is to be
reported until a flush is answered with an error; the parts of an engine show nothing about either,
apart from the answers that a burst gives at its end.
-/

namespace SerialBridge

namespace Effect

/-- The bytes of the physical writes that have ended, in order. -/
def sent (effects : List Effect) : Bytes := (writes effects).flatMap Prod.fst

/-- The answer to a flush. -/
def flushReply? : Effect → Option (Except CallError Unit)
  | .replied _ (.flush result) => some result
  | _ => none

def isFlushError : Effect → Bool
  | .replied _ (.flush (.error _)) => true
  | _ => false

/-- The failure of a physical write. -/
def writeFailure? : Effect → Option Failure
  | .wrote _ failure => failure
  | _ => none

/-- The first physical write to fail since a flush was last answered with an error. -/
def unreported? (effects : List Effect) : Option Failure :=
  (effects.rtakeWhile fun x => !x.isFlushError).findSome? writeFailure?

/-- What a flush has to be told about a failure. -/
def verdict : Option Failure → Except CallError Unit
  | none => .ok ()
  | some f => .error (.transport f)

/-- Neither the end of a physical write nor an answer to a flush. -/
def Quiet (x : Effect) : Prop := x.write? = none ∧ x.flushReply? = none

theorem quiet_logged (entry : Log.Entry) : Quiet (.logged entry) := ⟨rfl, rfl⟩

theorem quiet_read (id : Nat) (result : Except CallError Bytes) :
    Quiet (.replied id (.read result)) := ⟨rfl, rfl⟩

@[simp] theorem sent_append (a b : List Effect) : sent (a ++ b) = sent a ++ sent b := by
  simp [sent]

theorem sent_eq_nil {effects : List Effect} (h : ∀ x ∈ effects, x.write? = none) :
    sent effects = [] := by
  have hw : writes effects = [] := List.filterMap_eq_nil_iff.mpr h
  rw [sent, hw]
  rfl

theorem isFlushError_of_quiet {x : Effect} (h : x.Quiet) : x.isFlushError = false := by
  cases x with
  | replied id reply =>
    cases reply with
    | read result => rfl
    | flush result => cases h.2
  | wrote data failure => rfl
  | logged entry => rfl

theorem unreported?_append {past later : List Effect} (h : ∀ x ∈ later, x.isFlushError = false) :
    unreported? (past ++ later) = (unreported? past).or (later.findSome? writeFailure?) := by
  have hr : (past ++ later).rtakeWhile (fun x => !x.isFlushError) =
      past.rtakeWhile (fun x => !x.isFlushError) ++ later := by
    rw [List.rtakeWhile, List.reverse_append, List.takeWhile_append_of_pos, List.reverse_append,
      List.reverse_reverse, List.rtakeWhile]
    intro x hx
    rw [h x (List.mem_reverse.mp hx)]
    rfl
  rw [unreported?, hr, List.findSome?_append, unreported?]

theorem unreported?_quiet (past : List Effect) {later : List Effect} (h : ∀ x ∈ later, x.Quiet) :
    unreported? (past ++ later) = unreported? past := by
  have hn : later.findSome? writeFailure? = none := by
    rw [List.findSome?_eq_none_iff]
    intro x hx
    have hw := (h x hx).1
    cases x with
    | wrote data failure => cases hw
    | _ => rfl
  rw [unreported?_append fun x hx => isFlushError_of_quiet (h x hx), hn, Option.or_none]

theorem unreported?_idle (past : List Effect) :
    unreported? (past ++ [.logged .idle]) = unreported? past :=
  unreported?_quiet past (by simp [quiet_logged])

/-- An answer that tells what there is to tell leaves nothing unreported. -/
theorem unreported?_answer (past : List Effect) (id : Nat) :
    unreported? (past ++ [.replied id (.flush (verdict (unreported? past)))]) = none := by
  cases hu : unreported? past with
  | none =>
    rw [unreported?_append, hu]
    · rfl
    · intro x hx
      rw [List.mem_singleton.mp hx]
      rfl
  | some f =>
    rw [unreported?, List.rtakeWhile_concat_neg _ _ _ (by simp [isFlushError, verdict])]
    rfl

end Effect

/-! ## Effects of the engine -/

namespace Inbound

variable {Q : Type} [ByteQueue Q]

theorem quiet_read (s : Inbound Q) (id length : Nat) : ∀ x ∈ (s.read id length).2, x.Quiet := by
  rw [read]
  cases s.take? length with
  | none =>
    intro x hx
    rw [List.mem_singleton.mp hx]
    exact Effect.quiet_logged _
  | some r =>
    intro x hx
    rw [List.mem_singleton.mp hx]
    exact Effect.quiet_read _ _

theorem quiet_serve (s : Inbound Q) (waiting : List ReadRequest) :
    ∀ x ∈ (s.serve waiting).2, x.Quiet := by
  induction waiting generalizing s with
  | nil =>
    intro x hx
    cases hx
  | cons r rest ih =>
    rw [serve]
    cases s.take? r.length with
    | none =>
      intro x hx
      cases hx
    | some t =>
      intro x hx
      rcases List.mem_cons.mp hx with rfl | hx
      · exact Effect.quiet_read _ _
      · exact ih t.2 x hx

theorem quiet_incoming (s : Inbound Q) (n : Notification) : ∀ x ∈ (s.incoming n).2, x.Quiet := by
  intro x hx
  simp only [incoming, List.mem_cons, List.mem_append] at hx
  rcases hx with rfl | hw | hs
  · exact Effect.quiet_logged _
  · cases hf : n.failure with
    | none =>
      rw [hf] at hw
      cases hw
    | some f =>
      rw [hf] at hw
      rw [List.mem_singleton.mp hw]
      exact Effect.quiet_logged _
  · exact quiet_serve _ _ x hs

end Inbound

namespace Outbound

open Effect (verdict unreported?)

variable {Q : Type}

theorem quiet_failed (s : Outbound Q) (f : Failure) : ∀ x ∈ (s.failed f).2, x.Quiet := by
  rw [failed]
  cases s.failure with
  | none => simp
  | some held => simp [Effect.quiet_logged]

theorem outcome_eq_verdict (s : Outbound Q) : s.outcome = verdict s.failure := by
  rw [outcome]
  cases s.failure <;> rfl

theorem quiet_write [ByteQueue Q] (s : Outbound Q) (maxChunk : Nat) (data : Bytes) :
    ∀ x ∈ (s.write maxChunk data).2, x.Quiet := by
  rw [write]
  split
  · simp
  · cases s.mode <;> simp [stage, Effect.quiet_logged]

theorem answers_cons (outcome : Except CallError Unit) (id : Nat) (rest : List Nat) :
    answers outcome (id :: rest) = .replied id (.flush outcome) :: answers (.ok ()) rest := by
  cases rest <;> rfl

/-- Flushes answered together are told, one after the other, what there is to tell. -/
theorem result_of_answers (past : List Effect) {earlier later : List Effect} {waiting : List Nat}
    {id : Nat} {result : Except CallError Unit}
    (h : answers (verdict (unreported? past)) waiting =
      earlier ++ .replied id (.flush result) :: later) :
    result = verdict (unreported? (past ++ earlier)) := by
  induction waiting generalizing past earlier with
  | nil => cases earlier <;> cases h
  | cons w rest ih =>
    rw [answers_cons] at h
    cases earlier with
    | nil =>
      simp only [List.nil_append, List.cons.injEq, Effect.replied.injEq, Reply.flush.injEq] at h
      rw [List.append_nil, h.1.2]
    | cons x earlier =>
      simp only [List.cons_append, List.cons.injEq] at h
      obtain ⟨rfl, hrest⟩ := h
      have hn := Effect.unreported?_answer past w
      have hi := ih (past ++ [.replied w (.flush (verdict (unreported? past)))])
        (by rw [hn]; exact hrest)
      rwa [List.append_assoc] at hi

/-- Once some flush was answered, nothing is left to tell. -/
theorem unreported?_answers (past : List Effect) (waiting : List Nat) :
    unreported? (past ++ answers (verdict (unreported? past)) waiting) =
      if waiting = [] then unreported? past else none := by
  induction waiting generalizing past with
  | nil => rw [answers, List.append_nil, if_pos rfl]
  | cons w rest ih =>
    have hn := Effect.unreported?_answer past w
    have hi := ih (past ++ [.replied w (.flush (verdict (unreported? past)))])
    rw [hn, List.append_assoc] at hi
    rw [answers_cons, if_neg (List.cons_ne_nil _ _)]
    refine hi.trans ?_
    split <;> rfl

theorem write?_answers (outcome : Except CallError Unit) (waiting : List Nat) :
    ∀ x ∈ answers outcome waiting, x.write? = none := by
  induction waiting generalizing outcome with
  | nil =>
    intro x hx
    cases hx
  | cons w rest ih =>
    intro x hx
    rw [answers_cons] at hx
    rcases List.mem_cons.mp hx with rfl | hx
    · rfl
    · exact ih (.ok ()) x hx

end Outbound

end SerialBridge
