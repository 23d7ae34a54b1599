import SerialBridge.Proofs.Inbound.Order
import SerialBridge.Proofs.Outbound.Failures

/-!
# Every request is answered once

Reads and flushes are answered on arrival, or from the lists in which they wait, or at the end of
the engine. Wherever that happens, the requests answered and the requests that wait are together
those that were made, each as often as it was made.
-/

namespace SerialBridge

/-- A request that wants an answer. -/
inductive Query where
  | read (id : Nat)
  | flush (id : Nat)
  deriving DecidableEq, Repr

/-- What a request is told when there is nobody left to answer it. -/
def Query.farewell : Query → Nat × Reply
  | .read id => (id, .read (.error .closed))
  | .flush id => (id, .flush (.error .closed))

def ReadRequest.query (r : ReadRequest) : Query := .read r.id

namespace Effect

/-- The request that an effect answers. -/
def query? : Effect → Option Query
  | .replied id (.read _) => some (.read id)
  | .replied id (.flush _) => some (.flush id)
  | _ => none

/-- The requests that some effects answer, in order. -/
def answered (effects : List Effect) : List Query := effects.filterMap query?

@[simp] theorem answered_nil : answered [] = [] := rfl

@[simp] theorem answered_logged (entry : Log.Entry) (effects : List Effect) :
    answered (.logged entry :: effects) = answered effects := rfl

@[simp] theorem answered_append (a b : List Effect) :
    answered (a ++ b) = answered a ++ answered b :=
  List.filterMap_append

end Effect

open Effect (answered replies)
open scoped List

/-- Of the requests that waited, and then new ones, each was answered or waits, and those that wait
keep their order. -/
structure Carried (waiting added : List Query) (effects : List Effect) (left : List Query) :
    Prop where
  once : (answered effects ++ left).Perm (waiting ++ added)
  order : left.Sublist (waiting ++ added)

/-- Nothing was asked and nothing answered. -/
theorem carried_of_quiet {waiting : List Query} {effects : List Effect}
    (h : answered effects = []) : Carried waiting [] effects waiting := by
  constructor
  · rw [h, List.append_nil, List.nil_append]
  · rw [List.append_nil]

namespace Inbound

/-- The reads that wait. -/
def pending {Q : Type} (s : Inbound Q) : List Query := s.waiting.map ReadRequest.query

variable {Q : Type} [ByteQueue Q]

omit [ByteQueue Q] in
theorem pending_eq {s : Inbound Q} {waiting : List ReadRequest} (h : s.waiting = waiting) :
    s.pending = waiting.map ReadRequest.query := by
  rw [pending, h]

/-- A read does not look at the reads that wait, and leaves them as they are. -/
theorem take?_waiting (s : Inbound Q) (waiting : List ReadRequest) (length : Nat) :
    ({ s with waiting := waiting } : Inbound Q).take? length =
      (s.take? length).map fun answer => (answer.1, { answer.2 with waiting := waiting }) := by
  have hbytes (limit : Nat) : ({ s with waiting := waiting } : Inbound Q).takeBytes? limit =
      (s.takeBytes? limit).map fun answer => (answer.1, { answer.2 with waiting := waiting }) := by
    simp only [takeBytes?]
    split <;> rfl
  simp only [take?, hbytes]
  split
  · rfl
  · split <;> rfl

theorem waiting_take? {s t : Inbound Q} {length : Nat} {result : Except CallError Bytes}
    (h : s.take? length = some (result, t)) : t.waiting = s.waiting := by
  have hsame : s.take? length =
      (s.take? length).map fun answer => (answer.1, { answer.2 with waiting := s.waiting }) :=
    take?_waiting s s.waiting length
  rw [h, Option.map_some] at hsame
  exact congrArg (fun answer => answer.2.waiting) (Option.some.inj hsame)

/-- A list of reads is served from its front. -/
theorem answered_serve (s : Inbound Q) (requests : List ReadRequest) :
    answered (s.serve requests).2 ++ (s.serve requests).1.pending =
      requests.map ReadRequest.query := by
  induction requests generalizing s with
  | nil => rfl
  | cons r rest ih =>
    rw [serve]
    cases s.take? r.length with
    | none => rfl
    | some answer =>
      rw [List.map_cons, ← ih answer.2]
      rfl

/-- A read is answered at once or waits behind the others. -/
theorem carried_read (s : Inbound Q) (id length : Nat) :
    Carried s.pending [.read id] (s.read id length).2 (s.read id length).1.pending := by
  rw [read]
  cases ht : s.take? length with
  | none =>
    have hleft : pending { s with waiting := s.waiting ++ [⟨id, length⟩] } =
        s.pending ++ [.read id] := List.map_append
    constructor
    · exact .of_eq hleft
    · exact hleft ▸ .refl _
  | some answer =>
    have hleft : answer.2.pending = s.pending := pending_eq (waiting_take? ht)
    constructor
    · rw [hleft]
      change ([Query.read id] ++ s.pending).Perm (s.pending ++ [.read id])
      exact List.perm_append_comm
    · rw [hleft]
      exact List.sublist_append_left _ _

theorem carried_incoming (s : Inbound Q) (n : Notification) :
    Carried s.pending [] (s.incoming n).2 (s.incoming n).1.pending := by
  have hserved := answered_serve (s.accept n) s.waiting
  have hanswered : answered (s.incoming n).2 =
      answered ((s.accept n).serve s.waiting).2 := by
    rw [incoming]
    cases n.failure <;> rfl
  have hall : answered (s.incoming n).2 ++ (s.incoming n).1.pending = s.pending := by
    rw [hanswered]
    exact hserved
  constructor
  · rw [hall, List.append_nil]
  · rw [List.append_nil, ← hall]
    exact List.sublist_append_right _ _

end Inbound

namespace Outbound

/-- The flushes that wait. -/
def pending {Q : Type} (s : Outbound Q) : List Query := s.waiting.map .flush

variable {Q : Type} [ByteQueue Q]

omit [ByteQueue Q] in
theorem answered_answers (outcome : Except CallError Unit) (waiting : List Nat) :
    answered (answers outcome waiting) = waiting.map .flush := by
  induction waiting generalizing outcome with
  | nil => rfl
  | cons id rest ih =>
    rw [answers_cons, List.map_cons, ← ih (.ok ())]
    rfl

theorem carried_write (s : Outbound Q) (maxChunk : Nat) (data : Bytes) :
    Carried s.pending [] (s.write maxChunk data).2 (s.write maxChunk data).1.pending := by
  have hleft : (s.write maxChunk data).1.pending = s.pending := by
    rw [pending, (waiting_write s maxChunk data).1, pending]
  rw [hleft]
  apply carried_of_quiet
  rw [write]
  split
  · rfl
  · cases s.mode <;> rfl

omit [ByteQueue Q] in
/-- A flush of an idle half is answered, and others wait behind those that do. -/
theorem carried_flush (s : Outbound Q) (id : Nat) :
    Carried s.pending [.flush id] (s.flush id).2 (s.flush id).1.pending := by
  rw [flush]
  cases s.mode with
  | active =>
    have hleft : (s.waiting ++ [id]).map Query.flush = s.pending ++ [.flush id] := List.map_append
    constructor
    · exact .of_eq hleft
    · exact hleft ▸ .refl _
  | idle =>
    constructor
    · change ([Query.flush id] ++ s.pending).Perm (s.pending ++ [.flush id])
      exact List.perm_append_comm
    · exact List.sublist_append_left _ _

/-- The end of a burst answers all the flushes, and no other hand-off answers any. -/
theorem carried_taken (s : Outbound Q) (maxChunk : Nat) :
    Carried s.pending [] (s.taken maxChunk).2 (s.taken maxChunk).1.pending := by
  obtain ⟨queue, chunk, ht⟩ | ⟨queue, ht⟩ := s.taken_keeps_or_settles maxChunk
  · rw [ht]
    exact carried_of_quiet rfl
  · have hanswered : answered (s.taken maxChunk).2 = s.pending := by
      rw [ht]
      exact answered_answers _ _
    have hleft : (s.taken maxChunk).1.pending = [] := by
      rw [ht, pending, settle_waiting]
      rfl
    constructor
    · rw [hanswered, hleft]
    · rw [hleft]
      exact List.nil_sublist _

omit [ByteQueue Q] in
theorem carried_failed (s : Outbound Q) (f : Failure) :
    Carried s.pending [] (s.failed f).2 (s.failed f).1.pending := by
  rw [failed]
  cases s.failure with
  | none => exact carried_of_quiet rfl
  | some held => exact carried_of_quiet rfl

end Outbound

namespace Engine

/-- The request that an event makes. -/
def Event.query? : Event → Option Query
  | .read id _ => some (.read id)
  | .flush id => some (.flush id)
  | _ => none

/-- The requests that events make, in order. -/
def issued (events : List Event) : List Query := events.filterMap Event.query?

/-- The requests that wait for an answer. -/
def pending {Q : Type} (e : Engine Q) : List Query := e.outbound.pending ++ e.inbound.pending

/-- Every request made was answered or waits, flushes and reads each in the order in which they
were made. -/
structure Answerable {Q : Type} (e : Engine Q) (made : List Query) (past : List Effect) :
    Prop where
  once : (answered past ++ e.pending).Perm made
  flushes : e.outbound.pending.Sublist made
  reads : e.inbound.pending.Sublist made

variable {Q : Type} [ByteQueue Q] {e : Engine Q} {made added : List Query} {past : List Effect}

theorem answerable_new (settings : Settings) : Answerable (new settings : Engine Q) [] [] :=
  ⟨.refl _, .refl _, .refl _⟩

omit [ByteQueue Q] in
theorem answerable_inbound (h : Answerable e made past) {next : Inbound Q × List Effect}
    (hc : Carried e.inbound.pending added next.2 next.1.pending) :
    Answerable (e.withInbound next).1 (made ++ added) (past ++ (e.withInbound next).2) := by
  refine ⟨?_, h.flushes.trans (List.sublist_append_left _ _), ?_⟩
  · calc answered (past ++ next.2) ++ (e.outbound.pending ++ next.1.pending)
      _ = answered past ++ (answered next.2 ++ (e.outbound.pending ++ next.1.pending)) := by
        rw [Effect.answered_append, List.append_assoc]
      _ ~ answered past ++ (e.outbound.pending ++ (answered next.2 ++ next.1.pending)) := by
        refine .append_left _ ?_
        rw [← List.append_assoc, ← List.append_assoc]
        exact List.perm_append_comm.append_right _
      _ ~ answered past ++ (e.outbound.pending ++ (e.inbound.pending ++ added)) :=
        (hc.once.append_left _).append_left _
      _ = answered past ++ e.pending ++ added := by
        rw [pending, List.append_assoc, List.append_assoc]
      _ ~ made ++ added := h.once.append_right _
  · exact hc.order.trans (h.reads.append_right added)

omit [ByteQueue Q] in
theorem answerable_outbound (h : Answerable e made past) {next : Outbound Q × List Effect}
    (hc : Carried e.outbound.pending added next.2 next.1.pending) :
    Answerable (e.withOutbound next).1 (made ++ added) (past ++ (e.withOutbound next).2) := by
  refine ⟨?_, ?_, h.reads.trans (List.sublist_append_left _ _)⟩
  · calc answered (past ++ next.2) ++ (next.1.pending ++ e.inbound.pending)
      _ = answered past ++ ((answered next.2 ++ next.1.pending) ++ e.inbound.pending) := by
        rw [Effect.answered_append, List.append_assoc, List.append_assoc]
      _ ~ answered past ++ ((e.outbound.pending ++ added) ++ e.inbound.pending) :=
        (hc.once.append_right _).append_left _
      _ ~ answered past ++ (e.outbound.pending ++ (e.inbound.pending ++ added)) := by
        rw [List.append_assoc]
        exact (List.perm_append_comm.append_left _).append_left _
      _ = answered past ++ e.pending ++ added := by
        rw [pending, List.append_assoc, List.append_assoc]
      _ ~ made ++ added := h.once.append_right _
  · exact hc.order.trans (h.flushes.append_right added)

/-- Every step keeps the requests answerable. -/
theorem answerable_step (h : Answerable e made past) (event : Event) :
    Answerable (e.step event).1 (made ++ event.query?.toList) (past ++ (e.step event).2) := by
  cases event with
  | read id length => exact answerable_inbound h (Inbound.carried_read _ id length)
  | incoming n => exact answerable_inbound h (Inbound.carried_incoming _ n)
  | write data => exact answerable_outbound h (Outbound.carried_write _ _ data)
  | flush id => exact answerable_outbound h (Outbound.carried_flush _ id)
  | chunkTaken => exact answerable_outbound h (Outbound.carried_taken _ _)
  | writeFailed f => exact answerable_outbound h (Outbound.carried_failed _ f)

/-- Every run keeps the requests answerable. -/
theorem answerable_run (h : Answerable e made past) (events : List Event) :
    Answerable (e.run events).1 (made ++ issued events) (past ++ (e.run events).2) := by
  induction events generalizing e made past with
  | nil =>
    rw [issued, List.filterMap_nil, run_nil, List.append_nil, List.append_nil]
    exact h
  | cons event rest ih =>
    have hrest := ih (answerable_step h event)
    have hissued : issued (event :: rest) = event.query?.toList ++ issued rest := by
      rw [issued, List.filterMap_cons]
      cases event.query? <;> rfl
    rwa [List.append_assoc, List.append_assoc, ← hissued] at hrest

/-! ## The end of the loop -/

omit [ByteQueue Q] in
/-- An engine that ends answers what waits, the flushes first. -/
theorem replies_shutdown (e : Engine Q) : replies e.shutdown.2 = e.pending.map Query.farewell := by
  have hflushes (waiting : List Nat) :
      replies (waiting.map fun id => .replied id (.flush (.error .closed))) =
        (waiting.map .flush).map Query.farewell := by
    rw [replies, List.filterMap_map, List.map_map, ← List.filterMap_eq_map]
    rfl
  have hreads (waiting : List ReadRequest) :
      replies (waiting.map fun r => .replied r.id (.read (.error .closed))) =
        (waiting.map ReadRequest.query).map Query.farewell := by
    rw [replies, List.filterMap_map, List.map_map, ← List.filterMap_eq_map]
    rfl
  calc replies e.shutdown.2
    _ = replies e.outbound.close.2 ++ replies e.inbound.close.2 := Effect.replies_append _ _
    _ = e.outbound.pending.map Query.farewell ++ e.inbound.pending.map Query.farewell :=
      congrArg₂ (· ++ ·) (hflushes e.outbound.waiting) (hreads e.inbound.waiting)
    _ = e.pending.map Query.farewell := List.map_append.symm

/-- The requests answered are read off the answers. -/
theorem answered_of_replies {effects : List Effect} {queries : List Query}
    (h : replies effects = queries.map Query.farewell) : answered effects = queries := by
  induction effects generalizing queries with
  | nil =>
    cases queries with
    | nil => rfl
    | cons q rest => cases h
  | cons x effects ih =>
    cases x with
    | replied id reply =>
      cases queries with
      | nil => cases h
      | cons q rest =>
        obtain ⟨hq, hrest⟩ := List.cons.inj h
        cases q with
        | read id' =>
          obtain ⟨rfl, rfl⟩ := Prod.mk.inj hq
          exact congrArg (Query.read id :: ·) (ih hrest)
        | flush id' =>
          obtain ⟨rfl, rfl⟩ := Prod.mk.inj hq
          exact congrArg (Query.flush id :: ·) (ih hrest)
    | wrote data failure => exact ih h
    | logged entry => exact ih h

omit [ByteQueue Q] in
theorem replies_loopWithout (e : Engine Q) (channel : Channel) :
    replies (e.loopWithout channel).2 = e.pending.map Query.farewell := by
  rw [← replies_shutdown]
  simp only [loopWithout]
  split <;> rfl

/-- Requests over every run of an engine, and at its end. After any events each request was answered
or is pending, as many times in all as it was made. When the loop ends, for whatever channel it
lost, those pending are told that the bridge was closed, flushes before reads and each in the order
in which they were made; then all are answered, and nothing else about the engine has changed. -/
theorem requests_answered_once (settings : Settings) (events : List Event) :
    let start : Engine Ring := new settings
    let e := (start.run events).1
    let past := (start.run events).2
    (∀ q, (issued events).count q = (answered past).count q + e.pending.count q) ∧
    (∀ q, (issued events).count q = 1 →
      e.pending.count q = 1 ∧ q ∉ answered past ∨ (answered past).count q = 1 ∧ q ∉ e.pending) ∧
    ∀ channel, e.notices channel = true →
      let last := (e.loopWithout channel).1
      let effects := (e.loopWithout channel).2
      replies effects = (e.outbound.pending ++ e.inbound.pending).map Query.farewell ∧
      e.outbound.pending.Sublist (issued events) ∧ e.inbound.pending.Sublist (issued events) ∧
      last.pending = [] ∧ (answered (past ++ effects)).Perm (issued events) ∧
      last = { e with
        outbound := { e.outbound with waiting := [] }
        inbound := { e.inbound with waiting := [] } } := by
  intro start e past
  have hrun : Answerable e (issued events) past := answerable_run (answerable_new settings) events
  have hcount (q : Query) :
      (issued events).count q = (answered past).count q + e.pending.count q := by
    rw [← hrun.once.count_eq q, List.count_append]
  refine ⟨hcount, fun q hq => ?_, fun channel _ => ?_⟩
  · have htotal := hcount q
    rw [← List.count_eq_zero, ← List.count_eq_zero]
    omega
  · have hreplies := replies_loopWithout e channel
    refine ⟨hreplies, hrun.flushes, hrun.reads, rfl, ?_, rfl⟩
    rw [Effect.answered_append, answered_of_replies hreplies]
    exact hrun.once

end Engine

end SerialBridge
