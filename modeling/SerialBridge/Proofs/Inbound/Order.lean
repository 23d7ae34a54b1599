import SerialBridge.Proofs.Inbound.Stream

/-!
# Reads are served in order

A read that comes in looks at the stream and never at the reads that wait. It cannot overtake them
all the same: while reads for at least one byte wait, everything that came in was delivered.
-/

namespace SerialBridge

namespace Effect

/-- The reads that some effects answer, in order. -/
def reads (effects : List Effect) : List Nat := effects.filterMap read?

@[simp] theorem reads_append (a b : List Effect) : reads (a ++ b) = reads a ++ reads b :=
  List.filterMap_append

end Effect

namespace Inbound

open Effect (reads)

/-- Reads wait only while there is nothing to tell them. -/
structure Prompt (s : Inbound Bytes) : Prop where
  consistent : Consistent s
  wanting : ∀ r ∈ s.waiting, 0 < r.length
  delivered : s.waiting ≠ [] → s.undelivered = []

theorem prompt_new (growth : Nat) : Prompt (new growth) := by
  refine ⟨consistent_new growth, ?_, ?_⟩
  · intro r hr
    cases hr
  · exact fun hw => absurd rfl hw

variable {s : Inbound Bytes}

theorem undelivered_eq_nil_iff : s.undelivered = [] ↔ s.queue = [] ∧ s.failures = [] :=
  Item.layOut_eq_nil_iff s.queue

/-- With everything delivered no read can be answered. -/
theorem take?_of_undelivered_nil (h : s.undelivered = []) (length : Nat) :
    s.take? length = none := by
  obtain ⟨hqueue, hfailures⟩ := undelivered_eq_nil_iff.mp h
  have hqueued : min (ByteQueue.queued s.queue) length = 0 := by
    rw [hqueue]
    exact Nat.zero_min length
  simp only [take?, hfailures, takeBytes?, hqueued, if_true]

/-- Reads served from a list are the front of it, and the others go on waiting. -/
theorem reads_serve (s : Inbound Bytes) (requests : List ReadRequest) :
    reads (s.serve requests).2 ++ (s.serve requests).1.waiting.map ReadRequest.id =
      requests.map ReadRequest.id := by
  induction requests generalizing s with
  | nil => rfl
  | cons r rest ih =>
    rw [serve]
    cases s.take? r.length with
    | none => rfl
    | some answer =>
      rw [List.map_cons, ← ih answer.2]
      rfl

/-- Serving goes on as long as there is anything to tell. -/
theorem prompt_serve (h : Consistent s) {requests : List ReadRequest}
    (hwanting : ∀ r ∈ requests, 0 < r.length) : Prompt (s.serve requests).1 := by
  induction requests generalizing s with
  | nil => exact ⟨⟨h.received, h.placed⟩, hwanting, fun hw => absurd rfl hw⟩
  | cons r rest ih =>
    obtain ⟨hr, hrest⟩ := List.forall_mem_cons.mp hwanting
    rw [serve]
    cases ht : s.take? r.length with
    | none =>
      have hdelivered := undelivered_of_take?_none h hr ht
      exact ⟨⟨h.received, h.placed⟩, hwanting, fun _ => hdelivered⟩
    | some answer => exact ih (taken_of_take? h ht).consistent hrest

/-- A read is answered at once only if no other one waits. -/
theorem prompt_read (h : Prompt s) (id : Nat) {length : Nat} (hpos : 0 < length) :
    Prompt (s.read id length).1 ∧
      reads (s.read id length).2 ++ (s.read id length).1.waiting.map ReadRequest.id =
        s.waiting.map ReadRequest.id ++ [id] := by
  rw [read]
  cases ht : s.take? length with
  | none =>
    have hdelivered := undelivered_of_take?_none h.consistent hpos ht
    refine ⟨⟨⟨h.consistent.received, h.consistent.placed⟩, ?_, fun _ => hdelivered⟩, ?_⟩
    · intro r hr
      rcases List.mem_append.mp hr with hr | hr
      · exact h.wanting r hr
      · rw [List.mem_singleton.mp hr]
        exact hpos
    · rw [List.map_append]
      rfl
  | some answer =>
    have htaken := taken_of_take? h.consistent ht
    have hnone : s.waiting = [] := by
      by_cases hw : s.waiting = []
      · exact hw
      · rw [take?_of_undelivered_nil (h.delivered hw)] at ht
        cases ht
    have hw : answer.2.waiting = [] := htaken.waiting.trans hnone
    refine ⟨⟨htaken.consistent, ?_, fun hn => absurd hw hn⟩, ?_⟩
    · rw [hw]
      intro r hr
      cases hr
    · rw [hw, hnone]
      rfl

theorem prompt_incoming (h : Prompt s) (n : Notification) :
    Prompt (s.incoming n).1 ∧
      reads (s.incoming n).2 ++ (s.incoming n).1.waiting.map ReadRequest.id =
        s.waiting.map ReadRequest.id := by
  constructor
  · exact prompt_serve (consistent_accept h.consistent n) h.wanting
  · have hserved := reads_serve (s.accept n) s.waiting
    rw [← hserved, incoming]
    cases n.failure <;> rfl

end Inbound

namespace Engine

open Effect (reads)

/-- The read that an event asks for. -/
def Event.asked : Event → List Nat
  | .read id _ => [id]
  | _ => []

/-- The reads that events ask for, in order. -/
def asked (events : List Event) : List Nat := events.flatMap Event.asked

/-- Every read was answered or waits, in the order in which they were asked for. -/
structure InOrder (e : Engine Bytes) (issued : List Nat) (past : List Effect) : Prop where
  prompt : e.inbound.Prompt
  order : reads past ++ e.inbound.waiting.map ReadRequest.id = issued

theorem inOrder_new (settings : Settings) : InOrder (new settings) [] [] :=
  ⟨Inbound.prompt_new _, rfl⟩

variable {e : Engine Bytes} {issued : List Nat} {past : List Effect}

theorem inOrder_inbound (h : InOrder e issued past) {next : Inbound Bytes × List Effect}
    {added : List Nat} (hp : next.1.Prompt)
    (hs : reads next.2 ++ next.1.waiting.map ReadRequest.id =
      e.inbound.waiting.map ReadRequest.id ++ added) :
    InOrder (e.withInbound next).1 (issued ++ added) (past ++ (e.withInbound next).2) := by
  constructor
  · exact hp
  · rw [← h.order, Effect.reads_append, List.append_assoc, List.append_assoc, ← hs]
    rfl

theorem inOrder_outbound (h : InOrder e issued past) {next : Outbound Bytes × List Effect}
    (hn : ∀ x ∈ next.2, x.read? = none) :
    InOrder (e.withOutbound next).1 (issued ++ []) (past ++ (e.withOutbound next).2) := by
  have hreads : reads (e.withOutbound next).2 = [] := List.filterMap_eq_nil_iff.mpr hn
  constructor
  · exact h.prompt
  · rw [Effect.reads_append, hreads, List.append_nil, List.append_nil]
    exact h.order

/-- Every step keeps the order. -/
theorem inOrder_step (h : InOrder e issued past) (event : Event)
    (hpos : ∀ id length, event = .read id length → 0 < length) :
    InOrder (e.step event).1 (issued ++ event.asked) (past ++ (e.step event).2) := by
  cases event with
  | read id length =>
    obtain ⟨hp, hs⟩ := Inbound.prompt_read h.prompt id (hpos id length rfl)
    exact inOrder_inbound h hp hs
  | incoming n =>
    obtain ⟨hp, hs⟩ := Inbound.prompt_incoming h.prompt n
    exact inOrder_inbound h hp (hs.trans (List.append_nil _).symm)
  | write data => exact inOrder_outbound h (Outbound.no_read_write _ _ data)
  | flush id => exact inOrder_outbound h (Outbound.no_read_flush _ id)
  | chunkTaken => exact inOrder_outbound h (Outbound.no_read_taken _ _)
  | writeFailed f => exact inOrder_outbound h (Outbound.no_read_failed _ f)

/-- Every run keeps the order. -/
theorem inOrder_run (h : InOrder e issued past) {events : List Event}
    (hpos : ∀ id length, .read id length ∈ events → 0 < length) :
    InOrder (e.run events).1 (issued ++ asked events) (past ++ (e.run events).2) := by
  induction events generalizing e issued past with
  | nil =>
    rw [asked, List.flatMap_nil, run_nil, List.append_nil, List.append_nil]
    exact h
  | cons event rest ih =>
    have hfirst := inOrder_step h event fun id length he =>
      hpos id length (he ▸ List.mem_cons_self)
    have hrest := ih hfirst fun id length hm => hpos id length (List.mem_cons_of_mem _ hm)
    rwa [List.append_assoc, List.append_assoc] at hrest

/-- First come, first served, over every run in which reads ask for at least one byte. A read waits
only while the queue is empty and no failure is held; reads are answered in the order in which they
were asked for; and a read that finds others waiting joins them at the end. -/
theorem reads_in_order (choices : List Setting) (events : List Event)
    (hpos : ∀ id length, .read id length ∈ events → 0 < length) :
    let start : Engine Ring := new (Settings.build choices)
    let e := (start.run events).1
    (e.inbound.waiting ≠ [] → e.inbound.queue.toList = [] ∧ e.inbound.failures = []) ∧
    reads (start.run events).2 ++ e.inbound.waiting.map ReadRequest.id = asked events ∧
    ∀ id length, e.inbound.waiting ≠ [] →
      (e.step (.read id length)).2 = [.logged (.readPending length)] ∧
      (e.step (.read id length)).1.inbound.waiting = e.inbound.waiting ++ [⟨id, length⟩] := by
  intro start e
  obtain ⟨hve, hrun⟩ := run_new_plain (Settings.build choices) events
  have horder := inOrder_run (inOrder_new (Settings.build choices)) hpos
  rw [hrun] at horder
  have hdelivered : e.inbound.waiting ≠ [] → e.plain.inbound.undelivered = [] :=
    horder.prompt.delivered
  refine ⟨fun hw => ?_, horder.order, fun id length hw => ?_⟩
  · exact Inbound.undelivered_eq_nil_iff.mp (hdelivered hw)
  · obtain ⟨-, hs⟩ := step_plain hve (.read id length)
    have hnone := Inbound.take?_of_undelivered_nil (hdelivered hw) length
    have hread : e.plain.step (.read id length) =
        e.plain.withInbound ({ e.plain.inbound with
          waiting := e.inbound.waiting ++ [⟨id, length⟩] }, [.logged (.readPending length)]) := by
      simp only [step, Inbound.read, hnone]
      rfl
    rw [hread] at hs
    obtain ⟨hengine, heffects⟩ := Prod.mk.inj hs
    exact ⟨heffects.symm, (congrArg (fun e : Engine Bytes => e.inbound.waiting) hengine).symm⟩

/-- Two reads share a notification, and a third one waits for the next. -/
theorem reads_in_order_of_three :
    ∃ (e : Engine Ring) (effects : List Effect),
      (new (Settings.build [.queueGrowth 4])).run [.read 1 3, .read 2 5,
        .incoming (Notification.receive [1, 2, 3, 4] none).1, .read 3 1] = (e, effects) ∧
      e.inbound.waiting = [⟨3, 1⟩] ∧ e.inbound.queue.toList = [] ∧ e.inbound.failures = [] ∧
      reads effects ++ [3] = [1, 2, 3] := by
  have hw : ((new (Settings.build [.queueGrowth 4]) : Engine Ring).run [.read 1 3, .read 2 5,
      .incoming (Notification.receive [1, 2, 3, 4] none).1, .read 3 1]).1.inbound.waiting =
      [⟨3, 1⟩] := by
    decide +kernel
  obtain ⟨hdelivered, horder, -⟩ := reads_in_order [.queueGrowth 4] [.read 1 3, .read 2 5,
    .incoming (Notification.receive [1, 2, 3, 4] none).1, .read 3 1] (by
      intro id length hm
      simp only [List.mem_cons, Event.read.injEq, reduceCtorEq, List.not_mem_nil, or_false,
        false_or] at hm
      omega)
  generalize (new (Settings.build [.queueGrowth 4]) : Engine Ring).run _ = r
    at hw hdelivered horder ⊢
  obtain ⟨e, effects⟩ := r
  obtain ⟨hqueue, hfailures⟩ := hdelivered (by rw [hw]; exact List.cons_ne_nil _ _)
  rw [hw] at horder
  exact ⟨e, effects, rfl, hw, hqueue, hfailures, horder⟩

end Engine

end SerialBridge
