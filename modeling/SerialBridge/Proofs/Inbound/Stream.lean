import SerialBridge.Proofs.Inbound.Steps
import SerialBridge.Proofs.Plain

/-!
# The inbound stream law

Whatever happens to an engine, the answers to reads, one after another, and what is undelivered make
up the stream of what came in: no byte and no failure is lost, doubled or moved. An answer with
bytes is as long as its read and the next failure allow.
-/

namespace SerialBridge

open Item (leading layOut)

namespace Effect

/-- What an effect takes off the stream. -/
def items : Effect → List Item
  | .replied _ (.read result) => Item.ofResult result
  | _ => []

/-- What readers were told, in order. -/
def told (effects : List Effect) : List Item := effects.flatMap items

@[simp] theorem told_nil : told [] = [] := rfl

@[simp] theorem told_cons (x : Effect) (effects : List Effect) :
    told (x :: effects) = x.items ++ told effects := rfl

@[simp] theorem told_append (a b : List Effect) : told (a ++ b) = told a ++ told b :=
  List.flatMap_append

/-- The read that an effect answers. -/
def read? : Effect → Option Nat
  | .replied id (.read _) => some id
  | _ => none

theorem told_eq_nil {effects : List Effect} (h : ∀ x ∈ effects, x.read? = none) :
    told effects = [] := by
  rw [told, List.flatMap_eq_nil_iff]
  intro x hx
  have hread := h x hx
  cases x with
  | replied id reply =>
    cases reply with
    | read result => cases hread
    | flush result => rfl
  | _ => rfl

/-- Reads are answered one after another from what is available, each as well as it can be. -/
def Exact (available : List Item) (requests : List ReadRequest) (effects : List Effect) : Prop :=
  ∀ earlier id result later, effects = earlier ++ .replied id (.read result) :: later →
    ∃ length, requests[(replies earlier).length]? = some ⟨id, length⟩ ∧
      ((∃ data, result = .ok data) ∨ ∃ failure, result = .error (.transport failure)) ∧
      ∀ data, result = .ok data →
        data ≠ [] ∧ data.length = min length (leading (available.drop (told earlier).length))

variable {available : List Item} {requests : List ReadRequest} {effects : List Effect}

theorem exact_of_no_read (h : ∀ x ∈ effects, x.read? = none) :
    Exact available requests effects := by
  intro earlier id result later he
  have hread := h (.replied id (.read result)) (by rw [he]; simp)
  cases hread

theorem exact_nil : Exact available requests [] :=
  exact_of_no_read fun _ hx => absurd hx List.not_mem_nil

theorem Exact.logged (h : Exact available requests effects) (entry : Log.Entry) :
    Exact available requests (.logged entry :: effects) := by
  intro earlier id result later he
  cases earlier with
  | nil => cases (List.cons.inj he).1
  | cons x earlier =>
    obtain ⟨rfl, hrest⟩ := List.cons.inj he
    exact h earlier id result later hrest

end Effect

namespace Inbound

open Effect (told Exact)

variable {s : Inbound Bytes}

/-- One answer, and then the others from what it leaves. -/
theorem exact_cons {length : Nat} {result : Except CallError Bytes} {t : Inbound Bytes}
    (ht : Taken s length result t) (id : Nat) {rest : List ReadRequest} {effects : List Effect}
    (h : Exact t.undelivered rest effects) :
    Exact s.undelivered (⟨id, length⟩ :: rest) (.replied id (.read result) :: effects) := by
  intro earlier id' result' later he
  cases earlier with
  | nil =>
    obtain ⟨hfirst, -⟩ := List.cons.inj he
    obtain ⟨rfl, rfl⟩ : id = id' ∧ result = result' := by simpa using hfirst
    exact ⟨length, rfl, ht.told, ht.full⟩
  | cons x earlier =>
    obtain ⟨rfl, hrest⟩ := List.cons.inj he
    obtain ⟨wanted, hrequest, hkind, hfull⟩ := h earlier id' result' later hrest
    refine ⟨wanted, hrequest, hkind, fun data hd => ?_⟩
    obtain ⟨hne, hlength⟩ := hfull data hd
    constructor
    · exact hne
    · rw [hlength, ← ht.stream, Effect.told_cons, List.length_append, Effect.items,
        ← List.drop_drop, List.drop_left]

theorem stream_serve (h : Consistent s) (requests : List ReadRequest) :
    Consistent (s.serve requests).1 ∧
      told (s.serve requests).2 ++ (s.serve requests).1.undelivered = s.undelivered ∧
      Exact s.undelivered requests (s.serve requests).2 := by
  induction requests generalizing s with
  | nil => exact ⟨⟨h.received, h.placed⟩, rfl, Effect.exact_nil⟩
  | cons r rest ih =>
    rw [serve]
    cases ht : s.take? r.length with
    | none => exact ⟨⟨h.received, h.placed⟩, rfl, Effect.exact_nil⟩
    | some answer =>
      have htaken := taken_of_take? h ht
      obtain ⟨hconsistent, hstream, hexact⟩ := ih htaken.consistent
      refine ⟨hconsistent, ?_, exact_cons htaken r.id hexact⟩
      rw [Effect.told_cons, Effect.items, List.append_assoc, hstream, htaken.stream]

theorem stream_read (h : Consistent s) (id length : Nat) :
    Consistent (s.read id length).1 ∧
      told (s.read id length).2 ++ (s.read id length).1.undelivered = s.undelivered ∧
      Exact s.undelivered [⟨id, length⟩] (s.read id length).2 := by
  rw [read]
  cases ht : s.take? length with
  | none => exact ⟨⟨h.received, h.placed⟩, rfl, Effect.exact_nil.logged _⟩
  | some answer =>
    have htaken := taken_of_take? h ht
    refine ⟨htaken.consistent, ?_, exact_cons htaken id Effect.exact_nil⟩
    rw [Effect.told_cons, Effect.items, Effect.told_nil, List.append_nil, htaken.stream]

theorem stream_incoming (h : Consistent s) (n : Notification) :
    Consistent (s.incoming n).1 ∧
      told (s.incoming n).2 ++ (s.incoming n).1.undelivered = s.undelivered ++ n.items ∧
      Exact (s.undelivered ++ n.items) s.waiting (s.incoming n).2 := by
  obtain ⟨hconsistent, hstream, hexact⟩ := stream_serve (consistent_accept h n) s.waiting
  rw [undelivered_accept h n] at hstream hexact
  refine ⟨hconsistent, ?_, ?_⟩
  · rw [← hstream, incoming]
    cases n.failure <;> rfl
  · rw [incoming]
    cases n.failure with
    | none => exact hexact.logged _
    | some failure => exact (hexact.logged _).logged _

end Inbound

namespace Outbound

variable {Q : Type} [ByteQueue Q] (s : Outbound Q)

theorem no_read_answers (outcome : Except CallError Unit) (waiting : List Nat) :
    ∀ x ∈ answers outcome waiting, x.read? = none := by
  cases waiting <;> simp [answers, Effect.read?]

theorem no_read_write (maxChunk : Nat) (data : Bytes) :
    ∀ x ∈ (s.write maxChunk data).2, x.read? = none := by
  rw [write]
  split
  · simp
  · cases s.mode <;> simp [stage, Effect.read?]

omit [ByteQueue Q] in
theorem no_read_flush (id : Nat) : ∀ x ∈ (s.flush id).2, x.read? = none := by
  rw [flush]
  cases s.mode <;> simp [Effect.read?]

theorem no_read_taken (maxChunk : Nat) : ∀ x ∈ (s.taken maxChunk).2, x.read? = none := by
  simp only [taken]
  split
  · simp
  · split
    · intro x hx
      rcases List.mem_cons.mp hx with rfl | hx
      · rfl
      · exact no_read_answers _ _ x hx
    · simp

omit [ByteQueue Q] in
theorem no_read_failed (f : Failure) : ∀ x ∈ (s.failed f).2, x.read? = none := by
  rw [failed]
  cases s.failure <;> simp [Effect.read?]

end Outbound

namespace Engine

open Effect (told Exact)

/-- What an event adds to the stream. -/
def Event.items : Event → List Item
  | .incoming n => n.items
  | _ => []

/-- The stream of what came in with some events. -/
def stream (events : List Event) : List Item := events.flatMap Event.items

theorem stream_concat (events : List Event) (event : Event) :
    stream (events ++ [event]) = stream events ++ event.items := by
  rw [stream, List.flatMap_append, List.flatMap_singleton, stream]

/-- The reads that a step may answer, in order. -/
def asking {Q : Type} (e : Engine Q) : Event → List ReadRequest
  | .read id length => [⟨id, length⟩]
  | .incoming _ => e.inbound.waiting
  | _ => []

/-- Everything that came in was told or is undelivered. -/
structure Receives (e : Engine Bytes) (came : List Item) (past : List Effect) : Prop where
  consistent : e.inbound.Consistent
  law : told past ++ e.inbound.undelivered = came

variable {e : Engine Bytes} {came : List Item} {past : List Effect}

theorem receives_new (settings : Settings) : Receives (new settings) [] [] :=
  ⟨Inbound.consistent_new _, rfl⟩

/-- A step of the inbound half that takes its answers off the stream. -/
theorem receives_inbound (h : Receives e came past) {next : Inbound Bytes × List Effect}
    {added : List Item} (hc : next.1.Consistent)
    (hs : told next.2 ++ next.1.undelivered = e.inbound.undelivered ++ added) :
    Receives (e.withInbound next).1 (came ++ added) (past ++ (e.withInbound next).2) := by
  constructor
  · exact hc
  · rw [← h.law, Effect.told_append, List.append_assoc, List.append_assoc, ← hs]
    rfl

/-- The outbound half has no part in the stream. -/
theorem receives_outbound (h : Receives e came past) {next : Outbound Bytes × List Effect}
    (hn : ∀ x ∈ next.2, x.read? = none) :
    Receives (e.withOutbound next).1 (came ++ []) (past ++ (e.withOutbound next).2) := by
  have htold : told (e.withOutbound next).2 = [] := Effect.told_eq_nil hn
  constructor
  · exact h.consistent
  · rw [Effect.told_append, htold, List.append_nil, List.append_nil]
    exact h.law

/-- Every step keeps the law. -/
theorem receives_step (h : Receives e came past) (event : Event) :
    Receives (e.step event).1 (came ++ event.items) (past ++ (e.step event).2) := by
  cases event with
  | read id length =>
    obtain ⟨hc, hs, -⟩ := Inbound.stream_read h.consistent id length
    exact receives_inbound h hc (hs.trans (List.append_nil _).symm)
  | incoming n =>
    obtain ⟨hc, hs, -⟩ := Inbound.stream_incoming h.consistent n
    exact receives_inbound h hc hs
  | write data => exact receives_outbound h (Outbound.no_read_write _ _ data)
  | flush id => exact receives_outbound h (Outbound.no_read_flush _ id)
  | chunkTaken => exact receives_outbound h (Outbound.no_read_taken _ _)
  | writeFailed f => exact receives_outbound h (Outbound.no_read_failed _ f)

/-- Every run keeps the law. -/
theorem receives_run (h : Receives e came past) (events : List Event) :
    Receives (e.run events).1 (came ++ stream events) (past ++ (e.run events).2) := by
  induction events generalizing e came past with
  | nil =>
    rw [stream, List.flatMap_nil, run_nil, List.append_nil, List.append_nil]
    exact h
  | cons event rest ih =>
    have hrest := ih (receives_step h event)
    rwa [List.append_assoc, List.append_assoc] at hrest

/-- Every step answers its reads as well as it can. -/
theorem exact_step (h : e.inbound.Consistent) (event : Event) :
    Exact (e.inbound.undelivered ++ event.items) (e.asking event) (e.step event).2 := by
  cases event with
  | read id length =>
    obtain ⟨-, -, hexact⟩ := Inbound.stream_read h id length
    exact (List.append_nil e.inbound.undelivered).symm ▸ hexact
  | incoming n =>
    obtain ⟨-, -, hexact⟩ := Inbound.stream_incoming h n
    exact hexact
  | write data => exact Effect.exact_of_no_read (Outbound.no_read_write _ _ data)
  | flush id => exact Effect.exact_of_no_read (Outbound.no_read_flush _ id)
  | chunkTaken => exact Effect.exact_of_no_read (Outbound.no_read_taken _ _)
  | writeFailed f => exact Effect.exact_of_no_read (Outbound.no_read_failed _ f)

/-- What came in and was not handed to a reader: the bytes in the queue, with the failures that are
held at their positions. -/
def undelivered (e : Engine Ring) : List Item :=
  layOut e.inbound.delivered e.inbound.queue.toList e.inbound.failures

/-- The inbound stream over every run. A notification adds its first `chunkLimit` bytes and its
failure; what readers were told and what is undelivered spell the stream; closing the engine tells
and loses nothing of it; and whatever happens next, each read that is answered gets a failure or as
many bytes as it wants, up to the next failure. -/
theorem inbound_stream (choices : List Setting) (events : List Event) :
    let start : Engine Ring := new (Settings.build choices)
    let e := (start.run events).1
    let past := (start.run events).2
    (∀ data failure, (Event.incoming (Notification.receive data failure).1).items =
      (data.take chunkLimit).map .byte ++ failure.toList.map .mark) ∧
    told past ++ e.undelivered = stream events ∧
    (told e.shutdown.2 = [] ∧ e.shutdown.1.undelivered = e.undelivered) ∧
    ∀ event, Exact ((stream (events ++ [event])).drop (told past).length) (e.asking event)
      (e.step event).2 := by
  intro start e past
  obtain ⟨hve, hrun⟩ := run_new_plain (Settings.build choices) events
  have hreceives := receives_run (receives_new (Settings.build choices)) events
  rw [hrun] at hreceives
  have hlaw : told past ++ e.undelivered = stream events := hreceives.law
  refine ⟨?_, hlaw, ⟨?_, rfl⟩, fun event => ?_⟩
  · intro data failure
    simp only [Event.items, Notification.items, Notification.receive, Chunk.bytes_ofBytes]
  · simp [shutdown, Outbound.close, Inbound.close, told, Effect.items, Item.ofResult]
  · have hexact := exact_step hreceives.consistent event
    obtain ⟨-, hs⟩ := step_plain hve event
    have hasking : e.plain.asking event = e.asking event := by cases event <;> rfl
    have hdrop : (stream (events ++ [event])).drop (told past).length =
        e.undelivered ++ event.items := by
      rw [stream_concat, ← hlaw, List.append_assoc, List.drop_left]
    rw [hs, hasking] at hexact
    rw [hdrop]
    exact hexact

end Engine

end SerialBridge
