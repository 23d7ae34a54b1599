import SerialBridge.Proofs.Bridge.Callers
import SerialBridge.Session

/-!
# Closing

Whatever the engine, the pump and the callers are at when a bridge is closed, no call comes in from
then on. The engine may still handle what it was offered before it notices; when it does, it answers
all that is pending, and the calls still at the door are refused. So each request that was
outstanding is answered once: by the engine at its work, or by being told that the bridge is closed.
-/

namespace SerialBridge

open Effect (answered replies sent)

/-- Whether a request is told that the bridge is closed. -/
def Reply.isClosed : Reply → Bool
  | .read (.error .closed) | .flush (.error .closed) => true
  | _ => false

variable {Q : Type} [ByteQueue Q] {effects : List Effect} {id : Nat} {reply : Reply}

/-! ## Who says that the bridge is closed -/

namespace Inbound

theorem open_take? {s t : Inbound Q} {length : Nat} {result : Except CallError Bytes}
    (h : s.take? length = some (result, t)) : (Reply.read result).isClosed = false := by
  have hbytes {limit : Nat} (h : s.takeBytes? limit = some (result, t)) :
      (Reply.read result).isClosed = false := by
    simp only [takeBytes?] at h
    split at h
    · cases h
    · obtain ⟨rfl, -⟩ := Prod.mk.inj (Option.some.inj h)
      rfl
  rw [take?] at h
  split at h
  · exact hbytes h
  · split at h
    · obtain ⟨rfl, -⟩ := Prod.mk.inj (Option.some.inj h)
      rfl
    · exact hbytes h

theorem open_read {s : Inbound Q} {request length : Nat}
    (hx : .replied id reply ∈ (s.read request length).2) : reply.isClosed = false := by
  rw [read] at hx
  cases ht : s.take? length with
  | none => simp [ht] at hx
  | some answer =>
    obtain ⟨-, rfl⟩ : id = request ∧ reply = .read answer.1 := by simpa [ht] using hx
    exact open_take? ht

theorem open_serve {s : Inbound Q} {requests : List ReadRequest}
    (hx : .replied id reply ∈ (s.serve requests).2) : reply.isClosed = false := by
  induction requests generalizing s with
  | nil => cases hx
  | cons r rest ih =>
    rw [serve] at hx
    cases ht : s.take? r.length with
    | none => simp [ht] at hx
    | some answer =>
      simp only [ht] at hx
      obtain heq | hlater := List.mem_cons.mp hx
      · obtain ⟨-, rfl⟩ := Effect.replied.inj heq
        exact open_take? ht
      · exact ih hlater

theorem open_incoming {s : Inbound Q} {n : Notification}
    (hx : .replied id reply ∈ (s.incoming n).2) : reply.isClosed = false := by
  have hserved : .replied id reply ∈ ((s.accept n).serve (s.accept n).waiting).2 := by
    rw [incoming] at hx
    cases hf : n.failure with
    | none => simpa [hf] using hx
    | some f => simpa [hf] using hx
  exact open_serve hserved

end Inbound

namespace Engine

/-- No event is answered with the end of the bridge. -/
theorem open_step {e : Engine Q} {event : Event} (hx : .replied id reply ∈ (e.step event).2) :
    reply.isClosed = false := by
  cases reply with
  | flush result =>
    have hresult : result ∈ (e.step event).2.filterMap Effect.flushReply? :=
      List.mem_filterMap.mpr ⟨_, hx, rfl⟩
    obtain hnone | ⟨others, htold⟩ := told_step e event
    · rw [hnone] at hresult
      cases hresult
    · rw [htold, List.mem_cons, List.mem_replicate] at hresult
      obtain rfl | ⟨-, rfl⟩ := hresult
      · cases e.outbound.failure <;> rfl
      · rfl
  | read result =>
    cases event with
    | read request length => exact Inbound.open_read hx
    | incoming n => exact Inbound.open_incoming hx
    | write data => cases Outbound.no_read_write e.outbound _ data _ hx
    | flush request => cases Outbound.no_read_flush e.outbound request _ hx
    | chunkTaken => cases Outbound.no_read_taken e.outbound _ _ hx
    | writeFailed f => cases Outbound.no_read_failed e.outbound f _ hx

omit [ByteQueue Q] in
/-- An engine that ends answers with nothing else. -/
theorem closed_shutdown {e : Engine Q} (hx : .replied id reply ∈ e.shutdown.2) :
    reply.isClosed = true := by
  have hreply : (id, reply) ∈ replies e.shutdown.2 := List.mem_filterMap.mpr ⟨_, hx, rfl⟩
  rw [replies_shutdown] at hreply
  obtain ⟨query, -, hq⟩ := List.mem_map.mp hreply
  cases query <;> cases hq <;> rfl

end Engine

namespace Link

variable {l l' : Link Q} {event : Event}

theorem reply_step (hs : l.step? event = some (l', effects)) (hx : .replied id reply ∈ effects) :
    reply.isClosed = true ∧ event = .shutdown ∨
      reply.isClosed = false ∧ event ≠ .shutdown ∧ l.serving = true := by
  have hfront {front : List Effect} (h : ∀ x ∈ front, x.IsLogged) :
      .replied id reply ∉ front := fun hmem => by
    obtain ⟨entry, hentry⟩ := h _ hmem
    cases hentry
  cases passes_step hs with
  | step e front logged _ goesOn serving _ _ =>
    have hstep := (List.mem_append.mp hx).resolve_left (hfront logged)
    exact .inr ⟨Engine.open_step hstep, goesOn, serving⟩
  | shutdown front logged ends _ _ =>
    have hend := (List.mem_append.mp hx).resolve_left (hfront logged)
    exact .inl ⟨Engine.closed_shutdown hend, ends⟩
  | nothing _ silent _ _ _ =>
    have hreply : (id, reply) ∈ replies effects := List.mem_filterMap.mpr ⟨_, hx, rfl⟩
    rw [silent] at hreply
    cases hreply

end Link

namespace Shared

variable {s t : Shared Q} {act : Act} {acts : List Act}

/-- The end of the engine, and refusals at the door. -/
def Act.ends : Act → Bool
  | .refuse _ _ | .move .shutdown => true
  | _ => false

/-- In a run of some acts an effect was shown by an event that the engine handled while it still
served. -/
def Handled (s : Shared Q) (acts : List Act) (x : Effect) : Prop :=
  ∃ front act rest now earlier next shown, acts = front ++ act :: rest ∧
    s.run? front = some (now, earlier) ∧ now.link.serving = true ∧ act.ends = false ∧
    now.step? act = some (next, shown) ∧ x ∈ shown

theorem reply_act (hs : s.step? act = some (t, effects)) (hx : .replied id reply ∈ effects) :
    reply.isClosed = true ∧ act.ends = true ∨
      reply.isClosed = false ∧ act.ends = false ∧ s.link.serving = true := by
  cases act with
  | enter request call =>
    obtain ⟨-, -, -, rfl⟩ := eq_of_enter hs
    cases hx
  | take request call =>
    obtain ⟨-, hend⟩ | ⟨hopen, -, hserving⟩ := Link.reply_step (eq_of_take hs).2.2 hx
    · cases call <;> cases hend
    · exact .inr ⟨hopen, rfl, hserving⟩
  | refuse request call =>
    obtain ⟨-, -, -, rfl⟩ := eq_of_refuse hs
    refine .inl ⟨?_, rfl⟩
    cases call with
    | write data => cases hx
    | read length => cases List.mem_singleton.mp hx; rfl
    | flush => cases List.mem_singleton.mp hx; rfl
  | move event =>
    obtain ⟨hclosed, rfl⟩ | ⟨hopen, hne, hserving⟩ := Link.reply_step (eq_of_move hs).2.2 hx
    · exact .inl ⟨hclosed, rfl⟩
    · refine .inr ⟨hopen, ?_, hserving⟩
      cases event <;> first | rfl | exact absurd rfl hne

/-- An answer that does not say that the bridge is closed was given by the engine at its work. -/
theorem handled_of_open (hr : s.run? acts = some (t, effects)) (hx : .replied id reply ∈ effects)
    (hopen : reply.isClosed = false) : s.Handled acts (.replied id reply) := by
  induction acts generalizing s effects with
  | nil =>
    obtain ⟨-, rfl⟩ := Prod.mk.inj (Option.some.inj hr)
    cases hx
  | cons act rest ih =>
    obtain ⟨next, first, later, hs, hlast, rfl⟩ := eq_of_run?_cons hr
    obtain hnow | hlater := List.mem_append.mp hx
    · obtain ⟨hclosed, -⟩ | ⟨-, hends, hserving⟩ := reply_act hs hnow
      · cases hopen.symm.trans hclosed
      · exact ⟨[], act, rest, s, [], next, first, rfl, rfl, hserving, hends, hs, hnow⟩
    · obtain ⟨front, act', rest', now, earlier, next', shown, rfl, hfront, hhandled⟩ :=
        ih hlast hlater
      refine ⟨act :: front, act', rest', now, first ++ earlier, next', shown, rfl, ?_, hhandled⟩
      simp only [run?, hs, hfront]

/-- The engine at its work does not say so. -/
theorem open_of_handled (h : s.Handled acts (.replied id reply)) : reply.isClosed = false := by
  obtain ⟨-, act, -, now, -, next, shown, -, -, -, hends, hs, hx⟩ := h
  obtain ⟨-, hend⟩ | ⟨hopen, -, -⟩ := reply_act hs hx
  · cases hends.symm.trans hend
  · exact hopen

/-! ## The closed door -/

theorem closed_act (h : s.link.closed = true) (hs : s.step? act = some (t, effects)) :
    t.link.closed = true ∧ act.entrant? = none := by
  cases act with
  | enter request call => cases h.symm.trans (eq_of_enter hs).1
  | take request call => exact ⟨Link.closed_step h (eq_of_take hs).2.2, rfl⟩
  | refuse request call =>
    obtain ⟨-, -, rfl, -⟩ := eq_of_refuse hs
    exact ⟨h, rfl⟩
  | move event => exact ⟨Link.closed_step h (eq_of_move hs).2.2, rfl⟩

/-- No call comes to the door of a closed link. -/
theorem closed_run (h : s.link.closed = true) (hr : s.run? acts = some (t, effects)) :
    t.link.closed = true ∧ entrants acts = [] := by
  induction acts generalizing s effects with
  | nil =>
    obtain ⟨rfl, -⟩ := Prod.mk.inj (Option.some.inj hr)
    exact ⟨h, rfl⟩
  | cons act rest ih =>
    obtain ⟨next, first, later, hs, hlast, -⟩ := eq_of_run?_cons hr
    obtain ⟨hclosed, hnone⟩ := closed_act h hs
    obtain ⟨hlastClosed, hentrants⟩ := ih hclosed hlast
    rw [entrants_cons, hnone, hentrants]
    exact ⟨hlastClosed, rfl⟩

end Shared

namespace Bridge

variable {P : Type}

/-- A bridge that refuses all calls and that no call changes. -/
structure Shut (b : Bridge P Q) : Prop where
  read : ∀ length, b.read length = (b, .settled (.error .closed), [])
  write : ∀ data, b.write data = (b, .error .closed, [])
  flush : b.flush = (b, .settled (.error .closed), [])
  close : b.close = (b, [])

theorem shut_of_closed {b : Bridge P Q} (h : b.link.closed = true) : b.Shut where
  read _ := if_pos h
  write _ := if_pos h
  flush := if_pos h
  close := if_pos h

end Bridge

namespace Session

variable {P : Type} [Peripheral P Unit]

/-- What calls come to, whatever they ask for, in a session with a closed bridge. -/
structure Refuses (s : Session P Q) : Prop where
  read : ∀ length, (s.step (.read length)).2.result = .bytes (.error .closed)
  write : ∀ data, (s.step (.write data)).2.result = .count (.error .closed)
  flush : (s.step .flush).2.result = .unit (.error .closed)
  close : (s.step .close).2.result = .unit (.ok ())

theorem refuses_of_closed {s : Session P Q} (h : s.bridge.link.closed = true) : s.Refuses where
  read length := by
    simp only [step, startRead, (Bridge.shut_of_closed h).read length]
    rfl
  write data := by
    simp only [step, (Bridge.shut_of_closed h).write data]
  flush := by
    simp only [step, startFlush, (Bridge.shut_of_closed h).flush]
    rfl
  close := rfl

end Session

namespace Shared

/-- The bytes of the writes that the engine took in some acts, in order. -/
def accepted (acts : List Act) : Bytes := Link.written (linkEvents acts)

theorem accepted_append (a b : List Act) : accepted (a ++ b) = accepted a ++ accepted b := by
  rw [accepted, linkEvents, List.filterMap_append, Link.written, List.flatMap_append]
  rfl

/-- Before and after any moment, what was sent and is being sent is the front of what was taken. -/
theorem sent_prefix (choices : List Setting) {before after : List Act} {s t : Shared Ring}
    {past later : List Effect}
    (hbefore : (new (Settings.build choices)).run? before = some (s, past))
    (hafter : s.run? after = some (t, later)) :
    sent past ++ s.link.pump.inFlight <+: accepted before ∧
      sent (past ++ later) ++ t.link.pump.inFlight <+: accepted (before ++ after) := by
  obtain ⟨shown, hfirst, hsent⟩ := link_run hbefore
  obtain ⟨shown', hsecond, hsent'⟩ := link_run hafter
  obtain ⟨hplain, hvalid⟩ := Link.run?_new_plain (Settings.build choices) (linkEvents before)
  have hstart : (new (Settings.build choices) : Shared Ring).link =
      Link.new (Settings.build choices) := rfl
  rw [hstart] at hfirst
  rw [hfirst, Option.map_some] at hplain
  have hplain' := (Link.run?_plain (hvalid _ hfirst) (linkEvents after)).1
  rw [hsecond, Option.map_some] at hplain'
  have haccounts := Link.accounts_run (Link.accounts_new choices) hplain
  have haccounts' := Link.accounts_run haccounts hplain'
  constructor
  · rw [← hsent]
    exact ⟨_, haccounts.bytes⟩
  · rw [Effect.sent_append, ← hsent, ← hsent', ← Effect.sent_append, accepted_append]
    exact ⟨_, haccounts'.bytes⟩

/-- Closing is final, whatever was going on before and whatever comes next. All calls on the closed
bridge are refused, so the calls that the engine may still take, and the bytes that it may still
send, are those of calls that were at the door when the bridge was closed. The requests outstanding
then are answered once each, and told that the bridge is closed unless the engine answered them in
an event that it handled before it ended. It can end at any time, and once it has, nothing is
pending and all calls at the door can be refused. -/
theorem close_final (choices : List Setting) {before after : List Act} {s t : Shared Ring}
    {past later : List Effect}
    (hbefore : (new (Settings.build choices)).run? before = some (s, past))
    (hafter : s.run? (.move .close :: after) = some (t, later)) :
    (∀ id call, t.step? (.enter id call) = none) ∧
    (∀ {P : Type} [Peripheral P Unit] (session : Session P Ring),
      session.bridge.link = t.link → session.bridge.Shut ∧ session.Refuses) ∧
    (leavers after ++ t.door).Perm s.door ∧
    (answered later ++ t.outstanding).Perm s.outstanding ∧
    (∀ id reply, .replied id reply ∈ later →
      (reply.isClosed = false ↔ s.Handled (.move .close :: after) (.replied id reply))) ∧
    (t.link.serving = true → (t.step? (.move .shutdown)).isSome = true) ∧
    (t.link.serving = false →
      t.link.engine.pending = [] ∧
      (∀ id call, (id, call) ∈ t.door → (t.step? (.refuse id call)).isSome = true) ∧
      (t.door = [] → (answered later).Perm s.outstanding)) ∧
    sent past ++ s.link.pump.inFlight <+: accepted before ∧
    sent (past ++ later) ++ t.link.pump.inFlight <+:
      accepted (before ++ .move .close :: after) := by
  obtain ⟨next, first, rest, hclose, hrest, rfl⟩ := eq_of_run?_cons hafter
  have hnext : next.link.closed = true := by
    have hstep := (eq_of_move hclose).2.2
    obtain ⟨hlink, -⟩ := Prod.mk.inj (Option.some.inj hstep)
    rw [← hlink]
  obtain ⟨hclosed, hentrants⟩ := closed_run hnext hrest
  have hnone : entrants (.move .close :: after) = [] := hentrants
  have hdoor := door_run hafter
  have houtstanding := outstanding_run hafter
  rw [hnone, List.append_nil] at hdoor
  rw [hnone, requests, List.filterMap_nil, List.append_nil] at houtstanding
  have hsettled : t.link.serving = false → t.link.engine.pending = [] :=
    settled_run (settled_run (fun hgone => by cases hgone) hbefore) hafter
  refine ⟨?_, ?_, hdoor, houtstanding, ?_, ?_, ?_, sent_prefix choices hbefore hafter⟩
  · intro id call
    rw [step?, hclosed]
    rfl
  · intro P _ session hsession
    have h : session.bridge.link.closed = true := hsession ▸ hclosed
    exact ⟨Bridge.shut_of_closed h, Session.refuses_of_closed h⟩
  · intro id reply hx
    exact ⟨handled_of_open hafter hx, open_of_handled⟩
  · intro hserving
    simp [step?, Link.Event.isCall, Link.step?, Link.shutdown?, hserving, hclosed]
  · intro hgone
    refine ⟨hsettled hgone, fun id call hmem => ?_, fun hempty => ?_⟩
    · rw [(take_or_refuse hmem).2, hgone]
      rfl
    · rw [outstanding, hempty, hsettled hgone] at houtstanding
      rwa [requests, List.filterMap_nil, List.append_nil, List.append_nil] at houtstanding

/-- A bridge is closed while a write is in progress, a read and a flush are pending, and a read and
a write stand at the door. The engine takes the write and ends; the read at the door is refused. -/
theorem close_final_of_five :
    let before : List Act := [.enter 1 (.read 4), .take 1 (.read 4), .enter 2 (.write [1, 2, 3]),
      .take 2 (.write [1, 2, 3]), .move .handOff, .enter 3 .flush, .take 3 .flush,
      .enter 4 (.read 2), .enter 5 (.write [9])]
    let after : List Act := [.take 5 (.write [9]), .move (.complete none), .move .shutdown,
      .refuse 4 (.read 2), .move .halt]
    ∃ (s t : Shared Ring) (past later : List Effect),
      (new (Settings.build [.maxChunk 2])).run? before = some (s, past) ∧
      s.run? (.move .close :: after) = some (t, later) ∧
      s.outstanding = [.read 4, .flush 3, .read 1] ∧
      replies later = [(3, .flush (.error .closed)), (1, .read (.error .closed)),
        (4, .read (.error .closed))] ∧
      (answered later).Perm s.outstanding ∧ t.step? (.enter 6 (.write [7])) = none ∧
      sent (past ++ later) = [1, 2] ∧
      sent (past ++ later) ++ t.link.pump.inFlight <+:
        accepted (before ++ .move .close :: after) := by
  intro before after
  have hstate : ((new (Settings.build [.maxChunk 2]) : Shared Ring).run? before).bind (fun r =>
      (r.1.run? (.move .close :: after)).map fun r' =>
        (r.1.outstanding, r'.1.door, r'.1.link.serving)) =
      some ([.read 4, .flush 3, .read 1], [], false) := by
    decide +kernel
  have hshown : ((new (Settings.build [.maxChunk 2]) : Shared Ring).run? before).bind (fun r =>
      (r.1.run? (.move .close :: after)).map fun r' => (replies r'.2, sent (r.2 ++ r'.2))) =
      some ([(3, .flush (.error .closed)), (1, .read (.error .closed)),
        (4, .read (.error .closed))], [1, 2]) := by
    decide +kernel
  obtain ⟨⟨s, past⟩, hbefore, hrest⟩ := Option.bind_eq_some_iff.mp hstate
  obtain ⟨⟨t, later⟩, hafter, hlast⟩ := Option.map_eq_some_iff.mp hrest
  simp only [hbefore, hafter, Option.bind_some, Option.map_some, Option.some.injEq,
    Prod.mk.injEq] at hshown hlast
  obtain ⟨houtstanding, hdoor, hgone⟩ := hlast
  obtain ⟨hreplies, hsent⟩ := hshown
  obtain ⟨hentry, -, -, -, -, -, hend, -, hprefix⟩ := close_final _ hbefore hafter
  exact ⟨s, t, past, later, hbefore, hafter, houtstanding, hreplies, (hend hgone).2.2 hdoor,
    hentry 6 (.write [7]), hsent, hprefix⟩

end Shared

end SerialBridge
