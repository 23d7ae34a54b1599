import SerialBridge.Bridge
import SerialBridge.Callers
import SerialBridge.Proofs.Engine.Requests
import SerialBridge.Proofs.Link.Smooth

/-!
# Callers at the door

A call that meets no other is taken or refused at once, and that is the call that a bridge offers.
Whatever the order of things, each call that came to the door leaves it or still stands there, and
each request that was made is answered or outstanding, as often as it was made.
-/

namespace SerialBridge

open Effect (answered replies sent)

/-- What enters and what leaves, over two stretches of time. -/
theorem perm_balance {α : Type} {before middle after left left' came came' : List α}
    (h : (left ++ middle).Perm (before ++ came)) (h' : (left' ++ after).Perm (middle ++ came')) :
    (left ++ left' ++ after).Perm (before ++ (came ++ came')) := by
  calc left ++ left' ++ after
    _ = left ++ (left' ++ after) := List.append_assoc ..
    List.Perm _ (left ++ (middle ++ came')) := h'.append_left left
    _ = left ++ middle ++ came' := (List.append_assoc ..).symm
    List.Perm _ (before ++ came ++ came') := h.append_right came'
    _ = before ++ (came ++ came') := List.append_assoc ..

/-- The request that a call makes. -/
def Call.query? (id : Nat) : Call → Option Query
  | .read _ => some (.read id)
  | .write _ => none
  | .flush => some (.flush id)

namespace Link

/-- The request that an event makes. -/
def Event.query? : Event → Option Query
  | .read id _ => some (.read id)
  | .flush id => some (.flush id)
  | _ => none

variable {Q : Type} [ByteQueue Q] {l l' : Link Q} {event : Event} {effects : List Effect}

/-- What a step of a link is to its engine: a step of its own, its end, or nothing. -/
inductive Passes (l l' : Link Q) (event : Event) : List Effect → Prop where
  | step (e : Engine.Event) (front : List Effect) (logged : ∀ x ∈ front, x.IsLogged)
      (asks : e.query? = event.query?) (goesOn : event ≠ .shutdown) (serving : l.serving = true)
      (engine : l'.engine = (l.engine.step e).1) (served : l'.serving = true) :
      Passes l l' event (front ++ (l.engine.step e).2)
  | shutdown (front : List Effect) (logged : ∀ x ∈ front, x.IsLogged) (ends : event = .shutdown)
      (engine : l'.engine = l.engine.shutdown.1) (served : l'.serving = false) :
      Passes l l' event (front ++ l.engine.shutdown.2)
  | nothing (effects : List Effect) (silent : replies effects = []) (asks : event.query? = none)
      (engine : l'.engine = l.engine) (served : l'.serving = l.serving) :
      Passes l l' event effects

theorem passes_feed (e : Engine.Event) (hs : l.feed? e = some (l', effects))
    (hasks : e.query? = event.query?) (hne : event ≠ .shutdown) : Passes l l' event effects := by
  obtain ⟨hserving, rfl, rfl⟩ := eq_of_feed? e hs
  exact .step e [] (List.forall_mem_nil _) hasks hne hserving rfl hserving

theorem passes_step (hs : l.step? event = some (l', effects)) : Passes l l' event effects := by
  cases event with
  | read id length => exact passes_feed (.read id length) hs rfl (by simp)
  | write data => exact passes_feed (.write data) hs rfl (by simp)
  | flush id => exact passes_feed (.flush id) hs rfl (by simp)
  | incoming n => exact passes_feed (.incoming n) hs rfl (by simp)
  | handOff =>
    obtain ⟨-, hserving, -, ⟨-, rfl, rfl⟩ | ⟨-, rfl, rfl⟩⟩ := eq_of_handOff? hs
    · exact .step .chunkTaken [] (List.forall_mem_nil _) rfl (by simp) hserving rfl hserving
    · exact .step .chunkTaken [_] (List.forall_mem_singleton.mpr ⟨_, rfl⟩) rfl (by simp) hserving
        rfl hserving
  | complete failure =>
    obtain ⟨data, -, ⟨-, rfl, rfl⟩ | ⟨f, -, rfl, rfl⟩⟩ := eq_of_complete? hs
    · exact .nothing _ rfl rfl rfl rfl
    · exact .nothing _ rfl rfl rfl rfl
  | report =>
    obtain ⟨f, -, ⟨hserving, rfl, rfl⟩ | ⟨-, rfl, rfl⟩⟩ := eq_of_report? hs
    · exact .step (.writeFailed f) [] (List.forall_mem_nil _) rfl (by simp) hserving rfl hserving
    · exact .nothing _ rfl rfl rfl rfl
  | close =>
    obtain ⟨rfl, rfl⟩ := Prod.mk.inj (Option.some.inj hs)
    exact .nothing _ rfl rfl rfl rfl
  | unsubscribe =>
    obtain ⟨rfl, rfl⟩ := Prod.mk.inj (Option.some.inj hs)
    exact .nothing _ rfl rfl rfl rfl
  | shutdown =>
    obtain ⟨-, -, rfl, rfl⟩ := eq_of_shutdown? hs
    refine .shutdown _ ?_ rfl rfl rfl
    split
    · exact List.forall_mem_nil _
    · exact List.forall_mem_singleton.mpr ⟨_, rfl⟩
  | halt =>
    obtain ⟨-, -, rfl, rfl⟩ := eq_of_halt? hs
    exact .nothing _ rfl rfl rfl rfl

/-- A step answers or leaves pending what was pending and what it asks for. -/
theorem pending_step (hs : l.step? event = some (l', effects)) :
    (answered effects ++ l'.engine.pending).Perm (l.engine.pending ++ event.query?.toList) := by
  have hsilent {effects : List Effect} (h : replies effects = []) : answered effects = [] :=
    Engine.answered_of_replies h
  have hfront {front : List Effect} (h : ∀ x ∈ front, x.IsLogged) : answered front = [] :=
    hsilent (Effect.replies_of_isLogged h)
  cases passes_step hs with
  | step e front logged asks _ _ engine _ =>
    have hself : l.engine.Answerable l.engine.pending [] :=
      ⟨.refl _, List.sublist_append_left _ _, List.sublist_append_right _ _⟩
    have honce := (Engine.answerable_step hself e).once
    rw [Effect.answered_append, hfront logged, engine, ← asks]
    exact honce
  | shutdown front logged ends engine _ =>
    have hasks : event.query? = none := by rw [ends]; rfl
    have hleft : l.engine.shutdown.1.pending = [] := rfl
    rw [Effect.answered_append, hfront logged, engine, hleft, hasks,
      Engine.answered_of_replies (Engine.replies_shutdown l.engine), List.nil_append]
    exact .refl _
  | nothing _ silent asks engine _ =>
    rw [hsilent silent, engine, asks]
    exact .of_eq (List.append_nil _).symm

/-- Nothing is pending once the engine is gone. -/
theorem settled_step (h : l.serving = false → l.engine.pending = [])
    (hs : l.step? event = some (l', effects)) : l'.serving = false → l'.engine.pending = [] := by
  intro hgone
  cases passes_step hs with
  | step e front _ _ _ _ _ served => cases served.symm.trans hgone
  | shutdown front _ _ engine _ => rw [engine]; rfl
  | nothing _ _ _ engine served => rw [engine]; exact h (served.symm.trans hgone)

/-- A closed link stays closed. -/
theorem closed_step (h : l.closed = true) (hs : l.step? event = some (l', effects)) :
    l'.closed = true := by
  have hfeed (e : Engine.Event) (hs : l.feed? e = some (l', effects)) : l'.closed = true := by
    obtain ⟨-, rfl, -⟩ := eq_of_feed? e hs
    exact h
  cases event with
  | read id length => exact hfeed (.read id length) hs
  | write data => exact hfeed (.write data) hs
  | flush id => exact hfeed (.flush id) hs
  | incoming n => exact hfeed (.incoming n) hs
  | handOff => obtain ⟨-, -, -, ⟨-, rfl, -⟩ | ⟨-, rfl, -⟩⟩ := eq_of_handOff? hs <;> exact h
  | complete failure =>
    obtain ⟨-, -, ⟨-, rfl, -⟩ | ⟨-, -, rfl, -⟩⟩ := eq_of_complete? hs <;> exact h
  | report => obtain ⟨-, -, ⟨-, rfl, -⟩ | ⟨-, rfl, -⟩⟩ := eq_of_report? hs <;> exact h
  | close => obtain ⟨rfl, -⟩ := Prod.mk.inj (Option.some.inj hs); rfl
  | unsubscribe => obtain ⟨rfl, -⟩ := Prod.mk.inj (Option.some.inj hs); exact h
  | shutdown => obtain ⟨-, -, rfl, -⟩ := eq_of_shutdown? hs; exact h
  | halt => obtain ⟨-, -, rfl, -⟩ := eq_of_halt? hs; exact h

theorem step?_call (l : Link Q) (id : Nat) (call : Call) :
    (l.step? (call.event id)).isSome = l.serving := by
  cases call <;> simp only [Call.event, step?, feed?] <;> cases l.serving <;> rfl

end Link

namespace Shared

/-- The call that comes to the door in an act. -/
def Act.entrant? : Act → Option (Nat × Call)
  | .enter id call => some (id, call)
  | _ => none

/-- The call that leaves the door in an act, taken or refused. -/
def Act.leaver? : Act → Option (Nat × Call)
  | .take id call | .refuse id call => some (id, call)
  | _ => none

/-- What happens to the link in an act. -/
def Act.event? : Act → Option Link.Event
  | .take id call => some (call.event id)
  | .move event => some event
  | _ => none

/-- The calls that come to the door in some acts. -/
def entrants (acts : List Act) : List (Nat × Call) := acts.filterMap Act.entrant?

/-- The calls that leave the door in some acts. -/
def leavers (acts : List Act) : List (Nat × Call) := acts.filterMap Act.leaver?

theorem entrants_cons (act : Act) (rest : List Act) :
    entrants (act :: rest) = act.entrant?.toList ++ entrants rest := by
  rw [entrants, List.filterMap_cons]
  cases act.entrant? <;> rfl

theorem leavers_cons (act : Act) (rest : List Act) :
    leavers (act :: rest) = act.leaver?.toList ++ leavers rest := by
  rw [leavers, List.filterMap_cons]
  cases act.leaver? <;> rfl

/-- What happens to the link in some acts. -/
def linkEvents (acts : List Act) : List Link.Event := acts.filterMap Act.event?

/-- The requests that calls make. -/
def requests (calls : List (Nat × Call)) : List Query := calls.filterMap fun p => p.2.query? p.1

/-- The requests that want an answer, at the door or pending in the engine. -/
def outstanding {Q : Type} (s : Shared Q) : List Query := requests s.door ++ s.link.engine.pending

variable {Q : Type} [ByteQueue Q] {s t : Shared Q} {id : Nat} {call : Call} {act : Act}
  {acts : List Act} {effects : List Effect}

/-! ## Acts -/

theorem eq_of_enter (hs : s.step? (.enter id call) = some (t, effects)) :
    s.link.closed = false ∧ call.isVoid = false ∧ t = { s with door := s.door ++ [(id, call)] } ∧
      effects = [] := by
  rw [step?] at hs
  split at hs
  · cases hs
  · next hg =>
    obtain ⟨rfl, rfl⟩ := Prod.mk.inj (Option.some.inj hs)
    obtain ⟨hclosed, hvoid⟩ := not_or.mp (mt Bool.or_eq_true_iff.mpr hg)
    exact ⟨Bool.eq_false_iff.mpr hclosed, Bool.eq_false_iff.mpr hvoid, rfl, rfl⟩

theorem eq_of_take (hs : s.step? (.take id call) = some (t, effects)) :
    (id, call) ∈ s.door ∧ t.door = s.door.erase (id, call) ∧
      s.link.step? (call.event id) = some (t.link, effects) := by
  rw [step?] at hs
  split at hs
  · next hdoor =>
    obtain ⟨⟨link, shown⟩, hlink, hst⟩ := Option.map_eq_some_iff.mp hs
    obtain ⟨rfl, rfl⟩ := Prod.mk.inj hst
    exact ⟨hdoor, rfl, hlink⟩
  · cases hs

theorem eq_of_refuse (hs : s.step? (.refuse id call) = some (t, effects)) :
    (id, call) ∈ s.door ∧ s.link.serving = false ∧
      t = { s with door := s.door.erase (id, call) } ∧ effects = call.refusal id := by
  rw [step?] at hs
  split at hs
  · next hg =>
    obtain ⟨rfl, rfl⟩ := Prod.mk.inj (Option.some.inj hs)
    exact ⟨hg.1, hg.2, rfl, rfl⟩
  · cases hs

theorem eq_of_move {event : Link.Event} (hs : s.step? (.move event) = some (t, effects)) :
    event.isCall = false ∧ t.door = s.door ∧ s.link.step? event = some (t.link, effects) := by
  rw [step?] at hs
  split at hs
  · cases hs
  · next hcall =>
    obtain ⟨⟨link, shown⟩, hlink, hst⟩ := Option.map_eq_some_iff.mp hs
    obtain ⟨rfl, rfl⟩ := Prod.mk.inj hst
    exact ⟨Bool.eq_false_iff.mpr hcall, rfl, hlink⟩

theorem eq_of_run?_cons {rest : List Act} (h : s.run? (act :: rest) = some (t, effects)) :
    ∃ next first later, s.step? act = some (next, first) ∧ next.run? rest = some (t, later) ∧
      effects = first ++ later := by
  rw [run?] at h
  split at h
  · cases h
  · next next first hs =>
    split at h
    · cases h
    · next last later hr =>
      obtain ⟨rfl, rfl⟩ := Prod.mk.inj (Option.some.inj h)
      exact ⟨next, first, later, hs, hr, rfl⟩

/-- A call at the door can be taken just as long as the engine serves, and be refused from then
on. -/
theorem take_or_refuse (h : (id, call) ∈ s.door) :
    (s.step? (.take id call)).isSome = s.link.serving ∧
      (s.step? (.refuse id call)).isSome = !s.link.serving := by
  constructor
  · rw [step?, if_pos h, Option.isSome_map]
    exact Link.step?_call s.link id call
  · rw [step?]
    cases hserving : s.link.serving with
    | true => rw [if_neg fun hg => Bool.noConfusion hg.2]; rfl
    | false => rw [if_pos ⟨h, rfl⟩]; rfl

/-! ## The door -/

theorem door_step (hs : s.step? act = some (t, effects)) :
    (act.leaver?.toList ++ t.door).Perm (s.door ++ act.entrant?.toList) := by
  cases act with
  | enter id call =>
    obtain ⟨-, -, rfl, -⟩ := eq_of_enter hs
    exact .refl _
  | take id call =>
    obtain ⟨hmem, hdoor, -⟩ := eq_of_take hs
    rw [hdoor]
    exact (List.perm_cons_erase hmem).symm.trans (.of_eq (List.append_nil _).symm)
  | refuse id call =>
    obtain ⟨hmem, -, rfl, -⟩ := eq_of_refuse hs
    exact (List.perm_cons_erase hmem).symm.trans (.of_eq (List.append_nil _).symm)
  | move event =>
    obtain ⟨-, hdoor, -⟩ := eq_of_move hs
    rw [hdoor]
    exact .of_eq (List.append_nil _).symm

/-- Each call that was or came at the door has left it or stands there still. -/
theorem door_run (hr : s.run? acts = some (t, effects)) :
    (leavers acts ++ t.door).Perm (s.door ++ entrants acts) := by
  induction acts generalizing s effects with
  | nil =>
    obtain ⟨rfl, -⟩ := Prod.mk.inj (Option.some.inj hr)
    exact .of_eq (List.append_nil _).symm
  | cons act rest ih =>
    obtain ⟨next, first, later, hs, hlast, -⟩ := eq_of_run?_cons hr
    have hboth := perm_balance (door_step hs) (ih hlast)
    rw [leavers_cons, entrants_cons]
    exact hboth

/-! ## Requests -/

omit [ByteQueue Q] in
theorem query?_event (id : Nat) (call : Call) : (call.event id).query? = call.query? id := by
  cases call <;> rfl

omit [ByteQueue Q] in
theorem answered_refusal (id : Nat) (call : Call) :
    answered (call.refusal id) = (call.query? id).toList := by
  cases call <;> rfl

theorem requests_cons (p : Nat × Call) (rest : List (Nat × Call)) :
    requests (p :: rest) = (p.2.query? p.1).toList ++ requests rest := by
  rw [requests, List.filterMap_cons]
  cases p.2.query? p.1 <;> rfl

theorem requests_append (a b : List (Nat × Call)) : requests (a ++ b) = requests a ++ requests b :=
  List.filterMap_append

/-- The requests at a door from which a call goes. -/
theorem requests_erase {door : List (Nat × Call)} (h : (id, call) ∈ door) :
    ((call.query? id).toList ++ requests (door.erase (id, call))).Perm (requests door) := by
  rw [← requests_cons (id, call)]
  exact (List.perm_cons_erase h).symm.filterMap _

theorem outstanding_step (hs : s.step? act = some (t, effects)) :
    (answered effects ++ t.outstanding).Perm
      (s.outstanding ++ requests act.entrant?.toList) := by
  cases act with
  | enter id call =>
    obtain ⟨-, -, rfl, rfl⟩ := eq_of_enter hs
    calc requests (s.door ++ [(id, call)]) ++ s.link.engine.pending
      _ = requests s.door ++ (requests [(id, call)] ++ s.link.engine.pending) := by
        rw [requests_append, List.append_assoc]
      List.Perm _ (requests s.door ++ (s.link.engine.pending ++ requests [(id, call)])) :=
        List.perm_append_comm.append_left _
      _ = s.outstanding ++ requests [(id, call)] := by rw [outstanding, List.append_assoc]
  | take id call =>
    obtain ⟨hmem, hdoor, hlink⟩ := eq_of_take hs
    have hpending := Link.pending_step hlink
    rw [query?_event] at hpending
    calc answered effects ++ t.outstanding
      _ = answered effects ++ (requests (s.door.erase (id, call)) ++ t.link.engine.pending) := by
        rw [outstanding, hdoor]
      List.Perm _ (requests (s.door.erase (id, call)) ++
          (answered effects ++ t.link.engine.pending)) := List.perm_append_comm_assoc ..
      List.Perm _ (requests (s.door.erase (id, call)) ++
          (s.link.engine.pending ++ (call.query? id).toList)) := hpending.append_left _
      List.Perm _ ((call.query? id).toList ++ requests (s.door.erase (id, call)) ++
          s.link.engine.pending) := by
        rw [← List.append_assoc]
        exact List.perm_append_comm.trans (.of_eq (List.append_assoc ..).symm)
      List.Perm _ s.outstanding := (requests_erase hmem).append_right _
      _ = s.outstanding ++ [] := (List.append_nil _).symm
  | refuse id call =>
    obtain ⟨hmem, -, rfl, rfl⟩ := eq_of_refuse hs
    calc answered (call.refusal id) ++ (requests (s.door.erase (id, call)) ++ s.link.engine.pending)
      _ = (call.query? id).toList ++ requests (s.door.erase (id, call)) ++
          s.link.engine.pending := by rw [answered_refusal, List.append_assoc]
      List.Perm _ s.outstanding := (requests_erase hmem).append_right _
      _ = s.outstanding ++ [] := (List.append_nil _).symm
  | move event =>
    obtain ⟨hcall, hdoor, hlink⟩ := eq_of_move hs
    have hpending := Link.pending_step hlink
    have hasks : event.query? = none := by cases event <;> first | rfl | cases hcall
    rw [hasks] at hpending
    calc answered effects ++ t.outstanding
      _ = answered effects ++ (requests s.door ++ t.link.engine.pending) := by
        rw [outstanding, hdoor]
      List.Perm _ (requests s.door ++ (answered effects ++ t.link.engine.pending)) :=
        List.perm_append_comm_assoc ..
      List.Perm _ (requests s.door ++ (s.link.engine.pending ++ [])) := hpending.append_left _
      _ = s.outstanding ++ [] := (List.append_assoc ..).symm

/-- Each request that was outstanding or was made is answered or outstanding. -/
theorem outstanding_run (hr : s.run? acts = some (t, effects)) :
    (answered effects ++ t.outstanding).Perm (s.outstanding ++ requests (entrants acts)) := by
  induction acts generalizing s effects with
  | nil =>
    obtain ⟨rfl, rfl⟩ := Prod.mk.inj (Option.some.inj hr)
    exact .of_eq (List.append_nil _).symm
  | cons act rest ih =>
    obtain ⟨next, first, later, hs, hlast, rfl⟩ := eq_of_run?_cons hr
    have hboth := perm_balance (outstanding_step hs) (ih hlast)
    rw [Effect.answered_append, entrants_cons, requests_append]
    exact hboth

/-! ## The link behind the door -/

/-- Nothing is pending once the engine is gone. -/
theorem settled_run (h : s.link.serving = false → s.link.engine.pending = [])
    (hr : s.run? acts = some (t, effects)) :
    t.link.serving = false → t.link.engine.pending = [] := by
  induction acts generalizing s effects with
  | nil =>
    obtain ⟨rfl, -⟩ := Prod.mk.inj (Option.some.inj hr)
    exact h
  | cons act rest ih =>
    obtain ⟨next, first, later, hs, hlast, -⟩ := eq_of_run?_cons hr
    refine ih ?_ hlast
    cases act with
    | enter id call => obtain ⟨-, -, rfl, -⟩ := eq_of_enter hs; exact h
    | take id call => exact Link.settled_step h (eq_of_take hs).2.2
    | refuse id call => obtain ⟨-, -, rfl, -⟩ := eq_of_refuse hs; exact h
    | move event => exact Link.settled_step h (eq_of_move hs).2.2

theorem sent_refusal (id : Nat) (call : Call) : sent (call.refusal id) = [] := by
  cases call <;> rfl

/-- The door has no part in what the link does, nor in what it sends. -/
theorem link_run (hr : s.run? acts = some (t, effects)) :
    ∃ shown, s.link.run? (linkEvents acts) = some (t.link, shown) ∧ sent shown = sent effects := by
  induction acts generalizing s effects with
  | nil =>
    obtain ⟨rfl, rfl⟩ := Prod.mk.inj (Option.some.inj hr)
    exact ⟨[], rfl, rfl⟩
  | cons act rest ih =>
    obtain ⟨next, first, later, hs, hlast, rfl⟩ := eq_of_run?_cons hr
    obtain ⟨shown, hlink, hsent⟩ := ih hlast
    have hmoves {event : Link.Event} (hact : act.event? = some event)
        (hstep : s.link.step? event = some (next.link, first)) :
        ∃ shown, s.link.run? (linkEvents (act :: rest)) = some (t.link, shown) ∧
          sent shown = sent (first ++ later) := by
      have hcons : linkEvents (act :: rest) = event :: linkEvents rest :=
        List.filterMap_cons_some hact
      refine ⟨first ++ shown, ?_, ?_⟩
      · rw [hcons, Link.run?, hstep]
        simp only [hlink]
      · rw [Effect.sent_append, Effect.sent_append, hsent]
    cases act with
    | enter id call =>
      obtain ⟨-, -, rfl, rfl⟩ := eq_of_enter hs
      exact ⟨shown, hlink, hsent⟩
    | take id call => exact hmoves rfl (eq_of_take hs).2.2
    | refuse id call =>
      obtain ⟨-, -, rfl, rfl⟩ := eq_of_refuse hs
      refine ⟨shown, hlink, ?_⟩
      rw [Effect.sent_append, sent_refusal, List.nil_append, hsent]
    | move event => exact hmoves rfl (eq_of_move hs).2.2

/-! ## A call alone -/

/-- A call that comes to a door where no other stands is taken if the engine serves. -/
theorem run?_alone {l : Link Q} (hopen : l.closed = false) (id : Nat) {call : Call}
    (hvoid : call.isVoid = false) :
    (⟨l, []⟩ : Shared Q).run? [.enter id call, .take id call] =
      (l.step? (call.event id)).map fun (link, effects) => (⟨link, []⟩, effects) := by
  have henter : (⟨l, []⟩ : Shared Q).step? (.enter id call) = some (⟨l, [(id, call)]⟩, []) := by
    simp [step?, hopen, hvoid]
  have htake : (⟨l, [(id, call)]⟩ : Shared Q).step? (.take id call) =
      (l.step? (call.event id)).map fun (link, effects) => (⟨link, []⟩, effects) := by
    simp [step?]
  simp only [run?, henter, htake]
  cases l.step? (call.event id) with
  | none => rfl
  | some step => simp

end Shared

namespace Bridge

variable {P Q : Type} [ByteQueue Q] (b : Bridge P Q)

/-- The calls of a bridge are calls that meet no other at the door. -/
theorem read_eq (length : Nat) :
    b.read length =
      if b.isClosed then (b, .settled (.error .closed), [])
      else if length = 0 then (b, .settled (.ok []), [])
      else
        match (⟨b.link, []⟩ : Shared Q).run? [.enter b.nextRequest (.read length),
          .take b.nextRequest (.read length)] with
        | none => (b, .settled (.error .closed), [])
        | some (s, effects) =>
          ({ b with link := s.link, nextRequest := b.nextRequest + 1 }, .request b.nextRequest,
            effects) := by
  rw [read]
  split
  · rfl
  · next hopen =>
    split
    · rfl
    · next hlength =>
      have hvoid : (Call.read length).isVoid = false := beq_eq_false_iff_ne.mpr hlength
      rw [Shared.run?_alone (Bool.eq_false_iff.mpr hopen) _ hvoid]
      simp only [Call.event, Link.step?]
      cases b.link.feed? (.read b.nextRequest length) <;> rfl

theorem write_eq (data : Bytes) :
    b.write data =
      if b.isClosed then (b, .error .closed, [])
      else if data = [] then (b, .ok 0, [])
      else
        match (⟨b.link, []⟩ : Shared Q).run? [.enter b.nextRequest (.write data),
          .take b.nextRequest (.write data)] with
        | none => (b, .error .closed, [])
        | some (s, effects) => ({ b with link := s.link }, .ok data.length, effects) := by
  rw [write]
  split
  · rfl
  · next hopen =>
    split
    · rfl
    · next hdata =>
      have hvoid : (Call.write data).isVoid = false := List.isEmpty_eq_false_iff.mpr hdata
      rw [Shared.run?_alone (Bool.eq_false_iff.mpr hopen) _ hvoid]
      simp only [Call.event, Link.step?]
      cases b.link.feed? (.write data) <;> rfl

theorem flush_eq :
    b.flush =
      if b.isClosed then (b, .settled (.error .closed), [])
      else
        match (⟨b.link, []⟩ : Shared Q).run? [.enter b.nextRequest .flush,
          .take b.nextRequest .flush] with
        | none => (b, .settled (.error .closed), [])
        | some (s, effects) =>
          ({ b with link := s.link, nextRequest := b.nextRequest + 1 }, .request b.nextRequest,
            effects) := by
  rw [flush]
  split
  · rfl
  · next hopen =>
    rw [Shared.run?_alone (Bool.eq_false_iff.mpr hopen) _ rfl]
    simp only [Call.event, Link.step?]
    cases b.link.feed? (.flush b.nextRequest) <;> rfl

end Bridge

end SerialBridge
