import SerialBridge.Session
import SerialBridge.Queue

/-!
# Attempts to open a bridge

An attempt makes one fixed sequence of calls and stops at the first answer that it cannot go on
from. Only a failed handshake is followed by another call, which takes the subscription back.
-/

namespace SerialBridge

namespace Peripheral

variable {P : Type} [Peripheral P Unit]

/-- What a request comes to. -/
abbrev Answer := Except Failure (List Attribute)

def answer (p : P) (request : Request Unit) : Answer := (respond p request).1.result

/-- A peripheral after some requests. -/
def asked (p : P) (requests : List (Request Unit)) : P :=
  requests.foldl (fun p request => (respond p request).2) p

/-- Requests made one after another, each with its answer. -/
def transcript : P → List (Request Unit) → List (Request Unit × Answer)
  | _, [] => []
  | p, request :: rest => (request, answer p request) :: transcript (respond p request).2 rest

theorem asked_concat (p : P) (requests : List (Request Unit)) (request : Request Unit) :
    asked p (requests ++ [request]) = (respond (asked p requests) request).2 := by
  rw [asked, List.foldl_append]
  rfl

theorem transcript_append (p : P) (a b : List (Request Unit)) :
    transcript p (a ++ b) = transcript p a ++ transcript (asked p a) b := by
  induction a generalizing p with
  | nil => rfl
  | cons first rest ih => exact congrArg ((first, answer p first) :: ·) (ih _)

end Peripheral

namespace Opening

open Peripheral (Answer answer asked transcript)

/-- The calls of an attempt on the attributes of `c`, in order. -/
def sequence (c : Characteristics) : List (Request Unit) :=
  [.services [.bridgeService],
    .characteristics [.bridgeMode, .bridgeRx, .bridgeTx] c.service,
    .descriptors [] c.tx,
    .indicate c.tx none,
    .indicate c.tx (some ()),
    .write c.mode [1] true]

/-- Whether an attempt on the attributes of `c` goes on from an answer: a listing must show them
first of their kind. -/
def Serves (c : Characteristics) : Request Unit → Answer → Prop
  | _, .error _ => False
  | .services _, .ok listed => Attribute.first? .bridgeService listed = some c.service
  | .characteristics _ _, .ok listed =>
    Attribute.first? .bridgeMode listed = some c.mode ∧
      Attribute.first? .bridgeRx listed = some c.rx ∧ Attribute.first? .bridgeTx listed = some c.tx
  | _, .ok _ => True

theorem Serves.exists_ok {c : Characteristics} {request : Request Unit} {a : Answer}
    (h : Serves c request a) : ∃ listed, a = .ok listed ∧ Serves c request (.ok listed) := by
  cases a with
  | error f => cases request <;> exact h.elim
  | ok listed => exact ⟨listed, rfl, h⟩

/-- What is wrong with an answer that no attempt goes on from. -/
def Flawed : Request Unit → Answer → CallError → Prop
  | _, .error f, e => e = .transport f
  | .services _, .ok listed, e => e = .missingService ∧ ∀ a ∈ listed, a.uuid ≠ .bridgeService
  | .characteristics _ _, .ok listed, e =>
    e = .missingService ∧ ∃ uuid ∈ [Uuid.bridgeMode, .bridgeRx, .bridgeTx],
      ∀ a ∈ listed, a.uuid ≠ uuid
  | _, .ok _, _ => False

theorem flawed_error (request : Request Unit) (f : Failure) :
    Flawed request (.error f) (.transport f) := by
  cases request <;> rfl

theorem ne_of_first?_eq_none {uuid : Uuid} {listed : List Attribute}
    (h : Attribute.first? uuid listed = none) : ∀ a ∈ listed, a.uuid ≠ uuid := by
  intro a ha
  have hne := List.find?_eq_none.mp h a ha
  simpa using hne

/-- What is first of its kind is of that kind, and it is there. -/
theorem uuid_of_first? {uuid : Uuid} {listed : List Attribute} {a : Attribute}
    (h : Attribute.first? uuid listed = some a) : a ∈ listed ∧ a.uuid = uuid := by
  have hu : (a.uuid == uuid) = true := List.find?_some (p := fun a : Attribute => a.uuid == uuid) h
  exact ⟨List.mem_of_find?_eq_some h, by simpa using hu⟩

/-- A listing that does not show all three characteristics lacks one of them. -/
theorem flawed_of_missing (service : Attribute) {found : List Attribute}
    (h : ∀ mode rx tx, Attribute.first? .bridgeMode found = some mode →
      Attribute.first? .bridgeRx found = some rx → Attribute.first? .bridgeTx found = some tx →
      False) :
    Flawed (.characteristics [.bridgeMode, .bridgeRx, .bridgeTx] service) (.ok found)
      .missingService := by
  cases hmode : Attribute.first? .bridgeMode found with
  | none => exact ⟨rfl, .bridgeMode, by simp, ne_of_first?_eq_none hmode⟩
  | some mode =>
    cases hrx : Attribute.first? .bridgeRx found with
    | none => exact ⟨rfl, .bridgeRx, by simp, ne_of_first?_eq_none hrx⟩
    | some rx =>
      cases htx : Attribute.first? .bridgeTx found with
      | none => exact ⟨rfl, .bridgeTx, by simp, ne_of_first?_eq_none htx⟩
      | some tx => exact (h mode rx tx hmode hrx htx).elim

/-- An answer to go on from has nothing wrong with it. -/
theorem not_flawed_of_serves {c : Characteristics} {request : Request Unit} {a : Answer}
    {e : CallError} (h : Serves c request a) : ¬Flawed request a e := by
  intro hflawed
  obtain ⟨listed, rfl, hs⟩ := h.exists_ok
  cases request with
  | services filter =>
    obtain ⟨hmem, huuid⟩ := uuid_of_first? hs
    exact hflawed.2 _ hmem huuid
  | characteristics filter service =>
    obtain ⟨hmode, hrx, htx⟩ := hs
    obtain ⟨-, uuid, huuid, hnone⟩ := hflawed
    simp only [List.mem_cons, List.not_mem_nil, or_false] at huuid
    obtain rfl | rfl | rfl := huuid
    · exact hnone _ (uuid_of_first? hmode).1 (uuid_of_first? hmode).2
    · exact hnone _ (uuid_of_first? hrx).1 (uuid_of_first? hrx).2
    · exact hnone _ (uuid_of_first? htx).1 (uuid_of_first? htx).2
  | _ => exact hflawed

variable {P : Type} [Peripheral P Unit] {p : P} {c c' : Characteristics} {o : Opening P}
  {made rest : List (Request Unit)} {request : Request Unit} {a : Answer} {e : CallError}

/-- Every call went as an attempt on the attributes of `c` needs it. -/
def Served (c : Characteristics) (p : P) (calls : List (Request Unit)) : Prop :=
  ∀ x ∈ transcript p calls, Serves c x.1 x.2

theorem served_nil : Served c p [] := fun _ hx => absurd hx List.not_mem_nil

theorem Served.next (h : Served c p made) (ha : answer (asked p made) request = a)
    (hs : Serves c request a) : Served c p (made ++ [request]) := by
  rw [Served, Peripheral.transcript_append, List.forall_mem_append]
  refine ⟨h, List.forall_mem_singleton.mpr ?_⟩
  rw [← ha] at hs
  exact hs

theorem Served.front (made : List (Request Unit)) (h : Served c p (made ++ rest)) :
    Served c p made := by
  rw [Served, Peripheral.transcript_append, List.forall_mem_append] at h
  exact h.1

theorem Served.last (made : List (Request Unit)) (h : Served c p (made ++ request :: rest)) :
    Serves c request (answer (asked p made) request) := by
  rw [Served, Peripheral.transcript_append, List.forall_mem_append] at h
  exact h.2 _ List.mem_cons_self

/-- The first listing settles the service of an attempt. -/
theorem service_eq_of_served (h : Served c p ((sequence c).take 1))
    (h' : Served c' p ((sequence c').take 1)) : c.service = c'.service := by
  obtain ⟨listed, ha, hs⟩ := (h.last []).exists_ok
  obtain ⟨listed', ha', hs'⟩ := (h'.last []).exists_ok
  obtain rfl : listed = listed' := Except.ok.inj (ha.symm.trans ha')
  exact Option.some.inj (hs.symm.trans hs')

/-- The two listings settle which attributes an attempt is on. -/
theorem eq_of_served (h : Served c p ((sequence c).take 2))
    (h' : Served c' p ((sequence c').take 2)) : c = c' := by
  have hservice : c.service = c'.service :=
    service_eq_of_served (h.front ((sequence c).take 1)) (h'.front ((sequence c').take 1))
  obtain ⟨listed, ha, hmode, hrx, htx⟩ := (h.last [.services [.bridgeService]]).exists_ok
  obtain ⟨listed', ha', hmode', hrx', htx'⟩ := (h'.last [.services [.bridgeService]]).exists_ok
  rw [hservice] at ha
  obtain rfl : listed = listed' := Except.ok.inj (ha.symm.trans ha')
  rw [hmode] at hmode'
  rw [hrx] at hrx'
  rw [htx] at htx'
  cases c
  cases c'
  simp only [Option.some.injEq] at hservice hmode' hrx' htx'
  rw [hservice, hmode', hrx', htx']

/-- The attribute of the handshake is of its kind. -/
theorem uuid_of_served (h : Served c p ((sequence c).take 5)) : c.mode.uuid = .bridgeMode := by
  obtain ⟨listed, -, hmode, -⟩ := (h.last [.services [.bridgeService]]).exists_ok
  exact (uuid_of_first? hmode).2

/-- The calls made from a peripheral that was `p`. -/
structure Made (p : P) (made : List (Request Unit)) (o : Opening P) : Prop where
  calls : o.calls = made
  peripheral : o.peripheral = asked p made

/-- An attempt ended with the answer to its last call, or behind a failed handshake with the call
that takes the subscription back. -/
def BrokenOff (p : P) (e : CallError) (o : Opening P) : Prop :=
  ∃ c made request rest, sequence c = made ++ request :: rest ∧ Served c p made ∧
    Flawed request (answer (asked p made) request) e ∧
    o.Made p (made ++ request ::
      if request = .write c.mode [1] true then [.indicate c.tx none] else [])

/-- An attempt does not break off where all calls go well: as far as it got, it made the same ones. -/
theorem not_brokenOff_of_served (h : Served c p (sequence c)) : ¬BrokenOff p e o := by
  rintro ⟨c', made, request, rest, hsequence, hs, hflawed, -⟩
  obtain ⟨rest', hsame⟩ : ∃ rest', sequence c = made ++ request :: rest' := by
    match made, hsequence, hs with
    | [], hsequence, _ =>
      obtain ⟨hfirst, -⟩ := List.cons.inj hsequence
      exact ⟨_, by rw [← hfirst]; rfl⟩
    | [first], hsequence, hs =>
      obtain ⟨hfirst, hsequence⟩ := List.cons.inj hsequence
      obtain ⟨hsecond, -⟩ := List.cons.inj hsequence
      rw [← hfirst] at hs
      have hservice : c.service = c'.service :=
        service_eq_of_served (h.front ((sequence c).take 1)) hs
      exact ⟨_, by rw [← hfirst, ← hsecond, ← hservice]; rfl⟩
    | first :: second :: made, hsequence, hs =>
      obtain ⟨hfirst, hsequence'⟩ := List.cons.inj hsequence
      obtain ⟨hsecond, -⟩ := List.cons.inj hsequence'
      rw [← hfirst, ← hsecond] at hs
      have hc : c = c' := eq_of_served (h.front ((sequence c).take 2))
        (hs.front ((sequence c').take 2))
      exact ⟨rest, hc ▸ hsequence⟩
  rw [hsame] at h
  exact not_flawed_of_serves (h.last made) hflawed

/-! ## The parts of an attempt -/

theorem Made.concat (h : o.Made p made) (request : Request Unit) :
    Made p (made ++ [request])
      { o with
        peripheral := (Peripheral.respond o.peripheral request).2
        calls := o.calls ++ [request]
        log := o.log ++ (Peripheral.respond o.peripheral request).1.log } where
  calls := by rw [h.calls]
  peripheral := by rw [h.peripheral, Peripheral.asked_concat]

/-- A call hands back the answer to its request, whatever it is. -/
theorem run_call (h : o.Made p made) (request : Request Unit) :
    ∃ o', (call request).run o = .ok (answer (asked p made) request) o' ∧
      o'.Made p (made ++ [request]) := by
  rw [← h.peripheral]
  exact ⟨_, rfl, h.concat request⟩

omit [Peripheral P Unit] in
theorem run_note (entry : Log.Entry) (o : Opening P) :
    (note entry).run o = .ok () { o with log := o.log ++ [entry] } := rfl

theorem Made.noted (h : o.Made p made) (entry : Log.Entry) :
    Made p made { o with log := o.log ++ [entry] } := ⟨h.calls, h.peripheral⟩

/-- What a part of an attempt comes to: a result, or the attempt is broken off. -/
def Ends {α : Type} (p : P) (result : EStateM.Result CallError (Opening P) α)
    (good : α → Opening P → Prop) : Prop :=
  match result with
  | .ok x o => good x o
  | .error e o => BrokenOff p e o

theorem Ends.bind {α β : Type} {x : Attempt P α} {f : α → Attempt P β}
    {good : α → Opening P → Prop} {good' : β → Opening P → Prop} (h : Ends p (x.run o) good)
    (hf : ∀ a o', good a o' → Ends p ((f a).run o') good') :
    Ends p ((x >>= f).run o) good' := by
  rw [EStateM.run_bind]
  cases hx : x.run o with
  | ok a o' =>
    rw [hx] at h
    exact hf a o' h
  | error e o' =>
    rw [hx] at h
    exact h

theorem Ends.mono {α : Type} {result : EStateM.Result CallError (Opening P) α}
    {good good' : α → Opening P → Prop} (h : Ends p result good)
    (himp : ∀ a o', good a o' → good' a o') : Ends p result good' := by
  cases result with
  | ok a o' => exact himp a o' h
  | error e o' => exact h

theorem Ends.discard {α : Type} {x : Attempt P α} {good : α → Opening P → Prop}
    (h : Ends p (x.run o) good) :
    Ends p ((Functor.discard x).run o) fun _ o' => ∃ a, good a o' := by
  have hrun : (Functor.discard x).run o = EStateM.map (Function.const _ ()) x o := rfl
  rw [hrun, EStateM.map]
  rw [EStateM.run] at h
  cases hx : x o with
  | ok a o' =>
    rw [hx] at h
    exact ⟨a, h⟩
  | error e o' =>
    rw [hx] at h
    exact h

/-- A demand ends with what it found, or with the failure of its call. -/
theorem ends_demand (hsequence : sequence c = made ++ request :: rest) (hs : Served c p made)
    (hw : request ≠ .write c.mode [1] true) (h : o.Made p made) :
    Ends p ((demand request).run o) fun found o' =>
      answer (asked p made) request = .ok found ∧ o'.Made p (made ++ [request]) := by
  obtain ⟨o', hcall, ho'⟩ := run_call h request
  rw [demand, EStateM.run_bind, hcall]
  cases ha : answer (asked p made) request with
  | ok found => exact ⟨rfl, ho'⟩
  | error f =>
    refine ⟨c, made, request, rest, hsequence, hs, ?_, ?_⟩
    · rw [ha]
      exact flawed_error request f
    · rw [if_neg hw]
      exact ho'

/-- A listing that lacks something ends the attempt. -/
theorem brokenOff_missing (hsequence : sequence c = made ++ request :: rest)
    (hs : Served c p made) (hw : request ≠ .write c.mode [1] true)
    (h : o.Made p (made ++ [request])) (ha : Flawed request (answer (asked p made) request) e) :
    BrokenOff p e o :=
  ⟨c, made, request, rest, hsequence, hs, ha, by rw [if_neg hw]; exact h⟩

/-- Attributes for an attempt of which nothing is known yet. -/
def unlisted : Characteristics :=
  ⟨⟨.bridgeService, 0⟩, ⟨.bridgeMode, 0⟩, ⟨.bridgeRx, 0⟩, ⟨.bridgeTx, 0⟩⟩

theorem discover_ends (h : o.Made p []) :
    Ends p (discover.run o) fun c o' =>
      o'.Made p ((sequence c).take 3) ∧ Served c p ((sequence c).take 3) := by
  refine Ends.bind (ends_demand (c := unlisted) rfl served_nil (by simp) h) ?_
  rintro services o₁ ⟨ha₁, h₁⟩
  cases hservice : Attribute.first? .bridgeService services with
  | none =>
    refine brokenOff_missing (c := unlisted) rfl served_nil (by simp) h₁ ?_
    rw [ha₁]
    exact ⟨rfl, ne_of_first?_eq_none hservice⟩
  | some service =>
    have hs₁ (c : Characteristics) (hc : c.service = service) :
        Served c p [.services [.bridgeService]] :=
      served_nil.next ha₁ (hservice.trans (congrArg some hc.symm))
    refine Ends.bind (ends_demand (c := { unlisted with service := service }) rfl (hs₁ _ rfl)
      (by simp) h₁) ?_
    rintro found o₂ ⟨ha₂, h₂⟩
    split
    · rename_i mode rx tx hmode hrx htx
      have hs₂ := (hs₁ ⟨service, mode, rx, tx⟩ rfl).next ha₂ ⟨hmode, hrx, htx⟩
      refine Ends.bind (Ends.discard (ends_demand rfl hs₂ (by simp) h₂)) ?_
      rintro - o₃ ⟨described, ha₃, h₃⟩
      exact ⟨h₃, hs₂.next ha₃ trivial⟩
    · rename_i hmissing
      refine brokenOff_missing (c := { unlisted with service := service }) rfl (hs₁ _ rfl)
        (by simp) (h₂.noted .characteristicsMissing) ?_
      rw [ha₂]
      exact flawed_of_missing service fun mode rx tx => hmissing mode rx tx

theorem subscribe_ends (h : o.Made p ((sequence c).take 3))
    (hs : Served c p ((sequence c).take 3)) :
    Ends p ((subscribe c.tx).run o) fun _ o' =>
      o'.Made p ((sequence c).take 5) ∧ Served c p ((sequence c).take 5) := by
  refine Ends.bind (Ends.discard (ends_demand rfl hs (by simp) h)) ?_
  rintro - o₁ ⟨off, ha₁, h₁⟩
  have hs₁ := hs.next ha₁ trivial
  refine Ends.mono (Ends.discard (ends_demand rfl hs₁ (by simp) h₁)) ?_
  rintro - o₂ ⟨on, ha₂, h₂⟩
  exact ⟨h₂, hs₁.next ha₂ trivial⟩

/-- Taking back the subscription is one more call; its own failure is not told. -/
theorem run_rollBack (h : o.Made p made) (tx : Attribute) (f : Failure) :
    ∃ o', (rollBack tx f).run o = .error (.transport f) o' ∧
      o'.Made p (made ++ [.indicate tx none]) := by
  obtain ⟨o', hcall, ho'⟩ := run_call h (.indicate tx none)
  rw [rollBack, EStateM.run_bind, hcall]
  cases ha : answer (asked p made) (.indicate tx none) with
  | ok found => exact ⟨o', rfl, ho'⟩
  | error f' => exact ⟨_, rfl, ho'.noted (.rollBackFailed f')⟩

theorem shakeHands_ends (h : o.Made p ((sequence c).take 5))
    (hs : Served c p ((sequence c).take 5)) :
    Ends p ((shakeHands c).run o) fun _ o' =>
      o'.Made p (sequence c) ∧ Served c p (sequence c) := by
  obtain ⟨o₁, hcall, h₁⟩ := run_call h (.write c.mode [1] true)
  rw [shakeHands, EStateM.run_bind, hcall]
  cases ha : answer (asked p ((sequence c).take 5)) (.write c.mode [1] true) with
  | ok found => exact ⟨h₁, hs.next ha trivial⟩
  | error f =>
    obtain ⟨o₂, hback, h₂⟩ := run_rollBack (h₁.noted (.handshakeFailed f)) c.tx f
    change Ends p ((note (.handshakeFailed f) >>= fun _ => rollBack c.tx f).run o₁) _
    rw [EStateM.run_bind, run_note]
    change Ends p ((rollBack c.tx f).run _) _
    rw [hback]
    refine ⟨c, _, _, [], rfl, hs, ?_, ?_⟩
    · rw [ha]
      exact flawed_error _ f
    · rw [if_pos rfl]
      rw [List.append_assoc] at h₂
      exact h₂

theorem run_ends (p : P) :
    Ends p (attempt.run { peripheral := p }) fun c o =>
      o.Made p (sequence c) ∧ Served c p (sequence c) := by
  refine Ends.bind (discover_ends ⟨rfl, rfl⟩) ?_
  rintro c o₁ ⟨h₁, hs₁⟩
  rw [EStateM.run_bind, run_note]
  refine Ends.bind (subscribe_ends (h₁.noted (.discovered c)) hs₁) ?_
  rintro - o₂ ⟨h₂, hs₂⟩
  refine Ends.bind (shakeHands_ends h₂ hs₂) ?_
  rintro - o₃ ⟨h₃, hs₃⟩
  exact ⟨h₃.noted .bridgeOpen, hs₃⟩

/-! ## What is written -/

/-- The one write of an attempt is its last call. -/
theorem write_mem_sequence {target : Attribute} {value : Bytes} {withResponse : Bool}
    (hsequence : sequence c = made ++ request :: rest)
    (hmem : .write target value withResponse ∈ made ++ [request]) :
    made = (sequence c).take 5 ∧ target = c.mode ∧ value = [1] ∧ withResponse = true := by
  have hlast : sequence c = (sequence c).take 5 ++ [.write c.mode [1] true] := rfl
  obtain rfl | ⟨rest', y, rfl⟩ := List.eq_nil_or_concat rest
  · obtain ⟨hmade, -⟩ := List.append_inj' (hsequence.symm.trans hlast) rfl
    rw [← hsequence] at hmem
    simp only [sequence, List.mem_cons, List.not_mem_nil, or_false, reduceCtorEq, false_or,
      Request.write.injEq] at hmem
    exact ⟨hmade, hmem⟩
  · have hcut : made ++ request :: rest'.concat y = (made ++ [request] ++ rest') ++ [y] := by simp
    obtain ⟨hfront, -⟩ := List.append_inj' ((hsequence.trans hcut).symm.trans hlast) rfl
    have hmem' := List.mem_append_left rest' hmem
    rw [hfront] at hmem'
    simp [sequence] at hmem'

/-- An attempt writes nothing but the handshake. -/
theorem write_of_served {target : Attribute} {value : Bytes} {withResponse : Bool}
    (hserved : Served c p (sequence c)) (hmem : .write target value withResponse ∈ sequence c) :
    target.uuid = .bridgeMode ∧ value = [1] ∧ withResponse = true := by
  have hlast : sequence c = (sequence c).take 5 ++ .write c.mode [1] true :: [] := rfl
  obtain ⟨-, rfl, hvalue⟩ := write_mem_sequence hlast hmem
  exact ⟨uuid_of_served (hserved.front ((sequence c).take 5)), hvalue⟩

theorem BrokenOff.write {target : Attribute} {value : Bytes} {withResponse : Bool}
    (h : BrokenOff p e o) (hmem : .write target value withResponse ∈ o.calls) :
    target.uuid = .bridgeMode ∧ value = [1] ∧ withResponse = true := by
  obtain ⟨c, made, request, rest, hsequence, hserved, -, hmade⟩ := h
  rw [hmade.calls] at hmem
  have hmem' : .write target value withResponse ∈ made ++ [request] := by
    split at hmem <;> simpa using hmem
  obtain ⟨hcut, rfl, hvalue⟩ := write_mem_sequence hsequence hmem'
  rw [hcut] at hserved
  exact ⟨uuid_of_served hserved, hvalue⟩

end Opening

namespace Session

open Opening
open Peripheral (answer asked transcript)

variable {P : Type} [Peripheral P Unit]

/-- A bridge opens, on the first attributes that the listings show, exactly where all six calls go
well. An attempt that fails stops at the first answer with something wrong, is told of that, and
takes the subscription back exactly where this was the answer to the handshake; it never writes
anything but the handshake. -/
theorem start_all_or_nothing (p : P) (settings : Settings) :
    let opened : Except CallError (Session P Ring) × Opening P := start p settings
    let o := opened.2
    (∀ c, opened.1 = .ok { bridge := Bridge.new o.peripheral c settings } ↔
      ∀ x ∈ transcript p (sequence c), Serves c x.1 x.2) ∧
    (∀ s, opened.1 = .ok s →
      ∃ c, s = { bridge := Bridge.new o.peripheral c settings } ∧ o.calls = sequence c) ∧
    (∀ e, opened.1 = .error e →
      ∃ c made request rest, sequence c = made ++ request :: rest ∧
        (∀ x ∈ transcript p made, Serves c x.1 x.2) ∧
        Flawed request (answer (asked p made) request) e ∧
        o.calls = made ++ request ::
          if request = .write c.mode [1] true then [.indicate c.tx none] else []) ∧
    o.peripheral = asked p o.calls ∧
    ∀ target value withResponse, .write target value withResponse ∈ o.calls →
      target.uuid = .bridgeMode ∧ value = [1] ∧ withResponse = true := by
  have hends := run_ends p
  cases hrun : (attempt (P := P)).run { peripheral := p } with
  | ok c o =>
    rw [hrun] at hends
    obtain ⟨hmade, hserved⟩ := hends
    have hstart : (start p settings : Except CallError (Session P Ring) × Opening P) =
        (.ok { bridge := Bridge.new o.peripheral c settings }, o) := by
      rw [start, Opening.run, hrun]
    rw [hstart]
    refine ⟨?_, ?_, ?_, ?_, ?_⟩
    · intro c'
      constructor
      · intro heq
        have hc : c = c' := congrArg (fun s => s.bridge.characteristics) (Except.ok.inj heq)
        rw [← hc]
        exact hserved
      · intro hserved'
        rw [eq_of_served (hserved.front ((sequence c).take 2))
          (Served.front ((sequence c').take 2) hserved')]
    · intro s hs
      exact ⟨c, (Except.ok.inj hs).symm, hmade.calls⟩
    · intro e he
      cases he
    · rw [hmade.calls, hmade.peripheral]
    · intro target value withResponse hmem
      rw [hmade.calls] at hmem
      exact write_of_served hserved hmem
  | error e o =>
    rw [hrun] at hends
    have hbroken : BrokenOff p e o := hends
    have hstart : (start p settings : Except CallError (Session P Ring) × Opening P) =
        (.error e, o) := by
      rw [start, Opening.run, hrun]
    rw [hstart]
    refine ⟨?_, ?_, ?_, ?_, ?_⟩
    · intro c
      constructor
      · intro heq
        cases heq
      · intro hserved
        exact (not_brokenOff_of_served hserved hbroken).elim
    · intro s hs
      cases hs
    · intro e' he
      obtain rfl : e = e' := Except.error.inj he
      obtain ⟨c, made, request, rest, hsequence, hserved, hflawed, hmade⟩ := hbroken
      exact ⟨c, made, request, rest, hsequence, hserved, hflawed, hmade.calls⟩
    · obtain ⟨c, made, request, rest, -, -, -, hmade⟩ := hbroken
      rw [hmade.calls, hmade.peripheral]
    · intro target value withResponse hmem
      exact hbroken.write hmem

end Session

end SerialBridge
