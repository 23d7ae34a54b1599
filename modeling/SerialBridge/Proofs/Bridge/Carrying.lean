import SerialBridge.Proofs.Bridge.RoundTrip
import SerialBridge.Proofs.Engine.Directions
import SerialBridge.Proofs.Inbound.Order

/-!
# Carrying one write

A bridge on the loopback peripheral gets on with one write while others read and flush. Its pieces
leave one after another and come back, reads and flushes are answered in the order in which they
were asked for, and a read is never answered with nothing.
-/

namespace SerialBridge

namespace Effect

/-- Where nothing fails, readers are given bytes and nothing else. -/
theorem exists_given {effects : List Effect} (h : ∀ x ∈ effects, x.Smooth) :
    ∃ given : List (Nat × Bytes), reads effects = given.map Prod.fst ∧
      readAnswers effects = given.map (fun p => (p.1, .ok p.2)) ∧
      bytesRead effects = given.flatMap Prod.snd ∧
      ∀ p ∈ given, .replied p.1 (.read (.ok p.2)) ∈ effects := by
  induction effects with
  | nil => exact ⟨[], rfl, rfl, rfl, List.forall_mem_nil _⟩
  | cons x rest ih =>
    obtain ⟨hx, hrest⟩ := List.forall_mem_cons.mp h
    obtain ⟨given, hreads, hanswers, hbytes, hmem⟩ := ih hrest
    have hlater : ∀ p ∈ given, .replied p.1 (.read (.ok p.2)) ∈ x :: rest := fun p hp =>
      List.mem_cons_of_mem _ (hmem p hp)
    cases x with
    | replied id reply =>
      cases reply with
      | read result =>
        obtain ⟨data, rfl⟩ := hx
        refine ⟨(id, data) :: given, ?_, ?_, ?_, ?_⟩
        · exact congrArg (id :: ·) hreads
        · exact congrArg ((id, .ok data) :: ·) hanswers
        · exact congrArg (data ++ ·) hbytes
        · exact List.forall_mem_cons.mpr ⟨List.mem_cons_self, hlater⟩
      | flush result => exact ⟨given, hreads, hanswers, hbytes, hlater⟩
    | wrote data failure => exact ⟨given, hreads, hanswers, hbytes, hlater⟩
    | logged entry => exact ⟨given, hreads, hanswers, hbytes, hlater⟩

/-- Where nothing fails, every flush is told that all is well. -/
theorem flushAnswers_of_smooth {effects : List Effect} (h : ∀ x ∈ effects, x.Smooth) :
    flushAnswers effects = (effects.filterMap flush?).map fun id => (id, .ok ()) := by
  induction effects with
  | nil => rfl
  | cons x rest ih =>
    obtain ⟨hx, hrest⟩ := List.forall_mem_cons.mp h
    cases x with
    | replied id reply =>
      cases reply with
      | read result => exact ih hrest
      | flush result =>
        obtain rfl : result = .ok () := hx
        exact congrArg ((id, .ok ()) :: ·) (ih hrest)
    | wrote data failure => exact ih hrest
    | logged entry => exact ih hrest

end Effect

namespace Link

open Effect (writes reads)
open Bytes (pieces)

/-- The read that an event asks for. -/
def Event.read? : Event → Option Nat
  | .read id _ => some id
  | _ => none

/-- Whether an event is a read of nothing. -/
def Event.isVoid : Event → Bool
  | .read _ length => length == 0
  | _ => false

/-- What events that bring no write do for readers: each read was answered, and not with nothing, or
waits, in order. -/
structure Serves (l l' : Link Bytes) (events : List Event) (effects : List Effect) : Prop where
  prompt : l'.engine.inbound.Prompt
  reads : reads effects ++ l'.engine.inbound.waiting.map ReadRequest.id =
    l.engine.inbound.waiting.map ReadRequest.id ++ events.filterMap Event.read?
  brings : ∀ id data, .replied id (.read (.ok data)) ∈ effects → data ≠ []

variable {l l' l'' : Link Bytes} {data : Bytes} {past effects later : List Effect}
  {events rest : List Event} {event : Event}

theorem serves_nil (h : l.engine.inbound.Prompt) : Serves l l [] [] :=
  ⟨h, (List.append_nil _).symm, fun _ _ hx => absurd hx List.not_mem_nil⟩

theorem Serves.trans (h : Serves l l' events effects) (h' : Serves l' l'' rest later) :
    Serves l l'' (events ++ rest) (effects ++ later) where
  prompt := h'.prompt
  reads := by
    rw [Effect.reads_append, List.append_assoc, h'.reads, ← List.append_assoc, h.reads,
      List.filterMap_append, List.append_assoc]
  brings := fun id data hx => (List.mem_append.mp hx).elim (h.brings id data) (h'.brings id data)

theorem reads_of_isLogged {log : List Effect} (hl : ∀ x ∈ log, x.IsLogged) : reads log = [] := by
  refine List.filterMap_eq_nil_iff.mpr fun x hx => ?_
  obtain ⟨entry, rfl⟩ := hl x hx
  rfl

theorem Serves.logged (h : Serves l l' events effects) {log : List Effect}
    (hl : ∀ x ∈ log, x.IsLogged) : Serves l l' events (log ++ effects) where
  prompt := h.prompt
  reads := by
    rw [Effect.reads_append, reads_of_isLogged hl, List.nil_append]
    exact h.reads
  brings := by
    intro id data hx
    obtain hlog | heffect := List.mem_append.mp hx
    · obtain ⟨entry, hentry⟩ := hl _ hlog
      cases hentry
    · exact h.brings id data heffect

theorem Drains.logged (h : Drains l l' events effects) {log : List Effect}
    (hl : ∀ x ∈ log, x.IsLogged) : Drains l l' events (log ++ effects) where
  serving := h.serving
  pumping := h.pumping
  toGo := h.toGo
  flushes := by
    rw [List.filterMap_append, flushes_of_isLogged hl, List.nil_append]
    exact h.flushes

/-! ## One step -/

/-- The engine answers what it can, and the pump looks on. -/
theorem serves_engine (h : l.engine.inbound.Prompt) {e : Engine.Event}
    (hasked : e.asked = [event].filterMap Event.read?)
    (hpos : ∀ id length, e = .read id length → 0 < length)
    (hengine : l'.engine = (l.engine.step e).1) : Serves l l' [event] (l.engine.step e).2 := by
  have horder : Engine.InOrder l.engine (l.engine.inbound.waiting.map ReadRequest.id) [] := ⟨h, rfl⟩
  have hnext := Engine.inOrder_step horder e hpos
  rw [List.nil_append, hasked, ← hengine] at hnext
  refine ⟨hnext.prompt, hnext.order, fun id data hx => ?_⟩
  obtain ⟨earlier, later, he⟩ := List.append_of_mem hx
  obtain ⟨length, -, -, hfull⟩ :=
    Engine.exact_step h.consistent e earlier id (.ok data) later he
  exact (hfull data rfl).1

/-- The pump moves, and no reader notices. -/
theorem serves_pump (h : l.engine.inbound.Prompt) (hengine : l'.engine = l.engine)
    (hread : event.read? = none) (hreplies : ∀ x ∈ effects, x.read? = none) :
    Serves l l' [event] effects := by
  have hreads : reads effects = [] := List.filterMap_eq_nil_iff.mpr hreplies
  refine ⟨hengine.symm ▸ h, ?_, fun id data hx => ?_⟩
  · rw [hreads, hengine, List.filterMap_cons_none hread]
    exact (List.append_nil _).symm
  · cases hreplies _ hx

theorem serves_step (h : l.engine.inbound.Prompt) (hs : l.step? event = some (l', effects))
    (hdraining : event.isDraining = true) (hvoid : event.isVoid = false) :
    Serves l l' [event] effects := by
  have hfeed (e : Engine.Event) (hasked : e.asked = [event].filterMap Event.read?)
      (hpos : ∀ id length, e = .read id length → 0 < length)
      (hs : l.feed? e = some (l', effects)) : Serves l l' [event] effects := by
    obtain ⟨-, rfl, rfl⟩ := eq_of_feed? e hs
    exact serves_engine h hasked hpos rfl
  cases event with
  | read id length =>
    refine hfeed (.read id length) rfl ?_ hs
    rintro id' length' ⟨⟩
    exact Nat.pos_of_ne_zero (beq_eq_false_iff_ne.mp hvoid)
  | flush id => exact hfeed (.flush id) rfl (fun _ _ he => by cases he) hs
  | incoming n => exact hfeed (.incoming n) rfl (fun _ _ he => by cases he) hs
  | handOff =>
    have hserves {next : Link Bytes} (hnext : next.engine = (l.engine.step .chunkTaken).1) :
        Serves l next [.handOff] (l.engine.step .chunkTaken).2 :=
      serves_engine h rfl (fun _ _ he => by cases he) hnext
    obtain ⟨-, -, -, ⟨-, rfl, rfl⟩ | ⟨-, rfl, rfl⟩⟩ := eq_of_handOff? hs
    · exact hserves rfl
    · exact (hserves rfl).logged (List.forall_mem_singleton.mpr ⟨_, rfl⟩)
  | complete failure =>
    obtain ⟨piece, -, ⟨-, rfl, rfl⟩ | ⟨f, -, rfl, rfl⟩⟩ := eq_of_complete? hs
    · exact serves_pump h rfl rfl (by simp [Effect.read?])
    · exact serves_pump h rfl rfl (by simp [Effect.read?])
  | report =>
    obtain ⟨f, -, ⟨-, rfl, rfl⟩ | ⟨-, rfl, rfl⟩⟩ := eq_of_report? hs
    · exact serves_engine h rfl (fun _ _ he => by cases he) rfl
    · exact serves_pump h rfl rfl (by simp [Effect.read?])
  | _ => cases hdraining

/-- Reads and notifications do not touch what goes out. -/
theorem cuts_inbound (h : Cuts l data past) (e : Engine.Event) (hinbound : e.isInbound = true)
    (haccounts : Accounts l' data (past ++ effects)) (hs : l.feed? e = some (l', effects)) :
    Cuts l' data (past ++ effects) := by
  obtain ⟨-, rfl, rfl⟩ := eq_of_feed? e hs
  have hwrites : writes (l.engine.step e).2 = [] :=
    List.filterMap_eq_nil_iff.mpr (Engine.write?_step l.engine e)
  have hcut : (writes (past ++ (l.engine.step e).2)).map Prod.fst ++ l.pump.current ++
      pieces l.engine.settings.maxChunk l.engine.outbound.remaining =
        pieces l.engine.settings.maxChunk data := by
    rw [Effect.writes_append, hwrites, List.append_nil]
    exact h.cut
  cases e with
  | read id length => exact ⟨haccounts, h.offer, hcut⟩
  | incoming n => exact ⟨haccounts, h.offer, hcut⟩
  | _ => cases hinbound

theorem cuts_step (h : Cuts l data past) (hserving : l.serving = true)
    (hs : l.step? event = some (l', effects)) (hdraining : event.isDraining = true) :
    Cuts l' data (past ++ effects) := by
  cases event with
  | read id length =>
    exact cuts_inbound h (.read id length) rfl (accounts_of_no_write h.accounts _ hs rfl) hs
  | incoming n =>
    exact cuts_inbound h (.incoming n) rfl (accounts_of_no_write h.accounts _ hs rfl) hs
  | flush id => exact (cuts_flush h hs).1
  | handOff =>
    by_cases hd : l.engine.outbound.chunk.bytes = []
    · exact (cuts_handOff_empty h hs hd).1
    · exact (cuts_handOff_bytes h hs hd).1
  | complete failure => exact (cuts_complete h hs).1
  | report => exact (cuts_report h hserving hs).1
  | _ => cases hdraining

/-! ## Runs -/

theorem carries_run (hcuts : Cuts l data past) (hprompt : l.engine.inbound.Prompt)
    (hserving : l.serving = true) (hr : l.run? events = some (l', effects))
    (hdraining : ∀ event ∈ events, event.isDraining = true)
    (hvoid : ∀ event ∈ events, event.isVoid = false) :
    Cuts l' data (past ++ effects) ∧ Serves l l' events effects := by
  induction events generalizing l past effects with
  | nil =>
    obtain ⟨rfl, rfl⟩ := Prod.mk.inj (Option.some.inj hr)
    rw [List.append_nil]
    exact ⟨hcuts, serves_nil hprompt⟩
  | cons event rest ih =>
    obtain ⟨hevent, hrest⟩ := List.forall_mem_cons.mp hdraining
    obtain ⟨hask, hlater⟩ := List.forall_mem_cons.mp hvoid
    obtain ⟨next, first, later, hs, hlast, rfl⟩ := eq_of_run?_cons hr
    have hserves := serves_step hprompt hs hevent hask
    have hdrains := drains_step hcuts.accounts hserving hs hevent
    obtain ⟨hend, hserved⟩ := ih (cuts_step hcuts hserving hs hevent) hserves.prompt
      (hdrains.serving.trans hserving) hlast hrest hlater
    rw [List.append_assoc] at hend
    exact ⟨hend, hserves.trans hserved⟩

/-- Everything accepted was sent, in its pieces. -/
theorem Cuts.writes_of_sent (h : Cuts l data past) (hsent : Effect.sent past = data) :
    (writes past).map Prod.fst = pieces l.engine.settings.maxChunk data := by
  have hbytes := h.accounts.bytes
  rw [hsent, List.append_assoc, List.append_right_eq_self, List.append_eq_nil_iff] at hbytes
  obtain ⟨hflight, hremaining⟩ := hbytes
  have hcut := h.cut
  rw [hremaining, Bytes.pieces_nil, List.append_nil] at hcut
  have hcurrent : l.pump.current = [] := by
    cases hpump : l.pump with
    | writing piece =>
      have hmem : piece ∈ pieces l.engine.settings.maxChunk data := by
        rw [← hcut, hpump]
        exact List.mem_append_right _ (List.mem_singleton.mpr rfl)
      rw [hpump] at hflight
      exact absurd hflight (Bytes.ne_nil_of_mem_pieces hmem)
    | _ => rfl
  rwa [hcurrent, List.append_nil] at hcut

/-- Only a write ends the rest of an idle engine. -/
theorem Drains.idle (h : Drains l l' events effects) (hidle : l.engine.transmitting = false) :
    l'.engine.transmitting = false := by
  have hrest : l.toGo = 0 := if_neg (Bool.eq_false_iff.mp hidle)
  have htoGo := h.toGo
  cases hactive : l'.engine.transmitting with
  | false => rfl
  | true =>
    have hpos := toGo_pos hactive
    omega

/-- No more is left to do than for everything accepted. -/
theorem toGo_le_pieces (h : Accounts l data past) :
    l.toGo ≤ 3 * (pieces l.engine.settings.maxChunk data).length + 6 := by
  have hpos := h.sends.settings.1
  have hqueue : l.engine.outbound.queue.length ≤ data.length := by
    have hbytes := congrArg List.length h.bytes
    rw [Outbound.remaining, List.length_append, List.length_append, List.length_append] at hbytes
    omega
  have hdiv : (l.engine.outbound.queue.length + l.engine.settings.maxChunk - 1) /
      l.engine.settings.maxChunk ≤ (pieces l.engine.settings.maxChunk data).length := by
    rw [Bytes.length_pieces (Nat.ne_of_gt hpos)]
    exact Nat.div_le_div_right (by omega)
  have htoGo := toGo_le hpos
  omega

theorem run?_singleton {Q : Type} [ByteQueue Q] {l l' : Link Q} {event : Event}
    {effects : List Effect} (hs : l.step? event = some (l', effects)) :
    l.run? [event] = some (l', effects) := by
  simp only [run?, hs, List.append_nil]

end Link

namespace Bridge

open Effect (bytesRead reads writes)
open Bytes (pieces)

/-- The events that an act puts to the link of a bridge on which nothing fails. -/
def events (b : Bridge (Loopback Unit) Ring) : Act → List Link.Event
  | .write data => if data = [] then [] else [.write data]
  | .flush => [.flush b.nextRequest]
  | .read length => if length = 0 then [] else [.read b.nextRequest length]
  | .own =>
    match b.link.pump with
    | .ready => if b.link.engine.transmitting then [.handOff] else []
    | .writing data => [.incoming (Notification.receive data none).1, .complete none]
    | _ => []

variable {settings : Settings} {echoed accepted data : Bytes} {past effects : List Effect}
  {b : Bridge (Loopback Unit) Ring} {a : Act}

/-- An act is a run of its events. Log entries of the peripheral may come before what they show. -/
def Runs (b : Bridge (Loopback Unit) Ring) (a : Act) : Prop :=
  ∃ log effects, (∀ x ∈ log, x.IsLogged) ∧
    b.link.run? (b.events a) = some ((b.act a).1.link, effects) ∧ (b.act a).2 = log ++ effects

theorem runs_nothing (hevents : b.events a = []) (hact : b.act a = (b, [])) : b.Runs a := by
  rw [Runs, hevents, hact]
  exact ⟨[], [], List.forall_mem_nil _, rfl, rfl⟩

theorem runs_step {event : Link.Event} {l : Link Ring}
    (hs : b.link.step? event = some (l, effects)) (hevents : b.events a = [event])
    (hlink : (b.act a).1.link = l) (heffects : (b.act a).2 = effects) : b.Runs a := by
  refine ⟨[], effects, List.forall_mem_nil _, ?_, heffects⟩
  rw [hevents, hlink]
  exact Link.run?_singleton hs

theorem runs_write (h : Echoing settings echoed accepted past b) (data : Bytes) :
    b.Runs (.write data) := by
  have hopen : b.isClosed = false := h.link.running.opened
  by_cases hd : data = []
  · refine runs_nothing (if_pos hd) ?_
    simp only [act, write, hopen, Bool.false_eq_true, if_false, if_pos hd]
  · have hs : b.link.step? (.write data) = _ := h.link.running.feed? (.write data)
    have hfeed := h.link.running.feed? (.write data)
    refine runs_step hs (if_neg hd) ?_ ?_
    all_goals simp only [act, write, hopen, Bool.false_eq_true, if_false, if_neg hd, hfeed]

theorem runs_flush (h : Echoing settings echoed accepted past b) : b.Runs .flush := by
  have hopen : b.isClosed = false := h.link.running.opened
  have hfeed := h.link.running.feed? (.flush b.nextRequest)
  have hs : b.link.step? (.flush b.nextRequest) = _ := hfeed
  refine runs_step hs rfl ?_ ?_
  all_goals simp only [act, flush, hopen, Bool.false_eq_true, if_false, hfeed]

theorem runs_read (h : Echoing settings echoed accepted past b) (length : Nat) :
    b.Runs (.read length) := by
  have hopen : b.isClosed = false := h.link.running.opened
  by_cases hn : length = 0
  · refine runs_nothing (if_pos hn) ?_
    simp only [act, read, hopen, Bool.false_eq_true, if_false, if_pos hn]
  · have hfeed := h.link.running.feed? (.read b.nextRequest length)
    have hs : b.link.step? (.read b.nextRequest length) = _ := hfeed
    refine runs_step hs (if_neg hn) ?_ ?_
    all_goals simp only [act, read, hopen, Bool.false_eq_true, if_false, if_neg hn, hfeed]

theorem runs_own (h : Echoing settings echoed accepted past b) : b.Runs .own := by
  have hrunning := h.link.running
  obtain hpump | ⟨data, hpump⟩ := h.link.pump_cases
  · cases hactive : b.link.engine.transmitting with
    | false =>
      have hhandOff := Link.handOff?_of_idle hactive
      refine runs_nothing ?_ ?_
      · simp only [events, hpump, hactive, Bool.false_eq_true, if_false]
      · simp only [act, take, advance?_eq hrunning, hpump, hhandOff, Option.map_none,
          Option.getD_none]
    | true =>
      obtain ⟨l, effects, hr⟩ := Link.exists_handOff hpump hrunning.serving hactive
      have hs : b.link.step? .handOff = some (l, effects) := hr
      refine runs_step hs ?_ ?_ ?_
      · simp only [events, hpump, hactive, if_true]
      all_goals
        simp only [act, take, advance?_eq hrunning, hpump, hr, Option.map_some, Option.getD_some,
          withLink]
  · have hfits := h.link.fits data hpump
    have hitems := (Notification.receive_of_fits hfits).2
    obtain ⟨next, shown, hfeed, hcame, hsame, -⟩ := Link.exists_incoming h.link hitems hfits
    obtain ⟨last, hcomplete, -⟩ := Link.smooth_complete hcame (hsame.trans hpump)
    have hact := act_own_of_writing h hpump hfeed hcomplete
    have hfirst : b.link.step? (.incoming (Notification.receive data none).1) = _ := hfeed
    have hsecond : next.step? (.complete none) = _ := hcomplete
    refine ⟨[.logged (.echo data.length)], shown ++ [.wrote data none],
      List.forall_mem_singleton.mpr ⟨_, rfl⟩, ?_, ?_⟩
    · simp only [events, hpump, Link.run?, hfirst, hsecond, hact, List.append_nil]
    · rw [hact]
      exact List.cons_append

theorem runs (h : Echoing settings echoed accepted past b) (a : Act) : b.Runs a := by
  cases a with
  | write data => exact runs_write h data
  | flush => exact runs_flush h
  | read length => exact runs_read h length
  | own => exact runs_own h

/-- A bridge that carries one write. -/
structure Carrying (settings : Settings) (data : Bytes) (past : List Effect)
    (b : Bridge (Loopback Unit) Ring) : Prop where
  echoing : Echoing settings (Effect.sent past) data past b
  cuts : Link.Cuts b.link.plain data past
  prompt : b.link.plain.engine.inbound.Prompt

/-- What an act that brings no other write does to such a bridge. -/
structure Carried (settings : Settings) (data : Bytes) (past : List Effect)
    (b : Bridge (Loopback Unit) Ring) (a : Act) : Prop where
  carrying : Carrying settings data (past ++ (b.act a).2) (b.act a).1
  drains : Link.Drains b.link.plain (b.act a).1.link.plain (b.events a) (b.act a).2
  serves : Link.Serves b.link.plain (b.act a).1.link.plain (b.events a) (b.act a).2
  flushed : ∀ id, .replied id (.flush (.ok ())) ∈ (b.act a).2 →
    Effect.sent (past ++ (b.act a).2) = data

theorem draining_events (hwritten : a.written = []) :
    ∀ event ∈ b.events a, event.isDraining = true ∧ event.isVoid = false := by
  cases a with
  | write bytes =>
    obtain rfl : bytes = [] := hwritten
    exact List.forall_mem_nil _
  | flush => exact List.forall_mem_singleton.mpr ⟨rfl, rfl⟩
  | read length =>
    rw [events]
    split
    · exact List.forall_mem_nil _
    · next hn => exact List.forall_mem_singleton.mpr ⟨rfl, beq_eq_false_iff_ne.mpr hn⟩
  | own =>
    rw [events]
    split
    · split
      · exact List.forall_mem_singleton.mpr ⟨rfl, rfl⟩
      · exact List.forall_mem_nil _
    · exact List.forall_mem_cons.mpr ⟨⟨rfl, rfl⟩, List.forall_mem_singleton.mpr ⟨rfl, rfl⟩⟩
    · exact List.forall_mem_nil _

theorem asked_own : (b.events .own).filterMap Link.Event.read? = [] ∧
    (b.events .own).filterMap Link.Event.flush? = [] := by
  rw [events]
  split
  · split <;> exact ⟨rfl, rfl⟩
  · exact ⟨rfl, rfl⟩
  · exact ⟨rfl, rfl⟩

/-- A transmitting bridge has a move to make by itself. -/
theorem internal_own (h : Echoing settings echoed accepted past b)
    (hactive : b.link.engine.transmitting = true) :
    0 < (b.events .own).countP Link.Event.isInternal := by
  obtain hpump | ⟨piece, hpump⟩ := h.link.pump_cases
  · simp only [events, hpump, hactive, if_true]
    exact Nat.one_pos
  · simp only [events, hpump]
    exact Nat.one_pos

theorem carried (h : Carrying settings data past b) (hwritten : a.written = []) :
    Carried settings data past b a := by
  have hrunning := h.echoing.link.running
  obtain ⟨log, effects, hlog, hrun, heffects⟩ := runs h.echoing a
  have hacted := acted h.echoing a
  have hplain : b.link.plain.run? (b.events a) = some ((b.act a).1.link.plain, effects) := by
    have hp := (Link.run?_plain hrunning.valid (b.events a)).1
    rwa [hrun] at hp
  have hevents := draining_events (b := b) hwritten
  have hdraining : ∀ event ∈ b.events a, event.isDraining = true := fun event he =>
    (hevents event he).1
  obtain ⟨hcuts, hserves⟩ := Link.carries_run (h.cuts.of_isLogged hlog) h.prompt hrunning.serving
    hplain hdraining fun event he => (hevents event he).2
  have hdrains := Link.drains_run h.echoing.link.accounts hrunning.serving hplain hdraining
  have hechoing := hacted.echoing
  rw [← hechoing.sent, hwritten, List.append_nil] at hechoing
  have hflushed := hacted.flushed
  rw [hwritten, List.append_nil] at hflushed
  refine ⟨⟨hechoing, ?_, hserves.prompt⟩, ?_, ?_, hflushed⟩
  · rw [heffects, ← List.append_assoc]
    exact hcuts
  · rw [heffects]
    exact hdrains.logged hlog
  · rw [heffects]
    exact hserves.logged hlog

/-- The write itself, handed to a bridge that has carried nothing. -/
theorem carrying_write (h : Carrying settings [] past b)
    (hidle : b.link.engine.transmitting = false) (data : Bytes) :
    Carrying settings data (past ++ (b.act (.write data)).2) (b.act (.write data)).1 ∧
      (b.act (.write data)).1.link.plain.toGo ≤ 3 * (pieces settings.maxChunk data).length + 6 ∧
      (b.act (.write data)).1.link.engine.inbound.waiting = b.link.engine.inbound.waiting ∧
      (b.act (.write data)).1.link.engine.outbound.waiting = b.link.engine.outbound.waiting ∧
      ∀ x ∈ (b.act (.write data)).2, x.IsLogged := by
  have hrunning := h.echoing.link.running
  have hopen : b.isClosed = false := hrunning.opened
  by_cases hd : data = []
  · have hact : b.act (.write data) = (b, []) := by
      simp only [act, write, hopen, Bool.false_eq_true, if_false, if_pos hd]
    have htoGo : b.link.plain.toGo = 0 := if_neg (Bool.eq_false_iff.mp hidle)
    rw [hact, hd, List.append_nil, htoGo]
    exact ⟨h, Nat.zero_le _, rfl, rfl, List.forall_mem_nil _⟩
  · have hechoing := (acted h.echoing (.write data)).echoing
    have hfeed := hrunning.feed? (.write data)
    have hact : b.act (.write data) = ({ b with link := { b.link with
        engine := (b.link.engine.step (.write data)).1 } },
          (b.link.engine.step (.write data)).2) := by
      simp only [act, write, hopen, Bool.false_eq_true, if_false, if_neg hd, hfeed]
    rw [← hechoing.sent, hact] at hechoing
    rw [hact]
    have hnone := Effect.unreported?_of_smooth h.echoing.link.smooth
    obtain ⟨hcuts, hlogged, hwaiting, -⟩ := Link.cuts_write (h.cuts.restart hidle hnone) hidle
      (Link.step?_plain_of_eq hrunning.valid (.write data) hfeed)
    have hwrites : writes past = [] := by
      have hcut := h.cuts.cut
      rw [Bytes.pieces_nil, List.append_eq_nil_iff, List.append_eq_nil_iff] at hcut
      exact List.map_eq_nil_iff.mp hcut.1.1
    refine ⟨⟨hechoing, ⟨hechoing.link.accounts, hcuts.offer, ?_⟩, h.prompt⟩, ?_, rfl, hwaiting,
      hlogged⟩
    · rw [Effect.writes_append, hwrites, List.nil_append]
      exact hcuts.cut
    · have hsettings := hechoing.link.running.settings
      have hle := Link.toGo_le_pieces hechoing.link.accounts
      rw [← hsettings]
      exact hle

/-- When everything was sent, each piece was written once, and well. -/
theorem Carrying.writes_eq (h : Carrying settings data past b) (hsent : Effect.sent past = data) :
    writes past = (pieces settings.maxChunk data).map fun piece => (piece, none) := by
  have hpieces := h.cuts.writes_of_sent hsent
  have hsettings : b.link.plain.engine.settings = settings := h.echoing.link.running.settings
  rw [hsettings] at hpieces
  have hwell : (writes past).map ((fun piece => (piece, none)) ∘ Prod.fst) =
      (writes past).map id := by
    refine List.map_congr_left fun answer hanswer => ?_
    obtain ⟨x, hx, hwrite⟩ := List.mem_filterMap.mp hanswer
    have hsmooth := h.echoing.link.smooth x hx
    cases x with
    | wrote piece failure =>
      obtain rfl : failure = none := hsmooth
      rw [← Option.some.inj hwrite]
      rfl
    | _ => cases hwrite
  rw [← hpieces, List.map_map, hwell, List.map_id]

/-- What was read lies in front of what was sent, and that in front of the write. -/
theorem Carrying.fronts (h : Carrying settings data past b) :
    bytesRead past <+: Effect.sent past ∧ Effect.sent past <+: data := by
  have hbytes := h.cuts.accounts.bytes
  rw [List.append_assoc] at hbytes
  exact ⟨⟨_, h.echoing.link.readable⟩, ⟨_, hbytes⟩⟩

/-- Once everything was sent it stays so. -/
theorem Carrying.sent_kept (h : Carrying settings data (past ++ effects) b)
    (hsent : Effect.sent past = data) : Effect.sent (past ++ effects) = data := by
  have hfront := h.fronts.2
  rw [Effect.sent_append, hsent] at hfront ⊢
  have hlength := hfront.length_le
  rw [List.length_append] at hlength
  have hnil : Effect.sent effects = [] := List.length_eq_zero_iff.mp (by omega)
  rw [hnil, List.append_nil]

/-! ## What a bridge does by itself -/

theorem advance?_of_active (h : Carrying settings data past b)
    (hactive : b.link.engine.transmitting = true) : b.advance? true = some (b.act .own) := by
  cases hadvance : b.advance? true with
  | some step => simp only [act, take, hadvance, Option.getD_some]
  | none =>
    have hact : b.act .own = (b, []) := by
      simp only [act, take, hadvance, Option.getD_none]
    have hless := (carried h (a := .own) rfl).drains.toGo
    have hpos := internal_own h.echoing hactive
    simp only [hact] at hless
    omega

theorem advance?_of_idle (h : Carrying settings data past b)
    (hidle : b.link.engine.transmitting = false) : b.advance? true = none := by
  have hbusy : b.link.pump.isBusy = false := h.cuts.accounts.idle hidle
  rw [advance?_eq h.echoing.link.running]
  cases hpump : b.link.pump with
  | ready => simp only [Link.handOff?_of_idle hidle, Option.map_none]
  | stopped => rfl
  | _ =>
    rw [hpump] at hbusy
    cases hbusy

/-! ## The calls -/

theorem issued_write (h : Echoing settings echoed accepted past b) (data : Bytes) :
    b.write data =
      ((b.act (.write data)).1, .ok data.length, (b.act (.write data)).2) := by
  rw [← h.calls.1 data]
  rfl

theorem issued_flush (h : Echoing settings echoed accepted past b) :
    b.flush = ((b.act .flush).1, .request b.nextRequest, (b.act .flush).2) := by
  rw [← h.calls.2.1]
  rfl

theorem issued_read (h : Echoing settings echoed accepted past b) {length : Nat}
    (hpos : 0 < length) :
    b.read length =
      ((b.act (.read length)).1, .request b.nextRequest, (b.act (.read length)).2) := by
  obtain ⟨n, rfl⟩ := Nat.exists_eq_succ_of_ne_zero (Nat.ne_of_gt hpos)
  rw [← h.calls.2.2 n]
  rfl

/-- An idle bridge answers a flush at once. -/
theorem flush_of_idle (h : Carrying settings data past b)
    (hidle : b.link.engine.transmitting = false) :
    (b.act .flush).2 = [.replied b.nextRequest (.flush (.ok ()))] := by
  have hrunning := h.echoing.link.running
  have hopen : b.isClosed = false := hrunning.opened
  have hfeed := hrunning.feed? (.flush b.nextRequest)
  have hm := (Engine.not_transmitting_iff _).mp hidle
  have hnone := h.echoing.link.no_failure.1
  simp only [act, flush, hopen, Bool.false_eq_true, if_false, hfeed, Engine.step,
    Engine.withOutbound, Outbound.flush, hm, Outbound.outcome, hnone]

/-- A read is answered with bytes, or everything that came back was read. -/
theorem read_cases (h : Carrying settings data past b) {length : Nat} (hpos : 0 < length) :
    (∃ bytes, bytes ≠ [] ∧
      (b.act (.read length)).2 = [.replied b.nextRequest (.read (.ok bytes))]) ∨
    (b.act (.read length)).2 = [.logged (.readPending length)] ∧
      bytesRead past = Effect.sent past := by
  have hrunning := h.echoing.link.running
  have hopen : b.isClosed = false := hrunning.opened
  have hfeed := hrunning.feed? (.read b.nextRequest length)
  have hact : (b.act (.read length)).2 = (b.link.engine.inbound.read b.nextRequest length).2 := by
    simp only [act, read, hopen, Bool.false_eq_true, if_false, if_neg (Nat.ne_of_gt hpos), hfeed]
    rfl
  have hcarried := carried h (a := .read length) rfl
  rw [Inbound.read] at hact
  split at hact
  · next result _ _ =>
    have hsmooth := hcarried.carrying.echoing.link.smooth (.replied b.nextRequest (.read result))
      (List.mem_append_right _ (by rw [hact]; exact List.mem_singleton.mpr rfl))
    obtain ⟨bytes, rfl⟩ := hsmooth
    refine .inl ⟨bytes, hcarried.serves.brings b.nextRequest bytes ?_, hact⟩
    rw [hact]
    exact List.mem_singleton.mpr rfl
  · refine .inr ⟨hact, ?_⟩
    have hlogged : ∀ x ∈ [Effect.logged (.readPending length)], x.IsLogged :=
      List.forall_mem_singleton.mpr ⟨_, rfl⟩
    have hevents : b.events (.read length) = [.read b.nextRequest length] :=
      if_neg (Nat.ne_of_gt hpos)
    have hwaiting : (b.act (.read length)).1.link.plain.engine.inbound.waiting ≠ [] := by
      intro hnil
      have hreads := hcarried.serves.reads
      rw [hevents, hact, Link.reads_of_isLogged hlogged, hnil] at hreads
      exact List.append_ne_nil_of_right_ne_nil _ (List.cons_ne_nil _ _) hreads.symm
    have hqueue : (b.act (.read length)).1.link.engine.inbound.queue.toList = [] :=
      (Inbound.undelivered_eq_nil_iff.mp (hcarried.serves.prompt.delivered hwaiting)).1
    have hreadable := hcarried.carrying.echoing.link.readable
    rw [hqueue, List.append_nil, hact, Effect.sent_append, Effect.sent, Effect.sent,
      Effect.writes_of_isLogged hlogged, List.flatMap_nil, List.append_nil, bytesRead,
      List.flatMap_append] at hreadable
    exact (List.append_nil _).symm.trans hreadable

/-- A bridge that was just opened has carried nothing. -/
theorem carrying_start (choices : List Setting) :
    ∃ (b : Bridge (Loopback Unit) Ring) (o : Opening (Loopback Unit)),
      Session.start {} (Settings.build choices) = (.ok { bridge := b }, o) ∧
      b.Carrying (Settings.build choices) [] [] ∧ b.link.engine.transmitting = false ∧
      b.link.engine.inbound.waiting = [] ∧ b.link.engine.outbound.waiting = [] := by
  let p : Loopback Unit := { handler := some (), bridgeMode := true }
  refine ⟨new p Loopback.characteristics (Settings.build choices), _, rfl, ⟨?_, ?_, ?_⟩, rfl, rfl,
    rfl⟩
  · exact ⟨Link.smooth_new choices, rfl, rfl, rfl⟩
  · have hcuts := Link.cuts_new choices
    rw [← Link.plain_new] at hcuts
    exact hcuts
  · exact (Engine.inOrder_new (Settings.build choices)).prompt

end Bridge

end SerialBridge
