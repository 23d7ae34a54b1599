import SerialBridge.Peripheral
import SerialBridge.Proofs.Link.Smooth
import SerialBridge.Session

/-!
# Round trips

What is written to a bridge on the loopback peripheral comes back, in order and whole, whatever the
sizes of the writes and the reads and whenever the bridge gets to move.
-/

namespace SerialBridge

open Effect (bytesRead writes)

namespace Bridge

/-- A call, or a move that the bridge makes by itself. -/
inductive Act where
  | write (data : Bytes)
  | flush
  | read (length : Nat)
  | own
  deriving DecidableEq, Repr

def Act.written : Act → Bytes
  | .write data => data
  | _ => []

/-- The bytes that acts hand over, one write after another. -/
def written (acts : List Act) : Bytes := acts.flatMap Act.written

section Acts

variable {P Q : Type} [Peripheral P Unit] [ByteQueue Q]

def act (b : Bridge P Q) : Act → Bridge P Q × List Effect
  | .write data => ((b.write data).1, (b.write data).2.2)
  | .flush => (b.flush.1, b.flush.2.2)
  | .read length => ((b.read length).1, (b.read length).2.2)
  | .own => b.take .own

def actAll (b : Bridge P Q) : List Act → Bridge P Q × List Effect
  | [] => (b, [])
  | a :: rest =>
    let (b, effects) := b.act a
    let (b, later) := b.actAll rest
    (b, effects ++ later)

/-- What the peripheral notifies during an act: only a physical write asks it to. -/
def echoes (b : Bridge P Q) : Act → List (Delivery Unit)
  | .own =>
    match b.link.shutdown?, b.link.pump with
    | none, .writing data =>
      (Peripheral.respond b.peripheral (.write b.characteristics.rx data
        b.link.engine.settings.writeWithResponse)).1.deliveries
    | _, _ => []
  | _ => []

/-- What the peripheral notifies during some acts, in order. -/
def echoesAll (b : Bridge P Q) : List Act → List (Delivery Unit)
  | [] => []
  | a :: rest => b.echoes a ++ (b.act a).1.echoesAll rest

@[simp] theorem actAll_nil (b : Bridge P Q) : b.actAll [] = (b, []) := rfl

@[simp] theorem actAll_cons (b : Bridge P Q) (a : Act) (rest : List Act) :
    b.actAll (a :: rest) =
      (((b.act a).1.actAll rest).1, (b.act a).2 ++ ((b.act a).1.actAll rest).2) := rfl

theorem actAll_append (b : Bridge P Q) (before after : List Act) :
    b.actAll (before ++ after) = (((b.actAll before).1.actAll after).1,
      (b.actAll before).2 ++ ((b.actAll before).1.actAll after).2) := by
  induction before generalizing b with
  | nil => rfl
  | cons a rest ih => simp only [List.cons_append, actAll_cons, ih, List.append_assoc]

theorem echoesAll_append (b : Bridge P Q) (before after : List Act) :
    b.echoesAll (before ++ after) =
      b.echoesAll before ++ (b.actAll before).1.echoesAll after := by
  induction before generalizing b with
  | nil => rfl
  | cons a rest ih => simp only [List.cons_append, echoesAll, actAll_cons, ih, List.append_assoc]

end Acts

end Bridge

namespace Loopback

/-- The attributes on which a bridge opens. -/
def characteristics : Characteristics := ⟨service, mode, rx, tx⟩

/-- In bridge mode a value that fits is sent back. -/
theorem respond_rx {p : Loopback Unit} (hmode : p.bridgeMode = true)
    (hhandler : p.handler = some ()) {data : Bytes} (hfits : data.length ≤ chunkLimit)
    (withResponse : Bool) :
    Peripheral.respond p (.write rx data withResponse) =
      ({ result := .ok [], deliveries := [⟨(), data, none⟩], log := [.echo data.length] },
        { p with echoed := p.echoed + data.length }) := by
  have hne : rx ≠ mode := by decide
  simp only [Peripheral.respond, respond, write, if_neg hne, ne_eq, not_true_eq_false, if_false,
    if_neg (Nat.not_lt.mpr hfits), echo, hmode, if_true, hhandler]

end Loopback

/-- A payload that fits is received whole. -/
theorem Notification.receive_of_fits {data : Bytes} (hfits : data.length ≤ chunkLimit) :
    (receive data none).2 = [] ∧ (receive data none).1.items = data.map .byte := by
  constructor
  · rw [receive, if_neg (Nat.not_lt.mpr hfits)]
  · rw [receive, items, Chunk.bytes_ofBytes, List.take_of_length_le hfits]
    exact List.append_nil _

namespace Bridge

/-- A bridge on the loopback peripheral on which nothing has failed: what the peripheral has echoed
is what came in. -/
structure Echoing (settings : Settings) (echoed accepted : Bytes) (past : List Effect)
    (b : Bridge (Loopback Unit) Ring) : Prop where
  link : b.link.Smooth settings echoed accepted past b.nextRequest
  characteristics : b.characteristics = Loopback.characteristics
  peripheral : b.peripheral =
    { handler := some (), bridgeMode := true, echoed := echoed.length }
  sent : Effect.sent past = echoed

/-- What an act does to such a bridge. -/
structure Acted (settings : Settings) (echoed accepted : Bytes) (past : List Effect)
    (b : Bridge (Loopback Unit) Ring) (a : Act) : Prop where
  echoing : Echoing settings (echoed ++ (b.echoes a).flatMap Delivery.data)
    (accepted ++ a.written) (past ++ (b.act a).2) (b.act a).1
  whole : ∀ d ∈ b.echoes a, d.failure = none ∧ d.data.length ≤ chunkLimit
  flushed : ∀ id, .replied id (.flush (.ok ())) ∈ (b.act a).2 →
    Effect.sent (past ++ (b.act a).2) = accepted ++ a.written

variable {settings : Settings} {echoed accepted : Bytes} {past effects : List Effect}
  {b : Bridge (Loopback Unit) Ring} {l : Link Ring} {a : Act}

/-- Nothing happens. -/
theorem acted_nothing (h : Echoing settings echoed accepted past b) (hact : b.act a = (b, []))
    (hechoes : b.echoes a = []) (hwritten : a.written = []) :
    Acted settings echoed accepted past b a := by
  refine ⟨?_, ?_, ?_⟩
  · rw [hact, hechoes, hwritten, List.flatMap_nil, List.append_nil, List.append_nil,
      List.append_nil]
    exact h
  · rw [hechoes]
    exact fun d hd => absurd hd List.not_mem_nil
  · rw [hact]
    exact fun id hid => absurd hid List.not_mem_nil

/-- The engine makes a step that brings nothing in. -/
theorem acted_engine (h : Echoing settings echoed accepted past b) (event : Link.Event)
    {e : Engine.Event} {later : Nat} (he : event.engine? = some e) (hitems : e.items = [])
    (hlater : b.nextRequest ≤ later) (hasked : ∀ id ∈ Engine.Move.flushed (.event e), id < later)
    (hs : b.link.step? event = some (l, effects))
    (hact : b.act a = ({ b with link := l, nextRequest := later }, effects))
    (hechoes : b.echoes a = []) (hwritten : a.written = event.written) :
    Acted settings echoed accepted past b a := by
  have hnothing : e.items = ([] : Bytes).map .byte := hitems
  have hsmooth := Link.smooth_engine h.link he hs hnothing (Nat.zero_le _) hlater hasked
  refine ⟨?_, ?_, ?_⟩
  · rw [hact, hechoes, hwritten, List.flatMap_nil, List.append_nil]
    rw [List.append_nil] at hsmooth
    refine ⟨hsmooth, h.characteristics, h.peripheral, ?_⟩
    rw [Effect.sent_append, Link.sent_of_engine he hs, List.append_nil]
    exact h.sent
  · rw [hechoes]
    exact fun d hd => absurd hd List.not_mem_nil
  · rw [hact, hwritten]
    exact fun id hid => Link.sent_of_flushed h.link hs hid

theorem acted_write (h : Echoing settings echoed accepted past b) (data : Bytes) :
    Acted settings echoed accepted past b (.write data) := by
  have hopen : b.isClosed = false := h.link.running.opened
  by_cases hd : data = []
  · have hact : b.act (.write data) = (b, []) := by
      simp only [act, write, hopen, Bool.false_eq_true, if_false, if_pos hd]
    exact acted_nothing h hact rfl hd
  · have hfeed := h.link.running.feed? (.write data)
    refine acted_engine h (.write data) rfl rfl (Nat.le_refl _)
      (fun id hid => absurd hid List.not_mem_nil) hfeed ?_ rfl rfl
    simp only [act, write, hopen, Bool.false_eq_true, if_false, if_neg hd, hfeed]

theorem acted_flush (h : Echoing settings echoed accepted past b) :
    Acted settings echoed accepted past b .flush := by
  have hopen : b.isClosed = false := h.link.running.opened
  have hfeed := h.link.running.feed? (.flush b.nextRequest)
  refine acted_engine h (.flush b.nextRequest) rfl rfl (Nat.le_succ _) ?_ hfeed ?_ rfl rfl
  · intro id hid
    rw [List.mem_singleton.mp hid]
    exact Nat.lt_succ_self _
  · simp only [act, flush, hopen, Bool.false_eq_true, if_false, hfeed]

theorem acted_read (h : Echoing settings echoed accepted past b) (length : Nat) :
    Acted settings echoed accepted past b (.read length) := by
  have hopen : b.isClosed = false := h.link.running.opened
  by_cases hn : length = 0
  · have hact : b.act (.read length) = (b, []) := by
      simp only [act, read, hopen, Bool.false_eq_true, if_false, if_pos hn]
    exact acted_nothing h hact rfl rfl
  · have hfeed := h.link.running.feed? (.read b.nextRequest length)
    refine acted_engine h (.read b.nextRequest length) rfl rfl (Nat.le_succ _)
      (fun id hid => absurd hid List.not_mem_nil) hfeed ?_ rfl rfl
    simp only [act, read, hopen, Bool.false_eq_true, if_false, if_neg hn, hfeed]

/-- The move of a bridge whose pump writes: the peripheral echoes the bytes, they come in, and the
write ends. -/
theorem act_own_of_writing (h : Echoing settings echoed accepted past b) {data : Bytes}
    (hpump : b.link.pump = .writing data) {next last : Link Ring} {shown : List Effect}
    (hfeed : b.link.feed? (.incoming (Notification.receive data none).1) = some (next, shown))
    (hcomplete : next.complete? none = some (last, [.wrote data none])) :
    b.act .own =
      ({ b with
          peripheral := { b.peripheral with echoed := b.peripheral.echoed + data.length }
          link := last },
        .logged (.echo data.length) :: shown ++ [.wrote data none]) := by
  have hrunning := h.link.running
  have hfits := h.link.fits data hpump
  have hrespond := Loopback.respond_rx (p := b.peripheral) (by rw [h.peripheral])
    (by rw [h.peripheral]) hfits b.link.engine.settings.writeWithResponse
  have hlog := (Notification.receive_of_fits hfits).1
  simp only [act, take, advance?_eq hrunning, transmit?, hpump, h.characteristics,
    Loopback.characteristics, hrespond, receive, notify, hrunning.subscribed, if_true, hfeed,
    hlog, Response.failure?, hcomplete, Option.getD_some, List.append_nil]
  rfl

/-- A physical write ends, and its echo has come in. -/
theorem acted_transmit (h : Echoing settings echoed accepted past b) {data : Bytes}
    (hpump : b.link.pump = .writing data) : Acted settings echoed accepted past b .own := by
  have hrunning := h.link.running
  have hfits := h.link.fits data hpump
  have hrespond := Loopback.respond_rx (p := b.peripheral) (by rw [h.peripheral])
    (by rw [h.peripheral]) hfits b.link.engine.settings.writeWithResponse
  have hechoes : b.echoes .own = [⟨(), data, none⟩] := by
    simp only [echoes, hrunning.shutdown?_eq_none, hpump, h.characteristics]
    rw [Loopback.characteristics, hrespond]
  have hitems := (Notification.receive_of_fits hfits).2
  have hlogged : ∀ x ∈ [Effect.logged (.echo data.length)], x.IsLogged :=
    List.forall_mem_singleton.mpr ⟨_, rfl⟩
  obtain ⟨next, shown, hfeed, hcame, hsame, hquiet⟩ :=
    Link.exists_incoming (h.link.logged hlogged) hitems hfits
  obtain ⟨last, hcomplete, hlast⟩ := Link.smooth_complete hcame (hsame.trans hpump)
  have hact := act_own_of_writing h hpump hfeed hcomplete
  refine ⟨?_, ?_, ?_⟩
  · have heffects : past ++ (.logged (.echo data.length) :: shown ++ [.wrote data none]) =
        past ++ [.logged (.echo data.length)] ++ shown ++ [.wrote data none] := by simp
    have hsent : Effect.sent (past ++ [.logged (.echo data.length)] ++ shown ++
        [.wrote data none]) = echoed ++ data := by
      rw [Effect.sent_append, Effect.sent_append, Effect.sent_append, h.sent,
        Effect.sent_eq_nil fun x hx => (hquiet x hx).1]
      simp [Effect.sent, writes, Effect.write?]
    have hperipheral : { b.peripheral with echoed := b.peripheral.echoed + data.length } =
        ({ handler := some (), bridgeMode := true, echoed := (echoed ++ data).length } :
          Loopback Unit) := by
      rw [h.peripheral, List.length_append]
    have hwritten : Act.own.written = [] := rfl
    rw [hact, hechoes, heffects, List.flatMap_singleton, hwritten, List.append_nil]
    exact ⟨hlast, h.characteristics, hperipheral, hsent⟩
  · rw [hechoes]
    exact List.forall_mem_singleton.mpr ⟨rfl, hfits⟩
  · intro id hid
    rw [hact] at hid
    simp only [List.cons_append, List.mem_cons, reduceCtorEq, List.mem_append, List.not_mem_nil,
      or_false, false_or] at hid
    cases (hquiet _ hid).2

/-- The bridge moves by itself: the pump takes what is on offer, or a physical write ends, or there
is nothing to do. -/
theorem acted_own (h : Echoing settings echoed accepted past b) :
    Acted settings echoed accepted past b .own := by
  have hrunning := h.link.running
  obtain hpump | ⟨data, hpump⟩ := h.link.pump_cases
  · have hechoes : b.echoes .own = [] := by
      simp only [echoes, hrunning.shutdown?_eq_none, hpump]
    cases hr : b.link.handOff? with
    | none =>
      have hact : b.act .own = (b, []) := by
        simp only [act, take, advance?_eq hrunning, hpump, hr, Option.map_none, Option.getD_none]
      exact acted_nothing h hact hechoes rfl
    | some step =>
      have hs : b.link.step? .handOff = some (step.1, step.2) := hr
      refine acted_engine h .handOff rfl rfl (Nat.le_refl _)
        (fun id hid => absurd hid List.not_mem_nil) hs ?_ hechoes rfl
      simp only [act, take, advance?_eq hrunning, hpump, hr, Option.map_some, Option.getD_some,
        withLink]
  · exact acted_transmit h hpump

/-- Every act keeps the bridge echoing. -/
theorem acted (h : Echoing settings echoed accepted past b) (a : Act) :
    Acted settings echoed accepted past b a := by
  cases a with
  | write data => exact acted_write h data
  | flush => exact acted_flush h
  | read length => exact acted_read h length
  | own => exact acted_own h

/-! ## Runs -/

theorem echoing_run (h : Echoing settings echoed accepted past b) (acts : List Act) :
    Echoing settings (echoed ++ (b.echoesAll acts).flatMap Delivery.data)
      (accepted ++ written acts) (past ++ (b.actAll acts).2) (b.actAll acts).1 := by
  induction acts generalizing b echoed accepted past with
  | nil =>
    simp only [echoesAll, written, List.flatMap_nil, actAll_nil, List.append_nil]
    exact h
  | cons a rest ih =>
    have hrest := ih (acted h a).echoing
    simp only [echoesAll, written, List.flatMap_cons, List.flatMap_append, actAll_cons]
    simp only [List.append_assoc] at hrest
    exact hrest

theorem whole_run (h : Echoing settings echoed accepted past b) (acts : List Act) :
    ∀ d ∈ b.echoesAll acts, d.failure = none ∧ d.data.length ≤ chunkLimit := by
  induction acts generalizing b echoed accepted past with
  | nil => exact fun d hd => absurd hd List.not_mem_nil
  | cons a rest ih =>
    exact List.forall_mem_append.mpr ⟨(acted h a).whole, ih (acted h a).echoing⟩

/-- When a flush is answered, everything accepted before has come back. -/
theorem accepted_of_flushed (h : Echoing settings echoed accepted past b) (acts : List Act)
    {id : Nat} (hid : .replied id (.flush (.ok ())) ∈ (b.actAll acts).2) :
    accepted <+: echoed ++ (b.echoesAll acts).flatMap Delivery.data := by
  induction acts generalizing b echoed accepted past with
  | nil => cases hid
  | cons a rest ih =>
    have hacted := acted h a
    have hall : echoed ++ (b.echoesAll (a :: rest)).flatMap Delivery.data =
        echoed ++ (b.echoes a).flatMap Delivery.data ++
          ((b.act a).1.echoesAll rest).flatMap Delivery.data := by
      rw [echoesAll, List.flatMap_append, List.append_assoc]
    rw [hall]
    obtain hfirst | hlater := List.mem_append.mp hid
    · have hsent := hacted.flushed id hfirst
      rw [hacted.echoing.sent] at hsent
      rw [hsent]
      exact ((List.prefix_append _ _).trans (List.prefix_append _ _))
    · exact (List.prefix_append _ _).trans (ih hacted.echoing hlater)

/-- A bridge opens on a fresh loopback peripheral. -/
theorem echoing_start (choices : List Setting) :
    ∃ (s : Session (Loopback Unit) Ring) (o : Opening (Loopback Unit)),
      Session.start {} (Settings.build choices) = (.ok s, o) ∧
        Echoing (Settings.build choices) [] [] [] s.bridge := by
  let p : Loopback Unit := { handler := some (), bridgeMode := true }
  refine ⟨{ bridge := new p Loopback.characteristics (Settings.build choices) }, _, rfl, ?_⟩
  exact ⟨Link.smooth_new choices, rfl, rfl, rfl⟩

/-- The calls of a bridge that echoes are all accepted. -/
theorem Echoing.calls (h : Echoing settings echoed accepted past b) :
    (∀ data, (b.write data).2.1 = .ok data.length) ∧ b.flush.2.1 = .request b.nextRequest ∧
      ∀ length, (b.read (length + 1)).2.1 = .request b.nextRequest := by
  have hopen : b.isClosed = false := h.link.running.opened
  have hfeed := h.link.running.feed?
  refine ⟨fun data => ?_, ?_, fun length => ?_⟩
  · by_cases hd : data = []
    · simp [write, hopen, hd]
    · simp [write, hopen, hd, hfeed]
  · simp [flush, hopen, hfeed]
  · simp [read, hopen, hfeed]

/-- Round trips over the loopback peripheral. After any acts of a bridge that was opened on it, the
bytes read and then those that can be read are the bytes echoed, which are a front of those written;
the peripheral has counted them; no echo was too long to come back whole; no read, flush or
physical write has failed, and every call is accepted. Once a flush is answered, all that was
written before it has come back. -/
theorem loopback_round_trip (choices : List Setting) :
    ∃ (s : Session (Loopback Unit) Ring) (o : Opening (Loopback Unit)),
      Session.start {} (Settings.build choices) = (.ok s, o) ∧
      ∀ acts : List Act,
        let b := (s.bridge.actAll acts).1
        let past := (s.bridge.actAll acts).2
        let echoed := (s.bridge.echoesAll acts).flatMap Delivery.data
        bytesRead past ++ b.link.engine.inbound.queue.toList = echoed ∧
        echoed <+: written acts ∧
        b.peripheral.echoed = echoed.length ∧
        (∀ d ∈ s.bridge.echoesAll acts, d.failure = none ∧ d.data.length ≤ chunkLimit ∧
          (Notification.receive d.data d.failure).2 = []) ∧
        (∀ x ∈ past, x.Smooth) ∧
        (∀ data, (b.write data).2.1 = .ok data.length) ∧
        b.flush.2.1 = .request b.nextRequest ∧
        (∀ length, (b.read (length + 1)).2.1 = .request b.nextRequest) ∧
        ∀ before after, acts = before ++ .flush :: after →
          .replied (s.bridge.actAll before).1.nextRequest (.flush (.ok ())) ∈ past →
            written before <+: echoed := by
  obtain ⟨s, o, hstart, hfresh⟩ := echoing_start choices
  refine ⟨s, o, hstart, fun acts => ?_⟩
  intro b past echoed
  have hrun : Echoing (Settings.build choices) echoed (written acts) past b :=
    echoing_run hfresh acts
  refine ⟨hrun.link.readable, ?_, ?_, ?_, hrun.link.smooth, hrun.calls.1, hrun.calls.2.1,
    hrun.calls.2.2, ?_⟩
  · have hbytes := hrun.link.accounts.bytes
    rw [hrun.sent, List.append_assoc] at hbytes
    exact ⟨_, hbytes⟩
  · rw [hrun.peripheral]
  · intro d hd
    obtain ⟨hfailure, hfits⟩ := whole_run hfresh acts d hd
    refine ⟨hfailure, hfits, ?_⟩
    rw [hfailure]
    exact (Notification.receive_of_fits hfits).1
  · rintro before after rfl hanswered
    have hbefore := echoing_run hfresh before
    simp only [past, actAll_append] at hanswered
    obtain hearly | hlater := List.mem_append.mp hanswered
    · have hid : (s.bridge.actAll before).1.nextRequest ∈
          ([] ++ (s.bridge.actAll before).2).filterMap Effect.flush? :=
        List.mem_filterMap.mpr ⟨_, hearly, rfl⟩
      have hlt := hbefore.link.flushes _ (List.mem_append_left _ hid)
      exact absurd hlt (Nat.lt_irrefl _)
    · have hback := accepted_of_flushed hbefore (.flush :: after) hlater
      have hall : echoed = (s.bridge.echoesAll before).flatMap Delivery.data ++
          ((s.bridge.actAll before).1.echoesAll (.flush :: after)).flatMap Delivery.data := by
        rw [← List.flatMap_append, ← echoesAll_append]
      rw [hall]
      exact hback

end Bridge

end SerialBridge
