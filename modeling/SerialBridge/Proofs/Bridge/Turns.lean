import SerialBridge.Bridge
import SerialBridge.Proofs.Link.Pieces

/-!
# Turns of a bridge

Between two calls an open bridge makes its own moves, and its peripheral may notify at any time. A
schedule says in which order; it is a list of turns. Whatever the schedule, the bridge gets on with
the write that it was given, and notifications do not disturb it.
-/

namespace SerialBridge

/-- The answers to data writes that are made one after another, and the peripheral they leave. -/
def Peripheral.writeAll {P : Type} [Peripheral P Unit] (rx : Attribute) (withResponse : Bool) :
    P → List Bytes → List (Bytes × Option Failure) × P
  | p, [] => ([], p)
  | p, data :: rest =>
    let (response, p) := respond p (.write rx data withResponse)
    let (answers, p) := writeAll rx withResponse p rest
    ((data, response.failure?) :: answers, p)

theorem Peripheral.writeAll_append {P : Type} [Peripheral P Unit] (rx : Attribute)
    (withResponse : Bool) (p : P) (a b : List Bytes) :
    writeAll rx withResponse p (a ++ b) =
      ((writeAll rx withResponse p a).1 ++
          (writeAll rx withResponse (writeAll rx withResponse p a).2 b).1,
        (writeAll rx withResponse (writeAll rx withResponse p a).2 b).2) := by
  induction a generalizing p with
  | nil => rfl
  | cons data rest ih => simp only [List.cons_append, writeAll, ih]

namespace Link

open Effect (writes replies)

/-- Neither side is about to end, and the rings are in range. -/
structure Running (settings : Settings) (l : Link Ring) : Prop where
  settings : l.engine.settings = settings
  serving : l.serving = true
  opened : l.closed = false
  subscribed : l.subscribed = true
  pumping : l.pump ≠ .stopped
  valid : l.engine.Valid

/-- A link that is open and gets on with one write, with no read waiting. -/
structure Underway (settings : Settings) (data : Bytes) (past : List Effect) (l : Link Ring) :
    Prop where
  running : l.Running settings
  unread : l.engine.inbound.waiting = []
  cuts : Cuts l.plain data past

variable {settings : Settings} {l l' : Link Ring} {data : Bytes} {past effects : List Effect}

theorem step?_plain_of_eq (h : l.engine.Valid) (event : Event)
    (hs : l.step? event = some (l', effects)) : l.plain.step? event = some (l'.plain, effects) := by
  have hplain := (step?_plain h event).1
  rw [hs] at hplain
  exact hplain

theorem Running.shutdown?_eq_none (h : l.Running settings) : l.shutdown? = none := by
  rw [shutdown?, h.serving, h.opened, h.subscribed]
  rfl

theorem Running.halt?_eq_none (h : l.Running settings) : l.halt? = none := by
  rw [halt?, h.serving, h.opened]
  cases l.pump <;> rfl

/-- Only closing and losing the handler bring the end nearer. -/
theorem running_step (h : l.Running settings) (event : Event)
    (hs : l.step? event = some (l', effects)) (hc : event ≠ .close) (hu : event ≠ .unsubscribe) :
    l'.Running settings := by
  have hvalid : l'.engine.Valid := (step?_plain h.valid event).2 _ hs
  have hfeed (e : Engine.Event) (hs : l.feed? e = some (l', effects)) : l'.Running settings := by
    obtain ⟨-, rfl, -⟩ := eq_of_feed? e hs
    exact ⟨(Engine.settings_step _ _).trans h.settings, h.serving, h.opened, h.subscribed,
      h.pumping, hvalid⟩
  cases event with
  | read id length => exact hfeed (.read id length) hs
  | write data => exact hfeed (.write data) hs
  | flush id => exact hfeed (.flush id) hs
  | incoming n => exact hfeed (.incoming n) hs
  | handOff =>
    obtain ⟨-, -, -, ⟨-, rfl, -⟩ | ⟨-, rfl, -⟩⟩ := eq_of_handOff? hs
    · exact ⟨(Engine.settings_step _ _).trans h.settings, h.serving, h.opened, h.subscribed,
        h.pumping, hvalid⟩
    · exact ⟨(Engine.settings_step _ _).trans h.settings, h.serving, h.opened, h.subscribed,
        Pump.noConfusion, hvalid⟩
  | complete failure =>
    obtain ⟨_, -, ⟨-, rfl, -⟩ | ⟨f, -, rfl, -⟩⟩ := eq_of_complete? hs
    · exact ⟨h.settings, h.serving, h.opened, h.subscribed, Pump.noConfusion, hvalid⟩
    · exact ⟨h.settings, h.serving, h.opened, h.subscribed, Pump.noConfusion, hvalid⟩
  | report =>
    obtain ⟨f, -, ⟨-, rfl, -⟩ | ⟨-, rfl, -⟩⟩ := eq_of_report? hs
    · exact ⟨(Engine.settings_step _ _).trans h.settings, h.serving, h.opened, h.subscribed,
        Pump.noConfusion, hvalid⟩
    · exact ⟨h.settings, h.serving, h.opened, h.subscribed, Pump.noConfusion, hvalid⟩
  | close => exact absurd rfl hc
  | unsubscribe => exact absurd rfl hu
  | shutdown =>
    have hn : l.shutdown? = some (l', effects) := hs
    rw [h.shutdown?_eq_none] at hn
    cases hn
  | halt =>
    have hn : l.halt? = some (l', effects) := hs
    rw [h.halt?_eq_none] at hn
    cases hn

theorem Running.feed? (h : l.Running settings) (event : Engine.Event) :
    l.feed? event =
      some ({ l with engine := (l.engine.step event).1 }, (l.engine.step event).2) := by
  rw [Link.feed?, if_pos h.serving]

/-- A notification is logged, and nothing else shows of it. -/
theorem underway_incoming (h : l.Underway settings data past) (n : Notification) :
    ∃ l' effects, l.feed? (.incoming n) = some (l', effects) ∧
      l'.Underway settings data (past ++ effects) ∧
      l'.engine.outbound = l.engine.outbound ∧ l'.pump = l.pump ∧
      ∀ x ∈ effects, x.IsLogged := by
  have hs : l.step? (.incoming n) = _ := h.running.feed? (.incoming n)
  obtain ⟨hcuts, hlogged, hunread⟩ := cuts_incoming h.cuts (n := n) h.unread
    (step?_plain_of_eq h.running.valid (.incoming n) hs)
  have hrunning := running_step h.running (.incoming n) hs (by simp) (by simp)
  exact ⟨_, _, hs, ⟨hrunning, hunread, hcuts⟩, rfl, rfl, hlogged⟩

/-- An idle link takes a new write, which is all there is to do. -/
theorem underway_write (h : l.Underway settings [] []) (hidle : l.engine.transmitting = false)
    (data : Bytes) :
    ∃ l' effects, l.feed? (.write data) = some (l', effects) ∧
      l'.Underway settings data effects ∧ (∀ x ∈ effects, x.IsLogged) ∧
      l'.engine.outbound.waiting = l.engine.outbound.waiting ∧
      l'.plain.work ≤ 3 * (Bytes.pieces settings.maxChunk data).length + 1 := by
  have hs : l.step? (.write data) = _ := h.running.feed? (.write data)
  obtain ⟨hcuts, hlogged, hwaiting, hwork⟩ :=
    cuts_write h.cuts hidle (step?_plain_of_eq h.running.valid (.write data) hs)
  have hsettings : l.plain.engine.settings = settings := h.running.settings
  rw [hsettings] at hwork
  have hrunning := running_step h.running (.write data) hs (by simp) (by simp)
  exact ⟨_, _, hs, ⟨hrunning, h.unread, hcuts⟩, hlogged, hwaiting, hwork⟩

/-- A flush waits for the end of the burst, or is answered at once. -/
theorem underway_flush (h : l.Underway settings data past) (id : Nat) :
    ∃ l' effects, l.feed? (.flush id) = some (l', effects) ∧
      l'.Underway settings data (past ++ effects) ∧ l'.plain.work = l.plain.work ∧
      (l'.engine.transmitting = true ∧ effects = [] ∧
          l'.engine.outbound.waiting = l.engine.outbound.waiting ++ [id] ∨
        l'.engine.transmitting = false ∧
          effects = [.replied id (.flush (Effect.verdict (Effect.unreported? past)))]) := by
  have hs : l.step? (.flush id) = _ := h.running.feed? (.flush id)
  obtain ⟨hcuts, hwork, hreply⟩ :=
    cuts_flush h.cuts (step?_plain_of_eq h.running.valid (.flush id) hs)
  have hrunning := running_step h.running (.flush id) hs (by simp) (by simp)
  exact ⟨_, _, hs, ⟨hrunning, h.unread, hcuts⟩, hwork, hreply⟩

end Link

namespace Bridge

/-- One place in a schedule. -/
inductive Turn where
  /-- The bridge makes its next move, if there is one. -/
  | own
  /-- The peripheral notifies. -/
  | notified (data : Bytes) (failure : Option Failure)
  deriving DecidableEq, Repr

def Turn.isOwn : Turn → Bool
  | .own => true
  | _ => false

section Schedule

variable {P Q : Type} [Peripheral P Unit] [ByteQueue Q]

def take (b : Bridge P Q) : Turn → Bridge P Q × List Effect
  | .own => (b.advance? true).getD (b, [])
  | .notified data failure =>
    let (b, log, effects) := b.notify data failure
    (b, log.map Effect.logged ++ effects)

/-- The turns of a schedule, one after another. -/
def takeAll (b : Bridge P Q) : List Turn → Bridge P Q × List Effect
  | [] => (b, [])
  | turn :: rest =>
    let (b, effects) := b.take turn
    let (b, later) := b.takeAll rest
    (b, effects ++ later)

@[simp] theorem takeAll_nil (b : Bridge P Q) : b.takeAll [] = (b, []) := rfl

@[simp] theorem takeAll_cons (b : Bridge P Q) (turn : Turn) (rest : List Turn) :
    b.takeAll (turn :: rest) = (((b.take turn).1.takeAll rest).1,
      (b.take turn).2 ++ ((b.take turn).1.takeAll rest).2) := rfl

end Schedule

open Effect (writes replies unreported? verdict)

/-- A bridge on its way through a write. The physical writes that have ended are all that its
peripheral was asked for, and it answered them as they say. -/
structure Underway {P : Type} [Peripheral P Unit] (c : Characteristics) (settings : Settings)
    (p : P) (data : Bytes) (past : List Effect) (b : Bridge P Ring) : Prop where
  link : b.link.Underway settings data past
  characteristics : b.characteristics = c
  answers : Peripheral.writeAll c.rx settings.writeWithResponse p ((writes past).map Prod.fst) =
    (writes past, b.peripheral)

variable {P : Type} [Peripheral P Unit] {c : Characteristics} {settings : Settings} {p : P}
  {data : Bytes} {past effects : List Effect} {b : Bridge P Ring} {l : Link Ring}

/-- The link moves, and no physical write ends. -/
theorem Underway.of_link (h : b.Underway c settings p data past)
    (hl : l.Underway settings data (past ++ effects)) (hw : writes effects = []) :
    ({ b with link := l } : Bridge P Ring).Underway c settings p data (past ++ effects) := by
  refine ⟨hl, h.characteristics, ?_⟩
  rw [Effect.writes_append, hw, List.append_nil]
  exact h.answers

omit [Peripheral P Unit] in
theorem underway_notify (h : b.link.Underway settings data past) (payload : Bytes)
    (failure : Option Failure) :
    ∃ l log effects, b.notify payload failure = ({ b with link := l }, log, effects) ∧
      l.Underway settings data (past ++ (log.map Effect.logged ++ effects)) ∧
      l.engine.outbound = b.link.engine.outbound ∧ l.pump = b.link.pump ∧
      ∀ x ∈ log.map Effect.logged ++ effects, x.IsLogged := by
  have hlog := Effect.isLogged_of_log (Notification.receive payload failure).2
  have hstart : b.link.Underway settings data
      (past ++ (Notification.receive payload failure).2.map Effect.logged) :=
    ⟨h.running, h.unread, h.cuts.of_isLogged hlog⟩
  obtain ⟨l, effects, hs, hl, houtbound, hpump, hlogged⟩ :=
    Link.underway_incoming hstart (Notification.receive payload failure).1
  rw [List.append_assoc] at hl
  refine ⟨l, (Notification.receive payload failure).2, effects, ?_, hl, houtbound, hpump,
    List.forall_mem_append.mpr ⟨hlog, hlogged⟩⟩
  simp only [notify, h.running.subscribed, if_true, hs]

omit [Peripheral P Unit] in
theorem underway_receive (h : b.link.Underway settings data past)
    (deliveries : List (Delivery Unit)) :
    ∃ l effects, b.receive deliveries = ({ b with link := l }, effects) ∧
      l.Underway settings data (past ++ effects) ∧
      l.engine.outbound = b.link.engine.outbound ∧ l.pump = b.link.pump ∧
      ∀ x ∈ effects, x.IsLogged := by
  induction deliveries generalizing b past with
  | nil =>
    refine ⟨b.link, [], rfl, ?_, rfl, rfl, fun x hx => absurd hx List.not_mem_nil⟩
    rwa [List.append_nil]
  | cons d rest ih =>
    obtain ⟨l, log, first, hs, hl, houtbound, hpump, hlogged⟩ := underway_notify h d.data d.failure
    obtain ⟨last, later, hr, hlast, houtbound', hpump', hlogged'⟩ :=
      ih (b := { b with link := l }) hl
    rw [List.append_assoc] at hlast
    refine ⟨last, log.map Effect.logged ++ first ++ later, ?_, hlast, houtbound'.trans houtbound,
      hpump'.trans hpump, List.forall_mem_append.mpr ⟨hlogged, hlogged'⟩⟩
    simp only [receive, hs, hr]

/-- What an open bridge does next depends on what its pump is doing. -/
theorem advance?_eq (h : b.link.Running settings) :
    b.advance? true =
      match b.link.pump with
      | .ready => b.link.handOff?.map b.withLink
      | .writing _ => b.transmit?
      | .failed _ => b.link.report?.map b.withLink
      | .stopped => none := by
  rw [advance?, h.shutdown?_eq_none, h.halt?_eq_none]
  cases hp : b.link.pump with
  | ready =>
    have hreport : b.link.report? = none := by simp only [Link.report?, hp]
    have htransmit : b.transmit? = none := by simp only [transmit?, hp]
    simp only [hreport, htransmit, if_true]
    cases b.link.handOff? <;> rfl
  | writing data =>
    have hreport : b.link.report? = none := by simp only [Link.report?, hp]
    have hhandOff : b.link.handOff? = none := by simp only [Link.handOff?, hp]
    simp only [hreport, hhandOff, if_true]
  | failed f =>
    have hreport : b.link.report?.isSome = true := by
      simp [Link.report?, hp, Link.feed?, h.serving]
    obtain ⟨step, hs⟩ := Option.isSome_iff_exists.mp hreport
    simp only [hs, Option.map_some]
  | stopped => exact absurd hp h.pumping

/-! ## One turn -/

/-- What a turn does to a bridge on its way: it stays on it, and nothing but the end of the burst
answers the flushes that wait. -/
structure Turned (c : Characteristics) (settings : Settings) (p : P) (data : Bytes)
    (past : List Effect) (b next : Bridge P Ring) (effects : List Effect) : Prop where
  underway : next.Underway c settings p data (past ++ effects)
  work : next.link.plain.work ≤ b.link.plain.work
  waits : next.link.engine.transmitting = b.link.engine.transmitting ∧
      next.link.engine.outbound.waiting = b.link.engine.outbound.waiting ∧ replies effects = [] ∨
    b.link.engine.transmitting = true ∧ next.link.engine.transmitting = false ∧
      effects = .logged .idle ::
        Outbound.answers (verdict (unreported? past)) b.link.engine.outbound.waiting

theorem work_eq {l l' : Link Ring} (he : l'.engine.outbound = l.engine.outbound)
    (hs : l'.engine.settings = l.engine.settings) (hp : l'.pump = l.pump) :
    l'.plain.work = l.plain.work := by
  obtain ⟨⟨_, _, _⟩, _, _, _, _⟩ := l
  obtain ⟨⟨_, _, _⟩, _, _, _, _⟩ := l'
  cases he
  cases hs
  cases hp
  rfl

theorem turned_notified (h : b.Underway c settings p data past) (payload : Bytes)
    (failure : Option Failure) :
    Turned c settings p data past b (b.take (.notified payload failure)).1
      (b.take (.notified payload failure)).2 := by
  obtain ⟨l, log, effects, hs, hl, houtbound, hpump, hlogged⟩ :=
    underway_notify h.link payload failure
  have hsettings := hl.running.settings.trans h.link.running.settings.symm
  simp only [take, hs]
  refine ⟨h.of_link hl (Effect.writes_of_isLogged hlogged), ?_, .inl ⟨?_, ?_, ?_⟩⟩
  · exact Nat.le_of_eq (work_eq houtbound hsettings hpump)
  · simp only [Engine.transmitting, houtbound]
  · rw [houtbound]
  · exact Effect.replies_of_isLogged hlogged

/-- The link makes a move of its own that ends no physical write. -/
theorem Underway.of_move (h : b.Underway c settings p data past) (event : Link.Event)
    (hs : b.link.step? event = some (l, effects)) (hc : event ≠ .close) (hu : event ≠ .unsubscribe)
    (hunread : l.engine.inbound.waiting = []) (hcuts : Link.Cuts l.plain data (past ++ effects))
    (hw : writes effects = []) :
    (b.withLink (l, effects)).1.Underway c settings p data (past ++ effects) :=
  h.of_link ⟨Link.running_step h.link.running event hs hc hu, hunread, hcuts⟩ hw

/-- A pump with a failure reports it. -/
theorem turned_failed (h : b.Underway c settings p data past) {f : Failure}
    (hp : b.link.pump = .failed f) :
    Turned c settings p data past b (b.take .own).1 (b.take .own).2 ∧
      (b.take .own).1.link.plain.work < b.link.plain.work := by
  have hrunning := h.link.running
  have hsome : b.link.report?.isSome = true := by
    simp [Link.report?, hp, Link.feed?, hrunning.serving]
  obtain ⟨⟨l, effects⟩, hr⟩ := Option.isSome_iff_exists.mp hsome
  obtain ⟨hcuts, hwork, htransmitting, hwaiting, hlogged⟩ := Link.cuts_report h.link.cuts
    hrunning.serving (Link.step?_plain_of_eq hrunning.valid .report hr)
  have hunread : l.engine.inbound.waiting = [] := by
    obtain ⟨f, -, ⟨-, rfl, -⟩ | ⟨-, rfl, -⟩⟩ := Link.eq_of_report? hr
    · exact h.link.unread
    · exact h.link.unread
  have htake : b.take .own = b.withLink (l, effects) := by
    simp only [take, advance?_eq hrunning, hp, hr, Option.map_some, Option.getD_some]
  rw [htake]
  refine ⟨⟨?_, Nat.le_of_lt hwork, .inl ⟨htransmitting, hwaiting, ?_⟩⟩, hwork⟩
  · exact h.of_move .report hr (by simp) (by simp) hunread hcuts
      (Effect.writes_of_isLogged hlogged)
  · exact Effect.replies_of_isLogged hlogged

/-- A ready pump takes what a transmitting engine offers. -/
theorem turned_ready (h : b.Underway c settings p data past) (hp : b.link.pump = .ready)
    (hactive : b.link.engine.transmitting = true) :
    Turned c settings p data past b (b.take .own).1 (b.take .own).2 ∧
      ((b.take .own).1.link.engine.transmitting = true →
        (b.take .own).1.link.plain.work < b.link.plain.work) := by
  have hrunning := h.link.running
  obtain ⟨l, effects, hr⟩ := Link.exists_handOff hp hrunning.serving hactive
  have hplain := Link.step?_plain_of_eq hrunning.valid .handOff hr
  have hunread : l.engine.inbound.waiting = [] := by
    obtain ⟨-, -, -, ⟨-, rfl, -⟩ | ⟨-, rfl, -⟩⟩ := Link.eq_of_handOff? hr
    · exact h.link.unread
    · exact h.link.unread
  have htake : b.take .own = b.withLink (l, effects) := by
    simp only [take, advance?_eq hrunning, hp, hr, Option.map_some, Option.getD_some]
  rw [htake]
  by_cases hd : b.link.engine.outbound.chunk.bytes = []
  · obtain ⟨hcuts, hidle, heffects⟩ := Link.cuts_handOff_empty h.link.cuts hplain hd
    have hw : writes effects = [] := by
      rw [heffects]
      exact List.filterMap_eq_nil_iff.mpr
        (List.forall_mem_cons.mpr ⟨rfl, Outbound.write?_answers _ _⟩)
    have hwork := hcuts.work_eq_zero hidle
    refine ⟨⟨?_, ?_, .inr ⟨hactive, hidle, heffects⟩⟩, fun ht => ?_⟩
    · exact h.of_move .handOff hr (by simp) (by simp) hunread hcuts hw
    · exact Nat.le_trans (Nat.le_of_eq hwork) (Nat.zero_le _)
    · cases hidle.symm.trans ht
  · obtain ⟨hcuts, hwork, htransmitting, hwaiting, hlogged⟩ :=
      Link.cuts_handOff_bytes h.link.cuts hplain hd
    refine ⟨⟨?_, Nat.le_of_lt hwork, .inl ⟨htransmitting.trans hactive.symm, hwaiting, ?_⟩⟩,
      fun _ => hwork⟩
    · exact h.of_move .handOff hr (by simp) (by simp) hunread hcuts
        (Effect.writes_of_isLogged hlogged)
    · exact Effect.replies_of_isLogged hlogged

/-- What comes of a physical write: its answer, behind the notifications that came with it. -/
theorem exists_transmit (h : b.Underway c settings p data past) {piece : Bytes}
    (hp : b.link.pump = .writing piece) :
    ∃ (response : Response Unit) (peripheral : P) (l l' : Link Ring) (echoed effects : List Effect),
      Peripheral.respond b.peripheral (.write c.rx piece settings.writeWithResponse) =
        (response, peripheral) ∧
      l.Underway settings data (past ++ (response.log.map Effect.logged ++ echoed)) ∧
      l.engine.outbound = b.link.engine.outbound ∧ l.pump = b.link.pump ∧
      (∀ x ∈ response.log.map Effect.logged ++ echoed, x.IsLogged) ∧
      l.complete? response.failure? = some (l', effects) ∧
      b.transmit? = some ({ b with peripheral := peripheral, link := l' },
        response.log.map Effect.logged ++ echoed ++ effects) := by
  obtain rfl := h.characteristics
  have hrunning := h.link.running
  rcases hrespond : Peripheral.respond b.peripheral
    (.write b.characteristics.rx piece settings.writeWithResponse) with ⟨response, peripheral⟩
  have hlog := Effect.isLogged_of_log response.log
  have hstart : b.link.Underway settings data (past ++ response.log.map Effect.logged) :=
    ⟨hrunning, h.link.unread, h.link.cuts.of_isLogged hlog⟩
  obtain ⟨l, echoed, hr, hl, houtbound, hpump, hlogged⟩ :=
    underway_receive (b := { b with peripheral := peripheral }) hstart response.deliveries
  have hsome : (l.complete? response.failure?).isSome = true := by
    simp only [Link.complete?, hpump, hp]
    cases response.failure? <;> rfl
  obtain ⟨⟨l', effects⟩, hs⟩ := Option.isSome_iff_exists.mp hsome
  rw [List.append_assoc] at hl
  refine ⟨response, peripheral, l, l', echoed, effects, rfl, hl, houtbound, hpump,
    List.forall_mem_append.mpr ⟨hlog, hlogged⟩, hs, ?_⟩
  simp only [transmit?, hp, hrunning.settings, hrespond, hr, hs]

/-- A physical write ends. -/
theorem turned_writing (h : b.Underway c settings p data past) {piece : Bytes}
    (hp : b.link.pump = .writing piece) :
    Turned c settings p data past b (b.take .own).1 (b.take .own).2 ∧
      (b.take .own).1.link.plain.work < b.link.plain.work := by
  have hrunning := h.link.running
  obtain ⟨response, peripheral, l, l', echoed, effects, hrespond, hl, houtbound, hpump, hlogged, hs,
    ht⟩ := exists_transmit h hp
  have hplain := Link.step?_plain_of_eq hl.running.valid (.complete _) hs
  obtain ⟨hcuts, hwork, hengine, hreplies, current, hcurrent, hwrites⟩ :=
    Link.cuts_complete hl.cuts hplain
  have hpiece : piece = current := by
    have hlp : l.plain.pump = .writing piece := hpump.trans hp
    exact Pump.writing.inj (hlp.symm.trans hcurrent)
  have hsettings := hl.running.settings.trans hrunning.settings.symm
  have hlast := Link.running_step hl.running (.complete _) hs (by simp) (by simp)
  have hsame : l'.engine = l.engine := by
    obtain ⟨-, -, ⟨-, rfl, -⟩ | ⟨f, -, rfl, -⟩⟩ := Link.eq_of_complete? hs
    · rfl
    · rfl
  have htake : b.take .own = ({ b with peripheral := peripheral, link := l' },
      response.log.map Effect.logged ++ echoed ++ effects) := by
    simp only [take, advance?_eq hrunning, hp, ht, Option.getD_some]
  have hall : writes (past ++ (response.log.map Effect.logged ++ echoed ++ effects)) =
      writes past ++ [(piece, response.failure?)] := by
    rw [Effect.writes_append, Effect.writes_append, Effect.writes_of_isLogged hlogged, hwrites,
      hpiece]
    rfl
  rw [work_eq houtbound hsettings hpump] at hwork
  rw [htake]
  refine ⟨⟨⟨⟨hlast, ?_, ?_⟩, h.characteristics, ?_⟩, Nat.le_of_lt hwork, .inl ⟨?_, ?_, ?_⟩⟩, hwork⟩
  · rw [hsame]
    exact hl.unread
  · rwa [List.append_assoc] at hcuts
  · rw [hall, List.map_append, Peripheral.writeAll_append, h.answers]
    simp only [List.map_cons, List.map_nil, Peripheral.writeAll, hrespond]
  · simp only [Engine.transmitting, hsame, houtbound]
  · rw [hsame, houtbound]
  · rw [Effect.replies_append, Effect.replies_of_isLogged hlogged, hreplies]
    rfl

/-- An idle engine has nothing to do. -/
theorem take_own_of_idle (h : b.Underway c settings p data past)
    (hidle : b.link.engine.transmitting = false) : b.take .own = (b, []) := by
  have hrunning := h.link.running
  have hbusy : b.link.pump.isBusy = false := h.link.cuts.accounts.idle hidle
  cases hp : b.link.pump with
  | ready =>
    have hhandOff := Link.handOff?_of_idle hidle
    simp only [take, advance?_eq hrunning, hp, hhandOff, Option.map_none, Option.getD_none]
  | writing piece =>
    rw [hp] at hbusy
    cases hbusy
  | failed f =>
    rw [hp] at hbusy
    cases hbusy
  | stopped => exact absurd hp hrunning.pumping

/-- Every turn keeps a bridge on its way, and its own turns bring it nearer to the end. -/
theorem turned_take (h : b.Underway c settings p data past) (turn : Turn) :
    Turned c settings p data past b (b.take turn).1 (b.take turn).2 ∧
      (turn = .own → b.link.engine.transmitting = true →
        (b.take turn).1.link.engine.transmitting = true →
        (b.take turn).1.link.plain.work < b.link.plain.work) := by
  cases turn with
  | notified payload failure => exact ⟨turned_notified h payload failure, fun ht => by cases ht⟩
  | own =>
    cases hactive : b.link.engine.transmitting with
    | false =>
      rw [take_own_of_idle h hactive]
      refine ⟨⟨?_, Nat.le_refl _, .inl ⟨rfl, rfl, rfl⟩⟩, fun _ ht => by cases ht⟩
      rwa [List.append_nil]
    | true =>
      cases hp : b.link.pump with
      | ready =>
        obtain ⟨hturned, hwork⟩ := turned_ready h hp hactive
        exact ⟨hturned, fun _ _ => hwork⟩
      | writing piece =>
        obtain ⟨hturned, hwork⟩ := turned_writing h hp
        exact ⟨hturned, fun _ _ _ => hwork⟩
      | failed f =>
        obtain ⟨hturned, hwork⟩ := turned_failed h hp
        exact ⟨hturned, fun _ _ _ => hwork⟩
      | stopped => exact absurd hp h.link.running.pumping

end Bridge

end SerialBridge
