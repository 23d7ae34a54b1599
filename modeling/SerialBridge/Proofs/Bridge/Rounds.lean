import SerialBridge.Peripheral.Scripted
import SerialBridge.Proofs.Bridge.Turns
import SerialBridge.Session

/-!
# Rounds of a write and a flush

A caller that writes and then flushes learns how that write went, and nothing about the writes
before it: the peripheral was asked for each piece once, in order, and the flush names the first
failure among its answers.
-/

namespace SerialBridge

theorem Effect.quiet_of_silent {effects : List Effect} (hw : writes effects = [])
    (hr : replies effects = []) : ∀ x ∈ effects, x.Quiet := by
  intro x hx
  have hwrite := List.filterMap_eq_nil_iff.mp hw x hx
  have hreply := List.filterMap_eq_nil_iff.mp hr x hx
  cases x with
  | replied id reply => cases hreply
  | wrote data failure => cases hwrite
  | logged entry => exact Effect.quiet_logged entry

/-- As long as nothing was answered, the failure to report is the first one. -/
theorem Effect.unreported?_of_no_reply {past : List Effect} (h : replies past = []) :
    unreported? past = (writes past).findSome? Prod.snd := by
  have hopen : ∀ x ∈ past, x.isFlushError = false := by
    intro x hx
    have hreply := List.filterMap_eq_nil_iff.mp h x hx
    cases x with
    | replied id reply => cases hreply
    | _ => rfl
  have hfind : past.findSome? writeFailure? = (writes past).findSome? Prod.snd := by
    clear h hopen
    induction past with
    | nil => rfl
    | cons x rest ih =>
      cases x with
      | wrote data failure =>
        have hw : writes (.wrote data failure :: rest) = (data, failure) :: writes rest := rfl
        rw [hw, List.findSome?_cons, List.findSome?_cons, ih]
        rfl
      | replied id reply => exact ih
      | logged entry => exact ih
  have happend : unreported? ([] ++ past) = (unreported? []).or (past.findSome? writeFailure?) :=
    unreported?_append hopen
  rw [List.nil_append, hfind] at happend
  exact happend

/-- Nothing is left to report behind the answer that reports it. -/
theorem Effect.unreported?_answered {past later : List Effect} (number : Nat)
    (hw : writes later = []) (hr : replies later = []) :
    unreported? (past ++ .replied number (.flush (verdict (unreported? past))) :: later) =
      none := by
  rw [List.append_cons, unreported?_quiet _ (quiet_of_silent hw hr)]
  exact unreported?_answer _ _

theorem Effect.writes_answered {later : List Effect} (past : List Effect) (number : Nat)
    (reply : Reply) (hw : writes later = []) :
    writes (past ++ .replied number reply :: later) = writes past := by
  rw [writes_append, List.append_right_eq_self]
  exact hw

namespace Bridge

open Effect (writes replies unreported? verdict)

variable {P : Type} [Peripheral P Unit] {c : Characteristics} {settings : Settings} {p : P}
  {data : Bytes} {past : List Effect} {b : Bridge P Ring}

/-! ## Schedules -/

/-- Nothing happens to an idle bridge but notifications: all pieces were written before. -/
theorem takeAll_idle (h : b.Underway c settings p data past)
    (hidle : b.link.engine.transmitting = false) (turns : List Turn) :
    (b.takeAll turns).1.Underway c settings p data (past ++ (b.takeAll turns).2) ∧
      (b.takeAll turns).1.link.engine.transmitting = false ∧
      writes (b.takeAll turns).2 = [] ∧ replies (b.takeAll turns).2 = [] := by
  induction turns generalizing b past with
  | nil => exact ⟨by rwa [takeAll, List.append_nil], hidle, rfl, rfl⟩
  | cons turn rest ih =>
    obtain ⟨hturned, -⟩ := turned_take h turn
    obtain ⟨htransmitting, -, hreplies⟩ | ⟨hactive, -⟩ := hturned.waits
    · have hnext := htransmitting.trans hidle
      have hwrites : writes (b.take turn).2 = [] := by
        have hbefore := h.link.cuts.all_written hidle
        have hafter := hturned.underway.link.cuts.all_written hnext
        have hsame : (b.take turn).1.link.plain.engine.settings = b.link.plain.engine.settings :=
          hturned.underway.link.running.settings.trans h.link.running.settings.symm
        rw [hsame, ← hbefore, Effect.writes_append, List.map_append,
          List.append_right_eq_self] at hafter
        exact List.map_eq_nil_iff.mp hafter
      obtain ⟨hlast, hend, hw, hr⟩ := ih hturned.underway hnext
      rw [List.append_assoc] at hlast
      refine ⟨hlast, hend, ?_, ?_⟩
      · rw [takeAll_cons, Effect.writes_append, hwrites, hw, List.append_nil]
      · rw [takeAll_cons, Effect.replies_append, hreplies, hr, List.append_nil]
    · cases hidle.symm.trans hactive

/-- Nothing is answered while no flush waits. -/
theorem takeAll_unasked (h : b.Underway c settings p data past)
    (hwaiting : b.link.engine.outbound.waiting = []) (turns : List Turn) :
    (b.takeAll turns).1.Underway c settings p data (past ++ (b.takeAll turns).2) ∧
      (b.takeAll turns).1.link.engine.outbound.waiting = [] ∧
      (b.takeAll turns).1.link.plain.work ≤ b.link.plain.work ∧
      replies (b.takeAll turns).2 = [] := by
  induction turns generalizing b past with
  | nil => exact ⟨by rwa [takeAll, List.append_nil], hwaiting, Nat.le_refl _, rfl⟩
  | cons turn rest ih =>
    obtain ⟨hturned, -⟩ := turned_take h turn
    have hnext : (b.take turn).1.link.engine.outbound.waiting = [] ∧
        replies (b.take turn).2 = [] := by
      obtain ⟨-, hw, hreplies⟩ | ⟨-, hend, heffects⟩ := hturned.waits
      · exact ⟨hw.trans hwaiting, hreplies⟩
      · have hm := (Engine.not_transmitting_iff _).mp hend
        refine ⟨(hturned.underway.link.cuts.accounts.sends.outbound.idle hm).2.2, ?_⟩
        rw [heffects, hwaiting]
        rfl
    obtain ⟨hlast, hw, hwork, hr⟩ := ih hturned.underway hnext.1
    rw [List.append_assoc] at hlast
    refine ⟨hlast, hw, Nat.le_trans hwork hturned.work, ?_⟩
    rw [takeAll_cons, Effect.replies_append, hnext.2, hr, List.append_nil]

/-- A flush that waits is answered at the end of the burst, which comes within as many turns of the
bridge as there is work left. -/
theorem takeAll_asked (h : b.Underway c settings p data past)
    (hactive : b.link.engine.transmitting = true) {number : Nat}
    (hwaiting : b.link.engine.outbound.waiting = [number]) {turns : List Turn}
    (hturns : b.link.plain.work ≤ turns.countP Turn.isOwn) :
    ∃ earlier later, (b.takeAll turns).2 = earlier ++
        .replied number (.flush (verdict (unreported? (past ++ earlier)))) :: later ∧
      replies earlier = [] ∧ writes later = [] ∧ replies later = [] ∧
      (b.takeAll turns).1.Underway c settings p data (past ++ (b.takeAll turns).2) ∧
      (b.takeAll turns).1.link.engine.transmitting = false := by
  induction turns generalizing b past with
  | nil =>
    have hpos : 0 < b.link.plain.work := by
      have ht : b.link.plain.engine.transmitting = true := hactive
      rw [Link.work, ht]
      exact Nat.succ_pos _
    exact absurd hturns (Nat.not_le.mpr hpos)
  | cons turn rest ih =>
    obtain ⟨hturned, hown⟩ := turned_take h turn
    obtain ⟨htransmitting, hw, hreplies⟩ | ⟨-, hend, heffects⟩ := hturned.waits
    · have hnext := htransmitting.trans hactive
      have hrest : (b.take turn).1.link.plain.work ≤ rest.countP Turn.isOwn := by
        have hwork := hturned.work
        rw [List.countP_cons] at hturns
        cases turn with
        | own =>
          have hless := hown rfl hactive hnext
          simp only [Turn.isOwn, if_true] at hturns
          omega
        | notified payload failure =>
          simp only [Turn.isOwn, Bool.false_eq_true, if_false] at hturns
          omega
      obtain ⟨earlier, later, he, hr, hlater, hlater', hlast, hidle⟩ :=
        ih hturned.underway hnext (hw.trans hwaiting) hrest
      rw [List.append_assoc] at he hlast
      refine ⟨(b.take turn).2 ++ earlier, later, ?_, ?_, hlater, hlater', hlast, hidle⟩
      · rw [takeAll_cons, he, List.append_assoc]
      · rw [Effect.replies_append, hreplies, hr, List.append_nil]
    · obtain ⟨hlast, hidle, hlater⟩ := takeAll_idle hturned.underway hend rest
      rw [List.append_assoc] at hlast
      refine ⟨[.logged .idle], ((b.take turn).1.takeAll rest).2, ?_, rfl, hlater.1, hlater.2,
        hlast, hidle⟩
      rw [takeAll_cons, heffects, hwaiting, Effect.unreported?_idle]
      rfl

/-! ## Rounds -/

/-- A write and then a flush, with what else happens meanwhile. -/
structure Round where
  data : Bytes
  /-- The turns between the two calls. -/
  between : List Turn
  /-- The turns from the flush on, until the next round. -/
  after : List Turn
  deriving DecidableEq, Repr

/-- The bridge gets all the turns that the flush may have to wait for. -/
def Round.Fair (maxChunk : Nat) (r : Round) : Prop :=
  3 * (Bytes.pieces maxChunk r.data).length + 1 ≤ r.after.countP Turn.isOwn

/-- What a round comes to. -/
structure Outcome (P Q : Type) where
  accepted : Except CallError Nat
  issued : Issued Unit
  effects : List Effect
  bridge : Bridge P Q

def round {P Q : Type} [Peripheral P Unit] [ByteQueue Q] (b : Bridge P Q) (r : Round) :
    Outcome P Q :=
  let (b, accepted, first) := b.write r.data
  let (b, second) := b.takeAll r.between
  let (b, issued, third) := b.flush
  let (b, fourth) := b.takeAll r.after
  ⟨accepted, issued, first ++ second ++ (third ++ fourth), b⟩

/-- The bridge after some rounds. -/
def rounds {P Q : Type} [Peripheral P Unit] [ByteQueue Q] (b : Bridge P Q) (rs : List Round) :
    Bridge P Q := rs.foldl (fun b r => (b.round r).bridge) b

/-- A bridge between two rounds. -/
structure Rested (c : Characteristics) (settings : Settings) (b : Bridge P Ring) : Prop where
  underway : b.Underway c settings b.peripheral [] []
  idle : b.link.engine.transmitting = false

/-- An idle bridge with nothing to report can start afresh. -/
theorem Underway.rested (h : b.Underway c settings p data past)
    (hidle : b.link.engine.transmitting = false) (hf : unreported? past = none) :
    b.Rested c settings :=
  ⟨⟨⟨h.link.running, h.link.unread, h.link.cuts.restart hidle hf⟩, h.characteristics, rfl⟩, hidle⟩

theorem rested_new (peripheral : P) (c : Characteristics) (choices : List Setting) :
    Rested c (Settings.build choices) (new peripheral c (Settings.build choices)) := by
  have hplain := Link.plain_new (Settings.build choices)
  refine ⟨⟨⟨⟨rfl, rfl, rfl, rfl, nofun, Engine.valid_new _⟩, rfl, ?_⟩, rfl, rfl⟩, rfl⟩
  rw [new, hplain]
  exact Link.cuts_new choices

theorem exists_write (h : b.Rested c settings) (data : Bytes) :
    ∃ b' effects, b.write data = (b', .ok data.length, effects) ∧
      b'.Underway c settings b.peripheral data effects ∧
      b'.link.engine.outbound.waiting = [] ∧ replies effects = [] ∧
      b'.link.plain.work ≤ 3 * (Bytes.pieces settings.maxChunk data).length + 1 := by
  have hrunning := h.underway.link.running
  have hcuts := h.underway.link.cuts
  have hm := (Engine.not_transmitting_iff _).mp h.idle
  have hwaiting : b.link.engine.outbound.waiting = [] :=
    (hcuts.accounts.sends.outbound.idle hm).2.2
  by_cases hd : data = []
  · subst hd
    refine ⟨b, [], ?_, h.underway, hwaiting, rfl, ?_⟩
    · simp only [write, isClosed, hrunning.opened, Bool.false_eq_true, if_false, if_true]
      rfl
    · rw [hcuts.work_eq_zero h.idle]
      exact Nat.zero_le _
  · obtain ⟨l, effects, hs, hl, hlogged, hw, hwork⟩ :=
      Link.underway_write h.underway.link h.idle data
    refine ⟨{ b with link := l }, effects, ?_, ⟨hl, h.underway.characteristics, ?_⟩,
      hw.trans hwaiting, Effect.replies_of_isLogged hlogged, hwork⟩
    · simp only [write, isClosed, hrunning.opened, Bool.false_eq_true, if_false, if_neg hd, hs]
    · rw [Effect.writes_of_isLogged hlogged]
      rfl

/-- A flush is answered, after all the pieces and by the first failure among them. -/
theorem exists_flush (h : b.Underway c settings p data past)
    (hwaiting : b.link.engine.outbound.waiting = []) {turns : List Turn}
    (hturns : b.link.plain.work ≤ turns.countP Turn.isOwn) :
    ∃ b' first earlier later, b.flush = (b', .request b.nextRequest, first) ∧
      first ++ (b'.takeAll turns).2 = earlier ++ .replied b.nextRequest
        (.flush (verdict (unreported? (past ++ earlier)))) :: later ∧
      replies earlier = [] ∧ writes later = [] ∧ replies later = [] ∧
      (b'.takeAll turns).1.Underway c settings p data (past ++ (first ++ (b'.takeAll turns).2)) ∧
      (b'.takeAll turns).1.link.engine.transmitting = false := by
  obtain ⟨l, first, hs, hl, hwork, hreply⟩ := Link.underway_flush h.link b.nextRequest
  have hflush : b.flush =
      ({ b with link := l, nextRequest := b.nextRequest + 1 }, .request b.nextRequest, first) := by
    simp only [flush, isClosed, h.link.running.opened, Bool.false_eq_true, if_false, hs]
  have hwrites : writes first = [] := by
    obtain ⟨-, rfl, -⟩ | ⟨-, rfl⟩ := hreply
    · rfl
    · rfl
  have hb' : ({ b with link := l, nextRequest := b.nextRequest + 1 } : Bridge P Ring).Underway
      c settings p data (past ++ first) := by
    refine ⟨hl, h.characteristics, ?_⟩
    rw [Effect.writes_append, hwrites, List.append_nil]
    exact h.answers
  obtain ⟨hactive, rfl, hw⟩ | ⟨hidle, rfl⟩ := hreply
  · rw [hwaiting, List.nil_append] at hw
    have hleft : l.plain.work ≤ turns.countP Turn.isOwn := hwork ▸ hturns
    obtain ⟨earlier, later, he, hr, hlater, hlater', hlast, hend⟩ :=
      takeAll_asked hb' hactive hw hleft
    rw [List.append_assoc] at hlast
    rw [List.append_nil] at he
    exact ⟨_, [], earlier, later, hflush, he, hr, hlater, hlater', hlast, hend⟩
  · obtain ⟨hlast, hend, hw, hr⟩ := takeAll_idle hb' hidle turns
    rw [List.append_assoc] at hlast
    refine ⟨_, _, [], _, hflush, ?_, rfl, hw, hr, hlast, hend⟩
    rw [List.append_nil]
    rfl

theorem round_of_rested (h : b.Rested c settings) {r : Round} (hfair : r.Fair settings.maxChunk) :
    (b.round r).accepted = .ok r.data.length ∧ (b.round r).bridge.Rested c settings ∧
      Peripheral.writeAll c.rx settings.writeWithResponse b.peripheral
        (Bytes.pieces settings.maxChunk r.data) =
          (writes (b.round r).effects, (b.round r).bridge.peripheral) ∧
      ∃ number earlier later, (b.round r).issued = .request number ∧
        (b.round r).effects = earlier ++ .replied number
          (.flush (verdict ((writes (b.round r).effects).findSome? Prod.snd))) :: later ∧
        replies earlier = [] ∧ writes later = [] ∧ replies later = [] := by
  obtain ⟨b₁, first, hwrite, hb, hwaiting, hfirst, hwork⟩ := exists_write h r.data
  obtain ⟨hsecond, hwaiting', hwork', hreplies⟩ := takeAll_unasked hb hwaiting r.between
  generalize hbetween : b₁.takeAll r.between = turned at hsecond hwaiting' hwork' hreplies
  obtain ⟨b₂, second⟩ := turned
  obtain ⟨b₃, third, earlier, later, hflush, he, hearlier, hlater, hlater', hlast, hidle⟩ :=
    exists_flush hsecond hwaiting' (Nat.le_trans hwork' (Nat.le_trans hwork hfair))
  generalize hafter : b₃.takeAll r.after = turned at he hlast hidle
  obtain ⟨b₄, fourth⟩ := turned
  dsimp only at hwork' hreplies hflush he hlast hidle
  have hround : b.round r =
      ⟨.ok r.data.length, .request b₂.nextRequest, first ++ second ++ (third ++ fourth), b₄⟩ := by
    simp only [round, hwrite, hbetween, hflush, hafter]
  have hsilent : replies (first ++ second ++ earlier) = [] := by
    rw [Effect.replies_append, Effect.replies_append, hfirst, hreplies, hearlier]
    rfl
  have hsettings : b₄.link.plain.engine.settings = settings := hlast.link.running.settings
  have hwritten := hlast.link.cuts.all_written hidle
  rw [hsettings] at hwritten
  have hanswers := hlast.answers
  rw [hwritten] at hanswers
  rw [he, ← List.append_assoc] at hlast hanswers
  have hrested := hlast.rested hidle (Effect.unreported?_answered _ hlater hlater')
  rw [hround, he, ← List.append_assoc]
  refine ⟨rfl, hrested, hanswers, b₂.nextRequest, first ++ second ++ earlier, later, rfl, ?_,
    hsilent, hlater, hlater'⟩
  rw [Effect.writes_answered _ _ _ hlater, ← Effect.unreported?_of_no_reply hsilent]

/-- After any rounds the peripheral is as the pieces of their data leave it. -/
theorem rounds_of_rested (h : b.Rested c settings) {rs : List Round}
    (hfair : ∀ r ∈ rs, r.Fair settings.maxChunk) :
    (b.rounds rs).Rested c settings ∧
      (b.rounds rs).peripheral = (Peripheral.writeAll c.rx settings.writeWithResponse b.peripheral
        (rs.flatMap fun r => Bytes.pieces settings.maxChunk r.data)).2 := by
  induction rs generalizing b with
  | nil => exact ⟨h, rfl⟩
  | cons r rest ih =>
    obtain ⟨hfirst, hlater⟩ := List.forall_mem_cons.mp hfair
    obtain ⟨-, hnext, hanswers, -⟩ := round_of_rested h hfirst
    obtain ⟨hlast, hperipheral⟩ := ih hnext hlater
    refine ⟨hlast, ?_⟩
    rw [List.flatMap_cons, Peripheral.writeAll_append, hanswers]
    exact hperipheral

end Bridge

namespace Peripheral

/-- Which data writes fail is decided by a rule, from their index and their bytes. -/
def Obeys {P : Type} [Peripheral P Unit] (rule : Nat → Bytes → Option Failure) (rx : Attribute)
    (withResponse : Bool) (p : P) : Prop :=
  ∀ pieces, (writeAll rx withResponse p pieces).1 =
    pieces.mapIdx fun i data => (data, rule i data)

theorem Obeys.later {P : Type} [Peripheral P Unit] {rule : Nat → Bytes → Option Failure}
    {rx : Attribute} {withResponse : Bool} {p : P} (h : Obeys rule rx withResponse p)
    (a b : List Bytes) :
    (writeAll rx withResponse (writeAll rx withResponse p a).2 b).1 =
      b.mapIdx fun i data => (data, rule (a.length + i) data) := by
  have hall := h (a ++ b)
  rw [writeAll_append, h a, List.mapIdx_append] at hall
  have hb := List.append_cancel_left hall
  simpa only [Nat.add_comm] using hb

/-- Behind its handshake a scripted peripheral obeys its script. -/
theorem obeys_scripted (p : Scripted) (h : p.handshaken = true) (rx : Attribute)
    (withResponse : Bool) :
    Obeys (fun i data => p.script.writeFailure? (p.written + i) data) rx withResponse p := by
  intro pieces
  induction pieces generalizing p with
  | nil => rfl
  | cons data rest ih =>
    have hrest := ih { p with written := p.written + 1 } h
    have hrespond : respond p (.write rx data withResponse) =
        (Scripted.answer (p.script.writeFailure? p.written data) [],
          { p with written := p.written + 1 }) := by
      show Scripted.respond p _ = _
      rw [Scripted.respond, if_pos h]
    have hfailure : (Scripted.answer (p.script.writeFailure? p.written data) []).failure? =
        p.script.writeFailure? p.written data := by
      cases p.script.writeFailure? p.written data <;> rfl
    have hindex :
        (fun i (data : Bytes) => (data, p.script.writeFailure? (p.written + (i + 1)) data)) =
          fun i data => (data, p.script.writeFailure? (p.written + 1 + i) data) := by
      funext i data
      rw [Nat.add_assoc, Nat.add_comm 1 i]
    simp only [writeAll, hrespond, hrest, hfailure, List.mapIdx_cons, Nat.add_zero]
    rw [hindex]

end Peripheral

namespace Bridge

open Effect (writes replies verdict)

/-- A write and a flush, on any peripheral that can be opened, after any rounds of the same and
under any schedule. The write is accepted whole. The peripheral is asked for the consecutive pieces
of the data, each once and in order, whatever it answers. Behind all of them the flush is answered,
and it tells the first failure among the answers of its round. -/
theorem write_then_flush {P : Type} [Peripheral P Unit] {peripheral : P} {choices : List Setting}
    {s : Session P Ring} {o : Opening P}
    (hopen : Session.start peripheral (Settings.build choices) = (.ok s, o))
    {earlier : List Round} {r : Round}
    (hfair : ∀ r' ∈ earlier ++ [r], r'.Fair (Settings.build choices).maxChunk) :
    let settings := Settings.build choices
    let c := s.bridge.characteristics
    let b := s.bridge.rounds earlier
    let cut := Bytes.pieces settings.maxChunk r.data
    let outcome := b.round r
    (Opening.run peripheral).1 = .ok c ∧
    outcome.accepted = .ok r.data.length ∧
    Peripheral.writeAll c.rx settings.writeWithResponse b.peripheral cut =
      (writes outcome.effects, outcome.bridge.peripheral) ∧
    (∀ rule, Peripheral.Obeys rule c.rx settings.writeWithResponse o.peripheral →
      let first := (earlier.flatMap fun r => Bytes.pieces settings.maxChunk r.data).length
      writes outcome.effects = cut.mapIdx fun i data => (data, rule (first + i) data)) ∧
    ∃ number before after, outcome.issued = .request number ∧
      outcome.effects = before ++ .replied number
        (.flush (verdict ((writes outcome.effects).findSome? Prod.snd))) :: after ∧
      replies before = [] ∧ writes after = [] ∧ replies after = [] := by
  obtain ⟨c, hrun, rfl⟩ : ∃ c, Opening.run peripheral = (.ok c, o) ∧
      s = { bridge := new o.peripheral c (Settings.build choices) } := by
    rw [Session.start] at hopen
    split at hopen
    · next c o' hrun =>
      obtain ⟨hs, rfl⟩ := Prod.mk.inj hopen
      exact ⟨c, hrun, (Except.ok.inj hs).symm⟩
    · cases (Prod.mk.inj hopen).1
  intro settings _ b cut outcome
  have hstart : (new o.peripheral c settings).Rested c settings := rested_new o.peripheral c choices
  obtain ⟨hrested, hperipheral⟩ := rounds_of_rested hstart fun r' hr =>
    hfair r' (List.mem_append_left _ hr)
  obtain ⟨haccepted, -, hanswers, hreply⟩ :=
    round_of_rested hrested (hfair r (List.mem_append_right _ List.mem_cons_self))
  refine ⟨by rw [hrun]; rfl, haccepted, hanswers, ?_, hreply⟩
  intro rule hrule first
  have hlater := hrule.later (earlier.flatMap fun r => Bytes.pieces settings.maxChunk r.data) cut
  have hb : b.peripheral = (Peripheral.writeAll c.rx settings.writeWithResponse o.peripheral
      (earlier.flatMap fun r => Bytes.pieces settings.maxChunk r.data)).2 := hperipheral
  calc writes outcome.effects
      = (Peripheral.writeAll c.rx settings.writeWithResponse b.peripheral cut).1 :=
        (congrArg Prod.fst hanswers).symm
    _ = cut.mapIdx fun i data => (data, rule (first + i) data) := by
        rw [hb]
        exact hlater

/-- A peripheral whose second data write fails. -/
def failsOnce : Scripted :=
  { script := { writeFailure? := fun i _ => if i = 1 then some (.oversized i) else none } }

theorem start_failsOnce : ∃ (s : Session Scripted Ring) (o : Opening Scripted),
    Session.start failsOnce (Settings.build [.maxChunk 2]) = (.ok s, o) ∧
      o.peripheral.handshaken = true ∧ o.peripheral.written = 0 ∧
      o.peripheral.script = failsOnce.script := by
  have hok : (Opening.run failsOnce).1.isOk = true ∧
      (Opening.run failsOnce).2.peripheral.handshaken = true ∧
      (Opening.run failsOnce).2.peripheral.written = 0 := by
    decide +kernel
  have hscript : (Opening.run failsOnce).2.peripheral.script = failsOnce.script := rfl
  rcases hrun : Opening.run failsOnce with ⟨result, o⟩
  rw [hrun] at hok hscript
  obtain ⟨hresult, hhandshaken, hwritten⟩ := hok
  cases result with
  | error e => cases hresult
  | ok c =>
    refine ⟨{ bridge := new o.peripheral c (Settings.build [.maxChunk 2]) }, o, ?_, hhandshaken,
      hwritten, hscript⟩
    simp only [Session.start, hrun]

/-- The failure of the round before does not show in the next one. -/
theorem write_then_flush_after_failure :
    ∃ (s : Session Scripted Ring) (o : Opening Scripted) (outcome : Outcome Scripted Ring),
      Session.start failsOnce (Settings.build [.maxChunk 2]) = (.ok s, o) ∧
      (s.bridge.rounds [⟨[1, 2, 3], [.own], List.replicate 7 .own⟩]).round
        ⟨[4], [.notified [9] none], List.replicate 4 .own⟩ = outcome ∧
      outcome.accepted = .ok 1 ∧ writes outcome.effects = [([4], none)] ∧
      ∃ number before after, outcome.issued = .request number ∧
        outcome.effects = before ++ .replied number (.flush (.ok ())) :: after := by
  obtain ⟨s, o, hopen, hhandshaken, hwritten, hscript⟩ := start_failsOnce
  have hthird : o.peripheral.script.writeFailure? (o.peripheral.written + 2) [4] = none := by
    rw [hscript, hwritten]
    rfl
  have hthree : Bytes.pieces 2 [1, 2, 3] = [[1, 2], [3]] := by simp [Bytes.pieces]
  have hone : Bytes.pieces 2 [4] = [[4]] := by simp [Bytes.pieces]
  have hmax : (Settings.build [.maxChunk 2]).maxChunk = 2 := rfl
  have hfair : ∀ r ∈ [⟨[1, 2, 3], [.own], List.replicate 7 .own⟩] ++
      [(⟨[4], [.notified [9] none], List.replicate 4 .own⟩ : Round)],
      r.Fair (Settings.build [.maxChunk 2]).maxChunk := by
    simp only [List.cons_append, List.nil_append, List.forall_mem_cons, Round.Fair, hmax, hthree,
      hone]
    exact ⟨by decide, by decide, fun _ hr => absurd hr List.not_mem_nil⟩
  obtain ⟨-, haccepted, -, hrule, number, before, after, hissued, heffects, -⟩ :=
    write_then_flush hopen hfair
  have hwrites := hrule _ (Peripheral.obeys_scripted o.peripheral hhandshaken _ _)
  simp only [hmax, hone, hthree, List.flatMap_cons, List.flatMap_nil, List.append_nil,
    List.length_cons, List.length_nil, List.mapIdx_cons, List.mapIdx_nil, Nat.zero_add,
    Nat.add_zero, Nat.reduceAdd, hthird] at hwrites
  rw [hwrites] at heffects
  exact ⟨s, o, _, hopen, rfl, haccepted, hwrites, number, before, after, hissued, heffects⟩

end Bridge

end SerialBridge
