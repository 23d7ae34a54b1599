import SerialBridge.Cli.EchoTest
import SerialBridge.Proofs.Bridge.Carrying

/-!
# The two threads of an echo test

One thread writes the data and flushes, the other one reads until as much has come back, and between
their calls the bridge moves by itself. A schedule says whose turn it is. Whatever the schedule,
nothing but the data comes back, and it comes back once everybody has had enough turns.
-/

namespace SerialBridge

namespace Cli.EchoTest

open Effect (bytesRead writes reads readAnswers flushAnswers)
open Bytes (pieces)

/-- The thread that pushes the data. -/
inductive Writer where
  | start
  | written
  /-- The flush of this number is not answered yet. -/
  | flushing (request : Nat)
  | done (result : Except CallError Unit)

/-- The thread that reads the echo. -/
structure Reader where
  back : Bytes := []
  /-- The read that is not answered yet. -/
  waiting : Option Nat := none
  failure : Option CallError := none

/-- Both threads, with their bridge and all that has happened. -/
structure Threads where
  bridge : Bridge (Loopback Unit) Ring
  writer : Writer := .start
  reader : Reader := {}
  past : List Effect := []

inductive Turn where
  | writer
  | reader
  | bridge
  deriving DecidableEq, Repr

namespace Writer

/-- Go on if the flush is answered. -/
def hear (effects : List Effect) : Writer → Writer
  | .flushing request =>
    match (flushAnswers effects).lookup request with
    | some result => .done result
    | none => .flushing request
  | other => other

/-- What the bridge has accepted so far. -/
def accepted (data : Bytes) : Writer → Bytes
  | .start => []
  | _ => data

/-- How far it is from the end, with all that its next calls bring for the bridge to do. -/
def work (settings : Settings) (data : Bytes) : Writer → Nat
  | .start => 3 * (pieces settings.maxChunk data).length + 9
  | .written => 2
  | .flushing _ => 1
  | .done _ => 0

/-- The flushes that are not answered yet. -/
def awaited : Writer → List Nat
  | .flushing request => [request]
  | _ => []

end Writer

namespace Reader

def take (r : Reader) : Except CallError Bytes → Reader
  | .ok data => { r with back := r.back ++ data, waiting := none }
  | .error e => { r with waiting := none, failure := some e }

/-- Go on if the read is answered. -/
def hear (effects : List Effect) (r : Reader) : Reader :=
  match r.waiting with
  | none => r
  | some request =>
    match (readAnswers effects).lookup request with
    | some result => r.take result
    | none => r

/-- How far it is from the end: a call and an answer for each byte that has not come back. -/
def work (data : Bytes) (r : Reader) : Nat :=
  2 * (data.length - r.back.length) + if r.waiting = none then 1 else 0

end Reader

namespace Threads

/-- The bridge was moved, and both threads hear of it. -/
def follow (t : Threads) (bridge : Bridge (Loopback Unit) Ring) (effects : List Effect) :
    Threads where
  bridge := bridge
  writer := t.writer.hear effects
  reader := t.reader.hear effects
  past := t.past ++ effects

/-- Write everything, then flush. -/
def turnWriter (data : Bytes) (t : Threads) : Threads :=
  match t.writer with
  | .start =>
    let (bridge, result, effects) := t.bridge.write data
    let writer :=
      match result with
      | .ok _ => .written
      | .error e => .done (.error e)
    ({ t with writer := writer } : Threads).follow bridge effects
  | .written =>
    let (bridge, issued, effects) := t.bridge.flush
    let writer :=
      match issued with
      | .settled result => .done result
      | .request n => .flushing n
    ({ t with writer := writer } : Threads).follow bridge effects
  | _ => t

/-- Whether the reader is to make its next call. -/
def reads (data : Bytes) (t : Threads) : Bool :=
  t.reader.waiting.isNone && t.reader.failure.isNone && t.reader.back.length < data.length

/-- Read, as long as not everything has come back. -/
def turnReader (data : Bytes) (t : Threads) : Threads :=
  if t.reads data then
    let (bridge, issued, effects) := t.bridge.read readSize
    let reader :=
      match issued with
      | .settled result => t.reader.take result
      | .request n => { t.reader with waiting := some n }
    ({ t with reader := reader } : Threads).follow bridge effects
  else t

def turn (data : Bytes) (t : Threads) : Turn → Threads
  | .writer => t.turnWriter data
  | .reader => t.turnReader data
  | .bridge => t.follow (t.bridge.act .own).1 (t.bridge.act .own).2

/-- The turns of a schedule, one after another. -/
def run (data : Bytes) : Threads → List Turn → Threads
  | t, [] => t
  | t, turn :: rest => run data (t.turn data turn) rest

/-- What the test comes to, once a queue could not have its buffer, or once the writer is through
and the reader has its bytes. -/
def result? (data : Bytes) (t : Threads) : Option (Except String Bytes) :=
  match hasBuffers t.bridge, t.writer with
  | false, _ => some (.error (notPushed .closed))
  | true, .done (.error e) => some (.error (notPushed e))
  | true, .done (.ok ()) =>
    match t.reader.failure with
    | some e => some (.error ("💥 Read failed: " ++ e.message))
    | none => if data.length ≤ t.reader.back.length then some (.ok t.reader.back) else none
  | true, _ => none

end Threads

/-! ## What every schedule keeps -/

/-- Nothing has failed, and each thread waits for just what the bridge still owes it. -/
structure Sound (settings : Settings) (data : Bytes) (t : Threads) : Prop where
  carrying : t.bridge.Carrying settings (t.writer.accepted data) t.past
  fresh : t.writer = .start → t.bridge.link.engine.transmitting = false
  flushes : t.bridge.link.engine.outbound.waiting = t.writer.awaited
  well : ∀ result, t.writer = .done result → result = .ok () ∧ Effect.sent t.past = data
  back : t.reader.back = bytesRead t.past
  reads : t.bridge.link.engine.inbound.waiting.map ReadRequest.id = t.reader.waiting.toList
  wanting : t.reader.waiting ≠ none → t.reader.back.length < data.length
  unfailed : t.reader.failure = none

namespace Threads

/-- How far the threads and the bridge are from the end. -/
def work (settings : Settings) (data : Bytes) (t : Threads) : Nat :=
  t.writer.work settings data + t.reader.work data + t.bridge.link.plain.toGo

end Threads

variable {settings : Settings} {data : Bytes} {t : Threads} {past effects : List Effect}
  {b : Bridge (Loopback Unit) Ring}

/-- The writer hears that its flush is answered, or goes on waiting. -/
theorem heard_writer {w : Writer} {waiting : List Nat} (hsmooth : ∀ x ∈ effects, x.Smooth)
    (hflushes : effects.filterMap Effect.flush? ++ waiting = w.awaited) :
    waiting = (w.hear effects).awaited ∧
      (w.hear effects = w ∨ ∃ id, w = .flushing id ∧ w.hear effects = .done (.ok ()) ∧
        .replied id (.flush (.ok ())) ∈ effects) := by
  have hanswers := Effect.flushAnswers_of_smooth hsmooth
  cases w with
  | flushing request =>
    obtain ⟨hnone, hwaiting⟩ | ⟨hone, hwaiting⟩ := List.append_eq_singleton_iff.mp hflushes
    · have hhear : (Writer.flushing request).hear effects = .flushing request := by
        simp [Writer.hear, hanswers, hnone]
      rw [hhear]
      exact ⟨hwaiting, .inl rfl⟩
    · have hhear : (Writer.flushing request).hear effects = .done (.ok ()) := by
        simp [Writer.hear, hanswers, hone]
      have hmem : .replied request (.flush (.ok ())) ∈ effects := by
        obtain ⟨x, hx, hrequest⟩ : ∃ x ∈ effects, x.flush? = some request := by
          rw [← List.mem_filterMap, hone]
          exact List.mem_singleton.mpr rfl
        have hwell := hsmooth x hx
        cases x with
        | replied id reply =>
          cases reply with
          | read result => cases hrequest
          | flush result =>
            obtain rfl : result = .ok () := hwell
            obtain rfl : id = request := Option.some.inj hrequest
            exact hx
        | _ => cases hrequest
      rw [hhear]
      exact ⟨hwaiting, .inr ⟨request, rfl, rfl, hmem⟩⟩
  | _ => exact ⟨(List.append_eq_nil_iff.mp hflushes).2, .inl rfl⟩

/-- The reader hears that its read is answered, with bytes, or goes on waiting. -/
theorem heard_reader {r : Reader} {waiting : List Nat} (hsmooth : ∀ x ∈ effects, x.Smooth)
    (hreads : Effect.reads effects ++ waiting = r.waiting.toList)
    (hbrings : ∀ id bytes, .replied id (.read (.ok bytes)) ∈ effects → bytes ≠ []) :
    waiting = (r.hear effects).waiting.toList ∧
      (r.hear effects).back = r.back ++ bytesRead effects ∧
      (r.hear effects).failure = r.failure ∧
      (r.hear effects = r ∨ r.waiting ≠ none ∧ (r.hear effects).waiting = none ∧
        r.back.length < (r.hear effects).back.length) := by
  obtain ⟨given, hgiven, hanswers, hbytes, hmem⟩ := Effect.exists_given hsmooth
  rw [hgiven] at hreads
  cases hwaiting : r.waiting with
  | none =>
    rw [hwaiting] at hreads
    obtain ⟨hnone, hleft⟩ := List.append_eq_nil_iff.mp hreads
    obtain rfl := List.map_eq_nil_iff.mp hnone
    have hhear : r.hear effects = r := by
      simp [Reader.hear, hwaiting]
    rw [hhear, hbytes, hwaiting]
    exact ⟨hleft, (List.append_nil _).symm, rfl, .inl rfl⟩
  | some request =>
    rw [hwaiting] at hreads
    obtain ⟨hnone, hleft⟩ | ⟨hone, hleft⟩ := List.append_eq_singleton_iff.mp hreads
    · obtain rfl := List.map_eq_nil_iff.mp hnone
      have hhear : r.hear effects = r := by
        simp [Reader.hear, hwaiting, hanswers]
      rw [hhear, hbytes, hwaiting]
      exact ⟨hleft, (List.append_nil _).symm, rfl, .inl rfl⟩
    · obtain ⟨⟨id, bytes⟩, rfl, hid⟩ := List.map_eq_singleton_iff.mp hone
      obtain rfl : id = request := hid
      have hhear : r.hear effects = { r with back := r.back ++ bytes, waiting := none } := by
        simp [Reader.hear, hwaiting, hanswers, Reader.take]
      have hne := hbrings id bytes (hmem _ (List.mem_singleton.mpr rfl))
      have hpos := List.length_pos_iff.mpr hne
      rw [hhear, hbytes, List.flatMap_singleton]
      refine ⟨hleft, rfl, rfl, .inr ⟨by simp, rfl, ?_⟩⟩
      rw [List.length_append]
      omega

/-- The bridge has moved, and the threads have yet to hear of it. -/
structure Moved (settings : Settings) (data : Bytes) (t : Threads)
    (b : Bridge (Loopback Unit) Ring) (effects : List Effect) : Prop where
  carrying : b.Carrying settings (t.writer.accepted data) (t.past ++ effects)
  fresh : t.writer = .start → b.link.engine.transmitting = false
  flushes : effects.filterMap Effect.flush? ++ b.link.engine.outbound.waiting = t.writer.awaited
  flushed : ∀ id, .replied id (.flush (.ok ())) ∈ effects →
    Effect.sent (t.past ++ effects) = t.writer.accepted data
  well : ∀ result, t.writer = .done result → result = .ok () ∧ Effect.sent t.past = data
  back : t.reader.back = bytesRead t.past
  reads : Effect.reads effects ++ b.link.engine.inbound.waiting.map ReadRequest.id =
    t.reader.waiting.toList
  brings : ∀ id bytes, .replied id (.read (.ok bytes)) ∈ effects → bytes ≠ []
  wanting : t.reader.waiting ≠ none → t.reader.back.length < data.length
  unfailed : t.reader.failure = none

/-- The threads hear of a move. -/
theorem sound_follow (h : Moved settings data t b effects) :
    Sound settings data (t.follow b effects) ∧
      (t.follow b effects).work settings data ≤
        t.writer.work settings data + t.reader.work data + b.link.plain.toGo := by
  have hsmooth : ∀ x ∈ effects, x.Smooth := fun x hx =>
    h.carrying.echoing.link.smooth x (List.mem_append_right _ hx)
  obtain ⟨hflushes, hwriter⟩ := heard_writer hsmooth h.flushes
  obtain ⟨hreads, hback, hfailure, hreader⟩ := heard_reader hsmooth h.reads h.brings
  have hcarrying := h.carrying
  have haccepted : (t.writer.hear effects).accepted data = t.writer.accepted data := by
    obtain hsame | ⟨id, hflushing, hdone, -⟩ := hwriter
    · rw [hsame]
    · rw [hdone, hflushing]
      rfl
  rw [← haccepted] at hcarrying
  constructor
  · refine ⟨hcarrying, ?_, hflushes, ?_, ?_, hreads, ?_, hfailure.trans h.unfailed⟩
    · intro hstart
      obtain hsame | ⟨id, -, hdone, -⟩ := hwriter
      · exact h.fresh (hsame.symm.trans hstart)
      · cases hdone.symm.trans hstart
    · intro result hresult
      obtain hsame | ⟨id, hflushing, hdone, hmem⟩ := hwriter
      · have hdone : t.writer = .done result := hsame.symm.trans hresult
        have hdata := h.carrying
        rw [hdone] at hdata
        obtain ⟨hok, hsent⟩ := h.well result hdone
        exact ⟨hok, hdata.sent_kept hsent⟩
      · have hsent := h.flushed id hmem
        rw [hflushing] at hsent
        exact ⟨(Writer.done.inj (hdone.symm.trans hresult)).symm, hsent⟩
    · show (t.reader.hear effects).back = bytesRead (t.past ++ effects)
      rw [hback, h.back, bytesRead, bytesRead, bytesRead, List.flatMap_append]
    · intro hwaiting
      obtain hsame | ⟨-, hnone, -⟩ := hreader
      · have hwanting := h.wanting
        rw [← hsame] at hwanting
        exact hwanting hwaiting
      · exact absurd hnone hwaiting
  · have hless : (t.writer.hear effects).work settings data ≤ t.writer.work settings data := by
      obtain hsame | ⟨id, hflushing, hdone, -⟩ := hwriter
      · rw [hsame]
      · rw [hdone]
        exact Nat.zero_le _
    have hmore : (t.reader.hear effects).work data ≤ t.reader.work data := by
      obtain hsame | ⟨hasked, hnone, hgrown⟩ := hreader
      · rw [hsame]
      · have hwanting := h.wanting hasked
        rw [Reader.work, Reader.work, if_pos hnone, if_neg hasked]
        omega
    exact Nat.add_le_add_right (Nat.add_le_add hless hmore) _

/-! ## One turn -/

/-- A thread makes a call that brings no write, or none does and the bridge moves by itself. -/
theorem moved_act (h : Sound settings data t) {a : Bridge.Act} (hwritten : a.written = [])
    {w : Writer} {r : Reader} (haccepted : w.accepted data = t.writer.accepted data)
    (hfresh : w = .start → t.writer = .start)
    (hflushes : t.writer.awaited ++ (t.bridge.events a).filterMap Link.Event.flush? = w.awaited)
    (hwell : ∀ result, w = .done result → t.writer = .done result)
    (hback : r.back = t.reader.back)
    (hreads : t.reader.waiting.toList ++ (t.bridge.events a).filterMap Link.Event.read? =
      r.waiting.toList)
    (hwanting : r.waiting ≠ none → r.back.length < data.length) (hunfailed : r.failure = none) :
    Moved settings data { t with writer := w, reader := r } (t.bridge.act a).1
      (t.bridge.act a).2 := by
  have hcarried := Bridge.carried h.carrying hwritten
  refine ⟨?_, fun hstart => hcarried.drains.idle (h.fresh (hfresh hstart)), ?_, ?_, ?_, ?_, ?_,
    hcarried.serves.brings, hwanting, hunfailed⟩
  · rw [haccepted]
    exact hcarried.carrying
  · have hdrains := hcarried.drains.flushes
    rw [← hflushes, ← h.flushes]
    exact hdrains
  · rw [haccepted]
    exact hcarried.flushed
  · exact fun result hdone => h.well result (hwell result hdone)
  · exact hback.trans h.back
  · have hserves := hcarried.serves.reads
    rw [← hreads, ← h.reads]
    exact hserves

theorem turned_bridge (h : Sound settings data t) :
    Sound settings data (t.turn data .bridge) ∧
      (t.bridge.link.engine.transmitting = true →
        (t.turn data .bridge).work settings data < t.work settings data) := by
  obtain ⟨hread, hflush⟩ := Bridge.asked_own (b := t.bridge)
  have hmoved := moved_act h (a := .own) rfl rfl id (by rw [hflush, List.append_nil])
    (fun _ hdone => hdone) rfl (by rw [hread, List.append_nil]) h.wanting h.unfailed
  obtain ⟨hsound, hwork⟩ := sound_follow hmoved
  refine ⟨hsound, fun hactive => Nat.lt_of_le_of_lt hwork ?_⟩
  have hless := (Bridge.carried h.carrying (a := .own) rfl).drains.toGo
  have hpos := Bridge.internal_own h.carrying.echoing hactive
  exact Nat.add_lt_add_left (by omega) _

theorem turned_reader (h : Sound settings data t) (hready : t.reads data = true) :
    Sound settings data (t.turn data .reader) ∧
      (t.turn data .reader).work settings data < t.work settings data := by
  obtain ⟨⟨hwaiting, -⟩, hmissing⟩ : (t.reader.waiting = none ∧ t.reader.failure = none) ∧
      t.reader.back.length < data.length := by
    simpa [Threads.reads] using hready
  have hreadSize : 0 < readSize := by decide
  have hissued := Bridge.issued_read h.carrying.echoing hreadSize
  have hturn : t.turn data .reader =
      ({ t with reader := { t.reader with waiting := some t.bridge.nextRequest } } : Threads).follow
        (t.bridge.act (.read readSize)).1 (t.bridge.act (.read readSize)).2 := by
    simp only [Threads.turn, Threads.turnReader, hready, if_true, hissued]
  have hmoved := moved_act h (a := .read readSize)
    (r := { t.reader with waiting := some t.bridge.nextRequest }) rfl rfl id
    (List.append_nil _) (fun _ hdone => hdone) rfl (by rw [hwaiting]; rfl) (fun _ => hmissing)
    h.unfailed
  obtain ⟨hsound, hwork⟩ := sound_follow hmoved
  rw [hturn]
  refine ⟨hsound, Nat.lt_of_le_of_lt hwork ?_⟩
  have hless := (Bridge.carried h.carrying (a := .read readSize) rfl).drains.toGo
  have hcall : ({ t.reader with waiting := some t.bridge.nextRequest } : Reader).work data <
      t.reader.work data := by
    rw [Reader.work, Reader.work, if_pos hwaiting, if_neg (by simp)]
    exact Nat.lt_succ_self _
  exact Nat.add_lt_add_of_lt_of_le (Nat.add_lt_add_left hcall _)
    (Nat.le_trans (Nat.le_add_right _ _) hless)

/-- The writer hands over everything at once. -/
theorem turned_write (h : Sound settings data t) (hready : t.writer = .start) :
    Sound settings data (t.turn data .writer) ∧
      (t.turn data .writer).work settings data < t.work settings data := by
  have hcarrying := h.carrying
  have hissued := Bridge.issued_write hcarrying.echoing data
  have hturn : t.turn data .writer = ({ t with writer := .written } : Threads).follow
      (t.bridge.act (.write data)).1 (t.bridge.act (.write data)).2 := by
    simp only [Threads.turn, Threads.turnWriter, hready, hissued]
  have hidle := h.fresh hready
  rw [hready] at hcarrying
  obtain ⟨hnext, htoGo, hunread, hunflushed, hlogged⟩ :=
    Bridge.carrying_write hcarrying hidle data
  have hmoved : Moved settings data { t with writer := .written } (t.bridge.act (.write data)).1
      (t.bridge.act (.write data)).2 := by
    have hunanswered : ∀ id reply, .replied id reply ∉ (t.bridge.act (.write data)).2 := by
      intro id reply hid
      obtain ⟨entry, hentry⟩ := hlogged _ hid
      cases hentry
    refine ⟨hnext, Writer.noConfusion, ?_, fun id hid => absurd hid (hunanswered id _),
      fun _ => Writer.noConfusion, h.back, ?_, fun id _ hid => absurd hid (hunanswered id _),
      h.wanting, h.unfailed⟩
    · rw [Link.flushes_of_isLogged hlogged, List.nil_append, hunflushed, h.flushes, hready]
      rfl
    · rw [Link.reads_of_isLogged hlogged, List.nil_append, hunread, h.reads]
  obtain ⟨hsound, hwork⟩ := sound_follow hmoved
  rw [hturn]
  refine ⟨hsound, Nat.lt_of_le_of_lt hwork ?_⟩
  have hstart : t.writer.work settings data = 3 * (pieces settings.maxChunk data).length + 9 := by
    rw [hready]
    rfl
  have hwritten : Writer.written.work settings data = 2 := rfl
  rw [Threads.work, hstart]
  show Writer.written.work settings data + t.reader.work data + _ < _
  omega

theorem turned_flush (h : Sound settings data t) (hready : t.writer = .written) :
    Sound settings data (t.turn data .writer) ∧
      (t.turn data .writer).work settings data < t.work settings data := by
  have hissued := Bridge.issued_flush h.carrying.echoing
  have hturn : t.turn data .writer =
      ({ t with writer := .flushing t.bridge.nextRequest } : Threads).follow
        (t.bridge.act .flush).1 (t.bridge.act .flush).2 := by
    simp only [Threads.turn, Threads.turnWriter, hready, hissued]
  have hmoved := moved_act h (a := .flush) (w := .flushing t.bridge.nextRequest)
    rfl (by rw [hready]; rfl) Writer.noConfusion (by rw [hready]; rfl)
    (fun _ => Writer.noConfusion) rfl (List.append_nil _) h.wanting h.unfailed
  obtain ⟨hsound, hwork⟩ := sound_follow hmoved
  rw [hturn]
  refine ⟨hsound, Nat.lt_of_le_of_lt hwork ?_⟩
  have hless := (Bridge.carried h.carrying (a := .flush) rfl).drains.toGo
  have hcall : (Writer.flushing t.bridge.nextRequest).work settings data <
      t.writer.work settings data := by
    rw [hready]
    exact Nat.one_lt_two
  exact Nat.add_lt_add_of_lt_of_le (Nat.add_lt_add_right hcall _)
    (Nat.le_trans (Nat.le_add_right _ _) hless)

/-- Whether a turn gets anything done. -/
def Ready (data : Bytes) (t : Threads) : Turn → Prop
  | .writer => t.writer = .start ∨ t.writer = .written
  | .reader => t.reads data = true
  | .bridge => t.bridge.link.engine.transmitting = true

theorem follow_nothing (t : Threads) : t.follow t.bridge [] = t := by
  have hwriter : t.writer.hear [] = t.writer := by cases t.writer <;> rfl
  have hreader : t.reader.hear [] = t.reader := by
    rw [Reader.hear]
    split <;> rfl
  rw [Threads.follow, hwriter, hreader, List.append_nil]

/-- A turn brings the end nearer or changes nothing. -/
theorem turned (h : Sound settings data t) (turn : Turn) :
    Sound settings data (t.turn data turn) ∧
      (Ready data t turn → (t.turn data turn).work settings data < t.work settings data) ∧
      (¬ Ready data t turn → t.turn data turn = t) := by
  cases turn with
  | writer =>
    cases hw : t.writer with
    | start =>
      obtain ⟨hsound, hless⟩ := turned_write h hw
      exact ⟨hsound, fun _ => hless, fun hready => absurd (.inl hw) hready⟩
    | written =>
      obtain ⟨hsound, hless⟩ := turned_flush h hw
      exact ⟨hsound, fun _ => hless, fun hready => absurd (.inr hw) hready⟩
    | _ =>
      have hturn : t.turn data .writer = t := by
        simp only [Threads.turn, Threads.turnWriter, hw]
      rw [hturn]
      refine ⟨h, fun hready => ?_, fun _ => rfl⟩
      simp [Ready, hw] at hready
  | reader =>
    by_cases hready : t.reads data = true
    · obtain ⟨hsound, hless⟩ := turned_reader h hready
      exact ⟨hsound, fun _ => hless, fun hn => absurd hready hn⟩
    · have hturn : t.turn data .reader = t := if_neg hready
      rw [hturn]
      exact ⟨h, fun hr => absurd hr hready, fun _ => rfl⟩
  | bridge =>
    obtain ⟨hsound, hless⟩ := turned_bridge h
    refine ⟨hsound, hless, fun hready => ?_⟩
    have hidle : t.bridge.link.engine.transmitting = false := Bool.eq_false_iff.mpr hready
    have hact : t.bridge.act .own = (t.bridge, []) := by
      simp only [Bridge.act, Bridge.take, Bridge.advance?_of_idle h.carrying hidle,
        Option.getD_none]
    rw [Threads.turn, hact]
    exact follow_nothing t

/-! ## The end -/

/-- Everything was pushed and has come back. -/
def Finished (data : Bytes) (t : Threads) : Prop :=
  t.writer = .done (.ok ()) ∧ data.length ≤ t.reader.back.length

/-- As long as the test is not finished there is something to do: an idle bridge owes no flush an
answer, and a read that waits has left nothing behind. -/
theorem exists_ready (h : Sound settings data t) (hunfinished : ¬ Finished data t) :
    ∃ turn, Ready data t turn := by
  cases hw : t.writer with
  | start => exact ⟨.writer, .inl hw⟩
  | written => exact ⟨.writer, .inr hw⟩
  | flushing request =>
    refine ⟨.bridge, ?_⟩
    cases hactive : t.bridge.link.engine.transmitting with
    | true => exact hactive
    | false =>
      have hm := (Engine.not_transmitting_iff _).mp hactive
      have hnone : t.bridge.link.engine.outbound.waiting = [] :=
        (h.carrying.cuts.accounts.sends.outbound.idle hm).2.2
      have hflushes := h.flushes
      rw [hnone, hw] at hflushes
      cases hflushes
  | done result =>
    obtain ⟨rfl, hsent⟩ := h.well result hw
    have hmissing : t.reader.back.length < data.length :=
      Nat.lt_of_not_le fun hle => hunfinished ⟨hw, hle⟩
    cases hwaiting : t.reader.waiting with
    | none =>
      refine ⟨.reader, ?_⟩
      simp [Ready, Threads.reads, hwaiting, h.unfailed, hmissing]
    | some request =>
      have hreads := h.reads
      rw [hwaiting] at hreads
      have hask : t.bridge.link.plain.engine.inbound.waiting ≠ [] := fun hnil => by
        have hids := congrArg (List.map ReadRequest.id) hnil
        cases hreads.symm.trans hids
      have hqueue : t.bridge.link.engine.inbound.queue.toList = [] :=
        (Inbound.undelivered_eq_nil_iff.mp (h.carrying.prompt.delivered hask)).1
      have hreadable := h.carrying.echoing.link.readable
      rw [hqueue, List.append_nil, hsent, ← h.back] at hreadable
      rw [hreadable] at hmissing
      exact absurd hmissing (Nat.lt_irrefl _)

/-- Both queues have room for the data and one step of growth, so they fit if these do. -/
theorem hasBuffers_of_carrying (h : b.Carrying settings data past)
    (hroom : data.length + settings.queueGrowth ≤ bufferLimit) : hasBuffers b = true := by
  have hmemory := h.echoing.link.memory
  have hinbound := hmemory.inbound.size
  have houtbound := hmemory.outbound.size
  have hfront := h.fronts.2.length_le
  simp only [hasBuffers, Ring.fits, Bool.and_eq_true, decide_eq_true_eq]
  omega

theorem hasBuffers_of_sound (h : Sound settings data t)
    (hroom : data.length + settings.queueGrowth ≤ bufferLimit) : hasBuffers t.bridge = true := by
  have haccepted : (t.writer.accepted data).length ≤ data.length := by
    cases t.writer with
    | start => exact Nat.zero_le _
    | _ => exact Nat.le_refl _
  exact hasBuffers_of_carrying h.carrying (Nat.le_trans (Nat.add_le_add_right haccepted _) hroom)

/-- What a sound test comes to is the data. -/
theorem result?_eq (h : Sound settings data t)
    (hroom : data.length + settings.queueGrowth ≤ bufferLimit) :
    t.result? data = none ∧ ¬ Finished data t ∨
      t.result? data = some (.ok data) ∧ Finished data t := by
  have hbuffers := hasBuffers_of_sound h hroom
  cases hw : t.writer with
  | done result =>
    obtain ⟨rfl, hsent⟩ := h.well result hw
    obtain hmissing | hle := Nat.lt_or_ge t.reader.back.length data.length
    · refine .inl ⟨?_, fun hfinished => absurd hfinished.2 (Nat.not_le.mpr hmissing)⟩
      simp [Threads.result?, hbuffers, hw, h.unfailed, hmissing]
    · have hfront := h.carrying.fronts.1
      rw [hsent, ← h.back] at hfront
      have hback : t.reader.back = data := hfront.eq_of_length_le hle
      refine .inr ⟨?_, hw, hle⟩
      simp [Threads.result?, hbuffers, hw, h.unfailed, hback]
  | _ =>
    refine .inl ⟨?_, fun hfinished => ?_⟩
    · simp only [Threads.result?, hbuffers, hw]
    · cases hw.symm.trans hfinished.1

/-- A finished test stays finished. -/
theorem finished_turn (h : Sound settings data t) (hfinished : Finished data t) (turn : Turn) :
    Finished data (t.turn data turn) := by
  obtain ⟨hw, hle⟩ := hfinished
  have hwaiting : t.reader.waiting = none := by
    by_contra hasked
    exact absurd hle (Nat.not_le.mpr (h.wanting hasked))
  cases turn with
  | writer =>
    have hturn : t.turn data .writer = t := by
      simp only [Threads.turn, Threads.turnWriter, hw]
    rw [hturn]
    exact ⟨hw, hle⟩
  | reader =>
    have hturn : t.turn data .reader = t := by
      refine if_neg ?_
      simp [Threads.reads, hle]
    rw [hturn]
    exact ⟨hw, hle⟩
  | bridge =>
    constructor
    · simp only [Threads.turn, Threads.follow, hw, Writer.hear]
    · simp only [Threads.turn, Threads.follow, Reader.hear, hwaiting]
      exact hle

/-! ## Schedules -/

theorem run_append (t : Threads) (before after : List Turn) :
    t.run data (before ++ after) = (t.run data before).run data after := by
  induction before generalizing t with
  | nil => rfl
  | cons turn rest ih => exact ih (t.turn data turn)

theorem sound_run (h : Sound settings data t) (schedule : List Turn) :
    Sound settings data (t.run data schedule) ∧
      (t.run data schedule).work settings data ≤ t.work settings data := by
  induction schedule generalizing t with
  | nil => exact ⟨h, Nat.le_refl _⟩
  | cons turn rest ih =>
    obtain ⟨hsound, hless, hsame⟩ := turned h turn
    obtain ⟨hlast, hwork⟩ := ih hsound
    refine ⟨hlast, Nat.le_trans hwork ?_⟩
    by_cases hready : Ready data t turn
    · exact Nat.le_of_lt (hless hready)
    · rw [hsame hready]

theorem finished_run (h : Sound settings data t) (hfinished : Finished data t)
    (schedule : List Turn) : Finished data (t.run data schedule) := by
  induction schedule generalizing t with
  | nil => exact hfinished
  | cons turn rest ih => exact ih (turned h turn).1 (finished_turn h hfinished turn)

/-- Turns that change nothing leave the others what they had to do. -/
theorem work_run_lt (h : Sound settings data t) {turn : Turn} (hready : Ready data t turn)
    {schedule : List Turn} (hturn : turn ∈ schedule) :
    (t.run data schedule).work settings data < t.work settings data := by
  induction schedule generalizing t with
  | nil => cases hturn
  | cons first rest ih =>
    obtain ⟨hsound, hless, hsame⟩ := turned h first
    by_cases hfirst : Ready data t first
    · exact Nat.lt_of_le_of_lt (sound_run hsound rest).2 (hless hfirst)
    · have hrest : turn ∈ rest := by
        obtain rfl | hrest := List.mem_cons.mp hturn
        · exact absurd hready hfirst
        · exact hrest
      rw [Threads.run, hsame hfirst]
      exact ih h hready hrest

/-- Everybody having had enough turns, the test is finished. -/
theorem finished_of_fair (h : Sound settings data t) {rounds : List (List Turn)}
    (hfair : ∀ round ∈ rounds, ∀ turn, turn ∈ round)
    (henough : t.work settings data ≤ rounds.length) : Finished data (t.run data rounds.flatten) := by
  induction rounds generalizing t with
  | nil =>
    by_contra hunfinished
    obtain ⟨turn, hready⟩ := exists_ready h hunfinished
    have hless := (turned h turn).2.1 hready
    exact absurd (Nat.lt_of_lt_of_le hless henough) (Nat.not_lt_zero _)
  | cons round rest ih =>
    obtain ⟨hround, hrest⟩ := List.forall_mem_cons.mp hfair
    rw [List.flatten_cons, run_append]
    obtain ⟨hsound, -⟩ := sound_run h round
    by_cases hfinished : Finished data t
    · exact finished_run hsound (finished_run h hfinished round) _
    · obtain ⟨turn, hready⟩ := exists_ready h hfinished
      have hless := work_run_lt h hready (hround turn)
      rw [List.length_cons] at henough
      exact ih hsound hrest (by omega)

/-! ## The whole test -/

theorem sound_start (data : Bytes) {b : Bridge (Loopback Unit) Ring}
    (h : b.Carrying settings [] []) (hidle : b.link.engine.transmitting = false)
    (hunread : b.link.engine.inbound.waiting = [])
    (hunflushed : b.link.engine.outbound.waiting = []) :
    Sound settings data { bridge := b } where
  carrying := h
  fresh := fun _ => hidle
  flushes := hunflushed
  well := fun _ => Writer.noConfusion
  back := rfl
  reads := by
    rw [hunread]
    rfl
  wanting := fun hasked => absurd rfl hasked
  unfailed := rfl

/-- Until the test comes to anything it comes to nothing, and then to the data, which was written
piece by piece and echoed whole. -/
theorem echo_of_sound (h : Sound settings data t)
    (hroom : data.length + settings.queueGrowth ≤ bufferLimit) :
    t.result? data = none ∨
      t.result? data = some (.ok data) ∧
        writes t.past = (pieces settings.maxChunk data).map (fun piece => (piece, none)) ∧
        t.bridge.peripheral.echoed = data.length := by
  obtain ⟨hnone, -⟩ | ⟨hsome, hw, -⟩ := result?_eq h hroom
  · exact .inl hnone
  · have hsent := (h.well (.ok ()) hw).2
    have hcarrying := h.carrying
    rw [hw] at hcarrying
    refine .inr ⟨hsome, hcarrying.writes_eq hsent, ?_⟩
    rw [hcarrying.echoing.peripheral, hsent]

/-- How much there is to do at the start. -/
theorem work_start {b : Bridge (Loopback Unit) Ring}
    (hidle : b.link.engine.transmitting = false) :
    ({ bridge := b } : Threads).work settings data =
      3 * (pieces settings.maxChunk data).length + 2 * data.length + 10 := by
  have htoGo : b.link.plain.toGo = 0 := if_neg (Bool.eq_false_iff.mp hidle)
  rw [Threads.work, htoGo]
  simp only [Writer.work, Reader.work, List.length_nil, if_true]
  omega

end Cli.EchoTest

end SerialBridge
