import SerialBridge.Cli.Program
import SerialBridge.Proofs.Cli.EchoThreads

/-!
# The echo test tells the truth

A test with usable arguments gets back just what it wrote and says so: the chunks that it counts are
the writes that were made.
-/

namespace SerialBridge

namespace Cli.EchoTest

open Effect (bytesRead writes)
open Bytes (pieces)

/-- A session between two steps, with nothing left to do and nothing that has failed. -/
structure Rested (settings : Settings) (data : Bytes) (past : List Effect) (s : TestSession) :
    Prop where
  carrying : s.bridge.Carrying settings data past
  idle : s.bridge.link.engine.transmitting = false
  gate : s.gate = none
  kept : s.dropped = false

variable {settings : Settings} {data : Bytes} {past effects : List Effect} {s : TestSession}

/-! ## What happens by itself -/

theorem mayTransmit_of_gate (h : s.gate = none) : s.mayTransmit = true := by
  rw [Session.mayTransmit, h]
  rfl

/-- A bridge left alone comes to rest within as many moves as it has to make. -/
theorem settleWithin_rested (h : s.bridge.Carrying settings data past) (hgate : s.gate = none)
    (hkept : s.dropped = false) (hunread : s.bridge.link.engine.inbound.waiting = [])
    (done : Array Effect) {fuel : Nat} (hfuel : s.bridge.link.plain.toGo ≤ fuel) :
    ∃ s' all effects, Session.settleWithin fuel s done = (s', all) ∧
      all.toList = done.toList ++ effects ∧ Effect.reads effects = [] ∧
      Rested settings data (past ++ effects) s' := by
  induction fuel generalizing s past done with
  | zero =>
    have hidle : s.bridge.link.engine.transmitting = false := by
      cases hactive : s.bridge.link.engine.transmitting with
      | false => rfl
      | true =>
        have hpos := Link.toGo_pos (l := s.bridge.link.plain) hactive
        omega
    refine ⟨s, done, [], rfl, (List.append_nil _).symm, rfl, ?_⟩
    rw [List.append_nil]
    exact ⟨h, hidle, hgate, hkept⟩
  | succ fuel ih =>
    rw [Session.settleWithin, mayTransmit_of_gate hgate]
    cases hactive : s.bridge.link.engine.transmitting with
    | false =>
      rw [Bridge.advance?_of_idle h hactive]
      refine ⟨s, done, [], rfl, (List.append_nil _).symm, rfl, ?_⟩
      rw [List.append_nil]
      exact ⟨h, hactive, hgate, hkept⟩
    | true =>
      rw [Bridge.advance?_of_active h hactive]
      have hcarried := Bridge.carried h (a := .own) rfl
      have hless : (s.bridge.act .own).1.link.plain.toGo ≤ fuel := by
        have htoGo := hcarried.drains.toGo
        have hpos := Bridge.internal_own h.echoing hactive
        omega
      have hnone : Effect.reads (s.bridge.act .own).2 = [] ∧
          (s.bridge.act .own).1.link.engine.inbound.waiting.map ReadRequest.id = [] := by
        have hreads := hcarried.serves.reads
        have hwaiting : s.bridge.link.plain.engine.inbound.waiting = [] := hunread
        rw [hwaiting, (Bridge.asked_own).1] at hreads
        exact List.append_eq_nil_iff.mp hreads
      have hcarrying := hcarried.carrying
      generalize s.bridge.act .own = step at hcarrying hless hnone ⊢
      obtain ⟨b, first⟩ := step
      obtain ⟨s', all, later, hs, hall, hlater, hrested⟩ := ih
        (s := ({ s with bridge := b } : TestSession).record first) hcarrying
        (by simp only [Session.record, hgate, Option.map_none]) hkept
        (List.map_eq_nil_iff.mp hnone.2) (done ++ first.toArray) hless
      refine ⟨s', all, first ++ later, hs, ?_, ?_, ?_⟩
      · rw [hall]
        simp
      · rw [Effect.reads_append, hnone.1, hlater]
        rfl
      · rw [← List.append_assoc]
        exact hrested

/-- The fuel of a session is enough. -/
theorem toGo_le_fuel (h : s.bridge.Carrying settings data past) :
    s.bridge.link.plain.toGo ≤
      3 * ByteQueue.queued s.bridge.link.engine.outbound.queue + 12 := by
  have hpos := h.cuts.accounts.sends.settings.1
  have htoGo := Link.toGo_le (l := s.bridge.link.plain) hpos
  have hqueued : s.bridge.link.plain.engine.outbound.queue.length =
      ByteQueue.queued s.bridge.link.engine.outbound.queue :=
    Ring.length_toList h.echoing.link.running.valid.outbound
  rw [hqueued] at htoGo
  generalize ByteQueue.queued s.bridge.link.engine.outbound.queue = queued at htoGo ⊢
  generalize s.bridge.link.plain.engine.settings.maxChunk = maxChunk at htoGo hpos
  have hdiv : (queued + maxChunk - 1) / maxChunk < queued + 1 := by
    have hmul := Nat.le_mul_of_pos_right queued hpos
    rw [Nat.div_lt_iff_lt_mul hpos, Nat.succ_mul]
    omega
  omega

/-- A rested session has nothing to settle. -/
theorem settle_of_rested (h : Rested settings data past s) : s.settle = (s, #[]) := by
  rw [Session.settle, Session.settleWithin, mayTransmit_of_gate h.gate,
    Bridge.advance?_of_idle h.carrying h.idle]

/-- A session that its caller has not let go of stays open behind a call. -/
theorem follow_of_settle {b : Bridge (Loopback Unit) Ring} {first : List Effect} {s' : TestSession}
    {later : Array Effect}
    (hsettle : (({ s with bridge := b } : TestSession).record first).settle = (s', later))
    (hkept : s'.dropped = false) : s.follow b first = (s', first ++ later.toList) := by
  have hunused : s'.isUnused = false := by
    rw [Session.isUnused, hkept, Bool.false_and]
  simp only [Session.follow, hsettle, hunused, Bool.false_eq_true, if_false]

/-- A call that leaves the bridge idle has no more effects than its own. -/
theorem follow_rested {b : Bridge (Loopback Unit) Ring} (h : b.Carrying settings data past)
    (hidle : b.link.engine.transmitting = false) (hgate : s.gate = none)
    (hkept : s.dropped = false) (effects : List Effect) :
    s.follow b effects = (({ s with bridge := b } : TestSession).record effects, effects) ∧
      Rested settings data past (({ s with bridge := b } : TestSession).record effects) := by
  have hrested : Rested settings data past
      (({ s with bridge := b } : TestSession).record effects) :=
    ⟨h, hidle, by simp only [Session.record, hgate, Option.map_none], hkept⟩
  refine ⟨?_, hrested⟩
  rw [follow_of_settle (settle_of_rested hrested) hkept]
  exact congrArg (Prod.mk _) (List.append_nil effects)

/-! ## The steps of the test -/

theorem step_write (h : Rested settings [] past s)
    (hunread : s.bridge.link.engine.inbound.waiting = []) (data : Bytes) :
    ∃ s' effects, s.step (.write data) = (s', ⟨.count (.ok data.length), [], effects⟩) ∧
      Rested settings data (past ++ effects) s' ∧ bytesRead effects = [] := by
  obtain ⟨hcarrying, -, hwaiting, -, hlogged⟩ := Bridge.carrying_write h.carrying h.idle data
  have hissued := Bridge.issued_write h.carrying.echoing data
  generalize s.bridge.act (.write data) = step at hcarrying hissued hwaiting hlogged
  obtain ⟨b, first⟩ := step
  obtain ⟨s', all, later, hs, hall, hlater, hrested⟩ := settleWithin_rested
    (s := ({ s with bridge := b } : TestSession).record first) hcarrying
    (by simp only [Session.record, h.gate, Option.map_none]) h.kept (hwaiting.trans hunread) #[]
    (toGo_le_fuel hcarrying)
  have hfollow : s.follow b first = (s', first ++ later) := by
    rw [follow_of_settle hs hrested.kept, hall]
    rfl
  rw [List.append_assoc] at hrested
  refine ⟨s', first ++ later, ?_, hrested, ?_⟩
  · simp only [Session.step, hissued, hfollow]
  · obtain ⟨given, hreads, -, hbytes, -⟩ := Effect.exists_given fun x hx =>
      hrested.carrying.echoing.link.smooth x (List.mem_append_right _ hx)
    rw [Effect.reads_append, Link.reads_of_isLogged hlogged, hlater] at hreads
    rw [hbytes, List.map_eq_nil_iff.mp hreads.symm]
    rfl

theorem step_flush (h : Rested settings data past s) :
    ∃ s' effects, s.step .flush = (s', ⟨.unit (.ok ()), [], effects⟩) ∧
      Rested settings data (past ++ effects) s' ∧ bytesRead effects = [] := by
  have hcarried := Bridge.carried h.carrying (a := .flush) rfl
  have hissued := Bridge.issued_flush h.carrying.echoing
  have heffects := Bridge.flush_of_idle h.carrying h.idle
  obtain ⟨hfollow, hrested⟩ := follow_rested (s := s) hcarried.carrying
    (hcarried.drains.idle h.idle) h.gate h.kept (s.bridge.act .flush).2
  rw [heffects] at hissued hfollow hrested
  refine ⟨_, _, ?_, hrested, rfl⟩
  simp only [Session.step, Session.startFlush, hissued, hfollow]
  simp [Session.flushResult, Session.reply?, Session.record, Effect.replies, Effect.reply?]

/-- As long as something is missing, a read brings some of it. -/
theorem step_read (h : Rested settings data past s) (hsent : Effect.sent past = data)
    (hmissing : (bytesRead past).length < data.length) :
    ∃ s' bytes effects, s.step (.read readSize) = (s', ⟨.bytes (.ok bytes), [], effects⟩) ∧
      Rested settings data (past ++ effects) s' ∧ bytes ≠ [] ∧ bytesRead effects = bytes := by
  have hcarried := Bridge.carried h.carrying (a := .read readSize) rfl
  have hreadSize : 0 < readSize := by decide
  have hissued := Bridge.issued_read h.carrying.echoing hreadSize
  obtain ⟨bytes, hne, heffects⟩ | ⟨-, hall⟩ := Bridge.read_cases h.carrying hreadSize
  · obtain ⟨hfollow, hrested⟩ := follow_rested (s := s) hcarried.carrying
      (hcarried.drains.idle h.idle) h.gate h.kept (s.bridge.act (.read readSize)).2
    rw [heffects] at hissued hfollow hrested
    refine ⟨_, bytes, _, ?_, hrested, hne, List.append_nil _⟩
    simp only [Session.step, Session.startRead, hissued, hfollow]
    simp [Session.readResult, Session.reply?, Session.record, Effect.replies, Effect.reply?]
  · rw [hall, hsent] at hmissing
    exact absurd hmissing (Nat.lt_irrefl _)

/-- Without bytes on their way a bridge writes nothing, however it goes on. -/
theorem advance?_still {b b' : Bridge (Loopback Unit) Ring} {mayTransmit : Bool}
    (hidle : b.link.engine.transmitting = false) (hbusy : b.link.pump.isBusy = false)
    (ha : b.advance? mayTransmit = some (b', effects)) :
    b'.link.engine.transmitting = false ∧ b'.link.pump.isBusy = false ∧
      b'.peripheral = b.peripheral ∧ writes effects = [] := by
  have hreport : b.link.report? = none := by
    cases hpump : b.link.pump with
    | failed f =>
      rw [hpump] at hbusy
      cases hbusy
    | _ => simp only [Link.report?, hpump]
  have hhandOff := Link.handOff?_of_idle hidle
  have htransmit : b.transmit? = none := by
    cases hpump : b.link.pump with
    | writing piece =>
      rw [hpump] at hbusy
      cases hbusy
    | _ => simp only [Bridge.transmit?, hpump]
  rw [Bridge.advance?] at ha
  cases hshutdown : b.link.shutdown? with
  | some step =>
    obtain ⟨rfl, rfl⟩ : b.withLink step = (b', effects) := by simpa [hshutdown] using ha
    obtain ⟨l, shown⟩ := step
    have hshown := Link.effects_of_shutdown? hshutdown
    obtain ⟨-, -, rfl, -⟩ := Link.eq_of_shutdown? hshutdown
    exact ⟨hidle, hbusy, rfl, List.filterMap_eq_nil_iff.mpr fun x hx => (hshown x hx).1⟩
  | none =>
    cases hhalt : b.link.halt? with
    | some step =>
      obtain ⟨rfl, rfl⟩ : b.withLink step = (b', effects) := by
        simpa [hshutdown, hreport, hhandOff, hhalt] using ha
      obtain ⟨l, shown⟩ := step
      obtain ⟨-, -, rfl, rfl⟩ := Link.eq_of_halt? hhalt
      exact ⟨hidle, rfl, rfl, rfl⟩
    | none =>
      simp [hshutdown, hreport, hhandOff, hhalt, htransmit] at ha

theorem settleWithin_still (hidle : s.bridge.link.engine.transmitting = false)
    (hbusy : s.bridge.link.pump.isBusy = false) (done : Array Effect) (fuel : Nat) :
    (Session.settleWithin fuel s done).1.bridge.peripheral = s.bridge.peripheral ∧
      (Session.settleWithin fuel s done).1.dropped = s.dropped ∧
      writes (Session.settleWithin fuel s done).2.toList = writes done.toList := by
  induction fuel generalizing s done with
  | zero => exact ⟨rfl, rfl, rfl⟩
  | succ fuel ih =>
    rw [Session.settleWithin]
    cases ha : s.bridge.advance? s.mayTransmit with
    | none => exact ⟨rfl, rfl, rfl⟩
    | some step =>
      obtain ⟨b, first⟩ := step
      obtain ⟨hidle', hbusy', hperipheral, hwrites⟩ := advance?_still hidle hbusy ha
      obtain ⟨hp, hd, hw⟩ := ih (s := ({ s with bridge := b } : TestSession).record first) hidle'
        hbusy' (done ++ first.toArray)
      refine ⟨hp.trans hperipheral, hd, hw.trans ?_⟩
      simp [hwrites]

/-- Closing a session at rest writes nothing. -/
theorem step_close (h : Rested settings data past s) :
    writes (s.step .close).2.effects = [] ∧
      (s.step .close).1.bridge.peripheral = s.bridge.peripheral := by
  have hbusy : s.bridge.link.pump.isBusy = false := h.carrying.cuts.accounts.idle h.idle
  have hopen : s.bridge.isClosed = false := h.carrying.echoing.link.running.opened
  let closed : Bridge (Loopback Unit) Ring :=
    { s.bridge with link := { s.bridge.link with closed := true } }
  have hclose : s.bridge.close = (closed, [.closing]) := by
    simp only [Bridge.close, hopen, Bool.false_eq_true, if_false, closed]
  obtain ⟨hp, hd, hw⟩ := settleWithin_still
    (s := ({ s with bridge := closed } : TestSession).record []) h.idle hbusy #[]
    (3 * ByteQueue.queued closed.link.engine.outbound.queue + 12)
  have hfollow : s.follow closed [] = _ := follow_of_settle rfl (hd.trans h.kept)
  simp only [Session.step, hclose, hfollow]
  exact ⟨hw, hp⟩

/-! ## The whole test -/

/-- Nothing more is read where nothing is missing. -/
theorem collect_nothing (h : Rested settings data past s) (hsent : Effect.sent past = data)
    (hlength : (bytesRead past).length = data.length) (fuel : Nat) :
    ∃ s' back effects, collect fuel s 0 = (.ok back, s', effects) ∧
      Rested settings data (past ++ effects) s' ∧ bytesRead past ++ back = data := by
  have hfront := h.carrying.fronts.1
  rw [hsent] at hfront
  refine ⟨s, [], [], ?_, ?_, ?_⟩
  · cases fuel <;> rfl
  · rw [List.append_nil]
    exact h
  · rw [List.append_nil]
    exact hfront.eq_of_length hlength

/-- Reading goes on until everything is back. -/
theorem collect_rested (h : Rested settings data past s) (hsent : Effect.sent past = data)
    (fuel missing : Nat) (hmissing : (bytesRead past).length + missing = data.length)
    (hfuel : missing ≤ fuel) :
    ∃ s' back effects, collect fuel s missing = (.ok back, s', effects) ∧
      Rested settings data (past ++ effects) s' ∧ bytesRead past ++ back = data := by
  induction fuel generalizing s past missing with
  | zero =>
    obtain rfl : missing = 0 := Nat.le_zero.mp hfuel
    exact collect_nothing h hsent hmissing 0
  | succ fuel ih =>
    by_cases hzero : missing = 0
    · rw [hzero] at hmissing ⊢
      exact collect_nothing h hsent hmissing _
    · obtain ⟨s', bytes, first, hstep, hrested, hne, hbytes⟩ := step_read h hsent (by omega)
      have hall : bytesRead (past ++ first) = bytesRead past ++ bytes := by
        rw [← hbytes, bytesRead, bytesRead, bytesRead, List.flatMap_append]
      have hkept := hrested.carrying.sent_kept hsent
      have hfront := hrested.carrying.fronts.1.length_le
      rw [hkept, hall, List.length_append] at hfront
      have hpos := List.length_pos_iff.mpr hne
      obtain ⟨last, back, later, hcollect, hend, hback⟩ := ih hrested hkept
        (missing - bytes.length) (by rw [hall, List.length_append]; omega) (by omega)
      refine ⟨last, bytes ++ back, first ++ later, ?_, ?_, ?_⟩
      · simp only [collect, if_neg hzero, hstep, hcollect]
        rfl
      · rw [← List.append_assoc]
        exact hend
      · rw [← List.append_assoc, ← hall]
        exact hback

/-- Written and flushed, the data has been sent, and nothing was read. -/
theorem flushed_rested (h : Rested settings [] [] s)
    (hunread : s.bridge.link.engine.inbound.waiting = []) (data : Bytes) :
    ∃ s₁ s₂ first second, s.step (.write data) = (s₁, ⟨.count (.ok data.length), [], first⟩) ∧
      s₁.step .flush = (s₂, ⟨.unit (.ok ()), [], second⟩) ∧
      Rested settings data (first ++ second) s₂ ∧ Effect.sent (first ++ second) = data ∧
      bytesRead (first ++ second) = [] := by
  obtain ⟨s₁, first, hwrite, hwritten, hnone⟩ := step_write h hunread data
  obtain ⟨s₂, second, hflush, hflushed, hnone'⟩ := step_flush hwritten
  rw [List.nil_append] at hflushed
  refine ⟨s₁, s₂, first, second, hwrite, hflush, hflushed,
    hflushed.carrying.cuts.accounts.sent_of_idle hflushed.idle, ?_⟩
  rw [bytesRead] at hnone hnone'
  rw [bytesRead, List.flatMap_append, hnone, hnone']
  rfl

/-- A test on a session that was just opened brings everything back. -/
theorem push_rested (h : Rested settings [] [] s)
    (hunread : s.bridge.link.engine.inbound.waiting = []) {data : Bytes}
    (hroom : data.length + settings.queueGrowth ≤ bufferLimit) :
    (push s data).result = .ok data ∧
      (push s data).writes = (pieces settings.maxChunk data).length ∧
      (push s data).echoed = data.length := by
  obtain ⟨s₁, s₂, first, second, hwrite, hflush, hflushed, hsent, hread⟩ :=
    flushed_rested h hunread data
  have hbuffers := hasBuffers_of_carrying hflushed.carrying hroom
  obtain ⟨s₃, back, third, hcollect, hrested, hback⟩ := collect_rested hflushed hsent
    data.length data.length (by rw [hread]; exact Nat.zero_add _) (Nat.le_refl _)
  obtain ⟨hclosed, hsame⟩ := step_close hrested
  obtain rfl : back = data := by
    rw [hread] at hback
    exact hback
  have hall := hrested.carrying.sent_kept hsent
  have hwrites := hrested.carrying.writes_eq hall
  have hechoed := hrested.carrying.echoing.peripheral
  rw [hall] at hechoed
  simp only [push, hwrite, hflush, hbuffers, hcollect]
  refine ⟨rfl, ?_, ?_⟩
  · rw [Effect.writes_append, hclosed, List.append_nil, hwrites, List.length_map]
  · rw [hsame, hechoed]

/-- With nothing read the inbound queue has come to hold all of the data, in a buffer that is a
multiple of a step and larger than the data. -/
theorem push_beyond (h : Rested settings [] [] s)
    (hunread : s.bridge.link.engine.inbound.waiting = []) {data : Bytes}
    (hgrowth : settings.queueGrowth = defaultQueueGrowth)
    (hbeyond : bufferLimit < data.length + defaultQueueGrowth) :
    (push s data).result = .error (notPushed .closed) := by
  obtain ⟨s₁, s₂, first, second, hwrite, hflush, hflushed, hsent, hread⟩ :=
    flushed_rested h hunread data
  have hmemory := hflushed.carrying.echoing.link.memory
  have hvalid := hmemory.inbound.valid
  have hqueued : s₂.bridge.link.engine.inbound.queue.queued = data.length := by
    have hreadable := hflushed.carrying.echoing.link.readable
    rw [hread, hsent, List.nil_append] at hreadable
    rw [← Ring.length_toList hvalid, hreadable]
  have hlost : hasBuffers s₂.bridge = false := by
    have hsteps := hmemory.steps (by rw [hgrowth]; decide)
    have hfits := Ring.queued_lt hvalid
    rw [hgrowth] at hsteps
    rw [hqueued] at hfits
    rw [hasBuffers, Bool.and_eq_false_iff]
    left
    rw [Ring.fits, decide_eq_false_iff_not]
    simp only [bufferLimit, defaultQueueGrowth] at hbeyond hsteps ⊢
    omega
  simp only [push, hwrite, hflush, hlost]

/-- What a test is given to send: the contents of a file, or a pattern of some size. -/
inductive Given (files : Files) (size : Nat) : Option String → Bytes → Prop where
  | pattern : Given files size none (pattern size)
  | file {path : String} {data : Bytes} (h : files path = .ok data) :
    Given files size (some path) data

/-- A test begins on a session that was just opened. -/
theorem perform_start (choices : List Setting) :
    ∃ s : TestSession, Rested (Settings.build choices) [] [] s ∧
      s.bridge.link.engine.inbound.waiting = [] ∧
      ∀ data, (perform (Settings.build choices) data).result = (push s data).result ∧
        (perform (Settings.build choices) data).writes = (push s data).writes ∧
        (perform (Settings.build choices) data).echoed = (push s data).echoed := by
  obtain ⟨b, o, hstart, hcarrying, hidle, hunread, -⟩ := Bridge.carrying_start choices
  refine ⟨{ bridge := b }, ⟨hcarrying, hidle, rfl, rfl⟩, hunread, fun data => ?_⟩
  simp only [perform, hstart, and_self]

theorem perform_eq {choices : List Setting} {data : Bytes}
    (hroom : data.length + (Settings.build choices).queueGrowth ≤ bufferLimit) :
    let settings := Settings.build choices
    (perform settings data).result = .ok data ∧
      (perform settings data).writes = (pieces settings.maxChunk data).length ∧
      (perform settings data).echoed = data.length := by
  intro settings
  obtain ⟨s, hrested, hunread, hperform⟩ := perform_start choices
  obtain ⟨hresult, hwrites, hechoed⟩ := hperform data
  rw [hresult, hwrites, hechoed]
  exact push_rested hrested hunread hroom

/-- The settings of a test keep a chunk size within the limits. -/
theorem maxChunk_build {chunk : Nat} (hpos : 1 ≤ chunk) (hlimit : chunk ≤ chunkLimit)
    (withResponse : Bool) :
    (Settings.build [.maxChunk chunk, .writeWithResponse withResponse]).maxChunk = chunk := by
  show min (max chunk 1) chunkLimit = chunk
  omega

theorem length_pattern (size : Nat) : (pattern size).length = size := by
  rw [pattern, List.length_map, List.length_range]

/-- With usable arguments the test is made. -/
theorem run_eq {files : Files} (verbosity : Nat) {chunk size : Nat} {chunkText sizeText : String}
    (withResponse : Bool) {file : Option String} {data : Bytes}
    (hchunk : number? chunkText = some chunk) (hpos : 1 ≤ chunk) (hlimit : chunk ≤ chunkLimit)
    (hsize : number? sizeText = some size) (hdata : Given files size file data)
    (hroom : data.length ≤ bufferLimit) :
    run files verbosity chunkText sizeText withResponse file =
      report verbosity (Settings.build [.maxChunk chunk, .writeWithResponse withResponse]) data := by
  have hrange : ¬ (chunk = 0 ∨ chunkLimit < chunk) := by omega
  simp only [run, hchunk, if_neg hrange, hsize]
  cases hdata with
  | pattern =>
    have hsmall : ¬ bufferLimit < size := by
      rw [length_pattern] at hroom
      exact Nat.not_lt.mpr hroom
    simp only [if_neg hsmall]
  | file h => simp only [h]

/-- The report ends with the praise. -/
theorem report_eq (verbosity : Nat) {choices : List Setting} {data : Bytes}
    (hroom : data.length + (Settings.build choices).queueGrowth ≤ bufferLimit) :
    ∃ before, report verbosity (Settings.build choices) data =
      ({ lines := [tag ++ "👍 " ++ toString data.length ++ " bytes echoed in " ++
          toString (chunkCount data.length (Settings.build choices).maxChunk) ++
          " chunks of up to " ++ toString (Settings.build choices).maxChunk ++ " bytes"] } :
        Report).after before := by
  have hresult := (perform_eq hroom).1
  simp only [report, hresult, verdict, if_true]
  exact ⟨_, rfl⟩

/-- Data for which the queues run out of buffers is not reported as echoed. -/
theorem report_beyond (verbosity chunk : Nat) (withResponse : Bool) {data : Bytes}
    (hbeyond : bufferLimit < data.length + defaultQueueGrowth) :
    let lost := report verbosity
      (Settings.build [.maxChunk chunk, .writeWithResponse withResponse]) data
    lost.code = 1 ∧ lost.lines.getLast? = some (tag ++ notPushed .closed) := by
  obtain ⟨s, hrested, hunread, hperform⟩ :=
    perform_start [.maxChunk chunk, .writeWithResponse withResponse]
  have hresult := (hperform data).1.trans (push_beyond hrested hunread rfl hbeyond)
  simp only [report, hresult]
  exact ⟨trivial, List.getLast?_concat⟩

/-- The echo test tells the truth, for every usable chunk size, with or without responses, and
whatever the data, as long as there are buffers for all of it and one step of growth. It gets back
exactly what it wrote, ends with code 0, and names as many chunks as there were physical writes,
while the peripheral has counted every byte. So it does in every schedule of the two threads and the
bridge: whatever they have come to, it is the data, written piece by piece; and once each of them has
had its turn often enough they have come to it. -/
theorem report_truthful {files : Files} {args : List String} {verbosity chunk size : Nat}
    {chunkText sizeText : String} {withResponse : Bool} {file : Option String} {data : Bytes}
    (hargs : Invocation.ofList args =
      .run verbosity (.loopback chunkText sizeText withResponse file))
    (hchunk : number? chunkText = some chunk) (hpos : 1 ≤ chunk) (hlimit : chunk ≤ chunkLimit)
    (hsize : number? sizeText = some size) (hdata : Given files size file data)
    (hroom : data.length + defaultQueueGrowth ≤ bufferLimit) :
    let settings := Settings.build [.maxChunk chunk, .writeWithResponse withResponse]
    let count := (data.length + chunk - 1) / chunk
    let outcome := perform settings data
    let report := Cli.run files args
    (outcome.result = .ok data ∧ outcome.writes = count ∧ outcome.echoed = data.length) ∧
    (report.code = 0 ∧ report.complaint = none ∧
      report.lines.getLast? = some (tag ++ "👍 " ++ toString data.length ++ " bytes echoed in " ++
        toString count ++ " chunks of up to " ++ toString chunk ++ " bytes")) ∧
    ∃ (b : Bridge (Loopback Unit) Ring) (o : Opening (Loopback Unit)),
      Session.start {} settings = (.ok { bridge := b }, o) ∧
      (∀ schedule : List Turn,
        let t := ({ bridge := b } : Threads).run data schedule
        t.result? data = none ∨
          t.result? data = some (.ok data) ∧
            writes t.past = (pieces chunk data).map (fun piece => (piece, none)) ∧
            (writes t.past).length = count ∧ t.bridge.peripheral.echoed = data.length) ∧
      ∀ rounds : List (List Turn), (∀ round ∈ rounds, ∀ turn, turn ∈ round) →
        3 * count + 2 * data.length + 10 ≤ rounds.length →
        (({ bridge := b } : Threads).run data rounds.flatten).result? data = some (.ok data) := by
  intro settings count outcome report
  have hmax : settings.maxChunk = chunk := maxChunk_build hpos hlimit withResponse
  have hcount : (pieces chunk data).length = count := Bytes.length_pieces (by omega) data
  have hfits : data.length + settings.queueGrowth ≤ bufferLimit := hroom
  obtain ⟨hresult, hwrites, hechoed⟩ := perform_eq hfits
  refine ⟨⟨hresult, ?_, hechoed⟩, ?_, ?_⟩
  · rw [← hcount, ← hmax]
    exact hwrites
  · obtain ⟨before, hreport⟩ := report_eq verbosity hfits
    have hrun := run_eq verbosity withResponse hchunk hpos hlimit hsize hdata
      (Nat.le_trans (Nat.le_add_right _ _) hroom)
    simp only [report, Cli.run, hargs, Cli.perform, hrun, hreport]
    refine ⟨rfl, rfl, ?_⟩
    simp only [Report.after]
    rw [← List.append_assoc, ← List.append_assoc, List.getLast?_concat]
    have hname : (Settings.build [.maxChunk chunk, .writeWithResponse withResponse]).maxChunk =
        chunk := hmax
    rw [hname]
    rfl
  · obtain ⟨b, o, hstart, hcarrying, hidle, hunread, hunflushed⟩ :=
      Bridge.carrying_start [.maxChunk chunk, .writeWithResponse withResponse]
    have hsound := sound_start data hcarrying hidle hunread hunflushed
    refine ⟨b, o, hstart, fun schedule => ?_, fun rounds hfair henough => ?_⟩
    · obtain hnone | ⟨hsome, hpieces, hall⟩ := echo_of_sound (sound_run hsound schedule).1 hfits
      · exact .inl hnone
      · have hchunks := hpieces.trans (congrArg (fun n => (pieces n data).map _) hmax)
        refine .inr ⟨hsome, hchunks, ?_, hall⟩
        rw [hchunks, List.length_map, hcount]
    · have hwork : ({ bridge := b } : Threads).work settings data ≤ rounds.length := by
        rw [work_start hidle, hmax, hcount]
        exact henough
      have hfinished := finished_of_fair hsound hfair hwork
      obtain ⟨-, hunfinished⟩ | ⟨hsome, -⟩ := result?_eq (sound_run hsound rounds.flatten).1 hfits
      · exact absurd hfinished hunfinished
      · exact hsome

/-- Seven bytes of a file go in three chunks, without responses. -/
theorem report_truthful_of_file :
    let data : Bytes := [1, 2, 3, 4, 5, 6, 7]
    let report := Cli.run (fun _ => .ok data) ["loopback", "--no-response", "--chunk=3", "x"]
    report.code = 0 ∧
      report.lines.getLast? = some "[BR] 👍 7 bytes echoed in 3 chunks of up to 3 bytes" ∧
      ∃ (b : Bridge (Loopback Unit) Ring) (o : Opening (Loopback Unit)),
        Session.start {} (Settings.build [.maxChunk 3, .writeWithResponse false]) =
          (.ok { bridge := b }, o) ∧
        ∀ rounds : List (List Turn), (∀ round ∈ rounds, ∀ turn, turn ∈ round) →
          33 ≤ rounds.length →
          (({ bridge := b } : Threads).run data rounds.flatten).result? data = some (.ok data) := by
  intro data report
  have hargs : Invocation.ofList ["loopback", "--no-response", "--chunk=3", "x"] =
      .run 0 (.loopback "3" "4096" false (some "x")) := by
    decide +kernel
  have hchunk : number? "3" = some 3 := by decide +kernel
  have hsize : number? "4096" = some 4096 := by decide +kernel
  have hdata : Given (fun _ => .ok data) 4096 (some "x") data := .file rfl
  obtain ⟨-, ⟨hcode, -, hlast⟩, b, o, hstart, -, hfair⟩ :=
    report_truthful hargs hchunk (by decide) (by decide) hsize hdata (by decide)
  have hlength : data.length = 7 := rfl
  rw [hlength] at hlast hfair
  exact ⟨hcode, hlast.trans (by decide +kernel), b, o, hstart, hfair⟩

/-- A size may be too great for any buffer, and then nothing is sent and nothing reported. And where
nobody reads before everything has come back, no data is reported as echoed that leaves no room for
one more step of growth. -/
theorem pattern_beyond_buffers :
    number? "9223372036854775808" = some 9223372036854775808 ∧
      bufferLimit < 9223372036854775808 ∧
      (Cli.run (fun _ => .error .notFound) ["loopback", "--size=9223372036854775808"]).code = 101 ∧
      (Cli.run (fun _ => .error .notFound) ["loopback", "--size=9223372036854775808"]).lines =
        [banner] ∧
      ∀ (verbosity chunk : Nat) (withResponse : Bool) (data : Bytes),
        bufferLimit < data.length + defaultQueueGrowth →
          let lost := report verbosity
            (Settings.build [.maxChunk chunk, .writeWithResponse withResponse]) data
          lost.code = 1 ∧ lost.lines.getLast? = some (tag ++ notPushed .closed) := by
  have hargs : Invocation.ofList ["loopback", "--size=9223372036854775808"] =
      .run 0 (.loopback "20" "9223372036854775808" true none) := by
    decide +kernel
  have hchunk : number? "20" = some 20 := by decide +kernel
  have hsize : number? "9223372036854775808" = some 9223372036854775808 := by decide +kernel
  have hlimit : bufferLimit < 9223372036854775808 := by decide
  have hrange : ¬ (20 = 0 ∨ chunkLimit < 20) := by decide
  have hrun : Cli.run (fun _ => .error .notFound) ["loopback", "--size=9223372036854775808"] =
      { lines := [banner], code := 101,
        complaint := some ("no buffer has " ++ toString 9223372036854775808 ++ " bytes") } := by
    simp only [Cli.run, hargs, Cli.perform, run, hchunk, if_neg hrange, hsize, if_pos hlimit]
    rfl
  rw [hrun]
  refine ⟨hsize, hlimit, rfl, rfl, ?_⟩
  intro verbosity chunk withResponse data hbeyond
  exact report_beyond verbosity chunk withResponse hbeyond

end Cli.EchoTest

end SerialBridge
