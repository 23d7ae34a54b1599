import SerialBridge.Link
import SerialBridge.Engine
import SerialBridge.Proofs.Queue.Content

/-!
# The engine over plain lists

An engine whose queues are rings does what the same engine does whose queues are the lists of their
bytes: each step gives the same effects and ends in the same state, up to the form of the queues. So
what holds of all runs over lists holds of all runs over rings.
-/

namespace SerialBridge

namespace Inbound

/-- The inbound half with the bytes of the ring in its place. -/
def plain (s : Inbound Ring) : Inbound Bytes :=
  ⟨s.queue.toList, s.waiting, s.failures, s.received, s.delivered⟩

/-- A step over a ring and the step over its list that has the same outcome. -/
def Follows (p : Inbound Bytes × List Effect) (r : Inbound Ring × List Effect) : Prop :=
  r.1.queue.Valid ∧ p = (r.1.plain, r.2)

theorem takeBytes?_plain {s : Inbound Ring} (h : s.queue.Valid) (limit : Nat) :
    s.plain.takeBytes? limit = (s.takeBytes? limit).map (fun r => (r.1, r.2.plain)) ∧
      ∀ r ∈ s.takeBytes? limit, r.2.queue.Valid := by
  have hq : ByteQueue.queued s.plain.queue = ByteQueue.queued s.queue := Ring.length_toList h
  simp only [takeBytes?, hq]
  by_cases hn : min (ByteQueue.queued s.queue) limit = 0
  · simp [hn]
  · have hr := Ring.read_fst h (min (ByteQueue.queued s.queue) limit)
    have hl := Ring.toList_read h (min (ByteQueue.queued s.queue) limit)
    have hv := Ring.valid_read h (min (ByteQueue.queued s.queue) limit)
    simp only [if_neg hn, Option.map_some, Option.mem_def, Option.some.injEq, forall_eq']
    constructor
    · simp only [plain, ByteQueue.read, hr, hl]
    · exact hv

theorem take?_plain {s : Inbound Ring} (h : s.queue.Valid) (length : Nat) :
    s.plain.take? length = (s.take? length).map (fun r => (r.1, r.2.plain)) ∧
      ∀ r ∈ s.take? length, r.2.queue.Valid := by
  have hf : s.plain.failures = s.failures := rfl
  have hd : s.plain.delivered = s.delivered := rfl
  rw [take?, take?, hf, hd]
  cases s.failures with
  | nil => exact takeBytes?_plain h length
  | cons f later =>
    by_cases hp : f.1 = s.delivered
    · simp only [if_pos hp, Option.map_some, Option.mem_def, Option.some.injEq, forall_eq']
      exact ⟨rfl, h⟩
    · simp only [if_neg hp]
      exact takeBytes?_plain h _

theorem read_plain {s : Inbound Ring} (h : s.queue.Valid) (id length : Nat) :
    Follows (s.plain.read id length) (s.read id length) := by
  obtain ⟨ht, hv⟩ := take?_plain h length
  rw [read, read, ht]
  cases hs : s.take? length with
  | none => exact ⟨h, rfl⟩
  | some r => exact ⟨hv r hs, rfl⟩

theorem serve_plain {s : Inbound Ring} (h : s.queue.Valid) (waiting : List ReadRequest) :
    Follows (s.plain.serve waiting) (s.serve waiting) := by
  induction waiting generalizing s with
  | nil => exact ⟨h, rfl⟩
  | cons r rest ih =>
    obtain ⟨ht, hv⟩ := take?_plain h r.length
    rw [serve, serve, ht]
    cases hs : s.take? r.length with
    | none => exact ⟨h, rfl⟩
    | some t =>
      obtain ⟨hvalid, heq⟩ := ih (hv t hs)
      exact ⟨hvalid, by simp only [Option.map_some, heq]⟩

theorem accept_plain {s : Inbound Ring} (h : s.queue.Valid) (n : Notification) :
    (s.accept n).queue.Valid ∧ s.plain.accept n = (s.accept n).plain := by
  have hw := Ring.toList_write h n.chunk.bytes
  constructor
  · exact Ring.valid_write h n.chunk.bytes
  · simp only [accept, plain, ByteQueue.write, hw]

theorem incoming_plain {s : Inbound Ring} (h : s.queue.Valid) (n : Notification) :
    Follows (s.plain.incoming n) (s.incoming n) := by
  obtain ⟨hv, ha⟩ := accept_plain h n
  obtain ⟨hvalid, heq⟩ := serve_plain hv (s.accept n).waiting
  have hw : (s.accept n).plain.waiting = (s.accept n).waiting := rfl
  constructor
  · exact hvalid
  · simp only [incoming, ha, hw, heq]
    rfl

end Inbound

namespace Outbound

/-- The outbound half with the bytes of the ring in its place. -/
def plain (s : Outbound Ring) : Outbound Bytes :=
  ⟨s.queue.toList, s.chunk, s.mode, s.waiting, s.failure⟩

/-- A step over a ring and the step over its list that has the same outcome. -/
def Follows (p : Outbound Bytes × List Effect) (r : Outbound Ring × List Effect) : Prop :=
  r.1.queue.Valid ∧ p = (r.1.plain, r.2)

theorem stage_plain {s : Outbound Ring} (h : s.queue.Valid) (data : Bytes) :
    Follows (s.plain.stage data) (s.stage data) := by
  have hw := Ring.toList_write h data
  have hv := Ring.valid_write h data
  have hq := Ring.length_toList hv
  constructor
  · exact hv
  · simp only [stage, plain, ByteQueue.write, ByteQueue.queued, hw, ← hq]

theorem write_plain {s : Outbound Ring} (h : s.queue.Valid) (maxChunk : Nat) (data : Bytes) :
    Follows (s.plain.write maxChunk data) (s.write maxChunk data) := by
  by_cases hd : data = []
  · simp only [write, if_pos hd]
    exact ⟨h, rfl⟩
  · have hm : s.plain.mode = s.mode := rfl
    simp only [write, if_neg hd, hm]
    cases s.mode with
    | active => exact stage_plain h data
    | idle =>
      obtain ⟨hv, heq⟩ := stage_plain (s := { s with
        chunk := Chunk.ofBytes (data.take maxChunk), mode := .active }) h (data.drop maxChunk)
      constructor
      · exact hv
      · simp only [plain] at heq
        simp only [plain, heq]

theorem flush_plain {s : Outbound Ring} (h : s.queue.Valid) (id : Nat) :
    Follows (s.plain.flush id) (s.flush id) := by
  have hm : s.plain.mode = s.mode := rfl
  simp only [flush, hm]
  cases s.mode with
  | active => exact ⟨h, rfl⟩
  | idle => exact ⟨h, rfl⟩

theorem settle_plain {s : Outbound Ring} (h : s.queue.Valid) : Follows s.plain.settle s.settle := by
  have hw : s.plain.waiting = s.waiting := rfl
  simp only [settle, hw]
  by_cases hn : s.waiting = []
  · simp only [if_pos hn]
    exact ⟨h, rfl⟩
  · simp only [if_neg hn]
    exact ⟨h, rfl⟩

theorem taken_plain {s : Outbound Ring} (h : s.queue.Valid) (maxChunk : Nat) :
    Follows (s.plain.taken maxChunk) (s.taken maxChunk) := by
  have hv := Ring.valid_read h maxChunk
  have hread : ByteQueue.read s.plain.queue maxChunk =
      ((ByteQueue.read s.queue maxChunk).1, (s.queue.read maxChunk).2.toList) := by
    rw [Ring.toList_read h]
    exact congrArg (·, _) (Ring.read_fst h maxChunk).symm
  have hc : s.plain.chunk = s.chunk := rfl
  simp only [taken, hread, hc]
  by_cases hd : (ByteQueue.read s.queue maxChunk).1 = []
  · simp only [hd, ne_eq, not_true_eq_false, if_false]
    by_cases he : s.chunk.isEmpty
    · simp only [he, if_true]
      exact settle_plain (s := { s with queue := (ByteQueue.read s.queue maxChunk).2 }) hv
    · simp only [he]
      exact ⟨hv, rfl⟩
  · simp only [ne_eq, hd, not_false_eq_true, if_true]
    exact ⟨hv, rfl⟩

theorem failed_plain {s : Outbound Ring} (h : s.queue.Valid) (f : Failure) :
    Follows (s.plain.failed f) (s.failed f) := by
  have hf : s.plain.failure = s.failure := rfl
  rw [failed, failed, hf]
  cases s.failure with
  | none => exact ⟨h, rfl⟩
  | some held => exact ⟨h, rfl⟩

end Outbound

namespace Engine

/-- Both rings of the engine are in range. -/
structure Valid (e : Engine Ring) : Prop where
  inbound : e.inbound.queue.Valid
  outbound : e.outbound.queue.Valid

/-- The engine with the bytes of its rings in their place. -/
def plain (e : Engine Ring) : Engine Bytes := ⟨e.settings, e.inbound.plain, e.outbound.plain⟩

/-- A step over rings and the step over their lists that has the same outcome. -/
def Follows (p : Engine Bytes × List Effect) (r : Engine Ring × List Effect) : Prop :=
  r.1.Valid ∧ p = (r.1.plain, r.2)

theorem valid_new (settings : Settings) : (new settings : Engine Ring).Valid :=
  ⟨Ring.valid_withGrowth _, Ring.valid_withGrowth _⟩

theorem plain_new (settings : Settings) :
    (new settings : Engine Ring).plain = (new settings : Engine Bytes) := by
  have hq : (ByteQueue.withGrowth settings.queueGrowth : Ring).toList = [] :=
    Ring.toList_withGrowth _
  simp only [new, plain, Inbound.new, Inbound.plain, Outbound.new, Outbound.plain, hq]
  rfl

theorem withInbound_plain {e : Engine Ring} (h : e.Valid) {p : Inbound Bytes × List Effect}
    {r : Inbound Ring × List Effect} (hf : Inbound.Follows p r) :
    Follows (e.plain.withInbound p) (e.withInbound r) := by
  obtain ⟨hv, rfl⟩ := hf
  exact ⟨⟨hv, h.outbound⟩, rfl⟩

theorem withOutbound_plain {e : Engine Ring} (h : e.Valid) {p : Outbound Bytes × List Effect}
    {r : Outbound Ring × List Effect} (hf : Outbound.Follows p r) :
    Follows (e.plain.withOutbound p) (e.withOutbound r) := by
  obtain ⟨hv, rfl⟩ := hf
  exact ⟨⟨h.inbound, hv⟩, rfl⟩

/-- One step over rings is one step over lists. -/
theorem step_plain {e : Engine Ring} (h : e.Valid) (event : Event) :
    Follows (e.plain.step event) (e.step event) := by
  cases event with
  | read id length => exact withInbound_plain h (Inbound.read_plain h.inbound id length)
  | write data => exact withOutbound_plain h (Outbound.write_plain h.outbound _ data)
  | flush id => exact withOutbound_plain h (Outbound.flush_plain h.outbound id)
  | incoming n => exact withInbound_plain h (Inbound.incoming_plain h.inbound n)
  | chunkTaken => exact withOutbound_plain h (Outbound.taken_plain h.outbound _)
  | writeFailed f => exact withOutbound_plain h (Outbound.failed_plain h.outbound f)

/-- Every run over rings is a run over lists. -/
theorem run_plain {e : Engine Ring} (h : e.Valid) (events : List Event) :
    Follows (e.plain.run events) (e.run events) := by
  induction events generalizing e with
  | nil => exact ⟨h, rfl⟩
  | cons event rest ih =>
    obtain ⟨hv, hs⟩ := step_plain h event
    obtain ⟨hlast, hr⟩ := ih hv
    constructor
    · exact hlast
    · rw [run_cons, run_cons, hs, hr]

theorem run_new_plain (settings : Settings) (events : List Event) :
    Follows ((new settings : Engine Bytes).run events)
      ((new settings : Engine Ring).run events) := by
  rw [← plain_new]
  exact run_plain (valid_new settings) events

theorem shutdown_plain {e : Engine Ring} (h : e.Valid) : Follows e.plain.shutdown e.shutdown :=
  ⟨⟨h.inbound, h.outbound⟩, rfl⟩

/-- One move over rings is one move over lists. -/
theorem move_plain {e : Engine Ring} (h : e.Valid) (move : Move) :
    Follows (e.plain.move move) (e.move move) := by
  cases move with
  | event event => exact step_plain h event
  | shutdown => exact shutdown_plain h

/-- Any moves over rings are moves over lists. -/
theorem after_plain {e : Engine Ring} (h : e.Valid) (moves : List Move) :
    (e.after moves).Valid ∧ e.plain.after moves = (e.after moves).plain := by
  induction moves generalizing e with
  | nil => exact ⟨h, rfl⟩
  | cons move rest ih =>
    obtain ⟨hvalid, hmove⟩ := move_plain h move
    rw [after_cons, after_cons, hmove]
    exact ih hvalid

theorem after_new_plain (settings : Settings) (moves : List Move) :
    ((new settings : Engine Ring).after moves).Valid ∧
      (new settings : Engine Bytes).after moves =
        ((new settings : Engine Ring).after moves).plain := by
  rw [← plain_new]
  exact after_plain (valid_new settings) moves

end Engine

namespace Link

/-- The link with the bytes of its rings in their place. -/
def plain (l : Link Ring) : Link Bytes :=
  ⟨l.engine.plain, l.pump, l.serving, l.closed, l.subscribed⟩

/-- Two moves are possible together, and then have the same outcome. -/
def Follows (p : Option (Link Bytes × List Effect)) (r : Option (Link Ring × List Effect)) : Prop :=
  p = r.map (fun s => (s.1.plain, s.2)) ∧ ∀ s ∈ r, s.1.engine.Valid

theorem plain_new (settings : Settings) :
    (new settings : Link Ring).plain = (new settings : Link Bytes) := by
  simp only [new, plain, Engine.plain_new]

variable {l : Link Ring}

theorem follows_none : Follows none none := ⟨rfl, fun s hs => absurd hs (Option.not_mem_none s)⟩

theorem follows_some (h : l.engine.Valid) (effects : List Effect) :
    Follows (some (l.plain, effects)) (some (l, effects)) := by
  constructor
  · rfl
  · rintro s ⟨⟩
    exact h

theorem feed?_plain (h : l.engine.Valid) (event : Engine.Event) :
    Follows (l.plain.feed? event) (l.feed? event) := by
  obtain ⟨hv, hs⟩ := Engine.step_plain h event
  by_cases hserving : l.serving
  · have hf : l.plain.feed? event = some
        (({ l with engine := (l.engine.step event).1 } : Link Ring).plain,
          (l.engine.step event).2) := by
      rw [feed?, if_pos (show l.plain.serving = true from hserving)]
      simp only [plain, hs]
    rw [hf, feed?, if_pos hserving]
    exact follows_some hv _
  · rw [feed?, feed?, if_neg hserving, if_neg (show ¬l.plain.serving = true from hserving)]
    exact follows_none

theorem handOff?_plain (h : l.engine.Valid) : Follows l.plain.handOff? l.handOff? := by
  obtain ⟨engine, pump, serving, closed, subscribed⟩ := l
  obtain ⟨hv, hs⟩ := Engine.step_plain h .chunkTaken
  have hc : engine.plain.outbound.chunk = engine.outbound.chunk := rfl
  have ht : engine.plain.transmitting = engine.transmitting := rfl
  simp only [handOff?, plain, ht, hc, hs]
  cases pump with
  | ready =>
    by_cases hg : (serving && engine.transmitting) = true
    · simp only [if_pos hg]
      by_cases hd : engine.outbound.chunk.bytes = []
      · simp only [if_pos hd]
        exact follows_some (l := ⟨_, _, _, _, _⟩) hv _
      · simp only [if_neg hd]
        exact follows_some (l := ⟨_, _, _, _, _⟩) hv _
    · simp only [if_neg hg]
      exact follows_none
  | _ => exact follows_none

theorem complete?_plain (h : l.engine.Valid) (failure : Option Failure) :
    Follows (l.plain.complete? failure) (l.complete? failure) := by
  have hp : l.plain.pump = l.pump := rfl
  simp only [complete?, hp]
  cases l.pump with
  | writing data =>
    cases failure with
    | none => exact follows_some (l := { l with pump := .ready }) h _
    | some f => exact follows_some (l := { l with pump := .failed f }) h _
  | _ => exact follows_none

theorem report?_plain (h : l.engine.Valid) : Follows l.plain.report? l.report? := by
  have hp : l.plain.pump = l.pump := rfl
  simp only [report?, hp]
  cases l.pump with
  | failed f =>
    obtain ⟨hf, hv⟩ := feed?_plain (l := { l with pump := .ready }) h (.writeFailed f)
    have hr : ({ l.plain with pump := .ready } : Link Bytes) =
        ({ l with pump := .ready } : Link Ring).plain := rfl
    simp only [hr, hf]
    cases hs : ({ l with pump := .ready } : Link Ring).feed? (.writeFailed f) with
    | none => exact follows_some (l := { l with pump := .ready }) h _
    | some s => exact follows_some (hv s hs) s.2
  | _ => exact follows_none

theorem shutdown?_plain (h : l.engine.Valid) : Follows l.plain.shutdown? l.shutdown? := by
  obtain ⟨engine, pump, serving, closed, subscribed⟩ := l
  obtain ⟨hv, hs⟩ := Engine.shutdown_plain h
  simp only [shutdown?, plain, hs]
  by_cases hb : (serving && (closed || !subscribed)) = true
  · simp only [if_pos hb]
    exact follows_some (l := ⟨_, _, _, _, _⟩) hv _
  · simp only [if_neg hb]
    exact follows_none

theorem halt?_plain (h : l.engine.Valid) : Follows l.plain.halt? l.halt? := by
  have hp : l.plain.pump = l.pump := rfl
  have hg : (l.plain.closed || !l.plain.serving) = (l.closed || !l.serving) := rfl
  simp only [halt?, hp, hg]
  cases l.pump with
  | ready =>
    by_cases hb : (l.closed || !l.serving) = true
    · simp only [if_pos hb]
      exact follows_some (l := { l with pump := .stopped }) h _
    · simp only [if_neg hb]
      exact follows_none
  | _ => exact follows_none

/-- One move of a link over rings is one move over lists. -/
theorem step?_plain (h : l.engine.Valid) (event : Event) :
    Follows (l.plain.step? event) (l.step? event) := by
  unfold step?
  cases event with
  | read id length => exact feed?_plain h (.read id length)
  | write data => exact feed?_plain h (.write data)
  | flush id => exact feed?_plain h (.flush id)
  | incoming n => exact feed?_plain h (.incoming n)
  | handOff => exact handOff?_plain h
  | complete failure => exact complete?_plain h failure
  | report => exact report?_plain h
  | close => exact follows_some (l := { l with closed := true }) h _
  | unsubscribe => exact follows_some (l := { l with subscribed := false }) h _
  | shutdown => exact shutdown?_plain h
  | halt => exact halt?_plain h

/-- Every run of a link over rings is a run over lists. -/
theorem run?_plain (h : l.engine.Valid) (events : List Event) :
    Follows (l.plain.run? events) (l.run? events) := by
  induction events generalizing l with
  | nil => exact follows_some h []
  | cons event rest ih =>
    obtain ⟨hs, hv⟩ := step?_plain h event
    rw [run?, run?, hs]
    cases hstep : l.step? event with
    | none => exact follows_none
    | some s =>
      obtain ⟨hr, hvr⟩ := ih (hv s hstep)
      simp only [Option.map_some, hr]
      cases hrest : s.1.run? rest with
      | none => exact follows_none
      | some r => exact follows_some (hvr r hrest) _

theorem run?_new_plain (settings : Settings) (events : List Event) :
    Follows ((new settings : Link Bytes).run? events)
      ((new settings : Link Ring).run? events) := by
  rw [← plain_new]
  exact run?_plain (Engine.valid_new settings) events

end Link

end SerialBridge
