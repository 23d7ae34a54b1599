import SerialBridge.Proofs.Engine.Requests

/-!
# Waiting for data or asking for it late

Reads that wait for a notification are served from a list, up to the first one that finds nothing.
Reads that come behind the notification look at the stream one by one. Either way the same reads get
the same answers: where a read for one byte or more finds nothing, no later read finds anything.
-/

namespace SerialBridge

open Effect (replies)

namespace Inbound

variable {Q : Type} [ByteQueue Q] {s : Inbound Q}

/-! ## What a read finds -/

/-- Which reads waited before does not matter to the list that is served. -/
theorem serve_waiting (s : Inbound Q) (waiting requests : List ReadRequest) :
    ({ s with waiting := waiting } : Inbound Q).serve requests = s.serve requests := by
  induction requests generalizing s with
  | nil => rfl
  | cons r rest ih =>
    rw [serve, serve, take?_waiting]
    cases s.take? r.length with
    | none => rfl
    | some answer =>
      simp only [Option.map_some]
      rw [ih answer.2]

/-- No read finds anything, however much it asks for. -/
def Dry (s : Inbound Q) : Prop := ∀ length, s.take? length = none

theorem takeBytes?_eq_none_iff (s : Inbound Q) (limit : Nat) :
    s.takeBytes? limit = none ↔ ByteQueue.queued s.queue = 0 ∨ limit = 0 := by
  simp only [takeBytes?]
  split <;> simp <;> omega

theorem dry_of_empty (hqueue : ByteQueue.queued s.queue = 0) (hfailures : s.failures = []) :
    s.Dry := by
  intro length
  rw [take?, hfailures]
  exact (takeBytes?_eq_none_iff s length).mpr (.inl hqueue)

/-- Where a read for at least one byte finds nothing, no read finds anything: no byte is queued, or
none lies before the next failure. -/
theorem dry_of_take?_none {length : Nat} (hpos : 1 ≤ length) (h : s.take? length = none) :
    s.Dry := by
  intro other
  rw [take?] at h ⊢
  split at h
  · have hnone := (takeBytes?_eq_none_iff s length).mp h
    exact (takeBytes?_eq_none_iff s other).mpr (by omega)
  · next position failure later hf =>
    split at h
    · cases h
    · next hposition =>
      have hnone := (takeBytes?_eq_none_iff s _).mp h
      rw [if_neg hposition]
      exact (takeBytes?_eq_none_iff s _).mpr (by omega)

/-! ## Reads one by one -/

/-- Reads that come one after another. -/
def readAll (s : Inbound Q) : List ReadRequest → Inbound Q × List Effect
  | [] => (s, [])
  | r :: rest =>
    let (s, effects) := s.read r.id r.length
    let (s, later) := s.readAll rest
    (s, effects ++ later)

/-- Where nothing is found, all reads wait. -/
theorem readAll_dry (h : s.Dry) (requests : List ReadRequest) :
    (s.readAll requests).1 = { s with waiting := s.waiting ++ requests } ∧
      replies (s.readAll requests).2 = [] := by
  induction requests generalizing s with
  | nil =>
    rw [List.append_nil]
    exact ⟨rfl, rfl⟩
  | cons r rest ih =>
    have hread : s.read r.id r.length =
        ({ s with waiting := s.waiting ++ [r] }, [.logged (.readPending r.length)]) := by
      rw [read, h r.length]
    have hdry : ({ s with waiting := s.waiting ++ [r] } : Inbound Q).Dry := by
      intro length
      rw [take?_waiting, h length]
      rfl
    obtain ⟨hstate, hreplies⟩ := ih hdry
    simp only [readAll, hread]
    constructor
    · rw [hstate, List.append_assoc, List.singleton_append]
    · rw [Effect.replies_append, hreplies]
      rfl

/-- Reads that come while none waits are answered as a list of them is served. -/
theorem readAll_eq_serve (hwaiting : s.waiting = []) {requests : List ReadRequest}
    (hpos : ∀ r ∈ requests, 1 ≤ r.length) :
    (s.readAll requests).1 = (s.serve requests).1 ∧
      replies (s.readAll requests).2 = replies (s.serve requests).2 := by
  induction requests generalizing s with
  | nil =>
    have hsame : ({ s with waiting := [] } : Inbound Q) = s := by rw [← hwaiting]
    exact ⟨hsame.symm, rfl⟩
  | cons r rest ih =>
    obtain ⟨hr, hrest⟩ := List.forall_mem_cons.mp hpos
    rw [serve]
    cases ht : s.take? r.length with
    | none =>
      have hall := readAll_dry (dry_of_take?_none hr ht) (r :: rest)
      rwa [hwaiting, List.nil_append] at hall
    | some answer =>
      have hread : s.read r.id r.length = (answer.2, [.replied r.id (.read answer.1)]) := by
        rw [read, ht]
      obtain ⟨hstate, hreplies⟩ := ih ((waiting_take? ht).trans hwaiting) hrest
      simp only [readAll, hread]
      constructor
      · exact hstate
      · rw [Effect.replies_append, hreplies]
        rfl

/-- Of the reads that are served, the first ones are answered and the others are left. -/
theorem exists_served (s : Inbound Q) (requests : List ReadRequest) :
    ∃ served left, requests = served ++ left ∧ (s.serve requests).1.waiting = left ∧
      (replies (s.serve requests).2).map Prod.fst = served.map ReadRequest.id := by
  induction requests generalizing s with
  | nil => exact ⟨[], [], rfl, rfl, rfl⟩
  | cons r rest ih =>
    rw [serve]
    cases s.take? r.length with
    | none => exact ⟨[], r :: rest, rfl, rfl, rfl⟩
    | some answer =>
      obtain ⟨served, left, hsplit, hleft, hserved⟩ := ih answer.2
      refine ⟨r :: served, left, by rw [hsplit, List.cons_append], hleft, ?_⟩
      rw [List.map_cons, ← hserved]
      rfl

/-! ## Reads on either side of a notification -/

/-- The warning of a failed notification apart, what arrives is served to the reads that wait. -/
theorem incoming_eq_serve (s : Inbound Q) (n : Notification) :
    (s.incoming n).1 = ((s.accept n).serve s.waiting).1 ∧
      replies (s.incoming n).2 = replies ((s.accept n).serve s.waiting).2 := by
  rw [incoming]
  cases n.failure <;> exact ⟨rfl, rfl⟩

/-- Reads that waited for a notification. -/
theorem incoming_behind (h : s.Dry) (hwaiting : s.waiting = []) (requests : List ReadRequest)
    (n : Notification) :
    ((s.readAll requests).1.incoming n).1 = ((s.accept n).serve requests).1 ∧
      replies ((s.readAll requests).1.incoming n).2 =
        replies ((s.accept n).serve requests).2 := by
  obtain ⟨hstate, -⟩ := readAll_dry h requests
  have hserved := incoming_eq_serve ({ s with waiting := requests } : Inbound Q) n
  rw [hwaiting, List.nil_append] at hstate
  rw [hstate, ← serve_waiting (s.accept n) requests requests]
  exact hserved

/-- Reads that come behind a notification. -/
theorem incoming_ahead (hwaiting : s.waiting = []) {requests : List ReadRequest}
    (hpos : ∀ r ∈ requests, 1 ≤ r.length) (n : Notification) :
    replies (s.incoming n).2 = [] ∧
      ((s.incoming n).1.readAll requests).1 = ((s.accept n).serve requests).1 ∧
      replies ((s.incoming n).1.readAll requests).2 =
        replies ((s.accept n).serve requests).2 := by
  obtain ⟨hstate, hreplies⟩ := incoming_eq_serve s n
  rw [hwaiting] at hstate hreplies
  have hall := readAll_eq_serve (s := { s.accept n with waiting := [] }) rfl hpos
  rw [serve_waiting] at hall
  rw [hstate]
  exact ⟨hreplies, hall⟩

end Inbound

/-- The event of a read. -/
def ReadRequest.event (r : ReadRequest) : Engine.Event := .read r.id r.length

namespace Engine

/-- Reads are a matter of the inbound half alone. -/
theorem run_reads {Q : Type} [ByteQueue Q] (e : Engine Q) (requests : List ReadRequest) :
    e.run (requests.map ReadRequest.event) = e.withInbound (e.inbound.readAll requests) := by
  induction requests generalizing e with
  | nil => rfl
  | cons r rest ih =>
    rw [List.map_cons, run_cons, ih]
    rfl

/-- Whatever the state of an engine to which nothing came that is still to be read, and for which no
read waits: reads for at least one byte each and a notification lead to the same state and the same
answers, whether the reads wait for the notification or come behind it. The first of the reads are
answered, in order, and the others wait. -/
theorem reads_before_or_behind (e : Engine Ring) (hwaiting : e.inbound.waiting = [])
    (hqueue : e.inbound.queue.queued = 0) (hfailures : e.inbound.failures = [])
    (requests : List ReadRequest) (hpos : ∀ r ∈ requests, 1 ≤ r.length) (n : Notification) :
    let before := e.run (requests.map ReadRequest.event ++ [.incoming n])
    let behind := e.run (.incoming n :: requests.map ReadRequest.event)
    before.1 = behind.1 ∧ replies before.2 = replies behind.2 ∧
    ∃ served left, requests = served ++ left ∧ before.1.inbound.waiting = left ∧
      (replies before.2).map Prod.fst = served.map ReadRequest.id := by
  intro before behind
  have hdry := Inbound.dry_of_empty hqueue hfailures
  obtain ⟨-, hpending⟩ := Inbound.readAll_dry hdry requests
  obtain ⟨hlate, hanswered⟩ := Inbound.incoming_behind hdry hwaiting requests n
  obtain ⟨hnone, hearly, hdirect⟩ := Inbound.incoming_ahead hwaiting hpos n
  have hbefore : before.1 = { e with inbound := ((e.inbound.accept n).serve requests).1 } ∧
      replies before.2 = replies ((e.inbound.accept n).serve requests).2 := by
    simp only [before, run_append, run_reads, run_cons, run_nil, List.append_nil,
      Effect.replies_append]
    constructor
    · rw [← hlate]
      rfl
    · rw [← hanswered]
      exact (congrArg (· ++ _) hpending).trans (List.nil_append _)
  have hbehind : behind.1 = { e with inbound := ((e.inbound.accept n).serve requests).1 } ∧
      replies behind.2 = replies ((e.inbound.accept n).serve requests).2 := by
    simp only [behind, run_cons, run_reads, Effect.replies_append]
    constructor
    · rw [← hearly]
      rfl
    · rw [← hdirect]
      exact (congrArg (· ++ _) hnone).trans (List.nil_append _)
  obtain ⟨served, left, hsplit, hleft, hids⟩ :=
    Inbound.exists_served (e.inbound.accept n) requests
  refine ⟨hbefore.1.trans hbehind.1.symm, hbefore.2.trans hbehind.2.symm,
    served, left, hsplit, ?_, ?_⟩
  · rw [hbefore.1]
    exact hleft
  · rw [hbefore.2]
    exact hids

/-- Four reads and three bytes that came with a failure, on an engine that was used before: the
bytes go to the first two reads, the failure to the third, and the last one waits. -/
theorem reads_before_or_behind_of_four :
    let e : Engine Ring := ((new (Settings.build [.queueGrowth 4])).run
      [.incoming (Notification.receive [7, 8] none).1, .read 1 2, .flush 2]).1
    let requests : List ReadRequest := [⟨3, 2⟩, ⟨4, 9⟩, ⟨5, 1⟩, ⟨6, 1⟩]
    let n := (Notification.receive [1, 2, 3] (some (.reported "noise"))).1
    let before := e.run (requests.map ReadRequest.event ++ [.incoming n])
    let behind := e.run (.incoming n :: requests.map ReadRequest.event)
    (e.inbound.waiting = [] ∧ e.inbound.queue.queued = 0 ∧ e.inbound.failures = [] ∧
      ∀ r ∈ requests, 1 ≤ r.length) ∧
    before.1 = behind.1 ∧ behind.1.inbound.waiting = [⟨6, 1⟩] ∧
    replies before.2 = [(3, .read (.ok [1, 2])), (4, .read (.ok [3])),
      (5, .read (.error (.transport (.reported "noise"))))] := by
  intro e requests n before behind
  have hwaiting : e.inbound.waiting = [] := by decide +kernel
  have hqueue : e.inbound.queue.queued = 0 := by decide +kernel
  have hfailures : e.inbound.failures = [] := by decide +kernel
  have hpos : ∀ r ∈ requests, 1 ≤ r.length := by decide
  obtain ⟨hstate, hreplies, -⟩ :=
    reads_before_or_behind e hwaiting hqueue hfailures requests hpos n
  refine ⟨⟨hwaiting, hqueue, hfailures, hpos⟩, hstate, ?_, ?_⟩
  · decide +kernel
  · rw [hreplies]
    decide +kernel

end Engine

end SerialBridge
