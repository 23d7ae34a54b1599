import SerialBridge.Proofs.Plain

/-!
# The growth of the queues cannot be observed

Engines that are set to grow their queues by different amounts move their bytes to larger buffers at
different times. None of it shows: each of them goes, move by move, through what the engine over
plain lists goes through, and to that one the growth is a number that it never looks at.
-/

namespace SerialBridge

namespace Engine

section Regrown

variable {Q : Type} [ByteQueue Q]

/-- The engine set to another growth. The queues that it has are left as they are. -/
def regrown (e : Engine Q) (growth : Nat) : Engine Q :=
  { e with settings := { e.settings with queueGrowth := growth } }

/-- No move looks at the growth that the engine is set to. -/
theorem move_regrown (e : Engine Q) (growth : Nat) (move : Move) :
    (e.regrown growth).move move = ((e.move move).1.regrown growth, (e.move move).2) := by
  cases move with
  | shutdown => rfl
  | event event => cases event <;> rfl

theorem after_regrown (e : Engine Q) (growth : Nat) (moves : List Move) :
    (e.regrown growth).after moves = (e.after moves).regrown growth := by
  induction moves generalizing e with
  | nil => rfl
  | cons move rest ih => rw [after_cons, after_cons, move_regrown, ih]

end Regrown

/-- Two engines that differ at most in the growth that they are set to and in where the bytes of
their queues lie. -/
structure Alike (a b : Engine Ring) : Prop where
  maxChunk : b.settings.maxChunk = a.settings.maxChunk
  writeWithResponse : b.settings.writeWithResponse = a.settings.writeWithResponse
  offer : b.outbound.chunk = a.outbound.chunk
  mode : b.outbound.mode = a.outbound.mode
  flushes : b.outbound.waiting = a.outbound.waiting
  writeFailure : b.outbound.failure = a.outbound.failure
  reads : b.inbound.waiting = a.inbound.waiting
  failures : b.inbound.failures = a.inbound.failures
  received : b.inbound.received = a.inbound.received
  delivered : b.inbound.delivered = a.inbound.delivered
  inbound : b.inbound.queue.toList = a.inbound.queue.toList
  outbound : b.outbound.queue.toList = a.outbound.queue.toList

theorem alike_of_plain {a b : Engine Ring} {growth : Nat}
    (h : b.plain = a.plain.regrown growth) : Alike a b := by
  obtain ⟨hsettings, hinbound, houtbound⟩ := Engine.mk.inj h
  obtain ⟨hin, hreads, hfailures, hreceived, hdelivered⟩ := Inbound.mk.inj hinbound
  obtain ⟨hout, hoffer, hmode, hflushes, hfailure⟩ := Outbound.mk.inj houtbound
  have hmax := congrArg Settings.maxChunk hsettings
  have hresponse := congrArg Settings.writeWithResponse hsettings
  exact ⟨hmax, hresponse, hoffer, hmode, hflushes, hfailure, hreads, hfailures, hreceived,
    hdelivered, hin, hout⟩

/-- Two new engines whose settings differ in the growth only are alike after any events and
shutdowns, and the next one, whatever it is, shows the same on both. Each of them simulates the
engine over plain lists: that one stands where the first does, with the bytes of its rings in their
place, and every move keeps it there and shows the same. -/
theorem growth_unobservable (settings : Settings) (growth : Nat) (moves : List Move) :
    let a : Engine Ring := (new settings).after moves
    let b : Engine Ring := (new { settings with queueGrowth := growth }).after moves
    let p : Engine Bytes := (new settings).after moves
    Alike a b ∧ (∀ move, (b.move move).2 = (a.move move).2) ∧
      p = a.plain ∧ ∀ move, p.move move = ((a.move move).1.plain, (a.move move).2) := by
  intro a b p
  obtain ⟨hva, ha⟩ := after_new_plain settings moves
  obtain ⟨hvb, hb⟩ := after_new_plain { settings with queueGrowth := growth } moves
  have hnew : (new { settings with queueGrowth := growth } : Engine Bytes) =
      (new settings).regrown growth := rfl
  have hplain : b.plain = a.plain.regrown growth := by
    rw [← ha, ← hb, hnew, after_regrown]
  refine ⟨alike_of_plain hplain, fun move => ?_, ha, fun move => ?_⟩
  · calc (b.move move).2
      _ = (b.plain.move move).2 := (congrArg Prod.snd (move_plain hvb move).2).symm
      _ = (a.plain.move move).2 := by rw [hplain, move_regrown]
      _ = (a.move move).2 := congrArg Prod.snd (move_plain hva move).2
  · have hp : p = a.plain := ha
    rw [hp]
    exact (move_plain hva move).2

end Engine

end SerialBridge
