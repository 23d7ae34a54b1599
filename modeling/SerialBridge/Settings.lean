/-!
# Settings

How a bridge cuts and sends its data. Values out of range are moved to the nearest end of the
range, so every value that the setters build is usable.
-/

namespace SerialBridge

/-- Bytes of payload that one write or notification can carry. -/
def chunkLimit : Nat := 20

def defaultQueueGrowth : Nat := 256

structure Settings where
  /-- Payload bytes of each physical write, from 1 to `chunkLimit`. -/
  maxChunk : Nat := chunkLimit
  /-- Whether a data write waits for the acknowledgement of the peer. -/
  writeWithResponse : Bool := true
  /-- The least number of bytes by which a byte queue grows. -/
  queueGrowth : Nat := defaultQueueGrowth
  deriving DecidableEq, Repr

inductive Setting where
  | maxChunk (bytes : Nat)
  | writeWithResponse (wait : Bool)
  | queueGrowth (bytes : Nat)
  deriving DecidableEq, Repr

namespace Settings

def set (s : Settings) : Setting → Settings
  | .maxChunk n => { s with maxChunk := min (max n 1) chunkLimit }
  | .writeWithResponse b => { s with writeWithResponse := b }
  | .queueGrowth n => { s with queueGrowth := max n 1 }

/-- The settings after a list of choices; of two choices for one setting the later one counts. -/
def build (choices : List Setting) : Settings := choices.foldl set {}

def Valid (s : Settings) : Prop :=
  1 ≤ s.maxChunk ∧ s.maxChunk ≤ chunkLimit ∧ 1 ≤ s.queueGrowth

theorem set_valid {s : Settings} (h : s.Valid) (c : Setting) : (s.set c).Valid := by
  obtain ⟨h1, h2, h3⟩ := h
  cases c <;> simp only [set, Valid, chunkLimit] at * <;> omega

theorem build_valid (choices : List Setting) : (build choices).Valid := by
  suffices ∀ s : Settings, s.Valid → (choices.foldl set s).Valid from
    this {} ⟨by decide, by decide, by decide⟩
  induction choices with
  | nil => exact fun _ h => h
  | cons c cs ih => exact fun s h => ih _ (set_valid h c)

end Settings

end SerialBridge
