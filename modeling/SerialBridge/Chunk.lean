import SerialBridge.Log

/-!
# Chunks and notifications

A chunk is one payload over the air. It lives in a buffer of fixed size that is filled again and
again, so behind its length a buffer still holds bytes of earlier fillings.
-/

namespace SerialBridge

structure Chunk where
  buffer : Bytes
  len : Nat
  deriving DecidableEq, Repr

namespace Chunk

def empty : Chunk := ⟨List.replicate chunkLimit 0, 0⟩

/-- The payload; what the buffer holds behind it is no part of it. -/
def bytes (c : Chunk) : Bytes := c.buffer.take c.len

def isEmpty (c : Chunk) : Bool := c.len == 0

/-- Overwrites the front of the buffer and leaves the rest as it was. -/
def refill (c : Chunk) (data : Bytes) : Chunk :=
  ⟨data.overlay c.buffer, data.length⟩

/-- The same buffer with no payload. -/
def clear (c : Chunk) : Chunk := { c with len := 0 }

/-- A chunk of the first `chunkLimit` bytes at most. -/
def ofBytes (data : Bytes) : Chunk := empty.refill (data.take chunkLimit)

/-- The payload as a list of numbers, for reports. -/
def text (c : Chunk) : String :=
  "Chunk([" ++ ", ".intercalate (c.bytes.map fun b => toString b.toNat) ++ "])"

def WellFormed (c : Chunk) : Prop := c.buffer.length = chunkLimit ∧ c.len ≤ chunkLimit

@[simp] theorem bytes_refill (c : Chunk) (data : Bytes) : (c.refill data).bytes = data := by
  simp [bytes, refill, Bytes.overlay]

@[simp] theorem bytes_clear (c : Chunk) : c.clear.bytes = [] := by simp [bytes, clear]

@[simp] theorem bytes_empty : empty.bytes = [] := rfl

@[simp] theorem bytes_ofBytes (data : Bytes) : (ofBytes data).bytes = data.take chunkLimit := by
  simp [ofBytes]

@[simp] theorem len_refill (c : Chunk) (data : Bytes) : (c.refill data).len = data.length := rfl

theorem wellFormed_refill {c : Chunk} (h : c.WellFormed) {data : Bytes}
    (hd : data.length ≤ chunkLimit) : (c.refill data).WellFormed := by
  obtain ⟨hb, -⟩ := h
  refine ⟨?_, hd⟩
  simp only [refill, Bytes.overlay, List.length_append, List.length_drop, hb]
  omega

end Chunk

/-- What the peer notified, cut to one chunk, and the failure that the radio stack attached. -/
structure Notification where
  chunk : Chunk
  failure : Option Failure
  deriving DecidableEq, Repr

namespace Notification

/-- A payload that is too long loses its end, and the log says so. -/
def receive (data : Bytes) (failure : Option Failure) : Notification × List Log.Entry :=
  (⟨Chunk.ofBytes data, failure⟩,
    if chunkLimit < data.length then [.truncated data.length] else [])

end Notification

end SerialBridge
