import SerialBridge.Cli.Files
import SerialBridge.Cli.CommandLine
import SerialBridge.Peripheral
import SerialBridge.Queue
import SerialBridge.Session

/-!
# The echo test

Data is pushed through a bridge on a loopback peripheral, and what comes back is compared with what
was sent.
-/

namespace SerialBridge.Cli

namespace EchoTest

/-- The data that is sent when no file is given. -/
def pattern (size : Nat) : Bytes := (List.range size).map fun i => UInt8.ofNat (i % 251)

/-- The number of chunks that some data needs. -/
def chunkCount (length chunk : Nat) : Nat := (length + chunk - 1) / chunk

/-- Bytes that are read at once. -/
def readSize : Nat := 256

/-- What a test came to. -/
structure Outcome where
  result : Except String Bytes
  /-- Physical writes on the receiving characteristic. -/
  writes : Nat
  echoed : Nat
  log : List Log.Entry

abbrev TestSession := Session (Loopback Unit) Ring

/-- Whether both queues of a bridge have had their buffers. The first one that is not to be had ends
the engine. -/
def hasBuffers (b : Bridge (Loopback Unit) Ring) : Bool :=
  b.link.engine.inbound.queue.fits && b.link.engine.outbound.queue.fits

/-- Read until `missing` bytes came back, and collect them with the effects of the reads. -/
def collect : Nat → TestSession → Nat → Except CallError Bytes × TestSession × List Effect
  | 0, s, _ => (.ok [], s, [])
  | fuel + 1, s, missing =>
    if missing = 0 then (.ok [], s, [])
    else
      let (s, outcome) := s.step (.read readSize)
      match outcome.result with
      | .bytes (.ok data) =>
        let (rest, s, effects) := collect fuel s (missing - data.length)
        (rest.map (data ++ ·), s, outcome.effects ++ effects)
      | .bytes (.error e) => (.error e, s, outcome.effects)
      | _ => (.ok [], s, outcome.effects)

/-- The complaint about a write or a flush that fails. -/
def notPushed (e : CallError) : String := "💥 Failed to push data: " ++ e.message

/-- Write everything, flush, and read as much as was written. Nobody reads before the flush is
answered, so by then the inbound queue has held all of the data, and the reads need no other buffer.
If it could not, the engine has ended and the flush fails; the writes and the log are then those of
an engine that went on. -/
def push (s : TestSession) (data : Bytes) : Outcome :=
  let (s, written) := s.step (.write data)
  let (s, flushed) := s.step .flush
  let sent := written.effects ++ flushed.effects
  let failed (e : CallError) : Outcome :=
    ⟨.error (notPushed e), (Effect.writes sent).length, s.bridge.peripheral.echoed,
      Effect.entries sent⟩
  match written.result, flushed.result, hasBuffers s.bridge with
  | .count (.error e), _, _ | _, .unit (.error e), _ => failed e
  | _, _, false => failed .closed
  | _, _, true =>
    let (back, s, effects) := collect data.length s data.length
    let (s, ended) := s.step .close
    let moved := sent ++ effects
    ⟨back.mapError fun e => "💥 Read failed: " ++ e.message,
      (Effect.writes (moved ++ ended.effects)).length, s.bridge.peripheral.echoed,
      Effect.entries moved ++ ended.log ++ Effect.entries ended.effects⟩

/-- Open a bridge on a fresh peripheral and push data through it. -/
def perform (settings : Settings) (data : Bytes) : Outcome :=
  match (Session.start ({} : Loopback Unit) settings : Except CallError TestSession × _) with
  | (.error e, o) => ⟨.error ("💥 Failed to open the bridge: " ++ e.message), 0, 0, o.log⟩
  | (.ok s, o) =>
    let outcome := push s data
    { outcome with log := o.log ++ outcome.log }

/-- Where two byte strings first differ. -/
def firstDifference : Bytes → Bytes → Nat
  | a :: as, b :: bs => if a = b then firstDifference as bs + 1 else 0
  | _, _ => 0

/-- The verdict on what came back. -/
def verdict (chunk : Nat) (data back : Bytes) : Report :=
  if back = data then
    { lines := [tag ++ "👍 " ++ toString data.length ++ " bytes echoed in " ++
        toString (chunkCount data.length chunk) ++ " chunks of up to " ++ toString chunk ++
        " bytes"] }
  else
    { lines := [tag ++ "💥 Echo differs at offset " ++ toString (firstDifference back data)],
      code := 1 }

/-- The report of a test with usable arguments. -/
def report (verbosity : Nat) (settings : Settings) (data : Bytes) : Report :=
  let outcome := perform settings data
  let log := (Log.upTo (level verbosity) outcome.log).map fun e => logLine e.level e.message
  match outcome.result with
  | .error text => { lines := log ++ [tag ++ text], code := 1 }
  | .ok back =>
    let view := if 2 ≤ verbosity then [HexView.render back] else []
    (verdict settings.maxChunk data back).after (log ++ view)

def invalidValue (name value expected : String) : Report where
  lines := ["error: `" ++ name ++ "` needs to be " ++ expected,
    "   --> `" ++ value ++ "` is not a valid value"]
  code := 255

/-- Check the arguments, the chunk size first, and run the test. A size is checked even where a file
takes its place. -/
def run (files : Files) (verbosity : Nat) (chunkText sizeText : String) (withResponse : Bool)
    (file : Option String) : Report :=
  match number? chunkText with
  | none => invalidValue "chunk" chunkText "a numeric value"
  | some chunk =>
    if chunk = 0 ∨ chunkLimit < chunk then
      invalidValue "chunk" chunkText ("a value between 1 and " ++ toString chunkLimit)
    else
      match number? sizeText with
      | none => invalidValue "size" sizeText "a numeric value"
      | some size =>
        let settings := Settings.build [.maxChunk chunk, .writeWithResponse withResponse]
        match file with
        | none =>
          if bufferLimit < size then
            { code := 101, complaint := some ("no buffer has " ++ toString size ++ " bytes") }
          else report verbosity settings (pattern size)
        | some path =>
          match files path with
          | .ok data => report verbosity settings data
          | .error e =>
            { lines := [tag ++ "🙁 could not read `" ++ path ++ "`: " ++ e.message], code := 1 }

end EchoTest

end SerialBridge.Cli
