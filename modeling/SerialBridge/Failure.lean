import SerialBridge.Settings
import SerialBridge.Gatt

/-!
# Failures

A failure is the cause of a call that did not succeed: one that the radio stack reports in its own
words, or one that the in-process peripheral finds. Callers of a bridge see a `CallError`.
-/

namespace SerialBridge

inductive Failure where
  /-- The radio stack's own words. -/
  | reported (text : String)
  | unknownService (uuid : Uuid)
  | notNotifying (uuid : Uuid)
  | notWritable (uuid : Uuid)
  | oversized (length : Nat)
  deriving DecidableEq, Repr

def Failure.message : Failure → String
  | .reported text => text
  | .unknownService u => "unknown service " ++ u.text
  | .notNotifying u => u.text ++ " does not notify"
  | .notWritable u => u.text ++ " is not writable"
  | .oversized n =>
    "value of " ++ toString n ++ " bytes exceeds " ++ toString chunkLimit ++ " bytes"

inductive CallError where
  /-- The service or one of its characteristics is missing. -/
  | missingService
  /-- For callers with deadlines of their own; a bridge never reports it. -/
  | deadline
  /-- The bridge was closed before the call, or while the call was pending. -/
  | closed
  | transport (failure : Failure)
  /-- The bridge could not be started, for the reason given. -/
  | notStarted (reason : String)
  deriving DecidableEq, Repr

/-- The classes into which a caller of a plain byte stream sorts errors. -/
inductive StreamErrorKind where
  | unsupported
  | timedOut
  | brokenPipe
  | other
  deriving DecidableEq, Repr

namespace CallError

def message : CallError → String
  | .missingService => "peripheral does not implement the serial bridge service"
  | .deadline => "serial bridge timeout"
  | .closed => "serial bridge was closed"
  | .transport f => "transport error: " ++ f.message
  | .notStarted reason => "could not start the bridge threads: " ++ reason

/-- The text of the underlying error, where there is one. -/
def cause? : CallError → Option String
  | .transport f => some f.message
  | .notStarted reason => some reason
  | _ => none

def streamKind : CallError → StreamErrorKind
  | .missingService => .unsupported
  | .deadline => .timedOut
  | .closed => .brokenPipe
  | .transport _ | .notStarted _ => .other

end CallError

instance decidableEqExcept {ε α : Type} [DecidableEq ε] [DecidableEq α] :
    DecidableEq (Except ε α)
  | .ok a, .ok b => decidable_of_iff (a = b) ⟨congrArg _, Except.ok.inj⟩
  | .error a, .error b => decidable_of_iff (a = b) ⟨congrArg _, Except.error.inj⟩
  | .ok _, .error _ => isFalse nofun
  | .error _, .ok _ => isFalse nofun

end SerialBridge
