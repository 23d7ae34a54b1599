import SerialBridge.Cli.Program

/-!
# Command line

Looks up the file that a command names, runs the program, and prints its report.
-/

namespace SerialBridge.Cli

/-- The cause behind the system's number of an error. Some calls report the number with its sign
changed. -/
def fileError? (number : UInt32) : Option FileError :=
  match (min number (0 - number)).toNat with
  | 2 => some .notFound
  | 13 => some .permissionDenied
  | 20 => some .notADirectory
  | 21 => some .isDirectory
  | 36 => some .nameTooLong
  | _ => none

def fileError (e : IO.Error) : FileError :=
  let known :=
    match e with
    | .noFileOrDirectory _ number _ | .permissionDenied _ number _ | .inappropriateType _ number _
    | .invalidArgument _ number _ => fileError? number
    | _ => none
  known.getD (.other (toString e))

/-- The contents of a file of the file system. -/
def readFile (path : String) : IO (Except FileError Bytes) := do
  try
    let contents ← IO.FS.readBinFile path
    return .ok contents.toList
  catch e => return .error (fileError e)

/-- The file that a command line names, if it names one. -/
def namedFile? (args : List String) : Option String :=
  match Invocation.ofList args with
  | .run _ (.loopback _ _ _ file) => file
  | _ => none

end SerialBridge.Cli

def main (args : List String) : IO UInt32 := do
  let contents ←
    match SerialBridge.Cli.namedFile? args with
    | some path => SerialBridge.Cli.readFile path
    | none => pure (.error .notFound)
  let report := SerialBridge.Cli.run (fun _ => contents) args
  IO.print report.output
  if let some complaint := report.complaint then IO.eprintln complaint
  return report.code.toUInt32
