import SerialBridge.Advertisement
import SerialBridge.Cli.EchoTest
import SerialBridge.Cli.CommandLine
import SerialBridge.Hex

/-!
# The program

From a command line to a report.

## Decoding advertisements

Each argument is the hexadecimal text of advertising data and gets a report of its own. The command
succeeds if every argument is the text of an advertisement.
-/

namespace SerialBridge.Cli.Advertisements

/-- What may stand anywhere among the digits. -/
def isSeparator (c : Char) : Bool :=
  c = ' ' || c = '\t' || c = '\n' || c = '\x0c' || c = '\r' || c = ':'

def digits (text : String) : List Char := text.toList.filter fun c => !isSeparator c

def bytes (text : String) : Except Hex.Error Bytes := Hex.decodeCodes (Hex.codes (digits text))

def yesNo (b : Bool) : String := if b then "yes" else "no"

/-- The lines that describe a device. -/
def describe (a : Advertisement) : List String :=
  let version :=
    match a with
    | .first _ => "v1"
    | .second _ => "v2"
  let more :=
    match a with
    | .first _ => []
    | .second d =>
      ("     firmware version     : " ++ Hex.fixed 4 d.firmware.toNat) ::
        (d.partner.map fun p => "     partner data         : " ++ Hex.encode p).toList
  [tag ++ "📡 " ++ version ++ " device " ++ Hex.fixed 8 a.id.toNat,
    "     auth key             : " ++ Hex.fixed 8 a.key.toNat,
    "     can transact         : " ++ yesNo a.canTransact,
    "     supports maintenance : " ++ yesNo a.supportsMaintenance,
    "     needs maintenance    : " ++ yesNo a.needsMaintenance] ++ more

/-- The report on one argument. -/
def report (text : String) : Report :=
  match bytes text with
  | .error e =>
    { lines := ["error: `" ++ text ++ "` is not a valid hex string (" ++ e.message ++ ")"], code := 1 }
  | .ok raw =>
    match Advertisement.decode raw with
    | some a => { lines := describe a }
    | none => { lines := [tag ++ "❔ not a serial bridge advertisement: " ++ text], code := 1 }

/-- The reports of all arguments in order, and the worst of their codes. -/
def run : List String → Report
  | [] => {}
  | text :: rest =>
    let first := report text
    let others := run rest
    { lines := first.lines ++ others.lines, code := max first.code others.code }

end SerialBridge.Cli.Advertisements

/-! ## From a command line to a report -/

namespace SerialBridge.Cli

def usage : List String :=
  ["usage: brspcom [-v] adv HEX...",
    "       brspcom [-v] loopback [--chunk=BYTES] [--size=BYTES] [--no-response] [FILE]"]

def perform (files : Files) (verbosity : Nat) : Command → Report
  | .advertisements texts => Advertisements.run texts
  | .loopback chunk size withResponse file =>
    EchoTest.run files verbosity chunk size withResponse file

/-- The banner comes first, whatever the command line asks for. -/
def run (files : Files) (args : List String) : Report :=
  let report : Report :=
    match Invocation.ofList args with
    | .version name => { lines := [name] }
    | .help => { lines := usage }
    | .misuse e => { code := 1, complaint := some ("error: " ++ e.message) }
    | .run verbosity command =>
      (perform files verbosity command).after (command.log verbosity)
  report.after [banner]

end SerialBridge.Cli
