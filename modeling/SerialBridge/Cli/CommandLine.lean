import SerialBridge.Log
import SerialBridge.Text

/-!
# Command lines

A command line is read word by word. A word is a switch, an option with its value after an equals
sign, a cluster of one-letter switches, or an operand; behind a lone `--` every word is an operand.
What a word may be is laid down in a grammar for each command.
-/

namespace SerialBridge.Cli

inductive Key where
  | verbose
  | noResponse
  | chunk
  | size
  | help
  | version
  deriving DecidableEq, Repr

/-- Options have a value, all other keys are switches. -/
def Key.takesValue : Key → Bool
  | .chunk | .size => true
  | _ => false

structure Grammar where
  short : List (Char × Key)
  long : List (String × Key)
  /-- How many operands there may be, if there is a limit. -/
  operands : Option Nat
  deriving DecidableEq, Repr

namespace Grammar

def common (operands : Option Nat) : Grammar where
  short := [('v', .verbose), ('h', .help), ('V', .version)]
  long := [("help", .help), ("version", .version)]
  operands := operands

def program : Grammar := common (some 0)

def advertisements : Grammar := common none

def loopback : Grammar :=
  let base := common (some 1)
  { base with
    short := [('c', .chunk), ('s', .size)] ++ base.short
    long := [("chunk", .chunk), ("size", .size), ("no-response", .noResponse)] ++ base.long }

end Grammar

inductive UsageError where
  | unknown (word : String)
  | valueMissing (key : Key)
  | unexpected (operand : String)
  | repeated (key : Key)
  | operandMissing
  | commandMissing
  | unknownCommand (word : String)
  deriving DecidableEq, Repr

def UsageError.message : UsageError → String
  | .unknown word => "unknown option " ++ word
  | .valueMissing _ => "an option needs a value after an equals sign"
  | .unexpected operand => "unexpected argument " ++ operand
  | .repeated _ => "an option was given more than once"
  | .operandMissing => "a required argument is missing"
  | .commandMissing => "a command is missing"
  | .unknownCommand word => "unknown command " ++ word

/-- What ends the reading of a command line before its last word. -/
inductive Stop where
  | version
  | help
  | misuse (error : UsageError)
  deriving DecidableEq, Repr

/-- The words of a command line, sorted. -/
structure Words where
  switches : List Key := []
  values : List (Key × String) := []
  operands : List String := []
  deriving DecidableEq, Repr

namespace Words

def count (w : Words) (key : Key) : Nat := w.switches.count key + (w.values.map (·.1)).count key

def value (w : Words) (key : Key) (absent : String) : String := (w.values.lookup key).getD absent

def addOperand (g : Grammar) (w : Words) (operand : String) : Except Stop Words :=
  if g.operands.any (· ≤ w.operands.length) then .error (.misuse (.unexpected operand))
  else .ok { w with operands := w.operands ++ [operand] }

/-- Help and version are given at once, whatever follows. -/
def addSwitch (w : Words) : Key → Except Stop Words
  | .help => .error .help
  | .version => .error .version
  | key => .ok { w with switches := w.switches ++ [key] }

/-- Further equals signs at the start of a value are dropped, and nothing must not remain. -/
def addValue (w : Words) (key : Key) (text : List Char) : Except Stop Words :=
  let value := text.dropWhile (· = '=')
  if value = [] then .error (.misuse (.valueMissing key))
  else .ok { w with values := w.values ++ [(key, String.ofList value)] }

/-- The letters of a cluster. An option takes the rest of the cluster, with its equals sign, as its
value. -/
def addCluster (g : Grammar) (w : Words) : List Char → Except Stop Words
  | [] => .ok w
  | c :: rest =>
    match g.short.lookup c with
    | none => .error (.misuse (.unknown (String.ofList ['-', c])))
    | some key =>
      if key.takesValue then
        if rest.head? = some '=' then w.addValue key rest
        else .error (.misuse (.valueMissing key))
      else
        match w.addSwitch key with
        | .ok w => addCluster g w rest
        | .error stop => .error stop

/-- A long word without its hyphens. A value behind a switch is ignored. -/
def addLong (g : Grammar) (w : Words) (body : List Char) : Except Stop Words :=
  let name := String.ofList (body.takeWhile (· ≠ '='))
  match g.long.lookup name with
  | none => .error (.misuse (.unknown ("--" ++ name)))
  | some key =>
    if key.takesValue then w.addValue key (body.dropWhile (· ≠ '='))
    else w.addSwitch key

/-- One word in front of any `--`. A lone hyphen is an operand. -/
def add (g : Grammar) (w : Words) (word : String) : Except Stop Words :=
  match word.toList with
  | '-' :: '-' :: body => w.addLong g (body.dropWhile (· = '-'))
  | '-' :: c :: body => w.addCluster g (c :: body)
  | _ => w.addOperand g word

def addOperands (g : Grammar) (w : Words) : List String → Except Stop Words
  | [] => .ok w
  | word :: rest =>
    match w.addOperand g word with
    | .ok w => addOperands g w rest
    | .error stop => .error stop

def ofList (g : Grammar) (w : Words) : List String → Except Stop Words
  | [] => .ok w
  | word :: rest =>
    if word = "--" then w.addOperands g rest
    else
      match w.add g word with
      | .ok w => ofList g w rest
      | .error stop => .error stop

end Words

inductive Command where
  | advertisements (texts : List String)
  | loopback (chunk size : String) (withResponse : Bool) (file : Option String)
  deriving DecidableEq, Repr

inductive Invocation where
  /-- The version was asked for, of the named program. -/
  | version (name : String)
  | help
  | misuse (error : UsageError)
  | run (verbosity : Nat) (command : Command)
  deriving DecidableEq, Repr

namespace Invocation

def stopped (name : String) : Stop → Invocation
  | .version => .version name
  | .help => .help
  | .misuse e => .misuse e

/-- The verbosity given behind the command replaces that given before it, and either counts
double. -/
def verbosity (before : Nat) (w : Words) : Nat :=
  let behind := w.count .verbose
  2 * (if behind = 0 then before else behind)

def advertisements (before : Nat) (words : List String) : Invocation :=
  match Words.ofList .advertisements {} words with
  | .error stop => stopped "brspcom-adv " stop
  | .ok w =>
    if w.operands = [] then .misuse .operandMissing
    else .run (verbosity before w) (.advertisements w.operands)

def loopback (before : Nat) (words : List String) : Invocation :=
  match Words.ofList .loopback {} words with
  | .error stop => stopped "brspcom-loopback " stop
  | .ok w =>
    match [Key.noResponse, .chunk, .size].find? (1 < w.count ·) with
    | some key => .misuse (.repeated key)
    | none =>
      .run (verbosity before w)
        (.loopback (w.value .chunk "20") (w.value .size "4096") (w.count .noResponse = 0)
          w.operands.head?)

def commands : List String := ["adv", "loopback", "help"]

/-- The words behind `help`, which may name one command. No command has commands of its own. -/
def helpOn (words : List String) : Invocation :=
  let named := words.head?.any (· ∈ commands)
  match if named then words.tail else words with
  | [] => .help
  | word :: _ => .misuse (.unknownCommand word)

/-- Words up to the command are read by the grammar of the program, those behind it by that of the
command. -/
def ofWords (w : Words) : List String → Invocation
  | [] => .misuse .commandMissing
  | word :: rest =>
    if word = "adv" then advertisements (w.count .verbose) rest
    else if word = "loopback" then loopback (w.count .verbose) rest
    else if word = "help" then helpOn rest
    else if word = "--" then .misuse .commandMissing
    else
      match w.add .program word with
      | .ok w => ofWords w rest
      | .error stop => stopped "brspcom v0.1.0" stop

def ofList (words : List String) : Invocation := ofWords {} words

end Invocation

/-- A decimal number below 2 to the 64, with or without a plus sign. -/
def number? (text : String) : Option Nat :=
  let digits :=
    match text.toList with
    | '+' :: rest => rest
    | all => all
  if digits = [] ∨ ¬digits.all Char.isDigit then none
  else
    let n := digits.foldl (fun n c => 10 * n + (c.toNat - 48)) 0
    if n < UInt64.size then some n else none

/-!
## Reports

What a command has to say: lines on the standard output, an exit code, and possibly a complaint for
the error output.
-/

structure Report where
  lines : List String := []
  code : UInt8 := 0
  complaint : Option String := none
  deriving DecidableEq, Repr

namespace Report

/-- The standard output as one text, every line ended by a line feed. -/
def output (r : Report) : String := String.join (r.lines.map (· ++ "\n"))

/-- Put lines in front. -/
def after (lines : List String) (r : Report) : Report := { r with lines := lines ++ r.lines }

end Report

/-- The mark in front of what the program says of its own accord. -/
def tag : String := "[BR] "

def banner : String := tag ++ "brspcom v0.1.0"

/-!
## Verbosity

How much the program says about its own work. At the greatest detail this begins with the command as
it was read.
-/

/-- The level that a verbosity stands for. -/
def level : Nat → Log.Level
  | 0 => .warn
  | 1 => .info
  | 2 => .debug
  | _ => .trace

def logLine (level : Log.Level) (message : String) : String := "[" ++ level.name ++ "] " ++ message

namespace Command

/-- The values that a command was given, by the name of the argument. -/
def values : Command → List (String × List String)
  | .advertisements texts => [("HEX", texts)]
  | .loopback chunk size _ file => [("CHUNK", [chunk]), ("SIZE", [size]), ("FILE", file.toList)]

/-- The values one a line, each quoted. -/
def listing (c : Command) : List String :=
  c.values.flatMap fun (name, values) =>
    ("    " ++ name ++ ": [") :: values.map ("        " ++ Text.quoted · ++ ",") ++ ["    ],"]

/-- What is logged of a command before it is performed. -/
def log (verbosity : Nat) (c : Command) : List String :=
  if level verbosity = .trace then logLine .trace "arguments" :: c.listing else []

end Command

end SerialBridge.Cli
