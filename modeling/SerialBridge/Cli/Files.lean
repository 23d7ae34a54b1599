import SerialBridge.Bytes

/-!
# Files

What a command sees of the files around it, and trees of files in memory, in which a path is
followed name by name.
-/

namespace SerialBridge.Cli

/-- Why a file cannot be read. -/
inductive FileError where
  | notFound
  | notADirectory
  | isDirectory
  | nameTooLong
  | permissionDenied
  | other (text : String)
  deriving DecidableEq, Repr

def FileError.message : FileError → String
  | .notFound => "No such file or directory (os error 2)"
  | .permissionDenied => "Permission denied (os error 13)"
  | .notADirectory => "Not a directory (os error 20)"
  | .isDirectory => "Is a directory (os error 21)"
  | .nameTooLong => "File name too long (os error 36)"
  | .other text => text

/-- The files that a command can see. -/
abbrev Files := String → Except FileError Bytes

inductive FileTree where
  | file (contents : Bytes)
  | directory (entries : List (String × FileTree))

/-- Where a path has led to: what is there, and the directories above it, the innermost first. -/
structure Place where
  node : FileTree
  above : List FileTree := []

namespace Place

/-- No name has more bytes. -/
def nameLimit : Nat := 255

/-- No path has more bytes. -/
def pathLimit : Nat := 4095

def root (p : Place) : Place := { node := p.above.getLastD p.node }

/-- The directory above. The root is above itself. -/
def parent (p : Place) : Place :=
  match p.above with
  | [] => p
  | node :: above => ⟨node, above⟩

/-- One name of a path. Only a directory is gone on from, be it to itself, which is also what the
empty name beside a slash leads to. -/
def follow (p : Place) (name : String) : Except FileError Place :=
  match p.node with
  | .file _ => .error .notADirectory
  | .directory entries =>
    if name = "" ∨ name = "." then .ok p
    else if name = ".." then .ok p.parent
    else if nameLimit < name.utf8ByteSize then .error .nameTooLong
    else
      match entries.lookup name with
      | none => .error .notFound
      | some node => .ok ⟨node, p.node :: p.above⟩

/-- Where a path leads to. It starts at the root if a slash starts it. The empty path leads
nowhere. -/
def find (p : Place) (path : String) : Except FileError Place :=
  if path = "" then .error .notFound
  else if pathLimit < path.utf8ByteSize then .error .nameTooLong
  else
    let start := if path.toList.head? = some '/' then p.root else p
    (path.splitOn "/").foldlM follow start

/-- The files that are seen from a directory. -/
def files (p : Place) : Files := fun path =>
  match p.find path with
  | .ok ⟨.file contents, _⟩ => .ok contents
  | .ok ⟨.directory _, _⟩ => .error .isDirectory
  | .error e => .error e

end Place

end SerialBridge.Cli
