import AbilityScript.Text.Basic

/-!
# Files

What a command needs of the files around it: to read one by its name and to write one. A command does
not depend on where they are. Here they are a directory that is a value, so that a command is a
function of the files it finds.

## Main definitions

* `FileAccess`: reading and writing in a monad.
* `Directory`: files by their paths, with `Directory.read`, `Directory.write` and
  `Directory.access`.
-/

set_option autoImplicit false

namespace AbilityScript

/-- Why a file cannot be read or written. -/
inductive FileError where
  /-- There is no such file, or no directory to hold it. -/
  | missing
  | refused (reason : String)
deriving DecidableEq, Repr

namespace FileError

/-- The text of an error. -/
def message : FileError → String
  | .missing => "No such file or directory (os error 2)"
  | .refused reason => reason

end FileError

/-- Reading and writing files by their names. -/
structure FileAccess (m : Type → Type) where
  read : Text → m (Except FileError Bytes)
  /-- Makes data the contents of a file, which need not exist before. -/
  write : Text → Bytes → m (Except FileError Unit)

/-- The names of the directories that lead to a file, and its own. -/
abbrev Path := List Text

namespace Path

/-- The parts of a name between its slashes. -/
def parts (part : Text) : Text → List Text
  | [] => [part.reverse]
  | '/' :: t => part.reverse :: parts [] t
  | c :: t => parts (c :: part) t

/-- Whether a part of a name leads nowhere else. -/
def isIdle (part : Text) : Bool :=
  part = [] || part = ['.']

/-- The path that a name means from inside a directory. Names that begin or end with a slash mean no
file in it. -/
def ofName? (name : Text) : Option Path :=
  match parts [] name with
  | [] :: _ => none
  | ps =>
    if ps.getLast?.any isIdle then none
    else some (ps.filter fun p => !isIdle p)

/-- The name that means a path: its parts with slashes between them. -/
def name (p : Path) : Text :=
  ['/'].intercalate p

end Path

/-- Files by their paths. Directories inside it are there as long as they hold a file. -/
structure Directory where
  files : List (Path × Bytes) := []
deriving DecidableEq, Repr

namespace Directory

/-- The contents of the file at a path. -/
def get? (d : Directory) (p : Path) : Option Bytes :=
  d.files.lookup p

/-- Makes data the contents of the file at a path. -/
def put (d : Directory) (p : Path) (bs : Bytes) : Directory where
  files := d.files.filter (fun f => f.1 ≠ p) ++ [(p, bs)]

/-- Whether a directory inside is there. -/
def holds (d : Directory) (dir : Path) : Bool :=
  dir.isEmpty || d.files.any fun f => dir.length < f.1.length && dir.isPrefixOf f.1

/-- The contents of a file. -/
def read (d : Directory) (name : Text) : Except FileError Bytes :=
  match (Path.ofName? name).bind d.get? with
  | some bs => .ok bs
  | none => .error .missing

/-- The directory after a file is written, if there is a directory to hold it. -/
def write (d : Directory) (name : Text) (bs : Bytes) : Except FileError Directory :=
  match Path.ofName? name with
  | some p => if d.holds p.dropLast then .ok (d.put p bs) else .error .missing
  | none => .error .missing

/-- Files in a directory that is the state of a computation. -/
def access : FileAccess (StateM Directory) where
  read name := do return (← get).read name
  write name bs := do
    match (← get).write name bs with
    | .ok d =>
      set d
      return .ok ()
    | .error e => return .error e

/-- The files of a directory that are not in an earlier one with the same contents. -/
def changes (earlier later : Directory) : List (Path × Bytes) :=
  later.files.filter fun f => earlier.get? f.1 ≠ some f.2

end Directory

end AbilityScript
