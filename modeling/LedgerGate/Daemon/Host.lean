/-
  The machine on which the daemon runs: the variables of its environment and the
  files that are known to be there.

  A path is followed name by name, from the root or from the directory in which the
  daemon was started. Directories can be entered, files cannot.

  * `Host.text?`: the text of the file at a path;
  * `Host.directory?`: where a path leads that can be made a directory.
-/
namespace LedgerGate

/-! ## Positions -/

/-- A position among the files: the names on the way from the root or, if it is not
    rooted, from the directory of the daemon. -/
structure Position where
  rooted : Bool
  names : List String
  deriving DecidableEq, Repr

namespace Position

/-- One level up; there is nothing above the root. -/
def up (p : Position) : Position :=
  if p.rooted then { p with names := p.names.dropLast }
  else if p.names.isEmpty || p.names.getLast? == some ".." then
    { p with names := p.names ++ [".."] }
  else { p with names := p.names.dropLast }

/-- One name further; no name and a point stay where they are. -/
def step (p : Position) (name : String) : Position :=
  if name = "" ∨ name = "." then p
  else if name = ".." then p.up
  else { p with names := p.names ++ [name] }

/-- Follows some names; every position that is left must be one that may be entered. -/
def follow (mayEnter : Position → Bool) (p : Position) : List String → Option Position
  | [] => some p
  | name :: names => if mayEnter p then follow mayEnter (p.step name) names else none

/-- Follows a path from where it starts. A path is not empty, has no null character, and
    has at most 4095 bytes. -/
def ofPath? (mayEnter : Position → Bool) (path : String) : Option Position :=
  if path.isEmpty || path.contains '\x00' || 4095 < path.utf8ByteSize then none
  else
    match path.splitOn "/" with
    | "" :: names => follow mayEnter ⟨true, []⟩ names
    | names => follow mayEnter ⟨false, []⟩ names

/-- Whether something can have the names of a position: none is longer than 255 bytes. -/
def isNameable (p : Position) : Bool := p.names.all (·.utf8ByteSize ≤ 255)

end Position

/-! ## Hosts -/

/-- The values of variables, and the texts of files. -/
structure Host where
  env : String → Option String
  files : List (Position × String)

namespace Host

def isFile (h : Host) (p : Position) : Bool := h.files.any (·.1 == p)

/-- Whether a position is a directory: one where paths start, or one on the way to a
    file. -/
def isDirectory (h : Host) (p : Position) : Bool :=
  p.names.isEmpty || h.files.any fun (f, _) =>
    f != p && f.rooted == p.rooted && p.names.isPrefixOf f.names

/-- The text of the file at a path. -/
def text? (h : Host) (path : String) : Option String :=
  (Position.ofPath? h.isDirectory path).bind fun p => (h.files.find? (·.1 == p)).map (·.2)

/-- Where a path leads that is a directory or can be made one: not through a file and
    not to one. -/
def directory? (h : Host) (path : String) : Option Position :=
  (Position.ofPath? (fun p => !h.isFile p) path).filter fun p => !h.isFile p && p.isNameable

end Host

end LedgerGate
