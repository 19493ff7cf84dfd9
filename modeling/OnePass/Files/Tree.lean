import OnePass.Files.Access
import OnePass.Text.Lines

/-! # File trees

    A model of a file system without links or permissions.

    A place in the tree is given by the names that lead to it from the root.
    A path is walked name by name: `.` and the empty name stay, `..` goes
    up, and every name that is walked through has to be a directory. -/

namespace OnePass

/-- The names that lead to a place from the root. -/
abbrev Location := List String

/-- What stands at a place. -/
inductive Node where
  | file (content : List UInt8)
  | directory
  deriving DecidableEq, Repr

/-- Files and directories by place.  The root is always a directory. -/
structure FileTree where
  nodes : List (Location × Node) := []
  deriving DecidableEq, Repr

namespace FileTree

/-- What stands at a place, if anything. -/
def node? (t : FileTree) (l : Location) : Option Node :=
  if l = [] then some .directory else t.nodes.lookup l

/-- Put something at a place, in the stead of what was there. -/
def insert (t : FileTree) (l : Location) (n : Node) : FileTree :=
  if t.nodes.any (·.1 == l) then
    ⟨t.nodes.map fun entry => if entry.1 == l then (l, n) else entry⟩
  else
    ⟨t.nodes ++ [(l, n)]⟩

/-- Remove what stands at a place. -/
def erase (t : FileTree) (l : Location) : FileTree :=
  ⟨t.nodes.filter (·.1 != l)⟩

end FileTree

/-! ## Walking -/

/-- One step of a walk. -/
def Location.step (l : Location) (name : String) : Location :=
  if name = "" ∨ name = "." then l
  else if name = ".." then l.dropLast
  else l ++ [name]

/-- The names of a path, empty ones included. -/
def pathNames (path : String) : List String :=
  (Text.pieces '/' path.toList).map String.ofList

namespace FileTree

/-- The place must be a directory. -/
def requireDirectory (t : FileTree) (l : Location) : Except FileFault Unit :=
  match t.node? l with
  | some .directory => .ok ()
  | some (.file _)  => .error .notDirectory
  | none            => .error .notFound

/-- Walk through directories only, the last place included. -/
def enter (t : FileTree) (l : Location) : List String → Except FileFault Location
  | []            => (t.requireDirectory l).map fun _ => l
  | name :: names =>
    match t.requireDirectory l with
    | .ok _    => t.enter (l.step name) names
    | .error e => .error e

end FileTree

/-! ## Disks -/

/-- A file tree and the place from which relative paths are walked. -/
structure Disk where
  tree : FileTree := {}
  workingDirectory : Location := []
  deriving DecidableEq, Repr

namespace Disk

/-- Where the walk along a path starts. -/
def start (d : Disk) (path : String) : Location :=
  if path.toList.head? = some '/' then [] else d.workingDirectory

/-- The place that a path leads to; there need not be anything there. -/
def locate (d : Disk) (path : String) : Except FileFault Location :=
  if path = "" then .error .notFound
  else
    let names := pathNames path
    (d.tree.enter (d.start path) names.dropLast).map fun l => l.step (names.getLastD "")

/-- The content of the file that a path leads to. -/
def read (d : Disk) (path : String) : Except FileFault (List UInt8) :=
  match d.locate path with
  | .error e => .error e
  | .ok l    =>
    match d.tree.node? l with
    | some (.file content) => .ok content
    | some .directory      => .error .isDirectory
    | none                 => .error .notFound

/-- Does the path lead to a file? -/
def isFile (d : Disk) (path : String) : Bool :=
  match d.read path with
  | .ok _    => true
  | .error _ => false

/-- The place where a file would be written: a name in an existing directory.
    Paths that end in a slash, `.` or `..` stand for directories. -/
def target (d : Disk) (path : String) : Except FileFault Location :=
  if path = "" then .error .notFound
  else
    let names := pathNames path
    let named := (names.reverse.dropWhile (· == "")).reverse
    match d.tree.enter (d.start path) named.dropLast with
    | .error e => .error e
    | .ok l    =>
      match named.getLast? with
      | none      => .error .isDirectory
      | some name =>
        if name = "." ∨ name = ".." ∨ named.length ≠ names.length then .error .isDirectory
        else match d.tree.node? (l ++ [name]) with
          | some .directory => .error .isDirectory
          | _               => .ok (l ++ [name])

/-- Create or replace the file that a path leads to. -/
def write (d : Disk) (path : String) (content : List UInt8) : Except FileFault Disk :=
  (d.target path).map fun l => { d with tree := d.tree.insert l (.file content) }

/-- Remove the file that a path leads to. -/
def remove (d : Disk) (path : String) : Except FileFault Disk :=
  match d.locate path with
  | .error e => .error e
  | .ok l    =>
    match d.tree.node? l with
    | some (.file _)  => .ok { d with tree := d.tree.erase l }
    | some .directory => .error .isDirectory
    | none            => .error .notFound

/-- Carry out a change of the disk; a refused one changes nothing. -/
def attempt (change : Disk → Except FileFault Disk) : StateM Disk (Except FileFault Unit) :=
  fun d =>
    match change d with
    | .ok d'   => (.ok (), d')
    | .error e => (.error e, d)

instance : FileAccess (StateM Disk) where
  isFile path := fun d => (d.isFile path, d)
  read path := fun d => (d.read path, d)
  write path content := attempt (·.write path content)
  remove path := attempt (·.remove path)

end Disk

end OnePass
