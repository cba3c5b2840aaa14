import ShardLoad.Bytes
import ShardLoad.File.Fault

/-!
# Directories and files

A place is the list of names on the way to it from the top, and a tree says what
stands at which place.  The top is always a directory.

A path is text.  It starts at the top if its first character is a slash, and
otherwise at a directory that is given; between its slashes it names the turns to
take.  A turn can only be taken in a directory: `.` and an empty name stay there,
`..` goes up, and any other name goes down.  So `a/` is `a`, but only if `a` is a
directory, and the last name alone may be one that nothing has yet.  Names and
paths are bounded in length.

* `FileTree.find?`: what stands at a place.
* `FileTree.locate`: the place that a path leads to.
* `FileTree.read`, `FileTree.write`, `FileTree.makeDirectories`: what is done with
  files.
-/

namespace ShardLoad

/-- The names on the way from the top to a place. -/
abbrev Place := List String

namespace Place

/-- The path from the top to a place. -/
def path (p : Place) : String := "/" ++ "/".intercalate p

/-- The place that a name leads to from a directory. -/
def child (p : Place) (name : String) : Place := p ++ [name]

/-- The directory that a place lies in; the top lies in itself. -/
def parent (p : Place) : Place := p.dropLast

/-- A place and the directories that it lies in, from the place up to the top. -/
def upwards (p : Place) : List Place :=
  (List.range (p.length + 1)).reverse.map fun n => p.take n

end Place

/-- One turn on the way that a path describes. -/
inductive Turn where
  | stay
  | up
  | down (name : String)
  deriving Repr, DecidableEq

namespace Turn

/-- The turn that a name between slashes stands for. -/
def ofName (name : String) : Turn :=
  if name = "" ∨ name = "." then stay else if name = ".." then up else down name

/-- No name has more octets. -/
def maxNameOctets : Nat := 255

/-- Whether a turn names something that can be there. -/
def fits : Turn → Bool
  | down name => name.utf8ByteSize ≤ maxNameOctets
  | _ => true

/-- Where a turn leads to from a directory. -/
def follow (p : Place) : Turn → Place
  | stay => p
  | up => p.parent
  | down name => p.child name

end Turn

/-- The names between the slashes of a text; `name` is what has been read of the
current one, backwards. -/
def slashed (name : List Char) : List Char → List String
  | [] => [String.ofList name.reverse]
  | '/' :: rest => String.ofList name.reverse :: slashed [] rest
  | c :: rest => slashed (c :: name) rest

/-- The turns that a path names. -/
def turns (path : String) : List Turn := (slashed [] path.toList).map Turn.ofName

/-- Whether a path starts at the top. -/
def startsAtTop (path : String) : Bool := path.toList.head? == some '/'

/-- What stands at a place. -/
inductive Node where
  | directory
  | file (octets : Bytes)
  deriving Repr, DecidableEq

/-- What stands at which place. -/
structure FileTree where
  nodes : List (Place × Node)
  deriving Repr, DecidableEq

namespace FileTree

/-- A tree that is nothing but its top. -/
def empty : FileTree := ⟨[]⟩

/-- What stands at a place. -/
def find? (t : FileTree) (p : Place) : Option Node :=
  if p = [] then some .directory else t.nodes.lookup p

/-- Places with what stands there, after something has been put at a place. -/
def putAt (p : Place) (n : Node) : List (Place × Node) → List (Place × Node)
  | [] => [(p, n)]
  | (q, m) :: rest => if p = q then (p, n) :: rest else (q, m) :: putAt p n rest

/-- The tree with something put at a place. -/
def put (t : FileTree) (p : Place) (n : Node) : FileTree := ⟨putAt p n t.nodes⟩

/-! ## Paths -/

/-- The place that turns lead to; nothing need stand at the last one. -/
def walk (t : FileTree) (p : Place) : List Turn → Except FileFault Place
  | [] => .ok p
  | turn :: rest =>
    match t.find? p with
    | none => .error .notFound
    | some (.file _) => .error .notADirectory
    | some .directory => if turn.fits then walk t (turn.follow p) rest else .error .tooLong

/-- No path has more octets. -/
def maxPathOctets : Nat := 4095

/-- The place that a path leads to from a directory. -/
def locate (t : FileTree) (directory : Place) (path : String) : Except FileFault Place :=
  if path.toList.contains '\x00' then .error .zeroInName
  else if path = "" then .error .notFound
  else if maxPathOctets < path.utf8ByteSize then .error .tooLong
  else t.walk (if startsAtTop path then [] else directory) (turns path)

/-- Whether a path leads to something. -/
def present (t : FileTree) (directory : Place) (path : String) : Bool :=
  match t.locate directory path with
  | .ok p => (t.find? p).isSome
  | .error _ => false

/-! ## Files -/

/-- The octets of the file that a path leads to. -/
def read (t : FileTree) (directory : Place) (path : String) : Except FileFault Bytes := do
  match t.find? (← t.locate directory path) with
  | some (.file octets) => .ok octets
  | some .directory => .error .isADirectory
  | none => .error .notFound

/-- The tree with a file where a path leads to, which may be there already. -/
def write (t : FileTree) (directory : Place) (path : String) (octets : Bytes) :
    Except FileFault FileTree := do
  let p ← t.locate directory path
  match t.find? p with
  | some .directory => .error .isADirectory
  | _ => .ok (t.put p (.file octets))

/-- The tree with a directory at a place. -/
def makeDirectory (t : FileTree) (p : Place) : Except FileFault FileTree :=
  match t.find? p with
  | some .directory => .ok t
  | some (.file _) => .error .notADirectory
  | none => .ok (t.put p .directory)

/-- The tree with a directory at a place, and with all that it lies in. -/
def makePlace (t : FileTree) (p : Place) : Except FileFault FileTree :=
  p.upwards.reverse.foldlM makeDirectory t

/-- The tree with a directory where a path leads to. -/
def makeDirectories (t : FileTree) (directory : Place) (path : String) :
    Except FileFault FileTree :=
  t.makePlace ((turns path).foldl Turn.follow (if startsAtTop path then [] else directory))

/-- The files of a tree. -/
def files (t : FileTree) : List (Place × Bytes) :=
  t.nodes.filterMap fun (p, n) => match n with
    | .file octets => some (p, octets)
    | .directory => none

end FileTree
end ShardLoad
