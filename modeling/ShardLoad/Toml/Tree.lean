import ShardLoad.Keyed
import ShardLoad.Toml.Value

/-!
# Growing tables

A document builds one tree of tables line by line.  How a table came to be says
what may still be done with it.

* A table that only lies on the path of some header (`passed`) may get a header
  of its own once.  Dotted keys may run through it, too; from then on it counts as
  made by them.
* A table with a header of its own (`declared`) may get keys below its header
  but none through dotted keys from elsewhere.
* A table made by dotted keys (`dotted`) may get more of them, and tables below
  it may get headers, but not it itself.
* A table or an array written as a value is closed.

An array of tables grows by one with each of its headers; a path through it leads
into its last element.

* `Node`: the tree.
* `declare?`, `append?`, `assign?`: a header, a header of an array, and a key.
* `Node.value`: the tree as a value.
-/

namespace ShardLoad.Toml

/-- How a table came to be. -/
inductive Origin where
  | passed
  | declared
  | dotted
  | closed
  deriving Repr, DecidableEq

/-- A value under construction. -/
inductive Node where
  | scalar (s : Scalar)
  | array (items : List Node)
  /-- An array of tables that headers add to. -/
  | tables (elements : List (List (String × Node)))
  | table (origin : Origin) (members : List (String × Node))
  deriving Repr

namespace Node

mutual
/-- The value that a tree stands for. -/
def value : Node → Value
  | scalar s => .scalar s
  | array items => .array (values items)
  | tables elements => .array (tableValues elements)
  | table _ members => .table (memberValues members)

def values : List Node → List Value
  | [] => []
  | n :: ns => value n :: values ns

def tableValues : List (List (String × Node)) → List Value
  | [] => []
  | m :: ms => .table (memberValues m) :: tableValues ms

def memberValues : List (String × Node) → List (String × Value)
  | [] => []
  | (k, n) :: ms => (k, value n) :: memberValues ms
end

end Node

/-- Changes the table at the end of a path, making the tables on the way that do
not exist yet.  The change is told how the table came to be.  `dotted` says
whether the path is a dotted key rather than a header. -/
def descend? (dotted : Bool) (change : Origin → Keyed Node → Option (Keyed Node)) :
    List String → Origin → Keyed Node → Option (Keyed Node)
  | [], origin, members => change origin members
  | key :: path, _, members =>
    match members.find? key with
    | none => do
      let made := if dotted then Origin.dotted else Origin.passed
      let inner ← descend? dotted change path made []
      some (members.insert key (.table made inner))
    | some (.table origin inner) =>
      if origin = .closed ∨ (dotted ∧ origin = .declared) then none
      else do
        let reached := if dotted then Origin.dotted else origin
        let inner ← descend? dotted change path reached inner
        some (members.insert key (.table reached inner))
    | some (.tables elements) =>
      match elements.reverse with
      | [] => none
      | last :: before => do
        let last ← descend? dotted change path .declared last
        some (members.insert key (.tables (before.reverse ++ [last])))
    | some _ => none

/-- The path and the last key of a key that may be dotted. -/
def splitKey (key : List String) : List String × String := (key.dropLast, key.getLastD "")

/-- Opens the table of a header. -/
def declare? (header : List String) (root : Keyed Node) : Option (Keyed Node) :=
  let (path, key) := splitKey header
  descend? false (fun _ members =>
    match members.find? key with
    | none => some (members.insert key (.table .declared []))
    | some (.table .passed inner) => some (members.insert key (.table .declared inner))
    | some _ => none) path .declared root

/-- Opens the next table of an array of tables. -/
def append? (header : List String) (root : Keyed Node) : Option (Keyed Node) :=
  let (path, key) := splitKey header
  descend? false (fun _ members =>
    match members.find? key with
    | none => some (members.insert key (.tables [[]]))
    | some (.tables elements) => some (members.insert key (.tables (elements ++ [[]])))
    | some _ => none) path .declared root

/-- Gives a key its value in a table.  A plain key goes into a table with a
header, a dotted key into one made by dotted keys. -/
def assign? (key : List String) (node : Node) (origin : Origin) (members : Keyed Node) :
    Option (Keyed Node) :=
  let (path, last) := splitKey key
  descend? true (fun origin members =>
    if (origin == .dotted) == path.isEmpty then none
    else match members.find? last with
      | none => some (members.insert last node)
      | some _ => none) path origin members

/-- Gives a key its value below a header. -/
def assignBelow? (header key : List String) (node : Node) (root : Keyed Node) :
    Option (Keyed Node) :=
  descend? false (assign? key node) header .declared root

end ShardLoad.Toml
