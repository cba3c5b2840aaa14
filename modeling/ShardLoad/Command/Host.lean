import ShardLoad.File.Tree
import ShardLoad.Result.Calendar
import ShardLoad.Run.Engine

/-!
# Where a command runs

A command asks the place it runs in for files, for the time, and for what its
calls go over.  What it asks for is a record of functions in some monad: a
program asks the system, and a tree of files that is given answers just as well,
so that what a command does can be reasoned about.

* `Host`: what a command asks for.
* `FileTree.host`: a host whose files are a tree.
-/

namespace ShardLoad

/-- What a command asks the place it runs in for. -/
structure Host (m : Type → Type) where
  /-- The directory that the command runs in. -/
  directory : Place
  /-- What the environment has under a name. -/
  environment : String → Option String
  /-- Whether the output is read on a terminal. -/
  terminal : Bool
  /-- Whether a path leads to something. -/
  present : String → m Bool
  /-- The octets of the file that a path leads to. -/
  read : String → m (Except FileFault Bytes)
  /-- Puts a file where a path leads to. -/
  write : String → Bytes → m (Except FileFault Unit)
  /-- Makes a directory where a path leads to, and all that it lies in. -/
  makeDirectories : String → m (Except FileFault Unit)
  /-- The time, and the nanoseconds past it. -/
  now : m (Moment × Nat)
  /-- What a run starts from that it does not choose itself. -/
  surroundings : Config → Surroundings

namespace FileTree

/-- Keeps a tree that has come of a change, or the old one if the change failed. -/
def keep : Except FileFault FileTree → StateM FileTree (Except FileFault Unit)
  | .ok t => do
    set t
    return .ok ()
  | .error e => return .error e

/-- A host whose files are a tree, in which it is always the same time. -/
def host (directory : Place) (environment : String → Option String) (time : Moment)
    (surroundings : Config → Surroundings) : Host (StateM FileTree) where
  directory := directory
  environment := environment
  terminal := false
  present path := return (← get).present directory path
  read path := return (← get).read directory path
  write path octets := do keep ((← get).write directory path octets)
  makeDirectories path := do keep ((← get).makeDirectories directory path)
  now := return (time, 0)
  surroundings := surroundings

end FileTree
end ShardLoad
