/-!
# Why a file cannot be used

A path may lead nowhere, or through a file as if it were a directory, or to a
directory where a file is wanted.  It may hold a zero character, which no name
has, or be longer than any path.  Octets that are read as text must be UTF-8.

* `FileFault`: the faults.
* `FileFault.message`: their wording.
-/

namespace ShardLoad

/-- Why a file cannot be read or written. -/
inductive FileFault where
  | notFound
  /-- Something on the way to the file is no directory. -/
  | notADirectory
  | isADirectory
  /-- A name on the way, or the whole path, has too many octets. -/
  | tooLong
  | zeroInName
  | notUtf8
  /-- Any other fault, in the words of the system. -/
  | other (text : String)
  deriving Repr, DecidableEq

/-- The wording of a fault. -/
def FileFault.message : FileFault → String
  | notFound => "No such file or directory (os error 2)"
  | notADirectory => "Not a directory (os error 20)"
  | isADirectory => "Is a directory (os error 21)"
  | tooLong => "File name too long (os error 36)"
  | zeroInName => "file name contained an unexpected NUL byte"
  | notUtf8 => "stream did not contain valid UTF-8"
  | other text => text

end ShardLoad
