import Prewarm.Sleeper.Options
import Prewarm.Text.Split

/-!
# Where a copy lands

A copy can be left at a path if the directory the path is in exists, the path is not itself that of
a directory, and neither a name in it nor the whole is too long.
-/

namespace Prewarm.Sleeper

/-- A path: whether it begins at the root, and its parts. -/
structure Path where
  isAbsolute : Bool
  parts : List String
  deriving DecidableEq, Repr

/-- The path that a text writes. -/
def Path.ofText (s : String) : Path where
  isAbsolute := s.toList.head? == some '/'
  parts := ((Text.parts '/' s.toList).filter (fun p => p ≠ [] && p ≠ ['.'])).map String.ofList

/-- Whether a text can only write the path of a directory. -/
def endsAsDirectory (s : String) : Bool :=
  match (Text.parts '/' s.toList).getLast? with
  | some p => p == [] || p == ['.'] || p == ['.', '.']
  | none => true

/-- The most octets that a name takes. -/
def nameLimit : Nat := 255

/-- The most octets that a path takes. -/
def pathLimit : Nat := 4095

/-- Whether a path is short enough to be used. -/
def fits (s : String) : Bool :=
  s.utf8ByteSize ≤ pathLimit && (Path.ofText s).parts.all (·.utf8ByteSize ≤ nameLimit)

/-- The exit code of the program when it copies itself to a path. -/
def copyExitCode (isDirectory : Path → Bool) (destination : String) : Nat :=
  let path := Path.ofText destination
  if !fits destination || endsAsDirectory destination || isDirectory path then 1
  else if isDirectory { path with parts := path.parts.dropLast } then 0
  else 1

end Prewarm.Sleeper
