import NativeBindings.Text.Utf8

/-!
# What goes wrong with files

A fault names the problem and the path as the program was given it or made it. The file system is
not even asked about a path with a null character, and neither about a path or a text for which
there are no bytes; the faults of these name no path.
-/

namespace NativeBindings.Files

/-- What is wrong with a path. The last case is for problems that a real file system may have
besides those that follow from the files alone. -/
inductive Problem where
  | missing
  | present
  | notDirectory
  | isDirectory
  | nameTooLong
  /-- The text is no path: it holds a null character. -/
  | noPath
  /-- There are no bytes for a path, or for what is to be written. -/
  | noBytes (fault : Text.Utf8.EncodeFault)
  | other (code : Nat) (text : String)
  deriving DecidableEq, Repr

/-- Whether the file system itself finds the problem. -/
def Problem.isOfSystem : Problem → Bool
  | noPath | noBytes _ => false
  | _ => true

/-- The number of a problem of the file system. Others have none. -/
def Problem.code : Problem → Nat
  | missing => 2
  | present => 17
  | notDirectory => 20
  | isDirectory => 21
  | nameTooLong => 36
  | noPath | noBytes _ => 0
  | other code _ => code

/-- What is said about a problem. -/
def Problem.text : Problem → String
  | missing => "No such file or directory"
  | present => "File exists"
  | notDirectory => "Not a directory"
  | isDirectory => "Is a directory"
  | nameTooLong => "File name too long"
  | noPath => "embedded null byte"
  | noBytes fault => fault.message
  | other _ text => text

/-- A problem, and the path that it was found at. -/
structure Fault where
  problem : Problem
  path : String
  deriving DecidableEq, Repr

/-- A fault in full. Only one of the file system comes with its number and its path. -/
def Fault.message (f : Fault) : String :=
  if f.problem.isOfSystem then
    "[Errno " ++ toString f.problem.code ++ "] " ++ f.problem.text ++ ": " ++ Text.quoted f.path
  else f.problem.text

end NativeBindings.Files
