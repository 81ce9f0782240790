import NativeBindings.Files.Fault
import NativeBindings.Files.Path

/-!
# Access to files

What the program does with files, whatever holds them: reading a file, asking what a path names,
making a directory, and writing a file. Making a directory with all that lead to it is built from
these.
-/

namespace NativeBindings.Files

/-- Access to files from a monad. -/
class Access (m : Type → Type) where
  /-- The bytes of a file. -/
  read : String → m (Except Problem (List UInt8))
  /-- Whether a path names anything. -/
  isPresent : String → m Bool
  /-- Whether a path names a directory. -/
  isDirectory : String → m Bool
  /-- Makes a directory in one that is there. -/
  makeDirectory : String → m (Except Problem Unit)
  /-- Makes a file with a text, in place of one that is there. If there are no bytes for the text,
  the file is left empty. -/
  write : String → String → m (Except Problem Unit)

variable {m : Type → Type} [Monad m] [Access m]

/-- Makes a directory. One that is there already is no fault. -/
def ensureDirectory (path : String) : m (Except Fault Unit) := do
  match ← Access.makeDirectory path with
  | .ok () => return .ok ()
  | .error problem =>
    if ← Access.isDirectory path then return .ok () else return .error ⟨problem, path⟩

/-- Makes a directory and those that lead to it. If something else is in the way further up, making
the directory itself tells. -/
def makeDirectories (path : List Char) : m (Except Fault Unit) := do
  let parts := split path
  let whole := String.ofList path
  if _h : parts.name ≠ [] then
    if parts.parent = [] then ensureDirectory whole
    else if ← Access.isPresent (String.ofList parts.parent) then ensureDirectory whole
    else
      match ← makeDirectories parts.parent with
      | .error fault =>
        if fault.problem = .present then makeLast parts.name whole else return .error fault
      | .ok () => makeLast parts.name whole
  else ensureDirectory whole
termination_by path.length
decreasing_by exact length_parent_lt _h
where
  /-- Makes the last directory, unless its name is that of the directory it is in. -/
  makeLast (name : List Char) (whole : String) : m (Except Fault Unit) :=
    if name = ['.'] then return .ok () else ensureDirectory whole

/-- Writes texts as files into a directory, which is made if it is not there. The result is the
paths written; a fault ends the writing, and the files before it stay. -/
def writeAll (directory : String) (texts : List (String × String)) :
    m (Except Fault (List String)) := do
  match ← makeDirectories directory.toList with
  | .error fault => return .error fault
  | .ok () => writeEach texts
where
  /-- Writes texts into a directory that is there. -/
  writeEach : List (String × String) → m (Except Fault (List String))
    | [] => return .ok []
    | (name, text) :: rest => do
      let path := join directory name
      match ← Access.write path text with
      | .error problem => return .error ⟨problem, path⟩
      | .ok () => return (← writeEach rest).map (path :: ·)

end NativeBindings.Files
