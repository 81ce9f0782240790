import NativeBindings.Files.Access
import NativeBindings.Header.Load
import NativeBindings.Text.Utf8
import NativeBindings.Binding

/-!
# From a file to files

A header description is read from a file, and its binding is written as documents into a directory.
Nothing is written before the description was read in whole and its binding was made.
-/

namespace NativeBindings

open Files

/-- Why no description is read from a file. -/
inductive InputError where
  | unreadable (fault : Fault)
  | undecodable (fault : Text.Utf8.Fault)
  | unloadable (error : Header.LoadError)
  deriving DecidableEq, Repr

namespace InputError

/-- What the error says. -/
def message : InputError → String
  | unreadable fault =>
    if fault.problem.isOfSystem then
      "Cannot read IR document " ++ Text.quoted fault.path ++ ": " ++ fault.message
    else fault.message
  | undecodable fault => fault.message
  | unloadable error => error.message

/-- Whether a user is told about the error: the file is not read, or it holds no description. The
others end the program as they are. -/
def isReported : InputError → Bool
  | unreadable fault => fault.problem.isOfSystem
  | undecodable _ => false
  | unloadable (.item fault) => fault.isMalformedItem
  | unloadable _ => true

end InputError

variable {m : Type → Type} [Monad m] [Access m]

/-- Reads a description from the bytes of a file. -/
def definitionsOfBytes (bytes : List UInt8) : Except InputError Header.Definitions := do
  let text ← (Text.Utf8.decode bytes).mapError .undecodable
  (Header.ofText (Text.unifyLineEnds text)).mapError .unloadable

/-- Reads a description from a file. -/
def loadFile (path : String) : m (Except InputError Header.Definitions) := do
  match ← Access.read path with
  | .error problem => return .error (.unreadable ⟨problem, path⟩)
  | .ok bytes => return definitionsOfBytes bytes

/-- Why nothing is generated, or not everything. -/
inductive GenerateFault where
  | input (error : InputError)
  | binding (fault : BindingFault)
  | output (fault : Fault)

/-- The outcome of generating: what was reported, and the paths written. -/
structure Generated where
  notices : List Notice := []
  paths : Except GenerateFault (List String)

/-- Generates the documents for the description in a file. -/
def generate (path directory : String) (o : Options) : m Generated := do
  match ← loadFile path with
  | .error error => return { paths := .error (.input error) }
  | .ok definitions =>
    let binding := bindingOf o definitions
    match binding.documents with
    | .error fault =>
      return { notices := binding.notices, paths := .error (.binding fault) }
    | .ok documents =>
      let written ← writeAll directory documents.entries
      return { notices := binding.notices, paths := written.mapError .output }

end NativeBindings
