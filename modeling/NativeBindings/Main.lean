import NativeBindings.CommandLine.Run

/-!
# The program

Access to the files of the system, and the command with the arguments of the process.
-/

namespace NativeBindings

open Files

/-- The problem that an error of the system stands for. -/
def problemOf (e : IO.Error) : Problem :=
  match e with
  | .noFileOrDirectory _ _ _ | .noSuchThing _ _ _ => .missing
  | .alreadyExists _ _ _ => .present
  | .inappropriateType _ code details =>
    if code.toNat = 20 then .notDirectory
    else if code.toNat = 21 then .isDirectory
    else .other code.toNat details
  | .invalidArgument _ code details =>
    if code.toNat = 36 then .nameTooLong else .other code.toNat details
  | .permissionDenied _ code details => .other code.toNat details
  | e => .other 5 e.toString

/-- The result of an action, or the problem that it met. -/
def attempt {α : Type} (action : IO α) : IO (Except Problem α) := do
  try return .ok (← action)
  catch e => return .error (problemOf e)

/-- The entry of a directory that a path names. -/
def entryOf (path : String) : IO.FS.DirEntry := { root := path, fileName := "" }

/-- The result of an action with a path, if the path has characters only. -/
def attemptAt {α : Type} (path : String) (action : String → IO (Except Problem α)) :
    IO (Except Problem α) :=
  match Text.Utf8.characters path with
  | .error fault => return .error (.noBytes fault)
  | .ok path => action path

/-- The answer to a question about a path. It is no for one that names nothing. -/
def ask (path : String) (question : String → IO Bool) : IO Bool := do
  match ← attemptAt path fun path => attempt (question path) with
  | .ok answer => return answer
  | .error _ => return false

instance : Access IO where
  read path := attemptAt path fun path => attempt do return (← IO.FS.readBinFile path).toList
  isPresent path := ask path fun path => (entryOf path).root.pathExists
  isDirectory path := ask path fun path => (entryOf path).root.isDir
  makeDirectory path := attemptAt path fun path => attempt (IO.FS.createDir path)
  write path text := attemptAt path fun path =>
    match Text.Utf8.characters text with
    | .ok text => attempt (IO.FS.writeFile path text)
    | .error fault => do
      let opened ← attempt (IO.FS.writeFile path "")
      return opened.bind fun _ => .error (.noBytes fault)

/-- Puts a text into a stream, with the numbers of code points for which there are no bytes. -/
def putText (stream : IO.FS.Stream) (text : String) : IO Unit :=
  match Text.Utf8.characters (Text.escapeHalves text) with
  | .ok text => stream.putStr text
  | .error _ => return ()

end NativeBindings

open NativeBindings CommandLine in
/-- Runs the command, prints what it prints, and ends with its status. -/
def main (arguments : List String) : IO UInt32 := do
  let outcome ← run { program := "autocs" } (arguments.map fun a => Text.ofChars a.toList)
  putText (← IO.getStdout) outcome.stdout
  let stderr ← IO.getStderr
  putText stderr outcome.stderr
  match outcome.ending with
  | .status code => return code.toUInt32
  | .escape e =>
    putText stderr (e.message ++ "\n")
    return 1
