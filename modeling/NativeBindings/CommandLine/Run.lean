import NativeBindings.CommandLine.Help
import NativeBindings.CommandLine.Request
import NativeBindings.Generate
import NativeBindings.Text.ControlSequence

/-!
# Running the command

A run reads a description, makes its binding, and prints the documents or writes them to files.
What a user can mend is told on the error channel and ends the run with a status; what is left ends
it with the fault itself. So it ends where there are no bytes for a document.
-/

namespace NativeBindings.CommandLine

open Files

/-- A fault that the command does not turn into a status. -/
inductive Escape where
  | input (error : InputError)
  | binding (fault : BindingFault)
  | output (fault : Fault)
  /-- There are no bytes for what is to be printed. -/
  | print (fault : Text.Utf8.EncodeFault)

/-- What the fault says of itself. -/
def Escape.message : Escape → String
  | input error => error.message
  | binding fault => fault.message
  | output fault => fault.message
  | print fault => fault.message

/-- How a run ends. -/
inductive Ending where
  | status (code : Nat)
  | escape (e : Escape)

/-- What a run printed, and how it ended. -/
structure Outcome where
  stdout : String := ""
  stderr : String := ""
  ending : Ending := .status 0

namespace Outcome

/-- A run that ends with an error about its input or output, after what it has told before. -/
def ofError (before message : String) : Outcome :=
  { stderr := before ++ "Error: " ++ Text.told message ++ "\n", ending := .status 1 }

/-- A run that ends with an error about the command line. -/
def ofUsage (program : String) (e : UsageError) : Outcome :=
  { stderr :=
      (if e.remindsOfUsage then usageHint program else "") ++ "Error: " ++ Text.told e.message ++
        "\n"
    ending := .status 2 }

end Outcome

/-- Who listens to a run. -/
def Manner.listener (manner : Manner) : Listener where
  everything := manner.debug && !manner.quiet
  warnings := !manner.quiet

/-- What a run prints for notices. -/
def Manner.print (manner : Manner) (notices : List Notice) : String :=
  manner.listener.print (notices.map Notice.message)

/-- What is printed for documents: for each of them a line with its name, and its text. -/
def printouts (documents : OrderedMap String String) : List String :=
  documents.entries.flatMap fun d => ["// " ++ Text.plain d.1 ++ "\n", Text.plain d.2]

/-- Prints texts one after the other, up to one for which there are no bytes. The result is what was
printed, and whether it was everything. -/
def print : List String → String × Except Text.Utf8.EncodeFault Unit
  | [] => ("", .ok ())
  | text :: rest =>
    match Text.Utf8.encode text with
    | .error fault => ("", .error fault)
    | .ok _ => (text ++ (print rest).1, (print rest).2)

/-- The counts as they are printed, if they are asked for. -/
def Manner.printStats (manner : Manner) (stats : Build.Stats) : String :=
  if manner.stats then String.join (stats.summary.map (· ++ "\n")) else ""

/-- What a run reports first: that the description is loaded, if diagnostics are asked for. -/
def Manner.loadedNotices (manner : Manner) (d : Header.Definitions) : List Notice :=
  if manner.debug then [.loaded d.display] else []

variable {m : Type → Type} [Monad m] [Access m]

/-- Writes the documents of a run; `before` was printed already. -/
def writeDocuments (manner : Manner) (directory before : String) (stats : Build.Stats)
    (documents : OrderedMap String String) : m Outcome := do
  match ← writeAll directory documents.entries with
  | .error fault =>
    if fault.problem.isOfSystem then
      return .ofError before
        ("cannot write output to " ++ Text.quoted directory ++ ": " ++ fault.message)
    else return { stderr := before, ending := .escape (.output fault) }
  | .ok paths =>
    let wrote := if manner.debug then paths.map Notice.wrote else []
    return { stderr := before ++ manner.print wrote ++ manner.printStats stats }

/-- Runs with a description that is loaded. -/
def runLoaded (manner : Manner) (o : Options) (directory : String) (d : Header.Definitions) :
    m Outcome := do
  let binding := bindingOf o d
  let before := manner.print (manner.loadedNotices d ++ binding.notices)
  match binding.documents with
  | .error fault => return { stderr := before, ending := .escape (.binding fault) }
  | .ok documents =>
    if manner.toStdout then
      match print (printouts documents) with
      | (stdout, .error fault) =>
        return { stdout, stderr := before, ending := .escape (.print fault) }
      | (stdout, .ok ()) =>
        return { stdout, stderr := before ++ manner.printStats binding.stats }
    else writeDocuments manner directory before binding.stats documents

/-- Does what is asked for. -/
def fulfil (console : Console) : Request → m Outcome
  | .help => return { stdout := help console }
  | .version => return { stdout := version ++ "\n" }
  | .run manner o input directory => do
    match ← loadFile input with
    | .error error =>
      if error.isReported then return .ofError "" error.message
      else return { ending := .escape (.input error) }
    | .ok d => runLoaded manner o directory d

/-- Runs the command with its arguments. -/
def run (console : Console) (arguments : List String) : m Outcome :=
  match requestOf arguments with
  | .error e => return .ofUsage console.program e
  | .ok request => fulfil console request

end NativeBindings.CommandLine
