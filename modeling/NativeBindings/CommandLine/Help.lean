import NativeBindings.CommandLine.Arguments
import NativeBindings.Options
import NativeBindings.Text.Paragraph

/-!
# The texts of the command line

How the command is used, in short and in full, and which version it is. The help is laid out in
columns: options stand on the left, and what they do in lines on the right, which fill the width
that there is.
-/

namespace NativeBindings.CommandLine

open Text

/-- The version of the program. -/
def version : String := "0.1.0"

/-- Where the command runs: the name it is called by, and the columns that its help may fill. -/
structure Console where
  program : String
  columns : Nat := 78

/-- How the command is used, in one line. -/
def usage (program : String) : String :=
  "Usage: " ++ program ++ " [OPTIONS] [INFILE] [OUTDIR]\n"

/-- What stands between the usage and an error. -/
def usageHint (program : String) : String :=
  usage program ++ "Try '" ++ program ++ " --help' for help.\n\n"

/-- An option as the help shows it. -/
structure HelpEntry where
  /-- The spellings of the option, and what stands for its value. -/
  term : String
  description : String
  /-- The value that the option has if it is not given. -/
  preset : Option String := none

/-- What the help says of the program. -/
def helpParagraphs : List String :=
  ["Generate C# P/Invoke bindings from dear_bindings JSON metadata.",
   "Writes <prefix>.Constants.cs, .Enums.cs, .Structs.cs, .Delegates.cs, .InlineArrays.cs and " ++
     ".Functions.cs into OUTDIR (default: current directory)."]

/-- What the help says of the options. -/
def helpEntries : List HelpEntry :=
  let o : Options := {}
  [{ term := "-v, --version", description := "Print version and exit." },
   { term := "-q, --quiet", description := "Suppress warnings." },
   { term := "--debug / --no-debug", description := "Print every diagnostic to stderr." },
   { term := "--stdout"
     description := "Print documents to stdout instead of writing files." },
   { term := "--stats", description := "Print per-category counts to stderr." },
   { term := "--namespace <ns>"
     description := "Namespace of the generated code."
     preset := some o.namespaceName },
   { term := "--native-class <name>"
     description := "Static class holding constants and imports."
     preset := some o.nativeClass },
   { term := "--library <lib>"
     description := "Native library passed to DllImport."
     preset := some o.library },
   { term := "--calling-convention [" ++ "|".intercalate callingConventions ++ "]"
     description := "Calling convention of imports and delegates."
     preset := some o.callingConvention },
   { term := "--file-prefix <prefix>"
     description := "Prefix of the generated file names."
     preset := some o.filePrefix },
   { term := "-D, --define <name[=value]>"
     description := "Treat symbol as defined before any IR define is read." },
   { term := "--no-default-defines"
     description := "Do not seed the default Dear ImGui symbols." },
   { term := "-h, --help", description := "Show this message and exit." }]

/-- A text in lines that begin after `indent` blanks and fill the columns. -/
def indented (columns indent : Nat) (text : String) : List String :=
  (Paragraph.lines (columns - indent) text.toList).map fun line =>
    String.ofList (Paragraph.blanks indent ++ line)

/-- Where options begin in the help. -/
def termColumn : Nat := 2

/-- The widest option that has its description beside it. -/
def termWidth : Nat := 30

/-- Where descriptions begin in the help. -/
def descriptionColumn : Nat := termColumn + termWidth + 2

/-- The description and the preset of an option. -/
def HelpEntry.text (e : HelpEntry) : String :=
  match e.preset with
  | none => e.description
  | some value => e.description ++ "  [default: " ++ value ++ "]"

/-- The lines of an option. Its description begins beside it, or below it if it is too wide. -/
def HelpEntry.lines (columns : Nat) (e : HelpEntry) : List String :=
  let term := Paragraph.blanks termColumn ++ e.term.toList
  let described := indented columns descriptionColumn e.text
  match described with
  | [] => [String.ofList term]
  | first :: rest =>
    if e.term.length ≤ termWidth then
      String.ofList (term ++ first.toList.drop term.length) :: rest
    else String.ofList term :: described

/-- The lines of the help, after the usage. -/
def helpLines (columns : Nat) : List String :=
  helpParagraphs.flatMap (fun text => indented columns termColumn text ++ [""]) ++
    "Options:" :: helpEntries.flatMap (HelpEntry.lines columns)

/-- The whole help. -/
def help (console : Console) : String :=
  usage console.program ++ "\n" ++ String.join ((helpLines console.columns).map (· ++ "\n"))

end NativeBindings.CommandLine
