import NativeBindings.CommandLine.Arguments
import NativeBindings.Options

/-!
# What a command line asks for

Read as a whole, a command line asks for the help, for the version, or for a run with its settings.
Of an option that is given more than once the last counts, except for defines, which all count.
Asking for the help goes before everything that might be wrong with values or operands.
-/

namespace NativeBindings.CommandLine

/-- The settings of a run that are not about the generated code. -/
structure Manner where
  quiet : Bool := false
  debug : Bool := false
  toStdout : Bool := false
  stats : Bool := false
  deriving DecidableEq, Repr

/-- What a command line asks for. -/
inductive Request where
  | help
  | version
  | run (manner : Manner) (options : Options) (input directory : String)

/-- Whether an option without a value is given. -/
def isGiven (items : List Item) (f : Flag) : Bool := items.contains (.flag f)

/-- The values given for a setting, in order. -/
def valuesOf (items : List Item) (s : Setting) : List String :=
  items.filterMap fun
    | .setting t value => if t = s then some value else none
    | .flag _ | .operand _ => none

/-- The last value given for a setting, or another one if there is none. -/
def valueOf (items : List Item) (s : Setting) (default : String) : String :=
  (valuesOf items s).getLast?.getD default

/-- The operands, in order. -/
def operands (items : List Item) : List String :=
  items.filterMap fun
    | .operand text => some text
    | .flag _ | .setting _ _ => none

/-- Whether diagnostics are asked for; of the flag and its opposite, the last counts. -/
def debugOf (items : List Item) : Bool :=
  items.foldl (fun on item =>
    match item with
    | .flag .debug => true
    | .flag .noDebug => false
    | _ => on) false

/-- The settings of a run that options without a value make. -/
def mannerOf (items : List Item) : Manner where
  quiet := isGiven items .quiet
  debug := debugOf items
  toStdout := isGiven items .stdout
  stats := isGiven items .stats

/-- The options of a run with the symbols known from the start. -/
def optionsOf (items : List Item) (known : Symbols) : Options :=
  let defaults : Options := {}
  { namespaceName := valueOf items .namespaceName defaults.namespaceName
    nativeClass := valueOf items .nativeClass defaults.nativeClass
    library := valueOf items .library defaults.library
    callingConvention := valueOf items .callingConvention defaults.callingConvention
    filePrefix := valueOf items .filePrefix defaults.filePrefix
    knownDefines := known }

/-- The symbols known from the start: the default ones, unless they are not wanted, and those that
are given. -/
def knownOf (items : List Item) : Except UsageError Symbols := do
  let seeds := if isGiven items .noDefaultDefines then ∅ else defaultKnownDefines
  let given ← (valuesOf items .define).mapM parseDefine
  return seeds.insertMany (given.map fun d => (.text d.1, d.2))

/-- The calling convention is one that can be chosen. -/
def checkConvention (items : List Item) : Except UsageError Unit :=
  match (valuesOf items .callingConvention).getLast? with
  | none => .ok ()
  | some value =>
    if value ∈ callingConventions then .ok () else .error (.unknownConvention value)

/-- There are no operands but the input and the directory. -/
def checkOperands (items : List Item) : Except UsageError Unit :=
  match (operands items).drop 2 with
  | [] => .ok ()
  | extra => .error (.extraOperands extra)

/-- What arguments ask for. -/
def requestOf (arguments : List String) : Except UsageError Request := do
  let items ← readArguments arguments
  if isGiven items .help then return .help
  checkConvention items
  checkOperands items
  if isGiven items .version then return .version
  match operands items with
  | [] => throw .inputMissing
  | input :: rest =>
    let known ← knownOf items
    return .run (mannerOf items) (optionsOf items known) input (rest.head?.getD ".")

end NativeBindings.CommandLine
