import NativeBindings.Text.Blank
import NativeBindings.Text.CodePoint
import NativeBindings.Text.Quoted
import NativeBindings.Text.Similarity

/-!
# Reading the command line

Arguments are options and operands, in any order. A long option has its value after an equals sign
or in the next argument; short options can be joined, and the first one with a value takes the rest
of the argument, or the next one. Two dashes end the options. What the arguments mean together is
decided once all of them are read.
-/

namespace NativeBindings.CommandLine

/-- Options without a value. -/
inductive Flag where
  | version
  | quiet
  | debug
  | noDebug
  | stdout
  | stats
  | noDefaultDefines
  | help
  deriving DecidableEq, Repr

/-- Options with a value. -/
inductive Setting where
  | namespaceName
  | nativeClass
  | library
  | callingConvention
  | filePrefix
  | define
  deriving DecidableEq, Repr

/-- What an option is. -/
inductive OptionKind where
  | flag (f : Flag)
  | setting (s : Setting)
  deriving DecidableEq, Repr

/-- The options by their long names. -/
def longOptions : List (String × OptionKind) :=
  [("--version", .flag .version), ("--quiet", .flag .quiet), ("--debug", .flag .debug),
   ("--no-debug", .flag .noDebug), ("--stdout", .flag .stdout), ("--stats", .flag .stats),
   ("--namespace", .setting .namespaceName), ("--native-class", .setting .nativeClass),
   ("--library", .setting .library), ("--calling-convention", .setting .callingConvention),
   ("--file-prefix", .setting .filePrefix), ("--define", .setting .define),
   ("--no-default-defines", .flag .noDefaultDefines), ("--help", .flag .help)]

/-- The options that have a letter. -/
def shortOptions : List (Char × OptionKind) :=
  [('v', .flag .version), ('q', .flag .quiet), ('D', .setting .define), ('h', .flag .help)]

/-- The calling conventions that can be chosen. -/
def callingConventions : List String := ["Cdecl", "StdCall", "ThisCall", "FastCall", "Winapi"]

/-- What is wrong with a command line. -/
inductive UsageError where
  /-- There is no such option; `meant` are the options that may have been meant. -/
  | noSuchOption (name : String) (meant : List String)
  | valueMissing (name : String)
  | valueUnwanted (name : String)
  | unknownConvention (value : String)
  | extraOperands (operands : List String)
  | invalidDefine (text : String)
  | inputMissing
  deriving DecidableEq, Repr

namespace UsageError

/-- The question that follows an unknown option. -/
def question : List String → String
  | [] => ""
  | [name] => " Did you mean " ++ Text.quoted name ++ "?"
  | names => " (Did you mean one of: " ++ ", ".intercalate (names.map Text.quoted) ++ "?)"

/-- What a user is told about the command line. -/
def message : UsageError → String
  | noSuchOption name meant => "No such option " ++ Text.quoted name ++ "." ++ question meant
  | valueMissing name => "Option " ++ Text.quoted name ++ " requires an argument."
  | valueUnwanted name => "Option " ++ Text.quoted name ++ " does not take a value."
  | unknownConvention value =>
    "Invalid value for '--calling-convention': " ++ Text.quoted value ++ " is not one of " ++
      ", ".intercalate (callingConventions.map Text.quoted) ++ "."
  | extraOperands operands =>
    "Got unexpected extra argument" ++ (if operands.length = 1 then "" else "s") ++ " (" ++
      " ".intercalate operands ++ ")"
  | invalidDefine text =>
    "Invalid value for '--define': Invalid define " ++ Text.quoted text
  | inputMissing => "Missing argument 'INFILE'."

/-- Whether the error comes with a reminder of the usage. -/
def remindsOfUsage : UsageError → Bool
  | valueMissing _ | valueUnwanted _ | inputMissing => false
  | _ => true

end UsageError

/-- One thing that the command line says. -/
inductive Item where
  | flag (f : Flag)
  | setting (s : Setting) (value : String)
  | operand (text : String)
  deriving DecidableEq, Repr

/-- What an argument says, and the option whose value is the next argument, if there is one. -/
structure Reading where
  items : List Item := []
  pending : Option (Setting × String) := none
  deriving DecidableEq, Repr

/-- Reads a long option; the value after the equals sign is `explicit`. -/
def readLong (name : String) (explicit : Option String) : Except UsageError Reading :=
  match longOptions.lookup name, explicit with
  | none, _ => .error (.noSuchOption name (Text.suggestions name (longOptions.map (·.1))))
  | some (.flag f), none => .ok { items := [.flag f] }
  | some (.flag _), some _ => .error (.valueUnwanted name)
  | some (.setting s), none => .ok { pending := some (s, name) }
  | some (.setting s), some value => .ok { items := [.setting s value] }

/-- Reads short options that are joined. -/
def readShort : List Char → Except UsageError Reading
  | [] => .ok {}
  | c :: rest =>
    let name := Text.ofCodePoints (.char '-' :: (Text.pointsOf (c :: rest)).take 1)
    match shortOptions.lookup c with
    | none => .error (.noSuchOption name [])
    | some (.flag f) => do
      let later ← readShort rest
      return { later with items := .flag f :: later.items }
    | some (.setting s) =>
      if rest.isEmpty then .ok { pending := some (s, name) }
      else .ok { items := [.setting s (String.ofList rest)] }

/-- Reads an argument that is an option. -/
def readOption (argument : List Char) : Except UsageError Reading :=
  match argument with
  | '-' :: '-' :: _ =>
    let name := String.ofList (argument.takeWhile (· ≠ '='))
    match argument.dropWhile (· ≠ '=') with
    | [] => readLong name none
    | _ :: value => readLong name (some (String.ofList value))
  | _ => readShort argument.tail

/-- Reads all arguments. What comes after two dashes is an operand, and so is a single dash. -/
def readArguments : List String → Except UsageError (List Item)
  | [] => .ok []
  | argument :: rest =>
    match argument.toList with
    | ['-', '-'] => .ok (rest.map .operand)
    | '-' :: c :: more => do
      let reading ← readOption ('-' :: c :: more)
      match reading.pending with
      | none => return reading.items ++ (← readArguments rest)
      | some (s, name) =>
        match rest with
        | [] => throw (.valueMissing name)
        | value :: rest => return reading.items ++ .setting s value :: (← readArguments rest)
    | _ => return .operand argument :: (← readArguments rest)

/-- The symbol and the text that a define option gives. -/
def parseDefine (text : String) : Except UsageError (String × String) :=
  let name := Text.stripChars (text.toList.takeWhile (· ≠ '='))
  let value := (text.toList.dropWhile (· ≠ '=')).drop 1
  if name.isEmpty then .error (.invalidDefine text)
  else .ok (String.ofList name, String.ofList value)

end NativeBindings.CommandLine
