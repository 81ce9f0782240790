import NativeBindings.Aliases
import NativeBindings.Binding
import NativeBindings.Build.Builder
import NativeBindings.Build.Declarations
import NativeBindings.Build.Defines
import NativeBindings.Build.Delegates
import NativeBindings.Build.Enums
import NativeBindings.Build.Functions
import NativeBindings.Build.Stats
import NativeBindings.Build.Structs
import NativeBindings.Build.Typedefs
import NativeBindings.Build.Verdict
import NativeBindings.CSharp.Builtin
import NativeBindings.CSharp.Declaration
import NativeBindings.CSharp.DocComment
import NativeBindings.CSharp.Keyword
import NativeBindings.CSharp.Literal
import NativeBindings.CSharp.Type
import NativeBindings.CommandLine.Arguments
import NativeBindings.CommandLine.Help
import NativeBindings.CommandLine.Request
import NativeBindings.CommandLine.Run
import NativeBindings.Conversion
import NativeBindings.Decimal.Binary64
import NativeBindings.Decimal.Shortest
import NativeBindings.Files.Access
import NativeBindings.Files.Fault
import NativeBindings.Files.Path
import NativeBindings.Files.Tree
import NativeBindings.Finish.Bound
import NativeBindings.Finish.Declarations
import NativeBindings.Finish.Layout
import NativeBindings.Finish.Signature
import NativeBindings.Generate
import NativeBindings.Header.Guard
import NativeBindings.Header.Item
import NativeBindings.Header.Load
import NativeBindings.Header.Reader
import NativeBindings.Header.TypeDesc
import NativeBindings.Json.Basic
import NativeBindings.Json.Display
import NativeBindings.Json.Parser
import NativeBindings.Key
import NativeBindings.Leaf
import NativeBindings.Main
import NativeBindings.Message
import NativeBindings.Misfit
import NativeBindings.Notice
import NativeBindings.Options
import NativeBindings.OrderedMap
import NativeBindings.Proofs.AcceptanceRule
import NativeBindings.Proofs.AcceptedPart
import NativeBindings.Proofs.AddedAnnotations
import NativeBindings.Proofs.AliasConstants
import NativeBindings.Proofs.Aliases
import NativeBindings.Proofs.ArrayBounds
import NativeBindings.Proofs.ArrayLayout
import NativeBindings.Proofs.Built
import NativeBindings.Proofs.BuiltinTypes
import NativeBindings.Proofs.CommentText
import NativeBindings.Proofs.CompleteBindings
import NativeBindings.Proofs.ControlSequences
import NativeBindings.Proofs.Conversion
import NativeBindings.Proofs.ConvertedShapes
import NativeBindings.Proofs.Counts
import NativeBindings.Proofs.DefineOrder
import NativeBindings.Proofs.DefineTurns
import NativeBindings.Proofs.DefinedSymbols
import NativeBindings.Proofs.Defines
import NativeBindings.Proofs.DelegateNames
import NativeBindings.Proofs.DelegateReferences
import NativeBindings.Proofs.DocumentSources
import NativeBindings.Proofs.Documents
import NativeBindings.Proofs.EncodedTexts
import NativeBindings.Proofs.Encoding
import NativeBindings.Proofs.EnumConstants
import NativeBindings.Proofs.FilePaths
import NativeBindings.Proofs.FileWrites
import NativeBindings.Proofs.Finished
import NativeBindings.Proofs.FinishedAgain
import NativeBindings.Proofs.GeneratedFiles
import NativeBindings.Proofs.Guards
import NativeBindings.Proofs.HoistedDelegates
import NativeBindings.Proofs.KnownSymbols
import NativeBindings.Proofs.Literals
import NativeBindings.Proofs.Loading
import NativeBindings.Proofs.LocalRendering
import NativeBindings.Proofs.Modifiers
import NativeBindings.Proofs.MoreSymbols
import NativeBindings.Proofs.NothingLost
import NativeBindings.Proofs.NumericConstants
import NativeBindings.Proofs.OrderedMap
import NativeBindings.Proofs.OutputRoutes
import NativeBindings.Proofs.PageSessions
import NativeBindings.Proofs.ParameterNames
import NativeBindings.Proofs.Placeholders
import NativeBindings.Proofs.ReadingNeeds
import NativeBindings.Proofs.Resolution
import NativeBindings.Proofs.SeededSymbols
import NativeBindings.Proofs.StringConstants
import NativeBindings.Proofs.StringLiterals
import NativeBindings.Proofs.Traced
import NativeBindings.Proofs.TypeNotes
import NativeBindings.Proofs.TypePlaces
import NativeBindings.Proofs.TypedefOrder
import NativeBindings.Proofs.VariadicLists
import NativeBindings.Proofs.Verdicts
import NativeBindings.Proofs.WellTyped
import NativeBindings.Proofs.WrapperNames
import NativeBindings.Render.Declaration
import NativeBindings.Render.Documents
import NativeBindings.Render.Page
import NativeBindings.Text.Blank
import NativeBindings.Text.CodePoint
import NativeBindings.Text.CodePoint
import NativeBindings.Text.CodeRange
import NativeBindings.Text.ControlSequence
import NativeBindings.Text.DecimalDigit
import NativeBindings.Text.Lines
import NativeBindings.Text.Numeral
import NativeBindings.Text.Paragraph
import NativeBindings.Text.Printable
import NativeBindings.Text.Quoted
import NativeBindings.Text.Similarity
import NativeBindings.Text.Utf8
import NativeBindings.Text.WordChar
import NativeBindings.Traced
import NativeBindings.Unconvertible
