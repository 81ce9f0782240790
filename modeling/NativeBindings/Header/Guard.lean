import NativeBindings.Header.Item
import NativeBindings.Key
import NativeBindings.OrderedMap
import NativeBindings.Text.Blank
import NativeBindings.Text.WordChar

/-!
# Which items the guards let through

An item survives when its guards hold under the symbols known so far. Only one guard is looked at:
the only one there is, or the second of several, the outer one being implied by the structure of
the header. `ifdef` and `ifndef` ask whether a symbol is known; `if` is understood only as a lone
`defined(X)`, and only when it is the only guard. Every other guard fails.
-/

namespace NativeBindings

/-- The symbols known so far, each with its replacement text. -/
abbrev Symbols := OrderedMap Key String

/-- The text of a leaf from which blanks are to be cut. -/
def Leaf.needText : Leaf → Except Misfit String
  | text s => .ok s
  | other v => .error (.text v.kind)

namespace Header

/-- Whether `part` occurs in `s`. -/
def hasInfix (part : List Char) : List Char → Bool
  | [] => part.isEmpty
  | c :: s => part.isPrefixOf (c :: s) || hasInfix part s

/-- The symbol of a text `defined(X)`, blanks around its tokens aside. -/
def definedSymbolChars? (s : List Char) : Option (List Char) := do
  let afterWord ← if "defined".toList.isPrefixOf s then some (s.drop 7) else none
  match afterWord.dropWhile Text.isBlank with
  | '(' :: inner =>
    let inner := inner.dropWhile Text.isBlank
    let symbol := inner.takeWhile Text.isWordChar
    let afterSymbol := (inner.dropWhile Text.isWordChar).dropWhile Text.isBlank
    if !symbol.isEmpty && afterSymbol = [')'] then some symbol else none
  | _ => none

/-- The symbol of a lone `defined(X)`. An expression with a logical operator is none. -/
def definedSymbol? (expression : String) : Option String :=
  let s := Text.stripChars expression.toList
  if hasInfix ['&', '&'] s || hasInfix ['|', '|'] s then none
  else (definedSymbolChars? s).map String.ofList

/-- Whether one guard holds. An `if` counts only where it is `lone`. -/
def Guard.holds (g : Guard) (known : Symbols) (lone : Bool) : Except Misfit Bool := do
  if g.condition = .text "ifdef" then return known.contains (← g.expression.key)
  else if g.condition = .text "ifndef" then return !known.contains (← g.expression.key)
  else if g.condition = .text "if" ∧ lone then
    match definedSymbol? (← g.expression.needText) with
    | some symbol => return known.contains (.text symbol)
    | none => return false
  else return false

/-- Whether an item under these guards, outermost first, is included. -/
def included (known : Symbols) : List Guard → Except Misfit Bool
  | [] => .ok true
  | [g] => g.holds known true
  | _ :: g :: _ => g.holds known false

end Header

end NativeBindings
