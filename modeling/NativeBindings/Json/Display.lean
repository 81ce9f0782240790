import NativeBindings.Decimal.Shortest
import NativeBindings.Json.Basic
import NativeBindings.Text.Quoted

/-!
# JSON values in messages

A message that names a stray value shows it as a literal: `None`, `True` and `False` for the
constants, numbers in decimal, texts in quotes, arrays in brackets and objects in braces. A text
that stands on its own is shown as it is.
-/

namespace NativeBindings.Json

mutual

/-- A value as a literal. -/
def literal : Json → String
  | null => "None"
  | bool b => if b then "True" else "False"
  | int n => toString n
  | float x => x.render
  | str s => Text.quoted s
  | arr items => "[" ++ ", ".intercalate (literals items) ++ "]"
  | obj members => "\x7b" ++ ", ".intercalate (memberLiterals members) ++ "\x7d"

/-- Values as literals. -/
def literals : List Json → List String
  | [] => []
  | v :: rest => literal v :: literals rest

/-- The members of an object as literals. -/
def memberLiterals : List (String × Json) → List String
  | [] => []
  | (k, v) :: rest => (Text.quoted k ++ ": " ++ literal v) :: memberLiterals rest

end

/-- A value in running text. -/
def display : Json → String
  | str s => s
  | v => literal v

end NativeBindings.Json
