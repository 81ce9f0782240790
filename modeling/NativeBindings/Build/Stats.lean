import NativeBindings.Build.Verdict
import NativeBindings.OrderedMap

/-!
# Counts of verdicts

For every kind of item: how many there were, and how many were accepted, excluded and dropped. The
kinds are listed in the order in which they were first met. Counts only grow, over all the passes
of a run.
-/

namespace NativeBindings.Build

/-- The kinds of items that are counted. -/
inductive Category where
  | defines
  | enums
  | typedefs
  | structs
  | functions
  deriving DecidableEq, Repr

/-- The word for a kind of items in a summary. -/
def Category.word : Category → String
  | defines => "defines"
  | enums => "enums"
  | typedefs => "typedefs"
  | structs => "structs"
  | functions => "functions"

/-- The counts of one kind of items. -/
structure Counts where
  total : Nat := 0
  accepted : Nat := 0
  excluded : Nat := 0
  dropped : Nat := 0
  deriving DecidableEq, Repr

namespace Counts

/-- Counts one verdict. -/
def tally {α : Type} (c : Counts) : Verdict α → Counts
  | .accepted _ => { c with accepted := c.accepted + 1 }
  | .excluded => { c with excluded := c.excluded + 1 }
  | .dropped => { c with dropped := c.dropped + 1 }

/-- Counts the verdicts on some of `total` items. -/
def add {α : Type} (c : Counts) (total : Nat) (verdicts : List (Verdict α)) : Counts :=
  verdicts.foldl tally { c with total := c.total + total }

/-- The counts in running text. -/
def display (c : Counts) : String :=
  toString c.accepted ++ "/" ++ toString c.total ++ " accepted, " ++ toString c.excluded ++
    " excluded, " ++ toString c.dropped ++ " dropped"

end Counts

/-- The counts of the kinds of items met so far. -/
abbrev Stats := OrderedMap Category Counts

namespace Stats

/-- Counts the verdicts on some of `total` items of a kind. -/
def add {α : Type} (s : Stats) (category : Category) (total : Nat) (verdicts : List (Verdict α)) :
    Stats :=
  s.insert category (((s.get? category).getD {}).add total verdicts)

/-- A line for every kind of items. -/
def summary (s : Stats) : List String :=
  s.entries.map fun e => e.1.word ++ ": " ++ e.2.display

end Stats

end NativeBindings.Build
