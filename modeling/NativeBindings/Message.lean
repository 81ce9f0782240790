import NativeBindings.Text.ControlSequence
import NativeBindings.Text.Quoted

/-!
# Messages of a run

A run reports its progress and warns of what it left out or changed. Every message is kept; which
of them are printed is up to whoever listens. They are printed without control sequences.
-/

namespace NativeBindings

/-- A text as the error channel shows it: without control sequences, and as far as there are no
bytes for it, with the numbers of its code points. -/
def Text.told (s : String) : String := escapeHalves (plain s)

/-- A message: progress, or a warning. -/
structure Message where
  isWarning : Bool
  text : String
  deriving DecidableEq, Repr

namespace Message

/-- A message about progress. -/
def progress (text : String) : Message := ⟨false, text⟩

/-- A message about something left out or changed. -/
def warning (text : String) : Message := ⟨true, text⟩

/-- The message that a part of the work begins. -/
def announce (title : String) : Message := progress ("--- " ++ title ++ " ---")

end Message

/-- Who listens: to everything, to warnings alone, or to nothing. -/
structure Listener where
  everything : Bool := false
  warnings : Bool := false

/-- The line that a listener prints for a message. -/
def Listener.line? (l : Listener) (m : Message) : Option String :=
  if l.everything then some ("[autocs] " ++ Text.told m.text)
  else if m.isWarning && l.warnings then some ("Warning: " ++ Text.told m.text)
  else none

/-- Everything that a listener prints for some messages. -/
def Listener.print (l : Listener) (ms : List Message) : String :=
  String.join ((ms.filterMap l.line?).map (· ++ "\n"))

end NativeBindings
