import NativeBindings.Proofs.Documents

/-!
# The items that a document comes from

All items of a header go through one table of symbols and one table of aliases, are
finished in one set of declarations and are written on one page. Still a document depends
only on some categories of items: on those that it shows, on the defines, which decide
what guards let through, and on the typedefs if aliases are resolved in it. The enums
matter to structs as well, since the bound of an array may name a number of an enum.

The proof runs two headers side by side and goes from what is built (`BuiltAlike`) over
what is finished (`SameContent`) to the text. At each of these stages one lemma says what
is read there, so nothing else can have an influence.
-/

namespace NativeBindings

open CSharp Build
open Render (Document)

/-! ## Categories -/

/-- The headers have the same items of a category, in the same order. -/
def Header.Definitions.AgreeOn (d d' : Header.Definitions) : Category → Prop
  | .defines => d.defines = d'.defines
  | .enums => d.enums = d'.enums
  | .typedefs => d.typedefs = d'.typedefs
  | .structs => d.structs = d'.structs
  | .functions => d.functions = d'.functions

/-- The categories of the items that a document comes from. -/
def Render.Document.sources : Document → List Category
  | .constants => [.defines, .enums]
  | .enums => [.defines, .enums]
  | .structs => [.defines, .enums, .typedefs, .structs]
  | .delegates => [.defines, .typedefs, .structs, .functions]
  | .inlineArrays => [.defines, .enums, .typedefs, .structs]
  | .functions => [.defines, .typedefs, .functions]

/-- Two headers have all their documents, and the same text in those that are meant. -/
def SameDocuments (o : Options) (d d' : Header.Definitions) (meant : Document → Prop) : Prop :=
  ∃ text text' : Document → String,
    (bindingOf o d).documents = .ok ⟨Document.all.map fun w => (o.documentName w.word, text w)⟩ ∧
    (bindingOf o d').documents = .ok ⟨Document.all.map fun w => (o.documentName w.word, text' w)⟩ ∧
    ∀ w, meant w → text w = text' w

/-! ## What is built -/

/-- The same declarations are built from the items of a category. Aliases are not written, so the
list of them may differ. -/
def BuiltAlike (x y : DeclarationSet) : Category → Prop
  | .defines => x.constants = y.constants
  | .enums => x.enumConstants = y.enumConstants ∧ x.enums = y.enums
  | .typedefs => x.typedefDelegates = y.typedefDelegates
  | .structs => x.structs = y.structs
  | .functions => x.functions = y.functions ∧ x.delegates = y.delegates

variable {d d' : Header.Definitions}

/-- What is built from a category depends on its items, and on the defines for the guards. -/
theorem builtAlike_of_agreeOn (b : Builder) (hdefines : d.AgreeOn d' .defines) {c : Category}
    (h : d.AgreeOn d' c) : BuiltAlike (builtDeclarations b d) (builtDeclarations b d') c := by
  have hknown : d.defines = d'.defines := hdefines
  cases c with
  | defines =>
      show (builtDeclarations b d).constants = (builtDeclarations b d').constants
      rw [builtDeclarations, builtDeclarations, hknown]
  | enums =>
      have henums : d.enums = d'.enums := h
      constructor
      · rw [builtDeclarations, builtDeclarations, hknown, henums]
      · rw [builtDeclarations, builtDeclarations, hknown, henums]
  | typedefs =>
      have htypedefs : d.typedefs = d'.typedefs := h
      show (builtDeclarations b d).typedefDelegates = (builtDeclarations b d').typedefDelegates
      rw [builtDeclarations, builtDeclarations, hknown, htypedefs]
  | structs =>
      have hstructs : d.structs = d'.structs := h
      show (builtDeclarations b d).structs = (builtDeclarations b d').structs
      rw [builtDeclarations, builtDeclarations, hknown, hstructs]
  | functions =>
      have hfunctions : d.functions = d'.functions := h
      constructor
      · rw [builtDeclarations, builtDeclarations, hknown, hfunctions]
      · rw [builtDeclarations, builtDeclarations, hknown, hfunctions]

/-- The aliases come from the typedefs, and from the defines for the guards. -/
theorem aliasesOf_of_agreeOn (h : d.WellTyped) (h' : d'.WellTyped) (o : Options)
    (hdefines : d.AgreeOn d' .defines) (htypedefs : d.AgreeOn d' .typedefs) :
    aliasesOf o d = aliasesOf o d' := by
  have hknown : d.defines = d'.defines := hdefines
  have htypedefs : d.typedefs = d'.typedefs := htypedefs
  rw [aliasesOf_eq h, aliasesOf_eq h', builtAliases, builtAliases, builtDeclarations,
    builtDeclarations, hknown, htypedefs]

/-! ## What is finished -/

namespace Render

/-- The same content for a document. -/
def SameContent (x y : DeclarationSet) : Document → Prop
  | .constants => x.constants = y.constants ∧ x.enumConstants = y.enumConstants
  | .enums => x.enums = y.enums
  | .structs => x.structs = y.structs
  | .delegates => x.delegates = y.delegates
  | .inlineArrays => x.inlineArrays = y.inlineArrays
  | .functions => x.functions = y.functions

/-- A document is rendered from its own content. -/
theorem document_congr (o : Options) {x y : DeclarationSet} {w : Document}
    (h : SameContent x y w) : document o x w = document o y w := by
  cases w with
  | constants =>
      obtain ⟨hconstants, henumConstants⟩ := h
      rw [document, document, body, body, hconstants, henumConstants]
      rfl
  | enums =>
      have henums : x.enums = y.enums := h
      rw [document, document, usings, usings, body, body, henums]
  | structs =>
      have hstructs : x.structs = y.structs := h
      rw [document, document, body, body, hstructs]
      rfl
  | delegates =>
      have hdelegates : x.delegates = y.delegates := h
      rw [document, document, body, body, hdelegates]
      rfl
  | inlineArrays =>
      have harrays : x.inlineArrays = y.inlineArrays := h
      rw [document, document, body, body, harrays]
      rfl
  | functions =>
      have hfunctions : x.functions = y.functions := h
      rw [document, document, body, body, hfunctions]
      rfl

end Render

open Render (SameContent)

/-- Bounds may name the constants of defines and the numbers of enums. -/
theorem boundScope_of_builtAlike {x y : DeclarationSet} (hdefines : BuiltAlike x y .defines)
    (henums : BuiltAlike x y .enums) : Finish.BoundScope.of x = Finish.BoundScope.of y := by
  have hconstants : x.constants = y.constants := hdefines
  obtain ⟨henumConstants, _⟩ := henums
  rw [Finish.BoundScope.of, Finish.BoundScope.of, hconstants, henumConstants]

/-- The content of a document is finished from what is built of its sources. -/
theorem sameContent_of_builtAlike (o : Options) {aliases aliases' : Aliases} {x y : DeclarationSet}
    {w : Document} (h : ∀ c ∈ w.sources, BuiltAlike x y c)
    (haliases : Category.typedefs ∈ w.sources → aliases = aliases') :
    SameContent (Finish.declarations o aliases x) (Finish.declarations o aliases' y) w := by
  cases w with
  | constants =>
      have hconstants : x.constants = y.constants := h .defines (by decide)
      obtain ⟨henumConstants, _⟩ := h .enums (by decide)
      constructor
      · exact congrArg (List.map Finish.constant) hconstants
      · exact congrArg (List.map Finish.constant) henumConstants
  | enums =>
      obtain ⟨_, henums⟩ := h .enums (by decide)
      exact congrArg (List.map Finish.enum) henums
  | structs =>
      have hscope : Finish.BoundScope.of x = Finish.BoundScope.of y :=
        boundScope_of_builtAlike (h .defines (by decide)) (h .enums (by decide))
      have hstructs : x.structs = y.structs := h .structs (by decide)
      show x.structs.map _ = y.structs.map _
      rw [haliases (by decide), hscope, hstructs]
  | delegates =>
      have htypedefs : x.typedefDelegates = y.typedefDelegates := h .typedefs (by decide)
      have hstructs : x.structs = y.structs := h .structs (by decide)
      obtain ⟨_, hdelegates⟩ := h .functions (by decide)
      have hall : Finish.allDelegates x = Finish.allDelegates y := by
        rw [Finish.allDelegates, Finish.allDelegates, htypedefs, hstructs, hdelegates]
      show (Finish.allDelegates x).map _ = (Finish.allDelegates y).map _
      rw [haliases (by decide), hall]
  | inlineArrays =>
      have hscope : Finish.BoundScope.of x = Finish.BoundScope.of y :=
        boundScope_of_builtAlike (h .defines (by decide)) (h .enums (by decide))
      have hstructs : x.structs = y.structs := h .structs (by decide)
      show x.structs.flatMap _ = y.structs.flatMap _
      rw [haliases (by decide), hscope, hstructs]
  | functions =>
      obtain ⟨hfunctions, _⟩ := h .functions (by decide)
      show x.functions.map _ = y.functions.map _
      rw [haliases (by decide), hfunctions]

/-! ## What is written -/

/-- Headers with the same content for some documents have the same text in them. -/
theorem sameDocuments_of_content (h : d.WellTyped) (h' : d'.WellTyped) (o : Options)
    {meant : Document → Prop}
    (hcontent : ∀ w, meant w → SameContent
      (Finish.declarations o (aliasesOf o d) (builtDeclarations (.start o) d))
      (Finish.declarations o (aliasesOf o d') (builtDeclarations (.start o) d')) w) :
    SameDocuments o d d' meant := by
  refine ⟨_, _, documents_of_finished h (finishedOf_eq h o),
    documents_of_finished h' (finishedOf_eq h' o), fun w hw => ?_⟩
  exact congrArg (fun r => Render.textOf r.trace) (Render.document_congr o (hcontent w hw))

/-- **Headers that agree on the sources of a document have the same text in it, whatever their other
items are.** -/
theorem sameDocuments_of_sources (h : d.WellTyped) (h' : d'.WellTyped) (o : Options) :
    SameDocuments o d d' fun w => ∀ c ∈ w.sources, d.AgreeOn d' c := by
  refine sameDocuments_of_content h h' o fun w hagree => ?_
  have hdefines : d.AgreeOn d' .defines := hagree _ (by cases w <;> decide)
  refine sameContent_of_builtAlike o (fun c hc => ?_) fun htypedefs => ?_
  · exact builtAlike_of_agreeOn _ hdefines (hagree c hc)
  · exact aliasesOf_of_agreeOn h h' o hdefines (hagree _ htypedefs)

/-- A header in which a struct has the bound of its array from an enum. -/
def imageHeader : Header.Definitions where
  enums := [{ name := "Size_", elements := [{ name := "Size_Max", value := 4 }] }]
  typedefs := [{ name := "Cell", type := { description := .builtin "int" } }]
  structs := [{ name := "Image", fields :=
    [{ name := "cells", type := { description := .array (.user "Cell") (some "Size_Max") } }] }]
  functions := [{ name := "draw", arguments :=
    [{ name := "cell", type := some { description := .user "Cell" } }] }]

/-- The header with another number in the enum, and with its struct guarded out. -/
def smallerImageHeader : Header.Definitions :=
  { imageHeader with
    enums := [{ name := "Size_", elements := [{ name := "Size_Max", value := 2 }] }]
    structs := [{ name := "Image", guards := [⟨"ifdef", "LARGE"⟩] }] }

theorem sameDocuments_of_sources_imageHeader :
    imageHeader.WellTyped ∧ smallerImageHeader.WellTyped ∧
      (∀ c ∈ Document.functions.sources, imageHeader.AgreeOn smallerImageHeader c) ∧
      SameDocuments {} imageHeader smallerImageHeader fun w =>
        ∀ c ∈ w.sources, imageHeader.AgreeOn smallerImageHeader c := by
  refine ⟨by decide, by decide, fun c hc => ?_, sameDocuments_of_sources (by decide) (by decide) {}⟩
  simp only [Document.sources, List.mem_cons, List.not_mem_nil, or_false] at hc
  rcases hc with rfl | rfl | rfl
  · rfl
  · rfl
  · rfl

end NativeBindings
