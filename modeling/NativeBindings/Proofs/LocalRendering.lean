import NativeBindings.Proofs.Documents

/-!
# Declarations that read the same anywhere

A page holds a level, the lines of the document that is being written, and the documents
before it. Writing a declaration changes the lines only, and those only at their end. So
what a declaration looks like depends on nothing around it but the number of tabs, and the
six documents of any declarations that can be written are these renderings under their
heads.
-/

namespace NativeBindings

open CSharp Render

/-- The rendering is these lines, wherever it stands. -/
structure StandsAnywhere (r : Rendered) (lines : List String) : Prop where
  /-- There is nothing in it that cannot be written. -/
  result : r.result = .ok ()
  /-- On a fresh page it is the lines. -/
  fresh : Page.apply {} r.trace = { lines }
  /-- Under a number of blocks it comes after the lines that were there, each line of it further in
  unless it is empty. The level and the documents written before are as they were. -/
  anywhere : ∀ (p : Page) (n : Nat), p.level = n →
    p.apply r.trace = { p with lines := p.lines ++ lines.map (indented n) }

namespace Render

theorem Writes.standsAnywhere {r : Rendered} {lines : List String} (h : Writes r lines) :
    StandsAnywhere r lines := by
  have hpage : ∀ (p : Page) (n : Nat), p.level = n →
      p.apply r.trace = { p with lines := p.lines ++ lines.map (indented n) } := by
    intro p n hlevel
    have hwritten : Mark.writtenAll p.level r.trace = lines.map (indented n) := by
      rw [hlevel]
      exact h.written n
    rw [Page.apply, h.balanced, hwritten]
  refine ⟨h.result, ?_, hpage⟩
  have hlines : lines.map (indented ((0 : Nat) : Int)) = lines := shifted_zero lines
  have hfresh := hpage {} 0 rfl
  rw [hlines] at hfresh
  exact hfresh

/-- The text of a document is that of its lines. -/
theorem documentEntry_eq {o : Options} {d : DeclarationSet} {which : Document}
    (h : Writes (document o d which) (documentLines o d which)) : documentEntry o d which =
      (o.documentName which.word, "\n".intercalate (documentLines o d which) ++ "\n") := by
  have hwritten : Mark.writtenAll 0 (document o d which).trace = documentLines o d which :=
    (h.written 0).trans (shifted_zero _)
  rw [documentEntry, textOf, hwritten]
  rfl

end Render

/-! ## Declarations in a set -/

namespace CSharp

variable {d : DeclarationSet}

/-- The declaration is in one of the documents, or stands in a struct that is, at any depth. -/
inductive DeclarationSet.Within (d : DeclarationSet) : Declaration → Prop where
  | top {which : Document} {x : Declaration} (h : x ∈ content d which) : d.Within x
  | inner {s : Struct} {x : Declaration} (hs : d.Within (.struct s)) (hx : x ∈ s.inner) : d.Within x

theorem Struct.Renderable.of_mem_inner {s : Struct} (h : s.Renderable) {x : Declaration}
    (hx : x ∈ s.inner) : x.Renderable := by
  obtain ⟨_, hinner⟩ := h
  exact hinner x hx

theorem DeclarationSet.Renderable.of_mem_content (h : d.Renderable) {which : Document}
    {x : Declaration} (hx : x ∈ content d which) : x.Renderable := by
  cases which <;> obtain ⟨a, ha, rfl⟩ := List.mem_map.mp hx
  case constants => exact .constant (h.constants a ha)
  case enums => exact .enum a
  case structs => exact .struct (h.structs a (List.mem_append_left _ ha))
  case delegates => exact .delegate (h.delegates a ha)
  case inlineArrays => exact .struct (h.structs a (List.mem_append_right _ ha))
  case functions => exact .function (h.functions a ha)

theorem DeclarationSet.Within.renderable {x : Declaration} (hx : d.Within x) (h : d.Renderable) :
    x.Renderable := by
  induction hx with
  | top hx => exact h.of_mem_content hx
  | inner _ hx ih =>
      cases ih with
      | struct hs => exact hs.of_mem_inner hx

end CSharp

/-- What is written for declarations. -/
structure RenderedLocally (o : Options) (d : DeclarationSet) : Prop where
  /-- Nothing fails. There are six documents, in their order, and each is its head, followed by the
  lines of its declarations. -/
  documents : Render.documents o d = .ok ⟨Document.all.map fun which =>
    (o.documentName which.word, "\n".intercalate (documentLines o d which) ++ "\n")⟩
  /-- Each of these declarations has the same lines wherever it stands, and so has each that stands
  inside of one. -/
  declarations : ∀ x, d.Within x → StandsAnywhere (declaration x) (declarationLines x)

/-- **Declarations are written where they stand, and read the same anywhere.** It is enough that
what stands in structs are whole declarations, and that every type has a name. -/
theorem renderedLocally {d : DeclarationSet} (h : d.Renderable) (o : Options) :
    RenderedLocally o d where
  documents := by
    have hdocument := document_writes h o
    rw [documents_of_completes fun which => (hdocument which).toCompletes]
    have hentries : documentEntry o d = fun which =>
        (o.documentName which.word, "\n".intercalate (documentLines o d which) ++ "\n") :=
      funext fun which => documentEntry_eq (hdocument which)
    rw [hentries]
  declarations x hx := (declaration_writes (hx.renderable h)).standsAnywhere

/-! ## Structs in structs -/

/-- A struct that holds a declaration of every kind, one of them another struct. -/
def widgetStruct : Struct where
  name := "Widget"
  fields := [
    { name := "id", type := { base := "uint" } },
    { name := "user", type := { base := "unknown", pointers := 1 },
      annotations := { modifiers := ["public"] } }]
  inner := [
    .constant { name := "Size", type := { base := "int" }, value := "8" },
    .enum {
      name := "Mode"
      values := [{ name := "Off", value := "0" }, { name := "On", value := "1" }] },
    .struct {
      name := "Slot"
      inner := [.delegate { name := "Fill", returnType := { base := "void" } }] },
    .function { name := "Reset", returnType := { base := "void" }
                arguments := [{ name := "all", type := { base := "bool" } }] }]

/-- A widget and an enum with an attribute. -/
def widgetDeclarations : DeclarationSet where
  enums := [{ name := "Flags", annotations := { attributes := ["Flags"] } }]
  structs := [widgetStruct]

theorem renderable_widgetStruct : widgetStruct.Renderable := by
  have hwritable : ∀ (s : String) (n : Nat), CsType.Writable ⟨.text s, n⟩ := fun s _ => ⟨s, rfl⟩
  refine .intro ?_ ?_
  · simpa using ⟨hwritable _ _, hwritable _ _⟩
  · intro i hi
    simp only [List.mem_cons, List.not_mem_nil, or_false] at hi
    rcases hi with rfl | rfl | rfl | rfl
    · exact .constant (hwritable _ _)
    · exact .enum _
    · refine .struct (.intro (by simp) ?_)
      intro i hi
      obtain rfl := List.mem_singleton.mp hi
      exact .delegate ⟨hwritable _ _, by simp⟩
    · exact .function ⟨hwritable _ _, by simpa using hwritable _ _⟩

theorem renderedLocally_widgetDeclarations :
    widgetDeclarations.Renderable ∧ RenderedLocally {} widgetDeclarations := by
  have hrenderable : widgetDeclarations.Renderable :=
    { constants := by simp [widgetDeclarations]
      structs := by simpa [widgetDeclarations] using renderable_widgetStruct
      delegates := by simp [widgetDeclarations]
      functions := by simp [widgetDeclarations] }
  exact ⟨hrenderable, renderedLocally hrenderable {}⟩

-- the braces of a struct stand where the struct stands, and empty lines stay empty
example : structLines widgetStruct = [
    "struct Widget", "\x7b",
    "\tint Size = 8;", "",
    "\tenum Mode", "\t\x7b", "\t\tOff = 0,", "", "\t\tOn = 1,", "\t\x7d", "",
    "\tstruct Slot", "\t\x7b", "\t\tdelegate void Fill();", "\t\x7d", "",
    "\tvoid Reset(bool all);", "",
    "\tuint id;", "",
    "\t// unresolved: public unknown* user;", "\x7d"] := by decide +kernel

end NativeBindings
