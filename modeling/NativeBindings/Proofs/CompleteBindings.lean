import NativeBindings.Proofs.Documents
import NativeBindings.Proofs.Resolution

/-!
# Bindings that are complete

Nothing in a well-typed header keeps its binding from being made. What has no C#
counterpart is refused where it is met and never gets further; the types that are left
are resolved in finitely many turns; and all of the declarations can be written, each
block being closed where it was opened. So there are six documents in the end, in
their order, whatever the shapes of the types and whatever the guards say.
-/

namespace NativeBindings

open Header CSharp Render

/-- A user name is never refused, so a typedef of one need not look out for that. -/
theorem convert_user {name : Leaf} (h : name.IsText) (native : NativeTypes) :
    ∃ type, (convert native (.user name)).result = .ok (.ok type) := by
  obtain ⟨s, rfl⟩ := h.exists
  exact ⟨_, rfl⟩

/-- Nothing is in the way of the binding of a header. -/
structure CompleteBinding (o : Options) (d : Definitions) : Prop where
  /-- A well-typed description is converted, or refused with a cause. -/
  converted : ∀ t : TypeDesc, t.WellTyped → ∃ r, (convert nativeTypes t).result = .ok r
  /-- What a typedef makes its name stand for is not refused if it is a user name. -/
  userTypedefs : ∀ t ∈ d.typedefs, ∀ name, t.type.description = .user name →
    ∃ type, (convert nativeTypes t.type.description).result = .ok (.ok type)
  /-- The turns from every type end, in what the type is resolved to. -/
  resolved : ∀ t, ∃ targets, (aliasesOf o d).Resolves 0 t targets ((aliasesOf o d).resolve t)
  /-- The declarations are built and finished. No document of them meets a declaration that cannot
  be written, or leaves a block open. There are six documents, in their order, and each has the
  text of its rendering. -/
  written : ∃ final docs, finishedOf o d = .ok final ∧
    (∀ which, Completes (document o final which)) ∧ (bindingOf o d).documents = .ok docs ∧
    docs.keys = ["Constants", "Enums", "Structs", "Delegates", "InlineArrays", "Functions"].map
      o.documentName ∧
    docs.entries = Document.all.map (documentEntry o final)

/-- **Without cycles the binding of a well-typed header is complete.** -/
theorem bindingOf_complete {d : Definitions} (h : d.WellTyped) (o : Options)
    (ha : (aliasesOf o d).Acyclic) : CompleteBinding o d := by
  obtain ⟨final, hfinal, hfinished⟩ := finishedOf_finished h o
  refine ⟨fun t ht => ?_, fun t ht name hname => ?_, fun t => ?_, ?_⟩
  · obtain ⟨r, hr, _⟩ := convert_ends ht nativeTypes
    exact ⟨r, hr⟩
  · have hdescription := (h.typedefs t ht).2.1.2
    rw [hname] at hdescription ⊢
    exact convert_user hdescription nativeTypes
  · obtain ⟨targets, _, hturns⟩ := ha.resolves t
    exact ⟨targets, hturns⟩
  · have hdocuments : (bindingOf o d).documents =
        .ok ⟨Document.all.map (documentEntry o final)⟩ := by
      rw [bindingOf_of_finished hfinal, documents_eq hfinished o]
      rfl
    exact ⟨final, _, hfinal, document_completes hfinished o, hdocuments, rfl, rfl⟩

/-- A function pointer without a name, and with nothing in its signature that has a C# type. -/
def awkwardHook : TypeDesc :=
  .named (some "") (.pointer (.function (.unsupported "") [.array .missing none]))

/-- A header in which hardly a type is in order: wrappers and functions in places where none can be,
arrays of arrays, kinds that are not known, types that are missing, and names that are empty. -/
def awkwardHeader : Definitions where
  defines :=
    [{ name := "", content := some "0x", guards := [⟨"elif", "&& ||"⟩] },
      { name := "N", content := some "8u" }]
  enums := [{ name := "_", elements := [{ name := "", value := -1, guards := [⟨"if", ""⟩] }] }]
  typedefs :=
    [{ name := "a", type := { description := .pointer (.user "b") } },
      { name := "b", type := { description := .user "c" } },
      { name := "odd", type := { description := .unsupported "vector" } },
      { name := "lost", type := {} },
      { name := "run", type := { description := .function (.builtin "void") [] } },
      { name := "w", type := { description := .named none (.builtin "int") } }]
  structs :=
    [{ name := "", fields :=
      [{ name := "grid", arrayBounds := some "N",
          type := { description := .array (.array (.builtin "int") (some "2")) none } },
        { name := "", isArray := true, arrayBounds := some "(N",
          type := { description := .user "a" } },
        { name := "hook", type := { description := awkwardHook } }] }]
  functions :=
    [{ name := "f", returnType := some { description := .array (.builtin "char") none },
        arguments :=
          [{ name := "" }, { name := "in", type := some {} },
            { name := "g", type := some { description := .pointer (.function .missing []) } },
            { name := "m", type := some { description := .array (.pointer (.user "a")) none } }] }]

theorem acyclic_awkwardHeader : (aliasesOf {} awkwardHeader).Acyclic := by decide +kernel

theorem bindingOf_complete_awkwardHeader : awkwardHeader.WellTyped ∧
    (aliasesOf {} awkwardHeader).Acyclic ∧ CompleteBinding {} awkwardHeader :=
  ⟨by decide, acyclic_awkwardHeader, bindingOf_complete (by decide) {} acyclic_awkwardHeader⟩

end NativeBindings
