import NativeBindings.Proofs.DelegateReferences

/-!
# Notes about resolved types

When declarations are finished, every type in them is resolved, and what it was before is
noted in the documentation if it was another one. This is so for any declarations, not
only for those that are built from a header, and for chains of aliases of any length.

Nothing else happens to the comments: modifiers and attributes do not touch them, the
comment behind a declaration stays, and where no type changes a missing comment stays
missing. An array field that needs a wrapper is the only one that does not keep its
resolved type, and then the element of the wrapper has it.
-/

namespace NativeBindings

open CSharp

/-! ## Comments of annotations -/

namespace CSharp.Annotations

variable (a : Annotations) (more : List String)

@[simp] theorem precedingComment_addModifiers :
    (a.addModifiers more).precedingComment = a.precedingComment := rfl

@[simp] theorem trailingComment_addModifiers :
    (a.addModifiers more).trailingComment = a.trailingComment := rfl

@[simp] theorem precedingComment_addAttributes :
    (a.addAttributes more).precedingComment = a.precedingComment := rfl

@[simp] theorem trailingComment_addAttributes :
    (a.addAttributes more).trailingComment = a.trailingComment := rfl

@[simp] theorem precedingComment_addCommentLines :
    (a.addCommentLines more).precedingComment = some (a.precedingComment.getD [] ++ more) := rfl

@[simp] theorem trailingComment_addCommentLines :
    (a.addCommentLines more).trailingComment = a.trailingComment := rfl

end CSharp.Annotations

namespace Finish

variable {aliases : Aliases}

/-- A comment with notes behind it. Without notes it stays as it was, missing or not. -/
def withNotes (comment : Option (List String)) (notes : List String) : Option (List String) :=
  if notes = [] then comment else some (comment.getD [] ++ notes)

@[simp] theorem withNotes_nil (comment : Option (List String)) : withNotes comment [] = comment :=
  if_pos rfl

@[simp] theorem withNotes_cons (comment : Option (List String)) (note : String)
    (rest : List String) :
    withNotes comment (note :: rest) = some (comment.getD [] ++ note :: rest) := if_neg (by simp)

/-! ## Signatures -/

/-- The notes for a signature: one if the result is of another type once it is resolved, and one
for each argument that is. -/
def changeNotes (aliases : Aliases) (returnType : CsType) (arguments : List Argument) :
    List String :=
  (if aliases.resolve returnType = returnType then []
    else ["ReturnType original type: " ++ returnType.display]) ++
  (arguments.filter fun a => aliases.resolve a.type ≠ a.type).map fun a =>
    "Param " ++ a.name.display ++ " original type: " ++ a.type.display

/-- A finished signature, with the annotations of its declaration. -/
structure SignatureFinished (aliases : Aliases) (r r' : CsType) (as as' : List Argument)
    (n n' : Annotations) : Prop where
  /-- The type of the result is resolved. -/
  returnType : r' = aliases.resolve r
  /-- So are the types of the arguments, and nothing else about them changes. -/
  arguments : List.Forall₂ (fun a a' => a' = { a with type := aliases.resolve a.type }) as as'
  /-- The comment behind the declaration stays. -/
  trailing : n'.trailingComment = n.trailingComment
  /-- The comment before it gets the notes. -/
  preceding : n'.precedingComment = withNotes n.precedingComment (changeNotes aliases r as)

theorem changes_eq_true {t : CsType} : aliases.changes t = true ↔ aliases.resolve t ≠ t :=
  decide_eq_true_iff

theorem signatureNotes_eq (returnType : CsType) (arguments : List Argument) :
    signatureNotes aliases returnType arguments = changeNotes aliases returnType arguments := by
  have hreturn : returnNote aliases returnType =
      if aliases.resolve returnType = returnType then []
        else ["ReturnType original type: " ++ returnType.display] := by
    rw [returnNote]
    by_cases hsame : aliases.resolve returnType = returnType
    · rw [if_pos hsame, if_neg (fun hchanges => changes_eq_true.mp hchanges hsame)]
    · rw [if_neg hsame, if_pos (changes_eq_true.mpr hsame)]
  have harguments : arguments.flatMap (argumentNote aliases) =
      (arguments.filter fun a => aliases.resolve a.type ≠ a.type).map fun a =>
        "Param " ++ a.name.display ++ " original type: " ++ a.type.display := by
    induction arguments with
    | nil => rfl
    | cons a rest ih =>
        rw [List.flatMap_cons, ih, argumentNote]
        by_cases hsame : aliases.resolve a.type = a.type
        · rw [if_neg (fun hchanges => changes_eq_true.mp hchanges hsame),
            List.filter_cons_of_neg (by simpa using hsame), List.nil_append]
        · rw [if_pos (changes_eq_true.mpr hsame), List.filter_cons_of_pos (by simpa using hsame)]
          rfl
  rw [signatureNotes, changeNotes, hreturn, harguments]

theorem signatureAnnotations_comments (aliases : Aliases) (returnType : CsType)
    (arguments : List Argument) (a : Annotations) :
    (signatureAnnotations aliases returnType arguments a).trailingComment = a.trailingComment ∧
      (signatureAnnotations aliases returnType arguments a).precedingComment =
        withNotes a.precedingComment (changeNotes aliases returnType arguments) := by
  rw [signatureAnnotations, signatureNotes_eq]
  -- a modifier for pointers comes last and does not touch the comments
  have hnoted : ∀ notes : List String,
      (if notes.isEmpty then a else a.addCommentLines notes).trailingComment = a.trailingComment ∧
        (if notes.isEmpty then a else a.addCommentLines notes).precedingComment =
          withNotes a.precedingComment notes := by
    intro notes
    cases notes with
    | nil => simp
    | cons note rest => simp
  split
  · rw [Annotations.trailingComment_addModifiers, Annotations.precedingComment_addModifiers]
    exact hnoted _
  · exact hnoted _

/-- The arguments are resolved one by one. -/
theorem forall₂_resolveArgument (arguments : List Argument) :
    List.Forall₂ (fun x x' => x' = { x with type := aliases.resolve x.type })
      arguments (arguments.map (resolveArgument aliases)) := by
  rw [List.forall₂_map_right_iff, List.forall₂_same]
  exact fun _ _ => rfl

theorem delegate_finished (o : Options) (x : Delegate) : SignatureFinished aliases x.returnType
    (delegate o aliases x).returnType x.arguments (delegate o aliases x).arguments x.annotations
    (delegate o aliases x).annotations := by
  obtain ⟨htrailing, hpreceding⟩ := signatureAnnotations_comments aliases x.returnType x.arguments
    ((x.annotations.addModifiers ["public"]).addAttributes [o.delegateAttribute])
  rw [Annotations.trailingComment_addAttributes, Annotations.trailingComment_addModifiers]
    at htrailing
  rw [Annotations.precedingComment_addAttributes, Annotations.precedingComment_addModifiers]
    at hpreceding
  exact ⟨rfl, forall₂_resolveArgument _, htrailing, hpreceding⟩

theorem function_finished (o : Options) (f : Function) : SignatureFinished aliases f.returnType
    (function o aliases f).returnType f.arguments (function o aliases f).arguments f.annotations
    (function o aliases f).annotations := by
  let modifiers := functionModifiers ++
    f.annotations.modifiers.filter fun m => !functionModifiers.contains m
  obtain ⟨htrailing, hpreceding⟩ := signatureAnnotations_comments aliases
    f.returnType f.arguments
    (({ f.annotations with modifiers } : Annotations).addAttributes [o.importAttribute])
  rw [Annotations.trailingComment_addAttributes] at htrailing
  rw [Annotations.precedingComment_addAttributes] at hpreceding
  exact ⟨rfl, forall₂_resolveArgument _, htrailing, hpreceding⟩

/-! ## Fields -/

/-- The note for a field whose type is another one once it is resolved. -/
def fieldNotes (aliases : Aliases) (t : CsType) : List String :=
  if aliases.resolve t = t then [] else ["Original type: " ++ t.display]

/-- A finished field of a struct. -/
structure FieldFinished (aliases : Aliases) (wrappers : List Struct) (struct : Leaf)
    (f f' : Field) : Prop where
  /-- The field keeps its name. -/
  name : f'.name = f.name
  /-- The comment behind the field stays. -/
  trailing : f'.annotations.trailingComment = f.annotations.trailingComment
  /-- The comment before it gets the note. -/
  preceding : f'.annotations.precedingComment =
    withNotes f.annotations.precedingComment (fieldNotes aliases f.type)
  /-- The type is resolved, or it is that of a wrapper whose element has the resolved type. -/
  type : f'.type = aliases.resolve f.type ∨ f.isArray = true ∧
    f'.type = { base := wrapperName struct f.name } ∧
    ∃ w ∈ wrappers, w.name = wrapperName struct f.name ∧ w.types = [aliases.resolve f.type]

theorem resolveField_comments (aliases : Aliases) (f : Field) :
    (resolveField aliases f).annotations.trailingComment = f.annotations.trailingComment ∧
      (resolveField aliases f).annotations.precedingComment =
        withNotes f.annotations.precedingComment (fieldNotes aliases f.type) := by
  rw [resolveField, fieldNotes]
  by_cases hsame : aliases.resolve f.type = f.type
  · have hchanges : aliases.changes f.type ≠ true := fun h => changes_eq_true.mp h hsame
    rw [if_neg hchanges, if_pos hsame]
    dsimp only
    split
    · simp
    · simp
  · have hchanges : aliases.changes f.type = true := changes_eq_true.mpr hsame
    rw [if_pos hchanges, if_neg hsame]
    dsimp only
    split
    · simp
    · simp

/-- Laying an array out does not touch the comments. -/
theorem layOutField_comments (aliases : Aliases) (scope : BoundScope) (struct : Leaf) (f : Field) :
    (layOutField aliases scope struct f).field.annotations.trailingComment =
        f.annotations.trailingComment ∧
      (layOutField aliases scope struct f).field.annotations.precedingComment =
        withNotes f.annotations.precedingComment (fieldNotes aliases f.type) := by
  have hresolved := resolveField_comments aliases f
  rw [layOutField]
  split
  · rw [layOutArray]
    split
    · exact hresolved
    · split
      · exact hresolved
      · exact hresolved
  · exact hresolved

/-- A field is finished if the wrapper that it may need is among those that there are. -/
theorem field_finished (scope : BoundScope) (struct : Leaf) (f : Field) {wrappers : List Struct}
    (hw : ∀ w, (layOutField aliases scope struct f).wrapper = some w → w ∈ wrappers) :
    FieldFinished aliases wrappers struct f (layOutField aliases scope struct f).field := by
  obtain ⟨htrailing, hpreceding⟩ := layOutField_comments aliases scope struct f
  cases layOutField_laidOut aliases scope struct f with
  | own htype _ hname _ => exact ⟨hname, htrailing, hpreceding, .inl htype⟩
  | wrapped htype hsome htypes hname hwrapper ha _ =>
      exact ⟨hname, htrailing, hpreceding, .inr ⟨ha, htype, _, hw _ hsome, hwrapper, htypes⟩⟩

end Finish

open Finish (SignatureFinished FieldFinished)

/-! ## All declarations -/

/-- Declarations are finished: all types in them are resolved and noted, and no alias applies to
any of them. -/
structure ResolvedAndNoted (aliases : Aliases) (d final : DeclarationSet) : Prop where
  /-- The functions, in their order. -/
  functions : List.Forall₂ (fun f f' => f'.name = f.name ∧ SignatureFinished aliases f.returnType
    f'.returnType f.arguments f'.arguments f.annotations f'.annotations) d.functions final.functions
  /-- The delegates: those of functions, those of typedefs, and those inside structs. -/
  delegates : List.Forall₂ (fun x x' => x'.name = x.name ∧ SignatureFinished aliases x.returnType
      x'.returnType x.arguments x'.arguments x.annotations x'.annotations)
    (d.delegates ++ d.typedefDelegates ++
      d.structs.flatMap fun s => s.inner.filterMap Finish.delegate?) final.delegates
  /-- The structs with their fields, in their order. -/
  structs : List.Forall₂ (fun s s' => s'.name = s.name ∧
    List.Forall₂ (FieldFinished aliases final.inlineArrays s.name) s.fields s'.fields)
    d.structs final.structs
  /-- No alias applies to a type in a signature. -/
  finalSignatures : ∀ t ∈ final.functions.flatMap (·.types) ++ final.delegates.flatMap (·.types),
    aliases.IsFinal t.base
  /-- No alias applies to the type of a field, unless the field refers to its wrapper. -/
  finalFields : ∀ s ∈ final.structs, ∀ f ∈ s.fields, aliases.IsFinal f.type.base ∨
    f.type = { base := Finish.wrapperName s.name f.name } ∧
    ∃ w ∈ final.inlineArrays, w.name = Finish.wrapperName s.name f.name
  /-- No alias applies to the type of an element of a wrapper. -/
  finalElements : ∀ w ∈ final.inlineArrays, ∀ t ∈ w.types, aliases.IsFinal t.base

namespace Finish

variable {aliases : Aliases}

theorem structs_finished (o : Options) (aliases : Aliases) (d : DeclarationSet) :
    List.Forall₂ (fun s s' => s'.name = s.name ∧ List.Forall₂
        (FieldFinished aliases (declarations o aliases d).inlineArrays s.name) s.fields s'.fields)
      d.structs (declarations o aliases d).structs := by
  refine List.forall₂_map_right_iff.mpr (List.forall₂_same.mpr fun s hs => ⟨rfl, ?_⟩)
  refine List.forall₂_map_right_iff.mpr (List.forall₂_map_right_iff.mpr
    (List.forall₂_same.mpr fun f hf => ?_))
  -- the wrapper of a field stands among those of its struct
  refine field_finished _ s.name f fun w hw => ?_
  have hlaid : layOutField aliases (.of d) s.name f ∈ layOutFields aliases (.of d) s :=
    List.mem_map_of_mem hf
  exact List.mem_flatMap.mpr ⟨s, hs, List.mem_filterMap.mpr ⟨_, hlaid, hw⟩⟩

/-- No alias applies to what was resolved in a signature. -/
theorem isFinal_of_mem_types (h : aliases.Acyclic) (o : Options) (d : DeclarationSet) {t : CsType}
    (ht : t ∈ (declarations o aliases d).functions.flatMap (·.types) ++
      (declarations o aliases d).delegates.flatMap (·.types)) : aliases.IsFinal t.base := by
  rcases List.mem_append.mp ht with ht | ht
  · obtain ⟨f', hf', ht⟩ := List.mem_flatMap.mp ht
    obtain ⟨f, _, rfl⟩ := List.mem_map.mp hf'
    rw [types_function] at ht
    obtain ⟨u, _, rfl⟩ := List.mem_map.mp ht
    exact h.isFinal_resolve u
  · obtain ⟨x', hx', ht⟩ := List.mem_flatMap.mp ht
    obtain ⟨x, _, rfl⟩ := List.mem_map.mp hx'
    rw [types_delegate] at ht
    obtain ⟨u, _, rfl⟩ := List.mem_map.mp ht
    exact h.isFinal_resolve u

/-- A wrapper is made for the resolved type of its field. -/
theorem isFinal_of_mem_wrappers (h : aliases.Acyclic) (o : Options) (d : DeclarationSet)
    {w : Struct} (hw : w ∈ (declarations o aliases d).inlineArrays) {t : CsType}
    (ht : t ∈ w.types) : aliases.IsFinal t.base := by
  obtain ⟨s, _, hw⟩ := List.mem_flatMap.mp hw
  obtain ⟨l, hl, hw⟩ := List.mem_filterMap.mp hw
  obtain ⟨f, _, rfl⟩ := List.mem_map.mp hl
  cases layOutField_laidOut aliases (.of d) s.name f with
  | own _ hnone _ _ => exact absurd (hnone.symm.trans hw) (by simp)
  | wrapped _ hsome htypes _ _ _ _ =>
      rw [hsome] at hw
      injection hw with hw
      rw [← hw, htypes, List.mem_singleton] at ht
      rw [ht]
      exact h.isFinal_resolve f.type

end Finish

/-- **Without cycles every type of a finished declaration is resolved and noted, and nothing else
is.** -/
theorem finish_resolvedAndNoted (o : Options) {aliases : Aliases} (h : aliases.Acyclic)
    (d : DeclarationSet) :
    (d.Finishable → ∃ final, (Finish.finish o aliases d).result = .ok final) ∧
      ∀ final, (Finish.finish o aliases d).result = .ok final →
        ResolvedAndNoted aliases d final := by
  refine ⟨fun hd => ⟨_, Finish.finish_of_finishable hd o aliases⟩, fun final hfinal => ?_⟩
  rw [Finish.finish_of_ok hfinal]
  have hstructs := Finish.structs_finished o aliases d
  refine ⟨?_, ?_, hstructs, fun t ht => Finish.isFinal_of_mem_types h o d ht,
    fun s' hs' f' hf' => ?_, fun w hw t ht => Finish.isFinal_of_mem_wrappers h o d hw ht⟩
  · exact List.forall₂_map_right_iff.mpr
      (List.forall₂_same.mpr fun f _ => ⟨rfl, Finish.function_finished o f⟩)
  · exact List.forall₂_map_right_iff.mpr
      (List.forall₂_same.mpr fun x _ => ⟨rfl, Finish.delegate_finished o x⟩)
  · obtain ⟨s, _, hname, hfields⟩ := exists_of_forall₂ hstructs.flip hs'
    obtain ⟨f, _, hfield⟩ := exists_of_forall₂ hfields.flip hf'
    rw [hname, hfield.name]
    rcases hfield.type with htype | ⟨_, htype, w, hw, hwrapper, _⟩
    · rw [htype]
      exact .inl (h.isFinal_resolve f.type)
    · exact .inr ⟨htype, w, hw, hwrapper⟩

/-- A chain of aliases, one through a pointer, and one of a struct. -/
def handleAliases : Aliases := Build.register ∅
  [{ name := "Id", target := { base := "Number" } },
    { name := "Number", target := { base := "uint" } },
    { name := "Handle", target := { base := "Data", pointers := 1 } },
    { name := "Cell", target := { base := "Data" } }]

/-- Declarations with changed types at all places: a struct with an array and with two declarations
inside, and a function with and one without a comment. -/
def handleDeclarations : DeclarationSet where
  structs :=
    [{ name := "File"
       fields :=
         [{ name := "id", type := { base := "Id" } },
           { name := "cells", type := { base := "Cell" }, isArray := true, arrayBound := "4" }]
       inner := [.enum { name := "Mode" },
         .delegate { name := "OnOpen", returnType := { base := "Handle" } }] }]
  functions :=
    [{ name := "open", returnType := { base := "Handle", pointers := 1 }
       arguments :=
         [{ name := "mode", type := { base := "int" } }, { name := "id", type := { base := "Id" } }]
       annotations := { precedingComment := some ["Opens a file."] } },
      { name := "flush", returnType := { base := "void" } }]

theorem finishable_handleDeclarations : handleDeclarations.Finishable where
  constants := fun c hc => absurd hc (by simp [handleDeclarations])
  enumConstants := fun c hc => absurd hc (by simp [handleDeclarations])
  fields := by simp [handleDeclarations, CsType.Writable]
  delegates := by
    simp [handleDeclarations, Finish.allDelegates, Finish.delegate?, Delegate.Writable,
      CsType.Writable]
  functions := by simp [handleDeclarations, Function.Writable, CsType.Writable]

theorem finish_resolvedAndNoted_handleDeclarations : handleAliases.Acyclic ∧
    ∃ final, (Finish.finish {} handleAliases handleDeclarations).result = .ok final ∧
      ResolvedAndNoted handleAliases handleDeclarations final := by
  have hacyclic : handleAliases.Acyclic := by decide +kernel
  obtain ⟨hends, hnoted⟩ := finish_resolvedAndNoted {} hacyclic handleDeclarations
  obtain ⟨final, hfinal⟩ := hends finishable_handleDeclarations
  exact ⟨hacyclic, final, hfinal, hnoted final hfinal⟩

example : (Finish.declarations {} handleAliases handleDeclarations).functions.map
    (·.annotations.precedingComment) =
      [some ["Opens a file.", "ReturnType original type: Handle*", "Param id original type: Id"],
        none] := by decide +kernel

end NativeBindings
