import NativeBindings.Proofs.AddedAnnotations
import NativeBindings.Proofs.DelegateReferences
import NativeBindings.Proofs.Resolution

/-!
# How arrays are laid out

What becomes of an array field is decided by the type of its elements once all aliases
are followed, and by nothing else. There are three ways: an array of an unknown type stays
as it is, one of a pointer or a simple type becomes a fixed buffer, and any other gets a
wrapper. The three exclude each other and leave nothing out.

The wrappers stand in a list of their own, away from the fields that refer to them. The
list goes along with the fields that need one, so every reference has its wrapper and
every wrapper is referred to.
-/

namespace NativeBindings

open CSharp

/-! ## Modifiers -/

namespace CSharp

@[simp] theorem Annotations.mem_modifiers_addModifiers {a : Annotations} {more : List String}
    {m : String} : m ∈ (a.addModifiers more).modifiers ↔ m ∈ a.modifiers ∨ m ∈ more := mem_addNew

@[simp] theorem Annotations.modifiers_addCommentLines (a : Annotations) (lines : List String) :
    (a.addCommentLines lines).modifiers = a.modifiers := rfl

end CSharp

/-! ## What an array can hold -/

namespace CsType

/-- No C# type was found for the elements. -/
def HoldsUnknown (t : CsType) : Prop := t.base = .text unknownName

/-- The elements are pointers, or their type is a simple one. -/
def FitsBuffer (t : CsType) : Prop :=
  ¬t.HoldsUnknown ∧ (0 < t.pointers ∨ ∃ name ∈ simpleNames, t.base = .text name)

/-- The elements are of a known type that is neither a pointer nor simple. -/
def NeedsWrapper (t : CsType) : Prop :=
  ¬t.HoldsUnknown ∧ t.pointers = 0 ∧ ∀ name ∈ simpleNames, t.base ≠ .text name

instance : DecidablePred HoldsUnknown :=
  fun t => inferInstanceAs (Decidable (t.base = .text unknownName))

instance : DecidablePred NeedsWrapper := fun t =>
  inferInstanceAs (Decidable (¬t.HoldsUnknown ∧ t.pointers = 0 ∧
    ∀ name ∈ simpleNames, t.base ≠ .text name))

variable {t : CsType}

theorem isUnknown_iff : t.isUnknown = true ↔ t.HoldsUnknown := decide_eq_true_iff

theorem isSimple_iff :
    t.isSimple = true ↔ 0 < t.pointers ∨ ∃ name ∈ simpleNames, t.base = .text name := by
  simp [isSimple, isPointer, Nat.pos_iff_ne_zero]

theorem fitsBuffer_iff : t.FitsBuffer ↔ ¬t.isUnknown = true ∧ t.isSimple = true := by
  rw [FitsBuffer, isUnknown_iff, isSimple_iff]

theorem needsWrapper_iff : t.NeedsWrapper ↔ ¬t.isUnknown = true ∧ ¬t.isSimple = true := by
  rw [NeedsWrapper, isUnknown_iff, isSimple_iff, not_or, Nat.not_lt, Nat.le_zero_eq]
  simp only [not_exists, not_and, ne_eq]

end CsType

/-! ## A field and its wrapper -/

namespace Finish

/-- The modifiers of a field do not make it a fixed buffer, unless it was marked as one before. -/
def NotMadeFixed (f f' : Field) : Prop :=
  "fixed" ∈ f'.annotations.modifiers ↔ "fixed" ∈ f.annotations.modifiers

/-- How a field comes out if its resolved type is `t`. -/
inductive FieldLayout (scope : BoundScope) (struct : Leaf) (t : CsType) (f f' : Field) : Prop where
  /-- A field that is no array stays none. -/
  | single (ha : f.isArray = false) (ha' : f'.isArray = false) (htype : f'.type = t)
      (hfixed : NotMadeFixed f f')
  /-- An array of an unknown type stays an array. -/
  | unresolved (ha : f.isArray = true) (ht : t.HoldsUnknown) (ha' : f'.isArray = true)
      (htype : f'.type = t) (hbound : f'.arrayBound = scope.expression f.arrayBound)
      (hfixed : NotMadeFixed f f')
  /-- An array of pointers or of a simple type becomes a fixed buffer. -/
  | buffer (ha : f.isArray = true) (ht : t.FitsBuffer) (ha' : f'.isArray = true)
      (htype : f'.type = t) (hbound : f'.arrayBound = scope.expression f.arrayBound)
      (hmodifier : "unsafe" ∈ f'.annotations.modifiers)
      (hfixed : "fixed" ∈ f'.annotations.modifiers)
  /-- Any other array gives way to a field that has the wrapper as its type. -/
  | wrapped (ha : f.isArray = true) (ht : t.NeedsWrapper) (ha' : f'.isArray = false)
      (htype : f'.type = { base := wrapperName struct f.name }) (hbound : f'.arrayBound = "")
      (hfixed : NotMadeFixed f f')

/-- The wrapper for an array field whose resolved type is `t`. -/
structure WrapperFor (scope : BoundScope) (struct : Leaf) (t : CsType) (f : Field) (w : Struct) :
    Prop where
  name : w.name = wrapperName struct f.name
  /-- The one field is the element, and it is no array itself. -/
  element : ∃ e, w.fields = [e] ∧ e.name = .text "Element" ∧ e.type = t ∧ e.isArray = false
  attributes : w.annotations.attributes = ["InlineArray(" ++ scope.expression f.arrayBound ++ ")"]
  inner : w.inner = []

variable {aliases : Aliases} {scope : BoundScope}

theorem notMadeFixed_resolveField (f : Field) : NotMadeFixed f (resolveField aliases f) := by
  have hnoted : ∀ lines : List String, ∀ b : Bool,
      (if b then f.annotations.addCommentLines lines else f.annotations).modifiers =
        f.annotations.modifiers := by
    intro lines b
    cases b with
    | true => rfl
    | false => rfl
  rw [NotMadeFixed, resolveField]
  dsimp only
  split
  · simp [hnoted]
  · simp [hnoted]

/-- Every field is laid out in one of the ways, by its resolved type. -/
theorem layOutField_layout (aliases : Aliases) (scope : BoundScope) (struct : Leaf) (f : Field) :
    FieldLayout scope struct (aliases.resolve f.type) f
      (layOutField aliases scope struct f).field := by
  have hfixed := @notMadeFixed_resolveField aliases f
  unfold layOutField
  by_cases ha : f.isArray = true
  · rw [if_pos ha, layOutArray]
    by_cases hunknown : (resolveField aliases f).type.isUnknown = true
    · rw [if_pos hunknown]
      exact .unresolved ha (CsType.isUnknown_iff.mp hunknown) ha rfl rfl hfixed
    · rw [if_neg hunknown]
      by_cases hsimple : (resolveField aliases f).type.isSimple = true
      · rw [if_pos hsimple]
        exact .buffer ha (CsType.fitsBuffer_iff.mpr ⟨hunknown, hsimple⟩) ha rfl rfl
          (by simp) (by simp)
      · rw [if_neg hsimple]
        exact .wrapped ha (CsType.needsWrapper_iff.mpr ⟨hunknown, hsimple⟩) rfl rfl rfl hfixed
  · have hsingle : f.isArray = false := Bool.eq_false_iff.mpr ha
    rw [if_neg ha]
    exact .single hsingle hsingle rfl hfixed

/-- The field gets a wrapper: it is an array of a type that needs one. -/
def GetsWrapper (aliases : Aliases) (f : Field) : Prop :=
  f.isArray = true ∧ (aliases.resolve f.type).NeedsWrapper

instance (aliases : Aliases) : DecidablePred (GetsWrapper aliases) := fun f =>
  inferInstanceAs (Decidable (f.isArray = true ∧ (aliases.resolve f.type).NeedsWrapper))

theorem wrapperOf_wrapperFor (scope : BoundScope) (struct : Leaf) (f : Field) :
    WrapperFor scope struct (aliases.resolve f.type) f
      (wrapperOf scope struct (resolveField aliases f)) :=
  ⟨rfl, ⟨_, rfl, rfl, rfl, rfl⟩, rfl, rfl⟩

/-- Only the fields that need a wrapper bring one. -/
theorem wrapper_layOutField (aliases : Aliases) (scope : BoundScope) (struct : Leaf) (f : Field) :
    (layOutField aliases scope struct f).wrapper =
      if GetsWrapper aliases f then some (wrapperOf scope struct (resolveField aliases f))
      else none := by
  have hiff : GetsWrapper aliases f ↔ f.isArray = true ∧
      ¬(aliases.resolve f.type).isUnknown = true ∧ ¬(aliases.resolve f.type).isSimple = true := by
    rw [GetsWrapper, CsType.needsWrapper_iff]
  unfold layOutField
  by_cases ha : f.isArray = true
  · rw [if_pos ha, layOutArray]
    by_cases hunknown : (resolveField aliases f).type.isUnknown = true
    · rw [if_pos hunknown, if_neg (fun h => (hiff.mp h).2.1 hunknown)]
    · rw [if_neg hunknown]
      by_cases hsimple : (resolveField aliases f).type.isSimple = true
      · rw [if_pos hsimple, if_neg (fun h => (hiff.mp h).2.2 hsimple)]
      · rw [if_neg hsimple, if_pos (hiff.mpr ⟨ha, hunknown, hsimple⟩)]
  · rw [if_neg ha, if_neg (fun h => ha (hiff.mp h).1)]

theorem wrappers_eq (aliases : Aliases) (scope : BoundScope) (s : Struct) :
    wrappers aliases scope s = (s.fields.filter fun f => GetsWrapper aliases f).map fun f =>
      wrapperOf scope s.name (resolveField aliases f) := by
  rw [wrappers, layOutFields, List.filterMap_map, ← List.filterMap_eq_map, List.filterMap_filter]
  refine List.filterMap_congr fun f _ => ?_
  rw [Function.comp_apply, wrapper_layOutField]
  by_cases hf : GetsWrapper aliases f
  · rw [if_pos hf, if_pos (decide_eq_true hf)]
    rfl
  · rw [if_neg hf, if_neg (by simpa using hf)]

end Finish

open Finish (BoundScope FieldLayout WrapperFor GetsWrapper wrapperName)

/-! ## All structs -/

/-- The fields that get a wrapper, each with the name of its struct. -/
def fieldsWithWrapper (aliases : Aliases) (d : DeclarationSet) : List (Leaf × Field) :=
  d.structs.flatMap fun s => (s.fields.filter fun f => GetsWrapper aliases f).map fun f =>
    (s.name, f)

/-- The arrays of a set of declarations are laid out. -/
structure ArraysLaidOut (aliases : Aliases) (d final : DeclarationSet) : Prop where
  /-- Aliases are followed from the type of every field until none applies. -/
  resolved : ∀ s ∈ d.structs, ∀ f ∈ s.fields,
    ∃ targets, aliases.Resolves 0 f.type targets (aliases.resolve f.type)
  /-- All structs and fields are there, in their order, and every field is laid out by its type. -/
  fields : List.Forall₂ (fun s s' => s'.name = s.name ∧ List.Forall₂ (fun f f' =>
      f'.name = f.name ∧ FieldLayout (.of d) s.name (aliases.resolve f.type) f f')
    s.fields s'.fields) d.structs final.structs
  /-- There is one wrapper for each field that needs one, in their order. -/
  wrappers : List.Forall₂ (fun p w => WrapperFor (.of d) p.1 (aliases.resolve p.2.type) p.2 w)
    (fieldsWithWrapper aliases d) final.inlineArrays
  /-- No wrapper holds a pointer, a simple type or an unknown one. -/
  elements : ∀ w ∈ final.inlineArrays, ∀ t ∈ w.types, t.NeedsWrapper
  /-- The wrapper of every field that was given one is there. -/
  present : ∀ s ∈ d.structs, ∀ f ∈ s.fields, GetsWrapper aliases f →
    ∃ w ∈ final.inlineArrays, w.name = wrapperName s.name f.name ∧
      w.types = [aliases.resolve f.type]
  /-- Every wrapper is the type of a field. -/
  used : ∀ w ∈ final.inlineArrays, ∃ s ∈ final.structs, ∃ f ∈ s.fields,
    w.name = wrapperName s.name f.name ∧ f.type = { base := wrapperName s.name f.name } ∧
      f.isArray = false

namespace Finish

variable {aliases : Aliases}

theorem mem_fieldsWithWrapper {d : DeclarationSet} {p : Leaf × Field} :
    p ∈ fieldsWithWrapper aliases d ↔
      ∃ s ∈ d.structs, s.name = p.1 ∧ p.2 ∈ s.fields ∧ GetsWrapper aliases p.2 := by
  simp only [fieldsWithWrapper, List.mem_flatMap, List.mem_map, List.mem_filter, decide_eq_true_eq]
  constructor
  · rintro ⟨s, hs, f, ⟨hf, hneeds⟩, rfl⟩
    exact ⟨s, hs, rfl, hf, hneeds⟩
  · rintro ⟨s, hs, hname, hf, hneeds⟩
    exact ⟨s, hs, p.2, ⟨hf, hneeds⟩, Prod.ext hname rfl⟩

theorem WrapperFor.types {scope : BoundScope} {struct : Leaf} {t : CsType} {f : Field} {w : Struct}
    (h : WrapperFor scope struct t f w) : w.types = [t] := by
  obtain ⟨e, he, _, htype, _⟩ := h.element
  rw [Struct.types, he, List.map_singleton, htype]

theorem layOutField_name (aliases : Aliases) (scope : BoundScope) (struct : Leaf) (f : Field) :
    (layOutField aliases scope struct f).field.name = f.name := by
  cases layOutField_laidOut aliases scope struct f with
  | own _ _ hname _ => exact hname
  | wrapped _ _ _ hname _ _ _ => exact hname

theorem forall₂_fieldLayout (o : Options) (aliases : Aliases) (d : DeclarationSet) :
    List.Forall₂ (fun s s' => s'.name = s.name ∧ List.Forall₂ (fun f f' =>
        f'.name = f.name ∧ FieldLayout (.of d) s.name (aliases.resolve f.type) f f')
      s.fields s'.fields) d.structs (declarations o aliases d).structs := by
  refine List.forall₂_map_right_iff.mpr (List.forall₂_same.mpr fun s _ => ⟨rfl, ?_⟩)
  refine List.forall₂_map_right_iff.mpr (List.forall₂_map_right_iff.mpr
    (List.forall₂_same.mpr fun f _ => ?_))
  exact ⟨layOutField_name aliases _ s.name f, layOutField_layout aliases _ s.name f⟩

theorem forall₂_wrapperFor (o : Options) (aliases : Aliases) (d : DeclarationSet) :
    List.Forall₂ (fun p w => WrapperFor (.of d) p.1 (aliases.resolve p.2.type) p.2 w)
      (fieldsWithWrapper aliases d) (declarations o aliases d).inlineArrays := by
  refine forall₂_flatMap_flatMap fun s _ => ?_
  rw [wrappers_eq, List.forall₂_map_left_iff, List.forall₂_map_right_iff, List.forall₂_same]
  exact fun f _ => wrapperOf_wrapperFor _ s.name f

end Finish

/-- **Without cycles every array is laid out in exactly one way, and every wrapper has its
field.** -/
theorem finish_arraysLaidOut (o : Options) {aliases : Aliases} (h : aliases.Acyclic)
    (d : DeclarationSet) :
    (d.Finishable → ∃ final, (Finish.finish o aliases d).result = .ok final) ∧
      ∀ final, (Finish.finish o aliases d).result = .ok final → ArraysLaidOut aliases d final := by
  refine ⟨fun hd => ⟨_, Finish.finish_of_finishable hd o aliases⟩, fun final hfinal => ?_⟩
  rw [Finish.finish_of_ok hfinal]
  have hfields := Finish.forall₂_fieldLayout o aliases d
  have hwrappers := Finish.forall₂_wrapperFor o aliases d
  refine ⟨fun s _ f _ => ?_, hfields, hwrappers, fun w hw t ht => ?_, fun s hs f hf hneeds => ?_,
    fun w hw => ?_⟩
  · obtain ⟨targets, _, hturns⟩ := h.resolves f.type
    exact ⟨targets, hturns⟩
  · obtain ⟨p, hp, hfor⟩ := exists_of_forall₂ hwrappers.flip hw
    obtain ⟨_, _, _, _, hneeds⟩ := Finish.mem_fieldsWithWrapper.mp hp
    rw [hfor.types, List.mem_singleton] at ht
    exact ht ▸ hneeds.2
  · have hp : (s.name, f) ∈ fieldsWithWrapper aliases d :=
      Finish.mem_fieldsWithWrapper.mpr ⟨s, hs, rfl, hf, hneeds⟩
    obtain ⟨w, hw, hfor⟩ := exists_of_forall₂ hwrappers hp
    exact ⟨w, hw, hfor.name, hfor.types⟩
  · -- from the wrapper back to the field that needed it, and on to what became of that field
    obtain ⟨p, hp, hfor⟩ := exists_of_forall₂ hwrappers.flip hw
    obtain ⟨s, hs, hstruct, hf, hneeds⟩ := Finish.mem_fieldsWithWrapper.mp hp
    obtain ⟨s', hs', hname, hlayouts⟩ := exists_of_forall₂ hfields hs
    obtain ⟨f', hf', hfield, hlayout⟩ := exists_of_forall₂ hlayouts hf
    refine ⟨s', hs', f', hf', ?_⟩
    rw [hname, hfield, hfor.name, hstruct]
    cases hlayout with
    | single ha _ _ _ => exact absurd (ha.symm.trans hneeds.1) (by simp)
    | unresolved _ ht _ _ _ _ => exact absurd ht hneeds.2.1
    | buffer _ ht _ _ _ _ _ =>
        exact absurd (CsType.fitsBuffer_iff.mp ht).2 (CsType.needsWrapper_iff.mp hneeds.2).2
    | wrapped _ _ ha' htype _ _ => exact ⟨rfl, hstruct ▸ htype, ha'⟩

/-- A chain to a simple type, and aliases of a pointer, of a struct and of an unknown type. -/
def bufferAliases : Aliases := Build.register ∅
  [{ name := "Id", target := { base := "Number" } },
    { name := "Number", target := { base := "uint" } },
    { name := "Handle", target := { base := "Data", pointers := 1 } },
    { name := "Cell", target := { base := "Data" } },
    { name := "Wide", target := { base := "unknown" } }]

/-- Arrays of all kinds, in two structs with fields of the same name. -/
def bufferDeclarations : DeclarationSet where
  constants := [{ name := "SIZE", type := { base := "long" }, value := "16" }]
  structs :=
    [{ name := "Page"
       fields :=
         [{ name := "id", type := { base := "Id" } },
           { name := "ids", type := { base := "Id" }, isArray := true, arrayBound := "4" },
           { name := "cells", type := { base := "Cell" }, isArray := true, arrayBound := "SIZE" },
           { name := "wides", type := { base := "Wide" }, isArray := true, arrayBound := "4" }] },
      { name := "Book"
        fields :=
          [{ name := "handles", type := { base := "Handle" }, isArray := true, arrayBound := "2" },
            { name := "cells", type := { base := "Cell" }, isArray := true, arrayBound := "8" }] }]

theorem finishable_bufferDeclarations : bufferDeclarations.Finishable where
  constants := by simp [bufferDeclarations, Leaf.key]
  enumConstants := by simp [bufferDeclarations]
  fields := by simp [bufferDeclarations, CsType.Writable]
  delegates := by simp [bufferDeclarations, Finish.allDelegates]
  functions := by simp [bufferDeclarations]

theorem finish_arraysLaidOut_bufferDeclarations : bufferAliases.Acyclic ∧
    ∃ final, (Finish.finish {} bufferAliases bufferDeclarations).result = .ok final ∧
      ArraysLaidOut bufferAliases bufferDeclarations final := by
  have hacyclic : bufferAliases.Acyclic := by decide +kernel
  obtain ⟨hends, hlaid⟩ := finish_arraysLaidOut {} hacyclic bufferDeclarations
  obtain ⟨final, hfinal⟩ := hends finishable_bufferDeclarations
  exact ⟨hacyclic, final, hfinal, hlaid final hfinal⟩

example : (Finish.declarations {} bufferAliases bufferDeclarations).inlineArrays.map
    (fun w => (w.name.display, w.annotations.attributes)) =
      [("Page_cellsInlineArray", ["InlineArray((int)(SIZE))"]),
        ("Book_cellsInlineArray", ["InlineArray(8)"])] := by decide +kernel

end NativeBindings
