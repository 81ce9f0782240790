import NativeBindings.Proofs.Modifiers

/-!
# Finishing again

Finished declarations can be finished again. No alias applies to a resolved type, so nothing is
noted, and every modifier and attribute that finishing adds is there. So all declarations stay as
they are, except for structs: there a bound that was cast is cast once more, and the wrappers of the
first time are not made again, since their fields are no arrays any longer.
-/

namespace NativeBindings

open CSharp

variable {aliases : Aliases}

theorem Aliases.Acyclic.resolve_resolve (h : aliases.Acyclic) (t : CsType) :
    aliases.resolve (aliases.resolve t) = aliases.resolve t :=
  aliases.resolve_of_isFinal (h.isFinal_resolve t)

namespace CSharp.Annotations

variable {n : Annotations} {more : List String}

theorem addModifiers_of_subset (h : more ⊆ n.modifiers) : n.addModifiers more = n := by
  rw [addModifiers, addNew_of_subset h]

theorem addAttributes_of_subset (h : more ⊆ n.attributes) : n.addAttributes more = n := by
  rw [addAttributes, addNew_of_subset h]

end CSharp.Annotations

namespace Finish

theorem map_map_again {α : Type} {f : α → α} (hf : ∀ x, f (f x) = f x) (xs : List α) :
    (xs.map f).map f = xs.map f := by
  rw [List.map_map]
  exact List.map_congr_left fun x _ => hf x

/-! ## Signatures -/

section Signatures

variable (h : aliases.Acyclic) (returnType : CsType) (arguments : List Argument)
include h

theorem resolveArgument_resolveArgument (a : Argument) :
    resolveArgument aliases (resolveArgument aliases a) = resolveArgument aliases a := by
  show ({ a with type := aliases.resolve (aliases.resolve a.type) } : Argument) = _
  rw [h.resolve_resolve]
  rfl

theorem changes_resolve (t : CsType) : ¬aliases.changes (aliases.resolve t) = true := by
  rw [Aliases.changes, decide_eq_true_iff, not_not]
  exact h.resolve_resolve t

/-- There is nothing left to note. -/
theorem signatureNotes_resolved : signatureNotes aliases (aliases.resolve returnType)
    (arguments.map (resolveArgument aliases)) = [] := by
  rw [signatureNotes, returnNote, if_neg (changes_resolve h returnType), List.nil_append,
    List.flatMap_eq_nil_iff]
  intro a ha
  obtain ⟨a₀, _, rfl⟩ := List.mem_map.mp ha
  exact if_neg (changes_resolve h a₀.type)

theorem hasPointer_resolved : hasPointer aliases (aliases.resolve returnType)
    (arguments.map (resolveArgument aliases)) = hasPointer aliases returnType arguments := by
  have hargument : ∀ a : Argument, (aliases.resolve (resolveArgument aliases a).type).isPointer =
      (aliases.resolve a.type).isPointer := fun a =>
    congrArg CsType.isPointer (h.resolve_resolve a.type)
  rw [hasPointer, hasPointer, h.resolve_resolve, List.any_map]
  exact congrArg (_ || ·) (congrArg arguments.any (funext hargument))

/-- What has a pointer was marked the first time. -/
theorem signatureAnnotations_again (n : Annotations) :
    signatureAnnotations aliases (aliases.resolve returnType)
        (arguments.map (resolveArgument aliases))
        (signatureAnnotations aliases returnType arguments n) =
      signatureAnnotations aliases returnType arguments n := by
  have hmarks := (signatureAnnotations_marks aliases returnType arguments n).1
  generalize signatureAnnotations aliases returnType arguments n = n' at hmarks
  rw [signatureAnnotations, signatureNotes_resolved h, hasPointer_resolved h]
  dsimp only [List.isEmpty_nil]
  rw [if_pos rfl]
  cases hpointer : hasPointer aliases returnType arguments with
  | false => rfl
  | true =>
      rw [hpointer, if_pos rfl] at hmarks
      refine (if_pos rfl).trans (Annotations.addModifiers_of_subset fun m hm => ?_)
      rw [hmarks]
      exact mem_addNew.mpr (.inr hm)

end Signatures

/-! ## Declarations -/

section Declarations

variable (o : Options) (aliases : Aliases)

/-- The signature of a declaration takes none of its modifiers away. -/
theorem subset_signatureAnnotations (returnType : CsType) (arguments : List Argument)
    (n : Annotations) :
    n.modifiers ⊆ (signatureAnnotations aliases returnType arguments n).modifiers := by
  intro m hm
  rw [(signatureAnnotations_marks aliases returnType arguments n).1]
  split
  · exact mem_addNew.mpr (.inl hm)
  · exact hm

/-- An attribute that is added before the signature is looked at stays. -/
theorem subset_attributes_signatureAnnotations (returnType : CsType) (arguments : List Argument)
    (n : Annotations) (more : List String) : more ⊆
      (signatureAnnotations aliases returnType arguments (n.addAttributes more)).attributes := by
  intro a ha
  rw [(signatureAnnotations_marks aliases returnType arguments _).2]
  exact mem_addNew.mpr (.inr ha)

/-- The annotations of a function, with the modifiers of every function in front. -/
def withFunctionModifiers (n : Annotations) : Annotations :=
  { n with
    modifiers := functionModifiers ++ n.modifiers.filter fun m => !functionModifiers.contains m }

theorem annotations_function (f : Function) : (function o aliases f).annotations =
    signatureAnnotations aliases f.returnType f.arguments
      ((withFunctionModifiers f.annotations).addAttributes [o.importAttribute]) := rfl

/-- Modifiers that stand in front stay there. -/
theorem withFunctionModifiers_eq_self {n : Annotations} {others : List String}
    (h : n.modifiers = functionModifiers ++ others)
    (hothers : ∀ m ∈ others, m ∉ functionModifiers) :
    withFunctionModifiers n = n := by
  have hnone : (functionModifiers.filter fun m => !functionModifiers.contains m) = [] := by decide
  have hfilter : (n.modifiers.filter fun m => !functionModifiers.contains m) = others := by
    rw [h, List.filter_append, hnone, List.nil_append, List.filter_eq_self]
    intro m hm
    simpa using hothers m hm
  rw [withFunctionModifiers, hfilter, ← h]

/-- In a finished function the modifiers of every function come first, and only there. -/
theorem exists_modifiers_function (f : Function) :
    ∃ others, (function o aliases f).annotations.modifiers = functionModifiers ++ others ∧
      ∀ m ∈ others, m ∉ functionModifiers := by
  have hfurther : ∀ m ∈ f.annotations.modifiers.filter fun m => !functionModifiers.contains m,
      m ∉ functionModifiers := by
    intro m hm
    simpa using (List.mem_filter.mp hm).2
  rw [annotations_function, (signatureAnnotations_marks aliases _ _ _).1]
  split
  · obtain ⟨added, hadded, heq⟩ :=
      exists_addNew_eq (withFunctionModifiers f.annotations).modifiers ["unsafe"]
    refine ⟨_ ++ added, heq.trans (List.append_assoc _ _ _), fun m hm => ?_⟩
    rcases List.mem_append.mp hm with hm | hm
    · exact hfurther m hm
    · exact fun hfirst => (hadded.only m hm).2 (List.mem_append_left _ hfirst)
  · exact ⟨_, rfl, hfurther⟩

theorem constant_constant (c : Constant) : constant (constant c) = constant c := by
  have hmodifiers : ["public", "const"] ⊆ (constant c).annotations.modifiers :=
    fun _ hm => mem_addNew.mpr (.inr hm)
  rw [constant, Annotations.addModifiers_of_subset hmodifiers]

theorem enum_enum (e : Enum) : enum (enum e) = enum e := by
  have hmodifiers : ["public"] ⊆ (enum e).annotations.modifiers :=
    fun _ hm => mem_addNew.mpr (.inr hm)
  rw [enum, Annotations.addModifiers_of_subset hmodifiers]

variable {aliases} (h : aliases.Acyclic)
include h

theorem delegate_delegate (x : Delegate) :
    delegate o aliases (delegate o aliases x) = delegate o aliases x := by
  have hmodifiers : ["public"] ⊆ (delegate o aliases x).annotations.modifiers := fun m hm =>
    subset_signatureAnnotations aliases x.returnType x.arguments _ (mem_addNew.mpr (.inr hm))
  have hattributes : [o.delegateAttribute] ⊆ (delegate o aliases x).annotations.attributes :=
    subset_attributes_signatureAnnotations aliases x.returnType x.arguments _ _
  rw [delegate, Annotations.addModifiers_of_subset hmodifiers,
    Annotations.addAttributes_of_subset hattributes]
  dsimp only [delegate]
  rw [h.resolve_resolve, map_map_again (resolveArgument_resolveArgument h),
    signatureAnnotations_again h]

theorem function_function (f : Function) :
    function o aliases (function o aliases f) = function o aliases f := by
  obtain ⟨others, heq, hothers⟩ := exists_modifiers_function o aliases f
  have hattributes : [o.importAttribute] ⊆ (function o aliases f).annotations.attributes :=
    subset_attributes_signatureAnnotations aliases f.returnType f.arguments _ _
  have hannotations : (function o aliases (function o aliases f)).annotations =
      (function o aliases f).annotations := by
    rw [annotations_function, withFunctionModifiers_eq_self heq hothers,
      Annotations.addAttributes_of_subset hattributes]
    exact signatureAnnotations_again h f.returnType f.arguments _
  show ({ name := f.name, returnType := aliases.resolve (aliases.resolve f.returnType),
          arguments := (f.arguments.map (resolveArgument aliases)).map (resolveArgument aliases),
          annotations := (function o aliases (function o aliases f)).annotations } : Function) = _
  rw [h.resolve_resolve, map_map_again (resolveArgument_resolveArgument h), hannotations]
  rfl

end Declarations

/-- No delegate is left inside a finished struct. -/
theorem delegates_inner_struct (aliases : Aliases) (scope : BoundScope) (s : Struct) :
    (struct aliases scope s).inner.filterMap delegate? = [] := by
  rw [List.filterMap_eq_nil_iff]
  intro x hx
  exact Option.isNone_iff_eq_none.mp (List.mem_filter.mp hx).2

/-- Two sets of declarations that have the same ones, structs and wrappers apart. -/
structure SameButStructs (d d' : DeclarationSet) : Prop where
  constants : d'.constants = d.constants
  enumConstants : d'.enumConstants = d.enumConstants
  enums : d'.enums = d.enums
  aliases : d'.aliases = d.aliases
  typedefDelegates : d'.typedefDelegates = d.typedefDelegates
  delegates : d'.delegates = d.delegates
  functions : d'.functions = d.functions

/-- **Finishing again changes nothing** about declarations that are no structs. -/
theorem declarations_again (h : aliases.Acyclic) (o : Options) (d : DeclarationSet) :
    SameButStructs (declarations o aliases d)
      (declarations o aliases (declarations o aliases d)) where
  constants := map_map_again constant_constant d.constants
  enumConstants := map_map_again constant_constant d.enumConstants
  enums := map_map_again enum_enum d.enums
  aliases := rfl
  typedefDelegates := rfl
  delegates := by
    have hinner : (declarations o aliases d).structs.flatMap
        (fun s => s.inner.filterMap delegate?) = [] := by
      rw [List.flatMap_eq_nil_iff]
      intro s hs
      obtain ⟨s₀, _, rfl⟩ := List.mem_map.mp hs
      exact delegates_inner_struct aliases _ s₀
    have hall : allDelegates (declarations o aliases d) =
        (allDelegates d).map (delegate o aliases) := by
      rw [allDelegates, hinner, List.append_nil]
      exact List.append_nil _
    show (allDelegates (declarations o aliases d)).map (delegate o aliases) = _
    rw [hall]
    exact map_map_again (delegate_delegate o h) (allDelegates d)
  functions := map_map_again (function_function o h) d.functions

end Finish

end NativeBindings
