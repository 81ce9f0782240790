import NativeBindings.Proofs.ArrayLayout
import NativeBindings.Proofs.NothingLost

/-!
# Modifiers and attributes

Two passes give a declaration its modifiers. Building marks a function as unsafe if a type in its
signature is a pointer or unknown. Finishing adds the modifiers that all declarations of a kind
have, and marks as unsafe what has a pointer once aliases are followed, since a pointer may
come in by an alias alone. What is there already is not added again. So in the end the
modifiers can be read off the types, and nothing is said twice.
-/

namespace NativeBindings

open CSharp

namespace CsType

theorem isPointer_iff {t : CsType} : t.isPointer = true ↔ 0 < t.pointers := by
  rw [isPointer, bne_iff_ne, Nat.pos_iff_ne_zero]

instance : DecidablePred FitsBuffer := fun t =>
  inferInstanceAs (Decidable (¬t.HoldsUnknown ∧
    (0 < t.pointers ∨ ∃ name ∈ simpleNames, t.base = .text name)))

end CsType

/-- Following aliases takes no pointer away. -/
theorem Aliases.pointers_le_resolve (aliases : Aliases) (t : CsType) :
    t.pointers ≤ (aliases.resolve t).pointers := by
  have hfollow : ∀ (steps : Nat) (t : CsType), t.pointers ≤ (aliases.follow steps t).pointers := by
    intro steps
    induction steps with
    | zero => exact fun _ => Nat.le_refl _
    | succ steps ih =>
        intro t
        rw [Aliases.follow]
        cases aliases.get? t.base with
        | none => exact Nat.le_refl _
        | some target => exact (Nat.le_add_left _ _).trans (ih (target.under t.pointers))
  exact hfollow _ t

namespace CSharp

/-! ## What is said twice -/

/-- No modifier and no attribute is there twice. -/
structure Annotations.NoRepeats (a : Annotations) : Prop where
  modifiers : a.modifiers.Nodup
  attributes : a.attributes.Nodup

theorem Annotations.NoRepeats.addModifiers {a : Annotations} (h : a.NoRepeats)
    (more : List String) : (a.addModifiers more).NoRepeats :=
  ⟨nodup_addNew h.modifiers more, h.attributes⟩

/-- A modifier that may be there is added where it is called for. -/
theorem addNew_of_two {base : List String} {m : String} (hm : m ∉ base) (there calls : Bool) :
    (if calls then addNew (base ++ if there then [m] else []) [m]
      else base ++ if there then [m] else []) =
      base ++ if there || calls then [m] else [] := by
  cases there with
  | true => cases calls <;> simp [addNew]
  | false => cases calls <;> simp [addNew, hm]

end CSharp

theorem Build.annotationsOf_marks (c : Option Header.Comments) :
    (annotationsOf c).modifiers = [] ∧ (annotationsOf c).attributes = [] := by
  cases c with
  | none => exact ⟨rfl, rfl⟩
  | some c => exact ⟨rfl, rfl⟩

namespace Finish

variable {aliases : Aliases} {o : Options}

/-! ## Signatures -/

theorem hasPointer_iff {returnType : CsType} {arguments : List Argument} :
    hasPointer aliases returnType arguments = true ↔
      ∃ t ∈ (returnType :: arguments.map (·.type)).map aliases.resolve, 0 < t.pointers := by
  simp [hasPointer, CsType.isPointer_iff]

theorem signatureAnnotations_marks (aliases : Aliases) (returnType : CsType)
    (arguments : List Argument) (a : Annotations) :
    (signatureAnnotations aliases returnType arguments a).modifiers =
        (if hasPointer aliases returnType arguments then addNew a.modifiers ["unsafe"]
          else a.modifiers) ∧
      (signatureAnnotations aliases returnType arguments a).attributes = a.attributes := by
  have hnoted : ∀ notes : List String,
      (if notes.isEmpty then a else a.addCommentLines notes).modifiers = a.modifiers ∧
        (if notes.isEmpty then a else a.addCommentLines notes).attributes = a.attributes := by
    intro notes
    cases notes with
    | nil => exact ⟨rfl, rfl⟩
    | cons note rest => exact ⟨rfl, rfl⟩
  unfold signatureAnnotations
  dsimp only
  cases hasPointer aliases returnType arguments with
  | true => exact ⟨congrArg (addNew · ["unsafe"]) (hnoted _).1, (hnoted _).2⟩
  | false => exact hnoted _

/-- The modifiers and the attribute of a function, given how it was built. -/
structure FunctionMarked (o : Options) (aliases : Aliases) (f f' : Function) : Prop where
  types : f'.types = f.types.map aliases.resolve
  modifiers : f'.annotations.modifiers = ["public", "static", "extern"] ++
    if (∃ t ∈ f'.types, 0 < t.pointers) ∨ ∃ t ∈ f.types, t.HoldsUnknown then ["unsafe"] else []
  attributes : f'.annotations.attributes = [o.importAttribute]

/-- The modifiers and the attribute of a delegate, given how it was built. -/
structure DelegateMarked (o : Options) (aliases : Aliases) (x x' : Delegate) : Prop where
  types : x'.types = x.types.map aliases.resolve
  modifiers : x'.annotations.modifiers =
    ["public"] ++ if ∃ t ∈ x'.types, 0 < t.pointers then ["unsafe"] else []
  attributes : x'.annotations.attributes = [o.delegateAttribute]

/-- Building marks as unsafe what holds an unknown type, and some of what is marked anyway. -/
theorem needsUnsafe_or_hasPointer {f : Function} :
    (Build.needsUnsafe f.types || hasPointer aliases f.returnType f.arguments) = true ↔
      (∃ t ∈ f.types.map aliases.resolve, 0 < t.pointers) ∨ ∃ t ∈ f.types, t.HoldsUnknown := by
  rw [Bool.or_eq_true, hasPointer_iff, ← Function.types, Build.needsUnsafe, List.any_eq_true]
  constructor
  · rintro (⟨t, ht, hunsafe⟩ | hpointer)
    · rcases Bool.or_eq_true_iff.mp hunsafe with hpointer | hunknown
      · exact .inl ⟨_, List.mem_map_of_mem ht, Nat.lt_of_lt_of_le (CsType.isPointer_iff.mp hpointer)
          (aliases.pointers_le_resolve t)⟩
      · exact .inr ⟨t, ht, CsType.isUnknown_iff.mp hunknown⟩
    · exact .inl hpointer
  · rintro (hpointer | ⟨t, ht, hunknown⟩)
    · exact .inr hpointer
    · exact .inl ⟨t, ht, Bool.or_eq_true_iff.mpr (.inr (CsType.isUnknown_iff.mpr hunknown))⟩

theorem function_marked {notices : List Notice} {item : Header.Function} {f : Function}
    (h : Build.FunctionImage notices o item f) :
    FunctionMarked o aliases f (function o aliases f) := by
  have hattributes : f.annotations.attributes = [o.importAttribute] := by rw [h.annotations]
  -- of the modifiers from building none is one that all functions have
  have hfurther : (f.annotations.modifiers.filter fun m => !functionModifiers.contains m) =
      if Build.needsUnsafe f.types then ["unsafe"] else [] := by
    rw [h.annotations]
    show (if Build.needsUnsafe f.types then ["unsafe"] else []).filter _ = _
    cases Build.needsUnsafe f.types with
    | true => rfl
    | false => rfl
  have hmarks := signatureAnnotations_marks aliases f.returnType f.arguments
    (({ f.annotations with modifiers := functionModifiers ++
      f.annotations.modifiers.filter fun m => !functionModifiers.contains m } :
        Annotations).addAttributes [o.importAttribute])
  refine ⟨types_function f, hmarks.1.trans ?_, hmarks.2.trans ?_⟩
  · rw [types_function]
    show (if hasPointer aliases f.returnType f.arguments then
        addNew (functionModifiers ++ _) ["unsafe"]
      else functionModifiers ++ _) = functionModifiers ++ _
    rw [hfurther, addNew_of_two (by decide)]
    exact congrArg (functionModifiers ++ ·) (if_congr needsUnsafe_or_hasPointer rfl rfl)
  · show addNew f.annotations.attributes [o.importAttribute] = _
    rw [hattributes]
    simp [addNew]

theorem delegate_marked {name : Leaf} {x : Delegate} (h : Build.DelegateImage o name x) :
    DelegateMarked o aliases x (delegate o aliases x) := by
  have hmarks := signatureAnnotations_marks aliases x.returnType x.arguments
    ((x.annotations.addModifiers ["public"]).addAttributes [o.delegateAttribute])
  refine ⟨types_delegate x, hmarks.1.trans ?_, hmarks.2.trans ?_⟩
  · rw [types_delegate]
    show (if hasPointer aliases x.returnType x.arguments then
      addNew (addNew x.annotations.modifiers ["public"]) ["unsafe"]
      else addNew x.annotations.modifiers ["public"]) = _
    rw [h.modifiers]
    have hnew : "unsafe" ∉ ["public"] := by decide
    exact (addNew_of_two hnew false _).trans
      (congrArg (["public"] ++ ·) (if_congr hasPointer_iff rfl rfl))
  · show addNew x.annotations.attributes [o.delegateAttribute] = _
    rw [h.attributes]
    simp [addNew]

/-! ## Fields -/

/-- The field becomes a fixed buffer: it is an array of a type that fits one. -/
def BecomesBuffer (aliases : Aliases) (f : Field) : Prop :=
  f.isArray = true ∧ (aliases.resolve f.type).FitsBuffer

instance : DecidablePred (BecomesBuffer aliases) := fun f =>
  inferInstanceAs (Decidable (f.isArray = true ∧ (aliases.resolve f.type).FitsBuffer))

/-- The modifiers of a field, given how it was built and how it is laid out. -/
structure FieldMarked (aliases : Aliases) (scope : BoundScope) (struct : Leaf) (f f' : Field) :
    Prop where
  layout : FieldLayout scope struct (aliases.resolve f.type) f f'
  modifiers : f'.annotations.modifiers = ["public"] ++
    (if 0 < (aliases.resolve f.type).pointers ∨ BecomesBuffer aliases f then ["unsafe"] else []) ++
    if BecomesBuffer aliases f then ["fixed"] else []
  attributes : f'.annotations.attributes = []

theorem resolveField_marks (aliases : Aliases) {f : Field} (h : f.annotations.modifiers = [])
    (h' : f.annotations.attributes = []) :
    (resolveField aliases f).annotations.modifiers = ["public"] ++
        (if 0 < (aliases.resolve f.type).pointers then ["unsafe"] else []) ∧
      (resolveField aliases f).annotations.attributes = [] := by
  have hvisible : ∀ (changes : Bool) (lines : List String),
      ((if changes then f.annotations.addCommentLines lines
          else f.annotations).addModifiers ["public"]).modifiers = ["public"] ∧
        ((if changes then f.annotations.addCommentLines lines
          else f.annotations).addModifiers ["public"]).attributes = [] := by
    intro changes lines
    cases changes with
    | true => exact ⟨congrArg (addNew · ["public"]) h, h'⟩
    | false => exact ⟨congrArg (addNew · ["public"]) h, h'⟩
  unfold resolveField
  dsimp only
  by_cases hp : 0 < (aliases.resolve f.type).pointers
  · rw [if_pos (CsType.isPointer_iff.mpr hp), if_pos hp]
    exact ⟨congrArg (addNew · ["unsafe"]) (hvisible _ _).1, (hvisible _ _).2⟩
  · rw [if_neg (fun h => hp (CsType.isPointer_iff.mp h)), if_neg hp]
    exact hvisible _ _

/-- Laying a field out adds modifiers if it becomes a buffer. -/
theorem layOutField_marks (aliases : Aliases) (scope : BoundScope) (struct : Leaf) (f : Field) :
    (layOutField aliases scope struct f).field.annotations.modifiers =
        (if BecomesBuffer aliases f then
          addNew (resolveField aliases f).annotations.modifiers ["unsafe", "fixed"]
        else (resolveField aliases f).annotations.modifiers) ∧
      (layOutField aliases scope struct f).field.annotations.attributes =
        (resolveField aliases f).annotations.attributes := by
  have hiff : BecomesBuffer aliases f ↔ f.isArray = true ∧
      ¬(aliases.resolve f.type).isUnknown = true ∧ (aliases.resolve f.type).isSimple = true := by
    rw [BecomesBuffer, CsType.fitsBuffer_iff]
  unfold layOutField
  by_cases ha : f.isArray = true
  · rw [if_pos ha, layOutArray]
    by_cases hunknown : (resolveField aliases f).type.isUnknown = true
    · rw [if_pos hunknown, if_neg fun h => (hiff.mp h).2.1 hunknown]
      exact ⟨rfl, rfl⟩
    · rw [if_neg hunknown]
      by_cases hsimple : (resolveField aliases f).type.isSimple = true
      · rw [if_pos hsimple, if_pos (hiff.mpr ⟨ha, hunknown, hsimple⟩)]
        exact ⟨rfl, rfl⟩
      · rw [if_neg hsimple, if_neg fun h => hsimple (hiff.mp h).2.2]
        exact ⟨rfl, rfl⟩
  · rw [if_neg ha, if_neg fun h => ha h.1]
    exact ⟨rfl, rfl⟩

theorem field_marked (scope : BoundScope) (struct : Leaf) {item : Header.Field} {f : Field}
    (h : Build.FieldImage item f) :
    FieldMarked aliases scope struct f (layOutField aliases scope struct f).field := by
  obtain ⟨hplain, hplain'⟩ := Build.annotationsOf_marks item.comments
  rw [← h.annotations] at hplain hplain'
  obtain ⟨hmodifiers, hattributes⟩ := resolveField_marks aliases hplain hplain'
  obtain ⟨hlaid, hlaid'⟩ := layOutField_marks aliases scope struct f
  refine ⟨layOutField_layout aliases scope struct f, hlaid.trans ?_, hlaid'.trans hattributes⟩
  rw [hmodifiers]
  by_cases hbuffer : BecomesBuffer aliases f
  · by_cases hp : 0 < (aliases.resolve f.type).pointers
    · simp [hbuffer, hp, addNew]
    · simp [hbuffer, hp, addNew]
  · simp [hbuffer]

end Finish

/-! ## All declarations -/

open Finish (FunctionMarked DelegateMarked FieldMarked allDelegates)

namespace CSharp

/-- Nowhere in a set of declarations is a modifier or an attribute said twice. -/
structure DeclarationSet.NoRepeats (d : DeclarationSet) : Prop where
  constants : ∀ c ∈ d.constants ++ d.enumConstants, c.annotations.NoRepeats
  enums : ∀ e ∈ d.enums, e.annotations.NoRepeats ∧ ∀ v ∈ e.values, v.annotations.NoRepeats
  aliases : ∀ a ∈ d.aliases, a.annotations.NoRepeats
  structs : ∀ s ∈ d.structs ++ d.inlineArrays,
    s.annotations.NoRepeats ∧ ∀ f ∈ s.fields, f.annotations.NoRepeats
  delegates : ∀ x ∈ allDelegates d,
    x.annotations.NoRepeats ∧ ∀ a ∈ x.arguments, a.annotations.NoRepeats
  functions : ∀ f ∈ d.functions,
    f.annotations.NoRepeats ∧ ∀ a ∈ f.arguments, a.annotations.NoRepeats

end CSharp

/-- The modifiers and attributes of finished declarations, given how they were built. -/
structure ExactlyMarked (o : Options) (aliases : Aliases) (built final : DeclarationSet) :
    Prop where
  functions : List.Forall₂ (FunctionMarked o aliases) built.functions final.functions
  /-- All delegates stand in one list, and none is left inside a struct. -/
  delegates : List.Forall₂ (DelegateMarked o aliases) (allDelegates built) final.delegates
  inner : ∀ s ∈ final.structs ++ final.inlineArrays, s.inner = []
  fields : List.Forall₂ (fun s s' => List.Forall₂ (FieldMarked aliases (.of built) s.name)
    s.fields s'.fields) built.structs final.structs
  /-- The element of a wrapper is public and nothing else. -/
  elements : ∀ w ∈ final.inlineArrays, ∀ f ∈ w.fields,
    f.annotations.modifiers = ["public"] ∧ f.annotations.attributes = []
  noRepeats : final.NoRepeats

namespace Finish

theorem FunctionMarked.noRepeats {o : Options} {aliases : Aliases} {f f' : Function}
    (h : FunctionMarked o aliases f f') : f'.annotations.NoRepeats := by
  refine ⟨?_, h.attributes ▸ List.nodup_singleton _⟩
  rw [h.modifiers]
  split
  · decide
  · decide

theorem DelegateMarked.noRepeats {o : Options} {aliases : Aliases} {x x' : Delegate}
    (h : DelegateMarked o aliases x x') : x'.annotations.NoRepeats := by
  refine ⟨?_, h.attributes ▸ List.nodup_singleton _⟩
  rw [h.modifiers]
  split
  · decide
  · decide

theorem FieldMarked.noRepeats {aliases : Aliases} {scope : BoundScope} {struct : Leaf}
    {f f' : Field} (h : FieldMarked aliases scope struct f f') : f'.annotations.NoRepeats := by
  refine ⟨?_, h.attributes ▸ List.nodup_nil⟩
  rw [h.modifiers]
  split
  · split
    · decide
    · decide
  · split
    · decide
    · decide

end Finish

namespace Build

theorem annotationsOf_noRepeats (c : Option Header.Comments) : (annotationsOf c).NoRepeats := by
  obtain ⟨hmodifiers, hattributes⟩ := annotationsOf_marks c
  exact ⟨hmodifiers ▸ List.nodup_nil, hattributes ▸ List.nodup_nil⟩

variable {b : Builder} {known : Symbols} {notices : List Notice} {d : Header.Definitions}
  {built : DeclarationSet}

/-- Wherever a delegate comes from, it has its attribute and nothing else. -/
theorem NothingLost.delegateImage (h : NothingLost b known notices d built) {x : Delegate}
    (hx : x ∈ allDelegates built) : ∃ name, DelegateImage b.options name x := by
  rcases Finish.mem_allDelegates.mp hx with hx | hx | ⟨s, hs, hx⟩
  · obtain ⟨_, _, name, _, himage⟩ := h.delegates.exists_of_mem hx
    exact ⟨_, himage⟩
  · obtain ⟨images, hkept, _, hdelegates⟩ := h.typedefs
    rw [hdelegates] at hx
    obtain ⟨image, himage, hright⟩ := List.mem_filterMap.mp hx
    obtain ⟨t, _, ht⟩ := hkept.exists_of_mem himage
    cases ht with
    | typeAlias _ _ => exact absurd hright (by simp)
    | delegate _ hd => exact ⟨_, Option.some.inj hright ▸ hd⟩
  · obtain ⟨_, _, himage⟩ := h.structs.exists_of_mem hs
    obtain ⟨_, name, hsame, hd⟩ := himage.inner _ hx
    exact ⟨name, Declaration.delegate.inj hsame ▸ hd⟩

theorem NothingLost.constant_noRepeats (h : NothingLost b known notices d built) {c : Constant}
    (hc : c ∈ built.constants ++ built.enumConstants) : c.annotations.NoRepeats := by
  rcases List.mem_append.mp hc with hc | hc
  · obtain ⟨images, hconstants, hkept⟩ := h.constants
    rw [hconstants] at hc
    rcases List.mem_append.mp hc with hc | hc
    · obtain ⟨_, _, rfl⟩ := List.mem_map.mp hc
      exact ⟨List.nodup_nil, List.nodup_nil⟩
    · obtain ⟨_, _, himage⟩ := hkept.exists_of_mem hc
      exact himage.annotations ▸ annotationsOf_noRepeats _
  · obtain ⟨_, _, himage⟩ := h.enumConstants.exists_of_mem hc
    exact himage.annotations ▸ annotationsOf_noRepeats _

theorem NothingLost.enum_noRepeats (h : NothingLost b known notices d built) {e : Enum}
    (he : e ∈ built.enums) :
    e.annotations.NoRepeats ∧ ∀ v ∈ e.values, v.annotations.NoRepeats := by
  obtain ⟨item, _, himage⟩ := h.enums.exists_of_mem he
  refine ⟨himage.annotations ▸ ⟨(annotationsOf_noRepeats _).modifiers, ?_⟩, fun v hv => ?_⟩
  · cases item.isFlags with
    | true => exact List.nodup_singleton _
    | false => exact List.nodup_nil
  · obtain ⟨_, _, hvalue⟩ := himage.values.exists_of_mem hv
    exact hvalue.annotations ▸ annotationsOf_noRepeats _

theorem NothingLost.alias_noRepeats (h : NothingLost b known notices d built) {a : Alias}
    (ha : a ∈ built.aliases) : a.annotations.NoRepeats := by
  obtain ⟨images, hkept, haliases, _⟩ := h.typedefs
  rw [haliases] at ha
  obtain ⟨image, himage, hleft⟩ := List.mem_filterMap.mp ha
  obtain ⟨t, _, ht⟩ := hkept.exists_of_mem himage
  cases ht with
  | typeAlias _ hannotations =>
      obtain rfl := Option.some.inj hleft
      exact hannotations ▸ annotationsOf_noRepeats _
  | delegate _ _ => exact absurd hleft (by simp)

end Build

namespace Finish

variable {b : Build.Builder} {known : Symbols} {notices : List Notice} {d : Header.Definitions}
  {built : DeclarationSet} {aliases : Aliases}

theorem mem_inlineArrays {o : Options} {w : Struct}
    (hw : w ∈ (declarations o aliases built).inlineArrays) :
    ∃ s f, w = wrapperOf (.of built) s (resolveField aliases f) := by
  obtain ⟨s, _, hw⟩ := List.mem_flatMap.mp hw
  rw [wrappers_eq] at hw
  obtain ⟨f, _, rfl⟩ := List.mem_map.mp hw
  exact ⟨s.name, f, rfl⟩

/-- Nothing but delegates was built inside structs, and these are moved out. -/
theorem inner_eq_nil (h : Build.NothingLost b known notices d built) {o : Options} {s : Struct}
    (hs : s ∈ (declarations o aliases built).structs ++
      (declarations o aliases built).inlineArrays) :
    s.inner = [] := by
  rcases List.mem_append.mp hs with hs | hs
  · obtain ⟨s₀, hs₀, rfl⟩ := List.mem_map.mp hs
    obtain ⟨_, _, himage⟩ := h.structs.exists_of_mem hs₀
    refine List.filter_eq_nil_iff.mpr fun x hx => ?_
    obtain ⟨_, _, rfl, _⟩ := himage.inner x hx
    simp [delegate?]
  · obtain ⟨_, _, rfl⟩ := mem_inlineArrays hs
    rfl

theorem functions_marked (h : Build.NothingLost b known notices d built) :
    List.Forall₂ (FunctionMarked b.options aliases) built.functions
      (declarations b.options aliases built).functions := by
  refine List.forall₂_map_right_iff.mpr (List.forall₂_same.mpr fun f hf => ?_)
  obtain ⟨_, _, himage⟩ := h.functions.exists_of_mem hf
  exact function_marked himage

theorem delegates_marked (h : Build.NothingLost b known notices d built) :
    List.Forall₂ (DelegateMarked b.options aliases) (allDelegates built)
      (declarations b.options aliases built).delegates := by
  refine List.forall₂_map_right_iff.mpr (List.forall₂_same.mpr fun x hx => ?_)
  obtain ⟨_, himage⟩ := h.delegateImage hx
  exact delegate_marked himage

theorem fields_marked (h : Build.NothingLost b known notices d built) :
    List.Forall₂ (fun s s' => List.Forall₂ (FieldMarked aliases (.of built) s.name)
      s.fields s'.fields) built.structs (declarations b.options aliases built).structs := by
  refine List.forall₂_map_right_iff.mpr (List.forall₂_same.mpr fun s hs => ?_)
  refine List.forall₂_map_right_iff.mpr (List.forall₂_map_right_iff.mpr
    (List.forall₂_same.mpr fun f hf => ?_))
  obtain ⟨_, _, hstruct⟩ := h.structs.exists_of_mem hs
  obtain ⟨_, _, hfield⟩ := hstruct.fields.exists_of_mem hf
  exact field_marked _ _ hfield

/-- Arguments keep the annotations that they were built with, which are none. -/
theorem resolved_arguments_noRepeats {as : List Argument} (h : ∀ a ∈ as, a.annotations = {}) :
    ∀ a ∈ as.map (resolveArgument aliases), a.annotations.NoRepeats := by
  intro a ha
  obtain ⟨a₀, ha₀, rfl⟩ := List.mem_map.mp ha
  show a₀.annotations.NoRepeats
  rw [h a₀ ha₀]
  exact ⟨List.nodup_nil, List.nodup_nil⟩

theorem declarations_noRepeats (h : Build.NothingLost b known notices d built)
    (aliases : Aliases) : (declarations b.options aliases built).NoRepeats where
  constants c hc := by
    have hmap : (declarations b.options aliases built).constants ++
        (declarations b.options aliases built).enumConstants =
          (built.constants ++ built.enumConstants).map constant := List.map_append.symm
    rw [hmap] at hc
    obtain ⟨c₀, hc₀, rfl⟩ := List.mem_map.mp hc
    exact (h.constant_noRepeats hc₀).addModifiers _
  enums e he := by
    obtain ⟨e₀, he₀, rfl⟩ := List.mem_map.mp he
    obtain ⟨henum, hvalues⟩ := h.enum_noRepeats he₀
    exact ⟨henum.addModifiers _, hvalues⟩
  aliases a ha := h.alias_noRepeats ha
  structs s hs := by
    rcases List.mem_append.mp hs with hs | hs
    · obtain ⟨s₀, hs₀, rfl⟩ := List.mem_map.mp hs
      obtain ⟨_, _, himage⟩ := h.structs.exists_of_mem hs₀
      refine ⟨(himage.annotations ▸ Build.annotationsOf_noRepeats _).addModifiers _, fun f hf => ?_⟩
      obtain ⟨l, hl, rfl⟩ := List.mem_map.mp hf
      obtain ⟨f₀, hf₀, rfl⟩ := List.mem_map.mp hl
      obtain ⟨_, _, hfield⟩ := himage.fields.exists_of_mem hf₀
      exact (field_marked _ _ hfield).noRepeats
    · obtain ⟨_, _, rfl⟩ := mem_inlineArrays hs
      refine ⟨⟨List.nodup_singleton _, List.nodup_singleton _⟩, fun f hf => ?_⟩
      obtain rfl := List.mem_singleton.mp hf
      exact ⟨List.nodup_singleton _, List.nodup_nil⟩
  delegates x hx := by
    rcases mem_allDelegates.mp hx with hx | hx | ⟨s, hs, hx⟩
    · obtain ⟨x₀, hx₀, rfl⟩ := List.mem_map.mp hx
      obtain ⟨_, himage⟩ := h.delegateImage hx₀
      exact ⟨(delegate_marked himage).noRepeats, resolved_arguments_noRepeats himage.arguments⟩
    · exact absurd hx List.not_mem_nil
    · rw [inner_eq_nil h (List.mem_append_left _ hs)] at hx
      exact absurd hx List.not_mem_nil
  functions f hf := by
    obtain ⟨f₀, hf₀, rfl⟩ := List.mem_map.mp hf
    obtain ⟨_, _, himage⟩ := h.functions.exists_of_mem hf₀
    refine ⟨(function_marked himage).noRepeats, resolved_arguments_noRepeats fun a ha => ?_⟩
    obtain ⟨_, _, hargument⟩ := himage.arguments.exists_of_mem ha
    exact hargument.annotations

/-- What was built is marked in the end by its types. -/
theorem declarations_marked (h : Build.NothingLost b known notices d built) (aliases : Aliases) :
    ExactlyMarked b.options aliases built (declarations b.options aliases built) where
  functions := functions_marked h
  delegates := delegates_marked h
  inner _ hs := inner_eq_nil h hs
  fields := fields_marked h
  elements w hw f hf := by
    obtain ⟨_, _, rfl⟩ := mem_inlineArrays hw
    obtain rfl := List.mem_singleton.mp hf
    exact ⟨rfl, rfl⟩
  noRepeats := declarations_noRepeats h aliases

end Finish

/-- **Modifiers and attributes are exact.** Whatever the header, if it gets its declarations then
they are marked by their types, and nothing is said twice. -/
theorem finished_exactlyMarked (o : Options) (d : Header.Definitions) :
    (d.WellTyped → ∃ final, finishedOf o d = .ok final) ∧
    ∀ final, finishedOf o d = .ok final →
      ∃ built, (Build.declarations d (.start o)).result = .ok built ∧
        ExactlyMarked o (aliasesOf o d) built final := by
  refine ⟨fun h => ⟨_, finishedOf_eq h o⟩, fun final hfinal => ?_⟩
  obtain ⟨built, hbuilt, hfinish⟩ := bind_eq_ok.mp hfinal
  rw [Finish.finish_of_ok hfinish]
  exact ⟨built, hbuilt, Finish.declarations_marked (Build.nothingLost_of_declarations hbuilt) _⟩

/-- A function pointer with a parameter that is a pointer by an alias. -/
def handleCallback : Header.TypeDesc :=
  .named (some "Callback")
    (.pointer (.function (.builtin "void") [.named (some "handle") (.user "Handle")]))

/-- Pointers that come in by an alias alone, a type that is not known, and fields of all kinds. -/
def handleHeader : Header.Definitions where
  typedefs :=
    [{ name := "Handle", type := { description := .pointer (.builtin "void") } },
      { name := "Callback", type := { description := handleCallback } }]
  structs :=
    [{ name := "Node", fields :=
        [{ name := "bytes", type := { description := .array (.builtin "char") (some "4") } },
          { name := "handles", type := { description := .array (.user "Handle") (some "2") } },
          { name := "nodes", type := { description := .array (.user "Node") (some "2") } },
          { name := "owner", type := { description := .user "Handle" } },
          { name := "count", type := { description := .builtin "int" } }] }]
  functions :=
    [{ name := "Use", arguments :=
        [{ name := "handle", type := some { description := .user "Handle" } }] },
      { name := "Odd", returnType := some { description := .function (.builtin "int") [] } },
      { name := "Tick" }]

theorem finished_exactlyMarked_handleHeader : handleHeader.WellTyped ∧
    ∃ built final, finishedOf {} handleHeader = .ok final ∧
      (Build.declarations handleHeader (.start {})).result = .ok built ∧
      ExactlyMarked {} (aliasesOf {} handleHeader) built final := by
  have hwell : handleHeader.WellTyped := by decide
  obtain ⟨hends, hmarked⟩ := finished_exactlyMarked {} handleHeader
  obtain ⟨final, hfinal⟩ := hends hwell
  obtain ⟨built, hbuilt, hexact⟩ := hmarked final hfinal
  exact ⟨hwell, built, final, hfinal, hbuilt, hexact⟩

example : (finishedOf {} handleHeader).toOption.map (fun final =>
    (final.functions.map (·.annotations.modifiers.contains "unsafe"),
      final.structs.map fun s => s.fields.map (·.annotations.modifiers))) =
    some ([true, true, false],
      [[["public", "unsafe", "fixed"], ["public", "unsafe", "fixed"], ["public"],
        ["public", "unsafe"], ["public"]]]) := by
  decide +kernel

end NativeBindings
