import NativeBindings.Proofs.AcceptedPart

/-!
# References to delegates

A function pointer that is itself the type of a field or an argument brings its delegate
with it. Met anywhere else it is only converted, to the name of a delegate that nobody may
have made: as the element of an array, as what a function returns, and behind pointers. In
the signature of a delegate and as the target of a typedef it is met behind pointers only.

The first kind of reference is always closed. The main statement says exactly when those of
the second kind are, in terms of the names in the header.
-/

namespace NativeBindings

open Header (TypeDesc Signature)
open CSharp Build

/-! ## The types in declarations -/

namespace CSharp

/-- The types in the signature, that of the result first. -/
def Delegate.types (d : Delegate) : List CsType := d.returnType :: d.arguments.map (·.type)

/-- The types in the signature, that of the result first. -/
def Function.types (f : Function) : List CsType := f.returnType :: f.arguments.map (·.type)

/-- The types of the fields. -/
def Struct.types (s : Struct) : List CsType := s.fields.map (·.type)

/-- The types in a set of declarations: of fields, those of wrappers included, and in the
signatures of delegates and functions. -/
def DeclarationSet.types (d : DeclarationSet) : List CsType :=
  (d.structs ++ d.inlineArrays).flatMap (·.types) ++
    ((Finish.allDelegates d).flatMap (·.types) ++ d.functions.flatMap (·.types))

theorem DeclarationSet.mem_types {d : DeclarationSet} {t : CsType} : t ∈ d.types ↔
    (∃ s ∈ d.structs ++ d.inlineArrays, t ∈ s.types) ∨
      (∃ x ∈ Finish.allDelegates d, t ∈ x.types) ∨ ∃ f ∈ d.functions, t ∈ f.types := by
  rw [DeclarationSet.types, List.mem_append, List.mem_append, List.mem_flatMap, List.mem_flatMap,
    List.mem_flatMap]

end CSharp

/-! ## Finished types -/

namespace Finish

variable {o : Options} {aliases : Aliases}

theorem types_delegate (x : Delegate) :
    (delegate o aliases x).types = x.types.map aliases.resolve := by
  simp [Delegate.types, delegate, resolveArgument]

theorem types_function (f : Function) :
    (function o aliases f).types = f.types.map aliases.resolve := by
  simp [Function.types, function, resolveArgument]

/-- How a field of a struct is laid out. -/
inductive LaidOut (aliases : Aliases) (struct : Leaf) (f : Field) (l : LaidOutField) : Prop where
  /-- The field itself gets its resolved type. -/
  | own (htype : l.field.type = aliases.resolve f.type) (hnone : l.wrapper = none)
      (hname : l.field.name = f.name) (harray : l.field.isArray = f.isArray)
  /-- An array gets a wrapper, and the element of the wrapper gets the resolved type. -/
  | wrapped {w : Struct} (htype : l.field.type = { base := wrapperName struct f.name })
      (hsome : l.wrapper = some w) (htypes : w.types = [aliases.resolve f.type])
      (hname : l.field.name = f.name) (hwrapper : w.name = wrapperName struct f.name)
      (ha : f.isArray = true) (harray : l.field.isArray = false)

theorem layOutField_laidOut (aliases : Aliases) (scope : BoundScope) (struct : Leaf) (f : Field) :
    LaidOut aliases struct f (layOutField aliases scope struct f) := by
  rw [layOutField]
  split
  · rename_i ha
    rw [layOutArray]
    split
    · exact .own rfl rfl rfl rfl
    · split
      · exact .own rfl rfl rfl rfl
      · exact .wrapped rfl rfl rfl rfl rfl ha rfl
  · exact .own rfl rfl rfl rfl

theorem allDelegates_declarations {d : DeclarationSet} (h : d.Writable) :
    allDelegates (declarations o aliases d) = (allDelegates d).map (delegate o aliases) := by
  -- all delegates have moved to the top, so a finished struct has none inside
  have hplain : ∀ s ∈ (declarations o aliases d).structs, s.inner = [] := by
    intro s hs
    obtain ⟨s', hs', rfl⟩ := List.mem_map.mp hs
    refine List.filter_eq_nil_iff.mpr fun i hi => ?_
    obtain ⟨x, rfl, _⟩ := (h.structs s' hs').inner i hi
    simp [delegate?]
  have hnone : ((declarations o aliases d).structs.flatMap fun s =>
      s.inner.filterMap delegate?) = [] := by
    refine List.flatMap_eq_nil_iff.mpr fun s hs => ?_
    rw [hplain s hs]
    rfl
  rw [allDelegates, hnone, List.append_nil]
  exact List.append_nil _

/-- Every type of a finished declaration is a resolved one, or that of a wrapper. -/
theorem of_mem_types {d : DeclarationSet} (h : d.Writable) {t : CsType}
    (ht : t ∈ (declarations o aliases d).types) : (∃ u ∈ d.types, aliases.resolve u = t) ∨
      ∃ struct field : Leaf, t = { base := wrapperName struct field } := by
  have hfield : ∀ s ∈ d.structs, ∀ f ∈ s.fields, f.type ∈ d.types := fun s hs f hf =>
    DeclarationSet.mem_types.mpr (.inl ⟨s, List.mem_append_left _ hs, List.mem_map_of_mem hf⟩)
  rw [DeclarationSet.mem_types, allDelegates_declarations h] at ht
  rcases ht with ⟨s', hs', ht⟩ | ⟨x', hx', ht⟩ | ⟨f', hf', ht⟩
  · rcases List.mem_append.mp hs' with hs' | hs'
    · obtain ⟨s, hs, rfl⟩ := List.mem_map.mp hs'
      obtain ⟨f', hf', rfl⟩ := List.mem_map.mp ht
      obtain ⟨l, hl, rfl⟩ := List.mem_map.mp hf'
      obtain ⟨f, hf, rfl⟩ := List.mem_map.mp hl
      cases layOutField_laidOut aliases (.of d) s.name f with
      | own htype => exact .inl ⟨f.type, hfield s hs f hf, htype.symm⟩
      | wrapped htype => exact .inr ⟨s.name, f.name, htype⟩
    · obtain ⟨s, hs, hw⟩ := List.mem_flatMap.mp hs'
      obtain ⟨l, hl, hw⟩ := List.mem_filterMap.mp hw
      obtain ⟨f, hf, rfl⟩ := List.mem_map.mp hl
      cases layOutField_laidOut aliases (.of d) s.name f with
      | own _ hnone =>
          rw [hnone] at hw
          exact absurd hw (by simp)
      | wrapped _ hsome htypes =>
          rw [hsome] at hw
          injection hw with hw
          rw [← hw, htypes] at ht
          exact .inl ⟨f.type, hfield s hs f hf, (List.mem_singleton.mp ht).symm⟩
  · obtain ⟨x, hx, rfl⟩ := List.mem_map.mp hx'
    rw [types_delegate] at ht
    obtain ⟨u, hu, rfl⟩ := List.mem_map.mp ht
    exact .inl ⟨u, DeclarationSet.mem_types.mpr (.inr (.inl ⟨x, hx, hu⟩)), rfl⟩
  · obtain ⟨f, hf, rfl⟩ := List.mem_map.mp hf'
    rw [types_function] at ht
    obtain ⟨u, hu, rfl⟩ := List.mem_map.mp ht
    exact .inl ⟨u, DeclarationSet.mem_types.mpr (.inr (.inr ⟨f, hf, hu⟩)), rfl⟩

/-- Every type is there, resolved, once its declaration is finished. -/
theorem resolve_mem_types {d : DeclarationSet} (h : d.Writable) (hw : d.inlineArrays = [])
    {u : CsType} (hu : u ∈ d.types) : aliases.resolve u ∈ (declarations o aliases d).types := by
  rw [DeclarationSet.mem_types, hw, List.append_nil] at hu
  rw [DeclarationSet.mem_types, allDelegates_declarations h]
  rcases hu with ⟨s, hs, hu⟩ | ⟨x, hx, hu⟩ | ⟨f, hf, hu⟩
  · obtain ⟨f, hf, rfl⟩ := List.mem_map.mp hu
    have hlaid : layOutField aliases (.of d) s.name f ∈ layOutFields aliases (.of d) s :=
      List.mem_map_of_mem hf
    cases layOutField_laidOut aliases (.of d) s.name f with
    | own htype =>
        refine .inl ⟨_, List.mem_append_left _ (List.mem_map_of_mem hs), ?_⟩
        rw [← htype]
        exact List.mem_map_of_mem (List.mem_map_of_mem hlaid)
    | @wrapped w _ hsome htypes =>
        refine .inl ⟨w, List.mem_append_right _ (List.mem_flatMap.mpr ⟨s, hs, ?_⟩), ?_⟩
        · exact List.mem_filterMap.mpr ⟨_, hlaid, hsome⟩
        · rw [htypes]
          exact List.mem_singleton_self _
  · refine .inr (.inl ⟨_, List.mem_map_of_mem hx, ?_⟩)
    rw [types_delegate]
    exact List.mem_map_of_mem hu
  · refine .inr (.inr ⟨_, List.mem_map_of_mem hf, ?_⟩)
    rw [types_function]
    exact List.mem_map_of_mem hu

end Finish

/-- The last character of a name is that of its suffix. -/
theorem getLast?_toList_append {x y : String} (hy : y.toList ≠ []) :
    (x ++ y).toList.getLast? = y.toList.getLast? := by
  rw [String.toList_append, List.getLast?_append_of_ne_nil _ hy]

theorem getLast?_wrapperName (struct field : Leaf) :
    (Finish.wrapperName struct field).toList.getLast? = some 'y' :=
  getLast?_toList_append (by decide)

/-- No wrapper for an array is named like a delegate. -/
theorem wrapperName_ne_delegateName (struct field name : Leaf) :
    Finish.wrapperName struct field ≠ delegateName name := by
  intro hsame
  -- the two suffixes end in different characters
  have hends := congrArg (fun s : String => s.toList.getLast?) hsame
  rw [getLast?_wrapperName, delegateName, getLast?_toList_append (by decide)] at hends
  exact absurd hends (by decide)

/-! ## Names in a header -/

/-- The function pointer that a description refers to without being one. -/
def behindPointers? (t : TypeDesc) : Option Leaf :=
  if t.functionPointer?.isSome then none else wrapper? t

/-- The function pointers that a signature refers to. -/
def signatureReferences (s : Signature) : List Leaf :=
  (s.returnType :: s.parameters.map bareParameter).filterMap behindPointers?

/-- The function pointers that a type refers to: those in its signature if it is one itself. -/
def typeReferences (t : TypeDesc) : List Leaf :=
  match t.functionPointer? with
  | some (_, s) => signatureReferences s
  | none => (wrapper? t).toList

/-- The function pointers that a field refers to. -/
def fieldReferences (f : Header.Field) : List Leaf :=
  if isArrayField f then (wrapper? (arrayShape f.type.description).1).toList
  else typeReferences f.type.description

/-- The function pointers that an argument refers to. -/
def argumentReferences (a : Header.Argument) : List Leaf :=
  match a.type with
  | none => []
  | some t =>
    match t.description with
    | .array element _ => (wrapper? element).toList
    | description => typeReferences description

/-- The function pointers that a function refers to. -/
def functionReferences (f : Header.Function) : List Leaf :=
  (f.returnType.bind fun t => wrapper? t.description).toList ++
    f.arguments.flatMap argumentReferences

/-- The function pointers that the signature of a typedef's delegate refers to. -/
def typedefReferences (t : Header.Typedef) : List Leaf :=
  match t.type.description.functionPointer? with
  | some (_, s) => signatureReferences s
  | none => []

/-- The function pointers that declarations refer to. -/
def outputReferences (d : Header.Definitions) : List Leaf :=
  d.structs.flatMap (·.fields.flatMap fieldReferences) ++
    (d.typedefs.flatMap typedefReferences ++ d.functions.flatMap functionReferences)

/-- The function pointers that targets of typedefs refer to. -/
def targetReferences (d : Header.Definitions) : List Leaf :=
  d.typedefs.filterMap fun t => behindPointers? t.type.description

/-- The name of the delegate that a field brings. -/
def fieldDelegateName? (f : Header.Field) : Option String :=
  if isArrayField f then none
  else f.type.description.functionPointer?.map fun p => delegateName (p.1.orElse f.name)

/-- The name of the delegate that an argument brings. -/
def argumentDelegateName? (function : Leaf) (a : Header.Argument) : Option String := do
  let t ← a.type
  let _ ← t.description.functionPointer?
  let name ← (parameterName a.name).toOption
  return delegateName (.text (function.display ++ name.display))

/-- The names of delegates that fields and arguments bring. -/
def broughtNames (d : Header.Definitions) : List String :=
  d.structs.flatMap (·.fields.filterMap fieldDelegateName?) ++
    d.functions.flatMap fun f => f.arguments.filterMap (argumentDelegateName? f.name)

/-- The name of the delegate that a typedef makes. -/
def typedefDelegateName? (t : Header.Typedef) : Option Leaf :=
  t.type.description.functionPointer?.map fun p => p.1.orElse t.name

/-- The names of all delegates that are made for a header. -/
def madeNames (d : Header.Definitions) : List Leaf :=
  (broughtNames d).map .text ++ d.typedefs.filterMap typedefDelegateName?

/-- The names of delegates that stand for function pointers of a header, whether a delegate is
made or not. -/
def delegateNames (d : Header.Definitions) : List String :=
  broughtNames d ++ (outputReferences d ++ targetReferences d).map delegateName

/-! ## What references become -/

/-- The type refers to the delegate of a function pointer. -/
def RefersTo (t : CsType) (name : Leaf) : Prop := t.base = .text (delegateName name)

namespace Build

variable {native : NativeTypes}

theorem SlotType.refersTo {t : TypeDesc} {type : CsType} (h : SlotType native t type)
    {name : Leaf} (hw : behindPointers? t = some name) : RefersTo type name := by
  rw [behindPointers?] at hw
  split at hw
  · exact absurd hw (by simp)
  · rename_i hp
    exact h.base_of_wrapper? (Option.not_isSome_iff_eq_none.mp hp) hw

theorem DelegateFrom.refersTo {n : Leaf} {s : Signature} {x : Delegate}
    (h : DelegateFrom native n s x) {name : Leaf} (hw : name ∈ signatureReferences s) :
    ∃ t ∈ x.types, RefersTo t name := by
  obtain ⟨t, ht, hname⟩ := List.mem_filterMap.mp hw
  rcases List.mem_cons.mp ht with rfl | ht
  · exact ⟨_, List.mem_cons_self, h.returnType.refersTo hname⟩
  · obtain ⟨p, hp, rfl⟩ := List.mem_map.mp ht
    obtain ⟨a, ha, hslot⟩ := exists_of_forall₂ h.arguments hp
    exact ⟨a.type, List.mem_cons_of_mem _ (List.mem_map_of_mem ha), hslot.refersTo hname⟩

/-- What a field refers to is referred to by its type or by its delegate. -/
theorem FieldFrom.refersTo {f : Header.Field} {b : BuiltField} (h : FieldFrom native f b)
    {name : Leaf} (hw : name ∈ fieldReferences f) : RefersTo b.field.type name ∨
      ∃ x, b.delegate = some x ∧ ∃ t ∈ x.types, RefersTo t name := by
  rw [fieldReferences] at hw
  cases h with
  | array ha h _ =>
      rw [if_pos ha, Option.mem_toList] at hw
      exact .inl (h.base_of_wrapper? hw)
  | functionPointer ha hp _ h hd =>
      rw [if_neg (by simp [ha]), typeReferences, hp] at hw
      exact .inr ⟨_, hd, h.refersTo hw⟩
  | converted ha hp h _ =>
      rw [if_neg (by simp [ha]), typeReferences, hp, Option.mem_toList] at hw
      exact .inl (h.base_of_wrapper? hw)

/-- What an argument refers to is referred to by its type or by its delegate. -/
theorem ArgumentFrom.refersTo {function : Leaf} {a : Header.Argument} {b : BuiltArgument}
    (h : ArgumentFrom native function a b) {name : Leaf} (hw : name ∈ argumentReferences a) :
    RefersTo b.argument.type name ∨
      ∃ x, b.delegate = some x ∧ ∃ t ∈ x.types, RefersTo t name := by
  rw [argumentReferences] at hw
  cases h with
  | array ht ha h htype _ =>
      simp only [ht, ha, Option.mem_toList] at hw
      refine .inl ?_
      rw [htype]
      exact h.base_of_wrapper? hw
  | functionPointer ht hp _ _ h hd =>
      simp only [ht] at hw
      split at hw
      · rename_i ha
        rw [ha] at hp
        exact absurd hp (by simp [TypeDesc.functionPointer?])
      · rw [typeReferences, hp] at hw
        exact .inr ⟨_, hd, h.refersTo hw⟩
  | converted ht hp h _ =>
      simp only [ht] at hw
      split at hw
      · rename_i ha
        rw [ha] at h
        exact absurd h not_converted_array
      · rw [typeReferences, hp, Option.mem_toList] at hw
        exact .inl (h.base_of_wrapper? hw)

theorem ReturnFrom.refersTo {f : Header.Function} {type : CsType} (h : ReturnFrom native f type)
    {t : Header.TypeRef} (ht : f.returnType = some t) {name : Leaf}
    (hw : wrapper? t.description = some name) : RefersTo type name := by
  cases h with
  | void hnone =>
      rw [ht] at hnone
      exact absurd hnone (by simp)
  | converted ht' h =>
      rw [ht] at ht'
      injection ht' with ht'
      subst ht'
      exact h.base_of_wrapper? hw
  | refused ht' h =>
      rw [ht] at ht'
      injection ht' with ht'
      subst ht'
      -- a function pointer behind pointers is converted, so this return type was not refused
      obtain ⟨cause, hcause⟩ := h
      obtain ⟨type, htype⟩ := convert_of_wrapper? hw native
      rw [hcause] at htype
      exact absurd htype (by simp)

/-- The delegate that a field brings has the name of the field's function pointer. -/
theorem FieldFrom.delegateName? {f : Header.Field} {b : BuiltField} (h : FieldFrom native f b) :
    b.delegate.map (·.name) = (fieldDelegateName? f).map .text := by
  rw [fieldDelegateName?]
  cases h with
  | array ha _ hd => rw [hd, if_pos ha]; rfl
  | functionPointer ha hp _ h hd =>
      rw [hd, if_neg (by simp [ha]), hp, Option.map_some, h.name]
      rfl
  | converted ha hp _ hd => rw [hd, if_neg (by simp [ha]), hp]; rfl

/-- The delegate that an argument brings is named after the function and the argument. -/
theorem ArgumentFrom.delegateName? {function : Leaf} {a : Header.Argument} {b : BuiltArgument}
    (h : ArgumentFrom native function a b) :
    b.delegate.map (·.name) = (argumentDelegateName? function a).map .text := by
  rw [argumentDelegateName?]
  cases h with
  | array ht ha _ _ hd => rw [hd, ht, Option.bind_eq_bind, Option.bind_some, ha]; rfl
  | functionPointer ht hp hname _ h hd =>
      rw [hd, ht, Option.bind_eq_bind, Option.bind_some, hp, hname, Option.map_some, h.name]
      rfl
  | converted ht hp _ hd => rw [hd, ht, Option.bind_eq_bind, Option.bind_some, hp]; rfl

end Build

/-! ## What is built from a header without rejected parts -/

section Accepted

variable {o : Options} {d : Header.Definitions}

theorem delegate_types_built {x : Delegate}
    (hx : x ∈ Finish.allDelegates (builtDeclarations (.start o) d)) {t : CsType}
    (ht : t ∈ x.types) : t ∈ (builtDeclarations (.start o) d).types :=
  DeclarationSet.mem_types.mpr (.inr (.inl ⟨x, hx, ht⟩))

theorem mem_broughtNames {n : String} : n ∈ broughtNames d ↔
    (∃ s ∈ d.structs, ∃ f ∈ s.fields, fieldDelegateName? f = some n) ∨
      ∃ f ∈ d.functions, ∃ a ∈ f.arguments, argumentDelegateName? f.name a = some n := by
  simp only [broughtNames, List.mem_append, List.mem_flatMap, List.mem_filterMap]

theorem mem_madeNames {name : Leaf} : name ∈ madeNames d ↔
    (∃ n ∈ broughtNames d, .text n = name) ∨
      ∃ t ∈ d.typedefs, typedefDelegateName? t = some name := by
  simp only [madeNames, List.mem_append, List.mem_map, List.mem_filterMap]

/-- A delegate that a declaration brings has the name that it should have. -/
theorem exists_of_delegateName? {x? : Option Delegate} {n? : Option String}
    (h : x?.map (·.name) = n?.map Leaf.text) {n : String} (hn : n? = some n) :
    ∃ x, x? = some x ∧ x.name = .text n := by
  rw [hn, Option.map_some] at h
  exact Option.map_eq_some_iff.mp h

theorem delegateName?_of_exists {x? : Option Delegate} {n? : Option String}
    (h : x?.map (·.name) = n?.map Leaf.text) {x : Delegate} (hx : x? = some x) :
    ∃ n, n? = some n ∧ .text n = x.name := by
  rw [hx, Option.map_some] at h
  exact Option.map_eq_some_iff.mp h.symm

variable (h : d.WellTyped)
  (hall : AllAccepted o (knownAfter (Builder.start o).known d.defines) d)

include hall

theorem function_built {f : Header.Function} (hf : f ∈ d.functions) :
    builtFunction nativeTypes o f ∈ acceptedFunctions (knownAfter (Builder.start o).known d.defines)
      nativeTypes o d.functions := by
  obtain ⟨_, hmem, _, rfl⟩ := exists_of_forall₂ (forall₂_functions hall) hf
  exact hmem

include h

/-- What is built has the types and the delegates of every field. -/
theorem field_built {s : Header.Struct} (hs : s ∈ d.structs) {f : Header.Field}
    (hf : f ∈ s.fields) :
    ∃ b, FieldFrom nativeTypes f b ∧ b.field.type ∈ (builtDeclarations (.start o) d).types ∧
      ∀ x, b.delegate = some x → x ∈ Finish.allDelegates (builtDeclarations (.start o) d) := by
  obtain ⟨b, hkept, hfrom⟩ := exists_of_forall₂ (forall₂_fields h hall hs) hf
  obtain ⟨_, hstruct, _, rfl⟩ := exists_of_forall₂ (forall₂_structs hall) hs
  refine ⟨b, hfrom, ?_, fun x hx => ?_⟩
  · exact DeclarationSet.mem_types.mpr (.inl ⟨_, List.mem_append_left _ hstruct,
      List.mem_map_of_mem (List.mem_map_of_mem hkept)⟩)
  · refine Finish.mem_allDelegates.mpr (.inr (.inr ⟨_, hstruct, ?_⟩))
    refine List.mem_filterMap.mpr ⟨b, hkept, ?_⟩
    rw [hx]
    rfl

/-- What is built has the types and the delegates of every argument. -/
theorem argument_built {f : Header.Function} (hf : f ∈ d.functions) {a : Header.Argument}
    (ha : a ∈ f.arguments) : ∃ b, ArgumentFrom nativeTypes f.name a b ∧
      b.argument.type ∈ (builtDeclarations (.start o) d).types ∧
      ∀ x, b.delegate = some x → x ∈ Finish.allDelegates (builtDeclarations (.start o) d) := by
  obtain ⟨b, hkept, hfrom⟩ := exists_of_forall₂ (forall₂_arguments h hall hf) ha
  have hfunction := function_built hall hf
  refine ⟨b, hfrom, ?_, fun x hx => ?_⟩
  · exact DeclarationSet.mem_types.mpr (.inr (.inr ⟨_, List.mem_map_of_mem hfunction,
      List.mem_cons_of_mem _ (List.mem_map_of_mem (List.mem_map_of_mem hkept))⟩))
  · exact Finish.mem_allDelegates.mpr (.inl (List.mem_flatMap.mpr ⟨_, hfunction,
      List.mem_filterMap.mpr ⟨b, hkept, hx⟩⟩))

/-- What is built has the delegates of every typedef. -/
theorem typedef_built {t : Header.Typedef} (ht : t ∈ d.typedefs) :
    ∃ r, TypedefFrom nativeTypes t r ∧
      ∀ x, r = .delegate x → x ∈ Finish.allDelegates (builtDeclarations (.start o) d) := by
  obtain ⟨r, hresult, hfrom⟩ := exists_of_forall₂ (forall₂_typedefs h hall) ht
  refine ⟨r, hfrom, fun x hx => ?_⟩
  exact Finish.mem_allDelegates.mpr (.inr (.inl (List.mem_filterMap.mpr ⟨r, hresult, by rw [hx]⟩)))

/-- **Every reference of a declaration is found among the types that are built.** -/
theorem outputReferences_built {name : Leaf} (hname : name ∈ outputReferences d) :
    ∃ t ∈ (builtDeclarations (.start o) d).types, RefersTo t name := by
  rw [outputReferences, List.mem_append, List.mem_append, List.mem_flatMap, List.mem_flatMap,
    List.mem_flatMap] at hname
  rcases hname with ⟨s, hs, hname⟩ | ⟨t, ht, hname⟩ | ⟨f, hf, hname⟩
  · obtain ⟨f, hf, hname⟩ := List.mem_flatMap.mp hname
    obtain ⟨b, hfrom, htype, hdelegate⟩ := field_built h hall hs hf
    rcases hfrom.refersTo hname with href | ⟨x, hx, t, ht, href⟩
    · exact ⟨_, htype, href⟩
    · exact ⟨t, delegate_types_built (hdelegate x hx) ht, href⟩
  · obtain ⟨r, hfrom, hdelegate⟩ := typedef_built h hall ht
    rw [typedefReferences] at hname
    cases hfrom with
    | delegate hp hx =>
        rw [hp] at hname
        obtain ⟨u, hu, href⟩ := hx.refersTo hname
        exact ⟨u, delegate_types_built (hdelegate _ rfl) hu, href⟩
    | typeAlias hp _ _ => rw [hp] at hname; exact absurd hname (by simp)
    | identity hp => rw [hp] at hname; exact absurd hname (by simp)
  · rw [functionReferences, List.mem_append, List.mem_flatMap, Option.mem_toList] at hname
    rcases hname with hname | ⟨a, ha, hname⟩
    · obtain ⟨t, ht, hw⟩ := Option.bind_eq_some_iff.mp hname
      refine ⟨builtReturnType nativeTypes f, ?_,
        (builtReturnType_from (h.functions f hf) nativeTypes).refersTo ht hw⟩
      exact DeclarationSet.mem_types.mpr (.inr (.inr
        ⟨_, List.mem_map_of_mem (function_built hall hf), List.mem_cons_self⟩))
    · obtain ⟨b, hfrom, htype, hdelegate⟩ := argument_built h hall hf ha
      rcases hfrom.refersTo hname with href | ⟨x, hx, t, ht, href⟩
      · exact ⟨_, htype, href⟩
      · exact ⟨t, delegate_types_built (hdelegate x hx) ht, href⟩

/-- Every name that a declaration brings is that of a delegate. -/
theorem broughtNames_built {n : String} (hn : n ∈ broughtNames d) :
    ∃ x ∈ Finish.allDelegates (builtDeclarations (.start o) d), x.name = .text n := by
  rcases mem_broughtNames.mp hn with ⟨s, hs, f, hf, hn⟩ | ⟨f, hf, a, ha, hn⟩
  · obtain ⟨b, hfrom, _, hdelegate⟩ := field_built h hall hs hf
    obtain ⟨x, hx, hname⟩ := exists_of_delegateName? hfrom.delegateName? hn
    exact ⟨x, hdelegate x hx, hname⟩
  · obtain ⟨b, hfrom, _, hdelegate⟩ := argument_built h hall hf ha
    obtain ⟨x, hx, hname⟩ := exists_of_delegateName? hfrom.delegateName? hn
    exact ⟨x, hdelegate x hx, hname⟩

omit hall in
theorem name_mem_madeNames_of_built {x : Delegate}
    (hx : x ∈ Finish.allDelegates (builtDeclarations (.start o) d)) : x.name ∈ madeNames d := by
  rw [mem_madeNames]
  rcases Finish.mem_allDelegates.mp hx with hx | hx | ⟨s', hs', hx⟩
  · obtain ⟨g, hg, hx⟩ := List.mem_flatMap.mp hx
    obtain ⟨f, hf, _, _, rfl⟩ := mem_acceptedFunctions.mp hg
    obtain ⟨b, hb, hx⟩ := List.mem_filterMap.mp hx
    obtain ⟨a, ha, hb⟩ := mem_keptArguments.mp hb
    have hfrom := builtArgument?_from ((h.functions f hf).2.2.1 a ha) hb
    obtain ⟨n, hn, hname⟩ := delegateName?_of_exists hfrom.delegateName? hx
    exact .inl ⟨n, mem_broughtNames.mpr (.inr ⟨f, hf, a, ha, hn⟩), hname⟩
  · obtain ⟨r, hr, hx⟩ := List.mem_filterMap.mp hx
    obtain ⟨t, ht, _, hfrom⟩ := mem_typedefResults h.typedefs hr
    cases hfrom with
    | delegate hp hd =>
        injection hx with hx
        refine .inr ⟨t, ht, ?_⟩
        rw [typedefDelegateName?, hp, Option.map_some, ← hx, hd.name]
    | typeAlias _ _ _ => exact absurd hx (by simp)
    | identity _ => exact absurd hx (by simp)
  · obtain ⟨s, hs, _, rfl⟩ := mem_acceptedStructs.mp hs'
    obtain ⟨b, hb, hx⟩ := List.mem_filterMap.mp hx
    obtain ⟨y, hy, hx⟩ := Option.map_eq_some_iff.mp hx
    injection hx with hx
    subst hx
    obtain ⟨f, hf, _, hb⟩ := mem_keptFields.mp hb
    have hfrom := builtField?_from ((h.structs s hs).2.1 f hf) hb
    obtain ⟨n, hn, hname⟩ := delegateName?_of_exists hfrom.delegateName? hy
    exact .inl ⟨n, mem_broughtNames.mpr (.inl ⟨s, hs, f, hf, hn⟩), hname⟩

/-- **The delegates that are built have the names that the header says.** -/
theorem name_mem_madeNames {name : Leaf} :
    (∃ x ∈ Finish.allDelegates (builtDeclarations (.start o) d), x.name = name) ↔
      name ∈ madeNames d := by
  constructor
  · intro hdelegate
    obtain ⟨x, hx, rfl⟩ := hdelegate
    exact name_mem_madeNames_of_built h hx
  · intro hname
    rcases mem_madeNames.mp hname with ⟨n, hn, rfl⟩ | ⟨t, ht, hname⟩
    · exact broughtNames_built h hall hn
    · obtain ⟨r, hfrom, hdelegate⟩ := typedef_built h hall ht
      rw [typedefDelegateName?] at hname
      cases hfrom with
      | delegate hp hd =>
          rw [hp, Option.map_some] at hname
          injection hname with hname
          exact ⟨_, hdelegate _ rfl, hd.name.trans hname⟩
      | typeAlias hp _ _ => rw [hp] at hname; exact absurd hname (by simp)
      | identity hp => rw [hp] at hname; exact absurd hname (by simp)

end Accepted

/-! ## Closed references -/

/-- Every name of a delegate that stands for a function pointer of the header and occurs in the
declarations is that of a delegate that is declared. -/
def DelegatesClosed (d : Header.Definitions) (final : DeclarationSet) : Prop :=
  ∀ n ∈ delegateNames d, (∃ t ∈ final.types, t.base = .text n) →
    ∃ x ∈ final.delegates, x.name = .text n

/-- A name that is not that of a typedef is that of a delegate that is made. -/
def Declared (o : Options) (d : Header.Definitions) (name : Leaf) : Prop :=
  (aliasesOf o d).IsFinal (.text (delegateName name)) →
    .text (delegateName name) ∈ madeNames (acceptedPart o d)

/-- The name is reached from a type of a built declaration. -/
def Reached (o : Options) (d : Header.Definitions) (name : Leaf) : Prop :=
  ∃ built, (declarations d (.start o)).result = .ok built ∧
    ∃ t ∈ built.types, (aliasesOf o d).Leads t.base (.text (delegateName name))

/-- The name of a function pointer occurs in the declarations exactly if a type that was built leads
to it and no typedef has it. -/
theorem occurs_iff {o : Options} {d : Header.Definitions} (h : d.WellTyped)
    (ha : (aliasesOf o d).Acyclic) (name : Leaf) :
    (∃ t ∈ (Finish.declarations o (aliasesOf o d) (builtDeclarations (.start o) d)).types,
        t.base = .text (delegateName name)) ↔
      Reached o d name ∧ (aliasesOf o d).IsFinal (.text (delegateName name)) := by
  have hwritable := builtDeclarations_writable h (.start o)
  obtain ⟨_, hresult, _⟩ := declarations_runs h (.start o)
  constructor
  · intro hoccurs
    obtain ⟨t, ht, hbase⟩ := hoccurs
    -- a type in the end is a resolved one, or it names a wrapper for an array
    rcases Finish.of_mem_types hwritable ht with ⟨u, hu, rfl⟩ | ⟨struct, field, rfl⟩
    · obtain ⟨hleads, hfinal⟩ := (ha.base_resolve u _).mp hbase
      exact ⟨⟨_, hresult, u, hu, hleads⟩, hfinal⟩
    · injection hbase with hbase
      exact absurd hbase (wrapperName_ne_delegateName struct field name)
  -- no declaration is lost when it is finished, so the end of the chain occurs
  · intro hend
    obtain ⟨⟨built, hbuilt, u, hu, hleads⟩, hfinal⟩ := hend
    rw [hresult] at hbuilt
    injection hbuilt with hbuilt
    subst hbuilt
    exact ⟨_, Finish.resolve_mem_types hwritable rfl hu,
      (ha.base_resolve u _).mpr ⟨hleads, hfinal⟩⟩

/-- The delegates in the end have the names that are made in the accepted part. -/
theorem declared_iff {o : Options} {d : Header.Definitions} (h : d.WellTyped) (n : String) :
    (∃ x ∈ (Finish.declarations o (aliasesOf o d) (builtDeclarations (.start o) d)).delegates,
        x.name = .text n) ↔ .text n ∈ madeNames (acceptedPart o d) := by
  rw [← name_mem_madeNames (acceptedPart_wellTyped h o) (acceptedPart_allAccepted h o),
    builtDeclarations_acceptedPart h o]
  constructor
  · intro hdeclared
    obtain ⟨x', hx', hname⟩ := hdeclared
    obtain ⟨x, hx, rfl⟩ := List.mem_map.mp hx'
    exact ⟨x, hx, hname⟩
  · intro hbuilt
    obtain ⟨x, hx, hname⟩ := hbuilt
    exact ⟨_, List.mem_map_of_mem hx, hname⟩

/-- What declarations refer to is reached from them. -/
theorem reached_of_outputReferences {o : Options} {d : Header.Definitions} (h : d.WellTyped)
    {name : Leaf} (hname : name ∈ outputReferences (acceptedPart o d)) : Reached o d name := by
  obtain ⟨_, hresult, _⟩ := declarations_runs h (.start o)
  obtain ⟨t, ht, href⟩ := outputReferences_built (acceptedPart_wellTyped h o)
    (acceptedPart_allAccepted h o) hname
  rw [builtDeclarations_acceptedPart h o] at ht
  have hbase : t.base = .text (delegateName name) := href
  refine ⟨_, hresult, t, ht, ?_⟩
  rw [hbase]
  exact .refl

/-- **References to delegates are closed exactly if every function pointer that is not itself
the type of a field or an argument has the name of a delegate that is made.** For the target of a
typedef it is enough that no declaration reaches it. -/
theorem finished_delegatesClosed {d : Header.Definitions} (h : d.WellTyped) (o : Options)
    (ha : (aliasesOf o d).Acyclic) :
    ∃ final, finishedOf o d = .ok final ∧ (DelegatesClosed (acceptedPart o d) final ↔
      (∀ name ∈ outputReferences (acceptedPart o d), Declared o d name) ∧
        ∀ name ∈ targetReferences (acceptedPart o d), Reached o d name → Declared o d name) := by
  refine ⟨_, finishedOf_eq h o, ?_⟩
  constructor
  · intro hclosed
    -- a name that occurs is declared, and no typedef leads away from it
    have hdeclared : ∀ name ∈ outputReferences (acceptedPart o d) ++
        targetReferences (acceptedPart o d), Reached o d name → Declared o d name := by
      intro name hname hreached hfinal
      have hmem : delegateName name ∈ delegateNames (acceptedPart o d) :=
        List.mem_append_right _ (List.mem_map_of_mem hname)
      exact (declared_iff h _).mp (hclosed _ hmem ((occurs_iff h ha name).mpr ⟨hreached, hfinal⟩))
    refine ⟨fun name hname => ?_, fun name hname => ?_⟩
    · exact hdeclared name (List.mem_append_left _ hname) (reached_of_outputReferences h hname)
    · exact hdeclared name (List.mem_append_right _ hname)
  · intro hdeclared n hn hoccurs
    obtain ⟨houtput, htarget⟩ := hdeclared
    rw [declared_iff h]
    rcases List.mem_append.mp hn with hn | hn
    · exact mem_madeNames.mpr (.inl ⟨n, hn, rfl⟩)
    · obtain ⟨name, hname, rfl⟩ := List.mem_map.mp hn
      obtain ⟨hleads, hfinal⟩ := (occurs_iff h ha name).mp hoccurs
      rcases List.mem_append.mp hname with hname | hname
      · exact houtput name hname hfinal
      · exact htarget name hname hleads hfinal

/-- A struct with an array of function pointers. -/
def hookArrayHeader : Header.Definitions where
  structs := [{ name := "S", fields :=
    [{ name := "hooks", type := { description := .array hookType (some "4") } }] }]

theorem acyclic_hookArrayHeader : (aliasesOf {} hookArrayHeader).Acyclic :=
  Aliases.acyclic_of_flat (by decide +kernel)

theorem finished_delegatesClosed_hookArrayHeader :
    hookArrayHeader.WellTyped ∧ (aliasesOf {} hookArrayHeader).Acyclic ∧
      ∃ final, finishedOf {} hookArrayHeader = .ok final ∧
        (DelegatesClosed (acceptedPart {} hookArrayHeader) final ↔
          (∀ name ∈ outputReferences (acceptedPart {} hookArrayHeader),
            Declared {} hookArrayHeader name) ∧
          ∀ name ∈ targetReferences (acceptedPart {} hookArrayHeader),
            Reached {} hookArrayHeader name → Declared {} hookArrayHeader name) :=
  ⟨by decide, acyclic_hookArrayHeader,
    finished_delegatesClosed (by decide) {} acyclic_hookArrayHeader⟩

/-- The elements of an array refer to a delegate that nobody makes. -/
theorem hookArrayHeader_not_delegatesClosed :
    hookArrayHeader.WellTyped ∧ (aliasesOf {} hookArrayHeader).Acyclic ∧
      ∃ final, finishedOf {} hookArrayHeader = .ok final ∧
        ¬DelegatesClosed (acceptedPart {} hookArrayHeader) final := by
  refine ⟨by decide, acyclic_hookArrayHeader, ?_⟩
  have hproduced : "HookDelegate" ∈ delegateNames (acceptedPart {} hookArrayHeader) := by
    decide +kernel
  have hfinished : ((finishedOf {} hookArrayHeader).toOption.any fun final =>
      final.types.any (·.base = .text "HookDelegate") && final.delegates.isEmpty) = true := by
    decide +kernel
  cases hfinal : finishedOf {} hookArrayHeader with
  | error e =>
      rw [hfinal] at hfinished
      exact absurd hfinished (by simp [Except.toOption])
  | ok final =>
      rw [hfinal] at hfinished
      obtain ⟨hoccurs, hnone⟩ := (Bool.and_eq_true _ _).mp hfinished
      obtain ⟨t, ht, hbase⟩ := List.any_eq_true.mp hoccurs
      refine ⟨final, rfl, fun hclosed => ?_⟩
      obtain ⟨x, hx, _⟩ := hclosed _ hproduced ⟨t, ht, of_decide_eq_true hbase⟩
      rw [List.isEmpty_iff.mp hnone] at hx
      exact absurd hx (by simp)

end NativeBindings
