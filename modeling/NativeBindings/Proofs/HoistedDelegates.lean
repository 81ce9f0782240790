import NativeBindings.Proofs.Resolution
import NativeBindings.Proofs.TypePlaces

/-!
# Delegates that come together

A delegate is made in one of three places and kept in another: with the function of an
argument, in the list of typedefs, or inside the struct of a field. In the end all of
them stand in one list. Nothing is lost on the way and nothing comes twice: the list goes
along with the function pointers of the header, those of arguments first, then those of
typedefs, and those of fields last.

What is left behind refers to the delegate by its name. A field that was a function
pointer is a pointer to it, unless a typedef gives that name to another type.
-/

namespace NativeBindings

open Header (TypeDesc Signature)
open CSharp Build

/-! ## Function pointers of a header -/

/-- The function pointer that an argument is, with the name of its delegate. -/
def argumentHook? (function : Leaf) (a : Header.Argument) : Option Hook := do
  let name ← argumentDelegateName? function a
  let signature ← argumentSignature? a
  return ⟨.text name, signature⟩

/-- The function pointer that a typedef names, with the name of its delegate. -/
def typedefHook? (t : Header.Typedef) : Option Hook := do
  let name ← typedefDelegateName? t
  let signature ← typedefSignature? t
  return ⟨name, signature⟩

/-- The function pointer that a field is, with the name of its delegate. -/
def fieldHook? (f : Header.Field) : Option Hook := do
  let name ← fieldDelegateName? f
  let signature ← fieldSignature? f
  return ⟨.text name, signature⟩

/-- The items that guards let through. -/
def includedItems {ι : Type} (known : Symbols) (guards : ι → List Header.Guard) (items : List ι) :
    List ι := items.filter fun i => isIncluded known (guards i)

/-- The functions that are accepted under the symbols that are known in the end. -/
def writtenFunctions (o : Options) (d : Header.Definitions) : List Header.Function :=
  acceptedAmong (judgeFunction (knownOf o d) nativeTypes o) d.functions

/-- The function pointers that get a delegate, in the order of the delegates. -/
def hooks (o : Options) (d : Header.Definitions) : List Hook :=
  (writtenFunctions o d).flatMap (fun f => f.arguments.filterMap (argumentHook? f.name)) ++
    (includedItems (knownOf o d) (·.guards) d.typedefs).filterMap typedefHook? ++
      (includedItems (knownOf o d) (·.guards) d.structs).flatMap fun s =>
        (includedItems (knownOf o d) (·.guards) s.fields).filterMap fieldHook?

section Hooks

variable {wrapper name : Leaf} {s : Signature}

theorem argumentHook?_of_functionPointer {a : Header.Argument} {t : Header.TypeRef}
    (ht : a.type = some t) (hp : t.description.functionPointer? = some (wrapper, s))
    (hname : parameterName a.name = .ok name) (function : Leaf) : argumentHook? function a =
      some ⟨.text (delegateName (.text (function.display ++ name.display))), s⟩ := by
  have hsignature : argumentSignature? a = some s := by
    rw [argumentSignature?, ht, describedBy, hp, Option.map_some]
  have hdelegate : argumentDelegateName? function a =
      some (delegateName (.text (function.display ++ name.display))) := by
    rw [argumentDelegateName?, ht, Option.bind_eq_bind, Option.bind_some, hp, hname]
    rfl
  rw [argumentHook?, hdelegate, hsignature]
  rfl

theorem argumentHook?_eq_none {a : Header.Argument}
    (hp : (describedBy a.type).functionPointer? = none) (function : Leaf) :
    argumentHook? function a = none := by
  have hsignature : argumentSignature? a = none := by rw [argumentSignature?, hp, Option.map_none]
  rw [argumentHook?, hsignature]
  cases argumentDelegateName? function a with
  | none => rfl
  | some n => rfl

theorem typedefHook?_of_functionPointer {t : Header.Typedef}
    (hp : t.type.description.functionPointer? = some (wrapper, s)) :
    typedefHook? t = some ⟨wrapper.orElse t.name, s⟩ := by
  rw [typedefHook?, typedefDelegateName?, typedefSignature?, hp]
  rfl

theorem typedefHook?_eq_none {t : Header.Typedef}
    (hp : t.type.description.functionPointer? = none) : typedefHook? t = none := by
  rw [typedefHook?, typedefDelegateName?, hp]
  rfl

theorem fieldHook?_of_functionPointer {f : Header.Field} (ha : isArrayField f = false)
    (hp : f.type.description.functionPointer? = some (wrapper, s)) :
    fieldHook? f = some ⟨.text (delegateName (wrapper.orElse f.name)), s⟩ := by
  rw [fieldHook?, fieldDelegateName?, fieldSignature?, hp, ha]
  rfl

theorem fieldHook?_of_array {f : Header.Field} (ha : isArrayField f = true) :
    fieldHook? f = none := by
  rw [fieldHook?, fieldDelegateName?, ha]
  rfl

theorem fieldHook?_eq_none {f : Header.Field}
    (hp : f.type.description.functionPointer? = none) : fieldHook? f = none := by
  have hname : fieldDelegateName? f = none := by
    rw [fieldDelegateName?, hp, Option.map_none, ite_self]
  rw [fieldHook?, hname]
  rfl

end Hooks

/-! ## Delegates as they are made -/

namespace Build

variable {native : NativeTypes}

/-- The delegate is that of the function pointer, and without one there is none. -/
def Brings (native : NativeTypes) : Option Hook → Option Delegate → Prop :=
  Option.Rel (DelegateFor (SlotType native))

/-- The delegate that a typedef makes. -/
def TypedefResult.delegate? : TypedefResult → Option Delegate
  | .delegate d => some d
  | .typeAlias _ | .identity => none

theorem typedArgument_brings {a : Header.Argument} {t : Header.TypeRef} (h : t.WellTyped)
    (ht : a.type = some t) {name : Leaf} (hname : parameterName a.name = .ok name)
    (native : NativeTypes) (o : Options) (function : Leaf) :
    (typedArgument native o function name a t.description).Ends
      fun r => Brings native (argumentHook? function a) (r.bind (·.delegate)) := by
  unfold typedArgument
  split
  · rename_i element bound ha
    have hnone : argumentHook? function a = none :=
      argumentHook?_eq_none (by rw [ht, describedBy, ha]; rfl) function
    have helement : element.WellTyped := by
      have hwell := h.2
      rw [ha] at hwell
      exact hwell
    rw [hnone]
    refine .bind (convert_ends helement native) fun r _ => ?_
    cases r with
    | error cause => exact .afterReport (.pure .none)
    | ok type => exact .pure .none
  · split
    · rename_i wrapper s hp
      obtain ⟨_, hreturn, hparameters⟩ := functionPointer?_wellTyped h.2 hp
      rw [argumentHook?_of_functionPointer ht hp hname]
      exact .bind (delegateOf_made hreturn hparameters native o _) fun d hd => .pure (.some hd)
    · rename_i hp
      have hnone : argumentHook? function a = none :=
        argumentHook?_eq_none (by rw [ht, describedBy, hp]) function
      rw [hnone]
      refine .bind (convert_ends h.2 native) fun r _ => ?_
      cases r with
      | error cause => exact .afterReport (.pure .none)
      | ok type => exact .pure .none

/-- An argument that is a function pointer is always built, with its delegate. -/
theorem builtArgument?_brings {a : Header.Argument} (h : a.WellTyped) (native : NativeTypes)
    (o : Options) (function : Leaf) : Brings native (argumentHook? function a)
      ((builtArgument? native o function a).bind (·.delegate)) := by
  have hends : (argumentOf native o function a).Ends
      fun r => Brings native (argumentHook? function a) (r.bind (·.delegate)) := by
    obtain ⟨name, hname⟩ := parameterName_eq_ok h.1
    unfold argumentOf
    refine .bind_of_result hname ?_
    cases ht : a.type with
    | none =>
        rw [argumentHook?_eq_none (by rw [ht]; rfl) function]
        exact .afterReport (.pure .none)
    | some t =>
        have htype : t.WellTyped := by
          have hwell := h.2.1
          rw [ht] at hwell
          exact hwell
        exact typedArgument_brings htype ht hname native o function
  obtain ⟨r, hr, hbrings⟩ := hends
  rw [argumentOf_of_ok hr]
  exact hbrings

/-- A typedef of a function pointer makes its delegate if it is included. -/
theorem judgeTypedef_brings {t : Header.Typedef} (h : t.WellTyped) (known : Symbols)
    (native : NativeTypes) (o : Options) :
    Brings native (if isIncluded known t.guards then typedefHook? t else none)
      ((accepted? (judgeTypedef known native o t)).bind TypedefResult.delegate?) := by
  have hends : (judgeTypedef known native o t).Ends fun v =>
      Brings native (if isIncluded known t.guards then typedefHook? t else none)
        (v.built?.bind TypedefResult.delegate?) := by
    rw [Traced.Ends, judgeTypedef, result_judgeGuarded, included_eq h.2.2, ok_bind]
    cases isIncluded known t.guards with
    | false => exact ⟨.excluded, rfl, .none⟩
    | true =>
        rw [if_pos rfl, if_pos rfl]
        split
        · rename_i wrapper s hp
          obtain ⟨_, hreturn, hparameters⟩ := functionPointer?_wellTyped h.2.1.2 hp
          rw [typedefHook?_of_functionPointer hp]
          exact Traced.Ends.bind (delegateOf_made hreturn hparameters native o _) fun d hd =>
            .pure (.some ⟨hd.name, hd.returnType, hd.arguments⟩)
        · rename_i hp
          rw [typedefHook?_eq_none hp]
          refine Traced.Ends.bind (aliasTarget_ends h.2.1.2 native t.name) fun target _ => ?_
          cases target with
          | none => exact .pure .none
          | some type =>
              obtain ⟨s, hs⟩ := h.1.key
              refine .bind_of_result hs ?_
              split
              · exact .pure .none
              · exact .pure .none
  obtain ⟨v, hv, hbrings⟩ := hends
  rw [accepted?_of_result hv]
  exact hbrings

/-- What is built of a field that may be a function pointer. -/
structure FieldBrings (native : NativeTypes) (f : Header.Field) (r : Option BuiltField) : Prop where
  /-- The delegate is brought. -/
  delegate : Brings native (fieldHook? f) (r.bind (·.delegate))
  /-- The field is a pointer to the delegate. -/
  field : ∀ hook, fieldHook? f = some hook → ∃ b n, r = some b ∧ hook.name = .text n ∧
    b.field.name = f.name ∧ b.field.isArray = false ∧ b.field.type = { base := n, pointers := 1 }

theorem FieldBrings.of_none {f : Header.Field} (hf : fieldHook? f = none) {r : Option BuiltField}
    (hr : r.bind (·.delegate) = none) : FieldBrings native f r := by
  refine ⟨?_, fun hook hhook => ?_⟩
  · rw [hf, hr]
    exact .none
  · rw [hf] at hhook
    exact absurd hhook (by simp)

theorem plainField_brings {f : Header.Field} (h : f.WellTyped) (ha : isArrayField f = false)
    (native : NativeTypes) (o : Options) (struct : Leaf) :
    (plainField native o struct f).Ends (FieldBrings native f) := by
  unfold plainField
  split
  · rename_i wrapper s hp
    obtain ⟨_, hreturn, hparameters⟩ := functionPointer?_wellTyped h.2.1.2 hp
    have hhook := fieldHook?_of_functionPointer ha hp
    refine .bind (delegateOf_made hreturn hparameters native o _) fun d hd =>
      .afterReport (.pure ⟨?_, fun hook hsome => ?_⟩)
    · rw [hhook]
      exact .some hd
    · rw [hhook] at hsome
      injection hsome with hsome
      exact ⟨_, _, rfl, hsome ▸ rfl, rfl, rfl, rfl⟩
  · rename_i hp
    refine .bind (convert_ends h.2.1.2 native) fun r _ => ?_
    cases r with
    | error cause => exact .afterReport (.pure (.of_none (fieldHook?_eq_none hp) rfl))
    | ok type => exact .pure (.of_none (fieldHook?_eq_none hp) rfl)

/-- A field that is a function pointer is always built, with its delegate. -/
theorem builtField?_brings {f : Header.Field} (h : f.WellTyped) (native : NativeTypes)
    (o : Options) (struct : Leaf) : FieldBrings native f (builtField? native o struct f) := by
  cases ha : isArrayField f with
  | true =>
      refine .of_none (fieldHook?_of_array ha) ?_
      cases hb : builtField? native o struct f with
      | none => rfl
      | some b =>
          cases builtField?_from h hb with
          | array _ _ hd _ => exact hd
          | functionPointer hno _ _ _ _ _ => exact absurd (ha.symm.trans hno) (by simp)
          | converted hno _ _ _ _ => exact absurd (ha.symm.trans hno) (by simp)
  | false =>
      obtain ⟨r, hr, hbrings⟩ := plainField_brings h ha native o struct
      have hresult := fieldOf_eq h native o struct
      rw [fieldOf, ha, if_neg (by simp), hr] at hresult
      injection hresult with hresult
      exact hresult ▸ hbrings

/-! ## Everything that is made -/

theorem acceptedStructs_eq_map (known : Symbols) (native : NativeTypes) (o : Options)
    (ss : List Header.Struct) : acceptedStructs known native o ss =
      (includedItems known (·.guards) ss).map (builtStruct known native o) := by
  rw [acceptedStructs, includedItems, ← List.filterMap_eq_map, List.filterMap_filter]
  rfl

theorem acceptedFunctions_eq_map {fs : List Header.Function} (h : ∀ f ∈ fs, f.WellTyped)
    (known : Symbols) (native : NativeTypes) (o : Options) : acceptedFunctions known native o fs =
      (acceptedAmong (judgeFunction known native o) fs).map (builtFunction native o) := by
  rw [acceptedFunctions, acceptedAmong, ← List.filterMap_eq_map, List.filterMap_filter]
  refine List.filterMap_congr fun f hf => ?_
  rw [accepted?_of_result (judgeFunction_eq (h f hf) known native o)]
  cases hv : functionVerdict known native o f with
  | accepted b =>
      obtain ⟨_, _, hbuilt⟩ := functionVerdict_eq_accepted.mp hv
      rw [← hbuilt]
      rfl
  | excluded => rfl
  | dropped => rfl

variable {d : Header.Definitions}

theorem delegates_acceptedFunctions (h : d.WellTyped) (o : Options) :
    List.Forall₂ (DelegateFor (SlotType nativeTypes))
      ((writtenFunctions o d).flatMap fun f => f.arguments.filterMap (argumentHook? f.name))
      ((acceptedFunctions (knownOf o d) nativeTypes o d.functions).flatMap (·.delegates)) := by
  rw [acceptedFunctions_eq_map h.functions, List.flatMap_map]
  refine forall₂_flatMap_flatMap fun f hf => ?_
  have hwell := h.functions f (mem_acceptedAmong hf)
  rw [builtFunction, keptArguments, List.filterMap_filterMap]
  exact forall₂_filterMap_filterMap fun a ha =>
    builtArgument?_brings (hwell.2.2.1 a ha) nativeTypes o f.name

theorem delegates_typedefResults (h : d.WellTyped) (o : Options) :
    List.Forall₂ (DelegateFor (SlotType nativeTypes))
      ((includedItems (knownOf o d) (·.guards) d.typedefs).filterMap typedefHook?)
      (delegatesOf (typedefResults (knownOf o d) nativeTypes o d.typedefs)) := by
  have hdelegates : delegatesOf (typedefResults (knownOf o d) nativeTypes o d.typedefs) =
      d.typedefs.filterMap fun t =>
        (accepted? (judgeTypedef (knownOf o d) nativeTypes o t)).bind TypedefResult.delegate? := by
    rw [typedefResults]
    exact List.filterMap_filterMap
  rw [hdelegates, includedItems, List.filterMap_filter]
  exact forall₂_filterMap_filterMap fun t ht =>
    judgeTypedef_brings (h.typedefs t ht) (knownOf o d) nativeTypes o

theorem delegates_acceptedStructs (h : d.WellTyped) (o : Options) :
    List.Forall₂ (DelegateFor (SlotType nativeTypes))
      ((includedItems (knownOf o d) (·.guards) d.structs).flatMap fun s =>
        (includedItems (knownOf o d) (·.guards) s.fields).filterMap fieldHook?)
      ((acceptedStructs (knownOf o d) nativeTypes o d.structs).flatMap fun s =>
        s.inner.filterMap Finish.delegate?) := by
  rw [acceptedStructs_eq_map, List.flatMap_map]
  refine forall₂_flatMap_flatMap fun s hs => ?_
  have hwell := h.structs s (List.mem_filter.mp hs).1
  rw [delegates_builtStruct, keptFields, List.filterMap_filterMap]
  refine forall₂_filterMap_filterMap fun f hf => ?_
  exact (builtField?_brings (hwell.2.1 f (List.mem_filter.mp hf).1) nativeTypes o s.name).delegate

/-- **Every function pointer has its delegate, in the order of the header.** -/
theorem forall₂_hooks (h : d.WellTyped) (o : Options) :
    List.Forall₂ (DelegateFor (SlotType nativeTypes)) (hooks o d)
      (Finish.allDelegates (builtDeclarations (.start o) d)) := by
  have hknown := knownOf_eq h o
  have hfunctions := delegates_acceptedFunctions h o
  have htypedefs := delegates_typedefResults h o
  have hstructs := delegates_acceptedStructs h o
  rw [Finish.allDelegates, builtDeclarations, ← hknown]
  exact List.rel_append (List.rel_append hfunctions htypedefs) hstructs

end Build

/-! ## Delegates in the end -/

/-- The type of a result or a parameter of a delegate, with aliases resolved. -/
def FinishedSlot (aliases : Aliases) (native : NativeTypes) (t : TypeDesc) (type : CsType) : Prop :=
  ∃ built, SlotType native t built ∧ aliases.resolve built = type

/-- A delegate keeps its name and its arguments when it is finished. -/
theorem Build.DelegateFor.finish {native : NativeTypes} {hook : Hook} {x : Delegate}
    (h : DelegateFor (SlotType native) hook x) (o : Options) (aliases : Aliases) :
    DelegateFor (FinishedSlot aliases native) hook (Finish.delegate o aliases x) where
  name := h.name
  returnType := ⟨_, h.returnType, rfl⟩
  arguments := by
    refine List.forall₂_map_right_iff.mpr (h.arguments.imp fun p a ha => ?_)
    obtain ⟨hname, hslot⟩ := ha
    exact ⟨hname, _, hslot, rfl⟩

/-- A typedef that is included has the name. -/
def IsTypedefName (o : Options) (d : Header.Definitions) (name : Leaf) : Prop :=
  ∃ t ∈ includedItems (knownOf o d) (·.guards) d.typedefs, t.name = name

/-- The field for one that is a function pointer. -/
structure HookField (o : Options) (d : Header.Definitions) (f : Header.Field) (f' : Field) :
    Prop where
  name : f'.name = f.name
  isArray : f'.isArray = false
  /-- It is a pointer to the delegate, whose name may be that of a typedef. -/
  type : ∃ n s, fieldHook? f = some ⟨.text n, s⟩ ∧
    f'.type = (aliasesOf o d).resolve { base := n, pointers := 1 } ∧
    (¬IsTypedefName o d (.text n) → f'.type = { base := n, pointers := 1 })

/-- All delegates of a header stand in one list, and nowhere else. -/
structure Hoisted (o : Options) (d : Header.Definitions) (final : DeclarationSet) : Prop where
  /-- There is one delegate for each function pointer, in their order. -/
  delegates : List.Forall₂ (DelegateFor (FinishedSlot (aliasesOf o d) nativeTypes)) (hooks o d)
    final.delegates
  /-- The functions that bring delegates are those that are written. -/
  functions : List.Forall₂ (fun f f' => f'.name = f.name) (writtenFunctions o d) final.functions
  /-- Typedefs have no delegates of their own any more. -/
  typedefDelegates : final.typedefDelegates = []
  /-- Nothing is left inside a struct. -/
  inner : ∀ s ∈ final.structs ++ final.inlineArrays, s.inner = []
  /-- The fields that are function pointers are still there, as pointers to their delegates. -/
  fields : List.Forall₂ (fun s s' => s'.name = s.name ∧ List.SublistForall₂ (HookField o d)
      ((includedItems (knownOf o d) (·.guards) s.fields).filter fun f => (fieldHook? f).isSome)
      s'.fields)
    (includedItems (knownOf o d) (·.guards) d.structs) final.structs

/-- A name that no typedef has is resolved to itself. -/
theorem isFinal_of_not_isTypedefName {d : Header.Definitions} (h : d.WellTyped) {o : Options}
    {n : String} (hn : ¬IsTypedefName o d (.text n)) : (aliasesOf o d).IsFinal (.text n) := by
  rw [Aliases.IsFinal, aliasesOf_eq h, builtAliases, get?_register]
  have hnone : (builtDeclarations (.start o) d).aliases.find? (·.name == Key.text n) = none := by
    refine List.find?_eq_none.mpr fun a ha hname => hn ?_
    obtain ⟨r, hr, ha⟩ := List.mem_filterMap.mp ha
    obtain ⟨t, ht, hincluded, hfrom⟩ := mem_typedefResults h.typedefs hr
    refine ⟨t, List.mem_filter.mpr ⟨ht, knownOf_eq h o ▸ hincluded⟩, ?_⟩
    cases hfrom with
    | delegate _ _ => exact absurd ha (by simp)
    | identity _ => exact absurd ha (by simp)
    | typeAlias _ hkey _ =>
        injection ha with ha
        subst ha
        obtain ⟨s, hs⟩ := (h.typedefs t ht).1.exists
        rw [hs, Key.beq_text.mp hname] at hkey
        injection hkey with hkey
        rw [hs, Key.text.inj hkey]
  rw [hnone]
  rfl

/-- What becomes of a field that is a function pointer. -/
theorem hookField_of_hook {d : Header.Definitions} (h : d.WellTyped) (o : Options)
    (scope : Finish.BoundScope) (struct : Leaf) {f : Header.Field} (hf : f.WellTyped)
    (hhook : (fieldHook? f).isSome = true) : ∃ b, builtField? nativeTypes o struct f = some b ∧
      HookField o d f (Finish.layOutField (aliasesOf o d) scope struct b.field).field := by
  obtain ⟨⟨name, s⟩, hsome⟩ := Option.isSome_iff_exists.mp hhook
  obtain ⟨b, n, hb, rfl, hname, harray, htype⟩ :=
    (builtField?_brings hf nativeTypes o struct).field _ hsome
  refine ⟨b, hb, ?_⟩
  cases Finish.layOutField_laidOut (aliasesOf o d) scope struct b.field with
  | wrapped _ _ _ _ _ ha _ => exact absurd (harray.symm.trans ha) (by simp)
  | own htype' _ hname' harray' =>
      rw [htype] at htype'
      refine ⟨hname'.trans hname, harray'.trans harray, n, s, hsome, htype', fun hn => ?_⟩
      rw [htype', Aliases.resolve_of_isFinal (isFinal_of_not_isTypedefName h hn)]

theorem hookFields_finished {d : Header.Definitions} (h : d.WellTyped) (o : Options) :
    List.Forall₂ (fun s s' => s'.name = s.name ∧ List.SublistForall₂ (HookField o d)
        ((includedItems (knownOf o d) (·.guards) s.fields).filter fun f => (fieldHook? f).isSome)
        s'.fields)
      (includedItems (knownOf o d) (·.guards) d.structs)
      (Finish.declarations o (aliasesOf o d) (builtDeclarations (.start o) d)).structs := by
  have hstructs : (builtDeclarations (.start o) d).structs =
      (includedItems (knownOf o d) (·.guards) d.structs).map
        (builtStruct (knownOf o d) nativeTypes o) := by
    rw [← acceptedStructs_eq_map, knownOf_eq h]
    rfl
  refine List.forall₂_map_right_iff.mpr ?_
  rw [hstructs, List.forall₂_map_right_iff, List.forall₂_same]
  refine fun s hs => ⟨rfl, ?_⟩
  have hwell := h.structs s (List.mem_filter.mp hs).1
  -- a field is built, laid out and taken, one after the other
  refine List.sublistForall₂_map_right_iff.mpr (List.sublistForall₂_map_right_iff.mpr
    (List.sublistForall₂_map_right_iff.mpr ?_))
  refine sublistForall₂_filterMap fun f hf hhook => ?_
  exact hookField_of_hook h o _ s.name (hwell.2.1 f (List.mem_filter.mp hf).1) hhook

theorem writtenFunctions_finished {d : Header.Definitions} (h : d.WellTyped) (o : Options) :
    List.Forall₂ (fun f f' => f'.name = f.name) (writtenFunctions o d)
      (Finish.declarations o (aliasesOf o d) (builtDeclarations (.start o) d)).functions := by
  have hfunctions : (builtDeclarations (.start o) d).functions =
      (writtenFunctions o d).map fun f => (builtFunction nativeTypes o f).function := by
    rw [writtenFunctions, knownOf_eq h, builtDeclarations]
    dsimp only
    rw [acceptedFunctions_eq_map h.functions, List.map_map]
    rfl
  refine List.forall₂_map_right_iff.mpr ?_
  rw [hfunctions, List.forall₂_map_right_iff, List.forall₂_same]
  exact fun f _ => rfl

/-- **All delegates of a well-typed header come together, and none is lost or comes twice.** -/
theorem finished_hoisted {d : Header.Definitions} (h : d.WellTyped) (o : Options) :
    ∃ final, finishedOf o d = .ok final ∧ Hoisted o d final := by
  have hfinished : Finish.Finished
      (Finish.declarations o (aliasesOf o d) (builtDeclarations (.start o) d)) := by
    obtain ⟨final, hfinal, hfinished⟩ := finishedOf_finished h o
    rw [finishedOf_eq h] at hfinal
    injection hfinal with hfinal
    exact hfinal ▸ hfinished
  refine ⟨_, finishedOf_eq h o, ?_, writtenFunctions_finished h o, rfl, fun s hs => ?_,
    hookFields_finished h o⟩
  · exact List.forall₂_map_right_iff.mpr ((forall₂_hooks h o).imp fun _ _ hx => hx.finish o _)
  · rcases List.mem_append.mp hs with hs | hs
    · exact (hfinished.structs s hs).2
    · exact (hfinished.inlineArrays s hs).2

/-- A function pointer with a named and an unnamed parameter. -/
def openType : TypeDesc := .named (some "Open") (.pointer (.function (.builtin "int")
  [.named (some "object") (.pointer (.builtin "void")), .builtin "int"]))

/-- A header with function pointers at all places. The function `log` is dropped, a typedef and a
field are excluded, an array has no delegate, and a typedef gives the name of a delegate to another
type. -/
def callbackHeader : Header.Definitions where
  typedefs :=
    [{ name := "OnClose", type := { description := hookType } },
      { name := "OnQuit", type := { description := openType }, guards := [⟨"ifdef", "QUIT"⟩] },
      { name := "OpenDelegate", type := { description := .builtin "int" } }]
  structs :=
    [{ name := "File", fields :=
      [{ name := "open", type := { description := openType } },
        { name := "size", type := { description := .builtin "int" } },
        { name := "hook", type := { description := hookType } },
        { name := "quit", type := { description := openType }, guards := [⟨"ifdef", "QUIT"⟩] },
        { name := "hooks", type := { description := .array hookType (some "4") } }] }]
  functions :=
    [{ name := "log", arguments :=
        [{ name := "hook", type := some { description := hookType } },
          { name := "args", type := some { description := .builtin "va_list" } }] },
      { name := "watch", arguments :=
        [{ name := "hook", type := some { description := hookType } },
          { name := "depth", type := some { description := .builtin "int" } },
          { name := "open", type := some { description := openType } }] }]

theorem finished_hoisted_callbackHeader : callbackHeader.WellTyped ∧
    ∃ final, finishedOf {} callbackHeader = .ok final ∧ Hoisted {} callbackHeader final :=
  ⟨by decide, finished_hoisted (by decide) {}⟩

example : (hooks {} callbackHeader).map (·.name) =
    [.text "watchhookDelegate", .text "watchopenDelegate", .text "Hook", .text "OpenDelegate",
      .text "HookDelegate"] := by decide +kernel

end NativeBindings
