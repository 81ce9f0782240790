import NativeBindings.Finish.Declarations
import NativeBindings.Proofs.Built

/-!
# Declarations that can be finished

Everything that is built from a well-typed header has types with texts for their names,
and so have the types that its aliases lead to. Such declarations are finished without a
fault, and what comes out is of the same kind and has nothing left inside its structs.
-/

namespace NativeBindings

open CSharp

/-! ## Declarations that can be written -/

namespace CSharp

/-- The constant can be looked up, and its type can be written. -/
def Constant.Writable (c : Constant) : Prop := (∃ k, c.name.key = .ok k) ∧ c.type.Writable

/-- All types in the signature can be written. -/
def Delegate.Writable (d : Delegate) : Prop :=
  d.returnType.Writable ∧ ∀ a ∈ d.arguments, a.type.Writable

/-- All types in the signature can be written. -/
def Function.Writable (f : Function) : Prop :=
  f.returnType.Writable ∧ ∀ a ∈ f.arguments, a.type.Writable

/-- The types of all fields can be written, and only delegates stand inside. -/
structure Struct.Writable (s : Struct) : Prop where
  fields : ∀ f ∈ s.fields, f.type.Writable
  inner : ∀ i ∈ s.inner, ∃ d : Delegate, i = .delegate d ∧ d.Writable

/-- Everything in the set can be written, once it is finished. -/
structure DeclarationSet.Writable (d : DeclarationSet) : Prop where
  constants : ∀ c ∈ d.constants, c.Writable
  enumConstants : ∀ c ∈ d.enumConstants, c.Writable
  typedefDelegates : ∀ x ∈ d.typedefDelegates, x.Writable
  structs : ∀ s ∈ d.structs, s.Writable
  delegates : ∀ x ∈ d.delegates, x.Writable
  functions : ∀ f ∈ d.functions, f.Writable

/-- The constants of the set can be looked up, and its types can be written. Other declarations than
delegates may stand inside structs. -/
structure DeclarationSet.Finishable (d : DeclarationSet) : Prop where
  constants : ∀ c ∈ d.constants, ∃ k, c.name.key = .ok k
  enumConstants : ∀ c ∈ d.enumConstants, ∃ k, c.name.key = .ok k
  fields : ∀ s ∈ d.structs, ∀ f ∈ s.fields, f.type.Writable
  delegates : ∀ x ∈ Finish.allDelegates d, x.Writable
  functions : ∀ f ∈ d.functions, f.Writable

end CSharp

/-! ## What is built -/

namespace Build

theorem DelegateFrom.writable {native : NativeTypes} {name : Leaf} {s : Header.Signature}
    {d : Delegate} (h : DelegateFrom native name s d) : d.Writable := by
  refine ⟨h.returnType.writable, fun a ha => ?_⟩
  obtain ⟨t, _, hslot⟩ := exists_of_forall₂ h.arguments.flip ha
  exact hslot.writable

theorem FieldFrom.writable {native : NativeTypes} {f : Header.Field} {b : BuiltField}
    (h : FieldFrom native f b) :
    b.field.type.Writable ∧ ∀ d, b.delegate = some d → d.Writable := by
  cases h with
  | array _ h hd => exact ⟨h.writable, fun d hd' => absurd (hd.symm.trans hd') (by simp)⟩
  | functionPointer _ _ htype h hd =>
      refine ⟨?_, fun d' hd' => ?_⟩
      · rw [htype]
        exact .of_text _ 1
      · injection hd.symm.trans hd' with hsame
        exact hsame ▸ h.writable
  | converted _ _ h hd => exact ⟨h.writable, fun d hd' => absurd (hd.symm.trans hd') (by simp)⟩

theorem ArgumentFrom.writable {native : NativeTypes} {function : Leaf} {a : Header.Argument}
    {b : BuiltArgument} (h : ArgumentFrom native function a b) :
    b.argument.type.Writable ∧ ∀ d, b.delegate = some d → d.Writable := by
  cases h with
  | array _ _ h htype hd =>
      refine ⟨?_, fun d hd' => absurd (hd.symm.trans hd') (by simp)⟩
      rw [htype]
      exact h.writable.pointerTo
  | functionPointer _ _ _ htype h hd =>
      refine ⟨?_, fun d' hd' => ?_⟩
      · rw [htype]
        exact .of_text _ 0
      · injection hd.symm.trans hd' with hsame
        exact hsame ▸ h.writable
  | converted _ _ h hd => exact ⟨h.writable, fun d hd' => absurd (hd.symm.trans hd') (by simp)⟩

theorem key_toLeaf (k : Key) : ∃ k', k.toLeaf.key = .ok k' := by
  cases k with
  | text s => exact ⟨_, rfl⟩
  | null => exact ⟨_, rfl⟩
  | bool b => exact ⟨_, rfl⟩
  | int n => exact ⟨_, rfl⟩
  | float x => exact ⟨_, rfl⟩

theorem constants_writable {ds : List Header.Define} (h : ∀ d ∈ ds, d.WellTyped)
    (known : Symbols) :
    ∀ c ∈ seededConstants known ++ inHeaderOrder ds.length (takenOf known ds), c.Writable := by
  intro c hc
  rcases List.mem_append.mp hc with hc | hc
  · obtain ⟨e, _, rfl⟩ := List.mem_map.mp hc
    exact ⟨key_toLeaf e.1, .of_text _ 0⟩
  · obtain ⟨i, _, hi⟩ := List.mem_filterMap.mp hc
    obtain ⟨a, ha, rfl⟩ := Option.map_eq_some_iff.mp hi
    obtain ⟨p, hp, hfrom⟩ := allComeFrom_takenOf h known a (List.mem_of_find?_eq_some ha)
    obtain ⟨s, hs, _⟩ := hfrom.symbol
    refine ⟨⟨.text s, ?_⟩, hfrom.type⟩
    rw [hfrom.name, hs]
    rfl

theorem numbersOf_writable {es : List Header.Enum} (h : ∀ e ∈ es, e.WellTyped) (known : Symbols) :
    ∀ c ∈ (es.map (numbersOf known)).flatten, c.Writable := by
  intro c hc
  obtain ⟨cs, hcs, hc⟩ := List.mem_flatten.mp hc
  obtain ⟨e, he, rfl⟩ := List.mem_map.mp hcs
  rw [numbersOf] at hc
  split at hc
  · obtain ⟨x, hx, rfl⟩ := List.mem_map.mp hc
    obtain ⟨s, hs⟩ := ((h e he).2.1 x (List.mem_filter.mp hx).1).1.key
    exact ⟨⟨_, hs⟩, .of_text _ 0⟩
  · exact absurd hc (by simp)

theorem builtStruct_writable {s : Header.Struct} (h : s.WellTyped) (known : Symbols)
    (native : NativeTypes) (o : Options) : (builtStruct known native o s).Writable := by
  have hfrom : ∀ b ∈ keptFields known native o s.name s.fields, b.field.type.Writable ∧
      ∀ d, b.delegate = some d → d.Writable := by
    intro b hb
    obtain ⟨f, hf, _, hbuilt⟩ := mem_keptFields.mp hb
    exact (builtField?_from (h.2.1 f hf) hbuilt).writable
  refine ⟨fun f hf => ?_, fun i hi => ?_⟩
  · obtain ⟨b, hb, rfl⟩ := List.mem_map.mp hf
    exact (hfrom b hb).1
  · obtain ⟨b, hb, hi⟩ := List.mem_filterMap.mp hi
    obtain ⟨d, hd, rfl⟩ := Option.map_eq_some_iff.mp hi
    exact ⟨d, rfl, (hfrom b hb).2 d hd⟩

theorem builtFunction_writable {f : Header.Function} (h : f.WellTyped) (native : NativeTypes)
    (o : Options) : (builtFunction native o f).function.Writable ∧
      ∀ d ∈ (builtFunction native o f).delegates, d.Writable := by
  have hfrom : ∀ b ∈ keptArguments native o f.name f.arguments, b.argument.type.Writable ∧
      ∀ d, b.delegate = some d → d.Writable := by
    intro b hb
    obtain ⟨a, ha, hbuilt⟩ := mem_keptArguments.mp hb
    exact (builtArgument?_from (h.2.2.1 a ha) hbuilt).writable
  refine ⟨⟨(builtReturnType_from h native).writable, fun a ha => ?_⟩, fun d hd => ?_⟩
  · obtain ⟨b, hb, rfl⟩ := List.mem_map.mp ha
    exact (hfrom b hb).1
  · obtain ⟨b, hb, hd⟩ := List.mem_filterMap.mp hd
    exact (hfrom b hb).2 d hd

theorem builtDeclarations_writable {d : Header.Definitions} (h : d.WellTyped) (b : Builder) :
    (builtDeclarations b d).Writable where
  constants := constants_writable h.defines b.known
  enumConstants := numbersOf_writable h.enums _
  typedefDelegates := by
    intro x hx
    obtain ⟨r, hr, hx⟩ := List.mem_filterMap.mp hx
    obtain ⟨t, _, _, hfrom⟩ := mem_typedefResults h.typedefs hr
    cases hfrom with
    | delegate _ hd => injection hx with hx; exact hx ▸ hd.writable
    | typeAlias _ _ _ => exact absurd hx (by simp)
    | identity _ => exact absurd hx (by simp)
  structs := by
    intro s' hs'
    obtain ⟨s, hs, _, rfl⟩ := mem_acceptedStructs.mp hs'
    exact builtStruct_writable (h.structs s hs) _ _ _
  delegates := by
    intro x hx
    obtain ⟨b', hb', hx⟩ := List.mem_flatMap.mp hx
    obtain ⟨f, hf, _, _, rfl⟩ := mem_acceptedFunctions.mp hb'
    exact (builtFunction_writable (h.functions f hf) _ _).2 x hx
  functions := by
    intro f' hf'
    obtain ⟨b', hb', rfl⟩ := List.mem_map.mp hf'
    obtain ⟨f, hf, _, _, rfl⟩ := mem_acceptedFunctions.mp hb'
    exact (builtFunction_writable (h.functions f hf) _ _).1

/-- The delegates inside a struct are those that its fields bring. -/
theorem delegates_builtStruct (known : Symbols) (native : NativeTypes) (o : Options)
    (s : Header.Struct) : (builtStruct known native o s).inner.filterMap Finish.delegate? =
      (keptFields known native o s.name s.fields).filterMap (·.delegate) := by
  rw [builtStruct, List.filterMap_filterMap]
  refine List.filterMap_congr fun b _ => ?_
  cases b.delegate with
  | none => rfl
  | some x => rfl

/-! ## The aliases -/

theorem register_writable {aliases : Aliases} (h : aliases.AllWritable) {as : List Alias}
    (has : ∀ a ∈ as, a.target.Writable) : (register aliases as).AllWritable := by
  induction as generalizing aliases with
  | nil => exact h
  | cons a rest ih =>
      rw [register, List.foldl_cons, ← register]
      refine ih ?_ fun x hx => has x (List.mem_cons_of_mem a hx)
      intro e he
      -- a name that has an alias keeps it
      rw [OrderedMap.insertIfNew] at he
      split at he
      · exact h e he
      · rcases List.mem_append.mp he with he | he
        · exact h e he
        · rw [List.mem_singleton.mp he]
          exact has a List.mem_cons_self

theorem builtAliases_writable {d : Header.Definitions} (h : d.WellTyped) {b : Builder}
    (hb : b.aliases.AllWritable) : (builtAliases b d).AllWritable := by
  refine register_writable hb fun a ha => ?_
  obtain ⟨r, hr, ha⟩ := List.mem_filterMap.mp ha
  obtain ⟨t, _, _, hfrom⟩ := mem_typedefResults h.typedefs hr
  cases hfrom with
  | delegate _ _ => exact absurd ha (by simp)
  | typeAlias _ _ htarget => injection ha with ha; exact ha ▸ htarget.writable
  | identity _ => exact absurd ha (by simp)

end Build

/-! ## What is finished -/

namespace Finish

variable {o : Options} {aliases : Aliases}

theorem checkConstants_eq {d : DeclarationSet} (h : d.Finishable) :
    checkConstants d = .ok () := by
  have hname : ∀ c : Constant, (∃ k, c.name.key = .ok k) →
      (discard c.name.key : Except Misfit Unit) = .ok () := by
    intro c hc
    obtain ⟨k, hk⟩ := hc
    rw [hk]
    rfl
  rw [checkConstants, forM_eq_ok fun c hc => hname c (h.constants c hc), ok_bind,
    forM_eq_ok fun c hc => hname c (h.enumConstants c hc)]

theorem reportLayout_ends {scope : BoundScope} {s : Struct} (h : ∀ f ∈ s.fields, f.type.Writable) :
    (reportLayout aliases scope s).result = .ok () := by
  refine Traced.result_forM fun f hf => ?_
  rw [reportField, Traced.result_bind, Traced.result_ofExcept,
    Aliases.checkChange_of_writable (h f hf), ok_bind]
  rfl

theorem checkSignature_eq {returnType : CsType} {arguments : List Argument}
    (hr : returnType.Writable) (ha : ∀ a ∈ arguments, a.type.Writable) :
    checkSignature aliases returnType arguments = .ok () := by
  rw [checkSignature, Aliases.checkChange_of_writable hr, ok_bind]
  exact forM_eq_ok fun a h => Aliases.checkChange_of_writable (ha a h)

theorem mem_allDelegates {d : DeclarationSet} {x : Delegate} : x ∈ allDelegates d ↔
    x ∈ d.delegates ∨ x ∈ d.typedefDelegates ∨ ∃ s ∈ d.structs, .delegate x ∈ s.inner := by
  have hinner : ∀ i : Declaration, delegate? i = some x ↔ i = .delegate x := by
    intro i
    cases i with
    | delegate y => simp [delegate?]
    | _ => simp [delegate?]
  rw [allDelegates, List.append_assoc, List.mem_append, List.mem_append, List.mem_flatMap]
  refine or_congr_right (or_congr_right (exists_congr fun s => and_congr_right fun _ => ?_))
  rw [List.mem_filterMap]
  simp only [hinner, exists_eq_right]

theorem allDelegates_writable {d : DeclarationSet} (h : d.Writable) :
    ∀ x ∈ allDelegates d, x.Writable := by
  intro x hx
  rcases mem_allDelegates.mp hx with hx | hx | ⟨s, hs, hx⟩
  · exact h.delegates x hx
  · exact h.typedefDelegates x hx
  · obtain ⟨y, hy, hwritable⟩ := (h.structs s hs).inner _ hx
    injection hy with hy
    exact hy ▸ hwritable

theorem finishable_of_writable {d : DeclarationSet} (h : d.Writable) : d.Finishable where
  constants := fun c hc => (h.constants c hc).1
  enumConstants := fun c hc => (h.enumConstants c hc).1
  fields := fun s hs => (h.structs s hs).fields
  delegates := allDelegates_writable h
  functions := h.functions

/-- **Declarations whose types can be written are finished.** -/
theorem finish_of_finishable {d : DeclarationSet} (h : d.Finishable) (o : Options)
    (aliases : Aliases) : (finish o aliases d).result = .ok (declarations o aliases d) := by
  have hdelegates : (allDelegates d).forM (fun x =>
      checkSignature aliases x.returnType x.arguments) = .ok () :=
    forM_eq_ok fun x hx => checkSignature_eq (h.delegates x hx).1 (h.delegates x hx).2
  have hfunctions : d.functions.forM (fun f =>
      checkSignature aliases f.returnType f.arguments) = .ok () :=
    forM_eq_ok fun f hf => checkSignature_eq (h.functions f hf).1 (h.functions f hf).2
  rw [finish, Traced.result_bind, Traced.result_ofExcept, checkConstants_eq h, ok_bind,
    Traced.result_bind, Traced.result_forM fun s hs => reportLayout_ends (h.fields s hs), ok_bind,
    Traced.result_bind, Traced.result_ofExcept, hdelegates, ok_bind, hfunctions, ok_bind,
    Traced.result_pure]

theorem finish_eq {d : DeclarationSet} (h : d.Writable) (o : Options) (aliases : Aliases) :
    (finish o aliases d).result = .ok (declarations o aliases d) :=
  finish_of_finishable (finishable_of_writable h) o aliases

/-- Whatever is finished without a fault comes out the same way. -/
theorem finish_of_ok {d final : DeclarationSet}
    (h : (finish o aliases d).result = .ok final) : final = declarations o aliases d := by
  rw [finish, Traced.result_bind] at h
  obtain ⟨_, _, h⟩ := bind_eq_ok.mp h
  rw [Traced.result_bind] at h
  obtain ⟨_, _, h⟩ := bind_eq_ok.mp h
  rw [Traced.result_bind] at h
  obtain ⟨_, _, h⟩ := bind_eq_ok.mp h
  injection h with h
  exact h.symm

/-- A finished struct has fields that can be written and nothing inside. -/
def Plain (s : Struct) : Prop := (∀ f ∈ s.fields, f.type.Writable) ∧ s.inner = []

theorem layOutField_writable (h : aliases.AllWritable) (scope : BoundScope) (struct : Leaf)
    {f : Field} (hf : f.type.Writable) : (layOutField aliases scope struct f).field.type.Writable ∧
      ∀ s, (layOutField aliases scope struct f).wrapper = some s → Plain s := by
  have hresolved : (resolveField aliases f).type.Writable := Aliases.resolve_writable h hf
  rw [layOutField]
  split
  · rw [layOutArray]
    split
    · exact ⟨hresolved, fun s hs => absurd hs (by simp)⟩
    · split
      · exact ⟨hresolved, fun s hs => absurd hs (by simp)⟩
      -- the field gets the type of its wrapper, and the wrapper the resolved one
      · refine ⟨.of_text _ 0, fun s hs => ?_⟩
        injection hs with hs
        subst hs
        refine ⟨fun g hg => ?_, rfl⟩
        rw [List.mem_singleton.mp hg]
        exact hresolved
  · exact ⟨hresolved, fun s hs => absurd hs (by simp)⟩

theorem struct_plain (h : aliases.AllWritable) (scope : BoundScope) {s : Struct}
    (hs : s.Writable) : Plain (struct aliases scope s) ∧
      ∀ w ∈ wrappers aliases scope s, Plain w := by
  refine ⟨⟨fun f hf => ?_, ?_⟩, fun w hw => ?_⟩
  · obtain ⟨l, hl, rfl⟩ := List.mem_map.mp hf
    obtain ⟨g, hg, rfl⟩ := List.mem_map.mp hl
    exact (layOutField_writable h scope s.name (hs.fields g hg)).1
  · refine List.filter_eq_nil_iff.mpr fun i hi => ?_
    obtain ⟨d, rfl, _⟩ := hs.inner i hi
    simp [delegate?]
  · obtain ⟨l, hl, hw⟩ := List.mem_filterMap.mp hw
    obtain ⟨g, hg, rfl⟩ := List.mem_map.mp hl
    exact (layOutField_writable h scope s.name (hs.fields g hg)).2 w hw

/-- Everything in the set can be written as it is. -/
structure Finished (d : DeclarationSet) : Prop where
  constants : ∀ c ∈ d.constants, c.type.Writable
  enumConstants : ∀ c ∈ d.enumConstants, c.type.Writable
  structs : ∀ s ∈ d.structs, Plain s
  delegates : ∀ x ∈ d.delegates, x.Writable
  functions : ∀ f ∈ d.functions, f.Writable
  inlineArrays : ∀ s ∈ d.inlineArrays, Plain s

theorem declarations_finished {d : DeclarationSet} (h : d.Writable) (o : Options)
    (ha : aliases.AllWritable) : Finished (declarations o aliases d) where
  constants := by
    intro c hc
    obtain ⟨c', hc', rfl⟩ := List.mem_map.mp hc
    exact (h.constants c' hc').2
  enumConstants := by
    intro c hc
    obtain ⟨c', hc', rfl⟩ := List.mem_map.mp hc
    exact (h.enumConstants c' hc').2
  structs := by
    intro s hs
    obtain ⟨s', hs', rfl⟩ := List.mem_map.mp hs
    exact (struct_plain ha _ (h.structs s' hs')).1
  delegates := by
    intro x hx
    obtain ⟨x', hx', rfl⟩ := List.mem_map.mp hx
    have hwritable := allDelegates_writable h x' hx'
    refine ⟨Aliases.resolve_writable ha hwritable.1, fun a hmem => ?_⟩
    obtain ⟨a', ha', rfl⟩ := List.mem_map.mp hmem
    exact Aliases.resolve_writable ha (hwritable.2 a' ha')
  functions := by
    intro f hf
    obtain ⟨f', hf', rfl⟩ := List.mem_map.mp hf
    refine ⟨Aliases.resolve_writable ha (h.functions f' hf').1, fun a hmem => ?_⟩
    obtain ⟨a', ha', rfl⟩ := List.mem_map.mp hmem
    exact Aliases.resolve_writable ha ((h.functions f' hf').2 a' ha')
  inlineArrays := by
    intro w hw
    obtain ⟨s', hs', hw⟩ := List.mem_flatMap.mp hw
    exact (struct_plain ha _ (h.structs s' hs')).2 w hw

end Finish

/-! ## From a header to what is written -/

/-- The symbols that are known once a header is built. -/
def knownOf (o : Options) (d : Header.Definitions) : Symbols :=
  (Build.declarations d (.start o)).builder.known

/-- The aliases that the typedefs of a header make. -/
def aliasesOf (o : Options) (d : Header.Definitions) : Aliases :=
  (Build.declarations d (.start o)).builder.aliases

/-- The declarations of a header as they are written: built, and finished with its aliases. -/
def finishedOf (o : Options) (d : Header.Definitions) : Except Misfit DeclarationSet := do
  let built ← (Build.declarations d (.start o)).result
  (Finish.finish o (aliasesOf o d) built).result

theorem knownOf_eq {d : Header.Definitions} (h : d.WellTyped) (o : Options) :
    knownOf o d = Build.knownAfter (Build.Builder.start o).known d.defines := by
  obtain ⟨_, _, hbuilder⟩ := Build.declarations_runs h (.start o)
  rw [knownOf, hbuilder]

theorem aliasesOf_eq {d : Header.Definitions} (h : d.WellTyped) (o : Options) :
    aliasesOf o d = Build.builtAliases (.start o) d := by
  obtain ⟨_, _, hbuilder⟩ := Build.declarations_runs h (.start o)
  rw [aliasesOf, hbuilder]

/-- **A well-typed header gets its declarations.** -/
theorem finishedOf_eq {d : Header.Definitions} (h : d.WellTyped) (o : Options) :
    finishedOf o d =
      .ok (Finish.declarations o (aliasesOf o d) (Build.builtDeclarations (.start o) d)) := by
  obtain ⟨_, hresult, _⟩ := Build.declarations_runs h (.start o)
  rw [finishedOf, hresult, ok_bind, Finish.finish_eq (Build.builtDeclarations_writable h _)]

/-- Whatever the header, the functions that are written are those that are accepted under the
symbols known in the end. -/
theorem functions_of_finishedOf {o : Options} {d : Header.Definitions} {final : DeclarationSet}
    (h : finishedOf o d = .ok final) : final.functions =
      (Build.acceptedFunctions (knownOf o d) nativeTypes o d.functions).map fun b =>
        Finish.function o (aliasesOf o d) b.function := by
  obtain ⟨built, hbuilt, hfinish⟩ := bind_eq_ok.mp h
  rw [Finish.finish_of_ok hfinish]
  show built.functions.map (Finish.function o (aliasesOf o d)) = _
  rw [Build.functions_of_declarations hbuilt, List.map_map]
  rfl

end NativeBindings
