import NativeBindings.Build.Declarations
import NativeBindings.Proofs.Aliases
import NativeBindings.Proofs.Defines

/-!
# What is built from a well-typed header

Nothing in a well-typed header ends the building with a fault. Each judgement has one
lemma that says so, and says from which description each type in the result was
converted. What is built as a whole is then a list for each collection: what its
judgements accept, in the order of the header.
-/

namespace NativeBindings.Build

open Header (TypeDesc Signature)
open CSharp

/-! ## Guards -/

/-- Whether guards let an item through. -/
def isIncluded (known : Symbols) (guards : List Header.Guard) : Bool :=
  (Header.included known guards).toOption.getD false

theorem included_eq {guards : List Header.Guard} (h : ∀ g ∈ guards, g.WellTyped)
    (known : Symbols) : Header.included known guards = .ok (isIncluded known guards) := by
  obtain ⟨b, hb⟩ := Header.included_eq_ok h known
  rw [isIncluded, hb]
  rfl

theorem eq_isIncluded {known : Symbols} {guards : List Header.Guard} {b : Bool}
    (h : Header.included known guards = .ok b) : b = isIncluded known guards := by
  rw [isIncluded, h]
  rfl

theorem judgeGuarded_ends {α : Type} {guards : List Header.Guard} (h : ∀ g ∈ guards, g.WellTyped)
    (known : Symbols) {exclusion : Notice} {judge : Traced Notice Misfit (Verdict α)}
    {P : α → Prop} (hjudge : judge.Ends fun v => ∀ a, v = .accepted a → P a) :
    (judgeGuarded known guards exclusion judge).Ends fun v => ∀ a, v = .accepted a →
      isIncluded known guards = true ∧ P a := by
  obtain ⟨v, hv, hP⟩ := hjudge
  rw [Traced.Ends, result_judgeGuarded, included_eq h, ok_bind]
  cases hincluded : isIncluded known guards with
  | true => exact ⟨v, hv, fun a ha => ⟨rfl, hP a ha⟩⟩
  | false => exact ⟨.excluded, rfl, fun a ha => absurd ha (by simp)⟩

/-! ## Enums -/

theorem includedAmong_eq {ι : Type} {guards : ι → List Header.Guard} {items : List ι}
    (h : ∀ i ∈ items, ∀ g ∈ guards i, g.WellTyped) (known : Symbols) :
    includedAmong known guards items = .ok (items.filter fun i => isIncluded known (guards i)) :=
  filterM_eq_filter fun i hi => included_eq (h i hi) known

/-- The constants that hold the numbers of an enum. -/
def numbersOf (known : Symbols) (e : Header.Enum) : List Constant :=
  if isIncluded known e.guards then
    (e.elements.filter fun x => isIncluded known x.guards).map enumConstant
  else []

theorem constantsOfEnum_eq {e : Header.Enum} (h : e.WellTyped) (known : Symbols) :
    constantsOfEnum known e = .ok (numbersOf known e) := by
  rw [constantsOfEnum, numbersOf, included_eq h.2.2, ok_bind]
  split
  · rw [includedAmong_eq fun x hx => (h.2.1 x hx).2]
    rfl
  · rfl

theorem enumValues_eq {es : List Header.EnumElement} (h : ∀ e ∈ es, e.WellTyped) (known : Symbols)
    (o : Options) (enum : Leaf) : (enumValues known o enum es).result =
      .ok ((es.filter fun e => isIncluded known e.guards).map (enumValue o)) := by
  induction es with
  | nil => rfl
  | cons e rest ih =>
      have hrest := ih fun x hx => h x (List.mem_cons_of_mem e hx)
      rw [enumValues, Traced.result_bind, Traced.result_ofExcept,
        included_eq (h e List.mem_cons_self).2, ok_bind]
      cases hincluded : isIncluded known e.guards with
      | true =>
          rw [if_pos rfl, Traced.result_bind, hrest, ok_bind, Traced.result_pure,
            List.filter_cons, hincluded, if_pos rfl, List.map_cons]
      | false =>
          rw [if_neg (by simp), Traced.result_bind, Traced.result_report, ok_bind, hrest,
            List.filter_cons, hincluded, if_neg (by simp)]

/-- The enum with the values that are included. -/
def builtEnum (known : Symbols) (o : Options) (e : Header.Enum) : Enum :=
  let annotations := annotationsOf e.comments
  { name := (enumName e.name).toOption.getD e.name
    isFlags := e.isFlags
    values := (e.elements.filter fun x => isIncluded known x.guards).map (enumValue o)
    annotations :=
      if e.isFlags then { annotations with attributes := ["Flags"] } else annotations }

theorem judgeEnum_eq {e : Header.Enum} (h : e.WellTyped) (known : Symbols) (o : Options) :
    (judgeEnum known o e).result =
      .ok (if isIncluded known e.guards then .accepted (builtEnum known o e) else .excluded) := by
  obtain ⟨s, hs⟩ := h.1.exists
  have hname : enumName e.name = .ok ((enumName e.name).toOption.getD e.name) := by rw [hs]; rfl
  rw [judgeEnum, result_judgeGuarded, included_eq h.2.2, ok_bind]
  split
  · rw [Traced.result_bind, Traced.result_ofExcept, hname, ok_bind]
    dsimp only
    rw [Traced.result_bind, enumValues_eq h.2.1, ok_bind, Traced.result_pure]
    rfl
  · rfl

/-! ## Typedefs -/

/-- What a typedef becomes. -/
inductive TypedefFrom (native : NativeTypes) (t : Header.Typedef) : TypedefResult → Prop where
  /-- A function pointer brings its delegate. -/
  | delegate {wrapper : Leaf} {s : Signature} {d : Delegate}
      (hp : t.type.description.functionPointer? = some (wrapper, s))
      (h : DelegateFrom native (wrapper.orElse t.name) s d) : TypedefFrom native t (.delegate d)
  /-- Any other type gets an alias. -/
  | typeAlias {a : Alias} (hp : t.type.description.functionPointer? = none)
      (hname : t.name.key = .ok a.name) (h : Converted native t.type.description a.target) :
      TypedefFrom native t (.typeAlias a)
  /-- A type that has the name already gets nothing. -/
  | identity (hp : t.type.description.functionPointer? = none) : TypedefFrom native t .identity

theorem aliasTarget_ends {t : TypeDesc} (h : t.WellTyped) (native : NativeTypes) (name : Leaf) :
    (aliasTarget native name t).Ends fun r => ∀ type, r = some type → Converted native t type := by
  have refused : ∀ n : Notice, (aliasTarget.refuse n).Ends
      fun r => ∀ type, r = some type → Converted native t type := fun n => .afterReport .none
  unfold aliasTarget
  split
  · rename_i builtin
    obtain ⟨s, rfl⟩ := Leaf.IsText.exists h
    refine .bind_of_result (a := .text s) rfl ?_
    have hnative : nativeName? native (.text s) = native.get? s := rfl
    rw [hnative]
    have hconverted : Converted native (.builtin (.text s)) _ := .builtin s
    cases hget : native.get? s with
    | none => exact refused _
    | some n =>
        rw [hget] at hconverted
        exact .some hconverted
  · exact refused _
  · exact refused _
  · exact refused _
  · exact refused _
  · refine .bind (convert_ends h native) fun r hr => ?_
    cases r with
    | error cause => exact refused _
    | ok target => exact .some (hr target rfl)

theorem judgeTypedef_ends {t : Header.Typedef} (h : t.WellTyped) (known : Symbols)
    (native : NativeTypes) (o : Options) : (judgeTypedef known native o t).Ends fun v =>
      ∀ r, v = .accepted r → isIncluded known t.guards = true ∧ TypedefFrom native t r := by
  refine judgeGuarded_ends h.2.2 known ?_
  dsimp only
  split
  · rename_i wrapper s hp
    obtain ⟨_, hreturn, hparameters⟩ := functionPointer?_wellTyped h.2.1.2 hp
    refine .bind (delegateOf_ends hreturn hparameters native o _) fun d hd => .pure fun r hr => ?_
    injection hr with hr
    exact hr ▸ .delegate hp ⟨hd.name, hd.returnType, hd.arguments⟩
  · rename_i hp
    refine .bind (aliasTarget_ends h.2.1.2 native t.name) fun target htarget => ?_
    cases target with
    | none => exact .pure fun r hr => absurd hr (by simp)
    | some type =>
        obtain ⟨s, hs⟩ := h.1.key
        refine .bind_of_result hs ?_
        split
        · refine .pure fun r hr => ?_
          injection hr with hr
          exact hr ▸ .identity hp
        · refine .pure fun r hr => ?_
          injection hr with hr
          exact hr ▸ .typeAlias hp hs (htarget type rfl)

/-! ## Structs -/

/-- The field keeps its name, and it is an array if it was one. -/
def SameShape (f : Header.Field) (f' : Field) : Prop :=
  f'.name = f.name ∧ f'.isArray = isArrayField f

/-- What a field becomes. -/
inductive FieldFrom (native : NativeTypes) (f : Header.Field) (b : BuiltField) : Prop where
  /-- The elements of an array are converted. -/
  | array (ha : isArrayField f = true)
      (h : Converted native (arrayShape f.type.description).1 b.field.type)
      (hd : b.delegate = none) (hshape : SameShape f b.field)
  /-- A function pointer brings its delegate. -/
  | functionPointer {wrapper : Leaf} {s : Signature} {d : Delegate} (ha : isArrayField f = false)
      (hp : f.type.description.functionPointer? = some (wrapper, s))
      (htype : b.field.type = { base := delegateName (wrapper.orElse f.name), pointers := 1 })
      (h : DelegateFrom native (delegateName (wrapper.orElse f.name)) s d)
      (hd : b.delegate = some d) (hshape : SameShape f b.field)
  /-- Any other type is converted. -/
  | converted (ha : isArrayField f = false) (hp : f.type.description.functionPointer? = none)
      (h : Converted native f.type.description b.field.type) (hd : b.delegate = none)
      (hshape : SameShape f b.field)

theorem FieldFrom.sameShape {native : NativeTypes} {f : Header.Field} {b : BuiltField}
    (h : FieldFrom native f b) : SameShape f b.field := by
  cases h with
  | array _ _ _ hshape => exact hshape
  | functionPointer _ _ _ _ _ hshape => exact hshape
  | converted _ _ _ _ hshape => exact hshape

theorem skipField_ends {struct : Leaf} {f : Header.Field} {problem : FieldProblem}
    {P : BuiltField → Prop} :
    (skipField struct f problem).Ends fun r => ∀ b, r = some b → P b := .afterReport .none

theorem arrayShape_wellTyped {t : TypeDesc} (h : t.WellTyped) :
    (arrayShape t).1.WellTyped ∧ Leaf.IsTextOrMissing (arrayShape t).2 := by
  unfold arrayShape
  split
  · rename_i element bound
    refine ⟨h, ?_⟩
    cases bound with
    | none => exact trivial
    | some s => exact trivial
  · exact ⟨h, trivial⟩

theorem arrayField_ends {f : Header.Field} (h : f.WellTyped) (ha : isArrayField f = true)
    (native : NativeTypes) (struct : Leaf) : (arrayField native struct f).Ends
      fun r => ∀ b, r = some b → FieldFrom native f b := by
  obtain ⟨helement, hshape⟩ := arrayShape_wellTyped h.2.1.2
  -- the bound is the field's own one, or else the one in its type
  have hbound : Leaf.IsTextOrMissing (f.arrayBounds.or (arrayShape f.type.description).2) := by
    cases hown : f.arrayBounds with
    | none => exact hshape
    | some l =>
        have hfield := h.2.2.1
        rw [hown] at hfield
        exact hfield
  unfold arrayField
  dsimp only
  split
  · exact skipField_ends
  · rename_i hvacant
    refine .bind (convert_ends helement native) fun r hr => ?_
    cases r with
    | error cause => exact skipField_ends
    | ok type =>
        -- a bound that is not vacant is there, and then it is a text
        obtain ⟨s, hs⟩ : ∃ s, Leaf.ofOption (f.arrayBounds.or
            (arrayShape f.type.description).2) = .text s := by
          rcases Leaf.ofOption_isText hbound with htext | hnull
          · exact htext.exists
          · rw [hnull] at hvacant
            exact absurd rfl hvacant
        have hneed : (Leaf.ofOption (f.arrayBounds.or
            (arrayShape f.type.description).2)).needText = .ok s := by rw [hs]; rfl
        exact .bind_of_result hneed (.some (.array ha (hr type rfl) rfl ⟨rfl, ha.symm⟩))

theorem plainField_ends {f : Header.Field} (h : f.WellTyped) (ha : isArrayField f = false)
    (native : NativeTypes) (o : Options) (struct : Leaf) : (plainField native o struct f).Ends
      fun r => ∀ b, r = some b → FieldFrom native f b := by
  unfold plainField
  split
  · rename_i wrapper s hp
    obtain ⟨_, hreturn, hparameters⟩ := functionPointer?_wellTyped h.2.1.2 hp
    exact .bind (delegateOf_ends hreturn hparameters native o _) fun d hd =>
      .afterReport (.some (.functionPointer ha hp rfl hd rfl ⟨rfl, ha.symm⟩))
  · rename_i hp
    refine .bind (convert_ends h.2.1.2 native) fun r hr => ?_
    cases r with
    | error cause => exact skipField_ends
    | ok type => exact .some (.converted ha hp (hr type rfl) rfl ⟨rfl, ha.symm⟩)

theorem fieldOf_ends {f : Header.Field} (h : f.WellTyped) (native : NativeTypes) (o : Options)
    (struct : Leaf) : (fieldOf native o struct f).Ends
      fun r => ∀ b, r = some b → FieldFrom native f b := by
  unfold fieldOf
  split
  · rename_i ha
    exact arrayField_ends h ha native struct
  · rename_i ha
    exact plainField_ends h (Bool.eq_false_iff.mpr ha) native o struct

/-- The field that is built, if one is. -/
def builtField? (native : NativeTypes) (o : Options) (struct : Leaf) (f : Header.Field) :
    Option BuiltField := (fieldOf native o struct f).value?.join

theorem fieldOf_eq {f : Header.Field} (h : f.WellTyped) (native : NativeTypes) (o : Options)
    (struct : Leaf) :
    (fieldOf native o struct f).result = .ok (builtField? native o struct f) := by
  obtain ⟨r, hr, _⟩ := fieldOf_ends h native o struct
  rw [builtField?, Traced.value?_eq_some.mpr hr, hr]
  rfl

theorem builtField?_from {f : Header.Field} (h : f.WellTyped) {native : NativeTypes} {o : Options}
    {struct : Leaf} {b : BuiltField} (hb : builtField? native o struct f = some b) :
    FieldFrom native f b := by
  obtain ⟨r, hr, hfrom⟩ := fieldOf_ends h native o struct
  rw [fieldOf_eq h] at hr
  injection hr with hr
  exact hfrom b (hr.symm.trans hb)

/-- The fields that are built of those of a struct. -/
def keptFields (known : Symbols) (native : NativeTypes) (o : Options) (struct : Leaf)
    (fs : List Header.Field) : List BuiltField :=
  (fs.filter fun f => isIncluded known f.guards).filterMap (builtField? native o struct)

theorem fieldsOf_eq {fs : List Header.Field} (h : ∀ f ∈ fs, f.WellTyped) (known : Symbols)
    (native : NativeTypes) (o : Options) (struct : Leaf) :
    (fieldsOf known native o struct fs).result = .ok (keptFields known native o struct fs) := by
  induction fs with
  | nil => rfl
  | cons f rest ih =>
      have hf := h f List.mem_cons_self
      have hrest := ih fun x hx => h x (List.mem_cons_of_mem f hx)
      rw [fieldsOf, Traced.result_bind, Traced.result_ofExcept, included_eq hf.2.2.2, ok_bind,
        keptFields, List.filter_cons]
      cases hincluded : isIncluded known f.guards with
      | true =>
          rw [if_pos rfl, if_pos rfl, Traced.result_bind, fieldOf_eq hf, ok_bind,
            Traced.result_bind, hrest, ok_bind, Traced.result_pure, List.filterMap_cons]
          cases builtField? native o struct f with
          | none => rfl
          | some b => rfl
      | false =>
          rw [if_neg (by simp), if_neg (by simp), Traced.result_bind, Traced.result_report,
            ok_bind, hrest, keptFields]

/-- The struct with the fields that are built. -/
def builtStruct (known : Symbols) (native : NativeTypes) (o : Options) (s : Header.Struct) :
    Struct :=
  let kept := keptFields known native o s.name s.fields
  { name := s.name
    fields := kept.map (·.field)
    inner := kept.filterMap fun b => b.delegate.map .delegate
    annotations := annotationsOf s.comments }

theorem judgeStruct_eq {s : Header.Struct} (h : s.WellTyped) (known : Symbols)
    (native : NativeTypes) (o : Options) : (judgeStruct known native o s).result =
      .ok (if isIncluded known s.guards then .accepted (builtStruct known native o s)
        else .excluded) := by
  rw [judgeStruct, result_judgeGuarded, included_eq h.2.2, ok_bind]
  split
  · rw [Traced.result_bind, fieldsOf_eq h.2.1, ok_bind, Traced.result_pure]
    rfl
  · rfl

/-- Fields that are built without a fault are those that are kept. -/
theorem fieldsOf_of_ok {fs : List Header.Field} {known : Symbols} {native : NativeTypes}
    {o : Options} {struct : Leaf} {bs : List BuiltField}
    (h : (fieldsOf known native o struct fs).result = .ok bs) :
    bs = keptFields known native o struct fs := by
  induction fs generalizing bs with
  | nil =>
      injection h with h
      exact h.symm
  | cons f rest ih =>
      rw [fieldsOf, Traced.result_bind, Traced.result_ofExcept] at h
      obtain ⟨included, hincluded, h⟩ := bind_eq_ok.mp h
      rw [keptFields, List.filter_cons, ← eq_isIncluded hincluded]
      cases included with
      | true =>
          rw [if_pos rfl, Traced.result_bind] at h
          obtain ⟨built, hbuilt, h⟩ := bind_eq_ok.mp h
          rw [Traced.result_bind] at h
          obtain ⟨later, hlater, h⟩ := bind_eq_ok.mp h
          injection h with h
          have hf : builtField? native o struct f = built := by
            rw [builtField?, Traced.value?_eq_some.mpr hbuilt]
            rfl
          rw [if_pos rfl, List.filterMap_cons, hf, ← h, ih hlater, keptFields]
          cases built with
          | none => rfl
          | some b => rfl
      | false =>
          rw [if_neg (by simp), Traced.result_bind, Traced.result_report, ok_bind] at h
          rw [if_neg (by simp), ih h, keptFields]

theorem judgeStruct_of_ok {s : Header.Struct} {known : Symbols} {native : NativeTypes}
    {o : Options} {v : Verdict Struct} (h : (judgeStruct known native o s).result = .ok v) :
    v = if isIncluded known s.guards then .accepted (builtStruct known native o s)
      else .excluded := by
  rw [judgeStruct, result_judgeGuarded] at h
  obtain ⟨included, hincluded, h⟩ := bind_eq_ok.mp h
  rw [← eq_isIncluded hincluded]
  cases included with
  | false =>
      injection h with h
      exact h.symm
  | true =>
      rw [if_pos rfl, Traced.result_bind] at h
      obtain ⟨bs, hbs, h⟩ := bind_eq_ok.mp h
      injection h with h
      rw [← h, fieldsOf_of_ok hbs]
      rfl

/-! ## Functions -/

/-- What an argument becomes. -/
inductive ArgumentFrom (native : NativeTypes) (function : Leaf) (a : Header.Argument)
    (b : BuiltArgument) : Prop where
  /-- An array is passed as a pointer to its elements. -/
  | array {t : Header.TypeRef} {element : TypeDesc} {bound : Option String} {type : CsType}
      (ht : a.type = some t) (ha : t.description = .array element bound)
      (h : Converted native element type) (htype : b.argument.type = type.pointerTo)
      (hd : b.delegate = none)
  /-- A function pointer brings its delegate. -/
  | functionPointer {t : Header.TypeRef} {wrapper name : Leaf} {s : Signature} {d : Delegate}
      (ht : a.type = some t) (hp : t.description.functionPointer? = some (wrapper, s))
      (hname : parameterName a.name = .ok name)
      (htype : b.argument.type =
        { base := delegateName (.text (function.display ++ name.display)) })
      (h : DelegateFrom native (delegateName (.text (function.display ++ name.display))) s d)
      (hd : b.delegate = some d)
  /-- Any other type is converted. -/
  | converted {t : Header.TypeRef} (ht : a.type = some t)
      (hp : t.description.functionPointer? = none)
      (h : Converted native t.description b.argument.type) (hd : b.delegate = none)

theorem ignoreArgument_ends {function : Leaf} {a : Header.Argument} {problem : ArgumentProblem}
    {P : BuiltArgument → Prop} :
    (ignoreArgument function a problem).Ends fun r => ∀ b, r = some b → P b := .afterReport .none

theorem typedArgument_ends {a : Header.Argument} {t : Header.TypeRef} (h : t.WellTyped)
    (ht : a.type = some t) {name : Leaf} (hname : parameterName a.name = .ok name)
    (native : NativeTypes) (o : Options) (function : Leaf) :
    (typedArgument native o function name a t.description).Ends
      fun r => ∀ b, r = some b → ArgumentFrom native function a b := by
  unfold typedArgument
  split
  · rename_i element bound ha
    have helement : element.WellTyped := by
      have hwell := h.2
      rw [ha] at hwell
      exact hwell
    refine .bind (convert_ends helement native) fun r hr => ?_
    cases r with
    | error cause => exact ignoreArgument_ends
    | ok type => exact .some (.array ht ha (hr type rfl) rfl rfl)
  · split
    · rename_i wrapper s hp
      obtain ⟨_, hreturn, hparameters⟩ := functionPointer?_wellTyped h.2 hp
      exact .bind (delegateOf_ends hreturn hparameters native o _) fun d hd =>
        .some (.functionPointer ht hp hname rfl hd rfl)
    · rename_i hp
      refine .bind (convert_ends h.2 native) fun r hr => ?_
      cases r with
      | error cause => exact ignoreArgument_ends
      | ok type => exact .some (.converted ht hp (hr type rfl) rfl)

theorem argumentOf_ends {a : Header.Argument} (h : a.WellTyped) (native : NativeTypes)
    (o : Options) (function : Leaf) : (argumentOf native o function a).Ends
      fun r => ∀ b, r = some b → ArgumentFrom native function a b := by
  obtain ⟨name, hname⟩ := parameterName_eq_ok h.1
  unfold argumentOf
  refine .bind_of_result hname ?_
  cases ht : a.type with
  | none => exact ignoreArgument_ends
  | some t =>
      have htype : t.WellTyped := by
        have hwell := h.2.1
        rw [ht] at hwell
        exact hwell
      exact typedArgument_ends htype ht hname native o function

/-- The argument that is built, if one is. -/
def builtArgument? (native : NativeTypes) (o : Options) (function : Leaf) (a : Header.Argument) :
    Option BuiltArgument := (argumentOf native o function a).value?.join

theorem argumentOf_of_ok {native : NativeTypes} {o : Options} {function : Leaf}
    {a : Header.Argument} {r : Option BuiltArgument}
    (h : (argumentOf native o function a).result = .ok r) :
    builtArgument? native o function a = r := by
  rw [builtArgument?, Traced.value?_eq_some.mpr h]
  rfl

theorem builtArgument?_from {a : Header.Argument} (h : a.WellTyped) {native : NativeTypes}
    {o : Options} {function : Leaf} {b : BuiltArgument}
    (hb : builtArgument? native o function a = some b) : ArgumentFrom native function a b := by
  obtain ⟨r, hr, hfrom⟩ := argumentOf_ends h native o function
  exact hfrom b ((argumentOf_of_ok hr).symm.trans hb)

/-- The arguments that are built of those of a function. -/
def keptArguments (native : NativeTypes) (o : Options) (function : Leaf)
    (as : List Header.Argument) : List BuiltArgument :=
  as.filterMap (builtArgument? native o function)

/-- The function takes a variadic argument list, under its own sign or as a type. -/
def takesVariadic (native : NativeTypes) (o : Options) (function : Leaf)
    (as : List Header.Argument) : Bool :=
  as.any (·.isVarargs) || (keptArguments native o function as).any (·.argument.type.isVariadic)

theorem argumentsOf_ends {as : List Header.Argument} (h : ∀ a ∈ as, a.WellTyped)
    (native : NativeTypes) (o : Options) (function : Leaf) :
    (argumentsOf native o function as).Ends fun _ => True := by
  induction as with
  | nil => exact .pure trivial
  | cons a rest ih =>
      have hrest := ih fun x hx => h x (List.mem_cons_of_mem a hx)
      rw [argumentsOf]
      split
      · exact .afterReport (.pure trivial)
      · refine .bind (argumentOf_ends (h a List.mem_cons_self) native o function) fun r _ => ?_
        cases r with
        | none => exact hrest
        | some b =>
            dsimp only
            split
            · exact .afterReport (.pure trivial)
            · exact .bind hrest fun _ _ => .pure trivial

/-- Arguments that are built without a fault are those that are kept, unless one is variadic. -/
theorem argumentsOf_of_ok {native : NativeTypes} {o : Options} {function : Leaf}
    {as : List Header.Argument} {r : Option (List BuiltArgument)}
    (h : (argumentsOf native o function as).result = .ok r) :
    r = if takesVariadic native o function as then none
      else some (keptArguments native o function as) := by
  induction as generalizing r with
  | nil =>
      injection h with h
      exact h.symm
  | cons a rest ih =>
      rw [argumentsOf] at h
      rw [takesVariadic, List.any_cons, keptArguments, List.filterMap_cons]
      cases hvarargs : a.isVarargs with
      | true =>
          rw [hvarargs, if_pos rfl] at h
          injection h with h
          exact h.symm
      | false =>
          rw [hvarargs, if_neg (by simp), Traced.result_bind] at h
          obtain ⟨built, hbuilt, h⟩ := bind_eq_ok.mp h
          rw [argumentOf_of_ok hbuilt, Bool.false_or]
          -- an argument that is ignored cannot drop the function, whatever its type
          cases built with
          | none => exact ih h
          | some b =>
              dsimp only at h ⊢
              rw [List.any_cons]
              cases hv : b.argument.type.isVariadic with
              | true =>
                  rw [hv, if_pos rfl] at h
                  injection h with h
                  rw [Bool.true_or, Bool.or_true]
                  exact h.symm
              | false =>
                  rw [hv, if_neg (by simp), Traced.result_bind] at h
                  obtain ⟨later, hlater, h⟩ := bind_eq_ok.mp h
                  injection h with h
                  rw [Bool.false_or, ← h, ih hlater, takesVariadic, keptArguments]
                  split
                  · rfl
                  · rfl

/-- The type of what a function returns. -/
inductive ReturnFrom (native : NativeTypes) (f : Header.Function) : CsType → Prop where
  /-- A function without a type returns nothing. -/
  | void (ht : f.returnType = none) : ReturnFrom native f { base := "void" }
  /-- The type is converted. -/
  | converted {t : Header.TypeRef} {type : CsType} (ht : f.returnType = some t)
      (h : Converted native t.description type) : ReturnFrom native f type
  /-- A type that is refused becomes unknown. -/
  | refused {t : Header.TypeRef} (ht : f.returnType = some t)
      (h : ∃ cause, (convert native t.description).result = .ok (.error cause)) :
      ReturnFrom native f .unknown

theorem ReturnFrom.writable {native : NativeTypes} {f : Header.Function} {type : CsType}
    (h : ReturnFrom native f type) : type.Writable := by
  cases h with
  | void _ => exact .of_text _ 0
  | converted _ h => exact h.writable
  | refused _ _ => exact .of_text _ 0

theorem returnTypeOf_ends {f : Header.Function} (h : f.WellTyped) (native : NativeTypes) :
    (returnTypeOf native f).Ends (ReturnFrom native f) := by
  unfold returnTypeOf
  split
  · rename_i ht
    exact .pure (.void ht)
  · rename_i t ht
    have htype : t.WellTyped := by
      have hwell := h.2.1
      rw [ht] at hwell
      exact hwell
    obtain ⟨r, hr, hconverted⟩ := convert_ends htype.2 native
    refine .bind_of_result hr ?_
    cases r with
    | ok type => exact .pure (.converted ht (hconverted type rfl))
    | error cause => exact .afterReport (.pure (.refused ht ⟨cause, hr⟩))

/-- The type that a function returns. -/
def builtReturnType (native : NativeTypes) (f : Header.Function) : CsType :=
  (returnTypeOf native f).value?.getD .unknown

theorem returnTypeOf_of_ok {native : NativeTypes} {f : Header.Function} {type : CsType}
    (h : (returnTypeOf native f).result = .ok type) : builtReturnType native f = type := by
  rw [builtReturnType, Traced.value?_eq_some.mpr h]
  rfl

theorem builtReturnType_from {f : Header.Function} (h : f.WellTyped) (native : NativeTypes) :
    ReturnFrom native f (builtReturnType native f) := by
  obtain ⟨type, htype, hfrom⟩ := returnTypeOf_ends h native
  exact returnTypeOf_of_ok htype ▸ hfrom

/-- The function with the arguments that are built, and with their delegates. -/
def builtFunction (native : NativeTypes) (o : Options) (f : Header.Function) : BuiltFunction :=
  let kept := keptArguments native o f.name f.arguments
  let returnType := builtReturnType native f
  let arguments := kept.map (·.argument)
  let modifiers := if needsUnsafe (returnType :: arguments.map (·.type)) then ["unsafe"] else []
  { function := {
      name := f.name, returnType, arguments,
      annotations := { annotationsOf f.comments with
        modifiers, attributes := [o.importAttribute] } }
    delegates := kept.filterMap (·.delegate) }

/-- The function takes or returns a variadic argument list. -/
def isVariadicFunction (native : NativeTypes) (o : Options) (f : Header.Function) : Bool :=
  takesVariadic native o f.name f.arguments || (builtReturnType native f).isVariadic

theorem functionOf_ends {f : Header.Function} (h : f.WellTyped) (native : NativeTypes)
    (o : Options) : (functionOf native o f).Ends fun _ => True := by
  refine .bind (returnTypeOf_ends h native) fun returnType _ =>
    .bind (argumentsOf_ends h.2.2.1 native o f.name) fun r _ => ?_
  cases r with
  | none => exact .pure trivial
  | some built =>
      dsimp only
      split
      · exact .afterReport (.pure trivial)
      · exact .pure trivial

theorem functionOf_of_ok {native : NativeTypes} {o : Options} {f : Header.Function}
    {r : Option BuiltFunction} (h : (functionOf native o f).result = .ok r) :
    r = if isVariadicFunction native o f then none else some (builtFunction native o f) := by
  rw [functionOf, Traced.result_bind] at h
  obtain ⟨returnType, hreturn, h⟩ := bind_eq_ok.mp h
  rw [Traced.result_bind] at h
  obtain ⟨arguments, harguments, h⟩ := bind_eq_ok.mp h
  rw [argumentsOf_of_ok harguments] at h
  rw [isVariadicFunction, builtFunction, returnTypeOf_of_ok hreturn]
  cases htakes : takesVariadic native o f.name f.arguments with
  | true =>
      rw [htakes] at h
      injection h with h
      exact h.symm
  | false =>
      rw [htakes, if_neg (by simp)] at h
      dsimp only at h
      rw [Bool.false_or]
      split at h
      · rename_i hlist
        injection h with h
        rw [if_pos hlist]
        exact h.symm
      · rename_i hlist
        injection h with h
        rw [if_neg hlist]
        exact h.symm

/-- The types in the signature of a function, that of the result first. -/
def signatureTypes (native : NativeTypes) (o : Options) (f : Header.Function) : List CsType :=
  builtReturnType native f ::
    (keptArguments native o f.name f.arguments).map (·.argument.type)

theorem isVariadicFunction_eq_false {native : NativeTypes} {o : Options} {f : Header.Function} :
    isVariadicFunction native o f = false ↔ (∀ a ∈ f.arguments, a.isVarargs = false) ∧
      ∀ t ∈ signatureTypes native o f, t.isVariadic = false := by
  simp only [isVariadicFunction, takesVariadic, Bool.or_eq_false_iff, List.any_eq_false,
    signatureTypes, List.forall_mem_cons, List.forall_mem_map, Bool.not_eq_true]
  rw [and_assoc, and_comm (a := _ = false)]

/-- What becomes of a function. -/
def functionVerdict (known : Symbols) (native : NativeTypes) (o : Options) (f : Header.Function) :
    Verdict BuiltFunction :=
  if !isIncluded known f.guards then .excluded
  else if isVariadicFunction native o f then .dropped
  else .accepted (builtFunction native o f)

/-- Accepted are the functions that are included and have no variadic argument list. -/
theorem functionVerdict_eq_accepted {known : Symbols} {native : NativeTypes} {o : Options}
    {f : Header.Function} {b : BuiltFunction} :
    functionVerdict known native o f = .accepted b ↔ isIncluded known f.guards = true ∧
      isVariadicFunction native o f = false ∧ builtFunction native o f = b := by
  rw [functionVerdict]
  cases isIncluded known f.guards with
  | false => simp
  | true =>
      cases isVariadicFunction native o f with
      | true => simp
      | false => simp

theorem judgeFunction_of_ok {known : Symbols} {native : NativeTypes} {o : Options}
    {f : Header.Function} {v : Verdict BuiltFunction}
    (h : (judgeFunction known native o f).result = .ok v) :
    v = functionVerdict known native o f := by
  rw [judgeFunction, result_judgeGuarded] at h
  obtain ⟨included, hincluded, h⟩ := bind_eq_ok.mp h
  rw [functionVerdict, ← eq_isIncluded hincluded]
  cases included with
  | false =>
      injection h with h
      exact h.symm
  | true =>
      rw [if_pos rfl, Traced.result_bind] at h
      obtain ⟨r, hr, h⟩ := bind_eq_ok.mp h
      rw [functionOf_of_ok hr] at h
      rw [if_neg (by simp)]
      cases hvariadic : isVariadicFunction native o f with
      | true =>
          rw [hvariadic] at h
          injection h with h
          exact h.symm
      | false =>
          rw [hvariadic] at h
          injection h with h
          exact h.symm

theorem judgeFunction_eq {f : Header.Function} (h : f.WellTyped) (known : Symbols)
    (native : NativeTypes) (o : Options) :
    (judgeFunction known native o f).result = .ok (functionVerdict known native o f) := by
  have hends : (judgeFunction known native o f).Ends fun v =>
      ∀ b, v = .accepted b → isIncluded known f.guards = true ∧ True := by
    refine judgeGuarded_ends h.2.2.2 known (.bind (functionOf_ends h native o) fun r _ => ?_)
    cases r with
    | none => exact .pure fun _ _ => trivial
    | some built => exact .pure fun _ _ => trivial
  obtain ⟨v, hv, _⟩ := hends
  rw [hv, judgeFunction_of_ok hv]

/-! ## Everything -/

/-- The symbols that are known once the defines are judged. -/
def knownAfter (known : Symbols) (ds : List Header.Define) : Symbols :=
  (takenOf known ds).foldl learn known

/-- What the accepted typedefs become. -/
def typedefResults (known : Symbols) (native : NativeTypes) (o : Options)
    (ts : List Header.Typedef) : List TypedefResult :=
  ts.filterMap fun t => accepted? (judgeTypedef known native o t)

/-- The functions that are accepted. -/
def acceptedFunctions (known : Symbols) (native : NativeTypes) (o : Options)
    (fs : List Header.Function) : List BuiltFunction :=
  fs.filterMap fun f => (functionVerdict known native o f).built?

/-- The structs that are accepted. -/
def acceptedStructs (known : Symbols) (native : NativeTypes) (o : Options)
    (ss : List Header.Struct) : List Struct :=
  ss.filterMap fun s =>
    if isIncluded known s.guards then some (builtStruct known native o s) else none

/-- Accepted are the structs whose judgement says so. -/
theorem acceptedStructs_eq {ss : List Header.Struct} (h : ∀ s ∈ ss, s.WellTyped)
    (known : Symbols) (native : NativeTypes) (o : Options) : acceptedStructs known native o ss =
      ss.filterMap fun s => accepted? (judgeStruct known native o s) := by
  refine List.filterMap_congr fun s hs => ?_
  rw [accepted?_of_result (judgeStruct_eq (h s hs) known native o)]
  split
  · rfl
  · rfl

theorem acceptedFunctions_eq {fs : List Header.Function} (h : ∀ f ∈ fs, f.WellTyped)
    (known : Symbols) (native : NativeTypes) (o : Options) : acceptedFunctions known native o fs =
      fs.filterMap fun f => accepted? (judgeFunction known native o f) :=
  List.filterMap_congr fun f hf =>
    (accepted?_of_result (judgeFunction_eq (h f hf) known native o)).symm

/-- The declarations that are built from a header. -/
def builtDeclarations (b : Builder) (d : Header.Definitions) : DeclarationSet :=
  let known := knownAfter b.known d.defines
  let results := typedefResults known b.native b.options d.typedefs
  let functions := acceptedFunctions known b.native b.options d.functions
  { constants := seededConstants b.known ++
      inHeaderOrder d.defines.length (takenOf b.known d.defines)
    enumConstants := (d.enums.map (numbersOf known)).flatten
    enums := d.enums.filterMap fun e => accepted? (judgeEnum known b.options e)
    aliases := aliasesOf results
    typedefDelegates := delegatesOf results
    structs := acceptedStructs known b.native b.options d.structs
    delegates := functions.flatMap (·.delegates)
    functions := functions.map (·.function) }

/-- The aliases that the typedefs of a header make. -/
def builtAliases (b : Builder) (d : Header.Definitions) : Aliases :=
  register b.aliases (builtDeclarations b d).aliases

/-- A pass over items none of which ends with a fault. -/
theorem runs_judgeAll {ι α : Type} {judge : ι → Traced Notice Misfit (Verdict α)} {items : List ι}
    (h : ∀ i ∈ items, ∃ v, (judge i).result = .ok v) (category : Category) (total : Nat)
    (b : Builder) : ∃ stats, Building.Runs
      (Building.ofPass category total (Pass.judgeAll judge items)) b
      (items.filterMap fun i => accepted? (judge i)) { b with stats := stats } := by
  have hruns := Building.Runs.ofPass (Pass.fault_judgeAll h) category total b
  rw [Pass.built_judgeAll h] at hruns
  exact ⟨_, hruns⟩

theorem enumConstants_runs {es : List Header.Enum} (h : ∀ e ∈ es, e.WellTyped) (b : Builder) :
    Building.Runs (enumConstants es) b (es.map (numbersOf b.known)).flatten b := by
  have hnumbers : es.mapM (constantsOfEnum b.known) = .ok (es.map (numbersOf b.known)) :=
    mapM_eq_map fun e he => constantsOfEnum_eq (h e he) b.known
  exact .bind (.state b) (.bind (.ofExcept hnumbers b) (.pure _ b))

theorem enums_runs {es : List Header.Enum} (h : ∀ e ∈ es, e.WellTyped) (b : Builder) :
    ∃ stats, Building.Runs (enums es) b
      (es.filterMap fun e => accepted? (judgeEnum b.known b.options e))
      { b with stats := stats } := by
  obtain ⟨stats, hruns⟩ := runs_judgeAll
    (fun e he => ⟨_, judgeEnum_eq (h e he) b.known b.options⟩) .enums es.length b
  exact ⟨stats, .bind (.state b) hruns⟩

theorem typedefs_runs {ts : List Header.Typedef} (h : ∀ t ∈ ts, t.WellTyped) (b : Builder) :
    ∃ stats, Building.Runs (typedefs ts) b
      (aliasesOf (typedefResults b.known b.native b.options ts),
        delegatesOf (typedefResults b.known b.native b.options ts))
      { b with
        aliases := register b.aliases (aliasesOf (typedefResults b.known b.native b.options ts))
        stats := stats } := by
  have hends : ∀ t ∈ ts, ∃ v, (judgeTypedef b.known b.native b.options t).result = .ok v := by
    intro t ht
    obtain ⟨v, hv, _⟩ := judgeTypedef_ends (h t ht) b.known b.native b.options
    exact ⟨v, hv⟩
  -- the aliases are registered from what the pass built, before its verdicts are counted
  have hbuilt := Pass.built_judgeAll hends
  obtain ⟨stats, hruns⟩ := runs_judgeAll hends .typedefs ts.length
    { b with
      aliases := register b.aliases (aliasesOf (typedefResults b.known b.native b.options ts)) }
  refine ⟨stats, .bind (.state b) (.bind (.change _ b) ?_)⟩
  rw [hbuilt]
  exact .bind hruns (.pure _ _)

theorem structs_runs {ss : List Header.Struct} (h : ∀ s ∈ ss, s.WellTyped) (b : Builder) :
    ∃ stats, Building.Runs (structs ss) b (acceptedStructs b.known b.native b.options ss)
      { b with stats := stats } := by
  obtain ⟨stats, hruns⟩ := runs_judgeAll
    (fun s hs => ⟨_, judgeStruct_eq (h s hs) b.known b.native b.options⟩) .structs ss.length b
  rw [← acceptedStructs_eq h] at hruns
  exact ⟨stats, .bind (.state b) hruns⟩

theorem functions_runs {fs : List Header.Function} (h : ∀ f ∈ fs, f.WellTyped) (b : Builder) :
    ∃ stats, Building.Runs (functions fs) b
      ((acceptedFunctions b.known b.native b.options fs).map (·.function),
        (acceptedFunctions b.known b.native b.options fs).flatMap (·.delegates))
      { b with stats := stats } := by
  obtain ⟨stats, hruns⟩ := runs_judgeAll
    (fun f hf => ⟨_, judgeFunction_eq (h f hf) b.known b.native b.options⟩)
    .functions fs.length b
  rw [← acceptedFunctions_eq h] at hruns
  exact ⟨stats, .bind (.state b) (.bind hruns (.pure _ _))⟩

/-- **A well-typed header is built.** -/
theorem declarations_runs {d : Header.Definitions} (h : d.WellTyped) (b : Builder) :
    ∃ stats, Building.Runs (declarations d) b (builtDeclarations b d)
      { b with
        known := knownAfter b.known d.defines
        aliases := builtAliases b d
        stats := stats } := by
  -- each collection changes the counts, and what it leaves for the later ones
  obtain ⟨s₁, hconstants⟩ := constants_runs h.defines b
  let b₁ : Builder := { b with known := knownAfter b.known d.defines, stats := s₁ }
  have hnumbers := enumConstants_runs h.enums b₁
  obtain ⟨s₂, henums⟩ := enums_runs h.enums b₁
  obtain ⟨s₃, htypedefs⟩ := typedefs_runs h.typedefs { b₁ with stats := s₂ }
  let b₃ : Builder := { b₁ with aliases := builtAliases b d, stats := s₃ }
  obtain ⟨s₄, hstructs⟩ := structs_runs h.structs b₃
  obtain ⟨s₅, hfunctions⟩ := functions_runs h.functions { b₃ with stats := s₄ }
  exact ⟨s₅, .bind (.report _ b) (.bind hconstants (.bind (.report _ _) (.bind hnumbers
    (.bind (.report _ _) (.bind henums (.bind (.report _ _) (.bind htypedefs
      (.bind (.report _ _) (.bind hstructs (.bind (.report _ _) (.bind hfunctions
        (.pure _ _))))))))))))⟩

/-! ## The structs and functions of any header -/

/-- What judgements look at. -/
def settings (b : Builder) : Options × NativeTypes × Symbols := (b.options, b.native, b.known)

theorem constants_leaves (ds : List Header.Define) :
    (constants ds).Leaves fun b => (b.options, b.native) :=
  .bind .state fun _ => .bind .state fun _ => .bind (fun _ => rfl) fun _ =>
    .bind (.ofPass (fun _ _ => rfl) _ _ _) fun _ => .pure _

theorem enumConstants_leaves (es : List Header.Enum) : (enumConstants es).Leaves settings :=
  .bind .state fun _ => .bind (.ofExcept _) fun _ => .pure _

theorem enums_leaves (es : List Header.Enum) : (enums es).Leaves settings :=
  .bind .state fun _ => .ofPass (fun _ _ => rfl) _ _ _

theorem typedefs_leaves (ts : List Header.Typedef) : (typedefs ts).Leaves settings :=
  .bind .state fun _ => .bind (fun _ => rfl) fun _ =>
    .bind (.ofPass (fun _ _ => rfl) _ _ _) fun _ => .pure _

theorem structs_leaves (ss : List Header.Struct) : (structs ss).Leaves settings :=
  .bind .state fun _ => .ofPass (fun _ _ => rfl) _ _ _

theorem functions_leaves (fs : List Header.Function) : (functions fs).Leaves settings :=
  .bind .state fun _ => .bind (.ofPass (fun _ _ => rfl) _ _ _) fun _ => .pure _

/-- The step is taken under these settings, and it ends well. -/
def RunsUnder {α : Type} (s : Options × NativeTypes × Symbols) (x : Building α) (a : α) : Prop :=
  ∃ b b', settings b = s ∧ Building.Runs x b a b'

/-- Without a fault every collection after the defines is built, all of them under the symbols known
in the end. -/
structure CollectionsRun (s : Options × NativeTypes × Symbols) (d : Header.Definitions)
    (built : DeclarationSet) : Prop where
  enumConstants : RunsUnder s (enumConstants d.enums) built.enumConstants
  enums : RunsUnder s (enums d.enums) built.enums
  typedefs : RunsUnder s (typedefs d.typedefs) (built.aliases, built.typedefDelegates)
  structs : RunsUnder s (structs d.structs) built.structs
  functions : RunsUnder s (functions d.functions) (built.functions, built.delegates)

theorem collections_of_declarations {d : Header.Definitions} {b : Builder} {built : DeclarationSet}
    (h : (declarations d b).result = .ok built) :
    CollectionsRun (b.options, b.native, (declarations d b).builder.known) d built := by
  have h : Building.Runs (declarations d) b built (declarations d b).builder := ⟨h, rfl⟩
  obtain ⟨_, b₁, hconstants, h⟩ := h.of_report.of_bind
  obtain ⟨_, b₂, hnumbers, h⟩ := h.of_report.of_bind
  obtain ⟨_, b₃, henums, h⟩ := h.of_report.of_bind
  obtain ⟨⟨_, _⟩, b₄, htypedefs, h⟩ := h.of_report.of_bind
  obtain ⟨_, b₅, hstructs, h⟩ := h.of_report.of_bind
  obtain ⟨⟨_, _⟩, b₆, hfunctions, h⟩ := h.of_report.of_bind
  -- only the defines change what judgements look at
  have h₂ : settings b₂ = settings b₁ := hnumbers.view_eq (enumConstants_leaves d.enums)
  have h₃ : settings b₃ = settings b₁ := (henums.view_eq (enums_leaves d.enums)).trans h₂
  have h₄ : settings b₄ = settings b₁ := (htypedefs.view_eq (typedefs_leaves d.typedefs)).trans h₃
  have h₅ : settings b₅ = settings b₁ := (hstructs.view_eq (structs_leaves d.structs)).trans h₄
  have h₆ : settings b₆ = settings b₁ :=
    (hfunctions.view_eq (functions_leaves d.functions)).trans h₅
  have hend : (declarations d b).builder = b₆ := h.builder.symm
  have hfirst := hconstants.view_eq (constants_leaves d.defines)
  obtain ⟨hoptions, hnative⟩ := Prod.mk.inj hfirst
  have hknown : b₆.known = b₁.known := congrArg (·.2.2) h₆
  have hstart : settings b₁ = (b.options, b.native, (declarations d b).builder.known) := by
    rw [hend, hknown, ← hoptions, ← hnative]
    rfl
  rw [← hstart, ← Except.ok.inj h.result]
  exact ⟨⟨b₁, b₂, rfl, hnumbers⟩, ⟨b₂, b₃, h₂, henums⟩, ⟨b₃, b₄, h₃, htypedefs⟩,
    ⟨b₄, b₅, h₄, hstructs⟩, ⟨b₅, b₆, h₅, hfunctions⟩⟩

/-- What a pass without a fault builds, given what each verdict has to be. -/
theorem Pass.built_of_fault {ι α : Type} {judge : ι → Traced Notice Misfit (Verdict α)}
    {verdict : ι → Verdict α} {items : List ι} (h : (Pass.judgeAll judge items).fault = none)
    (hverdict : ∀ i ∈ items, ∀ v, (judge i).result = .ok v → v = verdict i) :
    (Pass.judgeAll judge items).built = items.filterMap fun i => (verdict i).built? := by
  have hjudged := ok_of_fault h
  rw [built_judgeAll hjudged]
  refine List.filterMap_congr fun i hi => ?_
  obtain ⟨v, hv⟩ := hjudged i hi
  rw [accepted?_of_result hv, hverdict i hi v hv]

/-- Structs that are built without a fault are those that are accepted. -/
theorem structs_of_runs {ss : List Header.Struct} {b b' : Builder} {built : List Struct}
    (h : Building.Runs (structs ss) b built b') :
    built = acceptedStructs b.known b.native b.options ss := by
  obtain ⟨_, _, hstate, hpass⟩ := h.of_bind
  have hstate := hstate.result
  injection hstate with hstate
  subst hstate
  obtain ⟨hfault, rfl⟩ := hpass.of_ofPass
  rw [Pass.built_of_fault hfault fun s _ v hv => judgeStruct_of_ok hv]
  refine List.filterMap_congr fun s _ => ?_
  split
  · rfl
  · rfl

/-- Whatever the header, the structs that are built are those that are accepted under the symbols
known in the end. -/
theorem structs_of_declarations {d : Header.Definitions} {b : Builder} {built : DeclarationSet}
    (h : (declarations d b).result = .ok built) : built.structs =
      acceptedStructs (declarations d b).builder.known b.native b.options d.structs := by
  obtain ⟨b', _, hsettings, hruns⟩ := (collections_of_declarations h).structs
  obtain ⟨hoptions, hrest⟩ := Prod.mk.inj hsettings
  obtain ⟨hnative, hknown⟩ := Prod.mk.inj hrest
  rw [← hoptions, ← hnative, ← hknown]
  exact structs_of_runs hruns

/-- Functions that are built without a fault are those that are accepted. -/
theorem functions_of_runs {fs : List Header.Function} {b b' : Builder}
    {built : List Function × List Delegate} (h : Building.Runs (functions fs) b built b') :
    built.1 = (acceptedFunctions b.known b.native b.options fs).map (·.function) := by
  obtain ⟨_, _, hstate, h⟩ := h.of_bind
  obtain ⟨bs, _, hpass, h⟩ := h.of_bind
  have hstate := hstate.result
  injection hstate with hstate
  subst hstate
  obtain ⟨hfault, rfl⟩ := hpass.of_ofPass
  have hresult := h.result
  injection hresult with hresult
  rw [← hresult, Pass.built_of_fault hfault fun f _ v hv => judgeFunction_of_ok hv]
  rfl

/-- Whatever the header, the functions that are built are those that are accepted under the symbols
known in the end. -/
theorem functions_of_declarations {d : Header.Definitions} {b : Builder} {built : DeclarationSet}
    (h : (declarations d b).result = .ok built) :
    built.functions = (acceptedFunctions (declarations d b).builder.known b.native b.options
      d.functions).map (·.function) := by
  obtain ⟨b', _, hsettings, hruns⟩ := (collections_of_declarations h).functions
  obtain ⟨hoptions, hrest⟩ := Prod.mk.inj hsettings
  obtain ⟨hnative, hknown⟩ := Prod.mk.inj hrest
  rw [← hoptions, ← hnative, ← hknown]
  exact functions_of_runs hruns

/-! ## What is in the lists -/

theorem mem_keptFields {known : Symbols} {native : NativeTypes} {o : Options} {struct : Leaf}
    {fs : List Header.Field} {b : BuiltField} : b ∈ keptFields known native o struct fs ↔
      ∃ f ∈ fs, isIncluded known f.guards = true ∧ builtField? native o struct f = some b := by
  rw [keptFields, List.mem_filterMap]
  simp only [List.mem_filter, and_assoc]

theorem mem_keptArguments {native : NativeTypes} {o : Options} {function : Leaf}
    {as : List Header.Argument} {b : BuiltArgument} : b ∈ keptArguments native o function as ↔
      ∃ a ∈ as, builtArgument? native o function a = some b := List.mem_filterMap

theorem mem_acceptedStructs {known : Symbols} {native : NativeTypes} {o : Options}
    {ss : List Header.Struct} {s' : Struct} : s' ∈ acceptedStructs known native o ss ↔
      ∃ s ∈ ss, isIncluded known s.guards = true ∧ builtStruct known native o s = s' := by
  rw [acceptedStructs, List.mem_filterMap]
  refine exists_congr fun s => and_congr_right fun _ => ?_
  cases isIncluded known s.guards with
  | true => simp
  | false => simp

theorem mem_acceptedFunctions {known : Symbols} {native : NativeTypes} {o : Options}
    {fs : List Header.Function} {b : BuiltFunction} :
    b ∈ acceptedFunctions known native o fs ↔ ∃ f ∈ fs, isIncluded known f.guards = true ∧
      isVariadicFunction native o f = false ∧ builtFunction native o f = b := by
  rw [acceptedFunctions, List.mem_filterMap]
  refine exists_congr fun f => and_congr_right fun _ => ?_
  rw [Verdict.built?_eq_some, functionVerdict_eq_accepted]

/-- A result comes from the typedef that was judged, which is included. -/
theorem typedefFrom_of_accepted? {t : Header.Typedef} (h : t.WellTyped) {known : Symbols}
    {native : NativeTypes} {o : Options} {r : TypedefResult}
    (hr : accepted? (judgeTypedef known native o t) = some r) :
    isIncluded known t.guards = true ∧ TypedefFrom native t r := by
  obtain ⟨v, hv, hfrom⟩ := judgeTypedef_ends h known native o
  rw [accepted?_eq_some, hv] at hr
  injection hr with hr
  exact hfrom r hr

theorem mem_typedefResults {known : Symbols} {native : NativeTypes} {o : Options}
    {ts : List Header.Typedef} (h : ∀ t ∈ ts, t.WellTyped) {r : TypedefResult}
    (hr : r ∈ typedefResults known native o ts) :
    ∃ t ∈ ts, isIncluded known t.guards = true ∧ TypedefFrom native t r := by
  obtain ⟨t, ht, hjudged⟩ := List.mem_filterMap.mp hr
  exact ⟨t, ht, typedefFrom_of_accepted? (h t ht) hjudged⟩

end NativeBindings.Build
