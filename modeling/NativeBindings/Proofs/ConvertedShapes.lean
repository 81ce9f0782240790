import Mathlib.Logic.Function.Iterate
import NativeBindings.Proofs.Conversion

/-!
# Which shapes are converted

Whether a type can be converted depends on what is behind its outer pointers, and on nothing else:
names and function pointers can be, all other shapes are refused with their own cause. The pointers
are kept, as many as there are. The recursion follows pointers only, so everything is said by a
step for one pointer (`convert_pointer`) and by one line for each shape that is none.
-/

namespace NativeBindings

open Header CSharp

/-! ## Pointers and what is behind them -/

namespace Header.TypeDesc

/-- The number of pointers at the outside. -/
def depth : TypeDesc → Nat
  | pointer inner => inner.depth + 1
  | _ => 0

/-- What is behind the pointers at the outside. -/
def core : TypeDesc → TypeDesc
  | pointer inner => inner.core
  | t => t

theorem core_ne_pointer (inner : TypeDesc) : ∀ t : TypeDesc, t.core ≠ pointer inner
  | pointer t => core_ne_pointer inner t
  | builtin _ | user _ | array _ _ | function _ _ | named _ _ | unsupported _ => by simp [core]

/-- A type is what is behind its pointers, with that many of them put around it. -/
theorem iterate_pointer_core : ∀ t : TypeDesc, pointer^[t.depth] t.core = t
  | pointer t => by
      rw [depth, core, Function.iterate_succ_apply', iterate_pointer_core t]
  | builtin _ | user _ | array _ _ | function _ _ | named _ _ | unsupported _ => rfl

theorem core_wellTyped : ∀ {t : TypeDesc}, t.WellTyped → t.core.WellTyped
  | pointer t, h => core_wellTyped (t := t) h
  | builtin _, h | user _, h | array _ _, h | function _ _, h | named _ _, h
  | unsupported _, h => h

end Header.TypeDesc

/-- A function pointer is named as its wrapper is. -/
theorem delegateName_wrapper (name : Option String) :
    delegateName ((Leaf.ofOption (name.map .text)).orElse "") = name.getD "" ++ delegateSuffix := by
  cases name with
  | none => rfl
  | some name =>
      rw [Option.map_some, Leaf.ofOption, Leaf.orElse]
      split
      · rename_i hvacant
        rw [Leaf.isVacant, Leaf.toJson, Json.isVacant, String.isEmpty_iff] at hvacant
        rw [hvacant]
        rfl
      · rfl

/-! ## Shapes -/

/-- The shape has a C# counterpart of this name. -/
inductive HasName (native : NativeTypes) : TypeDesc → String → Prop where
  /-- A builtin has a native type or is unknown. -/
  | builtin (name : String) : HasName native (.builtin name) ((native.get? name).getD unknownName)
  /-- A user type without a native type keeps its name. -/
  | user (name : String) : HasName native (.user name) ((native.get? name).getD name)
  /-- A function pointer is named after its wrapper, which may have no name. -/
  | functionPointer (name : Option String) (returnType : TypeDesc) (parameters : List TypeDesc) :
      HasName native (.named (name.map .text) (.pointer (.function returnType parameters)))
        (name.getD "" ++ delegateSuffix)

/-- The shape is refused with this cause. -/
inductive Refused : TypeDesc → Unconvertible → Prop where
  | array {element : TypeDesc} {shown : String} (h : element.display = .ok shown)
      (bound : Option String) : Refused (.array element bound) (.array shown bound)
  | function (returnType : TypeDesc) (parameters : List TypeDesc) :
      Refused (.function returnType parameters) .function
  /-- A wrapper has to be one of a pointer to a function. -/
  | wrapper {name : Option Leaf} {inner : TypeDesc}
      (h : ∀ returnType parameters, inner ≠ .pointer (.function returnType parameters)) :
      Refused (.named name inner) (.wrapper name)
  | unsupported (kind : Leaf) : Refused (.unsupported kind) (.unknownKind kind)

theorem functionPointer?_eq_none {name : Option Leaf} {inner : TypeDesc}
    (h : ∀ returnType parameters, inner ≠ .pointer (.function returnType parameters)) :
    (TypeDesc.named name inner).functionPointer? = none := by
  unfold TypeDesc.functionPointer?
  split
  · rename_i returnType parameters heq
    exact absurd (TypeDesc.named.inj heq).2 (h returnType parameters)
  · rfl

/-- What is behind the pointers of a well-typed description has a counterpart or is refused. -/
theorem hasName_or_refused {t : TypeDesc} (h : t.WellTyped) (native : NativeTypes)
    (hcore : ∀ inner, t ≠ .pointer inner) :
    (∃ name, HasName native t name) ∨ ∃ cause, Refused t cause := by
  match t, h with
  | .builtin name, h =>
      obtain ⟨s, rfl⟩ := Leaf.IsText.exists h
      exact .inl ⟨_, .builtin s⟩
  | .user name, h =>
      obtain ⟨s, rfl⟩ := Leaf.IsText.exists h
      exact .inl ⟨_, .user s⟩
  | .pointer inner, _ => exact absurd rfl (hcore inner)
  | .array element bound, h =>
      have helement : element.WellTyped := h
      obtain ⟨shown, hshown⟩ := display_eq_ok helement
      exact .inr ⟨_, .array hshown bound⟩
  | .function returnType parameters, _ => exact .inr ⟨_, .function returnType parameters⟩
  | .named name inner, h =>
      by_cases hfunction : ∃ returnType parameters,
          inner = .pointer (.function returnType parameters)
      · obtain ⟨returnType, parameters, rfl⟩ := hfunction
        cases name with
        | none => exact .inl ⟨_, .functionPointer none returnType parameters⟩
        | some name =>
            obtain ⟨s, rfl⟩ := Leaf.IsText.exists h.1
            exact .inl ⟨_, .functionPointer (some s) returnType parameters⟩
      · exact .inr ⟨_, .wrapper fun returnType parameters heq =>
          hfunction ⟨returnType, parameters, heq⟩⟩
  | .unsupported kind, _ => exact .inr ⟨_, .unsupported kind⟩

/-- What is reported about a shape: a builtin without a native type, and nothing else. -/
def lookupNotices (native : NativeTypes) : TypeDesc → List Notice
  | .builtin (.text name) => if native.get? name = none then [.builtinUnknown name] else []
  | _ => []

theorem lookupNotices_eq_nil {native : NativeTypes} {t : TypeDesc}
    (h : ∀ name, t = .builtin (.text name) → native.get? name ≠ none) :
    lookupNotices native t = [] := by
  unfold lookupNotices
  split
  · rename_i name
    exact if_neg (h name rfl)
  · rfl

/-! ## Conversion, shape by shape -/

section Shapes

variable {native : NativeTypes} {t : TypeDesc}

theorem nativeName?_text (native : NativeTypes) (name : String) :
    nativeName? native (.text name) = native.get? name := rfl

theorem HasName.convert_eq {name : String} (h : HasName native t name) :
    convert native t = ⟨lookupNotices native t, .ok (.ok { base := .text name })⟩ := by
  cases h with
  | builtin name =>
      show Conversion.leaf native (.builtin (.text name)) = _
      rw [Conversion.leaf, Leaf.key, Traced.ofExcept_ok_bind, nativeName?_text, lookupNotices]
      cases native.get? name with
      | none => rfl
      | some n => rfl
  | user name =>
      show Conversion.leaf native (.user (.text name)) = _
      rw [Conversion.leaf, Leaf.key, Traced.ofExcept_ok_bind, nativeName?_text]
      cases native.get? name with
      | none => rfl
      | some n => rfl
  | functionPointer name returnType parameters =>
      rw [convert_of_functionPointer? rfl, delegateName_wrapper]
      rfl

theorem Refused.convert_eq {cause : Unconvertible} (h : Refused t cause) (native : NativeTypes) :
    convert native t = ⟨lookupNotices native t, .ok (.error cause)⟩ := by
  cases h with
  | array hshown bound =>
      show Conversion.array _ bound = _
      rw [Conversion.array, hshown]
      rfl
  | function _ _ => rfl
  | wrapper hwrapper =>
      rw [convert_of_other_wrapper (functionPointer?_eq_none hwrapper)]
      rfl
  | unsupported kind => rfl

/-- A pointer is kept around what is behind it, and it adds no notice. -/
theorem convert_pointer {notices : List Notice} {r : Except Unconvertible CsType}
    (h : convert native t = ⟨notices, .ok r⟩) :
    convert native (.pointer t) = ⟨notices, .ok (r.map CsType.pointerTo)⟩ := by
  show Traced.bind (convert native t) (fun inner => pure (inner.map CsType.pointerTo)) = _
  rw [h]
  show (⟨notices ++ [], _⟩ : Converting) = _
  rw [List.append_nil]
  rfl

/-- What is behind the pointers decides, and all of them are kept. -/
theorem convert_of_core {notices : List Notice} {r : Except Unconvertible CsType} :
    ∀ {t : TypeDesc}, convert native t.core = ⟨notices, .ok r⟩ →
      convert native t = ⟨notices, .ok (r.map (·.under t.depth))⟩
  | .pointer t, h => by
      rw [convert_pointer (convert_of_core (t := t) h)]
      cases r with
      | error cause => rfl
      | ok type => rfl
  | .builtin _, h | .user _, h | .array _ _, h | .function _ _, h | .named _ _, h
  | .unsupported _, h => by
      cases r with
      | error cause => exact h
      | ok type => exact h

/-- A name gets the pointers of the whole type. -/
theorem HasName.convert_whole {name : String} (h : HasName native t.core name) :
    convert native t =
      ⟨lookupNotices native t.core, .ok (.ok { base := .text name, pointers := t.depth })⟩ := by
  rw [convert_of_core h.convert_eq]
  simp only [Except.map, CsType.under, Nat.zero_add]

theorem Refused.convert_whole {cause : Unconvertible} (h : Refused t.core cause)
    (native : NativeTypes) :
    convert native t = ⟨lookupNotices native t.core, .ok (.error cause)⟩ :=
  convert_of_core (h.convert_eq native)

end Shapes

/-! ## All descriptions -/

/-- What a description is converted to is said by what is behind its pointers, with all of them
kept. -/
structure ConvertedByShape (native : NativeTypes) (t : TypeDesc) : Prop where
  /-- The description is its core under its pointers, and the core is none. -/
  peeled : TypeDesc.pointer^[t.depth] t.core = t ∧ ∀ inner, t.core ≠ .pointer inner
  /-- There is a C# type for names and function pointers. -/
  accepted : ∀ type, (convert native t).result = .ok (.ok type) ↔
    ∃ name, HasName native t.core name ∧ type = { base := .text name, pointers := t.depth }
  /-- All other shapes are refused. -/
  refused : ∀ cause, (convert native t).result = .ok (.error cause) ↔ Refused t.core cause
  /-- There is no third way. -/
  decided : ∃ r, (convert native t).result = .ok r
  /-- A builtin without a native type is the only thing that is worth a message. -/
  warned : ∀ name, t.core = .builtin (.text name) → native.get? name = none →
    (convert native t).trace.map Notice.message =
      [.warning ("No C# type for builtin " ++ (Leaf.text name).quoted ++ ", using " ++ unknownName)]
  silent : (∀ name, t.core = .builtin (.text name) → native.get? name ≠ none) →
    (convert native t).trace = []

/-- **Exactly the names and the function pointers are converted, behind any pointers, and every
pointer is kept.** -/
theorem convertedByShape {t : TypeDesc} (h : t.WellTyped) (b : Build.Builder) :
    ConvertedByShape b.native t := by
  have hpointer := fun inner => TypeDesc.core_ne_pointer inner t
  have hcore := hasName_or_refused (TypeDesc.core_wellTyped h) b.native hpointer
  have htrace : (convert b.native t).trace = lookupNotices b.native t.core := by
    rcases hcore with ⟨name, hname⟩ | ⟨cause, hcause⟩
    · rw [hname.convert_whole]
    · rw [hcause.convert_whole]
  constructor
  case peeled => exact ⟨TypeDesc.iterate_pointer_core t, hpointer⟩
  case accepted =>
    intro type
    constructor
    · intro htype
      rcases hcore with ⟨name, hname⟩ | ⟨cause, hcause⟩
      · rw [hname.convert_whole] at htype
        exact ⟨name, hname, (Except.ok.inj (Except.ok.inj htype)).symm⟩
      · rw [hcause.convert_whole] at htype
        exact absurd (Except.ok.inj htype) (by simp)
    · rintro ⟨name, hname, rfl⟩
      rw [hname.convert_whole]
  case refused =>
    intro cause
    constructor
    · intro herror
      rcases hcore with ⟨name, hname⟩ | ⟨cause', hcause⟩
      · rw [hname.convert_whole] at herror
        exact absurd (Except.ok.inj herror) (by simp)
      · rw [hcause.convert_whole] at herror
        exact Except.error.inj (Except.ok.inj herror) ▸ hcause
    · intro hcause
      rw [hcause.convert_whole]
  case decided =>
    rcases hcore with ⟨name, hname⟩ | ⟨cause, hcause⟩
    · exact ⟨_, by rw [hname.convert_whole]⟩
    · exact ⟨_, by rw [hcause.convert_whole]⟩
  case warned =>
    intro name hname hmissing
    rw [htrace, hname, lookupNotices, if_pos hmissing]
    rfl
  case silent =>
    intro hknown
    rw [htrace]
    exact lookupNotices_eq_nil hknown

/-- A pointer to a pointer to a function pointer, whose own signature has an array. -/
def callbackTable : TypeDesc :=
  .pointer (.pointer (.named (some "Callback") (.pointer (.function (.builtin "void")
    [.named (some "sizes") (.array (.builtin "int") (some "2"))]))))

theorem convertedByShape_callbackTable : callbackTable.WellTyped ∧
    ConvertedByShape (Build.Builder.start {}).native callbackTable := by
  have hwell : callbackTable.WellTyped := by decide
  exact ⟨hwell, convertedByShape hwell (.start {})⟩

example : (convert nativeTypes callbackTable).result =
    .ok (.ok { base := "CallbackDelegate", pointers := 2 }) := by decide

end NativeBindings
