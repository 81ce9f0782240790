import Mathlib.Data.List.Forall2
import NativeBindings.Build.Delegates
import NativeBindings.Proofs.Traced
import NativeBindings.Proofs.WellTyped

/-!
# What conversions give

A well-typed description is always converted or refused, never a fault. `Converted`
says which types a description can become, with one case for each shape that has a
C# counterpart. All of them have a text for their name, so all of them can be written,
and so can everything in the signature of a delegate.
-/

namespace NativeBindings

open Header CSharp

/-! ## Lists side by side -/

section Forall₂

variable {α β : Type} {R S : α → β → Prop} {P : α → Prop} {xs : List α} {ys : List β}

/-- Every entry of the first list has one in the second. -/
theorem exists_of_forall₂ (h : List.Forall₂ R xs ys) {x : α} (hx : x ∈ xs) : ∃ y ∈ ys, R x y := by
  induction h with
  | nil => exact absurd hx (by simp)
  | cons hhead _ ih =>
      rcases List.mem_cons.mp hx with rfl | hx
      · exact ⟨_, List.mem_cons_self, hhead⟩
      · obtain ⟨y, hy, hxy⟩ := ih hx
        exact ⟨y, List.mem_cons_of_mem _ hy, hxy⟩

/-- A second relation that is decided by the first list. -/
theorem forall₂_iff (h : List.Forall₂ R xs ys) (hR : ∀ x y, R x y → (S x y ↔ P x)) :
    List.Forall₂ S xs ys ↔ ∀ x ∈ xs, P x := by
  induction h with
  | nil => exact ⟨fun _ x hx => absurd hx (by simp), fun _ => .nil⟩
  | cons hxy _ ih => rw [List.forall₂_cons, List.forall_mem_cons, hR _ _ hxy, ih]

/-- What is kept of a list goes along with it if nothing is left out. -/
theorem forall₂_filterMap {f : α → Option β} (h : ∀ x ∈ xs, ∃ y, f x = some y ∧ R x y) :
    List.Forall₂ R xs (xs.filterMap f) := by
  induction xs with
  | nil => exact .nil
  | cons x rest ih =>
      obtain ⟨y, hy, hxy⟩ := h x List.mem_cons_self
      rw [List.filterMap_cons_some hy]
      exact .cons hxy (ih fun x' hx' => h x' (List.mem_cons_of_mem x hx'))

/-- What is kept of one list in two ways goes along if both ways keep the same items. -/
theorem forall₂_filterMap_filterMap {γ : Type} {f : γ → Option α} {g : γ → Option β} {l : List γ}
    (h : ∀ x ∈ l, Option.Rel R (f x) (g x)) : List.Forall₂ R (l.filterMap f) (l.filterMap g) := by
  have hsame : List.Forall₂ (fun x y => Option.Rel R (f x) (g y)) l l := List.forall₂_same.mpr h
  exact List.rel_filterMap (fun _ _ hxy => hxy) hsame

/-- What is put together from one list in two ways goes along if it does for each item. -/
theorem forall₂_flatMap_flatMap {γ : Type} {f : γ → List α} {g : γ → List β} {l : List γ}
    (h : ∀ x ∈ l, List.Forall₂ R (f x) (g x)) : List.Forall₂ R (l.flatMap f) (l.flatMap g) := by
  have hsame : List.Forall₂ (fun x y => List.Forall₂ R (f x) (g y)) l l := List.forall₂_same.mpr h
  exact List.rel_flatMap hsame fun _ _ hxy => hxy

/-- What is kept of some items goes along with a part of what is kept of all. -/
theorem sublistForall₂_filterMap {p : α → Bool} {f : α → Option β}
    (h : ∀ x ∈ xs, p x = true → ∃ y, f x = some y ∧ R x y) :
    List.SublistForall₂ R (xs.filter p) (xs.filterMap f) := by
  have hkept : List.Forall₂ R (xs.filter p) ((xs.filter p).filterMap f) := by
    refine forall₂_filterMap fun x hx => ?_
    obtain ⟨hx, hp⟩ := List.mem_filter.mp hx
    exact h x hx hp
  exact List.sublistForall₂_iff.mpr ⟨_, hkept, List.filter_sublist.filterMap f⟩

end Forall₂

/-! ## Types that can be written -/

/-- The name of the type is a text. -/
def CsType.Writable (t : CsType) : Prop := ∃ s, t.base = .text s

namespace CsType

theorem Writable.of_text (s : String) (n : Nat) : Writable { base := s, pointers := n } := ⟨s, rfl⟩

theorem Writable.pointerTo {t : CsType} (h : t.Writable) : t.pointerTo.Writable := h

theorem Writable.under {t : CsType} (h : t.Writable) (n : Nat) : (t.under n).Writable := h

theorem Writable.checkWritable {t : CsType} (h : t.Writable) : t.checkWritable = .ok () := by
  obtain ⟨s, hs⟩ := h
  rw [CsType.checkWritable, hs]

theorem Writable.written {t : CsType} (h : t.Writable) : t.written = .ok t.display := by
  rw [CsType.written, h.checkWritable]
  rfl

end CsType

/-! ## Conversions -/

/-- The type that a description becomes. -/
inductive Converted (native : NativeTypes) : TypeDesc → CsType → Prop where
  /-- A builtin has a native type or is unknown. -/
  | builtin (name : String) :
      Converted native (.builtin name) { base := (native.get? name).getD unknownName }
  /-- A user type without a native type keeps its name. -/
  | user (name : String) :
      Converted native (.user name) { base := (native.get? name).getD name }
  /-- A function pointer gets the name of its delegate. -/
  | functionPointer {t : TypeDesc} {name : Leaf} {s : Signature}
      (h : t.functionPointer? = some (name, s)) :
      Converted native t { base := delegateName name }
  /-- A pointer is kept. -/
  | pointer {t : TypeDesc} {type : CsType} (h : Converted native t type) :
      Converted native (.pointer t) type.pointerTo

theorem not_converted_array {native : NativeTypes} {element : TypeDesc} {bound : Option String}
    {type : CsType} : ¬Converted native (.array element bound) type := by
  intro h
  cases h with
  | functionPointer hp => exact absurd hp (by simp [TypeDesc.functionPointer?])

theorem Converted.writable {native : NativeTypes} {t : TypeDesc} {type : CsType}
    (h : Converted native t type) : type.Writable := by
  induction h with
  | builtin name => exact .of_text _ 0
  | user name => exact .of_text _ 0
  | functionPointer _ => exact .of_text _ 0
  | pointer _ ih => exact ih.pointerTo

mutual

/-- A well-typed description can be shown. -/
theorem display_eq_ok : ∀ {t : TypeDesc}, t.WellTyped → ∃ s, t.display = .ok s
  | .builtin name, h => by
      obtain ⟨s, rfl⟩ := Leaf.IsText.exists h
      exact ⟨s, rfl⟩
  | .user name, h => by
      obtain ⟨s, rfl⟩ := Leaf.IsText.exists h
      exact ⟨s, rfl⟩
  | .pointer inner, h => by
      obtain ⟨s, hs⟩ := display_eq_ok (t := inner) h
      exact ⟨_, by rw [TypeDesc.display, hs]; rfl⟩
  | .array element bound, h => by
      obtain ⟨s, hs⟩ := display_eq_ok (t := element) h
      exact ⟨_, by rw [TypeDesc.display, hs]; rfl⟩
  | .function returnType parameters, h => by
      obtain ⟨s, hs⟩ := display_eq_ok (t := returnType) h.1
      obtain ⟨ss, hss⟩ := displayAll_eq_ok h.2
      exact ⟨_, by rw [TypeDesc.display, hs, hss]; rfl⟩
  | .named name inner, h => by
      obtain ⟨s, hs⟩ := display_eq_ok (t := inner) h.2
      exact ⟨_, by rw [TypeDesc.display, hs]; rfl⟩
  | .unsupported kind, _ => ⟨_, rfl⟩

theorem displayAll_eq_ok :
    ∀ {ts : List TypeDesc}, TypeDesc.AllWellTyped ts → ∃ ss, TypeDesc.displayAll ts = .ok ss
  | [], _ => ⟨_, rfl⟩
  | t :: ts, h => by
      obtain ⟨s, hs⟩ := display_eq_ok (t := t) h.1
      obtain ⟨ss, hss⟩ := displayAll_eq_ok h.2
      exact ⟨_, by rw [TypeDesc.displayAll, hs, hss]; rfl⟩

end

/-- An array is refused. -/
theorem conversionArray_ends {element : TypeDesc} (h : element.WellTyped) (bound : Option String)
    {P : Except Unconvertible CsType → Prop} (hP : ∀ cause, P (.error cause)) :
    (Conversion.array element bound).Ends P := by
  obtain ⟨s, hs⟩ := display_eq_ok h
  rw [Conversion.array]
  exact .bind_of_result hs (.pure (hP _))

/-- A function pointer is never refused. -/
theorem convert_of_functionPointer? {t : TypeDesc} {name : Leaf} {s : Signature}
    (h : t.functionPointer? = some (name, s)) (native : NativeTypes) :
    convert native t = pure (.ok { base := delegateName name }) := by
  unfold convert TypeDesc.walk
  split
  · exact absurd h (by simp [TypeDesc.functionPointer?])
  · exact absurd h (by simp [TypeDesc.functionPointer?])
  · rw [h]

/-- A wrapper around anything else is refused. -/
theorem convert_of_other_wrapper {name : Option Leaf} {inner : TypeDesc}
    (h : (TypeDesc.named name inner).functionPointer? = none) (native : NativeTypes) :
    convert native (.named name inner) = pure (.error (.wrapper name)) := by
  unfold convert TypeDesc.walk
  rw [h]
  rfl

/-- A pointer is converted with what is behind it. -/
theorem result_convert_pointer {native : NativeTypes} {t : TypeDesc}
    {r : Except Unconvertible CsType} (h : (convert native t).result = .ok r) :
    (convert native (.pointer t)).result = .ok (r.map CsType.pointerTo) := by
  show (do return (← convert native t).map CsType.pointerTo : Converting).result = _
  rw [Traced.result_bind, h, ok_bind]
  rfl

/-- **A well-typed description is converted as `Converted` says, or refused.** -/
theorem convert_ends {t : TypeDesc} (h : t.WellTyped) (native : NativeTypes) :
    (convert native t).Ends fun r => ∀ type, r = .ok type → Converted native t type := by
  match t, h with
  | .builtin name, h =>
      obtain ⟨s, rfl⟩ := Leaf.IsText.exists h
      show (Conversion.leaf native (.builtin (.text s))).Ends _
      rw [Conversion.leaf]
      refine .bind_of_result (a := .text s) rfl ?_
      have hnative : nativeName? native (.text s) = native.get? s := rfl
      rw [hnative]
      have hconverted : Converted native (.builtin (.text s)) _ := .builtin s
      cases hget : native.get? s with
      | none =>
          rw [hget] at hconverted
          exact .afterReport (.ok hconverted)
      | some n =>
          rw [hget] at hconverted
          exact .ok hconverted
  | .user name, h =>
      obtain ⟨s, rfl⟩ := Leaf.IsText.exists h
      show (Conversion.leaf native (.user (.text s))).Ends _
      rw [Conversion.leaf]
      refine .bind_of_result (a := .text s) rfl (.ok ?_)
      have hconverted : Converted native (.user (.text s)) _ := .user s
      have hnative : nativeName? native (.text s) = native.get? s := rfl
      rw [hnative]
      -- a user type without a native type keeps its name, and that is no failure
      cases hget : native.get? s with
      | none => rw [hget] at hconverted; exact hconverted
      | some n => rw [hget] at hconverted; exact hconverted
  | .pointer inner, h =>
      have ih := convert_ends (t := inner) h native
      show (do return (← convert native inner).map CsType.pointerTo : Converting).Ends _
      refine .bind ih fun r hr => ?_
      cases r with
      | error cause => exact .error cause
      | ok inside => exact .ok (.pointer (hr inside rfl))
  | .array element bound, h =>
      show (Conversion.array element bound).Ends _
      have helement : element.WellTyped := h
      exact conversionArray_ends helement bound fun cause type htype => absurd htype (by simp)
  | .function returnType parameters, _ => exact .error _
  | .named name inner, _ =>
      cases hp : (TypeDesc.named name inner).functionPointer? with
      | none =>
          rw [convert_of_other_wrapper hp]
          exact .error _
      | some p =>
          rw [convert_of_functionPointer? hp]
          exact .ok (.functionPointer hp)
  | .unsupported kind, _ => exact .error _

/-- The name of the function pointer behind the pointers of a type, if there is one. -/
def wrapper? : TypeDesc → Option Leaf
  | .pointer inner => wrapper? inner
  | t => t.functionPointer?.map (·.1)

theorem wrapper?_of_functionPointer? {t : TypeDesc} {name : Leaf} {s : Signature}
    (h : t.functionPointer? = some (name, s)) : wrapper? t = some name := by
  unfold wrapper?
  split
  · exact absurd h (by simp [TypeDesc.functionPointer?])
  · rw [h, Option.map_some]

/-- What is converted from a function pointer, behind pointers or not, has the name of a
delegate. -/
theorem Converted.base_of_wrapper? {native : NativeTypes} {t : TypeDesc} {type : CsType}
    (h : Converted native t type) {name : Leaf} (hw : wrapper? t = some name) :
    type.base = .text (delegateName name) := by
  induction h with
  | builtin _ => exact absurd hw (by simp [wrapper?, TypeDesc.functionPointer?])
  | user _ => exact absurd hw (by simp [wrapper?, TypeDesc.functionPointer?])
  | functionPointer hp =>
      rw [wrapper?_of_functionPointer? hp] at hw
      injection hw with hw
      rw [hw]
  | pointer _ ih => exact ih hw

/-- A function pointer behind pointers is not refused either. -/
theorem convert_of_wrapper? {t : TypeDesc} {name : Leaf} (h : wrapper? t = some name)
    (native : NativeTypes) : ∃ type, (convert native t).result = .ok (.ok type) := by
  match t, h with
  | .pointer inner, h =>
      obtain ⟨type, htype⟩ := convert_of_wrapper? (t := inner) h native
      exact ⟨type.pointerTo, result_convert_pointer htype⟩
  | .named wrapper inner, h =>
      obtain ⟨p, hp, _⟩ := Option.map_eq_some_iff.mp h
      rw [convert_of_functionPointer? hp]
      exact ⟨_, rfl⟩

/-! ## Delegates -/

theorem Leaf.orElse_isText {name other : Leaf} (h : name.IsText ∨ name = .other .null)
    (hother : other.IsText) : (name.orElse other).IsText := by
  rw [Leaf.orElse]
  rcases h with h | rfl
  · split
    · exact hother
    · exact h
  · exact hother

theorem Leaf.ofOption_isText {name : Option Leaf} (h : Leaf.IsTextOrMissing name) :
    (Leaf.ofOption name).IsText ∨ Leaf.ofOption name = .other .null := by
  cases name with
  | none => exact .inr rfl
  | some l => exact .inl h

/-- The name and the signature of a well-typed function pointer are texts. -/
theorem functionPointer?_wellTyped {t : TypeDesc} (h : t.WellTyped) {name : Leaf} {s : Signature}
    (hp : t.functionPointer? = some (name, s)) :
    name.IsText ∧ s.returnType.WellTyped ∧ ∀ p ∈ s.parameters, p.WellTyped := by
  unfold TypeDesc.functionPointer? at hp
  split at hp
  · rename_i wrapper returnType parameters
    have hwell : Leaf.IsTextOrMissing wrapper ∧ returnType.WellTyped ∧
        TypeDesc.AllWellTyped parameters := h
    obtain ⟨hwrapper, hreturn, hparameters⟩ := hwell
    injection hp with hp
    obtain ⟨rfl, rfl⟩ := Prod.mk.inj hp
    exact ⟨Leaf.orElse_isText (Leaf.ofOption_isText hwrapper) trivial, hreturn,
      TypeDesc.allWellTyped_iff.mp hparameters⟩
  · exact absurd hp (by simp)

namespace Build

/-- The type of a result or a parameter of a delegate. -/
inductive SlotType (native : NativeTypes) (t : TypeDesc) : CsType → Prop where
  /-- A function pointer inside a signature has no delegate of its own. -/
  | functionPointer (hp : t.functionPointer? ≠ none ∨ ∃ r ps, t = .pointer (.function r ps)) :
      SlotType native t voidPointer
  /-- Any other type is converted. -/
  | converted {type : CsType} (hp : t.functionPointer? = none) (h : Converted native t type) :
      SlotType native t type
  /-- A type that is refused becomes unknown. -/
  | refused (h : ∃ cause, (convert native t).result = .ok (.error cause)) :
      SlotType native t .unknown

theorem SlotType.writable {native : NativeTypes} {t : TypeDesc} {type : CsType}
    (h : SlotType native t type) : type.Writable := by
  cases h with
  | functionPointer _ => exact .of_text _ 1
  | converted _ h => exact h.writable
  | refused _ => exact .of_text _ 0

/-- A function pointer behind pointers keeps the name of a delegate also inside a signature. -/
theorem SlotType.base_of_wrapper? {native : NativeTypes} {t : TypeDesc} {type : CsType}
    (h : SlotType native t type) (hp : t.functionPointer? = none) {name : Leaf}
    (hw : wrapper? t = some name) : type.base = .text (delegateName name) := by
  cases h with
  | functionPointer hpointer =>
      rcases hpointer with hne | ⟨r, ps, rfl⟩
      · exact absurd hp hne
      · exact absurd hw (by simp [wrapper?, TypeDesc.functionPointer?])
  | converted _ h => exact h.base_of_wrapper? hw
  | refused h =>
      obtain ⟨cause, hcause⟩ := h
      obtain ⟨type, htype⟩ := convert_of_wrapper? hw native
      rw [hcause] at htype
      exact absurd htype (by simp)

theorem delegateType_ends {t : TypeDesc} (h : t.WellTyped) (native : NativeTypes) (delegate : Leaf)
    (slot : DelegateSlot) : (delegateType native delegate slot t).Ends (SlotType native t) := by
  unfold delegateType
  split
  · exact .pure (.functionPointer (.inr ⟨_, _, rfl⟩))
  · rename_i hp
    exact .pure (.functionPointer (.inl (by rw [hp]; simp)))
  · rename_i hp
    obtain ⟨r, hr, hconverted⟩ := convert_ends h native
    refine .bind_of_result hr ?_
    cases r with
    | ok type => exact .pure (.converted hp (hconverted type rfl))
    | error cause => exact .afterReport (.pure (.refused ⟨cause, hr⟩))

/-- What a parameter is about: the description itself, or what its wrapper names. -/
def bareParameter : TypeDesc → TypeDesc
  | .named name inner =>
    if (TypeDesc.named name inner).functionPointer?.isSome then .named name inner else inner
  | t => t

theorem bareParameter_wellTyped {t : TypeDesc} (h : t.WellTyped) : (bareParameter t).WellTyped := by
  unfold bareParameter
  split
  · split
    · exact h
    · exact h.2
  · exact h

theorem parameterName_eq_ok {name : Leaf} (h : name.IsText) : ∃ n, parameterName name = .ok n := by
  obtain ⟨s, rfl⟩ := h.exists
  exact ⟨_, rfl⟩

/-- What a parameter is called: as its wrapper says, or by its position. -/
def parameterLabel (t : TypeDesc) (index : Nat) : Leaf :=
  match t with
  | .named name _ => (Leaf.ofOption name).orElse (positionalName index)
  | _ => positionalName index

/-- An argument for a parameter, which is taken with its position: it has the name of the parameter,
and a type that fits the description. -/
def ArgumentFor (R : TypeDesc → CsType → Prop) (p : TypeDesc × Nat)
    (a : CSharp.Argument) : Prop :=
  parameterName (parameterLabel p.1 p.2) = .ok a.name ∧ R (bareParameter p.1) a.type

theorem delegateParameter_ends {t : TypeDesc} (h : t.WellTyped) (native : NativeTypes)
    (delegate : Leaf) (index : Nat) : (delegateParameter native delegate index t).Ends
      (ArgumentFor (SlotType native) (t, index)) := by
  have hposition : Leaf.IsText (positionalName index) := trivial
  unfold delegateParameter
  split
  · rename_i name inner
    have hbare := bareParameter_wellTyped h
    obtain ⟨n, hn⟩ := parameterName_eq_ok (Leaf.orElse_isText
      (Leaf.ofOption_isText h.1) hposition)
    exact .bind (delegateType_ends hbare native delegate _) fun type htype =>
      .bind_of_result hn (.pure ⟨hn, htype⟩)
  · rename_i hnamed
    obtain ⟨n, hn⟩ := parameterName_eq_ok hposition
    obtain ⟨hself, hlabel⟩ :
        bareParameter t = t ∧ parameterLabel t index = positionalName index := by
      cases t with
      | named name inner => exact absurd rfl (hnamed name inner)
      | _ => exact ⟨rfl, rfl⟩
    have hname : parameterName (parameterLabel t index) = .ok n := by rw [hlabel, hn]
    exact .afterReport (.bind (delegateType_ends h native delegate _) fun type htype =>
      .bind_of_result hn (.pure ⟨hname, hself.symm ▸ htype⟩))

theorem delegateParameters_ends (native : NativeTypes) (delegate : Leaf) :
    ∀ {ts : List TypeDesc} (index : Nat), (∀ t ∈ ts, t.WellTyped) →
      (delegateParameters native delegate index ts).Ends
        (List.Forall₂ (ArgumentFor (SlotType native)) (ts.zipIdx index))
  | [], _, _ => .pure .nil
  | t :: rest, index, h => by
      have ht := delegateParameter_ends (h t List.mem_cons_self) native delegate index
      have hrest := delegateParameters_ends native delegate (index + 1)
        fun u hu => h u (List.mem_cons_of_mem t hu)
      exact .bind ht fun a ha => .bind hrest fun as has => .pure (.cons ha has)

/-- A function pointer that gets a delegate: the name of the delegate, and the signature. -/
structure Hook where
  name : Leaf
  signature : Signature

/-- The delegate for a function pointer. Its types are in a relation to the descriptions. -/
structure DelegateFor (R : TypeDesc → CsType → Prop) (hook : Hook) (d : Delegate) : Prop where
  /-- The delegate has the name. -/
  name : d.name = hook.name
  /-- What it returns fits the description of the result. -/
  returnType : R hook.signature.returnType d.returnType
  /-- It has one argument for each parameter, in their order. -/
  arguments : List.Forall₂ (ArgumentFor R) hook.signature.parameters.zipIdx d.arguments

/-- **A delegate can always be built.** -/
theorem delegateOf_made {s : Signature} (hr : s.returnType.WellTyped)
    (hp : ∀ t ∈ s.parameters, t.WellTyped) (native : NativeTypes) (o : Options) (name : Leaf) :
    (delegateOf native o name s).Ends (DelegateFor (SlotType native) ⟨name, s⟩) := by
  unfold delegateOf
  exact .bind (delegateType_ends hr native name .returnType) fun returnType hreturn =>
    .bind (delegateParameters_ends native name 0 hp) fun arguments harguments =>
      .pure ⟨rfl, hreturn, harguments⟩

/-- A delegate with the name, and with a signature from the descriptions. -/
structure DelegateFrom (native : NativeTypes) (name : Leaf) (s : Signature) (d : Delegate) :
    Prop where
  /-- The delegate has the name. -/
  name : d.name = name
  /-- What it returns comes from the description of the result. -/
  returnType : SlotType native s.returnType d.returnType
  /-- Its arguments come from the descriptions of the parameters, one from each. -/
  arguments : List.Forall₂ (fun t a => SlotType native (bareParameter t) a.type)
    s.parameters d.arguments

theorem delegateOf_ends {s : Signature} (hr : s.returnType.WellTyped)
    (hp : ∀ t ∈ s.parameters, t.WellTyped) (native : NativeTypes) (o : Options) (name : Leaf) :
    (delegateOf native o name s).Ends (DelegateFrom native name s) := by
  obtain ⟨d, hd, hmade⟩ := delegateOf_made hr hp native o name
  refine ⟨d, hd, hmade.name, hmade.returnType, ?_⟩
  -- the parameters themselves are left when their positions are taken away
  have hparameters : s.parameters.zipIdx.map Prod.fst = s.parameters := List.zipIdx_map_fst 0 _
  rw [← hparameters, List.forall₂_map_left_iff]
  exact hmade.arguments.imp fun _ _ hslot => hslot.2

end Build

end NativeBindings
