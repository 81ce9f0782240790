import NativeBindings.Proofs.AcceptedPart
import NativeBindings.Proofs.Literals
import NativeBindings.Proofs.Modifiers
import NativeBindings.Proofs.SeededSymbols

/-!
# The bounds of arrays

A fixed buffer and a wrapper are declared with a size of type `int`. What is written for a bound is
said by the bound alone: a number is kept, the name of an enum constant is kept, and anything else
is cast. A bound is looked at before the blanks around it are gone, and numbers are kept up to 64
bits. So there are bounds that cannot be used as they are written, blank ones and those that are too
large, and it is said here that there are no others.
-/

namespace NativeBindings

open CSharp Literal

/-! ## Expressions of type `int` -/

/-- The text is a decimal literal of a signed number of 32 bits. -/
def IsInt32Literal (s : String) : Prop :=
  ∃ sign ∈ signs, ∃ digits, s.toList = sign ++ digits ∧ digits ≠ [] ∧ (∀ c ∈ digits, c.isDigit) ∧
    ∃ n, inCSharp? s = some n ∧ -2147483648 ≤ n ∧ n ≤ 2147483647

/-- The text with a cast to the type of bounds. -/
def castToInt (s : String) : String := "(int)(" ++ s ++ ")"

/-- The text can stand where an `int` is asked for. -/
inductive IsIntExpression (d : DeclarationSet) : String → Prop where
  | literal {e : String} (h : IsInt32Literal e) : IsIntExpression d e
  /-- A constant that is written with the type `int` has the name. -/
  | name {e : String} {c : Constant} (hc : c ∈ d.constants ++ d.enumConstants)
      (hname : c.name = .text e) (htype : c.type = { base := "int" }) : IsIntExpression d e
  | cast {x : String} (hx : x ≠ "") (hstripped : Stripped x) : IsIntExpression d (castToInt x)

/-- The bound is there, and it is of type `int`. -/
def UsableBound (d : DeclarationSet) (e : String) : Prop := e ≠ "" ∧ IsIntExpression d e

/-- The bounds of all array fields and the sizes of all wrappers can be used. -/
structure BoundsUsable (d : DeclarationSet) : Prop where
  fields : ∀ s ∈ d.structs ++ d.inlineArrays, ∀ f ∈ s.fields, f.isArray = true →
    UsableBound d f.arrayBound
  sizes : ∀ s ∈ d.structs ++ d.inlineArrays, ∀ e,
    "InlineArray(" ++ e ++ ")" ∈ s.annotations.attributes → UsableBound d e

/-! ## Bounds -/

/-- There is a bound, and if it is a number, it is one of 32 bits in digits of ASCII. -/
def ProperBound (bound : String) : Prop :=
  bound ≠ "" ∧ (isIntegerLiteral bound = true → IsInt32Literal bound)

theorem castToInt_injective : Function.Injective castToInt := by
  intro x y h
  have hchars := congrArg String.toList h
  simp only [castToInt, String.toList_append, List.append_left_inj, List.append_right_inj]
    at hchars
  exact String.toList_injective hchars

theorem head?_castToInt (x : String) : (castToInt x).toList.head? = some '(' := by
  rw [castToInt, String.toList_append, String.toList_append]
  rfl

theorem isIntegerLiteral_castToInt {x : String} (h : Stripped (castToInt x)) :
    isIntegerLiteral (castToInt x) = false := by
  refine Bool.eq_false_iff.mpr fun hliteral => ?_
  obtain ⟨c, hc, hkind⟩ := (numberText_of_isIntegerLiteral h hliteral).head
  obtain rfl : '(' = c := Option.some.inj ((head?_castToInt x).symm.trans hc)
  exact absurd hkind (by decide)

theorem not_isInt32Literal_castToInt (x : String) : ¬IsInt32Literal (castToInt x) := by
  rintro ⟨sign, hsign, digits, htext, hne, hdigits, _⟩
  obtain ⟨c, hc, hkind⟩ := head?_signs hsign hne
  rw [← htext, head?_castToInt] at hc
  obtain rfl : '(' = c := Option.some.inj hc
  rcases hkind with hplus | hminus | hdigit
  · exact absurd hplus (by decide)
  · exact absurd hminus (by decide)
  · exact absurd (hdigits '(' hdigit) (by decide)

namespace Finish

open Build (IsCast)

theorem expression_eq (scope : BoundScope) (bound : String) : scope.expression bound =
    if isIntegerLiteral bound || scope.isInt (.text bound) then bound else castToInt bound := rfl

/-- Of the constants, only those of enum values are of the type of bounds. -/
structure EnumsOnly (d : DeclarationSet) : Prop where
  constants : ∀ c ∈ d.constants, IsCast c
  enumConstants : ∀ c ∈ d.enumConstants, c.type = { base := "int" }

/-- No enum value has a name that is a number, or an empty cast. -/
def NamesPlain (d : DeclarationSet) : Prop :=
  ∀ c ∈ d.enumConstants, ∀ s, c.name = .text s → isIntegerLiteral s = false ∧ s ≠ castToInt ""

section Expressions

variable {d : DeclarationSet} {o : Options} {aliases : Aliases} {bound : String}

theorem isInt_iff (h : EnumsOnly d) : (BoundScope.of d).isInt (.text bound) = true ↔
    ∃ c ∈ d.enumConstants, c.name = .text bound := by
  rw [isInt_eq h.constants, List.contains_iff_mem]
  exact List.mem_map

/-- A proper bound is written as an expression that can be used. -/
theorem usableBound_of_proper (h : EnumsOnly d) (hproper : ProperBound bound)
    (hstripped : Stripped bound) :
    UsableBound (declarations o aliases d) ((BoundScope.of d).expression bound) := by
  obtain ⟨hne, hliteral⟩ := hproper
  rw [expression_eq]
  split
  · rename_i hkept
    refine ⟨hne, ?_⟩
    rcases (Bool.or_eq_true _ _).mp hkept with hnumber | hname
    · exact .literal (hliteral hnumber)
    · obtain ⟨c, hc, hname⟩ := (isInt_iff h).mp hname
      exact .name (List.mem_append_right _ (List.mem_map_of_mem hc)) hname (h.enumConstants c hc)
  · refine ⟨fun hempty => ?_, .cast hne hstripped⟩
    have hhead := head?_castToInt bound
    rw [hempty] at hhead
    exact absurd hhead (by simp)

/-- Finishing changes no name and no type of a constant. -/
theorem exists_enumConstant (h : EnumsOnly d) {c : Constant}
    (hc : c ∈ (declarations o aliases d).constants ++ (declarations o aliases d).enumConstants)
    (hname : c.name = .text bound) (htype : c.type = { base := "int" }) :
    ∃ c' ∈ d.enumConstants, c'.name = .text bound := by
  rcases List.mem_append.mp hc with hc | hc
  · obtain ⟨c', hc', rfl⟩ := List.mem_map.mp hc
    exact absurd (congrArg CsType.base htype) (h.constants c' hc')
  · obtain ⟨c', hc', rfl⟩ := List.mem_map.mp hc
    exact ⟨c', hc', hname⟩

/-- Only a proper bound is, if no enum value has the name of what is written. -/
theorem proper_of_usableBound (h : EnumsOnly d) (hplain : NamesPlain d)
    (hstripped : Stripped bound)
    (husable : UsableBound (declarations o aliases d) ((BoundScope.of d).expression bound)) :
    ProperBound bound := by
  obtain ⟨hne, hint⟩ := husable
  rw [expression_eq] at hne hint
  split at hint
  · rename_i hkept
    rw [if_pos hkept] at hne
    refine ⟨hne, fun hnumber => ?_⟩
    cases hint with
    | literal hliteral => exact hliteral
    | name hc hname htype =>
        obtain ⟨c, hc, hname⟩ := exists_enumConstant h hc hname htype
        exact absurd (hnumber.symm.trans (hplain c hc _ hname).1) (by simp)
    | cast hx _ =>
        exact absurd (hnumber.symm.trans (isIntegerLiteral_castToInt hstripped)) (by simp)
  · rename_i hcast
    refine ⟨?_, fun hnumber => absurd (by rw [hnumber]; rfl) hcast⟩
    -- a cast of nothing is no expression
    rintro rfl
    generalize he : castToInt "" = e at hint
    cases hint with
    | literal hliteral => exact not_isInt32Literal_castToInt "" (he ▸ hliteral)
    | name hc hname htype =>
        obtain ⟨c, hc, hname⟩ := exists_enumConstant h hc hname htype
        exact (hplain c hc e hname).2 he.symm
    | cast hx _ => exact hx (castToInt_injective he).symm

end Expressions

/-! ## The bounds of built structs -/

/-- The bound of an array field. -/
def IsBound (d : DeclarationSet) (bound : String) : Prop :=
  ∃ s ∈ d.structs, ∃ f ∈ s.fields, f.isArray = true ∧ f.arrayBound = bound

theorem size_injective {e e' : String}
    (h : "InlineArray(" ++ e ++ ")" = "InlineArray(" ++ e' ++ ")") : e = e' := by
  have hchars := congrArg String.toList h
  simp only [String.toList_append, List.append_left_inj, List.append_right_inj] at hchars
  exact String.toList_injective hchars

/-- What can be used is decided bound by bound. -/
theorem boundsUsable_iff {d : DeclarationSet}
    (hplain : ∀ s ∈ d.structs, s.annotations.attributes = []) (o : Options) (aliases : Aliases) :
    BoundsUsable (declarations o aliases d) ↔ ∀ bound, IsBound d bound →
      UsableBound (declarations o aliases d) ((BoundScope.of d).expression bound) := by
  have hfields := forall₂_fieldLayout o aliases d
  have hwrappers := forall₂_wrapperFor o aliases d
  constructor
  · rintro h bound ⟨s, hs, f, hf, harray, rfl⟩
    obtain ⟨s', hs', _, hlayouts⟩ := exists_of_forall₂ hfields hs
    obtain ⟨f', hf', _, hlayout⟩ := exists_of_forall₂ hlayouts hf
    cases hlayout with
    | single ha _ _ _ => exact absurd (ha.symm.trans harray) (by simp)
    | unresolved _ _ ha' _ hbound _ =>
        exact hbound ▸ h.fields s' (List.mem_append_left _ hs') f' hf' ha'
    | buffer _ _ ha' _ hbound _ _ =>
        exact hbound ▸ h.fields s' (List.mem_append_left _ hs') f' hf' ha'
    | wrapped _ ht _ _ _ _ =>
        have hp : (s.name, f) ∈ fieldsWithWrapper aliases d :=
          mem_fieldsWithWrapper.mpr ⟨s, hs, rfl, hf, harray, ht⟩
        obtain ⟨w, hw, hfor⟩ := exists_of_forall₂ hwrappers hp
        refine h.sizes w (List.mem_append_right _ hw) _ ?_
        rw [hfor.attributes]
        exact List.mem_singleton_self _
  · intro h
    constructor
    · intro s' hs' f' hf' harray
      rcases List.mem_append.mp hs' with hs' | hw
      · obtain ⟨s, hs, _, hlayouts⟩ := exists_of_forall₂ hfields.flip hs'
        obtain ⟨f, hf, _, hlayout⟩ := exists_of_forall₂ hlayouts.flip hf'
        cases hlayout with
        | single _ ha' _ _ => exact absurd (ha'.symm.trans harray) (by simp)
        | unresolved ha _ _ _ hbound _ => exact hbound ▸ h _ ⟨s, hs, f, hf, ha, rfl⟩
        | buffer ha _ _ _ hbound _ _ => exact hbound ▸ h _ ⟨s, hs, f, hf, ha, rfl⟩
        | wrapped _ _ ha' _ _ _ => exact absurd (ha'.symm.trans harray) (by simp)
      · -- the one field of a wrapper is no array
        obtain ⟨p, _, hfor⟩ := exists_of_forall₂ hwrappers.flip hw
        obtain ⟨e, he, _, _, hsingle⟩ := hfor.element
        rw [he] at hf'
        rw [List.mem_singleton.mp hf', hsingle] at harray
        exact absurd harray (by simp)
    · intro s' hs' e he
      rcases List.mem_append.mp hs' with hs' | hw
      · obtain ⟨s, hs, rfl⟩ := List.mem_map.mp hs'
        have hattributes : (struct aliases (.of d) s).annotations.attributes = [] := hplain s hs
        rw [hattributes] at he
        exact absurd he (by simp)
      · obtain ⟨p, hp, hfor⟩ := exists_of_forall₂ hwrappers.flip hw
        obtain ⟨s, hs, _, hf, harray, _⟩ := mem_fieldsWithWrapper.mp hp
        rw [hfor.attributes, List.mem_singleton] at he
        exact size_injective he ▸ h _ ⟨s, hs, p.2, hf, harray, rfl⟩

end Finish

/-! ## The bounds in a header -/

namespace Build

/-- The bound of an array field without the blanks around it: its own, or else that of its type. -/
def boundText? (f : Header.Field) : Option String :=
  match Leaf.ofOption (f.arrayBounds.or (arrayShape f.type.description).2) with
  | .text s => some (Text.strip s)
  | .other _ => none

theorem boundText?_of_needText {f : Header.Field} {s : String}
    (h : (Leaf.ofOption (f.arrayBounds.or (arrayShape f.type.description).2)).needText = .ok s) :
    boundText? f = some (Text.strip s) := by
  rw [boundText?]
  cases hleaf : Leaf.ofOption (f.arrayBounds.or (arrayShape f.type.description).2) with
  | text t =>
      rw [hleaf] at h
      rw [Except.ok.inj h]
  | other v =>
      rw [hleaf] at h
      exact absurd h (by simp [Leaf.needText])

/-- An array field is built with its bound. -/
theorem boundText?_of_builtField? {f : Header.Field} {native : NativeTypes} {o : Options}
    {struct : Leaf} {b : BuiltField} (harray : isArrayField f = true)
    (hb : builtField? native o struct f = some b) : boundText? f = some b.field.arrayBound := by
  have hresult : (fieldOf native o struct f).result = .ok (some b) :=
    Traced.value?_eq_some.mp (Option.join_eq_some_iff.mp hb)
  rw [fieldOf, if_pos harray, arrayField] at hresult
  dsimp only at hresult
  split at hresult
  · exact absurd (Except.ok.inj hresult) (by simp)
  · rw [Traced.result_bind] at hresult
    obtain ⟨r, _, hresult⟩ := bind_eq_ok.mp hresult
    cases r with
    | error cause => exact absurd (Except.ok.inj hresult) (by simp)
    | ok type =>
        rw [Traced.result_bind] at hresult
        obtain ⟨s, hs, hresult⟩ := bind_eq_ok.mp hresult
        rw [boundText?_of_needText hs, ← Option.some.inj (Except.ok.inj hresult)]

theorem exists_of_mem_enumConstants {d : Header.Definitions} {b : Builder} {c : Constant}
    (hc : c ∈ (builtDeclarations b d).enumConstants) :
    ∃ e ∈ d.enums, ∃ x ∈ e.elements, c = enumConstant x := by
  obtain ⟨cs, hcs, hc⟩ := List.mem_flatten.mp hc
  obtain ⟨e, he, rfl⟩ := List.mem_map.mp hcs
  rw [numbersOf] at hc
  split at hc
  · obtain ⟨x, hx, rfl⟩ := List.mem_map.mp hc
    exact ⟨e, he, x, (List.mem_filter.mp hx).1, rfl⟩
  · exact absurd hc (by simp)

theorem builtDeclarations_enumsOnly (d : Header.Definitions) (b : Builder) :
    Finish.EnumsOnly (builtDeclarations b d) where
  constants := constants_isCast b.known d.defines
  enumConstants := by
    intro c hc
    obtain ⟨_, _, x, _, rfl⟩ := exists_of_mem_enumConstants hc
    rfl

/-- The bounds of built structs are those of the array fields that are accepted. -/
theorem isBound_iff {d : Header.Definitions} (h : d.WellTyped) {o : Options} {bound : String} :
    Finish.IsBound (builtDeclarations (.start o) d) bound ↔
      ∃ s ∈ (acceptedPart o d).structs, ∃ f ∈ s.fields, isArrayField f = true ∧
        boundText? f = some bound := by
  have hwell := acceptedPart_wellTyped h o
  have hall := acceptedPart_allAccepted h o
  rw [← builtDeclarations_acceptedPart h]
  constructor
  · rintro ⟨s', hs', f', hf', harray, rfl⟩
    obtain ⟨s, hs, _, rfl⟩ := mem_acceptedStructs.mp hs'
    obtain ⟨b, hb, rfl⟩ := List.mem_map.mp hf'
    obtain ⟨f, hf, _, hbuilt⟩ := mem_keptFields.mp hb
    have hshape := (builtField?_from ((hwell.structs s hs).2.1 f hf) hbuilt).sameShape
    rw [hshape.2] at harray
    exact ⟨s, hs, f, hf, harray, boundText?_of_builtField? harray hbuilt⟩
  · rintro ⟨s, hs, f, hf, harray, hbound⟩
    obtain ⟨hincluded, b, hbuilt⟩ := hall.fields s hs f hf
    have hshape := (builtField?_from ((hwell.structs s hs).2.1 f hf) hbuilt).sameShape
    refine ⟨_, mem_acceptedStructs.mpr ⟨s, hs, hall.structs s hs, rfl⟩, b.field,
      List.mem_map_of_mem (mem_keptFields.mpr ⟨f, hf, hincluded, hbuilt⟩), ?_, ?_⟩
    · rw [hshape.2, harray]
    · exact Option.some.inj ((boundText?_of_builtField? harray hbuilt).symm.trans hbound)

theorem stripped_of_boundText? {f : Header.Field} {bound : String}
    (h : boundText? f = some bound) : Stripped bound := by
  rw [boundText?] at h
  split at h
  · exact Option.some.inj h ▸ stripped_strip _
  · exact absurd h (by simp)

theorem attributes_of_mem_structs {d : Header.Definitions} {b : Builder} {s : Struct}
    (hs : s ∈ (builtDeclarations b d).structs) : s.annotations.attributes = [] := by
  obtain ⟨item, _, _, rfl⟩ := mem_acceptedStructs.mp hs
  exact (annotationsOf_marks item.comments).2

end Build

open Build (acceptedPart isArrayField boundText?)

/-- All array fields that are accepted have proper bounds. -/
def BoundsProper (o : Options) (d : Header.Definitions) : Prop :=
  ∀ s ∈ (acceptedPart o d).structs, ∀ f ∈ s.fields, isArrayField f = true →
    ∀ bound, boundText? f = some bound → ProperBound bound

/-- No enum value has a name that is a number, or an empty cast. -/
def ElementNamesPlain (d : Header.Definitions) : Prop :=
  ∀ e ∈ d.enums, ∀ x ∈ e.elements, ∀ s, x.name = .text s →
    isIntegerLiteral s = false ∧ s ≠ castToInt ""

/-- Where all bounds can be used, every one of them is proper. -/
theorem properBound_of_boundsUsable {d : Header.Definitions} (h : d.WellTyped) {o : Options}
    (hnames : ElementNamesPlain d) {bound : String}
    (hbound : Finish.IsBound (Build.builtDeclarations (.start o) d) bound)
    (husable : BoundsUsable
      (Finish.declarations o (aliasesOf o d) (Build.builtDeclarations (.start o) d))) :
    ProperBound bound := by
  have henums := Build.builtDeclarations_enumsOnly d (.start o)
  have hbounds := Finish.boundsUsable_iff (d := Build.builtDeclarations (.start o) d)
    (fun s hs => Build.attributes_of_mem_structs hs) o (aliasesOf o d)
  obtain ⟨_, _, _, _, _, htext⟩ := (Build.isBound_iff h).mp hbound
  refine Finish.proper_of_usableBound henums ?_ (Build.stripped_of_boundText? htext)
    (hbounds.mp husable bound hbound)
  intro c hc name hname
  obtain ⟨e, he, x, hx, rfl⟩ := Build.exists_of_mem_enumConstants hc
  exact hnames e he x hx name hname

/-- **All sizes can be used, except for those from blank bounds and from numbers that are too large
or in other digits.** -/
theorem finished_boundsUsable {d : Header.Definitions} (h : d.WellTyped) (o : Options) :
    ∃ final, finishedOf o d = .ok final ∧ (BoundsProper o d → BoundsUsable final) ∧
      (ElementNamesPlain d → BoundsUsable final → BoundsProper o d) := by
  refine ⟨_, finishedOf_eq h o, fun hproper => ?_, fun hnames husable => ?_⟩
  · refine (Finish.boundsUsable_iff (fun s hs => Build.attributes_of_mem_structs hs) o _).mpr
      fun bound hbound => ?_
    obtain ⟨s, hs, f, hf, harray, htext⟩ := (Build.isBound_iff h).mp hbound
    exact Finish.usableBound_of_proper (Build.builtDeclarations_enumsOnly d _)
      (hproper s hs f hf harray bound htext) (Build.stripped_of_boundText? htext)
  · intro s hs f hf harray bound htext
    exact properBound_of_boundsUsable h hnames
      ((Build.isBound_iff h).mpr ⟨s, hs, f, hf, harray, htext⟩) husable

/-- It is enough to look at all fields of a header, accepted or not. -/
theorem boundsProper_of_fields {d : Header.Definitions} (o : Options)
    (h : ∀ s ∈ d.structs, ∀ f ∈ s.fields, ∀ bound ∈ boundText? f, ProperBound bound) :
    BoundsProper o d := by
  intro s' hs' f hf _ bound hbound
  obtain ⟨s, hs, rfl⟩ := List.mem_map.mp hs'
  exact h s (Build.mem_acceptedAmong hs) f (List.mem_filter.mp hf).1 bound hbound

/-- Arrays with a number, with the name of an enum value, and with a sum for their bounds. -/
def boundsHeader : Header.Definitions where
  defines := [{ name := "SIZE", content := some "4" }]
  enums := [{ name := "Dir", elements := [{ name := "Dir_COUNT", value := 4 }] }]
  structs :=
    [{ name := "Cell" },
      { name := "Grid", fields :=
        [{ name := "rows", type := { description := .array (.builtin "int") (some "4") } },
          { name := "dirs", type := { description := .builtin "int" },
            isArray := true, arrayBounds := some " Dir_COUNT " },
          { name := "cells", type := { description := .array (.user "Cell") (some "SIZE+1") } }] }]

theorem finished_boundsUsable_boundsHeader : boundsHeader.WellTyped ∧
    ElementNamesPlain boundsHeader ∧ BoundsProper {} boundsHeader ∧
      ∃ final, finishedOf {} boundsHeader = .ok final ∧ BoundsUsable final := by
  have hwell : boundsHeader.WellTyped := by decide
  have hnames : ElementNamesPlain boundsHeader := by
    intro e he x hx s hs
    have hcount : ∀ e ∈ boundsHeader.enums, ∀ x ∈ e.elements, x.name = .text "Dir_COUNT" := by
      decide
    obtain rfl := Leaf.text.inj ((hcount e he x hx).symm.trans hs)
    decide
  have hproper : BoundsProper {} boundsHeader := by
    refine boundsProper_of_fields {} fun s hs f hf bound hbound => ?_
    have hbounds : ∀ s ∈ boundsHeader.structs, ∀ f ∈ s.fields, ∀ bound ∈ boundText? f,
        bound ∈ ["4", "Dir_COUNT", "SIZE+1"] := by decide +kernel
    have hnumber : IsInt32Literal "4" :=
      ⟨[], by decide, ['4'], by decide, by decide, List.forall_mem_singleton.2 (by decide),
        4, by decide, by decide, by decide⟩
    have hothers : ∀ bound ∈ ["4", "Dir_COUNT", "SIZE+1"],
        bound ≠ "" ∧ (isIntegerLiteral bound = true → bound = "4") := by decide +kernel
    obtain ⟨hne, hfour⟩ := hothers bound (hbounds s hs f hf bound hbound)
    exact ⟨hne, fun hliteral => hfour hliteral ▸ hnumber⟩
  obtain ⟨final, hfinal, husable, _⟩ := finished_boundsUsable hwell {}
  exact ⟨hwell, hnames, hproper, final, hfinal, husable hproper⟩

/-! ## Bounds that cannot be used -/

/-- A struct with an array of numbers. -/
def arrayHeader (bound : String) : Header.Definitions where
  structs := [{ name := "S", fields :=
    [{ name := "data", type := { description := .array (.builtin "int") (some bound) } }] }]

theorem not_boundsUsable_arrayHeader {text : String} (bound : String)
    (hwell : (arrayHeader text).WellTyped)
    (hbound : Finish.IsBound (Build.builtDeclarations (.start {}) (arrayHeader text)) bound)
    (hbad : ¬ProperBound bound) :
    ∃ final, finishedOf {} (arrayHeader text) = .ok final ∧ ¬BoundsUsable final := by
  have hnames : ElementNamesPlain (arrayHeader text) :=
    fun e he => absurd he (by simp [arrayHeader])
  exact ⟨_, finishedOf_eq hwell {}, fun husable =>
    hbad (properBound_of_boundsUsable hwell hnames hbound husable)⟩

theorem arrayHeader_not_usable :
    (∃ final, finishedOf {} (arrayHeader " ") = .ok final ∧ ¬BoundsUsable final) ∧
      (∃ final, finishedOf {} (arrayHeader "3000000000") = .ok final ∧ ¬BoundsUsable final) ∧
      ∃ final, finishedOf {} (arrayHeader "٣") = .ok final ∧ ¬BoundsUsable final := by
  refine ⟨?_, ?_, ?_⟩
  · exact not_boundsUsable_arrayHeader "" (by decide)
      (by unfold Finish.IsBound; decide +kernel) fun h => h.1 rfl
  · refine not_boundsUsable_arrayHeader "3000000000" (by decide)
      (by unfold Finish.IsBound; decide +kernel) fun h => ?_
    have hread : inCSharp? "3000000000" = some 3000000000 := by decide +kernel
    obtain ⟨_, _, _, _, _, _, n, hn, _, hmax⟩ := h.2 (by decide +kernel)
    rw [Option.some.inj (hn.symm.trans hread)] at hmax
    exact absurd hmax (by decide)
  · refine not_boundsUsable_arrayHeader "٣" (by decide)
      (by unfold Finish.IsBound; decide +kernel) fun h => ?_
    have hread : inCSharp? "٣" = none := by decide +kernel
    obtain ⟨_, _, _, _, _, _, n, hn, _⟩ := h.2 (by decide +kernel)
    rw [hread] at hn
    exact absurd hn (by simp)

end NativeBindings
