import NativeBindings.Proofs.Modifiers
import NativeBindings.Proofs.StringLiterals
import NativeBindings.Proofs.TypeNotes

/-!
# Fields of unknown type

A field for whose type there is no C# type is a placeholder: it is written as a comment, so that
the rest of its struct stays valid. Whatever the header, no attribute is written for it, and no
member.

Documentation is. The comments of a field are written above it before its type is looked at,
and so is the note of an alias that was followed. They stand there like those of any field, and as
the placeholder is no member, they belong to the one that comes next. So a placeholder is inert
exactly if there is nothing to write above it, which can be seen in the header, and if its name
and its bound have no line end that cuts the comment short.
-/

namespace NativeBindings

open CSharp Render
open Literal (StaysOnLine staysOnLine_append)
open Finish (BoundScope layOutField fieldNotes withNotes)

/-! ## Inert fields -/

/-- The line is a comment up to its end, and not one of documentation. -/
structure IsPlainComment (line : String) : Prop where
  comment : "//".toList <+: line.toList
  plain : ¬"///".toList <+: line.toList
  oneLine : StaysOnLine line

/-- Wherever the field stands, it is written as plain comments. -/
def CSharp.Field.Inert (f : Field) : Prop :=
  ∃ lines, StandsAnywhere (field f) lines ∧ ∀ line ∈ lines, IsPlainComment line

/-- The field has an unknown type, and it is in a struct or a wrapper, at any depth. -/
def CSharp.DeclarationSet.IsPlaceholder (d : DeclarationSet) (f : Field) : Prop :=
  ∃ s, d.Within (.struct s) ∧ f ∈ s.fields ∧ f.type.HoldsUnknown

theorem StandsAnywhere.unique {r : Rendered} {lines lines' : List String}
    (h : StandsAnywhere r lines) (h' : StandsAnywhere r lines') : lines = lines' :=
  (Page.mk.inj (h.fresh.symm.trans h'.fresh)).2.1

theorem isPlainComment_unresolved {text : String} :
    IsPlainComment ("// unresolved: " ++ text) ↔ StaysOnLine text := by
  have hmark : StaysOnLine "// unresolved: " := by decide
  constructor
  · exact fun h => (staysOnLine_append.mp h.oneLine).2
  · intro h
    refine ⟨?_, ?_, staysOnLine_append.mpr ⟨hmark, h⟩⟩
    · rw [String.toList_append]
      exact (by decide : "//".toList <+: "// unresolved: ".toList).trans (List.prefix_append _ _)
    · rw [String.toList_append]
      simp

theorem not_isPlainComment_documentation (text : String) : ¬IsPlainComment ("/// " ++ text) := by
  intro h
  refine h.plain ?_
  rw [String.toList_append]
  exact (by decide : "///".toList <+: "/// ".toList).trans (List.prefix_append _ _)

theorem summaryLines_eq_nil {a : Annotations} :
    summaryLines a = [] ↔ a.precedingComment.getD [] = [] ∧ a.trailingComment = none := by
  unfold summaryLines
  dsimp only
  split
  · rename_i hnone
    simpa using hnone
  · rename_i hsome
    simpa using hsome

section Fields

variable {f : Field}

theorem field_standsAnywhere (hunknown : f.type.HoldsUnknown)
    (hattributes : f.annotations.attributes = []) :
    StandsAnywhere (field f) ((summaryLines f.annotations).map (fun line => "/// " ++ line) ++
      ["// unresolved: " ++ fieldText f]) := by
  have hlines := (field_writes (f := f) ⟨_, hunknown⟩).standsAnywhere
  rw [fieldLines, preambleLines, hattributes, if_pos (CsType.isUnknown_iff.mpr hunknown)] at hlines
  rwa [List.map_nil, List.append_nil] at hlines

/-- A field of unknown type is inert if nothing stands above it and it is a line. -/
theorem inert_iff (hunknown : f.type.HoldsUnknown) (hattributes : f.annotations.attributes = []) :
    f.Inert ↔ (f.annotations.precedingComment.getD [] = [] ∧
      f.annotations.trailingComment = none) ∧ StaysOnLine (fieldText f) := by
  have hstands := field_standsAnywhere hunknown hattributes
  rw [← summaryLines_eq_nil]
  constructor
  · rintro ⟨lines, hlines, hplain⟩
    obtain rfl := hlines.unique hstands
    obtain ⟨hsummary, hlast⟩ := List.forall_mem_append.mp hplain
    refine ⟨List.eq_nil_iff_forall_not_mem.mpr fun line hline => ?_,
      isPlainComment_unresolved.mp (List.forall_mem_singleton.mp hlast)⟩
    exact not_isPlainComment_documentation line (hsummary _ (List.mem_map_of_mem hline))
  · rintro ⟨hsummary, hline⟩
    refine ⟨_, hstands, ?_⟩
    rw [hsummary]
    exact List.forall_mem_singleton.mpr (isPlainComment_unresolved.mpr hline)

/-- Of a field of unknown type only its name and its bound may have line ends. -/
theorem staysOnLine_fieldText (hunknown : f.type.HoldsUnknown)
    (hmodifiers : StaysOnLine (modifiers f.annotations)) : StaysOnLine (fieldText f) ↔
      StaysOnLine f.name.display ∧ (f.isArray = true → StaysOnLine f.arrayBound) := by
  have htype : StaysOnLine f.type.display := by
    have hname : StaysOnLine unknownName := by decide
    rw [CsType.display, hunknown]
    refine staysOnLine_append.mpr ⟨hname, fun c hc => ?_⟩
    rw [String.toList_ofList] at hc
    rw [List.eq_of_mem_replicate hc]
    decide
  have htexts : StaysOnLine " " ∧ StaysOnLine "[" ∧ StaysOnLine "]" ∧ StaysOnLine ";" := by decide
  obtain ⟨hblank, hopen, hclose, hend⟩ := htexts
  rw [fieldText]
  cases f.isArray with
  | true => simp [staysOnLine_append, hmodifiers, htype, hblank, hopen, hclose, hend]
  | false => simp [staysOnLine_append, hmodifiers, htype, hblank, hend]

end Fields

/-! ## Placeholders among finished declarations -/

/-- If nothing stands inside the structs at the top, there are no others. -/
theorem CSharp.DeclarationSet.within_struct_iff {d : DeclarationSet}
    (h : ∀ s ∈ d.structs ++ d.inlineArrays, s.inner = []) {s : Struct} :
    d.Within (.struct s) ↔ s ∈ d.structs ++ d.inlineArrays := by
  constructor
  · intro hs
    generalize hx : Declaration.struct s = x at hs
    induction hs generalizing s with
    | @top which x hcontent =>
        subst hx
        cases which <;> obtain ⟨a, ha, hsame⟩ := List.mem_map.mp hcontent
        case structs => exact List.mem_append_left _ (Declaration.struct.inj hsame ▸ ha)
        case inlineArrays => exact List.mem_append_right _ (Declaration.struct.inj hsame ▸ ha)
        all_goals exact absurd hsame (by simp)
    | inner _ hinner ih =>
        rw [h _ (ih rfl)] at hinner
        exact absurd hinner (by simp)
  · intro hs
    rcases List.mem_append.mp hs with hs | hs
    · exact @DeclarationSet.Within.top _ .structs _ (List.mem_map_of_mem hs)
    · exact @DeclarationSet.Within.top _ .inlineArrays _ (List.mem_map_of_mem hs)

namespace Finish

variable {aliases : Aliases} {scope : BoundScope} {struct : Leaf} {f : Field}

/-- The name of a wrapper is never that of unknown types. -/
theorem wrapperName_ne_unknownName (struct field : Leaf) :
    wrapperName struct field ≠ unknownName := by
  intro hsame
  have hends := getLast?_wrapperName struct field
  rw [hsame] at hends
  exact absurd hends (by decide)

/-- Laying a field out does not change whether its type is unknown. -/
theorem holdsUnknown_layOutField : (layOutField aliases scope struct f).field.type.HoldsUnknown ↔
    (aliases.resolve f.type).HoldsUnknown := by
  cases layOutField_layout aliases scope struct f with
  | single _ _ htype _ => rw [htype]
  | unresolved _ _ _ htype _ _ => rw [htype]
  | buffer _ _ _ htype _ _ _ => rw [htype]
  | wrapped _ hneeds _ htype _ _ =>
      rw [htype]
      refine iff_of_false (fun h => ?_) hneeds.1
      exact wrapperName_ne_unknownName struct f.name (Key.text.inj h)

/-- A placeholder comes from a field of a struct. Wrappers have none, as an array of an unknown type
does not get one. -/
theorem isPlaceholder_iff {b : Build.Builder} {known : Symbols} {notices : List Notice}
    {d : Header.Definitions} {built : DeclarationSet}
    (h : Build.NothingLost b known notices d built) {o : Options} :
    (declarations o aliases built).IsPlaceholder f ↔ ∃ s ∈ built.structs, ∃ f₀ ∈ s.fields,
      (aliases.resolve f₀.type).HoldsUnknown ∧
        (layOutField aliases (.of built) s.name f₀).field = f := by
  have hinner : ∀ s ∈ (declarations o aliases built).structs ++
      (declarations o aliases built).inlineArrays, s.inner = [] := fun s hs => inner_eq_nil h hs
  constructor
  · rintro ⟨s', hs', hf, hunknown⟩
    rw [DeclarationSet.within_struct_iff hinner] at hs'
    rcases List.mem_append.mp hs' with hs' | hs'
    · obtain ⟨s, hs, rfl⟩ := List.mem_map.mp hs'
      obtain ⟨l, hl, rfl⟩ := List.mem_map.mp hf
      obtain ⟨f₀, hf₀, rfl⟩ := List.mem_map.mp hl
      exact ⟨s, hs, f₀, hf₀, holdsUnknown_layOutField.mp hunknown, rfl⟩
    · obtain ⟨s, _, hw⟩ := List.mem_flatMap.mp hs'
      rw [wrappers_eq] at hw
      obtain ⟨f₀, hf₀, rfl⟩ := List.mem_map.mp hw
      obtain ⟨_, hneeds⟩ := List.mem_filter.mp hf₀
      rw [List.mem_singleton.mp hf] at hunknown
      exact absurd hunknown (of_decide_eq_true hneeds).2.1
  · rintro ⟨s, hs, f₀, hf₀, hunknown, rfl⟩
    refine ⟨Finish.struct aliases (.of built) s, ?_, ?_, holdsUnknown_layOutField.mpr hunknown⟩
    · rw [DeclarationSet.within_struct_iff hinner]
      exact List.mem_append_left _ (List.mem_map_of_mem hs)
    · exact List.mem_map_of_mem (List.mem_map_of_mem hf₀)

theorem FieldMarked.staysOnLine_modifiers {f' : Field} (h : FieldMarked aliases scope struct f f') :
    StaysOnLine (Render.modifiers f'.annotations) := by
  rw [Render.modifiers, h.modifiers]
  by_cases hunsafe : 0 < (aliases.resolve f.type).pointers ∨ BecomesBuffer aliases f
  · by_cases hbuffer : BecomesBuffer aliases f
    · simp only [if_pos hunsafe, if_pos hbuffer]
      decide
    · simp only [if_pos hunsafe, if_neg hbuffer]
      decide
  · have hbuffer : ¬BecomesBuffer aliases f := fun h => hunsafe (.inr h)
    simp only [if_neg hunsafe, if_neg hbuffer]
    decide

theorem staysOnLine_expression (scope : BoundScope) {bound : String} :
    StaysOnLine (scope.expression bound) ↔ StaysOnLine bound := by
  have htexts : StaysOnLine "(" ∧ StaysOnLine boundName ∧ StaysOnLine ")(" ∧ StaysOnLine ")" := by
    decide
  obtain ⟨hopen, hname, hmiddle, hclose⟩ := htexts
  rw [BoundScope.expression]
  split
  · rfl
  · simp [staysOnLine_append, hopen, hname, hmiddle, hclose]

theorem withNotes_getD_eq_nil {comment : Option (List String)} {notes : List String} :
    (withNotes comment notes).getD [] = [] ↔ comment.getD [] = [] ∧ notes = [] := by
  cases notes with
  | nil => simp
  | cons note rest => simp

theorem fieldNotes_eq_nil {t : CsType} : fieldNotes aliases t = [] ↔ aliases.resolve t = t := by
  rw [fieldNotes]
  split
  · rename_i hsame
    exact iff_of_true rfl hsame
  · rename_i hother
    exact iff_of_false (by simp) hother

end Finish

/-! ## Placeholders of a header -/

/-- There is nothing to write above the field, and what there is to write for it is one line. -/
structure FitsComment (aliases : Aliases) (x : Header.Field) (f : Field) : Prop where
  comments : ∀ c ∈ x.comments, c.preceding.getD [] = [] ∧ c.attached = none
  /-- No alias is followed, so there is no type to note. -/
  type : aliases.resolve f.type = f.type
  name : StaysOnLine x.name.display
  bound : f.isArray = true → StaysOnLine f.arrayBound

instance {aliases : Aliases} {x : Header.Field} {f : Field} :
    Decidable (FitsComment aliases x f) :=
  decidable_of_iff ((∀ c ∈ x.comments, c.preceding.getD [] = [] ∧ c.attached = none) ∧
      aliases.resolve f.type = f.type ∧ StaysOnLine x.name.display ∧
        (f.isArray = true → StaysOnLine f.arrayBound))
    ⟨fun ⟨hcomments, htype, hname, hbound⟩ => ⟨hcomments, htype, hname, hbound⟩,
      fun h => ⟨h.comments, h.type, h.name, h.bound⟩⟩

/-- A field of a header that becomes a placeholder: it is included with its struct and it is built,
but the type that it leads to is unknown. -/
structure BecomesPlaceholder (o : Options) (d : Header.Definitions) (s : Header.Struct)
    (x : Header.Field) (b : Build.BuiltField) : Prop where
  struct : s ∈ d.structs ∧ Build.isIncluded (knownOf o d) s.guards = true
  field : x ∈ s.fields ∧ Build.isIncluded (knownOf o d) x.guards = true
  built : Build.builtField? nativeTypes o s.name x = some b
  unknown : ((aliasesOf o d).resolve b.field.type).HoldsUnknown

theorem annotationsOf_eq_nil {c : Option Header.Comments} :
    ((Build.annotationsOf c).precedingComment.getD [] = [] ∧
      (Build.annotationsOf c).trailingComment = none) ↔
        ∀ c' ∈ c, c'.preceding.getD [] = [] ∧ c'.attached = none := by
  cases c with
  | none => simp [Build.annotationsOf]
  | some c => simp [Build.annotationsOf]

/-- What is laid out for a field of an unknown type has no attributes, and it is inert if it fits
into a comment. -/
theorem inert_layOutField_iff {aliases : Aliases} (scope : BoundScope) (struct : Leaf)
    {x : Header.Field} {f : Field} (h : Build.FieldImage x f)
    (hunknown : (aliases.resolve f.type).HoldsUnknown) :
    (layOutField aliases scope struct f).field.annotations.attributes = [] ∧
      ((layOutField aliases scope struct f).field.Inert ↔ FitsComment aliases x f) := by
  have hmarked :
      Finish.FieldMarked aliases scope struct f (layOutField aliases scope struct f).field :=
    Finish.field_marked scope struct h
  obtain ⟨htrailing, hpreceding⟩ := Finish.layOutField_comments aliases scope struct f
  have hname := Finish.layOutField_name aliases scope struct f
  generalize hf' : (layOutField aliases scope struct f).field = f' at *
  have hunknown' : f'.type.HoldsUnknown := hf' ▸ Finish.holdsUnknown_layOutField.mpr hunknown
  have hbound : (f'.isArray = true → StaysOnLine f'.arrayBound) ↔
      (f.isArray = true → StaysOnLine f.arrayBound) := by
    cases hmarked.layout with
    | single ha ha' _ _ => simp [ha, ha']
    | unresolved ha _ ha' _ hbound _ => rw [ha, ha', hbound, Finish.staysOnLine_expression]
    | buffer _ ht _ _ _ _ _ => exact absurd hunknown ht.1
    | wrapped _ ht _ _ _ _ => exact absurd hunknown ht.1
  refine ⟨hmarked.attributes, ?_⟩
  rw [inert_iff hunknown' hmarked.attributes, staysOnLine_fieldText hunknown'
    hmarked.staysOnLine_modifiers, htrailing, hpreceding, Finish.withNotes_getD_eq_nil,
    Finish.fieldNotes_eq_nil, hbound, hname, h.name, h.annotations]
  constructor
  · rintro ⟨⟨⟨hpreceding, htype⟩, hattached⟩, hname, hbound⟩
    exact ⟨annotationsOf_eq_nil.mp ⟨hpreceding, hattached⟩, htype, hname, hbound⟩
  · rintro ⟨hcomments, htype, hname, hbound⟩
    obtain ⟨hpreceding, hattached⟩ := annotationsOf_eq_nil.mpr hcomments
    exact ⟨⟨⟨hpreceding, htype⟩, hattached⟩, hname, hbound⟩

theorem Build.fieldImage_of_builtField? {native : NativeTypes} {o : Options} {struct : Leaf}
    {x : Header.Field} {b : BuiltField} (h : builtField? native o struct x = some b) :
    FieldImage x b.field := by
  have hresult : (fieldOf native o struct x).result = .ok (some b) :=
    Traced.value?_eq_some.mp (Option.join_eq_some_iff.mp h)
  have hgiven : Accounted (BuiltFieldImage o x) _ (some b) :=
    fieldOf_gives native o struct x _ hresult (List.Subset.refl _)
  exact hgiven.field

variable {o : Options} {d : Header.Definitions} {final : DeclarationSet}

/-- The placeholders among finished declarations are the fields of the header that become one. -/
theorem isPlaceholder_of_finishedOf (h : finishedOf o d = .ok final) : ∃ scope, ∀ f,
    final.IsPlaceholder f ↔ ∃ s x b, BecomesPlaceholder o d s x b ∧
      (layOutField (aliasesOf o d) scope s.name b.field).field = f := by
  obtain ⟨built, hbuilt, hfinish⟩ := bind_eq_ok.mp h
  refine ⟨.of built, fun f => ?_⟩
  rw [Finish.finish_of_ok hfinish,
    Finish.isPlaceholder_iff (Build.nothingLost_of_declarations hbuilt),
    Build.structs_of_declarations hbuilt]
  constructor
  · rintro ⟨s', hs', f₀, hf₀, hunknown, rfl⟩
    obtain ⟨s, hs, hguards, rfl⟩ := Build.mem_acceptedStructs.mp hs'
    obtain ⟨b, hb, rfl⟩ := List.mem_map.mp hf₀
    obtain ⟨x, hx, hguards', hbuilt'⟩ := Build.mem_keptFields.mp hb
    exact ⟨s, x, b, ⟨⟨hs, hguards⟩, ⟨hx, hguards'⟩, hbuilt', hunknown⟩, rfl⟩
  · rintro ⟨s, x, b, hx, rfl⟩
    refine ⟨_, Build.mem_acceptedStructs.mpr ⟨s, hx.struct.1, hx.struct.2, rfl⟩, b.field, ?_,
      hx.unknown, rfl⟩
    exact List.mem_map_of_mem (Build.mem_keptFields.mpr ⟨x, hx.field.1, hx.field.2, hx.built⟩)

/-- Every field of the header that becomes a placeholder is inert if it fits into a comment. -/
theorem BecomesPlaceholder.exists_placeholder {s : Header.Struct} {x : Header.Field}
    {b : Build.BuiltField} (hx : BecomesPlaceholder o d s x b) (h : finishedOf o d = .ok final) :
    ∃ f, final.IsPlaceholder f ∧ f.name = x.name ∧
      (f.Inert ↔ FitsComment (aliasesOf o d) x b.field) := by
  obtain ⟨scope, hiff⟩ := isPlaceholder_of_finishedOf h
  have himage := Build.fieldImage_of_builtField? hx.built
  exact ⟨_, (hiff _).mpr ⟨s, x, b, hx, rfl⟩,
    (Finish.layOutField_name _ scope s.name b.field).trans himage.name,
    (inert_layOutField_iff scope s.name himage hx.unknown).2⟩

/-- How the placeholders of a header are written. -/
structure PlaceholdersWritten (o : Options) (d : Header.Definitions) (final : DeclarationSet) :
    Prop where
  /-- Wherever a placeholder stands, it is its documentation, if there is any, and a comment. -/
  lines : ∀ f, final.IsPlaceholder f → StandsAnywhere (field f)
    ((summaryLines f.annotations).map (fun line => "/// " ++ line) ++
      ["// unresolved: " ++ fieldText f])
  /-- All of them are inert if each of them fits into a comment. -/
  inert : (∀ f, final.IsPlaceholder f → f.Inert) ↔
    ∀ s x b, BecomesPlaceholder o d s x b → FitsComment (aliasesOf o d) x b.field

/-- **Placeholders are inert where nothing is to be documented.** This is so for any header that
gets its declarations, and a well-typed one does. -/
theorem finished_placeholdersWritten (o : Options) (d : Header.Definitions) :
    (d.WellTyped → ∃ final, finishedOf o d = .ok final) ∧
      ∀ final, finishedOf o d = .ok final → PlaceholdersWritten o d final := by
  refine ⟨fun h => ⟨_, finishedOf_eq h o⟩, fun final hfinal => ?_⟩
  obtain ⟨scope, hiff⟩ := isPlaceholder_of_finishedOf hfinal
  have hlaid := fun s x b (hx : BecomesPlaceholder o d s x b) => inert_layOutField_iff scope s.name
    (Build.fieldImage_of_builtField? hx.built) hx.unknown
  refine ⟨fun f hf => ?_, fun hinert s x b hx => ?_, fun hfits f hf => ?_⟩
  · obtain ⟨_, _, _, hunknown⟩ := id hf
    obtain ⟨s, x, b, hx, rfl⟩ := (hiff f).mp hf
    exact field_standsAnywhere hunknown (hlaid s x b hx).1
  · exact (hlaid s x b hx).2.mp (hinert _ ((hiff _).mpr ⟨s, x, b, hx, rfl⟩))
  · obtain ⟨s, x, b, hx, rfl⟩ := (hiff f).mp hf
    exact (hlaid s x b hx).2.mpr (hfits s x b hx)

/-- Placeholders among other fields, one of them an array, and nothing said about them. -/
def glyphHeader : Header.Definitions where
  structs :=
    [{ name := "Glyph", fields :=
        [{ name := "codes", type := { description := .array (.builtin "wchar_t") (some "4") } },
          { name := "text", type := { description := .pointer (.builtin "wchar_t") } },
          { name := "advance", type := { description := .builtin "float" }
            comments := some { preceding := some ["// how far to go"] } }] }]

theorem finished_placeholdersWritten_glyphHeader : glyphHeader.WellTyped ∧
    ∃ final, finishedOf {} glyphHeader = .ok final ∧ PlaceholdersWritten {} glyphHeader final ∧
      (∃ f, final.IsPlaceholder f) ∧ ∀ f, final.IsPlaceholder f → f.Inert := by
  have hwell : glyphHeader.WellTyped := by decide
  obtain ⟨hends, hwritten⟩ := finished_placeholdersWritten {} glyphHeader
  obtain ⟨final, hfinal⟩ := hends hwell
  have hfits : ∀ s ∈ glyphHeader.structs, ∀ x ∈ s.fields,
      ∀ b ∈ Build.builtField? nativeTypes {} s.name x,
        ((aliasesOf {} glyphHeader).resolve b.field.type).HoldsUnknown →
          FitsComment (aliasesOf {} glyphHeader) x b.field := by decide +kernel
  obtain ⟨s, hs, hguards, x, hx, hguards', b, hb, hunknown⟩ : ∃ s ∈ glyphHeader.structs,
      Build.isIncluded (knownOf {} glyphHeader) s.guards = true ∧ ∃ x ∈ s.fields,
        Build.isIncluded (knownOf {} glyphHeader) x.guards = true ∧
          ∃ b ∈ Build.builtField? nativeTypes {} s.name x,
            ((aliasesOf {} glyphHeader).resolve b.field.type).HoldsUnknown := by decide +kernel
  have hbecomes : BecomesPlaceholder {} glyphHeader s x b :=
    ⟨⟨hs, hguards⟩, ⟨hx, hguards'⟩, hb, hunknown⟩
  obtain ⟨f, hf, _⟩ := hbecomes.exists_placeholder hfinal
  refine ⟨hwell, final, hfinal, hwritten final hfinal, ⟨f, hf⟩, ?_⟩
  refine (hwritten final hfinal).inert.mpr fun s x b hx => ?_
  exact hfits s hx.struct.1 x hx.field.1 b hx.built hx.unknown

/-! ## Placeholders that are documented -/

/-- A field with a comment above it and one behind it, and one with a typedef for its type. Neither
has a C# type. -/
def commentedHeader : Header.Definitions where
  typedefs := [{ name := "Text", type := { description := .pointer (.builtin "wchar_t") } }]
  structs :=
    [{ name := "Glyph", fields :=
        [{ name := "code", type := { description := .builtin "wchar_t" }
           comments := some { preceding := some ["// about it"], attached := some "// of it" } },
          { name := "text", type := { description := .user "Text" } },
          { name := "advance", type := { description := .builtin "float" } }] }]

/-- Either way there is a placeholder that is not inert. -/
theorem commentedHeader_not_inert : commentedHeader.WellTyped ∧
    ∃ final, finishedOf {} commentedHeader = .ok final ∧
      ∀ name ∈ ["code", "text"], ∃ f, final.IsPlaceholder f ∧ f.name = .text name ∧ ¬f.Inert := by
  have hwell : commentedHeader.WellTyped := by decide
  have hdocumented : ∀ name ∈ ["code", "text"], ∃ s ∈ commentedHeader.structs,
      Build.isIncluded (knownOf {} commentedHeader) s.guards = true ∧ ∃ x ∈ s.fields,
        x.name = .text name ∧ Build.isIncluded (knownOf {} commentedHeader) x.guards = true ∧
          ∃ b ∈ Build.builtField? nativeTypes {} s.name x,
            ((aliasesOf {} commentedHeader).resolve b.field.type).HoldsUnknown ∧
              ¬FitsComment (aliasesOf {} commentedHeader) x b.field := by decide +kernel
  refine ⟨hwell, _, finishedOf_eq hwell {}, fun name hname => ?_⟩
  obtain ⟨s, hs, hguards, x, hx, hnamed, hguards', b, hb, hunknown, hnot⟩ := hdocumented name hname
  have hbecomes : BecomesPlaceholder {} commentedHeader s x b :=
    ⟨⟨hs, hguards⟩, ⟨hx, hguards'⟩, hb, hunknown⟩
  obtain ⟨f, hf, hsame, hiff⟩ := hbecomes.exists_placeholder (finishedOf_eq hwell {})
  exact ⟨f, hf, hsame.trans hnamed, fun hinert => hnot (hiff.mp hinert)⟩

end NativeBindings
