import NativeBindings.Proofs.Finished

/-!
# Enum values and their constants

The numbers of an enum stand in constants, and the values of the enum refer to them. The
two lists are built in two passes, each of which asks the guards of every enum and of
every element again. Nothing becomes known in between, so both passes go through the
same elements, and value for value the lists stay side by side. That holds of any header
that gets its declarations, well-typed or not.
-/

namespace NativeBindings.Build

open CSharp

/-! ## What the two passes build -/

theorem includedAmong_of_ok {ι : Type} {known : Symbols} {guards : ι → List Header.Guard}
    {items kept : List ι} (h : includedAmong known guards items = .ok kept) :
    kept = items.filter fun i => isIncluded known (guards i) :=
  eq_filter_of_filterM (fun _ _ hi => eq_isIncluded hi) h

theorem constantsOfEnum_of_ok {known : Symbols} {e : Header.Enum} {cs : List Constant}
    (h : constantsOfEnum known e = .ok cs) : cs = numbersOf known e := by
  rw [constantsOfEnum] at h
  obtain ⟨included, hincluded, h⟩ := bind_eq_ok.mp h
  rw [numbersOf, ← eq_isIncluded hincluded]
  cases included with
  | false => exact (Except.ok.inj h).symm
  | true =>
      rw [if_pos rfl] at h
      obtain ⟨kept, hkept, h⟩ := bind_eq_ok.mp h
      rw [includedAmong_of_ok hkept] at h
      exact (Except.ok.inj h).symm

theorem enumConstants_of_runs {es : List Header.Enum} {b b' : Builder} {cs : List Constant}
    (h : Building.Runs (enumConstants es) b cs b') : cs = (es.map (numbersOf b.known)).flatten := by
  obtain ⟨_, _, hstate, h₁⟩ := h.of_bind
  obtain ⟨lists, _, hlists, h₂⟩ := h₁.of_bind
  obtain rfl := Except.ok.inj hstate.result
  have hmap : es.mapM (constantsOfEnum b.known) = .ok lists := hlists.result
  have hresult : Except.ok lists.flatten = Except.ok cs := h₂.result
  rw [← Except.ok.inj hresult, eq_map_of_mapM (fun _ _ he => constantsOfEnum_of_ok he) hmap]

theorem enumValues_of_ok {known : Symbols} {o : Options} {enum : Leaf}
    {es : List Header.EnumElement} {vs : List EnumValue}
    (h : (enumValues known o enum es).result = .ok vs) :
    vs = (es.filter fun e => isIncluded known e.guards).map (enumValue o) := by
  induction es generalizing vs with
  | nil => exact (Except.ok.inj h).symm
  | cons e rest ih =>
      rw [enumValues, Traced.result_bind, Traced.result_ofExcept] at h
      obtain ⟨included, hincluded, h⟩ := bind_eq_ok.mp h
      rw [List.filter_cons, ← eq_isIncluded hincluded]
      cases included with
      | true =>
          rw [if_pos rfl, Traced.result_bind] at h
          obtain ⟨more, hmore, h⟩ := bind_eq_ok.mp h
          rw [if_pos rfl, List.map_cons, ← ih hmore]
          exact (Except.ok.inj h).symm
      | false => exact ih h

theorem judgeEnum_of_ok {known : Symbols} {o : Options} {e : Header.Enum} {v : Verdict Enum}
    (h : (judgeEnum known o e).result = .ok v) :
    v = if isIncluded known e.guards then .accepted (builtEnum known o e) else .excluded := by
  rw [judgeEnum, result_judgeGuarded] at h
  obtain ⟨included, hincluded, h⟩ := bind_eq_ok.mp h
  rw [← eq_isIncluded hincluded]
  cases included with
  | false => exact (Except.ok.inj h).symm
  | true =>
      rw [if_pos rfl, Traced.result_bind, Traced.result_ofExcept] at h
      obtain ⟨name, hname, h⟩ := bind_eq_ok.mp h
      dsimp only at h
      rw [Traced.result_bind] at h
      obtain ⟨values, hvalues, h⟩ := bind_eq_ok.mp h
      rw [if_pos rfl, builtEnum, hname, ← enumValues_of_ok hvalues]
      exact (Except.ok.inj h).symm

theorem enums_of_runs {es : List Header.Enum} {b b' : Builder} {built : List Enum}
    (h : Building.Runs (enums es) b built b') :
    built = (es.filter fun e => isIncluded b.known e.guards).map (builtEnum b.known b.options) := by
  obtain ⟨_, _, hstate, h⟩ := h.of_bind
  obtain rfl := Except.ok.inj hstate.result
  obtain ⟨hfault, rfl⟩ := h.of_ofPass
  rw [Pass.built_of_fault hfault fun e _ v hv => judgeEnum_of_ok hv, ← List.filterMap_eq_map,
    List.filterMap_filter]
  refine List.filterMap_congr fun e _ => ?_
  cases isIncluded b.known e.guards with
  | true => rfl
  | false => rfl

/-! ## Side by side -/

/-- The elements that are written: those that are included, of the enums that are. -/
def writtenElements (known : Symbols) (es : List Header.Enum) : List Header.EnumElement :=
  (es.filter fun e => isIncluded known e.guards).flatMap fun e =>
    e.elements.filter fun x => isIncluded known x.guards

theorem numbersOf_writtenElements (known : Symbols) (es : List Header.Enum) :
    (es.map (numbersOf known)).flatten = (writtenElements known es).map enumConstant := by
  induction es with
  | nil => rfl
  | cons e rest ih =>
      rw [writtenElements, List.map_cons, List.flatten_cons, ih, numbersOf, List.filter_cons]
      cases isIncluded known e.guards with
      | true =>
          rw [if_pos rfl, if_pos rfl, List.flatMap_cons, List.map_append]
          rfl
      | false => rfl

theorem values_writtenElements (known : Symbols) (o : Options) (es : List Header.Enum) :
    ((es.filter fun e => isIncluded known e.guards).map (builtEnum known o)).flatMap (·.values) =
      (writtenElements known es).map (enumValue o) := by
  rw [writtenElements, List.map_flatMap, List.flatMap_map]
  rfl

/-- A value of an enum and the constant that holds its number. -/
structure Pair (o : Options) (e : Header.EnumElement) (v : EnumValue) (c : Constant) : Prop where
  /-- Both have the name of the element. -/
  name : v.name = e.name ∧ c.name = e.name
  /-- The same is said about both. -/
  comments : v.annotations.precedingComment = c.annotations.precedingComment ∧
    v.annotations.trailingComment = c.annotations.trailingComment
  /-- The value refers to the constant. -/
  reference : v.value = o.nativeClass ++ "." ++ c.name.display
  type : c.type = { base := "int" }
  /-- The constant holds the number of the element. -/
  number : c.value = toString e.value

/-- The values of all enums and the constants for them stand side by side, a pair for each element
in the list. -/
structure SideBySide (o : Options) (elements : List Header.EnumElement) (d : DeclarationSet) :
    Prop where
  values : (d.enums.flatMap (·.values)).length = elements.length
  constants : d.enumConstants.length = elements.length
  pair : ∀ (i : Nat) (e : Header.EnumElement) (v : EnumValue) (c : Constant),
    elements[i]? = some e → (d.enums.flatMap (·.values))[i]? = some v →
      d.enumConstants[i]? = some c → Pair o e v c
  /-- No value refers to a constant that is not there. -/
  referred : ∀ v ∈ d.enums.flatMap (·.values), ∃ c ∈ d.enumConstants,
    v.value = o.nativeClass ++ "." ++ c.name.display
  /-- No constant is there without a value. -/
  named : ∀ c ∈ d.enumConstants, ∃ v ∈ d.enums.flatMap (·.values), v.name = c.name

theorem pair_enumConstant (o : Options) (e : Header.EnumElement) :
    Pair o e (enumValue o e) (enumConstant e) := ⟨⟨rfl, rfl⟩, ⟨rfl, rfl⟩, rfl, rfl, rfl⟩

/-- Finishing a constant adds to its modifiers and leaves the pair. -/
theorem Pair.finish {o : Options} {e : Header.EnumElement} {v : EnumValue} {c : Constant}
    (h : Pair o e v c) : Pair o e v (Finish.constant c) :=
  ⟨h.name, h.comments, h.reference, h.type, h.number⟩

theorem sideBySide_of_map {o : Options} {elements : List Header.EnumElement} {d : DeclarationSet}
    (constant : Header.EnumElement → Constant)
    (hvalues : d.enums.flatMap (·.values) = elements.map (enumValue o))
    (hconstants : d.enumConstants = elements.map constant)
    (hpair : ∀ e, Pair o e (enumValue o e) (constant e)) : SideBySide o elements d := by
  refine ⟨by rw [hvalues, List.length_map], by rw [hconstants, List.length_map], ?_, ?_, ?_⟩
  · intro i e v c he hv hc
    rw [hvalues, List.getElem?_map, he, Option.map_some] at hv
    rw [hconstants, List.getElem?_map, he, Option.map_some] at hc
    obtain rfl := Option.some.inj hv
    obtain rfl := Option.some.inj hc
    exact hpair e
  · rw [hvalues, hconstants]
    intro v hv
    obtain ⟨e, he, rfl⟩ := List.mem_map.mp hv
    exact ⟨constant e, List.mem_map_of_mem he, (hpair e).reference⟩
  · rw [hvalues, hconstants]
    intro c hc
    obtain ⟨e, he, rfl⟩ := List.mem_map.mp hc
    exact ⟨enumValue o e, List.mem_map_of_mem he, (hpair e).name.1.trans (hpair e).name.2.symm⟩

theorem enumLists_of_declarations {d : Header.Definitions} {b : Builder} {built : DeclarationSet}
    (h : (declarations d b).result = .ok built) :
    built.enums.flatMap (·.values) =
        (writtenElements (declarations d b).builder.known d.enums).map (enumValue b.options) ∧
      built.enumConstants =
        (writtenElements (declarations d b).builder.known d.enums).map enumConstant := by
  have hcollections := collections_of_declarations h
  obtain ⟨b₁, _, hsettings₁, hconstants⟩ := hcollections.enumConstants
  obtain ⟨b₂, _, hsettings₂, henums⟩ := hcollections.enums
  obtain ⟨_, hrest₁⟩ := Prod.mk.inj hsettings₁
  obtain ⟨_, hknown₁⟩ := Prod.mk.inj hrest₁
  obtain ⟨hoptions₂, hrest₂⟩ := Prod.mk.inj hsettings₂
  obtain ⟨_, hknown₂⟩ := Prod.mk.inj hrest₂
  constructor
  · rw [enums_of_runs henums, hknown₂, hoptions₂, values_writtenElements]
  · rw [enumConstants_of_runs hconstants, hknown₁, numbersOf_writtenElements]

/-- **Enum values and constants never drift apart.** Whatever the header, once it has its
declarations they stand side by side, as built and as finished. -/
theorem enums_sideBySide (d : Header.Definitions) (b : Builder) :
    (d.WellTyped → ∃ built, (declarations d b).result = .ok built ∧
      ∀ aliases, ∃ final, (Finish.finish b.options aliases built).result = .ok final) ∧
    ∀ built, (declarations d b).result = .ok built →
      SideBySide b.options (writtenElements (declarations d b).builder.known d.enums) built ∧
        ∀ aliases final, (Finish.finish b.options aliases built).result = .ok final →
          SideBySide b.options (writtenElements (declarations d b).builder.known d.enums) final := by
  refine ⟨fun h => ?_, fun built hbuilt => ?_⟩
  · obtain ⟨_, hresult, _⟩ := declarations_runs h b
    exact ⟨_, hresult, fun aliases =>
      ⟨_, Finish.finish_eq (builtDeclarations_writable h b) b.options aliases⟩⟩
  · obtain ⟨hvalues, hconstants⟩ := enumLists_of_declarations hbuilt
    refine ⟨sideBySide_of_map _ hvalues hconstants (pair_enumConstant _), fun aliases final h => ?_⟩
    rw [Finish.finish_of_ok h]
    refine sideBySide_of_map (Finish.constant ∘ enumConstant) ?_ ?_ fun e =>
      (pair_enumConstant _ e).finish
    · rw [← hvalues]
      exact List.flatMap_map ..
    · rw [← List.map_map, ← hconstants]
      rfl

/-- Two enums under guards, with elements under none, one and two. One element and one enum are
excluded. -/
def guardedEnumsHeader : Header.Definitions where
  defines := [{ name := "A" }]
  enums :=
    [{ name := "Color_", guards := [⟨"ifdef", "A"⟩], elements :=
        [{ name := "Color_Red", value := 0, comments := some { attached := some "// Red." } },
          { name := "Color_Old", value := 1, guards := [⟨"ifndef", "A"⟩] },
          { name := "Color_Blue", value := -3, guards := [⟨"if", "0"⟩, ⟨"ifdef", "A"⟩] }] },
      { name := "Shade_", guards := [⟨"ifndef", "A"⟩],
        elements := [{ name := "Shade_Dark", value := 2 }] }]

theorem enums_sideBySide_guardedEnumsHeader : guardedEnumsHeader.WellTyped ∧
    ∃ built final, (declarations guardedEnumsHeader (.start {})).result = .ok built ∧
      (Finish.finish {} (register ∅ built.aliases) built).result = .ok final ∧
      SideBySide {} (writtenElements (declarations guardedEnumsHeader (.start {})).builder.known
        guardedEnumsHeader.enums) built ∧
      SideBySide {} (writtenElements (declarations guardedEnumsHeader (.start {})).builder.known
        guardedEnumsHeader.enums) final := by
  obtain ⟨hruns, hpairs⟩ := enums_sideBySide guardedEnumsHeader (.start {})
  obtain ⟨built, hbuilt, hfinish⟩ := hruns (by decide)
  obtain ⟨final, hfinal⟩ := hfinish (register ∅ built.aliases)
  obtain ⟨hsideBySide, hfinished⟩ := hpairs built hbuilt
  exact ⟨by decide, built, final, hbuilt, hfinal, hsideBySide, hfinished _ final hfinal⟩

example : (writtenElements (declarations guardedEnumsHeader (.start {})).builder.known
    guardedEnumsHeader.enums).map (·.name) = [.text "Color_Red", .text "Color_Blue"] := by
  decide +kernel

end NativeBindings.Build
