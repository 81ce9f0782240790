import NativeBindings.Proofs.Finished

/-!
# Variadic lists behind typedefs

A function that takes or returns a variadic list is dropped, and whether it does is
asked of its types as they are converted. Typedefs are followed only later. So a list
gets through under the name of a typedef, and only so: the main statement says exactly
which functions still mention it when they are written.
-/

namespace NativeBindings

open CSharp

/-- The function takes or returns a variadic list, or a pointer to one. -/
def CSharp.Function.mentionsVariadic (f : Function) : Bool :=
  f.returnType.isVariadic || f.arguments.any (·.type.isVariadic)

/-- A function of the header that passes a variadic list under the name of a typedef. -/
structure HidesVariadic (o : Options) (d : Header.Definitions) (f : Header.Function) : Prop where
  /-- Its guards let it through. -/
  included : Build.isIncluded (knownOf o d) f.guards = true
  /-- It has no variadic argument. -/
  noSign : ∀ a ∈ f.arguments, a.isVarargs = false
  /-- None of its types is a variadic list by its own name. -/
  notNamed : ∀ t ∈ Build.signatureTypes nativeTypes o f, t.isVariadic = false
  /-- The name of one of its types leads to that of variadic lists over one typedef or more. -/
  leads : ∃ t ∈ Build.signatureTypes nativeTypes o f,
    (aliasesOf o d).LeadsOn t.base (.text variadicName)
  /-- The name of variadic lists is not that of a typedef. -/
  final : (aliasesOf o d).IsFinal (.text variadicName)

theorem isVariadic_iff {t : CsType} : t.isVariadic = true ↔ t.base = .text variadicName :=
  decide_eq_true_iff

/-- A type that is not a variadic list by its own name becomes one if its name leads there. -/
theorem isVariadic_resolve {aliases : Aliases} (ha : aliases.Acyclic) {t : CsType}
    (ht : t.isVariadic = false) : (aliases.resolve t).isVariadic = true ↔
      aliases.LeadsOn t.base (.text variadicName) ∧ aliases.IsFinal (.text variadicName) := by
  have hne : t.base ≠ .text variadicName := fun h => absurd (isVariadic_iff.mpr h) (by simp [ht])
  rw [isVariadic_iff, ha.base_resolve, Aliases.Leads, Relation.reflTransGen_iff_eq_or_transGen]
  refine and_congr_left fun _ => ⟨fun h => ?_, .inr⟩
  rcases h with h | h
  · exact absurd h.symm hne
  · exact h

/-- A finished function mentions a variadic list if one of its types becomes one. -/
theorem mentionsVariadic_function {o : Options} {aliases : Aliases} {f : Header.Function} :
    (Finish.function o aliases
        (Build.builtFunction nativeTypes o f).function).mentionsVariadic = true ↔
      ∃ t ∈ Build.signatureTypes nativeTypes o f, (aliases.resolve t).isVariadic = true := by
  simp only [Function.mentionsVariadic, Finish.function, Build.builtFunction, Bool.or_eq_true,
    List.any_eq_true, List.mem_map, Build.signatureTypes, List.mem_cons, Finish.resolveArgument]
  constructor
  · intro hmentions
    rcases hmentions with h | ⟨_, ⟨_, ⟨b, hb, rfl⟩, rfl⟩, h⟩
    · exact ⟨_, .inl rfl, h⟩
    · exact ⟨_, .inr ⟨b, hb, rfl⟩, h⟩
  · intro htype
    rcases htype with ⟨t, rfl | ⟨b, hb, rfl⟩, h⟩
    · exact .inl h
    · exact .inr ⟨_, ⟨_, ⟨b, hb, rfl⟩, rfl⟩, h⟩

/-- **A variadic list is written in a function exactly if a typedef hides it.** Under its own name,
behind pointers or not, it never gets through. A header need not be well-typed for that, as long as
it gets its declarations. -/
theorem finished_mentionsVariadic (o : Options) (d : Header.Definitions)
    (ha : (aliasesOf o d).Acyclic) :
    (d.WellTyped → ∃ final, finishedOf o d = .ok final) ∧
      ∀ final, finishedOf o d = .ok final →
        ((∀ f ∈ final.functions, f.mentionsVariadic = false) ↔
          ∀ f ∈ d.functions, ¬HidesVariadic o d f) := by
  refine ⟨fun h => ⟨_, finishedOf_eq h o⟩, fun final hfinal => ?_⟩
  rw [functions_of_finishedOf hfinal]
  constructor
  · intro hnone f hf hides
    -- nothing drops the function, and the end of the chain is then written in it
    obtain ⟨t, ht, hleads⟩ := hides.leads
    have hresolved := (isVariadic_resolve ha (hides.notNamed t ht)).mpr ⟨hleads, hides.final⟩
    have hmentions := mentionsVariadic_function (o := o).mpr ⟨t, ht, hresolved⟩
    have hbuilt := Build.mem_acceptedFunctions.mpr ⟨f, hf, hides.included,
      Build.isVariadicFunction_eq_false.mpr ⟨hides.noSign, hides.notNamed⟩, rfl⟩
    have hmem := hnone _ (List.mem_map_of_mem hbuilt)
    rw [hmentions] at hmem
    exact absurd hmem (by simp)
  · intro hnone f' hf'
    -- a function that is written was not dropped, so only a typedef can have brought the list
    obtain ⟨b, hb, rfl⟩ := List.mem_map.mp hf'
    obtain ⟨f, hf, hincluded, hvariadic, rfl⟩ := Build.mem_acceptedFunctions.mp hb
    obtain ⟨hsign, hnamed⟩ := Build.isVariadicFunction_eq_false.mp hvariadic
    refine Bool.eq_false_iff.mpr fun hmentions => ?_
    obtain ⟨t, ht, hresolved⟩ := mentionsVariadic_function.mp hmentions
    obtain ⟨hleads, hlast⟩ := (isVariadic_resolve ha (hnamed t ht)).mp hresolved
    exact hnone f hf ⟨hincluded, hsign, hnamed, ⟨t, ht, hleads⟩, hlast⟩

/-- A typedef of a variadic list, and a function that takes one under that name. -/
def hiddenListHeader : Header.Definitions where
  typedefs := [{ name := "my_list", type := { description := .builtin "va_list" } }]
  functions := [{ name := "f", arguments :=
    [{ name := "args", type := some { description := .user "my_list" } }] }]

theorem acyclic_hiddenListHeader : (aliasesOf {} hiddenListHeader).Acyclic :=
  Aliases.acyclic_of_flat (by decide +kernel)

theorem finished_mentionsVariadic_hiddenListHeader :
    hiddenListHeader.WellTyped ∧ (aliasesOf {} hiddenListHeader).Acyclic ∧
      ∃ final, finishedOf {} hiddenListHeader = .ok final ∧
        ((∀ f ∈ final.functions, f.mentionsVariadic = false) ↔
          ∀ f ∈ hiddenListHeader.functions, ¬HidesVariadic {} hiddenListHeader f) := by
  obtain ⟨hfinished, hwritten⟩ :=
    finished_mentionsVariadic {} hiddenListHeader acyclic_hiddenListHeader
  obtain ⟨final, hfinal⟩ := hfinished (by decide)
  exact ⟨by decide, acyclic_hiddenListHeader, final, hfinal, hwritten final hfinal⟩

/-- A list that a typedef hides is written. -/
theorem hiddenListHeader_mentionsVariadic :
    hiddenListHeader.WellTyped ∧ (aliasesOf {} hiddenListHeader).Acyclic ∧
      ∃ final, finishedOf {} hiddenListHeader = .ok final ∧
        ∃ f ∈ final.functions, f.mentionsVariadic = true := by
  refine ⟨by decide, acyclic_hiddenListHeader, ?_⟩
  have hmentions : ((finishedOf {} hiddenListHeader).toOption.any fun final =>
      final.functions.any (·.mentionsVariadic)) = true := by decide +kernel
  cases hfinal : finishedOf {} hiddenListHeader with
  | error e =>
      rw [hfinal] at hmentions
      exact absurd hmentions (by simp [Except.toOption])
  | ok final =>
      rw [hfinal] at hmentions
      obtain ⟨f, hf, hlist⟩ := List.any_eq_true.mp hmentions
      exact ⟨final, rfl, f, hf, hlist⟩

end NativeBindings
