import NativeBindings.Proofs.DocumentSources
import NativeBindings.Proofs.Resolution

/-!
# The order of typedefs

A typedef is judged on its own: its target is converted without a look at the aliases that
are known by then. Aliases are followed when all of them are there. So where no name is
given twice, typedefs may stand in any order, and a type may be used before the typedef
of its name. Only function pointers are written in the order in which they stand, as the
delegates that they make.

The table of aliases does come out in another order. It is read through look-ups alone,
and these have the same answers (`Acyclic.resolve_congr`).
-/

namespace NativeBindings

open CSharp Build

/-! ## Finishing reads aliases by resolving -/

namespace Finish

section Resolving

variable {aliases aliases' : Aliases} (h : aliases.resolve = aliases'.resolve)

include h

theorem changes_of_resolve : aliases.changes = aliases'.changes := by
  funext t
  rw [Aliases.changes, Aliases.changes, h]

theorem resolveField_of_resolve : resolveField aliases = resolveField aliases' := by
  funext f
  rw [resolveField, resolveField, h, changes_of_resolve h]

theorem layOutFields_of_resolve (scope : BoundScope) :
    layOutFields aliases scope = layOutFields aliases' scope := by
  funext s
  refine List.map_congr_left fun f _ => ?_
  rw [layOutField, layOutField, resolveField_of_resolve h]

theorem struct_of_resolve (scope : BoundScope) :
    struct aliases scope = struct aliases' scope := by
  funext s
  rw [struct, struct, layOutFields_of_resolve h]

theorem wrappers_of_resolve (scope : BoundScope) :
    wrappers aliases scope = wrappers aliases' scope := by
  funext s
  rw [wrappers, wrappers, layOutFields_of_resolve h]

theorem resolveArgument_of_resolve : resolveArgument aliases = resolveArgument aliases' := by
  funext a
  rw [resolveArgument, resolveArgument, h]

theorem signatureNotes_of_resolve : signatureNotes aliases = signatureNotes aliases' := by
  have hargument : argumentNote aliases = argumentNote aliases' := by
    funext a
    rw [argumentNote, argumentNote, changes_of_resolve h]
  funext returnType arguments
  rw [signatureNotes, signatureNotes, returnNote, returnNote, changes_of_resolve h, hargument]

theorem signatureAnnotations_of_resolve :
    signatureAnnotations aliases = signatureAnnotations aliases' := by
  funext returnType arguments a
  rw [signatureAnnotations, signatureAnnotations, signatureNotes_of_resolve h, hasPointer,
    hasPointer, h]

/-- **Declarations are finished by what types are resolved to.** -/
theorem declarations_of_resolve (o : Options) (d : DeclarationSet) :
    declarations o aliases d = declarations o aliases' d := by
  have hdelegate : delegate o aliases = delegate o aliases' := by
    funext x
    rw [delegate, delegate, h, resolveArgument_of_resolve h, signatureAnnotations_of_resolve h]
  have hfunction : function o aliases = function o aliases' := by
    funext f
    rw [function, function, h, resolveArgument_of_resolve h, signatureAnnotations_of_resolve h]
  rw [declarations, declarations, struct_of_resolve h, wrappers_of_resolve h, hdelegate, hfunction]

end Resolving

end Finish

/-! ## Typedefs in another order -/

/-- The typedef is one of a function pointer, which makes a delegate. -/
def makesDelegate (t : Header.Typedef) : Bool := t.type.description.functionPointer?.isSome

/-- The same typedefs in another order, in which function pointers follow one another as before. -/
structure TypedefsReordered (ts ts' : List Header.Typedef) : Prop where
  /-- The typedefs are the same. -/
  perm : ts.Perm ts'
  /-- Function pointers keep their order. -/
  functionPointers : ts'.filter makesDelegate = ts.filter makesDelegate

namespace Build

variable {ts ts' : List Header.Typedef}

theorem typedefResults_perm (h : ts.Perm ts') (known : Symbols) (native : NativeTypes)
    (o : Options) :
    (typedefResults known native o ts).Perm (typedefResults known native o ts') := h.filterMap _

/-- Only typedefs of function pointers make delegates. -/
theorem delegatesOf_filter (h : ∀ t ∈ ts, t.WellTyped) (known : Symbols) (native : NativeTypes)
    (o : Options) : delegatesOf (typedefResults known native o (ts.filter makesDelegate)) =
      delegatesOf (typedefResults known native o ts) := by
  rw [typedefResults, typedefResults, delegatesOf, delegatesOf, List.filterMap_filterMap,
    List.filterMap_filterMap, List.filterMap_filter]
  refine List.filterMap_congr fun t ht => ?_
  cases hmakes : makesDelegate t with
  | true => exact if_pos rfl
  | false =>
      rw [if_neg (by simp)]
      cases hr : accepted? (judgeTypedef known native o t) with
      | none => rfl
      | some r =>
          obtain ⟨_, hfrom⟩ := typedefFrom_of_accepted? (h t ht) hr
          cases hfrom with
          | delegate hp _ =>
              rw [makesDelegate, hp] at hmakes
              exact absurd hmakes (by simp)
          | typeAlias _ _ _ => rfl
          | identity _ => rfl

/-- Where typedefs have different names, so have their aliases. -/
theorem aliasesOf_apart (h : ∀ t ∈ ts, t.WellTyped) {known : Symbols}
    (hnames : ((ts.filter fun t => isIncluded known t.guards).map (·.name)).Nodup)
    (native : NativeTypes) (o : Options) :
    (aliasesOf (typedefResults known native o ts)).Pairwise
      fun a b => (a.name == b.name) = false := by
  rw [List.Nodup, List.pairwise_map, List.pairwise_filter] at hnames
  rw [aliasesOf, List.pairwise_filterMap, typedefResults, List.pairwise_filterMap]
  refine hnames.imp_of_mem fun {t u} ht hu hne r hr r' hr' a ha b hb => ?_
  obtain ⟨htincluded, htfrom⟩ := typedefFrom_of_accepted? (h t ht) hr
  obtain ⟨huincluded, hufrom⟩ := typedefFrom_of_accepted? (h u hu) hr'
  obtain ⟨s, hs⟩ := (h t ht).1.exists
  obtain ⟨s', hs'⟩ := (h u hu).1.exists
  cases htfrom with
  | delegate _ _ => exact absurd ha (by simp)
  | identity _ => exact absurd ha (by simp)
  | typeAlias _ hname _ =>
      cases hufrom with
      | delegate _ _ => exact absurd hb (by simp)
      | identity _ => exact absurd hb (by simp)
      | typeAlias _ hname' _ =>
          injection ha with ha
          injection hb with hb
          subst ha hb
          rw [hs] at hname
          rw [hs'] at hname'
          rw [← Except.ok.inj hname, ← Except.ok.inj hname', Bool.eq_false_iff]
          intro hsame
          refine hne htincluded huincluded ?_
          rw [hs, hs', Key.text.inj (Key.beq_text.mp hsame)]

end Build

/-! ## The same outcome -/

/-- Typedefs of two headers come to the same. -/
structure SameOutcome (o : Options) (d d' : Header.Definitions) : Prop where
  /-- A name has the same alias. -/
  aliases : ∀ k, (aliasesOf o d).get? k = (aliasesOf o d').get? k
  /-- A type is resolved to the same type. -/
  resolve : ∀ t, (aliasesOf o d).resolve t = (aliasesOf o d').resolve t
  /-- Both have their documents, and they are the same. -/
  documents : ∃ docs, (bindingOf o d).documents = .ok docs ∧ (bindingOf o d').documents = .ok docs

/-- **Typedefs of different names may stand in any order, as long as function pointers keep
theirs.** -/
theorem sameOutcome_of_reordered {d : Header.Definitions} (h : d.WellTyped) {o : Options}
    {ts : List Header.Typedef} (hts : TypedefsReordered d.typedefs ts)
    (hnames : ((d.typedefs.filter fun t => isIncluded (knownOf o d) t.guards).map (·.name)).Nodup)
    (hacyclic : (aliasesOf o d).Acyclic) : SameOutcome o d { d with typedefs := ts } := by
  have h' : ({ d with typedefs := ts } : Header.Definitions).WellTyped :=
    { h with typedefs := fun t ht => h.typedefs t (hts.perm.mem_iff.mpr ht) }
  rw [knownOf_eq h] at hnames
  have haliases : ∀ k, (aliasesOf o d).get? k = (aliasesOf o { d with typedefs := ts }).get? k := by
    intro k
    rw [aliasesOf_eq h, aliasesOf_eq h']
    exact get?_register_perm _ ((typedefResults_perm hts.perm _ _ _).filterMap _)
      (aliasesOf_apart h.typedefs hnames _ _) k
  have hresolve : ∀ t, (aliasesOf o d).resolve t =
      (aliasesOf o { d with typedefs := ts }).resolve t := hacyclic.resolve_congr haliases
  have hdelegates : (builtDeclarations (.start o) d).typedefDelegates =
      (builtDeclarations (.start o) { d with typedefs := ts }).typedefDelegates := by
    show delegatesOf (typedefResults _ _ _ d.typedefs) = delegatesOf (typedefResults _ _ _ ts)
    rw [← delegatesOf_filter h.typedefs, ← delegatesOf_filter h'.typedefs, hts.functionPointers]
  -- what is built differs in the list of aliases only, and that is not written
  have hbuilt : ∀ c, BuiltAlike (builtDeclarations (.start o) d)
      (builtDeclarations (.start o) { d with typedefs := ts }) c := by
    intro c
    cases c with
    | typedefs => exact hdelegates
    | defines | structs => rfl
    | enums | functions => exact ⟨rfl, rfl⟩
  have hsame : SameDocuments o d { d with typedefs := ts } fun _ => True := by
    refine sameDocuments_of_content h h' o fun w _ => ?_
    rw [Finish.declarations_of_resolve (funext hresolve)]
    exact sameContent_of_builtAlike o (fun c _ => hbuilt c) fun _ => rfl
  obtain ⟨text, text', hdocs, hdocs', htexts⟩ := hsame
  have htext : text = text' := funext fun w => htexts w trivial
  subst htext
  exact ⟨haliases, hresolve, _, hdocs, hdocs'⟩

/-- A pointer to a function that takes and returns nothing, under a name. -/
def callback (name : Leaf) : Header.TypeDesc :=
  .named (some name) (.pointer (.function (.builtin "void") []))

/-- The typedef at the end of a chain. -/
def deepTypedef : Header.Typedef :=
  { name := "Deep", type := { description := .pointer (.user "Middle") } }

/-- The rest of the chain, from its end to its start, and two function pointers. -/
def otherTypedefs : List Header.Typedef :=
  [{ name := "OnOpen", type := { description := callback "OnOpen" } },
   { name := "Middle", type := { description := .user "Base" } },
   { name := "OnClose", type := { description := callback "OnClose" } },
   { name := "Base", type := { description := .builtin "int" } }]

/-- A header in which every typedef of a chain is used before it stands. -/
def chainHeader : Header.Definitions where
  typedefs := deepTypedef :: otherTypedefs
  structs := [{ name := "S", fields := [{ name := "x", type := { description := .user "Deep" } }] }]
  functions := [{ name := "f", returnType := some { description := .user "Middle" } }]

theorem sameOutcome_of_reordered_chainHeader :
    chainHeader.WellTyped ∧
      TypedefsReordered chainHeader.typedefs (otherTypedefs ++ [deepTypedef]) ∧
      ((chainHeader.typedefs.filter fun t =>
        isIncluded (knownOf {} chainHeader) t.guards).map (·.name)).Nodup ∧
      (aliasesOf {} chainHeader).Acyclic ∧
      SameOutcome {} chainHeader
        { chainHeader with typedefs := otherTypedefs ++ [deepTypedef] } := by
  have hreordered : TypedefsReordered chainHeader.typedefs (otherTypedefs ++ [deepTypedef]) :=
    ⟨(List.perm_append_singleton deepTypedef otherTypedefs).symm, rfl⟩
  have hnames : ((chainHeader.typedefs.filter fun t =>
      isIncluded (knownOf {} chainHeader) t.guards).map (·.name)).Nodup := by decide +kernel
  have hacyclic : (aliasesOf {} chainHeader).Acyclic := by decide +kernel
  exact ⟨by decide, hreordered, hnames, hacyclic,
    sameOutcome_of_reordered (by decide) hreordered hnames hacyclic⟩

end NativeBindings
