import NativeBindings.Proofs.KnownSymbols

/-!
# Symbols known from the start

A symbol becomes known in two ways: the settings may name it, or the header may define it.
Known from the start, it gets a constant for its text; defined, a constant for its content.
Both constants come before those of the other defines, and apart from them nothing tells the
two ways apart.

The define that comes first is taken first and then known to all others, as a symbol from
the start is (`takenOf_cons`). What follows only asks which symbols are known. Bounds of
arrays do look at constants, but only at those of type `int`, and no define or known symbol
has one of these (`expression_congr`).
-/

namespace NativeBindings

open CSharp
open Header (Define)

namespace Build

variable {known : Symbols}

/-! ## A define that comes first -/

/-- The groups of the others do not see it. -/
theorem taken_cons_of_not_mem {p : Placed} (items : List Placed) {gs : List Nat}
    (hp : p.2.guards.length ∉ gs) (known : Symbols) :
    taken known (p :: items) gs = taken known items gs := by
  induction gs generalizing known with
  | nil => rfl
  | cons guards more ih =>
      obtain ⟨hne, hmore⟩ := not_or.mp (mt List.mem_cons.mpr hp)
      have hgroup : withGuards (p :: items) guards = withGuards items guards :=
        List.filter_cons_of_neg (by simpa using hne)
      rw [taken, taken, hgroup, ih hmore]

/-- A define without guards that comes first is taken first, and is known to all others. -/
theorem taken_cons_unguarded {p : Placed} (hp : p.2.guards = []) {a : AcceptedDefine}
    (ha : accepted? (judgeDefine known p) = some a) (items : List Placed) {gs : List Nat}
    (hgs : 0 ∉ gs) :
    taken known (p :: items) (0 :: gs) = a :: taken (learn known a) items (0 :: gs) := by
  have hlen : p.2.guards.length = 0 := by rw [hp]; rfl
  have hgroup : withGuards (p :: items) 0 = p :: withGuards items 0 :=
    List.filter_cons_of_pos (by simpa using hlen)
  have hfirst : takenWithGuards known 0 (p :: withGuards items 0) =
      a :: takenWithGuards (learn known a) 0 (withGuards items 0) := by
    rw [takenWithGuards, if_pos (Nat.zero_le 1), takenInTurn, ha, takenWithGuards,
      if_pos (Nat.zero_le 1)]
  rw [taken, taken, hgroup, hfirst, taken_cons_of_not_mem items (hlen ▸ hgs)]
  rfl

theorem placed_cons (d : Define) (ds : List Define) :
    placed (d :: ds) = (0, d) :: movedTo (· + 1) (placed ds) := by
  rw [placed, List.zipIdx_cons, List.map_cons, placed, movedTo, List.zipIdx_succ, List.map_map,
    List.map_map]
  rfl

theorem guardNumbers_cons {d : Define} (hd : d.guards = []) (ds : List Define) :
    guardNumbers (d :: ds) = guardNumbers ds := by
  rw [guardNumbers, List.map_cons, hd]
  rfl

/-- What is taken of a header that begins with a define without guards. -/
theorem takenOf_cons {d : Define} (hd : d.guards = []) {ds : List Define}
    (h : ∀ d ∈ ds, d.WellTyped) {a : AcceptedDefine}
    (ha : accepted? (judgeDefine known (0, d)) = some a) :
    takenOf known (d :: ds) = a :: (takenOf (learn known a) ds).map (·.moved (· + 1)) := by
  have hgroups : ∃ gs, guardNumbers ds = 0 :: gs ∧ 0 ∉ gs :=
    ⟨_, List.range_succ_eq_map, by simp⟩
  obtain ⟨gs, hgs, hzero⟩ := hgroups
  rw [takenOf, placed_cons, guardNumbers_cons hd, takenOf,
    ← taken_moved (allWellTyped_placed h), hgs, taken_cons_unguarded hd ha _ hzero]

/-! ## Constants of defines -/

/-- The constant is not of type `int`, so a bound that names it is cast. -/
def IsCast (c : Constant) : Prop := c.type.base ≠ .text boundName

theorem isCast_of_type {c : Constant} {base : String} (hc : c.type = { base := base })
    (hbase : base ≠ boundName) : IsCast c := by
  rw [IsCast, hc]
  exact fun h => hbase (Key.text.inj h)

theorem ConstantFor.isCast {content value : String} {type : CsType}
    (h : ConstantFor known content type value) {c : Constant} (hc : c.type = type) : IsCast c := by
  cases h with
  | flag _ | symbol _ | number _ | text _ _ | unsupported _ =>
      exact isCast_of_type hc (by decide)

theorem constantOf_isCast (known : Symbols) (d : Define) (content : String) :
    (constantOf known d content).Ends IsCast := by
  obtain ⟨c, hc, _, hfor⟩ := constantOf_for known d content
  exact ⟨c, hc, hfor.isCast rfl⟩

theorem isCast_of_accepted? {p : Placed} {a : AcceptedDefine}
    (ha : accepted? (judgeDefine known p) = some a) : IsCast a.constant := by
  obtain ⟨_, replacement, _, hconstant⟩ := accepted_of_judgeDefine (accepted?_eq_some.mp ha)
  obtain ⟨c, hc, hcast⟩ := constantOf_isCast known p.2 (Text.strip replacement)
  obtain rfl : c = a.constant := Except.ok.inj (hc.symm.trans hconstant)
  exact hcast

/-- No constant of a known symbol or of a define is of type `int`. -/
theorem constants_isCast (known : Symbols) (ds : List Define) :
    ∀ c ∈ seededConstants known ++ inHeaderOrder ds.length (takenOf known ds), IsCast c := by
  intro c hc
  rcases List.mem_append.mp hc with hc | hc
  · obtain ⟨e, _, rfl⟩ := List.mem_map.mp hc
    exact isCast_of_type rfl (by decide)
  · obtain ⟨i, _, hi⟩ := List.mem_filterMap.mp hc
    obtain ⟨a, ha, rfl⟩ := Option.map_eq_some_iff.mp hi
    obtain ⟨_, _, _, _, hgroup⟩ := exists_of_mem_taken (List.mem_of_find?_eq_some ha)
    obtain ⟨_, _, _, hjudged⟩ := judged_takenWithGuards hgroup
    exact isCast_of_accepted? hjudged

end Build

/-- The declarations with other constants. -/
def CSharp.DeclarationSet.withConstants (d : DeclarationSet) (cs : List Constant) :
    DeclarationSet := { d with constants := cs }

/-! ## Bounds -/

namespace Finish

open Build (IsCast)

variable {scope scope' : BoundScope}

/-- Where no constant is of type `int`, only enum constants are. -/
theorem isInt_eq (h : ∀ c ∈ scope.constants, IsCast c) (name : Leaf) :
    scope.isInt name = scope.enumConstants.contains name := by
  rw [BoundScope.isInt]
  cases hfind : scope.constants.find? (·.name = name) with
  | none => rw [Bool.or_false]
  | some c =>
      have hcast := h c (List.mem_of_find?_eq_some hfind)
      dsimp only
      rw [decide_eq_false hcast, Bool.or_false]

/-- With the same enum constants, and without other constants of type `int`, bounds are the same. -/
theorem expression_congr (h : ∀ c ∈ scope.constants, IsCast c)
    (h' : ∀ c ∈ scope'.constants, IsCast c) (henum : scope.enumConstants = scope'.enumConstants) :
    scope.expression = scope'.expression := by
  funext bound
  rw [BoundScope.expression, BoundScope.expression, isInt_eq h, isInt_eq h', henum]

section Layout

variable (h : scope.expression = scope'.expression) (aliases : Aliases)

include h

theorem layOutField_congr (struct : Leaf) (f : Field) :
    layOutField aliases scope struct f = layOutField aliases scope' struct f := by
  unfold layOutField layOutArray wrapperOf
  rw [h]

theorem layOutFields_congr (s : Struct) :
    layOutFields aliases scope s = layOutFields aliases scope' s :=
  List.map_congr_left fun f _ => layOutField_congr h aliases s.name f

theorem struct_congr : struct aliases scope = struct aliases scope' := by
  funext s
  rw [struct, struct, layOutFields_congr h]

theorem wrappers_congr : wrappers aliases scope = wrappers aliases scope' := by
  funext s
  rw [wrappers, wrappers, layOutFields_congr h]

end Layout

/-- Constants of other types than `int` come out themselves, and nothing else shows them. -/
theorem declarations_withConstants (o : Options) (aliases : Aliases) {d : DeclarationSet}
    {cs : List Constant} (h : ∀ c ∈ d.constants, IsCast c) (hcs : ∀ c ∈ cs, IsCast c) :
    declarations o aliases (d.withConstants cs) =
      (declarations o aliases d).withConstants (cs.map constant) := by
  have hscope : (BoundScope.of (d.withConstants cs)).expression = (BoundScope.of d).expression :=
    expression_congr hcs h rfl
  rw [declarations, declarations, struct_congr hscope, wrappers_congr hscope]
  rfl

end Finish

/-- Only one document shows the constants that are not numbers of enums. -/
theorem Render.document_withConstants (o : Options) (d : DeclarationSet) (cs : List Constant)
    {which : Document} (h : which ≠ .constants) :
    document o (d.withConstants cs) which = document o d which := by
  cases which with
  | constants => exact absurd rfl h
  | enums | structs | delegates | inlineArrays | functions => rfl

/-! ## The two ways to know a symbol -/

namespace Build

/-- A define without guards is accepted, and makes its name known. -/
theorem accepted?_unguarded {x : Define} (hx : x.WellTyped) {name : String}
    (hname : x.name = .text name) (hguards : x.guards = []) (known : Symbols) (i : Nat) :
    ∃ a, accepted? (judgeDefine known (i, x)) = some a ∧ a.index = i ∧ a.symbol = .text name ∧
      a.constant.name = .text name := by
  rcases accepted?_judgeDefine (p := (i, x)) hx known with ⟨a, ha, hfrom, _⟩ | ⟨_, hnot⟩
  · obtain ⟨s, hs, hsymbol⟩ := hfrom.symbol
    rw [hname] at hs
    exact ⟨a, ha, hfrom.index, Leaf.text.inj hs ▸ hsymbol, hfrom.name.trans hname⟩
  · refine absurd (fun g hg => ?_) hnot
    rw [hguards] at hg
    exact absurd hg (by simp)

/-- One place further on stands what stood there before. -/
theorem find?_moved_succ {a : AcceptedDefine} (ha : a.index = 0) (as : List AcceptedDefine)
    (i : Nat) : (a :: as.map (·.moved (· + 1))).find? (·.index = i + 1) =
      (as.find? (·.index = i)).map (·.moved (· + 1)) := by
  rw [List.find?_cons_of_neg (by rw [ha]; simp), List.find?_map]
  exact congrArg _ (List.find?_congr fun b _ => by simp [AcceptedDefine.moved])

theorem inHeaderOrder_cons {a : AcceptedDefine} (ha : a.index = 0) (n : Nat)
    (as : List AcceptedDefine) : inHeaderOrder (n + 1) (a :: as.map (·.moved (· + 1))) =
      a.constant :: inHeaderOrder n as := by
  rw [inHeaderOrder, List.range_succ_eq_map, List.filterMap_cons, List.filterMap_map,
    List.find?_cons_of_pos (by simpa using ha)]
  refine congrArg (a.constant :: ·) (List.filterMap_congr fun i _ => ?_)
  rw [Function.comp_apply, find?_moved_succ ha, Option.map_map]
  rfl

/-- From headers that differ in their defines only, and make the same symbols known, the same is
built apart from the constants. -/
theorem builtDeclarations_congr {d : Header.Definitions} (h : d.WellTyped) {o : Options}
    {seeds : Symbols} {ds : List Define}
    (hknown : SameSymbols (knownAfter seeds d.defines) (knownAfter o.knownDefines ds)) :
    builtDeclarations (.start (o.knowing seeds)) d =
      (builtDeclarations (.start o) { d with defines := ds }).withConstants
        (seededConstants seeds ++ inHeaderOrder d.defines.length (takenOf seeds d.defines)) := by
  have hjudged := judgedAlike hknown o seeds
  have hnumbers : numbersOf (knownAfter seeds d.defines) =
      numbersOf (knownAfter o.knownDefines ds) := by
    unfold numbersOf
    rw [isIncluded_congr hknown]
  have htypedefs : typedefResults (knownAfter seeds d.defines) nativeTypes (o.knowing seeds)
      d.typedefs = typedefResults (knownAfter o.knownDefines ds) nativeTypes o d.typedefs := by
    rw [typedefResults, typedefResults, funext hjudged.typedefs]
  have hstructs : acceptedStructs (knownAfter seeds d.defines) nativeTypes (o.knowing seeds)
      d.structs = acceptedStructs (knownAfter o.knownDefines ds) nativeTypes o d.structs := by
    rw [acceptedStructs_eq h.structs, acceptedStructs_eq h.structs, funext hjudged.structs]
  have hfunctions : acceptedFunctions (knownAfter seeds d.defines) nativeTypes (o.knowing seeds)
      d.functions = acceptedFunctions (knownAfter o.knownDefines ds) nativeTypes o d.functions := by
    rw [acceptedFunctions_eq h.functions, acceptedFunctions_eq h.functions,
      funext hjudged.functions]
  simp only [builtDeclarations, Builder.start, Options.knowing, DeclarationSet.withConstants] at *
  rw [hnumbers, funext hjudged.enums, htypedefs, hstructs, hfunctions]

/-- Of headers that come to the same declarations apart from their constants, the same documents are
written apart from one. -/
theorem documents_congr {d d' : Header.Definitions} (h : d.WellTyped) (h' : d'.WellTyped)
    {o : Options} {seeds : Symbols} {cs : List Constant} (hcs : ∀ c ∈ cs, IsCast c)
    (hsame : builtDeclarations (.start (o.knowing seeds)) d =
      (builtDeclarations (.start o) d').withConstants cs) :
    ∃ text text' : Render.Document → String,
      (bindingOf (o.knowing seeds) d).documents =
        .ok ⟨Render.Document.all.map fun w => (o.documentName w.word, text w)⟩ ∧
      (bindingOf o d').documents =
        .ok ⟨Render.Document.all.map fun w => (o.documentName w.word, text' w)⟩ ∧
      ∀ w, w ≠ .constants → text w = text' w := by
  have haliases : NativeBindings.aliasesOf (o.knowing seeds) d = NativeBindings.aliasesOf o d' := by
    rw [aliasesOf_eq h, aliasesOf_eq h', builtAliases, builtAliases, hsame]
    rfl
  -- finished under the same aliases, the declarations still differ in their constants only
  have hfinal := finishedOf_eq h (o.knowing seeds)
  rw [haliases, hsame, Finish.declarations_withConstants _ _
    (constants_isCast o.knownDefines d'.defines) hcs] at hfinal
  refine ⟨_, _, documents_of_finished h hfinal, documents_of_finished h' (finishedOf_eq h' o),
    fun w hw => ?_⟩
  exact congrArg (fun r => Render.textOf r.trace) (Render.document_withConstants o _ _ hw)

/-- The constant of a symbol known from the start. -/
def seedConstant (name text : String) : Constant :=
  { name := .text name, type := { base := "string" }, value := stringLiteral text }

theorem seededConstants_insert {name : String} (hnew : known.contains name = false)
    (text : String) :
    seededConstants (known.insert name text) =
      seededConstants known ++ [seedConstant name text] := by
  rw [seededConstants, OrderedMap.insert_of_contains_eq_false hnew, List.map_append]
  rfl

/-! ## Seeds and defines -/

/-- The header with a further define, which comes first. -/
def defining (x : Define) (d : Header.Definitions) : Header.Definitions :=
  { d with defines := x :: d.defines }

/-- Two runs that know the same symbols, one from the start and one from its first define. -/
structure SameButConstant (o : Options) (seeds : Symbols) (d d' : Header.Definitions)
    (name : String) : Prop where
  /-- Every define has the same verdict and becomes the same constant. -/
  defines : ∀ i, constantAt seeds d.defines i = constantAt o.knownDefines d'.defines (i + 1)
  /-- The same guards let items through. -/
  included : Header.included (knownOf (o.knowing seeds) d) = Header.included (knownOf o d')
  /-- All other items are judged the same way. -/
  judged : JudgedAlike (o.knowing seeds) o (knownOf (o.knowing seeds) d) (knownOf o d')
  /-- The same declarations are built, except for the constant of the symbol, which has one place in
  both lists. -/
  declarations : ∃ (built : DeclarationSet) (front back : List Constant) (c c' : Constant),
    (declarations d (.start (o.knowing seeds))).result =
      .ok (built.withConstants (front ++ c :: back)) ∧
    (declarations d' (.start o)).result = .ok (built.withConstants (front ++ c' :: back)) ∧
    c.name = .text name ∧ c'.name = .text name
  /-- The same documents are written, except for the one with the constants. -/
  documents : ∃ text text' : Render.Document → String,
    (bindingOf (o.knowing seeds) d).documents =
      .ok ⟨Render.Document.all.map fun w => (o.documentName w.word, text w)⟩ ∧
    (bindingOf o d').documents =
      .ok ⟨Render.Document.all.map fun w => (o.documentName w.word, text' w)⟩ ∧
    ∀ w, w ≠ .constants → text w = text' w

/-- **A symbol that is known from the start tells the same as a first define of it.** -/
theorem sameButConstant_defining {d : Header.Definitions} (h : d.WellTyped) {x : Define}
    (hx : x.WellTyped) {name : String} (hname : x.name = .text name) (hguards : x.guards = [])
    {o : Options} (hnew : o.knownDefines.contains name = false) (text : String) :
    SameButConstant o (o.knownDefines.insert name text) d (defining x d) name := by
  obtain ⟨a, ha, hindex, hsymbol, haname⟩ := accepted?_unguarded hx hname hguards o.knownDefines 0
  have h' : (defining x d).WellTyped :=
    { h with defines := fun y hy => (List.mem_cons.mp hy).elim (· ▸ hx) (h.defines y) }
  -- after its first define the header goes on as from the seeds
  have hlearned : SameSymbols (o.knownDefines.insert name text) (learn o.knownDefines a) := by
    rw [learn, hsymbol]
    exact (SameSymbols.refl o.knownDefines).insert _ _ _
  have htaken : takenOf o.knownDefines (x :: d.defines) =
      a :: (takenOf (o.knownDefines.insert name text) d.defines).map (·.moved (· + 1)) := by
    rw [takenOf_cons hguards h.defines ha, takenOf_congr hlearned]
  have hknown : SameSymbols (knownAfter (o.knownDefines.insert name text) d.defines)
      (knownAfter o.knownDefines (x :: d.defines)) := by
    rw [knownAfter, knownAfter, htaken, List.foldl_cons, foldl_learn_moved]
    exact foldl_learn_congr hlearned _
  generalize hseeds : o.knownDefines.insert name text = seeds at *
  have hsame := builtDeclarations_congr h hknown
  have hcast := constants_isCast seeds d.defines
  -- its constant comes from the end of the table, or from the front of the defines
  have hconstants : seededConstants seeds ++
      inHeaderOrder d.defines.length (takenOf seeds d.defines) =
      seededConstants o.knownDefines ++ seedConstant name text ::
        inHeaderOrder d.defines.length (takenOf seeds d.defines) := by
    rw [List.append_cons, ← seededConstants_insert hnew, hseeds]
  have hconstants' : (builtDeclarations (.start o) (defining x d)).constants =
      seededConstants o.knownDefines ++ a.constant ::
        inHeaderOrder d.defines.length (takenOf seeds d.defines) := by
    rw [← inHeaderOrder_cons hindex, ← htaken]
    rfl
  obtain ⟨_, hruns⟩ := declarations_runs h (.start (o.knowing seeds))
  obtain ⟨_, hruns'⟩ := declarations_runs h' (.start o)
  have hfinal : SameSymbols (knownOf (o.knowing seeds) d) (knownOf o (defining x d)) := by
    rw [knownOf, knownOf, hruns.builder, hruns'.builder]
    exact hknown
  refine ⟨fun i => ?_, Header.included_congr hfinal, judgedAlike hfinal o seeds,
    ⟨builtDeclarations (.start o) (defining x d), seededConstants o.knownDefines,
      inHeaderOrder d.defines.length (takenOf seeds d.defines), seedConstant name text, a.constant,
      ?_, ?_, rfl, haname⟩, documents_congr h h' hcast hsame⟩
  · rw [constantAt_eq h.defines, constantAt_eq h'.defines, defining, htaken,
      find?_moved_succ hindex, Option.map_map]
    rfl
  · rw [hruns.result, hsame, hconstants]
    rfl
  · rw [hruns'.result, ← hconstants']
    rfl

/-- A define of a number. -/
def sizeDefine : Define := { name := "SIZE", content := some "0x40" }

/-- A header that asks for a symbol in guards at two depths, in a define that stands for it, and in
the bound of an array. -/
def bufferHeader : Header.Definitions where
  defines :=
    [{ name := "LIMIT", content := some "SIZE" },
     { name := "WIDE", content := some "2", guards := [⟨"ifdef", "SIZE"⟩] },
     { name := "DEEP", guards := [⟨"ifdef", "WIDE"⟩, ⟨"ifndef", "SIZE"⟩] }]
  structs :=
    [{ name := "Buffer", fields :=
        [{ name := "data", type := { description := .array (.user "Cell") (some "SIZE") } },
         { name := "rest", type := { description := .builtin "int" },
           guards := [⟨"ifndef", "SIZE"⟩] }] }]
  functions := [{ name := "flush", guards := [⟨"if", "defined(SIZE)"⟩] }]

theorem sameButConstant_defining_bufferHeader :
    bufferHeader.WellTyped ∧ sizeDefine.WellTyped ∧
      SameButConstant {} (defaultKnownDefines.insert "SIZE" "64") bufferHeader
        (defining sizeDefine bufferHeader) "SIZE" :=
  ⟨by decide, by decide,
    sameButConstant_defining (by decide) (by decide) rfl rfl (by decide +kernel) "64"⟩

end Build

end NativeBindings
