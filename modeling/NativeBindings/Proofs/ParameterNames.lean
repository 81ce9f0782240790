import Mathlib.Data.List.Nodup
import NativeBindings.Proofs.DelegateNames
import NativeBindings.Proofs.NothingLost

/-!
# Names of parameters

A parameter that is named like a reserved word gets an underscore in front, and a parameter of a
delegate without a name is called after its position. Both make up names, and nothing asks whether a
name is there already. So no parameter has the name of a reserved word in the end, but two can have
the same one, even if the header tells all of them apart.

It is said here exactly when they do. A name with an underscore meets another name only if that one
was written with the underscore, since no reserved word begins with one. A name by position meets
another only if that one was written like it.
-/

namespace NativeBindings

open Header (TypeDesc Signature)
open CSharp Build

/-! ## Reserved words -/

theorem escapeReserved_not_mem (name : String) : escapeReserved name ∉ reservedWords := by
  unfold escapeReserved
  split
  · exact underscore_not_mem_reservedWords name
  · assumption

/-- No reserved word is among the names together with itself behind an underscore. -/
def UnderscoresApart (names : List String) : Prop :=
  ∀ w ∈ reservedWords, w ∈ names → "_" ++ w ∉ names

/-- Names stay distinct exactly if no underscore makes one of them another. -/
theorem nodup_map_escapeReserved {names : List String} :
    (names.map escapeReserved).Nodup ↔ names.Nodup ∧ UnderscoresApart names := by
  constructor
  · intro h
    refine ⟨h.of_map, fun w hw hmem hmem' => ?_⟩
    have hsame : escapeReserved w = escapeReserved ("_" ++ w) :=
      escapeReserved_eq_iff.mpr (.inr (.inl ⟨hw, rfl⟩))
    have heq : w = "_" ++ w := List.inj_on_of_nodup_map h hmem hmem' hsame
    exact underscore_not_mem_reservedWords w (heq ▸ hw)
  · rintro ⟨hnames, hapart⟩
    refine hnames.map_on fun a ha b hb hsame => ?_
    rcases escapeReserved_eq_iff.mp hsame with heq | ⟨hw, rfl⟩ | ⟨hw, rfl⟩
    · exact heq
    · exact absurd hb (hapart a hw ha)
    · exact absurd ha (hapart b hw hb)

/-! ## Names that are there -/

/-- No two names that are there are the same. An empty name is not there. -/
def PresentDistinct (names : List String) : Prop := (names.filter fun name => name ≠ "").Nodup
  deriving Decidable

theorem PresentDistinct.of_sublist {names fewer : List String} (h : PresentDistinct names)
    (hsub : fewer.Sublist names) : PresentDistinct fewer :=
  List.Nodup.sublist (hsub.filter _) h

theorem PresentDistinct.getElem_ne {names : List String} (h : PresentDistinct names) {i j : Nat}
    (hij : i < j) (hj : j < names.length) (hne : names[i] ≠ "") : names[i] ≠ names[j] := by
  have hpairs := List.pairwise_iff_getElem.mp (List.pairwise_filter.mp h) i j (hij.trans hj) hj hij
  intro hsame
  exact hpairs (decide_eq_true hne) (decide_eq_true (hsame ▸ hne)) hsame

/-- Beside distinct names there may be one parameter without a name. -/
theorem PresentDistinct.nodup_iff {names : List String} (h : PresentDistinct names) :
    names.Nodup ↔ names.count "" ≤ 1 := by
  rw [List.nodup_iff_count_le_one]
  refine ⟨fun hcount => hcount "", fun hcount name => ?_⟩
  by_cases hname : name = ""
  · rw [hname]
    exact hcount
  · have hfilter := List.nodup_iff_count_le_one.mp h name
    have hcounted : (names.filter fun name => name ≠ "").count name = names.count name :=
      List.count_filter (decide_eq_true hname)
    rwa [hcounted] at hfilter

/-! ## Names by position -/

/-- What a parameter without a name is called. -/
def positionText (index : Nat) : String := "arg" ++ toString index

/-- The names of parameters from an index on, and names by position for those that have none. -/
def labelled (index : Nat) (names : List String) : List String :=
  (names.zipIdx index).map fun p => if p.1 = "" then positionText p.2 else p.1

theorem positionText_injective {i j : Nat} (h : positionText i = positionText j) : i = j := by
  have hrepr : i.repr = j.repr := (String.append_right_inj _).mp h
  have hdigits : Nat.toDigits 10 i = Nat.toDigits 10 j := by
    rw [← Nat.toList_repr, hrepr, Nat.toList_repr]
  rw [← Nat.ofDigitChars_ten_toDigits (n := i), hdigits, Nat.ofDigitChars_ten_toDigits]

theorem toList_positionText (i : Nat) :
    (positionText i).toList = 'a' :: 'r' :: 'g' :: (toString i).toList := by
  rw [positionText, String.toList_append]
  rfl

theorem positionText_ne_empty (i : Nat) : positionText i ≠ "" := by
  intro h
  have hchars := congrArg String.toList h
  rw [toList_positionText] at hchars
  exact absurd hchars (by simp)

/-- No name by position is reserved, -/
theorem positionText_not_reserved (i : Nat) : positionText i ∉ reservedWords := by
  have hall : ∀ w ∈ reservedWords, w.toList.take 3 ≠ ['a', 'r', 'g'] := by decide +kernel
  intro h
  refine hall _ h ?_
  rw [toList_positionText]
  rfl

/-- and none begins with an underscore. -/
theorem positionText_ne_underscore (i : Nat) (name : String) : positionText i ≠ "_" ++ name := by
  intro h
  have hchars := congrArg String.toList h
  rw [toList_positionText, String.toList_append] at hchars
  exact absurd (List.cons.inj hchars).1 (by decide)

section

variable {names : List String}

theorem getElem?_labelled (i : Nat) : (labelled 0 names)[i]? =
    names[i]?.map fun name => if name = "" then positionText i else name := by
  rw [labelled, List.getElem?_map, List.getElem?_zipIdx, Option.map_map]
  simp only [Nat.zero_add]
  rfl

/-- A name that is there and is not like one by position is a name of the header. -/
theorem mem_labelled {name : String} (hne : name ≠ "") (hposition : ∀ i, name ≠ positionText i) :
    name ∈ labelled 0 names ↔ name ∈ names := by
  rw [List.mem_iff_getElem?, List.mem_iff_getElem?]
  refine exists_congr fun i => ?_
  rw [getElem?_labelled, Option.map_eq_some_iff]
  constructor
  · rintro ⟨given, hgiven, hlabel⟩
    split at hlabel
    · exact absurd hlabel.symm (hposition i)
    · rw [hgiven, hlabel]
  · intro hgiven
    exact ⟨name, hgiven, if_neg hne⟩

/-- Names by position have no part in what underscores do. -/
theorem underscoresApart_labelled :
    UnderscoresApart (labelled 0 names) ↔ UnderscoresApart names := by
  refine forall₂_congr fun w hw => ?_
  have hword : w ∈ labelled 0 names ↔ w ∈ names := by
    refine mem_labelled (fun hempty => ?_) fun i hi => positionText_not_reserved i (hi ▸ hw)
    exact absurd (hempty ▸ hw) (by decide)
  have hunderscore : "_" ++ w ∈ labelled 0 names ↔ "_" ++ w ∈ names := by
    refine mem_labelled (fun hempty => ?_) fun i hi => positionText_ne_underscore i w hi.symm
    have hchars := congrArg String.toList hempty
    rw [String.toList_append] at hchars
    exact absurd hchars (by simp)
  rw [hword, hunderscore]

/-- Names by position leave names distinct exactly if none of the others is written like them. -/
theorem nodup_labelled (h : PresentDistinct names) : (labelled 0 names).Nodup ↔
    ∀ i : Nat, names[i]? = some "" → positionText i ∉ names := by
  constructor
  · intro hlabels i hi hmem
    obtain ⟨j, hj⟩ := List.mem_iff_getElem?.mp hmem
    have hsame : (labelled 0 names)[i]? = (labelled 0 names)[j]? := by
      rw [getElem?_labelled, getElem?_labelled, hi, hj]
      simp [positionText_ne_empty]
    have hlength : i < (labelled 0 names).length := by
      rw [labelled, List.length_map, List.length_zipIdx]
      exact (List.getElem?_eq_some_iff.mp hi).1
    have hij := (List.getElem?_inj hlength hlabels).mp hsame
    rw [hij, hj] at hi
    exact positionText_ne_empty i (Option.some.inj hi)
  · intro hposition
    rw [List.nodup_iff_getElem?_ne_getElem?]
    intro i j hij hj hsame
    have hlength : j < names.length := by rwa [labelled, List.length_map, List.length_zipIdx] at hj
    have hi' := List.getElem?_eq_getElem (hij.trans hlength)
    have hj' := List.getElem?_eq_getElem hlength
    rw [getElem?_labelled, getElem?_labelled, hi', hj', Option.map_some, Option.map_some,
      Option.some.injEq] at hsame
    split at hsame
    · rename_i hempty
      rw [hempty] at hi'
      split at hsame
      · exact absurd (positionText_injective hsame) (Nat.ne_of_lt hij)
      · exact hposition i hi' (hsame ▸ List.getElem_mem hlength)
    · rename_i hne
      split at hsame
      · rename_i hempty
        rw [hempty] at hj'
        exact hposition j hj' (hsame ▸ List.getElem_mem _)
      · exact h.getElem_ne hij hlength hne hsame

end

/-! ## Arguments that are built -/

/-- The argument that is built for a parameter has the parameter's name, escaped. -/
def NamedAfter (name : String) (a : Argument) : Prop := a.name = .text (escapeReserved name)

theorem namedAfter_of_parameterName {name : Leaf} (h : name.IsText) {a : Argument}
    (ha : parameterName name = .ok a.name) : NamedAfter name.display a := by
  obtain ⟨s, rfl⟩ := h.exists
  exact (Except.ok.inj ha).symm

theorem map_display_of_namedAfter {names : List String} {as : List Argument}
    (h : List.Forall₂ NamedAfter names as) :
    as.map (·.name.display) = names.map escapeReserved := by
  induction h with
  | nil => rfl
  | cons ha _ ih =>
      rw [List.map_cons, List.map_cons, ih, ha]
      rfl

/-! ### Of functions -/

theorem builtArgument?_name {native : NativeTypes} {o : Options} {function : Leaf}
    {a : Header.Argument} {b : BuiltArgument} (h : builtArgument? native o function a = some b) :
    parameterName a.name = .ok b.argument.name := by
  rw [builtArgument?, Option.join_eq_some_iff, Traced.value?_eq_some] at h
  have himage := argumentOf_gives native o function a _ h (List.Subset.refl _)
  exact himage.argument.name

/-- The names of the arguments of a function that are built. -/
def builtNames (native : NativeTypes) (o : Options) (f : Header.Function) : List String :=
  (trimFunction native o f).arguments.map (·.name.display)

theorem keptArguments_named {native : NativeTypes} {o : Options} {function : Leaf}
    {as : List Header.Argument} (h : ∀ a ∈ as, a.name.IsText) : List.Forall₂ NamedAfter
      ((as.filter fun a => (builtArgument? native o function a).isSome).map (·.name.display))
      ((keptArguments native o function as).map (·.argument)) := by
  induction as with
  | nil => exact .nil
  | cons a rest ih =>
      have hrest := ih fun x hx => h x (List.mem_cons_of_mem a hx)
      rw [keptArguments, List.filterMap_cons, List.filter_cons]
      cases hb : builtArgument? native o function a with
      | none => exact hrest
      | some b =>
          have hnamed := namedAfter_of_parameterName (h a List.mem_cons_self)
            (builtArgument?_name hb)
          exact .cons hnamed hrest

/-! ### Of delegates -/

/-- The name of a parameter as the header gives it; it is empty if there is none. -/
def givenName : TypeDesc → String
  | .named name _ => ((Leaf.ofOption name).orElse "").display
  | _ => ""

/-- If a parameter has a name, it is a text. -/
def HasTextName : TypeDesc → Prop
  | .named name _ => Leaf.IsTextOrMissing name
  | _ => True

instance : DecidablePred HasTextName
  | .named name _ => inferInstanceAs (Decidable (Leaf.IsTextOrMissing name))
  | .builtin _ | .user _ | .pointer _ | .array _ _ | .function _ _ | .unsupported _ =>
    .isTrue trivial

theorem parameterLabel_eq {t : TypeDesc} (h : HasTextName t) (index : Nat) :
    parameterLabel t index =
      .text (if givenName t = "" then positionText index else givenName t) := by
  cases t with
  | named name inner =>
      cases name with
      | none => rfl
      | some name =>
          obtain ⟨s, rfl⟩ := Leaf.IsText.exists h
          by_cases hs : s = ""
          · rw [hs]
            rfl
          · have hvacant : (Leaf.text s).isVacant = false := by
              rwa [Leaf.isVacant, Leaf.toJson, Json.isVacant, String.isEmpty_eq_false_iff]
            have hpresent : ∀ other : Leaf, (Leaf.text s).orElse other = .text s := by
              intro other
              rw [Leaf.orElse, hvacant]
              rfl
            rw [parameterLabel, givenName, Leaf.ofOption, hpresent, hpresent]
            exact congrArg Leaf.text (if_neg hs).symm
  | _ => rfl

theorem delegateParameter_named (native : NativeTypes) (delegate : Leaf) (index : Nat)
    (t : TypeDesc) (notices : List Notice) :
    (delegateParameter native delegate index t).Gives notices fun a =>
      parameterName (parameterLabel t index) = .ok a.name := by
  unfold delegateParameter
  split
  · exact .after fun _ => .afterExcept fun _ hname => .pure hname
  · rename_i hnamed
    have hlabel : parameterLabel t index = positionalName index := by
      cases t with
      | named name inner => exact absurd rfl (hnamed name inner)
      | _ => rfl
    rw [hlabel]
    exact .afterReport fun _ => .after fun _ => .afterExcept fun _ hname => .pure hname

theorem delegateParameters_named {native : NativeTypes} {delegate : Leaf} {index : Nat}
    {ts : List TypeDesc} (h : ∀ t ∈ ts, HasTextName t) {notices : List Notice} :
    (delegateParameters native delegate index ts).Gives notices
      (List.Forall₂ NamedAfter (labelled index (ts.map givenName))) := by
  induction ts generalizing index with
  | nil => exact .pure .nil
  | cons t rest ih =>
      rw [delegateParameters]
      refine .bind (delegateParameter_named native delegate index t notices) fun a ha => ?_
      refine .bind (ih fun u hu => h u (List.mem_cons_of_mem t hu)) fun as has => .pure ?_
      rw [parameterLabel_eq (h t List.mem_cons_self)] at ha
      exact .cons (Except.ok.inj ha).symm has

theorem delegateOf_named {native : NativeTypes} {o : Options} {name : Leaf} {s : Signature}
    {d : Delegate} (hd : (delegateOf native o name s).result = .ok d)
    (h : ∀ t ∈ s.parameters, HasTextName t) :
    List.Forall₂ NamedAfter (labelled 0 (s.parameters.map givenName)) d.arguments := by
  have hgives : (delegateOf native o name s).Gives (delegateOf native o name s).trace
      fun d => List.Forall₂ NamedAfter (labelled 0 (s.parameters.map givenName)) d.arguments :=
    .after fun _ => .bind (delegateParameters_named h) fun _ has => .pure has
  exact hgives d hd (List.Subset.refl _)

/-! ## Safe names -/

/-- No argument is named like a reserved word, and their names are distinct exactly under a
condition. -/
structure NamedSafely (arguments : List Argument) (condition : Prop) : Prop where
  unreserved : ∀ a ∈ arguments, a.name.display ∉ reservedWords
  distinct : (arguments.map (·.name.display)).Nodup ↔ condition

theorem NamedSafely.of_named {names : List String} {as : List Argument}
    (h : List.Forall₂ NamedAfter names as) :
    NamedSafely as (names.Nodup ∧ UnderscoresApart names) where
  unreserved := by
    have hnames : ∀ name ∈ as.map (·.name.display), name ∉ reservedWords := by
      rw [map_display_of_namedAfter h, List.forall_mem_map]
      exact fun name _ => escapeReserved_not_mem name
    exact fun a ha => hnames _ (List.mem_map_of_mem ha)
  distinct := by
    rw [map_display_of_namedAfter h]
    exact nodup_map_escapeReserved

/-- The names of a function's arguments do not meet. -/
structure ArgumentsApart (names : List String) : Prop where
  /-- One argument may be without a name, and has none then. -/
  unnamed : names.count "" ≤ 1
  /-- A reserved word gets an underscore. Then it is not another argument. -/
  underscores : UnderscoresApart names

/-- The names of a delegate's parameters do not meet. -/
structure ParametersApart (names : List String) : Prop where
  /-- A parameter without a name is called by its position. Then it is not another one. -/
  positions : ∀ i : Nat, names[i]? = some "" → positionText i ∉ names
  /-- A reserved word gets an underscore. Then it is not another parameter. -/
  underscores : UnderscoresApart names

theorem arguments_namedSafely {known : Symbols} {native : NativeTypes} {o : Options}
    {f : Header.Function} {b : BuiltFunction}
    (hb : (judgeFunction known native o f).result = .ok (.accepted b))
    (htext : ∀ a ∈ f.arguments, a.name.IsText)
    (hdistinct : PresentDistinct (f.arguments.map (·.name.display))) :
    NamedSafely b.function.arguments (ArgumentsApart (builtNames native o f)) := by
  obtain ⟨-, -, rfl⟩ := functionVerdict_eq_accepted.mp (judgeFunction_of_ok hb).symm
  obtain ⟨hunreserved, hnodup⟩ := NamedSafely.of_named (keptArguments_named (o := o) htext)
  refine ⟨hunreserved, hnodup.trans ?_⟩
  rw [(hdistinct.of_sublist (List.filter_sublist.map _)).nodup_iff]
  exact ⟨fun h => ⟨h.1, h.2⟩, fun h => ⟨h.unnamed, h.underscores⟩⟩

theorem parameters_namedSafely {native : NativeTypes} {o : Options} {name : Leaf} {s : Signature}
    {d : Delegate} (hd : (delegateOf native o name s).result = .ok d)
    (htext : ∀ t ∈ s.parameters, HasTextName t)
    (hdistinct : PresentDistinct (s.parameters.map givenName)) :
    NamedSafely d.arguments (ParametersApart (s.parameters.map givenName)) := by
  obtain ⟨hunreserved, hnodup⟩ := NamedSafely.of_named (delegateOf_named hd htext)
  refine ⟨hunreserved, hnodup.trans ?_⟩
  rw [nodup_labelled hdistinct, underscoresApart_labelled]
  exact ⟨fun h => ⟨h.1, h.2⟩, fun h => ⟨h.positions, h.underscores⟩⟩

/-- Finishing leaves the names of arguments as they are. -/
theorem NamedSafely.resolved {as : List Argument} {condition : Prop} (h : NamedSafely as condition)
    (aliases : Aliases) : NamedSafely (as.map (Finish.resolveArgument aliases)) condition where
  unreserved := List.forall_mem_map.mpr h.unreserved
  distinct := by
    rw [List.map_map]
    exact h.distinct

/-- **Arguments are never named like reserved words, and where the names that the header gives are
distinct, they are named apart exactly if no name that is made up meets one that is given.** Of a
function the arguments count that are built. What holds of the built ones holds of the finished
ones. -/
theorem argumentNames_safe (native : NativeTypes) (o : Options) :
    (∀ (known : Symbols) (f : Header.Function) (b : BuiltFunction),
      (judgeFunction known native o f).result = .ok (.accepted b) →
      (∀ a ∈ f.arguments, a.name.IsText) → PresentDistinct (f.arguments.map (·.name.display)) →
      NamedSafely b.function.arguments (ArgumentsApart (builtNames native o f)) ∧
        ∀ aliases, NamedSafely (Finish.function o aliases b.function).arguments
          (ArgumentsApart (builtNames native o f))) ∧
    ∀ (name : Leaf) (s : Signature) (d : Delegate), (delegateOf native o name s).result = .ok d →
      (∀ t ∈ s.parameters, HasTextName t) → PresentDistinct (s.parameters.map givenName) →
      NamedSafely d.arguments (ParametersApart (s.parameters.map givenName)) ∧
        ∀ aliases, NamedSafely (Finish.delegate o aliases d).arguments
          (ParametersApart (s.parameters.map givenName)) := by
  constructor
  · intro known f b hb htext hdistinct
    have hbuilt := arguments_namedSafely hb htext hdistinct
    exact ⟨hbuilt, hbuilt.resolved⟩
  · intro name s d hd htext hdistinct
    have hbuilt := parameters_namedSafely hd htext hdistinct
    exact ⟨hbuilt, hbuilt.resolved⟩

/-- A number under a name. -/
def numberNamed (name : String) : Header.Argument :=
  { name, type := some { description := .builtin "int" } }

/-- A function with reserved words for names, one argument without a name, and one that is not built
because it has no type. -/
def drawFunction : Header.Function where
  name := "draw"
  arguments := [numberNamed "in", numberNamed "", { name := "_in" }, numberNamed "out"]

/-- The same for a delegate, where a parameter without a name is called by its position. -/
def drawSignature : Signature where
  returnType := .builtin "void"
  parameters := [.named (some "in") (.builtin "int"), .builtin "int",
    .named (some "arg0") (.builtin "int")]

/-- A function is accepted if it is included and has no variadic argument list. -/
theorem judgeFunction_accepted {f : Header.Function} (h : f.WellTyped) {known : Symbols}
    {native : NativeTypes} {o : Options} (hincluded : isIncluded known f.guards = true)
    (hvariadic : isVariadicFunction native o f = false) :
    (judgeFunction known native o f).result = .ok (.accepted (builtFunction native o f)) := by
  rw [judgeFunction_eq h, functionVerdict_eq_accepted.mpr ⟨hincluded, hvariadic, rfl⟩]

theorem argumentNames_safe_draw :
    (∃ b, (judgeFunction ∅ nativeTypes {} drawFunction).result = .ok (.accepted b) ∧
      (∀ a ∈ drawFunction.arguments, a.name.IsText) ∧
      PresentDistinct (drawFunction.arguments.map (·.name.display)) ∧
      NamedSafely b.function.arguments (ArgumentsApart (builtNames nativeTypes {} drawFunction))) ∧
    ∃ d, (delegateOf nativeTypes {} "Draw" drawSignature).result = .ok d ∧
      (∀ t ∈ drawSignature.parameters, HasTextName t) ∧
      PresentDistinct (drawSignature.parameters.map givenName) ∧
      NamedSafely d.arguments (ParametersApart (drawSignature.parameters.map givenName)) := by
  have hb : (judgeFunction ∅ nativeTypes {} drawFunction).result =
      .ok (.accepted (builtFunction nativeTypes {} drawFunction)) :=
    judgeFunction_accepted (by decide) (by decide) (by decide)
  obtain ⟨d, hd, -⟩ := delegateOf_made (s := drawSignature) (by decide) (by decide) nativeTypes {}
    "Draw"
  exact ⟨⟨_, hb, by decide, by decide,
      ((argumentNames_safe nativeTypes {}).1 ∅ drawFunction _ hb (by decide) (by decide)).1⟩,
    d, hd, by decide, by decide,
      ((argumentNames_safe nativeTypes {}).2 "Draw" drawSignature d hd (by decide) (by decide)).1⟩

/-- A function with a reserved word and the same word behind an underscore. -/
def underscoredFunction : Header.Function where
  name := "f"
  arguments := [numberNamed "in", numberNamed "_in"]

/-- A signature with a parameter that is named like the position of another one. -/
def countedSignature : Signature where
  returnType := .builtin "void"
  parameters := [.builtin "int", .named (some "arg0") (.builtin "int")]

/-- The header tells all names apart, and in the end two are the same: in a function by an
underscore, in a delegate by a position. -/
theorem madeUpNames_not_nodup :
    (∃ b, (judgeFunction ∅ nativeTypes {} underscoredFunction).result = .ok (.accepted b) ∧
      (∀ name ∈ underscoredFunction.arguments.map (·.name), name.display ≠ "") ∧
      (underscoredFunction.arguments.map (·.name)).Nodup ∧
      ¬(b.function.arguments.map (·.name.display)).Nodup) ∧
    ∃ d, (delegateOf nativeTypes {} "Hook" countedSignature).result = .ok d ∧
      PresentDistinct (countedSignature.parameters.map givenName) ∧
      ¬(d.arguments.map (·.name.display)).Nodup := by
  have hb : (judgeFunction ∅ nativeTypes {} underscoredFunction).result =
      .ok (.accepted (builtFunction nativeTypes {} underscoredFunction)) :=
    judgeFunction_accepted (by decide) (by decide) (by decide)
  obtain ⟨d, hd, -⟩ := delegateOf_made (s := countedSignature) (by decide) (by decide) nativeTypes
    {} "Hook"
  refine ⟨⟨_, hb, by decide, by decide, ?_⟩, d, hd, by decide, ?_⟩
  · rw [(arguments_namedSafely hb (by decide) (by decide)).distinct]
    intro hapart
    exact hapart.underscores "in" (by decide) (by decide) (by decide)
  · rw [(parameters_namedSafely hd (by decide) (by decide)).distinct]
    intro hapart
    exact hapart.positions 0 rfl (by decide)

end NativeBindings
