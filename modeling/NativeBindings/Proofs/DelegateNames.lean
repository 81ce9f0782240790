import NativeBindings.Proofs.HoistedDelegates

/-!
# Names of delegates

A delegate is named where it is made: after the typedef, after the field, or after the
function and the argument, one behind the other. Only then do all delegates come together
in one list, where nothing asks whether a name is there already. So even where a header
names everything apart, two delegates can have one name. A field has the name of a field in
another struct, or a name ends where another one begins.

The ways in which this happens are listed here. Where none of them does, the names of
delegates are distinct.
-/

namespace NativeBindings

open Header (TypeDesc)
open CSharp Build

/-! ## Callbacks of a header -/

/-- The arguments that are function pointers, each with its function. -/
def callbackArguments (o : Options) (d : Header.Definitions) :
    List (Header.Function × Header.Argument) :=
  (writtenFunctions o d).flatMap fun f =>
    (f.arguments.filter fun a => (argumentSignature? a).isSome).map (f, ·)

/-- The typedefs of function pointers. -/
def callbackTypedefs (o : Options) (d : Header.Definitions) : List Header.Typedef :=
  (includedItems (knownOf o d) (·.guards) d.typedefs).filter fun t => (typedefSignature? t).isSome

/-- The fields that are function pointers, each with its struct. -/
def callbackFields (o : Options) (d : Header.Definitions) :
    List (Header.Struct × Header.Field) :=
  (includedItems (knownOf o d) (·.guards) d.structs).flatMap fun s =>
    ((includedItems (knownOf o d) (·.guards) s.fields).filter fun f =>
      (fieldSignature? f).isSome).map (s, ·)

/-- What the delegate of an argument is named after: the function and the argument. -/
def argumentCallbackName (p : Header.Function × Header.Argument) : String :=
  p.1.name.display ++ escapeReserved p.2.name.display

/-! ## Names of a header -/

/-- Items of a kind have different names, and so have the parts of an item. -/
structure NamesDistinct (d : Header.Definitions) : Prop where
  typedefs : (d.typedefs.map (·.name)).Nodup
  functions : (d.functions.map (·.name)).Nodup
  arguments : ∀ f ∈ d.functions, (f.arguments.map (·.name)).Nodup
  structs : (d.structs.map (·.name)).Nodup
  fields : ∀ s ∈ d.structs, (s.fields.map (·.name)).Nodup

/-- A function pointer carries the name of the typedef or the field that it belongs to. -/
structure WrappedByName (d : Header.Definitions) : Prop where
  typedefs : ∀ t ∈ d.typedefs, ∀ p ∈ t.type.description.functionPointer?, p.1 = t.name
  fields : ∀ s ∈ d.structs, ∀ f ∈ s.fields, ∀ p ∈ f.type.description.functionPointer?, p.1 = f.name

/-- No two callbacks of the header lead to the same name. -/
structure CallbacksApart (o : Options) (d : Header.Definitions) : Prop where
  /-- A reserved word gets an underscore. Then it is not another argument of its function. -/
  arguments : ∀ p ∈ callbackArguments o d, ∀ q ∈ callbackArguments o d, p.1.name = q.1.name →
    p.2.name.display ∈ reservedWords → q.2.name.display ≠ "_" ++ p.2.name.display
  /-- The names of a function and its argument do not run together to those of another. -/
  functions : ∀ p ∈ callbackArguments o d, ∀ q ∈ callbackArguments o d, p.1.name ≠ q.1.name →
    argumentCallbackName p ≠ argumentCallbackName q
  /-- Different structs have different callbacks. -/
  structs : ∀ p ∈ callbackFields o d, ∀ q ∈ callbackFields o d, p.1.name ≠ q.1.name →
    p.2.name ≠ q.2.name
  /-- No field is named like a function and its argument together. -/
  argumentField : ∀ p ∈ callbackArguments o d, ∀ q ∈ callbackFields o d,
    argumentCallbackName p ≠ q.2.name.display
  /-- No typedef is named like the delegate of an argument, -/
  argumentTypedef : ∀ p ∈ callbackArguments o d, ∀ t ∈ callbackTypedefs o d,
    argumentCallbackName p ++ "Delegate" ≠ t.name.display
  /-- or like that of a field. -/
  typedefField : ∀ t ∈ callbackTypedefs o d, ∀ p ∈ callbackFields o d,
    t.name.display ≠ p.2.name.display ++ "Delegate"

/-! ## Names of delegates -/

/-- Texts that are shown alike are the same. -/
theorem Leaf.IsText.eq_of_display {l l' : Leaf} (h : l.IsText) (h' : l'.IsText)
    (hdisplay : l.display = l'.display) : l = l' := by
  obtain ⟨s, rfl⟩ := h.exists
  obtain ⟨s', rfl⟩ := h'.exists
  exact congrArg Leaf.text hdisplay

/-- Names that belong to the items with a property. -/
theorem map_filterMap_eq_map_filter {α β γ : Type} {f : α → Option β} {name : β → γ} {p : α → Bool}
    {g : α → γ} {l : List α}
    (h : ∀ a ∈ l, (f a).map name = if p a then some (g a) else none) :
    (l.filterMap f).map name = (l.filter p).map g := by
  rw [List.map_filterMap, List.filterMap_congr h, ← List.filterMap_eq_map, List.filterMap_filter]
  rfl

theorem argumentHook?_name {a : Header.Argument} (h : a.WellTyped) (function : Leaf) :
    (argumentHook? function a).map (·.name) = if (argumentSignature? a).isSome then
      some (.text (delegateName (.text (function.display ++ escapeReserved a.name.display))))
    else none := by
  cases hp : (describedBy a.type).functionPointer? with
  | none =>
      rw [argumentHook?_eq_none hp, argumentSignature?, hp]
      rfl
  | some p =>
      obtain ⟨wrapper, s⟩ := p
      obtain ⟨n, hn⟩ := h.1.exists
      obtain ⟨t, ht⟩ : ∃ t, a.type = some t := by
        cases ht : a.type with
        | none =>
            rw [ht] at hp
            cases hp
        | some t => exact ⟨t, rfl⟩
      have hname : parameterName a.name = .ok (.text (escapeReserved n)) := by
        rw [hn]
        rfl
      have hp' : t.description.functionPointer? = some (wrapper, s) := by
        rw [ht] at hp
        exact hp
      rw [argumentHook?_of_functionPointer ht hp' hname, argumentSignature?, hp, hn]
      rfl

theorem Leaf.orElse_self {l other : Leaf} (h : l = other) : l.orElse other = other := by
  rw [orElse, h, ite_self]

theorem typedefHook?_name {t : Header.Typedef}
    (h : ∀ p ∈ t.type.description.functionPointer?, p.1 = t.name) :
    (typedefHook? t).map (·.name) =
      if (typedefSignature? t).isSome then some t.name else none := by
  cases hp : t.type.description.functionPointer? with
  | none =>
      rw [typedefHook?_eq_none hp, typedefSignature?, hp]
      rfl
  | some p =>
      rw [typedefHook?_of_functionPointer hp, typedefSignature?, hp, Leaf.orElse_self (h p hp)]
      rfl

theorem fieldHook?_name {f : Header.Field}
    (h : ∀ p ∈ f.type.description.functionPointer?, p.1 = f.name) :
    (fieldHook? f).map (·.name) =
      if (fieldSignature? f).isSome then some (.text (delegateName f.name)) else none := by
  cases ha : isArrayField f with
  | true =>
      rw [fieldHook?_of_array ha, fieldSignature?, ha]
      rfl
  | false =>
      cases hp : f.type.description.functionPointer? with
      | none =>
          rw [fieldHook?_eq_none hp, fieldSignature?, hp, ha]
          rfl
      | some p =>
          rw [fieldHook?_of_functionPointer ha hp, fieldSignature?, hp, ha,
            Leaf.orElse_self (h p hp)]
          rfl

section

variable {d : Header.Definitions} (o : Options)

/-- **The names of callbacks are those of arguments, of typedefs and of fields.** -/
theorem hooks_names (h : d.WellTyped) (hw : WrappedByName d) :
    (hooks o d).map (·.name) =
      (callbackArguments o d).map
          (fun p => .text (delegateName (.text (argumentCallbackName p)))) ++
        (callbackTypedefs o d).map (·.name) ++
          (callbackFields o d).map (fun p => .text (delegateName p.2.name)) := by
  have harguments : ((writtenFunctions o d).flatMap fun f =>
      f.arguments.filterMap (argumentHook? f.name)).map (·.name) =
      (callbackArguments o d).map
        (fun p => .text (delegateName (.text (argumentCallbackName p)))) := by
    rw [callbackArguments, List.map_flatMap, List.map_flatMap]
    refine List.flatMap_congr fun f hf => ?_
    have hwell := h.functions f (mem_acceptedAmong hf)
    rw [map_filterMap_eq_map_filter fun a ha => argumentHook?_name (hwell.2.2.1 a ha) f.name,
      List.map_map]
    rfl
  have htypedefs : ((includedItems (knownOf o d) (·.guards) d.typedefs).filterMap
      typedefHook?).map (·.name) = (callbackTypedefs o d).map (·.name) :=
    map_filterMap_eq_map_filter fun t ht =>
      typedefHook?_name (hw.typedefs t (List.mem_filter.mp ht).1)
  have hfields : ((includedItems (knownOf o d) (·.guards) d.structs).flatMap fun s =>
      (includedItems (knownOf o d) (·.guards) s.fields).filterMap fieldHook?).map (·.name) =
      (callbackFields o d).map (fun p => .text (delegateName p.2.name)) := by
    rw [callbackFields, List.map_flatMap, List.map_flatMap]
    refine List.flatMap_congr fun s hs => ?_
    have hnames : ∀ f ∈ includedItems (knownOf o d) (·.guards) s.fields,
        (fieldHook? f).map (·.name) =
          if (fieldSignature? f).isSome then some (.text (delegateName f.name)) else none :=
      fun f hf =>
        fieldHook?_name (hw.fields s (List.mem_filter.mp hs).1 f (List.mem_filter.mp hf).1)
    rw [map_filterMap_eq_map_filter hnames, List.map_map]
    rfl
  rw [hooks, List.map_append, List.map_append, harguments, htypedefs, hfields]

/-- The delegates in the end have the names of the callbacks, in their order. -/
theorem delegates_names (h : d.WellTyped) {final : DeclarationSet}
    (hfinal : finishedOf o d = .ok final) :
    final.delegates.map (·.name) = (hooks o d).map (·.name) := by
  rw [finishedOf_eq h] at hfinal
  injection hfinal with hfinal
  subst hfinal
  have hnames : List.Forall₂ (fun hook (x : Delegate) => hook.name = x.name) (hooks o d)
      (Finish.allDelegates (builtDeclarations (.start o) d)) :=
    (forall₂_hooks h o).imp fun _ _ hx => hx.name.symm
  have hbuilt : (hooks o d).map (·.name) =
      (Finish.allDelegates (builtDeclarations (.start o) d)).map (·.name) := by
    rw [← List.forall₂_eq_eq_eq, List.forall₂_map_left_iff, List.forall₂_map_right_iff]
    exact hnames
  rw [hbuilt]
  exact List.map_map

end

/-! ## Distinct names -/

/-- No reserved word is another one with an underscore. -/
theorem underscore_not_mem_reservedWords (name : String) : "_" ++ name ∉ reservedWords := by
  have hfirst : ∀ w ∈ reservedWords, w.toList.head? ≠ some '_' := by decide +kernel
  intro hmem
  refine hfirst _ hmem ?_
  rw [String.toList_append]
  rfl

/-- So only these names become equal. -/
theorem escapeReserved_eq_iff {a b : String} : escapeReserved a = escapeReserved b ↔
    a = b ∨ (a ∈ reservedWords ∧ b = "_" ++ a) ∨ (b ∈ reservedWords ∧ a = "_" ++ b) := by
  unfold escapeReserved
  by_cases ha : a ∈ reservedWords
  · by_cases hb : b ∈ reservedWords
    · rw [if_pos ha, if_pos hb, String.append_right_inj]
      refine ⟨.inl, fun h => ?_⟩
      rcases h with h | ⟨_, rfl⟩ | ⟨_, rfl⟩
      · exact h
      · exact absurd hb (underscore_not_mem_reservedWords a)
      · exact absurd ha (underscore_not_mem_reservedWords b)
    · rw [if_pos ha, if_neg hb]
      refine ⟨fun h => .inr (.inl ⟨ha, h.symm⟩), fun h => ?_⟩
      rcases h with rfl | ⟨_, h⟩ | ⟨hb', _⟩
      · exact absurd ha hb
      · exact h.symm
      · exact absurd hb' hb
  · by_cases hb : b ∈ reservedWords
    · rw [if_neg ha, if_pos hb]
      refine ⟨fun h => .inr (.inr ⟨hb, h⟩), fun h => ?_⟩
      rcases h with rfl | ⟨ha', _⟩ | ⟨_, h⟩
      · exact absurd hb ha
      · exact absurd ha' ha
      · exact h
    · rw [if_neg ha, if_neg hb]
      refine ⟨.inl, fun h => ?_⟩
      rcases h with h | ⟨ha', _⟩ | ⟨hb', _⟩
      · exact h
      · exact absurd ha' ha
      · exact absurd hb' hb

/-- Members of different owners, and different members of an owner, differ in both names. -/
theorem nodup_owned {ο μ κ ν : Type} {owners : List ο} {members : ο → List μ} {name : ο → κ}
    {memberName : μ → ν} (howners : (owners.map name).Nodup)
    (hmembers : ∀ x ∈ owners, ((members x).map memberName).Nodup) :
    ((owners.flatMap fun x => (members x).map (x, ·)).map fun p =>
      (name p.1, memberName p.2)).Nodup := by
  rw [List.map_flatMap, List.nodup_flatMap]
  constructor
  · intro x hx
    rw [List.map_map]
    have hpair : ((fun p : ο × μ => (name p.1, memberName p.2)) ∘ (x, ·)) =
        (name x, ·) ∘ memberName := rfl
    rw [hpair, ← List.map_map]
    exact (hmembers x hx).map fun _ _ h => (Prod.mk.inj h).2
  · refine (List.pairwise_map.mp howners).imp fun hne => ?_
    intro k hx hy
    obtain ⟨p, hp, rfl⟩ := List.mem_map.mp hx
    obtain ⟨m, _, rfl⟩ := List.mem_map.mp hp
    obtain ⟨q, hq, hsame⟩ := List.mem_map.mp hy
    obtain ⟨m', _, rfl⟩ := List.mem_map.mp hq
    exact hne (Prod.mk.inj hsame).1.symm

/-- Where items have keys that are distinct, their names are if different keys have different
names. -/
theorem nodup_map_iff_of_keys {α κ ν : Type} {key : α → κ} {name : α → ν} {l : List α}
    (h : (l.map key).Nodup) : (l.map name).Nodup ↔
      ∀ p ∈ l, ∀ q ∈ l, key p ≠ key q → name p ≠ name q := by
  rw [List.nodup_map_iff_inj_on h.of_map]
  constructor
  · intro hinj p hp q hq hkey hname
    exact hkey (congrArg key (hinj p hp q hq hname))
  · intro hkeys p hp q hq hname
    by_contra hne
    exact hkeys p hp q hq (fun hkey => hne (List.inj_on_of_nodup_map h hp hq hkey)) hname

section

variable {d : Header.Definitions} (h : NamesDistinct d) (o : Options)

include h

theorem NamesDistinct.callbackArguments :
    ((callbackArguments o d).map fun p => (p.1.name, p.2.name)).Nodup := by
  have hfunctions : ((writtenFunctions o d).map (·.name)).Nodup :=
    h.functions.sublist (List.filter_sublist.map _)
  exact nodup_owned hfunctions fun f hf =>
    (h.arguments f (mem_acceptedAmong hf)).sublist (List.filter_sublist.map _)

theorem NamesDistinct.callbackTypedefs : ((callbackTypedefs o d).map (·.name)).Nodup :=
  h.typedefs.sublist ((List.filter_sublist.trans List.filter_sublist).map _)

theorem NamesDistinct.callbackFields :
    ((callbackFields o d).map fun p => (p.1.name, p.2.name)).Nodup := by
  have hstructs : ((includedItems (knownOf o d) (·.guards) d.structs).map (·.name)).Nodup :=
    h.structs.sublist (List.filter_sublist.map _)
  exact nodup_owned hstructs fun s hs =>
    (h.fields s (List.mem_filter.mp hs).1).sublist
      ((List.filter_sublist.trans List.filter_sublist).map _)

end

section

variable {d : Header.Definitions} {o : Options}

theorem isText_of_callbackArguments (h : d.WellTyped) {p : Header.Function × Header.Argument}
    (hp : p ∈ callbackArguments o d) : p.2.name.IsText := by
  obtain ⟨f, hf, hp⟩ := List.mem_flatMap.mp hp
  obtain ⟨a, ha, rfl⟩ := List.mem_map.mp hp
  exact ((h.functions f (mem_acceptedAmong hf)).2.2.1 a (List.mem_filter.mp ha).1).1

theorem isText_of_callbackFields (h : d.WellTyped) {p : Header.Struct × Header.Field}
    (hp : p ∈ callbackFields o d) : p.2.name.IsText := by
  obtain ⟨s, hs, hp⟩ := List.mem_flatMap.mp hp
  obtain ⟨f, hf, rfl⟩ := List.mem_map.mp hp
  have hfield := (List.mem_filter.mp (List.mem_filter.mp hf).1).1
  exact ((h.structs s (List.mem_filter.mp hs).1).2.1 f hfield).1

theorem isText_of_callbackTypedefs (h : d.WellTyped) {t : Header.Typedef}
    (ht : t ∈ callbackTypedefs o d) : t.name.IsText :=
  (h.typedefs t (List.mem_filter.mp (List.mem_filter.mp ht).1).1).1

/-- Delegates have the same name if they are named after the same. -/
theorem text_delegateName_inj {l l' : Leaf} :
    Leaf.text (delegateName l) = .text (delegateName l') ↔ l.display = l'.display := by
  rw [Leaf.text.injEq, delegateName, delegateName, String.append_left_inj]

/-- Arguments with the same delegate name are in different functions, or differ in an underscore
before a reserved word. -/
theorem nodup_argumentNames (h : d.WellTyped) (hn : NamesDistinct d) :
    ((callbackArguments o d).map
      fun p => Leaf.text (delegateName (.text (argumentCallbackName p)))).Nodup ↔
    (∀ p ∈ callbackArguments o d, ∀ q ∈ callbackArguments o d, p.1.name = q.1.name →
      p.2.name.display ∈ reservedWords → q.2.name.display ≠ "_" ++ p.2.name.display) ∧
    ∀ p ∈ callbackArguments o d, ∀ q ∈ callbackArguments o d, p.1.name ≠ q.1.name →
      argumentCallbackName p ≠ argumentCallbackName q := by
  rw [nodup_map_iff_of_keys (hn.callbackArguments o)]
  -- in one function the names of the arguments decide
  have hsame : ∀ {p q : Header.Function × Header.Argument}, p.1.name = q.1.name →
      (argumentCallbackName p = argumentCallbackName q ↔
        escapeReserved p.2.name.display = escapeReserved q.2.name.display) := by
    intro p q hname
    rw [argumentCallbackName, argumentCallbackName, hname, String.append_right_inj]
  constructor
  · intro hkeys
    refine ⟨fun p hp q hq hname hreserved hq' => ?_, fun p hp q hq hname hsame' => ?_⟩
    · have hne : p.2.name ≠ q.2.name := by
        intro heq
        rw [heq] at hq'
        have hlength := congrArg String.length hq'
        have hone : "_".length = 1 := rfl
        rw [String.length_append] at hlength
        omega
      refine hkeys p hp q hq (fun heq => hne (Prod.mk.inj heq).2) (text_delegateName_inj.mpr ?_)
      exact (hsame hname).mpr (escapeReserved_eq_iff.mpr (.inr (.inl ⟨hreserved, hq'⟩)))
    · have hkey : (p.1.name, p.2.name) ≠ (q.1.name, q.2.name) :=
        fun heq => hname (Prod.mk.inj heq).1
      exact hkeys p hp q hq hkey (text_delegateName_inj.mpr hsame')
  · rintro ⟨harguments, hfunctions⟩ p hp q hq hne heq
    have heq : argumentCallbackName p = argumentCallbackName q := text_delegateName_inj.mp heq
    by_cases hname : p.1.name = q.1.name
    · rcases escapeReserved_eq_iff.mp ((hsame hname).mp heq) with hnames | ⟨hp', hq'⟩ | ⟨hq', hp'⟩
      · have hleaf : p.2.name = q.2.name :=
          (isText_of_callbackArguments h hp).eq_of_display (isText_of_callbackArguments h hq) hnames
        exact hne (Prod.ext hname hleaf)
      · exact harguments p hp q hq hname hp' hq'
      · exact harguments q hq p hp hname.symm hq' hp'
    · exact hfunctions p hp q hq hname heq

/-- Fields with the same delegate name are in different structs. -/
theorem nodup_fieldNames (h : d.WellTyped) (hn : NamesDistinct d) :
    ((callbackFields o d).map fun p => Leaf.text (delegateName p.2.name)).Nodup ↔
    ∀ p ∈ callbackFields o d, ∀ q ∈ callbackFields o d, p.1.name ≠ q.1.name →
      p.2.name ≠ q.2.name := by
  rw [nodup_map_iff_of_keys (hn.callbackFields o)]
  constructor
  · intro hkeys p hp q hq hname heq
    exact hkeys p hp q hq (fun hkey => hname (Prod.mk.inj hkey).1) (by rw [heq])
  · intro hstructs p hp q hq hne heq
    have hleaf : p.2.name = q.2.name :=
      (isText_of_callbackFields h hp).eq_of_display (isText_of_callbackFields h hq)
        (text_delegateName_inj.mp heq)
    exact hstructs p hp q hq (fun hname => hne (Prod.ext hname hleaf)) hleaf

theorem text_delegateName_eq_iff {l l' : Leaf} (h : l'.IsText) :
    Leaf.text (delegateName l) = l' ↔ l.display ++ "Delegate" = l'.display := by
  obtain ⟨s, rfl⟩ := h.exists
  rw [Leaf.text.injEq]
  rfl

/-- **The names of delegates are distinct exactly where no callbacks of the header clash.** -/
theorem nodup_hooks_names (h : d.WellTyped) (hn : NamesDistinct d) (hw : WrappedByName d) :
    ((hooks o d).map (·.name)).Nodup ↔ CallbacksApart o d := by
  rw [hooks_names o h hw, List.nodup_append, List.nodup_append, nodup_argumentNames h hn,
    nodup_fieldNames h hn, List.forall_mem_append]
  simp only [List.forall_mem_map]
  constructor
  · rintro ⟨⟨⟨harguments, hfunctions⟩, _, hat⟩, hstructs, haf, htf⟩
    refine ⟨harguments, hfunctions, hstructs, fun p hp q hq heq => ?_, fun p hp t ht heq => ?_,
      fun t ht p hp heq => ?_⟩
    · exact haf p hp q hq (text_delegateName_inj.mpr heq)
    · have hname := isText_of_callbackTypedefs h ht
      exact hat p hp t ht ((text_delegateName_eq_iff hname).mpr heq)
    · have hname := isText_of_callbackTypedefs h ht
      exact htf t ht p hp ((text_delegateName_eq_iff hname).mpr heq.symm).symm
  · intro hc
    refine ⟨⟨⟨hc.arguments, hc.functions⟩, hn.callbackTypedefs o, fun p hp t ht heq => ?_⟩,
      hc.structs, fun p hp q hq heq => ?_, fun t ht p hp heq => ?_⟩
    · have hname := isText_of_callbackTypedefs h ht
      exact hc.argumentTypedef p hp t ht ((text_delegateName_eq_iff hname).mp heq)
    · exact hc.argumentField p hp q hq (text_delegateName_inj.mp heq)
    · have hname := isText_of_callbackTypedefs h ht
      exact hc.typedefField t ht p hp ((text_delegateName_eq_iff hname).mp heq.symm).symm

end

/-- **Where names are distinct in the header, delegates have distinct names exactly if no callbacks
clash.** A callback counts if it is written: that of a function that is dropped does not. -/
theorem finished_delegatesApart {d : Header.Definitions} (h : d.WellTyped) (hn : NamesDistinct d)
    (hw : WrappedByName d) (o : Options) : ∃ final, finishedOf o d = .ok final ∧
      ((final.delegates.map (·.name)).Nodup ↔ CallbacksApart o d) := by
  obtain ⟨final, hfinal, -⟩ := finishedOf_finished h o
  refine ⟨final, hfinal, ?_⟩
  rw [delegates_names o h hfinal]
  exact nodup_hooks_names h hn hw

/-! ## Callbacks that clash -/

/-- The type of a function pointer with the name. -/
def callbackType (name : String) : TypeDesc :=
  .named (some name) (.pointer (.function (.builtin "void") []))

/-- A header with callbacks at all places, and no two of them alike. -/
def listenerHeader : Header.Definitions where
  typedefs := [{ name := "OnLoad", type := { description := callbackType "OnLoad" } }]
  structs :=
    [{ name := "Window", fields :=
        [{ name := "close", type := { description := callbackType "close" } },
          { name := "width", type := { description := .builtin "int" } }] },
      { name := "Sound", fields :=
        [{ name := "stop", type := { description := callbackType "stop" } }] }]
  functions :=
    [{ name := "listen", arguments :=
        [{ name := "in", type := some { description := callbackType "in" } },
          { name := "out", type := some { description := callbackType "out" } }] }]

theorem finished_delegatesApart_listenerHeader :
    listenerHeader.WellTyped ∧ NamesDistinct listenerHeader ∧ WrappedByName listenerHeader ∧
      ∃ final, finishedOf {} listenerHeader = .ok final ∧
        ((final.delegates.map (·.name)).Nodup ↔ CallbacksApart {} listenerHeader) := by
  have hnames : NamesDistinct listenerHeader :=
    ⟨by decide, by decide, by decide, by decide, by decide⟩
  have hwrappers : WrappedByName listenerHeader := ⟨by decide, by decide⟩
  exact ⟨by decide, hnames, hwrappers, finished_delegatesApart (by decide) hnames hwrappers {}⟩

/-- Two structs with a callback of the same name. -/
def sharedCallbackHeader : Header.Definitions where
  structs :=
    [{ name := "A", fields := [{ name := "cb", type := { description := callbackType "cb" } }] },
      { name := "B", fields := [{ name := "cb", type := { description := callbackType "cb" } }] }]

/-- Everything has its own name in the header, and both delegates have the same. -/
theorem sharedCallbackHeader_not_nodup :
    sharedCallbackHeader.WellTyped ∧ NamesDistinct sharedCallbackHeader ∧
      WrappedByName sharedCallbackHeader ∧
        ∃ final, finishedOf {} sharedCallbackHeader = .ok final ∧
          ¬(final.delegates.map (·.name)).Nodup := by
  have hwell : sharedCallbackHeader.WellTyped := by decide
  refine ⟨hwell, ⟨by decide, by decide, by decide, by decide, by decide⟩,
    ⟨by decide, by decide⟩, ?_⟩
  obtain ⟨final, hfinal, -⟩ := finishedOf_finished hwell {}
  refine ⟨final, hfinal, ?_⟩
  have hsame : (hooks {} sharedCallbackHeader).map (·.name) =
      [.text "cbDelegate", .text "cbDelegate"] := by decide +kernel
  rw [delegates_names {} hwell hfinal, hsame]
  decide

end NativeBindings
