import Mathlib.Data.List.Find
import NativeBindings.Proofs.Documents

/-!
# What is rejected leaves no trace

Take a header and leave out everything that was excluded, dropped, skipped or ignored.
The main statement is that the rest has the same binding: the same documents, and the same
symbols known in the end.

The enums, typedefs, structs and functions are judged one by one, so there it is enough
that an accepted item is judged as before when its rejected parts are gone. The defines
are judged in groups and learn from one another. A define that is not taken teaches
nothing (`taken_filter`), and the places of the others, which do change, are only used
to put the constants in order.
-/

namespace NativeBindings.Build

open Header (TypeDesc Define)
open CSharp

/-! ## Defines that are not taken -/

theorem takenInTurn_filter {items : List Placed} (hw : AllWellTyped items)
    {keep : Placed → Bool} {known : Symbols}
    (h : ∀ p ∈ items, TakenAt (takenInTurn known items) p.1 → keep p = true) :
    takenInTurn known (items.filter keep) = takenInTurn known items := by
  induction items generalizing known with
  | nil => rfl
  | cons p rest ih =>
      have hrest : AllWellTyped rest := hw.sublist (List.sublist_cons_self p rest)
      have hself := h p List.mem_cons_self
      have hlater := fun q hq => h q (List.mem_cons_of_mem p hq)
      rw [takenInTurn] at hself hlater ⊢
      rcases accepted?_judgeDefine (hw p List.mem_cons_self) known with
        ⟨a, ha, hfrom, _⟩ | ⟨ha, _⟩
      · rw [ha] at hself hlater ⊢
        -- a define that is taken is kept, and the later ones see the same symbols
        have hkeep : keep p = true := hself ⟨a, List.mem_cons_self, hfrom.index⟩
        rw [List.filter_cons, hkeep, if_pos rfl, takenInTurn, ha]
        refine congrArg (a :: ·) (ih hrest fun q hq hat => hlater q hq ?_)
        obtain ⟨b, hb, hi⟩ := hat
        exact ⟨b, List.mem_cons_of_mem a hb, hi⟩
      -- one that is not taken teaches nothing, whether it is kept or not
      · rw [ha] at hlater ⊢
        have hrest := ih hrest fun q hq hat => hlater q hq hat
        rw [List.filter_cons]
        split
        · rw [takenInTurn, ha]
          exact hrest
        · exact hrest

theorem takenWithGuards_filter {items : List Placed} (hw : AllWellTyped items)
    {keep : Placed → Bool} {known : Symbols} {guards : Nat}
    (h : ∀ p ∈ items, TakenAt (takenWithGuards known guards items) p.1 → keep p = true) :
    takenWithGuards known guards (items.filter keep) = takenWithGuards known guards items := by
  rw [takenWithGuards] at h ⊢
  rw [takenWithGuards]
  split at h
  · rename_i hfew
    rw [if_pos hfew, if_pos hfew]
    exact takenInTurn_filter hw h
  · rename_i hmany
    rw [if_neg hmany, if_neg hmany, List.filterMap_filter]
    refine List.filterMap_congr fun p hp => ?_
    rcases accepted?_judgeDefine (hw p hp) known with ⟨a, ha, hfrom, _⟩ | ⟨ha, _⟩
    · rw [if_pos (h p hp ⟨a, List.mem_filterMap.mpr ⟨p, hp, ha⟩, hfrom.index⟩)]
    · rw [ha, ite_self]

/-- Without the defines that are not taken, the others are taken as before. -/
theorem taken_filter {items : List Placed} (hw : AllWellTyped items) {keep : Placed → Bool}
    {gs : List Nat} {known : Symbols}
    (h : ∀ p ∈ items, TakenAt (taken known items gs) p.1 → keep p = true) :
    taken known (items.filter keep) gs = taken known items gs := by
  induction gs generalizing known with
  | nil => rfl
  | cons guards more ih =>
      have hgroup : AllWellTyped (withGuards items guards) := hw.sublist List.filter_sublist
      have hcomm : withGuards (items.filter keep) guards = (withGuards items guards).filter keep :=
        List.filter_comm _ _ _
      rw [taken] at h
      have hfirst : takenWithGuards known guards ((withGuards items guards).filter keep) = _ :=
        takenWithGuards_filter hgroup fun p hp hat =>
          h p (mem_withGuards.mp hp).1 (takenAt_append.mpr (.inl hat))
      rw [taken, taken, hcomm, hfirst]
      exact congrArg _ (ih fun p hp hat => h p hp (takenAt_append.mpr (.inr hat)))

/-! ## Places that change -/

/-- The define at another place. -/
def AcceptedDefine.moved (place : Nat → Nat) (a : AcceptedDefine) : AcceptedDefine :=
  { a with index := place a.index }

theorem accepted?_judgeDefine_moved {p : Placed} (h : p.2.WellTyped) (known : Symbols)
    (place : Nat → Nat) : accepted? (judgeDefine known (place p.1, p.2)) =
      (accepted? (judgeDefine known p)).map (·.moved place) := by
  rw [accepted?_judgeDefine_index known p.1 (place p.1) p.2]
  rcases accepted?_judgeDefine h known with ⟨a, ha, hfrom, _⟩ | ⟨ha, _⟩
  · rw [ha, Option.map_some, Option.map_some, AcceptedDefine.moved, hfrom.index]
  · rw [ha, Option.map_none, Option.map_none]

/-- The defines at other places. -/
def movedTo (place : Nat → Nat) (items : List Placed) : List Placed :=
  items.map fun p => (place p.1, p.2)

/-- What is known does not depend on places. -/
theorem foldl_learn_moved (place : Nat → Nat) (as : List AcceptedDefine) (known : Symbols) :
    (as.map (·.moved place)).foldl learn known = as.foldl learn known := by
  rw [List.foldl_map]
  rfl

theorem takenInTurn_moved {items : List Placed} (hw : AllWellTyped items) (place : Nat → Nat)
    (known : Symbols) : takenInTurn known (movedTo place items) =
      (takenInTurn known items).map (·.moved place) := by
  induction items generalizing known with
  | nil => rfl
  | cons p rest ih =>
      have hrest : AllWellTyped rest := hw.sublist (List.sublist_cons_self p rest)
      rw [movedTo, List.map_cons, takenInTurn, takenInTurn,
        accepted?_judgeDefine_moved (hw p List.mem_cons_self)]
      cases accepted? (judgeDefine known p) with
      | none => exact ih hrest known
      | some a => exact congrArg (a.moved place :: ·) (ih hrest (learn known a))

theorem takenWithGuards_moved {items : List Placed} (hw : AllWellTyped items) (place : Nat → Nat)
    (known : Symbols) (guards : Nat) : takenWithGuards known guards (movedTo place items) =
      (takenWithGuards known guards items).map (·.moved place) := by
  rw [takenWithGuards, takenWithGuards]
  split
  · exact takenInTurn_moved hw place known
  · rw [movedTo, List.filterMap_map, List.map_filterMap]
    exact List.filterMap_congr fun p hp => accepted?_judgeDefine_moved (hw p hp) known place

/-- At other places the same defines are taken. -/
theorem taken_moved {items : List Placed} (hw : AllWellTyped items) (place : Nat → Nat)
    (known : Symbols) (gs : List Nat) :
    taken known (movedTo place items) gs = (taken known items gs).map (·.moved place) := by
  induction gs generalizing known with
  | nil => rfl
  | cons guards more ih =>
      have hgroup : AllWellTyped (withGuards items guards) := hw.sublist List.filter_sublist
      have hcomm : withGuards (movedTo place items) guards =
          movedTo place (withGuards items guards) := List.filter_map
      rw [taken, taken, hcomm, takenWithGuards_moved hgroup, foldl_learn_moved, ih,
        List.map_append]

/-- Groups without defines take nothing. -/
theorem taken_of_empty {items : List Placed} (hw : AllWellTyped items) {gs : List Nat}
    (h : ∀ p ∈ items, p.2.guards.length ∉ gs) (known : Symbols) : taken known items gs = [] := by
  rw [List.eq_nil_iff_forall_not_mem]
  intro a ha
  obtain ⟨p, hp, _, hlen⟩ := mem_taken hw ha
  exact h p hp hlen

/-! ## The defines that are taken -/

/-- The defines at the places that are taken. -/
def acceptedPlaces (known : Symbols) (ds : List Define) : List Placed :=
  (placed ds).filter fun p => (passDefines known ds).pass.built.any (·.index = p.1)

/-- The defines of a header that are accepted. -/
def acceptedDefines (known : Symbols) (ds : List Define) : List Define :=
  (acceptedPlaces known ds).map (·.2)

/-- The new place of a define among the accepted ones. -/
def newPlace (items : List Placed) (i : Nat) : Nat := (items.map (·.1)).idxOf i

/-- Defines listed without their places get new ones in the same order. -/
theorem placed_map_snd {items : List Placed} (hr : Rising items) :
    placed (items.map (·.2)) = movedTo (newPlace items) items := by
  have hnodup : (items.map (·.1)).Nodup := by
    rw [List.nodup_iff_pairwise_ne, List.pairwise_map]
    exact hr.imp fun h => Nat.ne_of_lt h
  -- the new place of an item is its index, since all old places differ
  refine List.ext_getElem (by simp [placed, movedTo]) fun k hk hk' => ?_
  have hlen : k < (items.map (·.1)).length := by simpa [movedTo] using hk'
  have hidx := hnodup.idxOf_getElem k hlen
  rw [List.getElem_map] at hidx
  simp only [placed, movedTo, List.getElem_map, List.getElem_zipIdx, newPlace, hidx, Nat.zero_add]

/-- Groups above all numbers of guards do not matter. -/
theorem taken_range_add {items : List Placed} (hw : AllWellTyped items) {n : Nat}
    (h : ∀ p ∈ items, p.2.guards.length < n) (k : Nat) (known : Symbols) :
    taken known items (List.range (n + k)) = taken known items (List.range n) := by
  have hnone : ∀ p ∈ items, p.2.guards.length ∉ (List.range k).map (n + ·) := by
    intro p hp hmem
    obtain ⟨j, _, hj⟩ := List.mem_map.mp hmem
    have := h p hp
    omega
  rw [List.range_add, taken_append, taken_of_empty hw hnone, List.append_nil]

theorem taken_range_eq {items : List Placed} (hw : AllWellTyped items) {m n : Nat}
    (hm : ∀ p ∈ items, p.2.guards.length < m) (hn : ∀ p ∈ items, p.2.guards.length < n)
    (known : Symbols) : taken known items (List.range m) = taken known items (List.range n) := by
  rcases Nat.le_total m n with hle | hle
  · obtain ⟨k, rfl⟩ := Nat.exists_eq_add_of_le hle
    exact (taken_range_add hw hm k known).symm
  · obtain ⟨k, rfl⟩ := Nat.exists_eq_add_of_le hle
    exact taken_range_add hw hn k known

theorem guards_lt_guardNumbers {ds : List Define} {p : Placed} (hp : p ∈ placed ds) :
    p.2.guards.length < (ds.map fun d => d.guards.length).foldl max 0 + 1 := by
  obtain ⟨after, hsplit, _⟩ := guardNumbers_split hp
  rw [guardNumbers] at hsplit
  refine List.mem_range.mp ?_
  rw [hsplit]
  exact List.mem_append_right _ List.mem_cons_self

section Accepted

variable {ds : List Define}

theorem built_passDefines (h : ∀ d ∈ ds, d.WellTyped) (known : Symbols) :
    (passDefines known ds).pass.built = takenOf known ds :=
  (definesInGroups_eq_taken (allWellTyped_placed h) (guardNumbers ds) known).2.1

theorem any_built_passDefines (h : ∀ d ∈ ds, d.WellTyped) (known : Symbols) (i : Nat) :
    (passDefines known ds).pass.built.any (·.index = i) = true ↔ TakenAt (takenOf known ds) i := by
  rw [built_passDefines h, List.any_eq_true]
  exact exists_congr fun a => and_congr_right fun _ => decide_eq_true_iff

theorem acceptedDefines_wellTyped (h : ∀ d ∈ ds, d.WellTyped) (known : Symbols) :
    ∀ d ∈ acceptedDefines known ds, d.WellTyped := by
  intro d hd
  obtain ⟨p, hp, rfl⟩ := List.mem_map.mp hd
  exact allWellTyped_placed h p (List.mem_filter.mp hp).1

/-- **Of the accepted defines all are taken, in the same order as among all defines.** -/
theorem takenOf_acceptedDefines (h : ∀ d ∈ ds, d.WellTyped) (known : Symbols) :
    takenOf known (acceptedDefines known ds) =
      (takenOf known ds).map (·.moved (newPlace (acceptedPlaces known ds))) := by
  have hw := allWellTyped_placed h
  have hkept : AllWellTyped (acceptedPlaces known ds) := hw.sublist List.filter_sublist
  have hrising : Rising (acceptedPlaces known ds) :=
    (rising_placed ds).sublist List.filter_sublist
  have hplaced : placed (acceptedDefines known ds) =
      movedTo (newPlace (acceptedPlaces known ds)) (acceptedPlaces known ds) :=
    placed_map_snd hrising
  -- the accepted defines may have fewer guards at most, and the groups above are empty
  have hbound : ∀ p ∈ acceptedPlaces known ds, p.2.guards.length <
      ((acceptedDefines known ds).map fun d => d.guards.length).foldl max 0 + 1 := by
    intro p hp
    have hmem : (newPlace (acceptedPlaces known ds) p.1, p.2) ∈
        placed (acceptedDefines known ds) := by
      rw [hplaced]
      exact List.mem_map_of_mem hp
    have hlt := guards_lt_guardNumbers hmem
    exact hlt
  have hbound' : ∀ p ∈ acceptedPlaces known ds, p.2.guards.length <
      (ds.map fun d => d.guards.length).foldl max 0 + 1 :=
    fun p hp => guards_lt_guardNumbers (List.mem_filter.mp hp).1
  rw [takenOf, hplaced, taken_moved hkept, guardNumbers, taken_range_eq hkept hbound hbound',
    ← guardNumbers, acceptedPlaces]
  refine congrArg (List.map _) (taken_filter hw fun p _ hat => ?_)
  exact (any_built_passDefines h known p.1).mpr hat

/-- The accepted defines make the same symbols known. -/
theorem knownAfter_acceptedDefines (h : ∀ d ∈ ds, d.WellTyped) (known : Symbols) :
    knownAfter known (acceptedDefines known ds) = knownAfter known ds := by
  rw [knownAfter, takenOf_acceptedDefines h, foldl_learn_moved, knownAfter]

theorem mem_acceptedPlaces_of_taken (h : ∀ d ∈ ds, d.WellTyped) (known : Symbols)
    {a : AcceptedDefine} (ha : a ∈ takenOf known ds) :
    a.index ∈ (acceptedPlaces known ds).map (·.1) := by
  obtain ⟨p, hp, hfrom⟩ := allComeFrom_takenOf h known a ha
  refine List.mem_map.mpr ⟨p, List.mem_filter.mpr ⟨hp, ?_⟩, hfrom.index.symm⟩
  exact (any_built_passDefines h known p.1).mpr ⟨a, ha, hfrom.index⟩

/-- New places are told apart like the old ones. -/
theorem find?_moved (h : ∀ d ∈ ds, d.WellTyped) (known : Symbols) (i : Nat) :
    ((takenOf known ds).map (·.moved (newPlace (acceptedPlaces known ds)))).find?
        (·.index = newPlace (acceptedPlaces known ds) i) =
      ((takenOf known ds).find? (·.index = i)).map
        (·.moved (newPlace (acceptedPlaces known ds))) := by
  rw [List.find?_map]
  refine congrArg _ (List.find?_congr fun a ha => ?_)
  have hmem := mem_acceptedPlaces_of_taken h known ha
  refine decide_eq_decide.mpr ⟨fun hsame => ?_, fun hsame => ?_⟩
  · exact (List.idxOf_inj hmem).mp hsame
  · exact congrArg (newPlace (acceptedPlaces known ds)) hsame

/-- The constants of the accepted defines are the same, in the same order. -/
theorem inHeaderOrder_acceptedDefines (h : ∀ d ∈ ds, d.WellTyped) (known : Symbols) :
    inHeaderOrder (acceptedDefines known ds).length (takenOf known (acceptedDefines known ds)) =
      inHeaderOrder ds.length (takenOf known ds) := by
  have hplaced : placed (acceptedDefines known ds) =
      movedTo (newPlace (acceptedPlaces known ds)) (acceptedPlaces known ds) :=
    placed_map_snd ((rising_placed ds).sublist List.filter_sublist)
  rw [inHeaderOrder, inHeaderOrder, range_eq_places, range_eq_places, takenOf_acceptedDefines h,
    hplaced, movedTo, List.map_map, List.filterMap_map, List.filterMap_map, acceptedPlaces,
    List.filterMap_filter]
  refine List.filterMap_congr fun p hp => ?_
  rw [← acceptedPlaces]
  dsimp only [Function.comp_apply]
  rw [find?_moved h, Option.map_map]
  split
  · rfl
  · rename_i hnot
    rw [any_built_passDefines h] at hnot
    -- at a place that is left out there was no constant before
    have hnone : (takenOf known ds).find? (·.index = p.1) = none :=
      List.find?_eq_none.mpr fun a ha hi => hnot ⟨a, ha, of_decide_eq_true hi⟩
    rw [hnone]
    rfl

end Accepted

/-! ## Parts of items that are rejected -/

/-- Those of some items that are accepted. -/
def acceptedAmong {ι α : Type} (judge : ι → Traced Notice Misfit (Verdict α)) (items : List ι) :
    List ι := items.filter fun i => (accepted? (judge i)).isSome

/-- The enum without the values that are excluded. -/
def trimEnum (known : Symbols) (e : Header.Enum) : Header.Enum :=
  { e with elements := e.elements.filter fun x => isIncluded known x.guards }

/-- The struct without the fields that are excluded or skipped. -/
def trimStruct (known : Symbols) (native : NativeTypes) (o : Options) (s : Header.Struct) :
    Header.Struct :=
  { s with fields := s.fields.filter fun f =>
      isIncluded known f.guards && (builtField? native o s.name f).isSome }

/-- The function without the arguments that are ignored. -/
def trimFunction (native : NativeTypes) (o : Options) (f : Header.Function) : Header.Function :=
  { f with arguments := f.arguments.filter fun a => (builtArgument? native o f.name a).isSome }

/-- Without what is rejected, judging gives the same if accepted items are judged as before. -/
theorem filterMap_acceptedAmong {ι α β : Type} {judge : ι → Traced Notice Misfit (Verdict α)}
    {items : List ι} {trim : ι → ι} {f : ι → Option β}
    (h : ∀ i ∈ items, ∀ a, accepted? (judge i) = some a → f (trim i) = f i)
    (hnone : ∀ i ∈ items, accepted? (judge i) = none → f i = none) :
    ((acceptedAmong judge items).map trim).filterMap f = items.filterMap f := by
  rw [List.filterMap_map, acceptedAmong, List.filterMap_filter]
  refine List.filterMap_congr fun i hi => ?_
  cases hjudged : accepted? (judge i) with
  | some a =>
      rw [Option.isSome_some, if_pos rfl]
      exact h i hi a hjudged
  | none =>
      rw [Option.isSome_none, if_neg (by simp)]
      exact (hnone i hi hjudged).symm

theorem mem_acceptedAmong {ι α : Type} {judge : ι → Traced Notice Misfit (Verdict α)}
    {items : List ι} {i : ι} (h : i ∈ acceptedAmong judge items) : i ∈ items :=
  (List.mem_filter.mp h).1

theorem isSome_accepted?_judgeEnum {e : Header.Enum} (h : e.WellTyped) (known : Symbols)
    (o : Options) : (accepted? (judgeEnum known o e)).isSome = isIncluded known e.guards := by
  rw [accepted?_of_result (judgeEnum_eq h known o)]
  cases isIncluded known e.guards with
  | true => rfl
  | false => rfl

theorem filter_trimEnum (known : Symbols) (e : Header.Enum) :
    ((trimEnum known e).elements.filter fun x => isIncluded known x.guards) =
      e.elements.filter fun x => isIncluded known x.guards := by
  rw [trimEnum, List.filter_filter]
  simp only [Bool.and_self]

theorem numbersOf_trimEnum (known : Symbols) (e : Header.Enum) :
    numbersOf known (trimEnum known e) = numbersOf known e := by
  rw [numbersOf, filter_trimEnum]
  rfl

theorem trimEnum_wellTyped {e : Header.Enum} (h : e.WellTyped) (known : Symbols) :
    (trimEnum known e).WellTyped :=
  ⟨h.1, fun x hx => h.2.1 x (List.mem_filter.mp hx).1, h.2.2⟩

theorem accepted?_trimEnum {e : Header.Enum} (h : e.WellTyped) (known : Symbols) (o : Options) :
    accepted? (judgeEnum known o (trimEnum known e)) = accepted? (judgeEnum known o e) := by
  rw [accepted?_of_result (judgeEnum_eq (trimEnum_wellTyped h known) known o),
    accepted?_of_result (judgeEnum_eq h known o), builtEnum, filter_trimEnum]
  rfl

theorem keptFields_trimStruct (known : Symbols) (native : NativeTypes) (o : Options)
    (s : Header.Struct) : keptFields known native o s.name (trimStruct known native o s).fields =
      keptFields known native o s.name s.fields := by
  rw [keptFields, keptFields, trimStruct, List.filterMap_filter, List.filterMap_filter,
    List.filterMap_filter]
  refine List.filterMap_congr fun f _ => ?_
  cases isIncluded known f.guards with
  | false => rfl
  | true =>
      cases builtField? native o s.name f with
      | none => rfl
      | some b => rfl

theorem builtStruct_trimStruct (known : Symbols) (native : NativeTypes) (o : Options)
    (s : Header.Struct) : builtStruct known native o (trimStruct known native o s) =
      builtStruct known native o s := by
  have hname : (trimStruct known native o s).name = s.name := rfl
  rw [builtStruct, hname, keptFields_trimStruct]
  rfl

theorem keptArguments_trimFunction (native : NativeTypes) (o : Options) (f : Header.Function) :
    keptArguments native o f.name (trimFunction native o f).arguments =
      keptArguments native o f.name f.arguments := by
  rw [keptArguments, keptArguments, trimFunction, List.filterMap_filter]
  refine List.filterMap_congr fun a _ => ?_
  cases builtArgument? native o f.name a with
  | none => rfl
  | some b => rfl

theorem builtFunction_trimFunction (native : NativeTypes) (o : Options) (f : Header.Function) :
    builtFunction native o (trimFunction native o f) = builtFunction native o f := by
  have hname : (trimFunction native o f).name = f.name := rfl
  have hreturn : builtReturnType native (trimFunction native o f) = builtReturnType native f := rfl
  rw [builtFunction, hname, hreturn, keptArguments_trimFunction]
  rfl

theorem signatureTypes_trimFunction (native : NativeTypes) (o : Options) (f : Header.Function) :
    signatureTypes native o (trimFunction native o f) = signatureTypes native o f := by
  have hname : (trimFunction native o f).name = f.name := rfl
  have hreturn : builtReturnType native (trimFunction native o f) = builtReturnType native f := rfl
  rw [signatureTypes, hname, hreturn, keptArguments_trimFunction, signatureTypes]

/-- A function that is accepted stays so without its ignored arguments. -/
theorem functionVerdict_trimFunction {known : Symbols} {native : NativeTypes} {o : Options}
    {f : Header.Function} {b : BuiltFunction}
    (h : functionVerdict known native o f = .accepted b) :
    functionVerdict known native o (trimFunction native o f) = .accepted b := by
  obtain ⟨hincluded, hvariadic, hbuilt⟩ := functionVerdict_eq_accepted.mp h
  obtain ⟨hsign, hnamed⟩ := isVariadicFunction_eq_false.mp hvariadic
  have htrimmed : isVariadicFunction native o (trimFunction native o f) = false := by
    refine isVariadicFunction_eq_false.mpr ⟨fun a ha => hsign a (List.mem_filter.mp ha).1, ?_⟩
    rw [signatureTypes_trimFunction]
    exact hnamed
  have hsame := (builtFunction_trimFunction native o f).trans hbuilt
  exact functionVerdict_eq_accepted.mpr ⟨hincluded, htrimmed, hsame⟩

/-! ## The accepted part of a header -/

/-- The part of a header that is accepted: no item that is excluded or dropped, no enum value or
field that is excluded or skipped, and no argument that is ignored. -/
def acceptedPart (o : Options) (d : Header.Definitions) : Header.Definitions :=
  let b := Builder.start o
  let known := (passDefines b.known d.defines).known
  { defines := acceptedDefines b.known d.defines
    enums := (acceptedAmong (judgeEnum known o) d.enums).map (trimEnum known)
    typedefs := acceptedAmong (judgeTypedef known b.native o) d.typedefs
    structs := (acceptedAmong (judgeStruct known b.native o) d.structs).map
      (trimStruct known b.native o)
    functions := (acceptedAmong (judgeFunction known b.native o) d.functions).map
      (trimFunction b.native o) }

theorem known_passDefines {ds : List Define} (h : ∀ d ∈ ds, d.WellTyped) (known : Symbols) :
    (passDefines known ds).known = knownAfter known ds :=
  (definesInGroups_eq_taken (allWellTyped_placed h) (guardNumbers ds) known).2.2

theorem acceptedPart_wellTyped {d : Header.Definitions} (h : d.WellTyped) (o : Options) :
    (acceptedPart o d).WellTyped where
  defines := acceptedDefines_wellTyped h.defines _
  enums := by
    intro e' he'
    obtain ⟨e, he, rfl⟩ := List.mem_map.mp he'
    exact trimEnum_wellTyped (h.enums e (mem_acceptedAmong he)) _
  typedefs := fun t ht => h.typedefs t (mem_acceptedAmong ht)
  structs := by
    intro s' hs'
    obtain ⟨s, hs, rfl⟩ := List.mem_map.mp hs'
    obtain ⟨hname, hfields, hguards⟩ := h.structs s (mem_acceptedAmong hs)
    exact ⟨hname, fun f hf => hfields f (List.mem_filter.mp hf).1, hguards⟩
  functions := by
    intro f' hf'
    obtain ⟨f, hf, rfl⟩ := List.mem_map.mp hf'
    obtain ⟨hname, hreturn, harguments, hguards⟩ := h.functions f (mem_acceptedAmong hf)
    exact ⟨hname, hreturn, fun a ha => harguments a (List.mem_filter.mp ha).1, hguards⟩

section Collections

variable (known : Symbols) (native : NativeTypes) (o : Options)

theorem numbersOf_accepted {es : List Header.Enum} (h : ∀ e ∈ es, e.WellTyped) :
    (((acceptedAmong (judgeEnum known o) es).map (trimEnum known)).map (numbersOf known)).flatten =
      (es.map (numbersOf known)).flatten := by
  induction es with
  | nil => rfl
  | cons e rest ih =>
      have hrest := ih fun x hx => h x (List.mem_cons_of_mem e hx)
      rw [acceptedAmong] at hrest ⊢
      rw [List.filter_cons, isSome_accepted?_judgeEnum (h e List.mem_cons_self), List.map_cons,
        List.flatten_cons, ← hrest]
      cases hincluded : isIncluded known e.guards with
      | true =>
          rw [if_pos rfl, List.map_cons, List.map_cons, List.flatten_cons, numbersOf_trimEnum]
      | false =>
          rw [if_neg (by simp), numbersOf, hincluded, if_neg (by simp), List.nil_append]

theorem enums_accepted {es : List Header.Enum} (h : ∀ e ∈ es, e.WellTyped) :
    ((acceptedAmong (judgeEnum known o) es).map (trimEnum known)).filterMap
        (fun e => accepted? (judgeEnum known o e)) =
      es.filterMap fun e => accepted? (judgeEnum known o e) :=
  filterMap_acceptedAmong (fun e he _ _ => accepted?_trimEnum (h e he) known o)
    fun _ _ hnone => hnone

theorem typedefResults_accepted (ts : List Header.Typedef) :
    typedefResults known native o (acceptedAmong (judgeTypedef known native o) ts) =
      typedefResults known native o ts := by
  have hsame : ((acceptedAmong (judgeTypedef known native o) ts).map id).filterMap
      (fun t => accepted? (judgeTypedef known native o t)) = _ :=
    filterMap_acceptedAmong (fun _ _ _ _ => rfl) fun _ _ hnone => hnone
  rwa [List.map_id] at hsame

theorem acceptedStructs_accepted {ss : List Header.Struct} (h : ∀ s ∈ ss, s.WellTyped) :
    acceptedStructs known native o ((acceptedAmong (judgeStruct known native o) ss).map
        (trimStruct known native o)) =
      acceptedStructs known native o ss := by
  refine filterMap_acceptedAmong (fun s _ _ _ => ?_) fun s hs hnone => ?_
  · rw [builtStruct_trimStruct]
    rfl
  · rw [accepted?_of_result (judgeStruct_eq (h s hs) known native o)] at hnone
    split at hnone
    · exact absurd hnone (by simp [Verdict.built?])
    · rename_i hexcluded
      exact if_neg hexcluded

theorem acceptedFunctions_accepted {fs : List Header.Function} (h : ∀ f ∈ fs, f.WellTyped) :
    acceptedFunctions known native o ((acceptedAmong (judgeFunction known native o) fs).map
        (trimFunction native o)) =
      acceptedFunctions known native o fs := by
  refine filterMap_acceptedAmong (fun f hf b hsome => ?_) fun f hf hnone => ?_
  · rw [accepted?_of_result (judgeFunction_eq (h f hf) known native o),
      Verdict.built?_eq_some] at hsome
    rw [functionVerdict_trimFunction hsome, hsome]
  · rw [accepted?_of_result (judgeFunction_eq (h f hf) known native o)] at hnone
    exact hnone

end Collections

theorem knownAfter_acceptedPart {d : Header.Definitions} (h : d.WellTyped) (o : Options) :
    knownAfter (Builder.start o).known (acceptedPart o d).defines =
      knownAfter (Builder.start o).known d.defines :=
  knownAfter_acceptedDefines h.defines _

/-- From the accepted part the same declarations are built. -/
theorem builtDeclarations_acceptedPart {d : Header.Definitions} (h : d.WellTyped) (o : Options) :
    builtDeclarations (.start o) (acceptedPart o d) = builtDeclarations (.start o) d := by
  have hoptions : (Builder.start o).options = o := rfl
  have hconstants := inHeaderOrder_acceptedDefines h.defines (Builder.start o).known
  rw [builtDeclarations, knownAfter_acceptedPart h, builtDeclarations, hoptions]
  unfold acceptedPart
  dsimp only
  rw [known_passDefines h.defines, hconstants, numbersOf_accepted _ o h.enums,
    enums_accepted _ o h.enums, typedefResults_accepted, acceptedStructs_accepted _ _ _ h.structs,
    acceptedFunctions_accepted _ _ _ h.functions]

/-- Nothing of the typedefs, structs and functions of a header is rejected. -/
structure AllAccepted (o : Options) (known : Symbols) (d : Header.Definitions) : Prop where
  /-- Every typedef is accepted. -/
  typedefs : ∀ t ∈ d.typedefs, ∃ r, accepted? (judgeTypedef known nativeTypes o t) = some r
  /-- Every struct is included. -/
  structs : ∀ s ∈ d.structs, isIncluded known s.guards = true
  /-- Every field is included and built. -/
  fields : ∀ s ∈ d.structs, ∀ f ∈ s.fields, isIncluded known f.guards = true ∧
    ∃ b, builtField? nativeTypes o s.name f = some b
  /-- Every function is accepted. -/
  functions : ∀ f ∈ d.functions,
    functionVerdict known nativeTypes o f = .accepted (builtFunction nativeTypes o f)
  /-- Every argument is built. -/
  arguments : ∀ f ∈ d.functions, ∀ a ∈ f.arguments,
    ∃ b, builtArgument? nativeTypes o f.name a = some b

/-- Of the accepted part nothing more is rejected. -/
theorem acceptedPart_allAccepted {d : Header.Definitions} (h : d.WellTyped) (o : Options) :
    AllAccepted o (knownAfter (Builder.start o).known (acceptedPart o d).defines)
      (acceptedPart o d) := by
  rw [knownAfter_acceptedPart h]
  have hknown := known_passDefines h.defines (Builder.start o).known
  have hnative : (Builder.start o).native = nativeTypes := rfl
  refine ⟨fun t ht => ?_, fun s' hs' => ?_, fun s' hs' f hf => ?_, fun f' hf' => ?_,
    fun f' hf' a ha => ?_⟩
  · have haccepted := (List.mem_filter.mp ht).2
    rw [hknown, hnative] at haccepted
    exact Option.isSome_iff_exists.mp haccepted
  · obtain ⟨s, hs, rfl⟩ := List.mem_map.mp hs'
    obtain ⟨hs, haccepted⟩ := List.mem_filter.mp hs
    rw [hknown, accepted?_of_result (judgeStruct_eq (h.structs s hs) _ _ _)] at haccepted
    split at haccepted
    · assumption
    · exact absurd haccepted (by simp [Verdict.built?])
  · obtain ⟨s, hs, rfl⟩ := List.mem_map.mp hs'
    obtain ⟨_, hkept⟩ := List.mem_filter.mp hf
    rw [hknown, hnative, Bool.and_eq_true] at hkept
    exact ⟨hkept.1, Option.isSome_iff_exists.mp hkept.2⟩
  · obtain ⟨f, hf, rfl⟩ := List.mem_map.mp hf'
    obtain ⟨hf, haccepted⟩ := List.mem_filter.mp hf
    rw [hknown, hnative] at haccepted
    obtain ⟨b, hb⟩ := Option.isSome_iff_exists.mp haccepted
    rw [accepted?_of_result (judgeFunction_eq (h.functions f hf) _ _ _),
      Verdict.built?_eq_some] at hb
    obtain ⟨_, _, hbuilt⟩ := functionVerdict_eq_accepted.mp hb
    rw [hnative, functionVerdict_trimFunction hb, builtFunction_trimFunction, hbuilt]
  · obtain ⟨f, hf, rfl⟩ := List.mem_map.mp hf'
    exact Option.isSome_iff_exists.mp (List.mem_filter.mp ha).2

section AllAccepted

variable {o : Options} {d : Header.Definitions} (h : d.WellTyped)
  (hall : AllAccepted o (knownAfter (Builder.start o).known d.defines) d)

include hall

/-- Every struct is built. -/
theorem forall₂_structs : List.Forall₂ (fun s s' => s ∈ d.structs ∧
      s' = builtStruct (knownAfter (Builder.start o).known d.defines) nativeTypes o s)
    d.structs (builtDeclarations (.start o) d).structs :=
  forall₂_filterMap fun s hs => ⟨_, if_pos (hall.structs s hs), hs, rfl⟩

/-- Every function is built. -/
theorem forall₂_functions : List.Forall₂ (fun f b => f ∈ d.functions ∧
      b = builtFunction nativeTypes o f)
    d.functions (acceptedFunctions (knownAfter (Builder.start o).known d.defines) nativeTypes o
      d.functions) := by
  refine forall₂_filterMap fun f hf => ⟨_, ?_, hf, rfl⟩
  rw [hall.functions f hf]
  rfl

include h

/-- Every field is built. -/
theorem forall₂_fields {s : Header.Struct} (hs : s ∈ d.structs) :
    List.Forall₂ (FieldFrom nativeTypes) s.fields (keptFields
      (knownAfter (Builder.start o).known d.defines) nativeTypes o s.name s.fields) := by
  have hincluded : (s.fields.filter fun f =>
      isIncluded (knownAfter (Builder.start o).known d.defines) f.guards) = s.fields :=
    List.filter_eq_self.mpr fun f hf => (hall.fields s hs f hf).1
  rw [keptFields, hincluded]
  refine forall₂_filterMap fun f hf => ?_
  obtain ⟨_, b, hb⟩ := hall.fields s hs f hf
  exact ⟨b, hb, builtField?_from ((h.structs s hs).2.1 f hf) hb⟩

/-- Every argument is built. -/
theorem forall₂_arguments {f : Header.Function} (hf : f ∈ d.functions) :
    List.Forall₂ (ArgumentFrom nativeTypes f.name) f.arguments
      (keptArguments nativeTypes o f.name f.arguments) := by
  refine forall₂_filterMap fun a ha => ?_
  obtain ⟨b, hb⟩ := hall.arguments f hf a ha
  exact ⟨b, hb, builtArgument?_from ((h.functions f hf).2.2.1 a ha) hb⟩

/-- Every typedef is accepted. -/
theorem forall₂_typedefs : List.Forall₂ (TypedefFrom nativeTypes) d.typedefs
    (typedefResults (knownAfter (Builder.start o).known d.defines) nativeTypes o d.typedefs) := by
  refine forall₂_filterMap fun t ht => ?_
  obtain ⟨r, hr⟩ := hall.typedefs t ht
  obtain ⟨_, hfrom⟩ := typedefFrom_of_accepted? (h.typedefs t ht) hr
  exact ⟨r, hr, hfrom⟩

end AllAccepted

/-- Two headers have one binding, from the same declarations and with the same symbols known. -/
structure SameBinding (o : Options) (d d' : Header.Definitions) : Prop where
  /-- Both have documents, and the same ones. -/
  documents : ∃ docs, (bindingOf o d).documents = .ok docs ∧ (bindingOf o d').documents = .ok docs
  /-- The same declarations are built from both, their delegates included. -/
  declarations : ∃ built, (declarations d (.start o)).result = .ok built ∧
    (declarations d' (.start o)).result = .ok built
  /-- The same symbols are known in the end, with the same texts and in the same order. -/
  known : (Build.declarations d' (.start o)).builder.known =
    (Build.declarations d (.start o)).builder.known

/-- **What is rejected leaves no trace: the accepted part of a well-typed header has the same
binding.** -/
theorem bindingOf_acceptedPart {d : Header.Definitions} (h : d.WellTyped) (o : Options) :
    SameBinding o d (acceptedPart o d) := by
  have hpart := acceptedPart_wellTyped h o
  have hbuilt := builtDeclarations_acceptedPart h o
  obtain ⟨stats, hruns⟩ := declarations_runs h (.start o)
  obtain ⟨stats', hruns'⟩ := declarations_runs hpart (.start o)
  have hfinished : finishedOf o (acceptedPart o d) = finishedOf o d := by
    rw [finishedOf_eq hpart, finishedOf_eq h, aliasesOf_eq hpart, aliasesOf_eq h, builtAliases,
      hbuilt]
    rfl
  obtain ⟨docs, hdocs⟩ := bindingOf_eq_ok h o
  refine ⟨⟨docs, hdocs, ?_⟩, ⟨_, hruns.result, ?_⟩, ?_⟩
  · have hfinal := finishedOf_eq h o
    rw [← hdocs, bindingOf_of_finished hfinal, bindingOf_of_finished (hfinished.trans hfinal)]
  · rw [← hbuilt]
    exact hruns'.result
  · rw [hruns'.builder, hruns.builder]
    exact knownAfter_acceptedPart h o

/-- A pointer to a function that takes and returns nothing. -/
def hookType : TypeDesc := .named (some "Hook") (.pointer (.function (.builtin "void") []))

/-- A header in which something of every kind is rejected. The function `log` is dropped at its
last argument, after a function pointer. -/
def rejectingHeader : Header.Definitions where
  defines := [{ name := "A" }, { name := "B", guards := [⟨"ifndef", "A"⟩] }]
  enums :=
    [{ name := "E_", elements := [{ name := "E_X", value := 0 },
        { name := "E_Y", value := 1, guards := [⟨"ifdef", "B"⟩] }] },
      { name := "F", guards := [⟨"ifndef", "A"⟩] }]
  typedefs :=
    [{ name := "id", type := { description := .builtin "int" } },
      { name := "odd", type := { description := .unsupported "vector" } }]
  structs :=
    [{ name := "S", fields := [{ name := "x", type := { description := .user "id" } },
        { name := "y", type := { description := .unsupported "vector" } }] }]
  functions :=
    [{ name := "get", returnType := some { description := .builtin "int" },
        arguments := [{ name := "a", type := some { description := .user "id" } },
          { name := "b" }] },
      { name := "log", arguments :=
        [{ name := "hook", type := some { description := hookType } },
          { name := "args", type := some { description := .builtin "va_list" } }] }]

theorem bindingOf_acceptedPart_rejectingHeader : rejectingHeader.WellTyped ∧
    SameBinding {} rejectingHeader (acceptedPart {} rejectingHeader) :=
  ⟨by decide, bindingOf_acceptedPart (by decide) {}⟩

example : ((acceptedPart {} rejectingHeader).functions.map fun f =>
    (f.name, f.arguments.map (·.name))) = [(.text "get", [.text "a"])] := by decide +kernel

end NativeBindings.Build
