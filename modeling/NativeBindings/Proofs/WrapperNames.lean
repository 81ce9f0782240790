import NativeBindings.Proofs.ArrayLayout
import NativeBindings.Proofs.DelegateNames
import NativeBindings.Proofs.NothingLost

/-!
# Names of wrappers

A wrapper is named after its struct and its field, with an underscore in between. Both names
may have underscores of their own, so the name does not say where the struct ends: an array
`b_c` of a struct `a` and an array `c` of a struct `a_b` have wrappers of the same name.

There is no other way for this to happen. Names that are distinct in the header lead to two
wrappers of one name only if the name of a struct goes on where that of another one stops,
and takes away the front of a field. Where no arrays do this, a field that was given a wrapper
refers to its own one, and no other wrapper has that name.
-/

namespace NativeBindings

open CSharp
open Finish (BoundScope WrapperFor GetsWrapper wrapperName)

/-! ## Names that run into each other -/

/-- The struct of the second field is named like that of the first one, with an underscore and a
part that stands in front of the first field's name. -/
def RunsInto (p q : Leaf × Field) : Prop :=
  ∃ middle, q.1.display = p.1.display ++ "_" ++ middle ∧
    p.2.name.display = middle ++ "_" ++ q.2.name.display

/-- Where a text is cut at a character in two ways, one cut is in what follows the other one. -/
theorem append_cons_eq_append_cons_iff {α : Type} {c : α} {x y x' y' : List α} (h : x ≠ x') :
    x ++ c :: y = x' ++ c :: y' ↔
      (∃ m, x' = x ++ c :: m ∧ y = m ++ c :: y') ∨ ∃ m, x = x' ++ c :: m ∧ y' = m ++ c :: y := by
  rw [List.append_eq_append_iff]
  constructor
  · rintro (⟨t, hx, ht⟩ | ⟨t, hx, ht⟩)
    · cases t with
      | nil => exact absurd (hx.trans (List.append_nil x)).symm h
      | cons a m =>
          obtain ⟨rfl, hy⟩ := List.cons.inj ht
          exact .inl ⟨m, hx, hy⟩
    · cases t with
      | nil => exact absurd (hx.trans (List.append_nil x')) h
      | cons a m =>
          obtain ⟨rfl, hy⟩ := List.cons.inj ht
          exact .inr ⟨m, hx, hy⟩
  · rintro (⟨m, hx, rfl⟩ | ⟨m, hx, rfl⟩)
    · exact .inl ⟨c :: m, hx, rfl⟩
    · exact .inr ⟨c :: m, hx, rfl⟩

theorem glued_eq_iff {s f s' f' : String} (h : s ≠ s') : s ++ "_" ++ f = s' ++ "_" ++ f' ↔
    (∃ m, s' = s ++ "_" ++ m ∧ f = m ++ "_" ++ f') ∨
      ∃ m, s = s' ++ "_" ++ m ∧ f' = m ++ "_" ++ f := by
  have hlist : ∀ a b : String, (a ++ "_" ++ b).toList = a.toList ++ '_' :: b.toList := by
    intro a b
    rw [String.toList_append, String.toList_append, List.append_assoc]
    rfl
  have hmiddle : ∀ a b a' b' : String,
      (∃ m, a' = a ++ "_" ++ m ∧ b = m ++ "_" ++ b') ↔
        ∃ m, a'.toList = a.toList ++ '_' :: m ∧ b.toList = m ++ '_' :: b'.toList := by
    intro a b a' b'
    constructor
    · rintro ⟨m, rfl, rfl⟩
      exact ⟨m.toList, hlist a m, hlist m b'⟩
    · rintro ⟨m, ha, hb⟩
      refine ⟨String.ofList m, String.toList_injective ?_, String.toList_injective ?_⟩
      · rw [ha, hlist, String.toList_ofList]
      · rw [hb, hlist, String.toList_ofList]
  rw [hmiddle, hmiddle, ← String.toList_inj, hlist, hlist]
  exact append_cons_eq_append_cons_iff fun hs => h (String.toList_injective hs)

theorem RunsInto.display_ne {p q : Leaf × Field} (h : RunsInto p q) :
    p.1.display ≠ q.1.display := by
  obtain ⟨m, hm, -⟩ := h
  intro heq
  have hlength := congrArg String.length (heq.trans hm)
  have hone : "_".length = 1 := rfl
  rw [String.length_append, String.length_append] at hlength
  omega

namespace Finish

/-- Wrappers for different structs have the same name if one of the fields runs into the other
one. -/
theorem wrapperName_eq_iff {p q : Leaf × Field} (h : p.1.display ≠ q.1.display) :
    wrapperName p.1 p.2.name = wrapperName q.1 q.2.name ↔ RunsInto p q ∨ RunsInto q p := by
  rw [wrapperName, wrapperName, String.append_left_inj]
  exact glued_eq_iff h

/-- In one struct the names of wrappers differ like those of the fields. -/
theorem wrapperName_eq_iff_of_display_eq {p q : Leaf × Field} (h : p.1.display = q.1.display) :
    wrapperName p.1 p.2.name = wrapperName q.1 q.2.name ↔
      p.2.name.display = q.2.name.display := by
  rw [wrapperName, wrapperName, String.append_left_inj, h, String.append_right_inj]

end Finish

/-! ## Names of a header -/

/-- The structs that are included have different names, and so have the fields of each. Names are
compared as they are written. -/
structure IncludedNamesDistinct (o : Options) (d : Header.Definitions) : Prop where
  structs : ((includedItems (knownOf o d) (·.guards) d.structs).map (·.name.display)).Nodup
  fields : ∀ s ∈ includedItems (knownOf o d) (·.guards) d.structs,
    (s.fields.map (·.name.display)).Nodup

section

variable {o : Options} {d : Header.Definitions} {notices : List Notice} {built : DeclarationSet}

/-- What is built of the structs has names of the header, so these are distinct as well. -/
theorem IncludedNamesDistinct.fieldsWithWrapper (hn : IncludedNamesDistinct o d)
    (h : Build.NothingLost (.start o) (knownOf o d) notices d built) (aliases : Aliases) :
    ((fieldsWithWrapper aliases built).map fun p => (p.1.display, p.2.name.display)).Nodup := by
  have hincluded := h.structs.filter_items
    (p := fun s => Build.isIncluded (knownOf o d) s.guards) fun _ _ hs => hs.included
  have hstructs : (built.structs.map (·.name.display)).Nodup :=
    hn.structs.sublist (hincluded.names_sublist fun _ _ hs => congrArg Leaf.display hs.name)
  have hfields : ∀ s ∈ built.structs,
      ((s.fields.filter fun f => GetsWrapper aliases f).map (·.name.display)).Nodup := by
    intro s hs
    obtain ⟨item, hitem, himage⟩ := hincluded.exists_of_mem hs
    exact (hn.fields item hitem).sublist ((List.filter_sublist.map _).trans
      (himage.fields.names_sublist fun _ _ hf => congrArg Leaf.display hf.name))
  have hnodup := nodup_owned hstructs hfields
  rw [List.map_flatMap] at hnodup
  rw [NativeBindings.fieldsWithWrapper, List.map_flatMap]
  simpa only [List.map_map, Function.comp_def] using hnodup

end

/-! ## Wrappers and the fields that refer to them -/

/-- No array with a wrapper runs into another one. -/
def WrappersApart (aliases : Aliases) (d : DeclarationSet) : Prop :=
  ∀ p ∈ fieldsWithWrapper aliases d, ∀ q ∈ fieldsWithWrapper aliases d, ¬RunsInto p q

/-- The field has the struct of this name as its type. -/
def HasStructType (f : Field) (s : Struct) : Prop :=
  ∃ name, f.type = { base := .text name } ∧ s.name = .text name

/-- Every array that was given a wrapper refers to the one for its own elements and bound, and to no
other. -/
def OwnWrappers (aliases : Aliases) (d final : DeclarationSet) : Prop :=
  List.Forall₂ (fun s s' => List.Forall₂ (fun f f' => GetsWrapper aliases f →
      ∃ w ∈ final.inlineArrays, HasStructType f' w ∧
        WrapperFor (.of d) s.name (aliases.resolve f.type) f w ∧
          ∀ w' ∈ final.inlineArrays, HasStructType f' w' → w' = w)
    s.fields s'.fields) d.structs final.structs

namespace Finish

variable {aliases : Aliases} {o : Options} {d : DeclarationSet}

theorem inlineArrays_names (o : Options) (aliases : Aliases) (d : DeclarationSet) :
    (declarations o aliases d).inlineArrays.map (·.name) =
      (fieldsWithWrapper aliases d).map fun p => .text (wrapperName p.1 p.2.name) := by
  have hnames := (forall₂_wrapperFor o aliases d).imp fun _ _ hw => hw.name
  rw [← List.forall₂_eq_eq_eq, List.forall₂_map_left_iff, List.forall₂_map_right_iff]
  exact hnames.flip

/-- **The names of wrappers are distinct exactly where no array runs into another one.** -/
theorem nodup_inlineArrays_iff
    (h : ((fieldsWithWrapper aliases d).map fun p => (p.1.display, p.2.name.display)).Nodup) :
    ((declarations o aliases d).inlineArrays.map (·.name)).Nodup ↔ WrappersApart aliases d := by
  rw [inlineArrays_names, nodup_map_iff_of_keys h]
  constructor
  · intro hkeys p hp q hq hruns
    refine hkeys p hp q hq (fun hkey => hruns.display_ne (Prod.mk.inj hkey).1) ?_
    exact congrArg Leaf.text ((wrapperName_eq_iff hruns.display_ne).mpr (.inl hruns))
  · intro hapart p hp q hq hkey hname
    have hname := Leaf.text.inj hname
    by_cases hstruct : p.1.display = q.1.display
    · exact hkey (Prod.ext hstruct ((wrapperName_eq_iff_of_display_eq hstruct).mp hname))
    · rcases (wrapperName_eq_iff hstruct).mp hname with hruns | hruns
      · exact hapart p hp q hq hruns
      · exact hapart q hq p hp hruns

/-- A field that is given a wrapper has it as its type. -/
theorem type_of_getsWrapper {f : Field} (h : GetsWrapper aliases f) (scope : BoundScope)
    (struct : Leaf) :
    (layOutField aliases scope struct f).field.type = { base := wrapperName struct f.name } := by
  cases layOutField_layout aliases scope struct f with
  | single ha _ _ _ => exact absurd (ha.symm.trans h.1) (by simp)
  | unresolved _ ht _ _ _ _ => exact absurd ht h.2.1
  | buffer _ ht _ _ _ _ _ =>
      exact absurd (CsType.fitsBuffer_iff.mp ht).2 (CsType.needsWrapper_iff.mp h.2).2
  | wrapped _ _ _ htype _ _ => exact htype

/-- Where the names of wrappers are distinct, a reference leads to the wrapper of the field. -/
theorem ownWrappers_of_nodup
    (h : ((declarations o aliases d).inlineArrays.map (·.name)).Nodup) :
    OwnWrappers aliases d (declarations o aliases d) := by
  refine List.forall₂_map_right_iff.mpr (List.forall₂_same.mpr fun s hs => ?_)
  refine List.forall₂_map_right_iff.mpr (List.forall₂_map_right_iff.mpr
    (List.forall₂_same.mpr fun f hf hneeds => ?_))
  have hp : (s.name, f) ∈ fieldsWithWrapper aliases d :=
    mem_fieldsWithWrapper.mpr ⟨s, hs, rfl, hf, hneeds⟩
  obtain ⟨w, hw, hfor⟩ := exists_of_forall₂ (forall₂_wrapperFor o aliases d) hp
  have htype := type_of_getsWrapper hneeds (.of d) s.name
  refine ⟨w, hw, ⟨_, htype, hfor.name⟩, hfor, fun w' hw' hrefers => ?_⟩
  obtain ⟨name, hname, hname'⟩ := hrefers
  have hbase : name = wrapperName s.name f.name :=
    Key.text.inj (CsType.mk.inj (hname.symm.trans htype)).1
  exact List.inj_on_of_nodup_map h hw' hw (by rw [hname', hbase, hfor.name])

end Finish

/-- **Wrappers have names of their own unless one array runs into another one.** Whatever the
header, if its names are distinct and it gets its declarations, then this decides. -/
theorem finished_wrappersApart (o : Options) (d : Header.Definitions)
    (hn : IncludedNamesDistinct o d) :
    (d.WellTyped → ∃ final, finishedOf o d = .ok final) ∧
    ∀ final, finishedOf o d = .ok final →
      ∃ built, (Build.declarations d (.start o)).result = .ok built ∧
        ((final.inlineArrays.map (·.name)).Nodup ↔ WrappersApart (aliasesOf o d) built) ∧
        (WrappersApart (aliasesOf o d) built → OwnWrappers (aliasesOf o d) built final) := by
  refine ⟨fun h => ⟨_, finishedOf_eq h o⟩, fun final hfinal => ?_⟩
  obtain ⟨built, hbuilt, hfinish⟩ := bind_eq_ok.mp hfinal
  rw [Finish.finish_of_ok hfinish]
  have hkeys := hn.fieldsWithWrapper (Build.nothingLost_of_declarations hbuilt) (aliasesOf o d)
  have hiff := Finish.nodup_inlineArrays_iff (o := o) hkeys
  exact ⟨built, hbuilt, hiff, fun hapart => Finish.ownWrappers_of_nodup (hiff.mpr hapart)⟩

/-- Names with underscores, and one array of the same name in two structs. -/
def gridHeader : Header.Definitions where
  structs :=
    [{ name := "Cell" },
      { name := "Grid", fields :=
        [{ name := "cells", type := { description := .array (.user "Cell") (some "4") } },
          { name := "row_cells", type := { description := .array (.user "Cell") (some "2") } }] },
      { name := "Grid_Row", fields :=
        [{ name := "cells", type := { description := .array (.user "Cell") (some "8") } }] }]

theorem finished_wrappersApart_gridHeader : IncludedNamesDistinct {} gridHeader ∧
    gridHeader.WellTyped ∧ ∃ built final, finishedOf {} gridHeader = .ok final ∧
      (final.inlineArrays.map (·.name)).Nodup ∧
      OwnWrappers (aliasesOf {} gridHeader) built final := by
  have hnames : IncludedNamesDistinct {} gridHeader := ⟨by decide +kernel, by decide +kernel⟩
  have hwell : gridHeader.WellTyped := by decide
  obtain ⟨hends, hapart⟩ := finished_wrappersApart {} gridHeader hnames
  obtain ⟨final, hfinal⟩ := hends hwell
  obtain ⟨built, _, hiff, howns⟩ := hapart final hfinal
  have hwrappers : (finishedOf {} gridHeader).toOption.map (·.inlineArrays.map (·.name)) =
      some [.text "Grid_cellsInlineArray", .text "Grid_row_cellsInlineArray",
        .text "Grid_Row_cellsInlineArray"] := by
    decide +kernel
  have hnodup : (final.inlineArrays.map (·.name)).Nodup := by
    rw [hfinal] at hwrappers
    rw [show final.inlineArrays.map (·.name) = _ from Option.some.inj hwrappers]
    decide
  exact ⟨hnames, hwell, built, final, hfinal, hnodup, howns (hiff.mp hnodup)⟩

/-- The name of one struct goes on where that of another one stops. -/
def gluedHeader : Header.Definitions where
  structs :=
    [{ name := "Cell" },
      { name := "Grid", fields :=
        [{ name := "Row_cells", type := { description := .array (.user "Cell") (some "4") } }] },
      { name := "Grid_Row", fields :=
        [{ name := "cells", type := { description := .array (.user "Grid") (some "8") } }] }]

/-- Everything has its own name in the header, and both wrappers have the same. -/
theorem gluedHeader_not_nodup : gluedHeader.WellTyped ∧ IncludedNamesDistinct {} gluedHeader ∧
    ∃ final, finishedOf {} gluedHeader = .ok final ∧
      ¬(final.inlineArrays.map (·.name)).Nodup := by
  have hwell : gluedHeader.WellTyped := by decide
  obtain ⟨final, hfinal, -⟩ := finishedOf_finished hwell {}
  refine ⟨hwell, ⟨by decide +kernel, by decide +kernel⟩, final, hfinal, ?_⟩
  have hwrappers : (finishedOf {} gluedHeader).toOption.map (·.inlineArrays.map (·.name)) =
      some [.text "Grid_Row_cellsInlineArray", .text "Grid_Row_cellsInlineArray"] := by
    decide +kernel
  rw [hfinal] at hwrappers
  rw [show final.inlineArrays.map (·.name) = _ from Option.some.inj hwrappers]
  decide

end NativeBindings
