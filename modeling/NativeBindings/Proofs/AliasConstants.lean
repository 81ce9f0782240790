import NativeBindings.Proofs.DefineTurns

/-!
# Constants that stand for others

A define whose content is the name of a known symbol becomes a flag with that name as its
value: it stands for the constant of the symbol. A symbol is known only once it has a
constant, so no such alias dangles. And what is known when a define has its turn was judged
before. So an alias leads back to an earlier turn, and whoever follows aliases comes to an
end.

All this is about names. Where a name is defined twice, an alias may lead to either constant,
and one of them may come later; so the way back needs names that differ.
-/

namespace NativeBindings.Build

open CSharp
open Header (Define)

/-- The constant stands for another one: it is a flag, but it does not say that it is true. -/
def IsAlias (c : Constant) : Prop := c.type = bool ∧ c.value ≠ "true"

/-- The constant stands for the second one, which is in the list. -/
def LeadsTo (cs : List Constant) (c c' : Constant) : Prop :=
  IsAlias c ∧ c' ∈ cs ∧ c'.name = .text c.value

/-- Whoever follows aliases from the constant comes to the end of them, whichever way is taken, and
there is a constant that is no alias. -/
inductive Grounded (cs : List Constant) : Constant → Prop where
  /-- The constant is no alias. -/
  | value {c : Constant} (h : ¬IsAlias c) : Grounded cs c
  /-- The constant leads on, and from there the end is reached. -/
  | step {c : Constant} (h : ∃ c', LeadsTo cs c c')
      (hall : ∀ c', LeadsTo cs c c' → Grounded cs c') : Grounded cs c

/-! ## The constants in a list -/

/-- The constants of the known symbols and of the defines. -/
def allConstants (known : Symbols) (ds : List Define) : List Constant :=
  seededConstants known ++ (List.range ds.length).filterMap (constantAt known ds)

section Constants

variable {known : Symbols} {ds : List Define}

theorem mem_allConstants (h : ∀ d ∈ ds, d.WellTyped) {c : Constant} :
    c ∈ allConstants known ds ↔
      c ∈ seededConstants known ∨ ∃ i, constantAt known ds i = some c := by
  rw [allConstants, List.mem_append, List.mem_filterMap]
  refine or_congr_right (exists_congr fun i => and_iff_right_of_imp fun hi => ?_)
  obtain ⟨d, hturn⟩ := turn_of_constantAt h hi
  exact List.mem_range.mpr (List.getElem?_eq_some_iff.mp hturn.define).1

/-- A symbol that is known from the start has a constant with its name. -/
theorem exists_seededConstant {x : String} (hx : Knows known x) :
    ∃ c ∈ seededConstants known, c.name = .text x := by
  obtain ⟨k, hk, hx⟩ := List.any_eq_true.mp hx
  obtain ⟨e, he, rfl⟩ := List.mem_map.mp hk
  refine ⟨_, List.mem_map_of_mem he, ?_⟩
  rw [Key.beq_text.mp hx]
  rfl

theorem type_of_mem_seededConstants {c : Constant} (hc : c ∈ seededConstants known) :
    c.type = string := by
  obtain ⟨e, _, rfl⟩ := List.mem_map.mp hc
  rfl

theorem not_isAlias_of_seeded {c : Constant} (hc : c ∈ seededConstants known) : ¬IsAlias c := by
  intro halias
  have hstring : string ≠ bool := by decide
  exact hstring ((type_of_mem_seededConstants hc).symm.trans halias.1)

theorem ConstantFor.knows_of_bool {content value : String} {type : CsType}
    (h : ConstantFor known content type value) (htype : type = bool) :
    value = "true" ∨ Knows known value := by
  have hother : long ≠ bool ∧ string ≠ bool := by decide
  cases h with
  | flag _ => exact .inl rfl
  | symbol hknown => exact .inr hknown
  | number _ => exact absurd htype hother.1
  | text _ _ => exact absurd htype hother.2
  | unsupported _ => exact .inl rfl

/-- A flag that is not true is the name of something known at its turn. -/
theorem Turn.knownAt_of_bool {i : Nat} {d : Define} {c : Constant} (h : Turn known ds i d c)
    (htype : c.type = bool) : c.value = "true" ∨ KnownAt known ds (i, d) c.value := by
  obtain ⟨known', _, hknown, _, hfor⟩ := h.judged
  exact (hfor.knows_of_bool htype).imp_right (hknown c.value).mp

/-- What is known when a define has its turn has a constant. -/
theorem exists_constant_of_knownAt (h : ∀ d ∈ ds, d.WellTyped) {p : Placed} {x : String}
    (hx : KnownAt known ds p x) : ∃ c ∈ allConstants known ds, c.name = .text x := by
  rcases hx with hx | ⟨q, hq, hname, hsome, _⟩
  · obtain ⟨c, hc, hcname⟩ := exists_seededConstant hx
    exact ⟨c, (mem_allConstants h).mpr (.inl hc), hcname⟩
  · obtain ⟨c, hc⟩ := Option.isSome_iff_exists.mp hsome
    obtain ⟨d, hturn⟩ := turn_of_constantAt h hc
    have hd : d = q.2 := Option.some.inj (hturn.define.symm.trans (mem_placed.mp hq))
    refine ⟨c, (mem_allConstants h).mpr (.inr ⟨q.1, hc⟩), ?_⟩
    rw [hturn.name, hd, hname]

/-- No alias dangles. -/
theorem exists_constant_of_bool (h : ∀ d ∈ ds, d.WellTyped) {c : Constant}
    (hc : c ∈ allConstants known ds) (htype : c.type = bool) :
    c.value = "true" ∨ ∃ c' ∈ allConstants known ds, c'.name = .text c.value := by
  rcases (mem_allConstants h).mp hc with hc | ⟨i, hi⟩
  · have hstring : string ≠ bool := by decide
    exact absurd ((type_of_mem_seededConstants hc).symm.trans htype) hstring
  · obtain ⟨d, hturn⟩ := turn_of_constantAt h hi
    exact (hturn.knownAt_of_bool htype).imp_right (exists_constant_of_knownAt h)

end Constants

/-! ## Names that differ -/

/-- No two defines have one name, and none has that of a symbol known from the start. -/
structure NamedOnce (known : Symbols) (ds : List Define) : Prop where
  distinct : (ds.map (·.name)).Nodup
  new : ∀ d ∈ ds, ∀ x, d.name = .text x → ¬Knows known x

section Back

variable {known : Symbols} {ds : List Define} (h : ∀ d ∈ ds, d.WellTyped)
  (hnames : NamedOnce known ds)

include hnames in
/-- A name has one place. -/
theorem NamedOnce.eq_of_name {i j : Nat} {d d' : Define} (hi : ds[i]? = some d)
    (hj : ds[j]? = some d') (hname : d.name = d'.name) : i = j := by
  have hlt : i < (ds.map (·.name)).length := by
    rw [List.length_map]
    exact (List.getElem?_eq_some_iff.mp hi).1
  refine (List.getElem?_inj hlt hnames.distinct).mp ?_
  rw [List.getElem?_map, List.getElem?_map, hi, hj, Option.map_some, Option.map_some, hname]

include h hnames in
/-- An alias leads to a symbol known from the start, or to the constant of a define that has its
turn before. -/
theorem LeadsTo.back {i : Nat} {d : Define} {c c' : Constant} (hturn : Turn known ds i d c)
    (hto : LeadsTo (allConstants known ds) c c') : c' ∈ seededConstants known ∨
      ∃ q ∈ placed ds, constantAt known ds q.1 = some c' ∧ Precedes q (i, d) := by
  obtain ⟨⟨htype, hvalue⟩, hmem, hname⟩ := hto
  rcases (mem_allConstants h).mp hmem with hc' | ⟨j, hj⟩
  · exact .inl hc'
  · obtain ⟨e, hturn'⟩ := turn_of_constantAt h hj
    have hename : e.name = .text c.value := hturn'.name.symm.trans hname
    have hknown := (hturn.knownAt_of_bool htype).resolve_left hvalue
    rcases hknown with hseed | ⟨q, hq, hqname, _, hprecedes⟩
    · exact absurd hseed (hnames.new e (List.mem_of_getElem? hturn'.define) _ hename)
    · -- of the name there is one define, so it is the one that was known
      have hplace : q.1 = j := hnames.eq_of_name (mem_placed.mp hq) hturn'.define
        (hqname.trans hename.symm)
      exact .inr ⟨q, hq, hplace ▸ hj, hprecedes⟩

include h hnames in
/-- Turns go back as aliases are followed, so there is an end. -/
theorem Turn.grounded {i : Nat} {d : Define} {c : Constant} (hturn : Turn known ds i d c) :
    Grounded (allConstants known ds) c := by
  by_cases halias : IsAlias c
  · obtain ⟨c', hc', hname⟩ := (exists_constant_of_knownAt h)
      ((hturn.knownAt_of_bool halias.1).resolve_left halias.2)
    refine .step ⟨c', halias, hc', hname⟩ fun c'' hto => ?_
    rcases hto.back h hnames hturn with hseed | ⟨q, hq, hc'', hprecedes⟩
    · exact .value (not_isAlias_of_seeded hseed)
    · obtain ⟨e, hturn'⟩ := turn_of_constantAt h hc''
      have he : e = q.2 := Option.some.inj (hturn'.define.symm.trans (mem_placed.mp hq))
      exact hturn'.grounded
  · exact .value halias
termination_by (d.guards.length, i)
decreasing_by
  rcases hprecedes with hfewer | ⟨hlen, _, hlt⟩
  · exact Prod.Lex.left _ _ (he ▸ hfewer)
  · rw [he, hlen]
    exact Prod.Lex.right _ hlt

end Back

/-! ## The constants of a header -/

/-- Aliases lead back, turn by turn, to constants that are none. -/
structure AliasesLeadBack (known : Symbols) (ds : List Define) (cs : List Constant) : Prop where
  /-- An alias leads to symbols known from the start, and to defines that have their turn before. -/
  back : ∀ c ∈ cs, ∀ c', LeadsTo cs c c' → c' ∈ seededConstants known ∨
    ∃ p ∈ placed ds, ∃ q ∈ placed ds, constantAt known ds p.1 = some c ∧
      constantAt known ds q.1 = some c' ∧ Precedes q p
  /-- There is an end to it. -/
  grounded : ∀ c ∈ cs, Grounded cs c

/-- **No alias dangles, and where names differ, every alias leads back to a value.** -/
theorem constants_aliasesGrounded {ds : List Define} (h : ∀ d ∈ ds, d.WellTyped) (b : Builder) :
    ∃ cs, (constants ds b).result = .ok cs ∧
      (∀ c ∈ cs, c.type = bool → c.value = "true" ∨ ∃ c' ∈ cs, c'.name = .text c.value) ∧
      (NamedOnce b.known ds → AliasesLeadBack b.known ds cs) := by
  refine ⟨allConstants b.known ds, result_constants h b, fun c hc => exists_constant_of_bool h hc,
    fun hnames => ⟨fun c hc c' hto => ?_, fun c hc => ?_⟩⟩
  · rcases (mem_allConstants h).mp hc with hc | ⟨i, hi⟩
    · exact absurd hto.1 (not_isAlias_of_seeded hc)
    · obtain ⟨d, hturn⟩ := turn_of_constantAt h hi
      refine (hto.back h hnames hturn).imp_right fun hbefore => ?_
      obtain ⟨q, hq, hc', hprecedes⟩ := hbefore
      exact ⟨(i, d), mem_placed.mpr hturn.define, q, hq, hi, hc', hprecedes⟩
  · rcases (mem_allConstants h).mp hc with hc | ⟨i, hi⟩
    · exact .value (not_isAlias_of_seeded hc)
    · obtain ⟨d, hturn⟩ := turn_of_constantAt h hi
      exact hturn.grounded h hnames

/-- Aliases of aliases at several depths. The first define stands for one that comes later. -/
def chainDefines : List Define :=
  [{ name := "LAST", content := some "MIDDLE", guards := [⟨"ifdef", "A"⟩, ⟨"ifdef", "FIRST"⟩] },
   { name := "MIDDLE", content := some " FIRST ", guards := [⟨"ifdef", "FIRST"⟩] },
   { name := "FIRST", content := some "IMGUI_DISABLE_OBSOLETE_KEYIO" },
   { name := "OTHER", content := some "LATER" },
   { name := "LATER" }]

theorem namedOnce_chainDefines : NamedOnce (Builder.start {}).known chainDefines := by
  refine ⟨by decide, fun d hd x hname hknown => ?_⟩
  have hnew : ∀ d ∈ chainDefines, ∀ e ∈ (Builder.start {}).known.entries,
      d.name ≠ e.1.toLeaf := by decide
  obtain ⟨c, hc, hcname⟩ := exists_seededConstant hknown
  obtain ⟨e, he, rfl⟩ := List.mem_map.mp hc
  exact hnew d hd e he (hname.trans hcname.symm)

theorem constants_aliasesGrounded_chainDefines :
    (∀ d ∈ chainDefines, d.WellTyped) ∧ NamedOnce (Builder.start {}).known chainDefines ∧
      ∃ cs, (constants chainDefines (.start {})).result = .ok cs ∧
        (∀ c ∈ cs, c.type = bool → c.value = "true" ∨ ∃ c' ∈ cs, c'.name = .text c.value) ∧
        AliasesLeadBack (Builder.start {}).known chainDefines cs := by
  have htexts : ∀ d ∈ chainDefines, d.WellTyped := by decide
  obtain ⟨cs, hcs, hnamed, hback⟩ := constants_aliasesGrounded htexts (.start {})
  exact ⟨htexts, namedOnce_chainDefines, cs, hcs, hnamed, hback namedOnce_chainDefines⟩

end NativeBindings.Build
