import NativeBindings.Proofs.AcceptanceRule
import NativeBindings.Proofs.NumericConstants

/-!
# What a define sees at its turn

A define is judged under the symbols known from the start and the names of the defines that
were accepted before: all those with fewer guards, and those that come earlier if there is at
most one guard (`Precedes`). Nothing else is known then, so what a define becomes can be said
by its own content and by the constants of the others (`turn_of_constantAt`).
-/

namespace NativeBindings.Build

open CSharp
open Header (Define)

/-! ## Types of constants -/

/-- The type of flags, and of constants that stand for other ones. -/
def bool : CsType := { base := "bool" }

/-- The type of texts. -/
def string : CsType := { base := "string" }

/-! ## Turns -/

/-- The first define is judged before the second one, which sees it if it is accepted. -/
def Precedes (q p : Placed) : Prop :=
  q.2.guards.length < p.2.guards.length ∨
    q.2.guards.length = p.2.guards.length ∧ p.2.guards.length ≤ 1 ∧ q.1 < p.1

/-- The text is the name of a symbol when the define has its turn. -/
def KnownAt (known : Symbols) (ds : List Define) (p : Placed) (x : String) : Prop :=
  Knows known x ∨ ∃ q ∈ placed ds, q.2.name = .text x ∧ (constantAt known ds q.1).isSome ∧
    Precedes q p

section Turns

variable {ds : List Define}

/-- What is taken was taken by its group, under what the smaller groups had made known. -/
theorem mem_takenWithGuards_of_takenOf {known : Symbols} {a : AcceptedDefine}
    (ha : a ∈ takenOf known ds) : ∃ guards,
      a ∈ takenWithGuards (knownBefore known ds guards) guards (withGuards (placed ds) guards) := by
  obtain ⟨before, guards, after, hgs, hgroup⟩ := exists_of_mem_taken ha
  -- the groups before it are those of all smaller numbers
  rw [guardNumbers, List.range_eq_range', List.range'_eq_append_iff] at hgs
  obtain ⟨k, _, rfl, hrest⟩ := hgs
  have hguards : k = guards := by
    have hfirst := (List.range'_eq_cons_iff.mp hrest.symm).1
    omega
  rw [← List.range_eq_range', hguards] at hgroup
  exact ⟨guards, hgroup⟩

theorem isSome_constantAt (h : ∀ d ∈ ds, d.WellTyped) (known : Symbols) (i : Nat) :
    (constantAt known ds i).isSome ↔ TakenAt (takenOf known ds) i := by
  rw [constantAt_eq h, Option.isSome_map, List.find?_isSome]
  simp only [TakenAt, decide_eq_true_eq]

/-- What is taken was judged at its turn, under nothing but what is known then. -/
theorem turn_of_mem_takenOf (h : ∀ d ∈ ds, d.WellTyped) {known : Symbols} {a : AcceptedDefine}
    (ha : a ∈ takenOf known ds) : ∃ p ∈ placed ds, ∃ known',
      accepted? (judgeDefine known' p) = some a ∧ ∀ x, Knows known' x ↔ KnownAt known ds p x := by
  obtain ⟨guards, ha⟩ := mem_takenWithGuards_of_takenOf ha
  rw [takenWithGuards] at ha
  split at ha
  · rename_i hfew
    obtain ⟨xs, p, ys, hsplit, hjudged⟩ := exists_of_mem_takenInTurn ha
    have hmem : p ∈ withGuards (placed ds) guards := by rw [hsplit]; simp
    obtain ⟨hp, hlen⟩ := mem_withGuards.mp hmem
    refine ⟨p, hp, _, hjudged, fun x => ?_⟩
    rw [knows_inTurn h hfew hsplit]
    refine or_congr_right (exists_congr fun q => and_congr_right fun hq =>
      and_congr_right fun _ => ?_)
    rw [isSome_constantAt h, Precedes, hlen, and_iff_right hfew]
  · rename_i hmany
    obtain ⟨p, hmem, hjudged⟩ := List.mem_filterMap.mp ha
    obtain ⟨hp, hlen⟩ := mem_withGuards.mp hmem
    refine ⟨p, hp, _, hjudged, fun x => ?_⟩
    rw [← hlen, knows_knownBefore h hp]
    refine or_congr_right (exists_congr fun q => and_congr_right fun hq =>
      and_congr_right fun _ => ?_)
    -- siblings do not see each other
    have hnone : ¬(p.2.guards.length ≤ 1 ∧ q.1 < p.1) := fun hfew => hmany (hlen ▸ hfew.1)
    rw [isSome_constantAt h, Precedes, and_comm, or_iff_left (fun hsame => hnone hsame.2)]

/-- The constant that the define at a place becomes at its turn. -/
structure Turn (known : Symbols) (ds : List Define) (i : Nat) (d : Define) (c : Constant) :
    Prop where
  define : ds[i]? = some d
  name : c.name = d.name
  /-- The content was judged under what is known at the turn. -/
  judged : ∃ known' replacement, (∀ x, Knows known' x ↔ KnownAt known ds (i, d) x) ∧
    replacementOf d = .ok replacement ∧
      ConstantFor known' (Text.strip replacement) c.type c.value

/-- **Every constant of a define comes from the turn of that define.** -/
theorem turn_of_constantAt (h : ∀ d ∈ ds, d.WellTyped) {known : Symbols} {i : Nat} {c : Constant}
    (hc : constantAt known ds i = some c) : ∃ d, Turn known ds i d c := by
  rw [constantAt_eq h] at hc
  obtain ⟨a, hfind, rfl⟩ := Option.map_eq_some_iff.mp hc
  have hindex : a.index = i := by simpa using List.find?_some hfind
  obtain ⟨⟨j, d⟩, hp, known', hjudged, hknown⟩ :=
    turn_of_mem_takenOf h (List.mem_of_find?_eq_some hfind)
  obtain ⟨hplace, replacement, hreplacement, hconstant⟩ :=
    accepted_of_judgeDefine (accepted?_eq_some.mp hjudged)
  obtain rfl : j = i := hplace.symm.trans hindex
  obtain ⟨c, hc, hname, hfor⟩ := constantOf_for known' d (Text.strip replacement)
  obtain rfl : c = a.constant := Except.ok.inj (hc.symm.trans hconstant)
  exact ⟨d, mem_placed.mp hp, hname, known', replacement, hknown, hreplacement, hfor⟩

end Turns

end NativeBindings.Build
