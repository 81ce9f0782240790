import Mathlib.Data.List.FinRange
import NativeBindings.Proofs.Defines

/-!
# Which defines become constants

What comes of a pass over the defines can be said without the order of its groups:
`AcceptanceRule` gives, for every define, the symbols under which its last guard is read,
and the rule leaves no choice (`unique_at`). The main statement is that the constants are
those of the defines which the rule accepts, in the order of the header.
-/

namespace NativeBindings.Build

open Header (Define Guard)

/-! ## What is known when a group has its turn -/

section Rule

variable {ds : List Define}

/-- The groups with fewer guards take what they take in the end. -/
theorem takenAt_fewer (h : ∀ d ∈ ds, d.WellTyped) {p q : Placed} (hp : p ∈ placed ds)
    (hq : q ∈ placed ds) (known : Symbols) :
    TakenAt (taken known (placed ds) (List.range p.2.guards.length)) q.1 ↔
      q.2.guards.length < p.2.guards.length ∧ TakenAt (takenOf known ds) q.1 := by
  obtain ⟨after, hsplit, hafter⟩ := guardNumbers_split hp
  -- the groups are judged by rising numbers of guards
  have hdisjoint : ∀ k ∈ List.range p.2.guards.length, k ∉ p.2.guards.length :: after := by
    intro k hk hmem
    have hlt := List.mem_range.mp hk
    rcases List.mem_cons.mp hmem with rfl | hmem
    · omega
    · have := hafter k hmem
      omega
  rw [takenOf, hsplit, takenAt_before (allWellTyped_placed h) (rising_placed ds) hq hdisjoint,
    List.mem_range]

/-- What is known before the group of a define is judged. -/
def knownBefore (known : Symbols) (ds : List Define) (guards : Nat) : Symbols :=
  (taken known (placed ds) (List.range guards)).foldl learn known

theorem knows_knownBefore (h : ∀ d ∈ ds, d.WellTyped) {p : Placed} (hp : p ∈ placed ds)
    (known : Symbols) (x : String) :
    Knows (knownBefore known ds p.2.guards.length) x ↔
      Knows known x ∨ ∃ q ∈ placed ds, q.2.name = .text x ∧
        q.2.guards.length < p.2.guards.length ∧ TakenAt (takenOf known ds) q.1 := by
  rw [knownBefore, knows_foldl_learn (allComeFrom_taken (allWellTyped_placed h) known _)
    (rising_placed ds)]
  refine or_congr_right (exists_congr fun q => and_congr_right fun hq => ?_)
  exact and_congr_right fun _ => takenAt_fewer h hp hq known

/-- A define is taken exactly if its group takes it under what is known before. -/
theorem takenAt_takenOf (h : ∀ d ∈ ds, d.WellTyped) {p : Placed} (hp : p ∈ placed ds)
    (known : Symbols) :
    TakenAt (takenOf known ds) p.1 ↔
      TakenAt (takenWithGuards (knownBefore known ds p.2.guards.length) p.2.guards.length
        (withGuards (placed ds) p.2.guards.length)) p.1 := by
  obtain ⟨after, hsplit, _⟩ := guardNumbers_split hp
  have hnodup : (guardNumbers ds).Nodup := List.nodup_range
  rw [hsplit] at hnodup
  rw [takenOf, hsplit]
  exact takenAt_taken (allWellTyped_placed h) (rising_placed ds) hp hnodup known

theorem survives_iff {d : Define} {g : Guard} (hg : d.guards.getLast? = some g)
    {known known' : String → Prop} (hknown : ∀ x, known x ↔ known' x) :
    Survives known d ↔ g.Holds known' := by
  rw [← Guard.Holds.congr hknown]
  constructor
  · intro hs
    exact hs g hg
  · intro hholds g' hg'
    rw [hg] at hg'
    injection hg' with hg'
    exact hg' ▸ hholds

/-- A define with at most one guard is taken exactly if its group takes it in turn. -/
theorem takenAt_few (h : ∀ d ∈ ds, d.WellTyped) {p : Placed} (hp : p ∈ placed ds) {guards : Nat}
    (hlen : p.2.guards.length = guards) (hfew : guards ≤ 1) (known : Symbols) :
    TakenAt (takenOf known ds) p.1 ↔ TakenAt (takenInTurn (knownBefore known ds guards)
      (withGuards (placed ds) guards)) p.1 := by
  rw [takenAt_takenOf h hp, hlen, takenWithGuards, if_pos hfew]

theorem takenAt_unguarded (h : ∀ d ∈ ds, d.WellTyped) {p : Placed} (hp : p ∈ placed ds)
    (hg : p.2.guards = []) (known : Symbols) : TakenAt (takenOf known ds) p.1 := by
  have hlen : p.2.guards.length = 0 := by rw [hg]; rfl
  obtain ⟨xs, ys, hsplit⟩ := List.append_of_mem (mem_withGuards.mpr ⟨hp, hlen⟩)
  have hsub : (xs ++ p :: ys).Sublist (placed ds) := hsplit ▸ List.filter_sublist
  have hgroup := (allWellTyped_placed h).sublist hsub
  have hrising := (rising_placed ds).sublist hsub
  rw [takenAt_few h hp hlen (Nat.zero_le 1), hsplit, takenAt_takenInTurn hgroup hrising]
  intro g hlast
  rw [hg] at hlast
  exact absurd hlast (by simp)

/-- In turn, a define sees what was taken with fewer guards, and what its group took before it. -/
theorem knows_inTurn (h : ∀ d ∈ ds, d.WellTyped) {guards : Nat} (hfew : guards ≤ 1)
    {xs ys : List Placed} {p : Placed} (hsplit : withGuards (placed ds) guards = xs ++ p :: ys)
    (known : Symbols) (x : String) :
    Knows ((takenInTurn (knownBefore known ds guards) xs).foldl learn
        (knownBefore known ds guards)) x ↔
      Knows known x ∨ ∃ q ∈ placed ds, q.2.name = .text x ∧ TakenAt (takenOf known ds) q.1 ∧
        (q.2.guards.length < guards ∨ q.2.guards.length = guards ∧ q.1 < p.1) := by
  have hplaced : ∀ q ∈ xs ++ p :: ys, q ∈ placed ds ∧ q.2.guards.length = guards :=
    fun q hq => mem_withGuards.mp (hsplit ▸ hq)
  obtain ⟨hp, hlen⟩ := hplaced p (List.mem_append_right _ List.mem_cons_self)
  have hsub : (xs ++ p :: ys).Sublist (placed ds) := hsplit ▸ List.filter_sublist
  have hgroup := (allWellTyped_placed h).sublist hsub
  have hrising := (rising_placed ds).sublist hsub
  have hin : ∀ q ∈ placed ds, q.2.guards.length = guards → (TakenAt (takenOf known ds) q.1 ↔
      TakenAt (takenInTurn (knownBefore known ds guards) (xs ++ p :: ys)) q.1) := by
    intro q hq hlenq
    rw [takenAt_few h hq hlenq hfew, hsplit]
  -- before its turn there are the groups with fewer guards, and the front of its own
  have hbefore := knows_knownBefore h hp known x
  rw [hlen] at hbefore
  have hfront : AllComeFrom (takenInTurn (knownBefore known ds guards) xs) (placed ds) := by
    intro a ha
    obtain ⟨q, hq, hfrom⟩ := mem_takenInTurn (hgroup.sublist (List.sublist_append_left xs _)) ha
    exact ⟨q, (hplaced q (List.mem_append_left _ hq)).1, hfrom⟩
  rw [knows_foldl_learn hfront (rising_placed ds), hbefore, or_assoc, ← exists_or]
  refine or_congr_right (exists_congr fun q => ?_)
  rw [takenAt_front hgroup hrising]
  constructor
  · intro hbefore
    rcases hbefore with ⟨hq, hname, hlt, hat⟩ | ⟨hq, hname, hlt, hat⟩
    · exact ⟨hq, hname, hat, .inl hlt⟩
    · -- what the group takes at this place has as many guards as everything in the group
      obtain ⟨a, ha, hi⟩ := hat
      obtain ⟨r, hr, hfrom⟩ := mem_takenInTurn hgroup ha
      obtain ⟨hrmem, hlenr⟩ := hplaced r hr
      have hsame : q = r := (rising_placed ds).eq_of_index hq hrmem hfrom hi
      have hlenq : q.2.guards.length = guards := hsame ▸ hlenr
      exact ⟨hq, hname, (hin q hq hlenq).mpr ⟨a, ha, hi⟩, .inr ⟨hlenq, hlt⟩⟩
  · intro hsees
    rcases hsees with ⟨hq, hname, hat, hlt | ⟨hlenq, hlt⟩⟩
    · exact .inl ⟨hq, hname, hlt, hat⟩
    · exact .inr ⟨hq, hname, hlt, (hin q hq hlenq).mp hat⟩

/-- A define with one guard sees those without guards, and what was taken before it. -/
theorem takenAt_single (h : ∀ d ∈ ds, d.WellTyped) {p : Placed} (hp : p ∈ placed ds) {g : Guard}
    (hg : p.2.guards = [g]) (known : Symbols) :
    TakenAt (takenOf known ds) p.1 ↔ g.Holds fun x => Knows known x ∨
      ∃ q ∈ placed ds, q.2.name = .text x ∧ (q.2.guards = [] ∨
        q.1 < p.1 ∧ TakenAt (takenOf known ds) q.1 ∧ q.2.guards.length = 1) := by
  have hlen : p.2.guards.length = 1 := by rw [hg]; rfl
  have hlast : p.2.guards.getLast? = some g := by rw [hg]; rfl
  obtain ⟨xs, ys, hsplit⟩ := List.append_of_mem (mem_withGuards.mpr ⟨hp, hlen⟩)
  have hsub : (xs ++ p :: ys).Sublist (placed ds) := hsplit ▸ List.filter_sublist
  have hgroup := (allWellTyped_placed h).sublist hsub
  have hrising := (rising_placed ds).sublist hsub
  rw [takenAt_few h hp hlen (Nat.le_refl 1), hsplit, takenAt_takenInTurn hgroup hrising]
  refine survives_iff hlast fun x => ?_
  rw [knows_inTurn h (Nat.le_refl 1) hsplit]
  refine or_congr_right (exists_congr fun q => and_congr_right fun hq => and_congr_right fun _ => ?_)
  constructor
  · intro hsees
    rcases hsees with ⟨hat, hlt | ⟨hlenq, hlt⟩⟩
    · exact .inl (List.length_eq_zero_iff.mp (by omega))
    · exact .inr ⟨hlt, hat, hlenq⟩
  · intro hsees
    rcases hsees with hempty | ⟨hlt, hat, hlenq⟩
    · exact ⟨takenAt_unguarded h hq hempty known, .inl (by rw [hempty]; exact Nat.zero_lt_one)⟩
    · exact ⟨hat, .inr ⟨hlenq, hlt⟩⟩

/-- A define with several guards sees what was taken with fewer. -/
theorem takenAt_nested (h : ∀ d ∈ ds, d.WellTyped) {p : Placed} (hp : p ∈ placed ds) {g : Guard}
    (hmany : 2 ≤ p.2.guards.length) (hlast : p.2.guards.getLast? = some g) (known : Symbols) :
    TakenAt (takenOf known ds) p.1 ↔ g.Holds fun x => Knows known x ∨
      ∃ q ∈ placed ds, q.2.name = .text x ∧
        q.2.guards.length < p.2.guards.length ∧ TakenAt (takenOf known ds) q.1 := by
  have hmem : p ∈ withGuards (placed ds) p.2.guards.length :=
    mem_withGuards.mpr ⟨hp, rfl⟩
  have hgroup : AllWellTyped (withGuards (placed ds) p.2.guards.length) :=
    (allWellTyped_placed h).sublist List.filter_sublist
  have hrising : Rising (withGuards (placed ds) p.2.guards.length) :=
    (rising_placed ds).sublist List.filter_sublist
  rw [takenAt_takenOf h hp, takenWithGuards, if_neg (by omega), takenAt_atOnce hgroup hrising hmem]
  exact survives_iff hlast fun x => knows_knownBefore h hp known x

end Rule

/-- Which defines are accepted, told by the defines alone: those without guards; with a
single guard, those whose guard holds under the names of all defines without guards and of the
accepted ones with a single guard that come earlier; with more guards, those whose last guard
holds under the names of all accepted ones with fewer guards. -/
structure AcceptanceRule (known : Symbols) (ds : List Define) (accepted : Fin ds.length → Bool) :
    Prop where
  /-- A define without guards is accepted. -/
  unguarded : ∀ i, ds[i].guards = [] → accepted i = true
  /-- A define with one guard does not see what comes later. -/
  single : ∀ i g, ds[i].guards = [g] →
    (accepted i = true ↔ g.Holds fun x => Knows known x ∨
      ∃ j, ds[j].name = .text x ∧
        (ds[j].guards = [] ∨ j < i ∧ accepted j = true ∧ ds[j].guards.length = 1))
  /-- A define with more guards does not see its siblings. -/
  nested : ∀ i g, 2 ≤ ds[i].guards.length → ds[i].guards.getLast? = some g →
    (accepted i = true ↔ g.Holds fun x => Knows known x ∨
      ∃ j, ds[j].name = .text x ∧
        ds[j].guards.length < ds[i].guards.length ∧ accepted j = true)

namespace AcceptanceRule

variable {known : Symbols} {ds : List Define}

/-- The rule leaves no choice: what it says of a define depends only on defines with fewer
guards, and on earlier ones with as many. -/
theorem unique_at {accepted other : Fin ds.length → Bool} (h : AcceptanceRule known ds accepted)
    (h' : AcceptanceRule known ds other) (i : Fin ds.length) : accepted i = other i := by
  rw [Bool.eq_iff_iff]
  rcases List.eq_nil_or_concat ds[i].guards with hg | ⟨front, g, hg⟩
  · exact ⟨fun _ => h'.unguarded i hg, fun _ => h.unguarded i hg⟩
  -- earlier siblings matter for one guard only, so the two rules differ here
  · by_cases hone : front = []
    · have hsingle : ds[i].guards = [g] := by rw [hg, hone]; rfl
      rw [h.single i g hsingle, h'.single i g hsingle]
      refine Guard.Holds.congr fun x => or_congr_right (exists_congr fun j =>
        and_congr_right fun _ => or_congr_right (and_congr_right fun hlt =>
          and_congr_left fun hlen => ?_))
      have hdec : ds[j].guards.length = ds[i].guards.length := by rw [hlen, hsingle]; rfl
      rw [unique_at h h' j]
    · have hlast : ds[i].guards.getLast? = some g := by rw [hg]; simp
      have hpos : 0 < front.length := List.length_pos_iff.mpr hone
      have hmany : 2 ≤ ds[i].guards.length := by rw [hg, List.length_concat]; omega
      rw [h.nested i g hmany hlast, h'.nested i g hmany hlast]
      refine Guard.Holds.congr fun x => or_congr_right (exists_congr fun j =>
        and_congr_right fun _ => and_congr_right fun hfewer => ?_)
      rw [unique_at h h' j]
termination_by (ds[i].guards.length, i.val)
decreasing_by
  · rw [hdec]
    exact Prod.Lex.right _ hlt
  · exact Prod.Lex.left _ _ hfewer

end AcceptanceRule

/-- The verdicts of a pass follow the rule. -/
theorem acceptanceRule_takenOf {ds : List Define} (h : ∀ d ∈ ds, d.WellTyped) (known : Symbols)
    {accepted : Fin ds.length → Bool}
    (haccepted : ∀ i, accepted i = true ↔ TakenAt (takenOf known ds) i) :
    AcceptanceRule known ds accepted := by
  have hplaced : ∀ i : Fin ds.length, ((i : Nat), ds[i]) ∈ placed ds :=
    fun i => mem_placed.mpr (List.getElem?_eq_getElem i.isLt)
  -- the lemmas above speak of places, the rule of the list's own indices
  have hexists : ∀ {P : Nat → Define → Prop},
      (∃ q ∈ placed ds, P q.1 q.2) ↔ ∃ j : Fin ds.length, P j ds[j] := by
    intro P
    constructor
    · intro hplace
      obtain ⟨⟨j, d⟩, hq, hP⟩ := hplace
      obtain ⟨hj, hd⟩ := List.getElem?_eq_some_iff.mp (mem_placed.mp hq)
      have hd : ds[j] = d := hd
      refine ⟨⟨j, hj⟩, ?_⟩
      show P j ds[j]
      rw [hd]
      exact hP
    · intro hindex
      obtain ⟨j, hP⟩ := hindex
      exact ⟨_, hplaced j, hP⟩
  refine ⟨fun i hg => ?_, fun i g hg => ?_, fun i g hmany hlast => ?_⟩
  · exact (haccepted i).mpr (takenAt_unguarded h (hplaced i) hg known)
  · rw [haccepted, takenAt_single h (hplaced i) hg known]
    refine Guard.Holds.congr fun x => or_congr_right ?_
    rw [hexists (P := fun k d => d.name = .text x ∧ (d.guards = [] ∨
      k < (i : Nat) ∧ TakenAt (takenOf known ds) k ∧ d.guards.length = 1))]
    simp only [haccepted, Fin.lt_def]
  · rw [haccepted, takenAt_nested h (hplaced i) hmany hlast known]
    refine Guard.Holds.congr fun x => or_congr_right ?_
    rw [hexists (P := fun k d => d.name = .text x ∧
      d.guards.length < ds[i].guards.length ∧ TakenAt (takenOf known ds) k)]
    simp only [haccepted]

/-! ## The constants -/

/-- What is taken at a place comes from the define there. -/
theorem comesFrom_takenOf {ds : List Define} (h : ∀ d ∈ ds, d.WellTyped) (known : Symbols)
    {a : AcceptedDefine} (ha : a ∈ takenOf known ds) {i : Fin ds.length} (hi : a.index = i) :
    ComesFrom a (i, ds[i]) := by
  obtain ⟨⟨j, d⟩, hp, hfrom⟩ := allComeFrom_takenOf h known a ha
  have hplace : j = i := hfrom.index.symm.trans hi
  subst hplace
  obtain ⟨_, hdefine⟩ := List.getElem?_eq_some_iff.mp (mem_placed.mp hp)
  have hdefine : ds[i] = d := hdefine
  rw [hdefine]
  exact hfrom

/-- The constant at a place is there exactly if the define is taken, and has its name. -/
theorem name_find?_takenOf {ds : List Define} (h : ∀ d ∈ ds, d.WellTyped) (known : Symbols)
    {accepted : Fin ds.length → Bool}
    (haccepted : ∀ i, accepted i = true ↔ TakenAt (takenOf known ds) i) (i : Fin ds.length) :
    ((takenOf known ds).find? (·.index = i.val)).map (·.constant.name) =
      if accepted i then some ds[i].name else none := by
  cases hfind : (takenOf known ds).find? (·.index = i.val) with
  | none =>
      have hnot : ¬accepted i = true := by
        rw [haccepted]
        intro hat
        obtain ⟨a, ha, hi⟩ := hat
        exact absurd (decide_eq_true hi) (List.find?_eq_none.mp hfind a ha)
      rw [if_neg hnot, Option.map_none]
  | some a =>
      have ha : a ∈ takenOf known ds := List.mem_of_find?_eq_some hfind
      have hi : a.index = i.val := by simpa using List.find?_some hfind
      have hname := (comesFrom_takenOf h known ha hi).name
      rw [if_pos ((haccepted i).mpr ⟨a, ha, hi⟩), Option.map_some, hname]

/-- One constant for each accepted define, in the order of the header. -/
theorem names_inHeaderOrder {ds : List Define} (h : ∀ d ∈ ds, d.WellTyped) (known : Symbols)
    {accepted : Fin ds.length → Bool}
    (haccepted : ∀ i, accepted i = true ↔ TakenAt (takenOf known ds) i) :
    (inHeaderOrder ds.length (takenOf known ds)).map (·.name) =
      ((List.finRange ds.length).filter accepted).map fun i => ds[i].name := by
  rw [inHeaderOrder, List.map_filterMap, ← List.map_coe_finRange_eq_range, List.filterMap_map,
    ← List.filterMap_eq_map, List.filterMap_filter]
  refine List.filterMap_congr fun i _ => ?_
  have hname := name_find?_takenOf h known haccepted i
  rw [Function.comp_apply, Option.map_map]
  exact hname

/-- What becomes of the defines of a header when some of them are accepted. -/
structure ConstantsOf (ds : List Define) (b : Builder) (accepted : Fin ds.length → Bool) :
    Prop where
  /-- The rule says which defines are accepted. -/
  rule : AcceptanceRule b.known ds accepted
  /-- Nothing else follows the rule. -/
  unique : ∀ other, AcceptanceRule b.known ds other → other = accepted
  /-- There is one text for every symbol known from the start, in the order of the table, and
  then one constant for every accepted define, in the order of the header. -/
  result : ∃ seeded built, (constants ds b).result = .ok (seeded ++ built) ∧
    seeded.map (fun c => (c.name, c.type)) =
      b.known.keys.map (fun k => (k.toLeaf, { base := "string" })) ∧
    built.map (·.name) = ((List.finRange ds.length).filter accepted).map fun i => ds[i].name
  /-- Afterwards the names of the accepted defines are known, and nothing else is new. -/
  known : ∀ k, (constants ds b).builder.known.contains k = true ↔
    b.known.contains k = true ∨ ∃ i x, accepted i = true ∧ ds[i].name = .text x ∧ k = .text x

/-- **The defines that become constants are those that the rule accepts.** -/
theorem constants_accepted {ds : List Define} (h : ∀ d ∈ ds, d.WellTyped) (b : Builder) :
    ∃ accepted, ConstantsOf ds b accepted := by
  classical
  have haccepted : ∀ i : Fin ds.length,
      decide (TakenAt (takenOf b.known ds) i) = true ↔ TakenAt (takenOf b.known ds) i :=
    fun i => decide_eq_true_iff
  have hrule := acceptanceRule_takenOf h b.known haccepted
  obtain ⟨stats, hruns⟩ := constants_runs h b
  -- that nothing else follows the rule is what makes it a description of the run
  refine ⟨_, hrule, fun other hother => funext (hother.unique_at hrule),
    ⟨_, _, hruns.result, ?_, names_inHeaderOrder h b.known haccepted⟩, fun k => ?_⟩
  · rw [seededConstants, OrderedMap.keys, List.map_map, List.map_map]
    rfl
  · rw [hruns.builder, contains_foldl_learn]
    refine or_congr_right ⟨?_, ?_⟩
    · intro hlearned
      obtain ⟨a, ha, hk⟩ := hlearned
      obtain ⟨p, hp, hfrom⟩ := allComeFrom_takenOf h b.known a ha
      obtain ⟨x, hname, hsymbol⟩ := hfrom.symbol
      obtain ⟨hlt, hdefine⟩ := List.getElem?_eq_some_iff.mp (mem_placed.mp hp)
      refine ⟨⟨p.1, hlt⟩, x, (haccepted _).mpr ⟨a, ha, hfrom.index⟩, ?_, ?_⟩
      · exact (congrArg Define.name hdefine).trans hname
      · rw [hsymbol] at hk
        exact Key.beq_text.mp (BEq.symm hk)
    · intro haccept
      obtain ⟨i, x, hi, hname, rfl⟩ := haccept
      obtain ⟨a, ha, hindex⟩ := (haccepted i).mp hi
      obtain ⟨y, hname', hsymbol⟩ := (comesFrom_takenOf h b.known ha hindex).symbol
      rw [hname'] at hname
      injection hname with hname
      exact ⟨a, ha, Key.beq_text.mpr (hname ▸ hsymbol)⟩

/-- Defines under no guard, one and two: the second sees the first, the third sees neither
its sibling nor anything later. -/
def nestedDefines : List Define :=
  [{ name := "A" },
   { name := "B", guards := [⟨"ifdef", "A"⟩] },
   { name := "C", guards := [⟨"ifdef", "A"⟩, ⟨"ifdef", "D"⟩] },
   { name := "D", guards := [⟨"ifdef", "A"⟩, ⟨"if", "defined(B)"⟩] }]

theorem constants_accepted_nestedDefines :
    (∀ d ∈ nestedDefines, d.WellTyped) ∧
      ∃ accepted, ConstantsOf nestedDefines (.start {}) accepted :=
  ⟨by decide, constants_accepted (by decide) _⟩

example : (constants nestedDefines { Builder.start {} with known := ∅ }).result.toOption.map
    (·.map (·.name)) = some [.text "A", .text "B", .text "D"] := by decide +kernel

end NativeBindings.Build
