import Mathlib.Data.Fin.VecNotation
import NativeBindings.Proofs.AcceptanceRule
import NativeBindings.Proofs.KnownSymbols

/-!
# The order of the defines

A header may list its defines in many orders that come to the same. Those without guards
have to keep their order, and so do those with one guard, since each of them is known to the
next ones. Those with more guards may stand anywhere: their group learns when all of it is
judged.

`Reordering` is such a change of order. Under it every group is the same up to the order of
its defines (`SameGroups`), and a group that learns from define to define is the same
altogether. So each group takes the same defines and makes the same symbols known
(`taken_perm`), and every define keeps its verdict and its constant
(`constants_reordered`).
-/

namespace NativeBindings.Build

open Header (Define)
open CSharp

/-! ## Orders of learning -/

variable {known known' : Symbols}

/-- In whatever order symbols are learned, the same ones are known. -/
theorem foldl_learn_perm (h : SameSymbols known known') {as bs : List AcceptedDefine}
    (hperm : as.Perm bs) : SameSymbols (as.foldl learn known) (bs.foldl learn known') := by
  intro k
  rw [Bool.eq_iff_iff, contains_foldl_learn, contains_foldl_learn, h k]
  exact or_congr_right (exists_congr fun a => and_congr_left fun _ => hperm.mem_iff)

/-- Both tables have the same text for every symbol, or none. -/
def SameTexts (known known' : Symbols) : Prop := ∀ k, known.get? k = known'.get? k

theorem SameTexts.sameSymbols (h : SameTexts known known') : SameSymbols known known' := by
  intro k
  rw [Bool.eq_iff_iff, ← Bool.not_eq_false, ← Bool.not_eq_false, ← OrderedMap.get?_eq_none, h k,
    OrderedMap.get?_eq_none]

/-- A symbol that is learned has the same text in both tables. -/
theorem SameTexts.learn (h : SameTexts known known') (a : AcceptedDefine) :
    SameTexts (learn known a) (learn known' a) := by
  intro k
  rw [Build.learn, Build.learn, OrderedMap.get?_insert, OrderedMap.get?_insert, h k]

theorem SameTexts.foldl_learn (h : SameTexts known known') (as : List AcceptedDefine) :
    SameTexts (as.foldl Build.learn known) (as.foldl Build.learn known') := by
  induction as generalizing known known' with
  | nil => exact h
  | cons a rest ih => exact ih (h.learn a)

/-- Accepted defines with different symbols. -/
def OtherSymbol (a b : AcceptedDefine) : Prop := (a.symbol == b.symbol) = false

/-- Symbols that are all different get the same texts in whatever order they are learned. -/
theorem SameTexts.foldl_learn_perm (h : SameTexts known known') {as bs : List AcceptedDefine}
    (hperm : as.Perm bs) (hother : as.Pairwise OtherSymbol) :
    SameTexts (as.foldl Build.learn known) (bs.foldl Build.learn known') := by
  induction hperm generalizing known known' with
  | nil => exact h
  | cons a _ ih => exact ih (h.learn a) (List.pairwise_cons.mp hother).2
  | swap a b rest =>
      -- of two different symbols either may be learned first
      have hab : OtherSymbol b a := (List.pairwise_cons.mp hother).1 a List.mem_cons_self
      refine SameTexts.foldl_learn (fun k => ?_) rest
      simp only [Build.learn, OrderedMap.get?_insert, h k]
      by_cases ha : a.symbol == k
      · have hb : ¬(b.symbol == k) = true := by
          intro hb
          have := BEq.trans hb (BEq.symm ha)
          rw [hab] at this
          exact absurd this (by simp)
        rw [if_pos ha, if_neg hb, if_pos ha]
      · rw [if_neg ha, if_neg ha]
  | trans hab _ ihab ihbc =>
      have hsymm : ∀ {a b : AcceptedDefine}, OtherSymbol a b → OtherSymbol b a :=
        fun h => (BEq.comm).trans h
      exact fun k => (ihab (fun _ => rfl) hother k).trans
        (ihbc h ((hab.pairwise_iff hsymm).mp hother) k)

/-! ## Groups in another order -/

/-- Of every number of guards there are the same defines, and those of a group that learns from
define to define stand in the same order. -/
structure SameGroups (items items' : List Placed) : Prop where
  /-- A group has the same defines. -/
  perm : ∀ guards, (withGuards items guards).Perm (withGuards items' guards)
  /-- A group with few guards has them in the same order. -/
  few : ∀ guards ≤ 1, withGuards items guards = withGuards items' guards

theorem SameGroups.symm {items items' : List Placed} (hg : SameGroups items items') :
    SameGroups items' items :=
  ⟨fun guards => (hg.perm guards).symm, fun guards hfew => (hg.few guards hfew).symm⟩

theorem takenWithGuards_perm {items items' : List Placed} (hg : SameGroups items items')
    (h : SameSymbols known known') (guards : Nat) :
    (takenWithGuards known guards (withGuards items guards)).Perm
      (takenWithGuards known' guards (withGuards items' guards)) := by
  rw [takenWithGuards_congr h]
  by_cases hfew : guards ≤ 1
  · rw [hg.few guards hfew]
  · rw [takenWithGuards, takenWithGuards, if_neg hfew, if_neg hfew]
    exact (hg.perm guards).filterMap _

/-- Every group takes the same defines, since the groups before it made the same symbols known. -/
theorem taken_perm {items items' : List Placed} (hg : SameGroups items items')
    (h : SameSymbols known known') (gs : List Nat) :
    (taken known items gs).Perm (taken known' items' gs) := by
  induction gs generalizing known known' with
  | nil => exact .refl _
  | cons guards more ih =>
      have hfirst := takenWithGuards_perm hg h guards
      rw [taken, taken]
      exact hfirst.append (ih (foldl_learn_perm h hfirst))

/-- Of the defines that are taken, no two with the same number of guards, if it is two or more,
share a name. -/
def NamedApart (items : List Placed) (as : List AcceptedDefine) : Prop :=
  ∀ p ∈ items, ∀ q ∈ items, TakenAt as p.1 → TakenAt as q.1 → 2 ≤ p.2.guards.length →
    q.2.guards.length = p.2.guards.length → p.2.name = q.2.name → p = q

/-- What a group with several guards takes has different symbols if it has different names. -/
theorem otherSymbol_takenWithGuards {items : List Placed} (hw : AllWellTyped items)
    (hr : Rising items) {guards : Nat} (hmany : ¬guards ≤ 1)
    (hapart : NamedApart items (takenWithGuards known guards (withGuards items guards))) :
    (takenWithGuards known guards (withGuards items guards)).Pairwise OtherSymbol := by
  have hgroup : Rising (withGuards items guards) := hr.sublist List.filter_sublist
  rw [takenWithGuards, if_neg hmany] at hapart ⊢
  rw [List.pairwise_filterMap]
  refine List.Pairwise.imp_of_mem (fun {p q} hp hq hlt a ha b hb => ?_) hgroup
  obtain ⟨hpmem, hplen⟩ := mem_withGuards.mp hp
  obtain ⟨hqmem, hqlen⟩ := mem_withGuards.mp hq
  have hpa := comesFrom_of_accepted? (hw p hpmem) ha
  have hqb := comesFrom_of_accepted? (hw q hqmem) hb
  obtain ⟨x, hpname, hax⟩ := hpa.symbol
  obtain ⟨y, hqname, hby⟩ := hqb.symbol
  rw [OtherSymbol, Bool.eq_false_iff]
  intro hsame
  rw [hby, Key.beq_text, hax] at hsame
  have hname : p.2.name = q.2.name := by rw [hpname, hqname, Key.text.inj hsame]
  have hpq := hapart p hpmem q hqmem ⟨a, List.mem_filterMap.mpr ⟨p, hp, ha⟩, hpa.index⟩
    ⟨b, List.mem_filterMap.mpr ⟨q, hq, hb⟩, hqb.index⟩ (by omega) (by omega) hname
  rw [hpq] at hlt
  exact absurd hlt (Nat.lt_irrefl _)

/-- Where the names in a group differ, the symbols get the same texts. -/
theorem sameTexts_taken {items items' : List Placed} (hw : AllWellTyped items) (hr : Rising items)
    (hg : SameGroups items items') (h : SameTexts known known') {gs : List Nat}
    (hapart : NamedApart items (taken known items gs)) :
    SameTexts ((taken known items gs).foldl learn known)
      ((taken known' items' gs).foldl learn known') := by
  induction gs generalizing known known' with
  | nil => exact h
  | cons guards more ih =>
      have hsymbols : SameSymbols known known' := h.sameSymbols
      have hfirst := takenWithGuards_perm hg hsymbols guards
      rw [taken] at hapart
      have htexts : SameTexts ((takenWithGuards known guards (withGuards items guards)).foldl
          learn known) ((takenWithGuards known' guards (withGuards items' guards)).foldl
          learn known') := by
        by_cases hfew : guards ≤ 1
        · rw [takenWithGuards_congr hsymbols, hg.few guards hfew]
          exact h.foldl_learn _
        · refine h.foldl_learn_perm hfirst (otherSymbol_takenWithGuards hw hr hfew ?_)
          exact fun p hp q hq hatp hatq => hapart p hp q hq (takenAt_append.mpr (.inl hatp))
            (takenAt_append.mpr (.inl hatq))
      rw [taken, taken, List.foldl_append, List.foldl_append]
      exact ih htexts fun p hp q hq hatp hatq => hapart p hp q hq
        (takenAt_append.mpr (.inr hatp)) (takenAt_append.mpr (.inr hatq))

/-! ## Places -/

theorem places_takenInTurn {items : List Placed} (hw : AllWellTyped items) (known : Symbols) :
    ((takenInTurn known items).map (·.index)).Sublist (items.map (·.1)) := by
  induction items generalizing known with
  | nil => exact .slnil
  | cons p rest ih =>
      have hrest : AllWellTyped rest := hw.sublist (List.sublist_cons_self p rest)
      rw [takenInTurn]
      rcases accepted?_judgeDefine (hw p List.mem_cons_self) known with ⟨a, ha, hfrom, _⟩ | ⟨ha, _⟩
      · rw [ha, List.map_cons, List.map_cons, hfrom.index]
        exact (ih hrest _).cons_cons _
      · rw [ha]
        exact (ih hrest _).cons _

theorem places_takenWithGuards {items : List Placed} (hw : AllWellTyped items) (known : Symbols)
    (guards : Nat) :
    ((takenWithGuards known guards items).map (·.index)).Sublist (items.map (·.1)) := by
  rw [takenWithGuards]
  split
  · exact places_takenInTurn hw known
  · induction items with
    | nil => exact .slnil
    | cons p rest ih =>
        have hrest : AllWellTyped rest := hw.sublist (List.sublist_cons_self p rest)
        rw [List.filterMap_cons]
        rcases accepted?_judgeDefine (hw p List.mem_cons_self) known with
          ⟨a, ha, hfrom, _⟩ | ⟨ha, _⟩
        · rw [ha, List.map_cons, List.map_cons, hfrom.index]
          exact (ih hrest).cons_cons _
        · rw [ha]
          exact (ih hrest).cons _

/-- At a place at most one define is taken. -/
theorem nodup_places_taken {items : List Placed} (hw : AllWellTyped items) (hr : Rising items)
    {gs : List Nat} (hgs : gs.Nodup) (known : Symbols) :
    ((taken known items gs).map (·.index)).Nodup := by
  induction gs generalizing known with
  | nil => exact List.nodup_nil
  | cons guards more ih =>
      obtain ⟨hnot, hmore⟩ := List.nodup_cons.mp hgs
      have hgroup : AllWellTyped (withGuards items guards) := hw.sublist List.filter_sublist
      have hrising : Rising (withGuards items guards) := hr.sublist List.filter_sublist
      have hnodup : ((withGuards items guards).map (·.1)).Nodup := by
        rw [List.nodup_iff_pairwise_ne, List.pairwise_map]
        exact hrising.imp fun h => Nat.ne_of_lt h
      rw [taken, List.map_append, List.nodup_append]
      refine ⟨hnodup.sublist (places_takenWithGuards hgroup known guards), ih hmore _, ?_⟩
      -- the later groups have other numbers of guards, so their defines stand elsewhere
      intro i hi j hj hij
      obtain ⟨a, ha, rfl⟩ := List.mem_map.mp hi
      obtain ⟨b, hb, rfl⟩ := List.mem_map.mp hj
      obtain ⟨p, hp, hap⟩ := mem_takenWithGuards hgroup ha
      obtain ⟨q, hq, hbq, hlen⟩ := mem_taken hw hb
      obtain ⟨hp, hplen⟩ := mem_withGuards.mp hp
      have hpq : p = q := hr.eq_of_place hp hq (hap.index.symm.trans (hij.trans hbq.index))
      rw [← hpq, hplen] at hlen
      exact hnot hlen

/-- What is found at a place is what is taken there. -/
theorem find?_eq_some_iff_of_nodup {as : List AcceptedDefine} (h : (as.map (·.index)).Nodup)
    (i : Nat) (a : AcceptedDefine) :
    as.find? (·.index = i) = some a ↔ a ∈ as ∧ a.index = i := by
  constructor
  · intro hfind
    exact ⟨List.mem_of_find?_eq_some hfind, by simpa using List.find?_some hfind⟩
  · intro hmem
    obtain ⟨ha, hi⟩ := hmem
    cases hfind : as.find? (·.index = i) with
    | none => exact absurd (decide_eq_true hi) (List.find?_eq_none.mp hfind a ha)
    | some b =>
        have hb : b ∈ as := List.mem_of_find?_eq_some hfind
        have hbi : b.index = i := by simpa using List.find?_some hfind
        exact congrArg some (List.inj_on_of_nodup_map h hb ha (hbi.trans hi.symm))

theorem placed_eq (ds : List Define) :
    placed ds = (List.finRange ds.length).map fun i => (i.val, ds.get i) := by
  refine List.ext_getElem (by simp [placed]) fun k hk hk' => ?_
  simp [placed]

/-- No two accepted defines with the same number of guards, if it is two or more, share a name. -/
def NamesDiffer (known : Symbols) (ds : List Define) : Prop :=
  ∀ i j : Fin ds.length, (constantAt known ds i).isSome → (constantAt known ds j).isSome →
    2 ≤ (ds.get i).guards.length → (ds.get j).guards.length = (ds.get i).guards.length →
    (ds.get i).name = (ds.get j).name → i = j

theorem NamesDiffer.namedApart {ds : List Define} (h : ∀ d ∈ ds, d.WellTyped) {known : Symbols}
    (hdiffer : NamesDiffer known ds) : NamedApart (placed ds) (takenOf known ds) := by
  intro p hp q hq hatp hatq hmany hlen hname
  have hget : ∀ {p : Placed}, p ∈ placed ds →
      ∃ i : Fin ds.length, i.val = p.1 ∧ ds.get i = p.2 := by
    intro p hp
    obtain ⟨hi, hd⟩ := List.getElem?_eq_some_iff.mp (mem_placed.mp hp)
    exact ⟨⟨p.1, hi⟩, rfl, hd⟩
  obtain ⟨i, hi, hpd⟩ := hget hp
  obtain ⟨j, hj, hqd⟩ := hget hq
  have hsome : ∀ {i : Nat}, TakenAt (takenOf known ds) i → (constantAt known ds i).isSome := by
    intro i hat
    obtain ⟨a, ha, hi⟩ := hat
    rw [constantAt_eq h, Option.isSome_map, List.find?_isSome]
    exact ⟨a, ha, decide_eq_true hi⟩
  have hplace : i = j := by
    refine hdiffer i j (hi ▸ hsome hatp) (hj ▸ hsome hatq) ?_ ?_ ?_
    · rwa [hpd]
    · rwa [hpd, hqd]
    · rwa [hpd, hqd]
  exact (rising_placed ds).eq_of_place hp hq (hi.symm.trans ((congrArg Fin.val hplace).trans hj))

/-! ## Reorderings -/

/-- Two lists have the same defines, in orders that agree on those without guards and on those
with one guard. -/
structure Reordering (ds ds' : List Define) where
  /-- Where each define goes. -/
  place : Fin ds.length ≃ Fin ds'.length
  /-- There it is the same define. -/
  same : ∀ i, ds'.get (place i) = ds.get i
  /-- The defines without guards keep their order. -/
  unguarded : ∀ i j, i < j → (ds.get i).guards.length = 0 →
    (ds.get j).guards.length = 0 → place i < place j
  /-- The defines with one guard keep their order. -/
  single : ∀ i j, i < j → (ds.get i).guards.length = 1 →
    (ds.get j).guards.length = 1 → place i < place j

namespace Reordering

variable {ds ds' : List Define} (r : Reordering ds ds')

/-- The place to which the define at a place goes. -/
def newPlace (i : Nat) : Nat := if h : i < ds.length then r.place ⟨i, h⟩ else i

theorem newPlace_fin (i : Fin ds.length) : r.newPlace i = r.place i := dif_pos i.isLt

/-- Read in its own order, the new list has the defines of the old one at their new places. -/
theorem perm_placed : (placed ds').Perm (movedTo r.newPlace (placed ds)) := by
  have hmoved : movedTo r.newPlace (placed ds) =
      ((List.finRange ds.length).map r.place).map fun j => (j.val, ds'.get j) := by
    rw [placed_eq, movedTo, List.map_map, List.map_map]
    refine List.map_congr_left fun i _ => ?_
    simp only [Function.comp_apply, newPlace_fin, r.same]
  have hall : (List.finRange ds'.length).Perm ((List.finRange ds.length).map r.place) := by
    refine (List.perm_ext_iff_of_nodup (List.nodup_finRange _)
      ((List.nodup_map_iff r.place.injective).mpr (List.nodup_finRange _))).mpr fun j => ?_
    simp only [List.mem_finRange, List.mem_map, true_and, true_iff]
    exact r.place.surjective j
  rw [hmoved, placed_eq]
  exact hall.map _

/-- A group that learns from define to define keeps its order at the new places. -/
theorem rising_few {guards : Nat} (hfew : guards ≤ 1) :
    Rising (movedTo r.newPlace (withGuards (placed ds) guards)) := by
  rw [Rising, movedTo, List.pairwise_map]
  refine List.Pairwise.imp_of_mem (fun {p q} hp hq hlt => ?_)
    ((rising_placed ds).sublist List.filter_sublist)
  obtain ⟨hp, hplen⟩ := mem_withGuards.mp hp
  obtain ⟨hq, hqlen⟩ := mem_withGuards.mp hq
  obtain ⟨hpi, hpd⟩ := List.getElem?_eq_some_iff.mp (mem_placed.mp hp)
  obtain ⟨hqi, hqd⟩ := List.getElem?_eq_some_iff.mp (mem_placed.mp hq)
  have hkept : r.place ⟨p.1, hpi⟩ < r.place ⟨q.1, hqi⟩ := by
    rcases Nat.le_one_iff_eq_zero_or_eq_one.mp hfew with rfl | rfl
    · exact r.unguarded ⟨p.1, hpi⟩ ⟨q.1, hqi⟩ hlt (by rw [← hplen, ← hpd]; rfl)
        (by rw [← hqlen, ← hqd]; rfl)
    · exact r.single ⟨p.1, hpi⟩ ⟨q.1, hqi⟩ hlt (by rw [← hplen, ← hpd]; rfl)
        (by rw [← hqlen, ← hqd]; rfl)
  rw [Fin.lt_def, ← r.newPlace_fin, ← r.newPlace_fin] at hkept
  exact hkept

/-- Every group is the same up to the order of its defines. -/
theorem sameGroups : SameGroups (movedTo r.newPlace (placed ds)) (placed ds') := by
  have hcomm : ∀ guards, withGuards (movedTo r.newPlace (placed ds)) guards =
      movedTo r.newPlace (withGuards (placed ds) guards) := fun _ => List.filter_map
  have hperm : ∀ guards, (withGuards (movedTo r.newPlace (placed ds)) guards).Perm
      (withGuards (placed ds') guards) := fun _ => r.perm_placed.symm.filter _
  refine ⟨hperm, fun guards hfew => ?_⟩
  -- two rising lists of the same items are one list
  have hmoved := r.rising_few hfew
  rw [← hcomm] at hmoved
  exact (hperm guards).eq_of_pairwise
    (fun p q _ _ hpq hqp => absurd (Nat.lt_trans hpq hqp) (Nat.lt_irrefl _)) hmoved
    ((rising_placed ds').sublist List.filter_sublist)

include r in
theorem perm_defines : ds.Perm ds' := by
  have hperm := r.perm_placed.symm.map (·.2)
  rwa [movedTo, List.map_map, map_snd_placed,
    show (Prod.snd ∘ fun p : Placed => (r.newPlace p.1, p.2)) = Prod.snd from rfl,
    map_snd_placed] at hperm

include r in
theorem guardNumbers_eq : guardNumbers ds' = guardNumbers ds := by
  rw [guardNumbers, guardNumbers, (r.perm_defines.map _).foldl_eq]

include r in
theorem wellTyped (h : ∀ d ∈ ds, d.WellTyped) : ∀ d ∈ ds', d.WellTyped :=
  fun d hd => h d (r.perm_defines.mem_iff.mpr hd)

/-- In the new order the same defines are taken, at their new places. -/
theorem perm_takenOf (h : ∀ d ∈ ds, d.WellTyped) (known : Symbols) :
    ((takenOf known ds).map (·.moved r.newPlace)).Perm (takenOf known ds') := by
  rw [takenOf, takenOf, ← taken_moved (allWellTyped_placed h), r.guardNumbers_eq]
  exact taken_perm r.sameGroups (.refl known) _

/-- Every define becomes the same constant, or none. -/
theorem constantAt_place (h : ∀ d ∈ ds, d.WellTyped) (known : Symbols) (i : Fin ds.length) :
    constantAt known ds' (r.place i) = constantAt known ds i := by
  have hnodup : ∀ {es : List Define}, (∀ d ∈ es, d.WellTyped) →
      ((takenOf known es).map (·.index)).Nodup := fun hes =>
    nodup_places_taken (allWellTyped_placed hes) (rising_placed _) List.nodup_range known
  rw [constantAt_eq h, constantAt_eq (r.wellTyped h)]
  -- what is found at the new place is what is found at the old one, moved there
  have hfind : (takenOf known ds').find? (·.index = (r.place i).val) =
      ((takenOf known ds).find? (·.index = i.val)).map (·.moved r.newPlace) := by
    refine Option.ext fun a => ?_
    rw [find?_eq_some_iff_of_nodup (hnodup (r.wellTyped h)), Option.map_eq_some_iff,
      ← (r.perm_takenOf h known).mem_iff, List.mem_map]
    simp only [find?_eq_some_iff_of_nodup (hnodup h)]
    constructor
    · intro hmem
      obtain ⟨⟨b, hb, rfl⟩, hi⟩ := hmem
      refine ⟨b, ⟨hb, ?_⟩, rfl⟩
      obtain ⟨p, hp, hfrom⟩ := allComeFrom_takenOf h known b hb
      obtain ⟨hlt, _⟩ := List.getElem?_eq_some_iff.mp (mem_placed.mp hp)
      rw [AcceptedDefine.moved, hfrom.index, r.newPlace_fin ⟨p.1, hlt⟩] at hi
      have hpi : (⟨p.1, hlt⟩ : Fin ds.length) = i := r.place.injective (Fin.ext hi)
      rw [hfrom.index, ← hpi]
    · intro hmem
      obtain ⟨b, ⟨hb, hi⟩, rfl⟩ := hmem
      refine ⟨⟨b, hb, rfl⟩, ?_⟩
      rw [AcceptedDefine.moved, hi, r.newPlace_fin]
  rw [hfind, Option.map_map]
  rfl

include r in
theorem namesDiffer (h : ∀ d ∈ ds, d.WellTyped) {known : Symbols}
    (hdiffer : NamesDiffer known ds) : NamesDiffer known ds' := by
  intro i' j'
  obtain ⟨i, rfl⟩ := r.place.surjective i'
  obtain ⟨j, rfl⟩ := r.place.surjective j'
  rw [r.constantAt_place h, r.constantAt_place h, r.same, r.same]
  intro hi hj hmany hlen hname
  exact congrArg r.place (hdiffer i j hi hj hmany hlen hname)

end Reordering

/-- The constants of two lists of defines that differ in their order. -/
structure SameConstants (b : Builder) {ds ds' : List Define} (r : Reordering ds ds') : Prop where
  /-- Every define has the same verdict and becomes the same constant. -/
  verdict : ∀ i, constantAt b.known ds' (r.place i) = constantAt b.known ds i
  /-- The constants of the defines follow those of the known symbols, in the order of the list. -/
  result : (constants ds b).result = .ok (seededConstants b.known ++
    (List.finRange ds.length).filterMap fun i => constantAt b.known ds i.val)
  /-- The same constants are in the new order. -/
  reordered : (constants ds' b).result = .ok (seededConstants b.known ++
    (List.finRange ds'.length).filterMap fun j => constantAt b.known ds (r.place.symm j).val)
  /-- The same symbols are known in the end. -/
  symbols : SameSymbols (constants ds b).builder.known (constants ds' b).builder.known
  /-- They have the same texts unless siblings share a name. -/
  texts : NamesDiffer b.known ds →
    SameTexts (constants ds b).builder.known (constants ds' b).builder.known

/-- **The order of the defines does not matter, as long as those without guards keep theirs and
those with one guard keep theirs.** -/
theorem constants_reordered {ds ds' : List Define} (h : ∀ d ∈ ds, d.WellTyped)
    (r : Reordering ds ds') (b : Builder) : SameConstants b r := by
  have h' := r.wellTyped h
  have hresult : ∀ {es : List Define}, (∀ d ∈ es, d.WellTyped) →
      (constants es b).result = .ok (seededConstants b.known ++
        (List.finRange es.length).filterMap fun i => constantAt b.known es i.val) := by
    intro es hes
    rw [result_constants hes, ← List.map_coe_finRange_eq_range, List.filterMap_map]
    rfl
  have hverdict := r.constantAt_place h b.known
  obtain ⟨_, hruns⟩ := constants_runs h b
  obtain ⟨_, hruns'⟩ := constants_runs h' b
  refine ⟨hverdict, hresult h, ?_, ?_, fun hdiffer => ?_⟩
  · rw [hresult h']
    refine congrArg (fun cs => Except.ok (seededConstants b.known ++ cs))
      (List.filterMap_congr fun j _ => ?_)
    rw [← hverdict, Equiv.apply_symm_apply]
  · rw [hruns.builder, hruns'.builder]
    have hlearned := foldl_learn_perm (.refl b.known) (r.perm_takenOf h b.known)
    rw [foldl_learn_moved] at hlearned
    exact hlearned
  · rw [hruns.builder, hruns'.builder]
    have hmoved := allWellTyped_placed h'
    have htexts := sameTexts_taken hmoved (rising_placed ds') r.sameGroups.symm
      (fun _ => rfl : SameTexts b.known b.known) ((r.namesDiffer h hdiffer).namedApart h')
    rw [r.guardNumbers_eq, taken_moved (allWellTyped_placed h), foldl_learn_moved] at htexts
    rw [takenOf, takenOf, r.guardNumbers_eq]
    exact fun k => (htexts k).symm

/-- The same defines as `nestedDefines` in another order: the last one comes first, and the one with
a single guard comes before the one that its guard asks for. -/
def shuffledDefines : List Define :=
  [{ name := "D", guards := [⟨"ifdef", "A"⟩, ⟨"if", "defined(B)"⟩] },
   { name := "B", guards := [⟨"ifdef", "A"⟩] },
   { name := "A" },
   { name := "C", guards := [⟨"ifdef", "A"⟩, ⟨"ifdef", "D"⟩] }]

/-- Where the defines went. -/
def shuffle : Reordering nestedDefines shuffledDefines where
  place := (⟨![2, 1, 3, 0], ![3, 1, 0, 2], by decide, by decide⟩ : Fin 4 ≃ Fin 4)
  same := by
    intro (i : Fin 4)
    match i with
    | 0 | 1 | 2 | 3 => rfl
  unguarded := by decide
  single := by decide

theorem constants_reordered_shuffledDefines : (∀ d ∈ nestedDefines, d.WellTyped) ∧
    NamesDiffer (Builder.start {}).known nestedDefines ∧ SameConstants (.start {}) shuffle ∧
    SameTexts (constants nestedDefines (.start {})).builder.known
      (constants shuffledDefines (.start {})).builder.known := by
  have hdiffer : NamesDiffer (Builder.start {}).known nestedDefines := by
    unfold NamesDiffer
    decide +kernel
  have hsame := constants_reordered (by decide) shuffle (.start {})
  exact ⟨by decide, hdiffer, hsame, hsame.texts hdiffer⟩

end NativeBindings.Build
