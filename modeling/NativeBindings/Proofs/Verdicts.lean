import NativeBindings.Proofs.EnumConstants

/-!
# Verdicts one by one

A pass that ends without a fault has given every item of its collection one verdict, and
what was reported on the way is among its notices. This module says so for any header,
well-typed or not. For most collections the verdicts stand in the order of the items. The
defines are judged in another order, but all of them are, and each of them once.

The second half takes steps of building apart: the building of a collection into its
verdicts, and that of a whole header into its collections with the states between them.
-/

namespace NativeBindings

namespace Traced

variable {ω ε α β : Type} {notices : List ω} {x : Traced ω ε α} {f : α → Traced ω ε β}
  {P : α → Prop} {Q : β → Prop}

/-- If the step ends with a result, and what it reports is among the notices, then the result has
a property. -/
def Gives (notices : List ω) (x : Traced ω ε α) (P : α → Prop) : Prop :=
  ∀ a, x.result = .ok a → x.trace ⊆ notices → P a

theorem trace_bind {a : α} (h : x.result = .ok a) : (x >>= f).trace = x.trace ++ (f a).trace := by
  show (bind x f).trace = _
  unfold bind
  rw [h]

theorem Gives.pure {a : α} (h : P a) : (Pure.pure a : Traced ω ε α).Gives notices P :=
  fun _ hb _ => Except.ok.inj hb ▸ h

theorem Gives.bind (hx : x.Gives notices P) (hf : ∀ a, P a → (f a).Gives notices Q) :
    (x >>= f).Gives notices Q := by
  intro b hb hreported
  rw [result_bind] at hb
  obtain ⟨a, ha, hb⟩ := bind_eq_ok.mp hb
  rw [trace_bind ha, List.append_subset] at hreported
  exact hf a (hx a ha hreported.1) b hb hreported.2

theorem Gives.imp {R : α → Prop} (hx : x.Gives notices P) (h : ∀ a, P a → R a) :
    x.Gives notices R := fun a ha hreported => h a (hx a ha hreported)

/-- Whatever comes first, it is the last step that gives the result. -/
theorem Gives.after (hf : ∀ a, (f a).Gives notices Q) : (x >>= f).Gives notices Q :=
  Gives.bind (P := fun _ => True) (fun _ _ _ => trivial) fun a _ => hf a

/-- A report before the result is among the notices. -/
theorem Gives.afterReport {w : ω} {f : PUnit → Traced ω ε β}
    (hf : w ∈ notices → (f ⟨⟩).Gives notices Q) : (Traced.report w >>= f).Gives notices Q :=
  Gives.bind (P := fun _ => w ∈ notices) (fun _ _ h => h List.mem_cons_self) fun _ h => hf h

theorem Gives.afterExcept {r : Except ε α} (hf : ∀ a, r = .ok a → (f a).Gives notices Q) :
    (Traced.ofExcept r >>= f).Gives notices Q :=
  Gives.bind (P := fun a => r = .ok a) (fun _ h _ => h) hf

end Traced

namespace Build

open CSharp

/-! ## Verdicts of a pass -/

section

variable {ι α : Type}

/-- The judgement ended in the verdict, and everything it reported is among the notices. -/
structure Given (judged : Traced Notice Misfit (Verdict α)) (notices : List Notice)
    (v : Verdict α) : Prop where
  verdict : judged.result = .ok v
  reported : judged.trace ⊆ notices

theorem Given.of_gives {judged : Traced Notice Misfit (Verdict α)} {notices : List Notice}
    {v : Verdict α} {P : Verdict α → Prop} (h : Given judged notices v)
    (hgives : judged.Gives notices P) : P v := hgives v h.verdict h.reported

theorem Given.mono {judged : Traced Notice Misfit (Verdict α)} {notices more : List Notice}
    {v : Verdict α} (h : Given judged notices v) (hmore : notices ⊆ more) : Given judged more v :=
  ⟨h.verdict, List.Subset.trans h.reported hmore⟩

theorem Pass.forall₂_judgeAll {judge : ι → Traced Notice Misfit (Verdict α)} {items : List ι}
    (h : (judgeAll judge items).fault = none) :
    List.Forall₂ (fun i => Given (judge i) (judgeAll judge items).notices) items
      (judgeAll judge items).verdicts := by
  induction items with
  | nil => exact .nil
  | cons i rest ih =>
      rw [judgeAll] at h ⊢
      cases hi : (judge i).result with
      | error e =>
          rw [hi] at h
          exact absurd h (by simp)
      | ok v =>
          rw [hi] at h
          refine .cons ⟨hi, List.subset_append_left _ _⟩ ((ih h).imp fun _ _ hgiven => ?_)
          exact hgiven.mono (List.subset_append_right _ _)

/-- Guards let the judgement take place, or the item is excluded, and that is reported. -/
theorem judgeGuarded_gives {known : Symbols} {guards : List Header.Guard} {exclusion : Notice}
    {judge : Traced Notice Misfit (Verdict α)} {notices : List Notice} {P : Verdict α → Prop}
    (hexcluded : exclusion ∈ notices → isIncluded known guards = false → P .excluded)
    (hjudge : isIncluded known guards = true → judge.Gives notices P) :
    (judgeGuarded known guards exclusion judge).Gives notices P := by
  refine .afterExcept fun included hincluded => ?_
  cases included with
  | true => exact hjudge (eq_isIncluded hincluded).symm
  | false => exact .afterReport fun hn => .pure (hexcluded hn (eq_isIncluded hincluded).symm)

end

/-! ## Verdicts on defines -/

/-- The verdict on a define, under what was known when it had its turn. -/
def GivenInTurn (notices : List Notice) (p : Placed) (v : Verdict AcceptedDefine) : Prop :=
  ∃ known, Given (judgeDefine known p) notices v

theorem GivenInTurn.mono {notices more : List Notice} {p : Placed} {v : Verdict AcceptedDefine}
    (h : GivenInTurn notices p v) (hmore : notices ⊆ more) : GivenInTurn more p v := by
  obtain ⟨known, hgiven⟩ := h
  exact ⟨known, hgiven.mono hmore⟩

theorem forall₂_definesInTurn {items : List Placed} {known : Symbols}
    (h : (definesInTurn known items).pass.fault = none) :
    List.Forall₂ (GivenInTurn (definesInTurn known items).pass.notices) items
      (definesInTurn known items).pass.verdicts := by
  induction items generalizing known with
  | nil => exact .nil
  | cons p rest ih =>
      rw [definesInTurn] at h ⊢
      cases hp : (judgeDefine known p).result with
      | error e =>
          rw [hp] at h
          exact absurd h (by simp)
      | ok v =>
          rw [hp] at h
          refine .cons ⟨known, hp, List.subset_append_left _ _⟩ ((ih h).imp fun _ _ hgiven => ?_)
          exact hgiven.mono (List.subset_append_right _ _)

theorem forall₂_definesWithGuards {items : List Placed} {known : Symbols} {guards : Nat}
    (h : (definesWithGuards known guards items).pass.fault = none) :
    List.Forall₂ (GivenInTurn (definesWithGuards known guards items).pass.notices) items
      (definesWithGuards known guards items).pass.verdicts := by
  unfold definesWithGuards at h ⊢
  split at h
  · rename_i hfew
    rw [if_pos hfew]
    exact forall₂_definesInTurn h
  · rename_i hmany
    rw [if_neg hmany]
    exact (Pass.forall₂_judgeAll h).imp fun _ _ hgiven => ⟨known, hgiven⟩

theorem forall₂_definesInGroups {items : List Placed} {gs : List Nat} {known : Symbols}
    (h : (definesInGroups known items gs).pass.fault = none) :
    List.Forall₂ (GivenInTurn (definesInGroups known items gs).pass.notices)
      (gs.flatMap (withGuards items)) (definesInGroups known items gs).pass.verdicts := by
  induction gs generalizing known with
  | nil => exact .nil
  | cons guards more ih =>
      rw [definesInGroups, ← withGuards] at h ⊢
      dsimp only at h ⊢
      cases hfirst : (definesWithGuards known guards (withGuards items guards)).pass.fault with
      | some e =>
          rw [hfirst] at h
          exact absurd (hfirst.symm.trans h) (by simp)
      | none =>
          rw [hfirst] at h
          dsimp only at h ⊢
          rw [Pass.fault_append hfirst] at h
          unfold Pass.append
          rw [hfirst, List.flatMap_cons]
          refine List.rel_append ((forall₂_definesWithGuards hfirst).imp fun _ _ hgiven => ?_)
            ((ih h).imp fun _ _ hgiven => ?_)
          · exact hgiven.mono (List.subset_append_left _ _)
          · exact hgiven.mono (List.subset_append_right _ _)

/-- Groups by different numbers of guards hold every define once. -/
theorem perm_groups {gs : List Nat} (hgs : gs.Nodup) {items : List Placed}
    (h : ∀ p ∈ items, p.2.guards.length ∈ gs) : (gs.flatMap (withGuards items)).Perm items := by
  induction gs generalizing items with
  | nil =>
      cases items with
      | nil => exact .nil
      | cons p rest => exact absurd (h p List.mem_cons_self) (by simp)
  | cons g more ih =>
      obtain ⟨hg, hmore⟩ := List.nodup_cons.mp hgs
      -- the later groups are those of the defines that are not in the first one
      let others := items.filter fun p => !decide (p.2.guards.length = g)
      have hothers : ∀ p ∈ others, p.2.guards.length ∈ more := by
        intro p hp
        obtain ⟨hp, hne⟩ := List.mem_filter.mp hp
        exact (List.mem_cons.mp (h p hp)).resolve_left (by simpa using hne)
      have hlater : more.flatMap (withGuards items) = more.flatMap (withGuards others) := by
        refine List.flatMap_congr fun k hk => ?_
        have hne : k ≠ g := fun hkg => hg (hkg ▸ hk)
        rw [withGuards, withGuards, List.filter_filter]
        refine List.filter_congr fun p _ => ?_
        by_cases hp : p.2.guards.length = k
        · simp [hp, hne]
        · simp [hp]
      rw [List.flatMap_cons, hlater]
      exact ((ih hmore hothers).append_left _).trans (List.filter_append_perm _ items)

/-- **Without a fault every define has one verdict.** -/
theorem forall₂_passDefines {ds : List Header.Define} {known : Symbols}
    (h : (passDefines known ds).pass.fault = none) : ∃ items : List Placed,
      items.Perm (placed ds) ∧ List.Forall₂ (GivenInTurn (passDefines known ds).pass.notices) items
        (passDefines known ds).pass.verdicts := by
  have hgroup : ∀ p ∈ placed ds, p.2.guards.length ∈ guardNumbers ds := by
    intro p hp
    obtain ⟨_, hsplit, _⟩ := guardNumbers_split hp
    rw [hsplit]
    exact List.mem_append_right _ List.mem_cons_self
  exact ⟨_, perm_groups List.nodup_range hgroup, forall₂_definesInGroups h⟩

/-- What a define gets as its verdict: accepted with its place, its name and its comments, or
excluded with a notice. -/
inductive DefineVerdict (p : Placed) (reported : List Notice) : Verdict AcceptedDefine → Prop where
  | accepted {a : AcceptedDefine} (index : a.index = p.1) (name : a.constant.name = p.2.name)
      (annotations : a.constant.annotations = annotationsOf p.2.comments) :
      DefineVerdict p reported (.accepted a)
  | excluded (h : .defineExcluded p.2.name ∈ reported) : DefineVerdict p reported .excluded

theorem constantOf_gives (notices : List Notice) (known : Symbols) (d : Header.Define)
    (content : String) : (constantOf known d content).Gives notices
      fun c => c.name = d.name ∧ c.annotations = annotationsOf d.comments := by
  unfold constantOf
  dsimp only
  split
  · exact .pure ⟨rfl, rfl⟩
  · split
    · exact .pure ⟨rfl, rfl⟩
    · split
      · exact .pure ⟨rfl, rfl⟩
      · split
        · exact .pure ⟨rfl, rfl⟩
        · exact .after fun _ => .pure ⟨rfl, rfl⟩

theorem GivenInTurn.cases {notices : List Notice} {p : Placed} {v : Verdict AcceptedDefine}
    (h : GivenInTurn notices p v) : DefineVerdict p notices v := by
  obtain ⟨known, h⟩ := h
  refine h.of_gives (judgeGuarded_gives (fun hn _ => .excluded hn) fun _ => .after fun _ => ?_)
  refine .bind (constantOf_gives notices known p.2 _) fun c hc => ?_
  exact .after fun _ => .pure (.accepted rfl hc.1 hc.2)

/-- However defines are ordered, no two have the same place. -/
theorem nodup_places {ds : List Header.Define} {items : List Placed}
    (h : items.Perm (placed ds)) : (items.map (·.1)).Nodup := by
  rw [(h.map _).nodup_iff, ← range_eq_places]
  exact List.nodup_range

/-- Away from the places of some defines nothing is accepted. -/
theorem find?_accepted_eq_none {notices : List Notice} {items : List Placed}
    {vs : List (Verdict AcceptedDefine)} (h : List.Forall₂ (GivenInTurn notices) items vs) {i : Nat}
    (hi : i ∉ items.map (·.1)) : (vs.filterMap Verdict.built?).find? (·.index = i) = none := by
  induction h with
  | nil => rfl
  | cons hp _ ih =>
      rw [List.map_cons, List.mem_cons, not_or] at hi
      rw [List.filterMap_cons]
      cases hp.cases with
      | accepted hindex _ _ =>
          refine (List.find?_cons_of_neg ?_).trans (ih hi.2)
          rw [hindex]
          exact fun hsame => hi.1 (of_decide_eq_true hsame).symm
      | excluded _ => exact ih hi.2

/-- What is accepted at the place of a define is what its own verdict accepts. -/
theorem forall₂_find?_accepted {notices : List Notice} {items : List Placed}
    {vs : List (Verdict AcceptedDefine)} (h : List.Forall₂ (GivenInTurn notices) items vs)
    (hplaces : (items.map (·.1)).Nodup) :
    List.Forall₂ (fun p v => (vs.filterMap Verdict.built?).find? (·.index = p.1) = v.built?)
      items vs := by
  induction h with
  | nil => exact .nil
  | @cons p v rest vs hp hrest ih =>
      obtain ⟨hnew, hplaces⟩ := List.nodup_cons.mp hplaces
      rw [List.filterMap_cons]
      cases hp.cases with
      | @accepted a hindex _ _ =>
          have hothers : ∀ q ∈ rest, a.index ≠ q.1 := fun q hq hsame =>
            hnew (List.mem_map.mpr ⟨q, hq, hsame.symm.trans hindex⟩)
          refine .cons (List.find?_cons_of_pos (decide_eq_true hindex)) ?_
          refine ((List.forall₂_and_left _ _).mpr ⟨hothers, ih hplaces⟩).imp ?_
          intro q w hq
          obtain ⟨hne, hq⟩ := hq
          exact (List.find?_cons_of_neg (by simpa using hne)).trans hq
      | excluded _ => exact .cons (find?_accepted_eq_none hrest hnew) (ih hplaces)

theorem forall_right_of_forall₂ {α β : Type} {R : α → β → Prop} {P : β → Prop} {as : List α}
    {bs : List β} (h : List.Forall₂ R as bs) (hR : ∀ a b, R a b → P b) : ∀ b ∈ bs, P b := by
  induction h with
  | nil => exact fun _ hb => absurd hb (by simp)
  | cons h _ ih => exact List.forall_mem_cons.mpr ⟨hR _ _ h, ih⟩

theorem filterMap_eq_of_forall₂ {α β γ : Type} {f : α → Option γ} {g : β → Option γ} {as : List α}
    {bs : List β} (h : List.Forall₂ (fun a b => f a = g b) as bs) :
    as.filterMap f = bs.filterMap g := by
  induction h with
  | nil => rfl
  | cons h _ ih => rw [List.filterMap_cons, List.filterMap_cons, h, ih]

/-- The constants of accepted defines, taken define by define. -/
theorem inHeaderOrder_eq_filterMap (ds : List Header.Define) (accepted : List AcceptedDefine) :
    inHeaderOrder ds.length accepted = (placed ds).filterMap
      fun p => (accepted.find? (·.index = p.1)).map (·.constant) := by
  rw [inHeaderOrder, range_eq_places, List.filterMap_map]
  rfl

/-- The constants in the order of the header are those that were accepted, each once. -/
theorem inHeaderOrder_perm {notices : List Notice} {ds : List Header.Define} {items : List Placed}
    {vs : List (Verdict AcceptedDefine)} (hperm : items.Perm (placed ds))
    (h : List.Forall₂ (GivenInTurn notices) items vs) :
    (inHeaderOrder ds.length (vs.filterMap Verdict.built?)).Perm
      ((vs.filterMap Verdict.built?).map (·.constant)) := by
  have hfind := forall₂_find?_accepted h (nodup_places hperm)
  rw [inHeaderOrder_eq_filterMap]
  refine (hperm.symm.filterMap _).trans (.of_eq ?_)
  rw [List.map_filterMap]
  exact filterMap_eq_of_forall₂ (hfind.imp fun _ _ hv => congrArg (Option.map _) hv)

/-! ## Stages of building -/

namespace Building

variable {α β : Type} {notices : List Notice} {b b' b'' : Builder}

/-- The step ends well, and everything it reports is among the notices. -/
structure RunsWithin (notices : List Notice) (x : Building α) (b : Builder) (a : α) (b' : Builder) :
    Prop extends Runs x b a b' where
  reported : (x b).notices ⊆ notices

theorem RunsWithin.of_bind {x : Building α} {f : α → Building β} {c : β}
    (h : RunsWithin notices (x >>= f) b c b'') :
    ∃ a b', RunsWithin notices x b a b' ∧ RunsWithin notices (f a) b' c b'' := by
  obtain ⟨a, b', hx, hf⟩ := h.toRuns.of_bind
  have hnotices : ((x >>= f) b).notices = (x b).notices ++ (f a b').notices := by
    show (Building.bind x f b).notices = _
    unfold Building.bind
    dsimp only
    rw [hx.result, hx.builder]
  have hreported := h.reported
  rw [hnotices] at hreported
  exact ⟨a, b', ⟨hx, List.Subset.trans (List.subset_append_left _ _) hreported⟩,
    ⟨hf, List.Subset.trans (List.subset_append_right _ _) hreported⟩⟩

theorem RunsWithin.of_report {n : Notice} {x : Building α} {a : α}
    (h : RunsWithin notices (Building.report n >>= fun _ => x) b a b') :
    RunsWithin notices x b a b' := by
  obtain ⟨_, _, hreport, h⟩ := h.of_bind
  have hsame : b = _ := hreport.builder
  rw [hsame]
  exact h

theorem RunsWithin.of_state {f : Builder → Building α} {a : α}
    (h : RunsWithin notices (Building.state >>= f) b a b') : RunsWithin notices (f b) b a b' := by
  obtain ⟨_, _, hstate, h⟩ := h.of_bind
  obtain rfl := Except.ok.inj hstate.result
  have hsame : b = _ := hstate.builder
  rw [hsame] at h ⊢
  exact h

theorem RunsWithin.of_change {f : Builder → Builder} {x : Building α} {a : α}
    (h : RunsWithin notices (Building.change f >>= fun _ => x) b a b') :
    RunsWithin notices x (f b) a b' := by
  obtain ⟨_, _, hchange, h⟩ := h.of_bind
  have hchanged : f b = _ := hchange.builder
  rw [hchanged]
  exact h

theorem RunsWithin.of_pure {a c : α} (h : RunsWithin notices (Pure.pure a) b c b') :
    c = a ∧ b' = b := ⟨(Except.ok.inj h.result).symm, h.builder.symm⟩

/-- Only a pass without a fault is taken over, with all its notices. -/
theorem RunsWithin.of_ofPass {p : Pass α} {category : Category} {total : Nat} {as : List α}
    (h : RunsWithin notices (Building.ofPass category total p) b as b') :
    p.fault = none ∧ as = p.built ∧ p.notices ⊆ notices ∧
      b' = { b with stats := b.stats.add category total p.verdicts } := by
  obtain ⟨hfault, hbuilt⟩ := h.toRuns.of_ofPass
  exact ⟨hfault, hbuilt, h.reported, h.builder.symm⟩

/-- A pass over a collection that is taken over has given every item its verdict. -/
theorem RunsWithin.verdicts {ι : Type} {judge : ι → Traced Notice Misfit (Verdict α)}
    {items : List ι} {category : Category} {as : List α}
    (h : RunsWithin notices (Building.ofPass category items.length (Pass.judgeAll judge items))
      b as b') :
    ∃ vs, List.Forall₂ (fun i => Given (judge i) notices) items vs ∧
      as = vs.filterMap Verdict.built? ∧
      b' = { b with stats := b.stats.add category items.length vs } := by
  obtain ⟨hfault, has, hnotices, hbuilder⟩ := h.of_ofPass
  exact ⟨_, (Pass.forall₂_judgeAll hfault).imp fun _ _ hgiven => hgiven.mono hnotices, has,
    hbuilder⟩

end Building

open Building (RunsWithin)

section

variable {notices : List Notice} {b b' : Builder}

/-- Of the defines it is known which verdicts there are, but not in which order. -/
theorem constants_verdicts {ds : List Header.Define} {cs : List Constant}
    (h : RunsWithin notices (constants ds) b cs b') :
    ∃ items vs known, items.Perm (placed ds) ∧ List.Forall₂ (GivenInTurn notices) items vs ∧
      cs = seededConstants b.known ++ inHeaderOrder ds.length (vs.filterMap Verdict.built?) ∧
      b' = { b with known, stats := b.stats.add .defines ds.length vs } := by
  obtain ⟨accepted, _, hpass, hend⟩ := h.of_state.of_state.of_change.of_bind
  obtain ⟨hfault, rfl, hnotices, hbuilder⟩ := hpass.of_ofPass
  obtain ⟨rfl, rfl⟩ := hend.of_pure
  obtain ⟨items, hperm, hgiven⟩ := forall₂_passDefines hfault
  exact ⟨items, _, _, hperm, hgiven.imp fun _ _ h => h.mono hnotices, rfl, hbuilder⟩

theorem enums_verdicts {es : List Header.Enum} {built : List Enum}
    (h : RunsWithin notices (enums es) b built b') :
    ∃ vs, List.Forall₂ (fun e => Given (judgeEnum b.known b.options e) notices) es vs ∧
      built = vs.filterMap Verdict.built? ∧
      b' = { b with stats := b.stats.add .enums es.length vs } :=
  h.of_state.verdicts

theorem typedefs_verdicts {ts : List Header.Typedef} {built : List Alias × List Delegate}
    (h : RunsWithin notices (typedefs ts) b built b') :
    ∃ vs aliases,
      List.Forall₂ (fun t => Given (judgeTypedef b.known b.native b.options t) notices) ts vs ∧
      built.1 = aliasesOf (vs.filterMap Verdict.built?) ∧
      built.2 = delegatesOf (vs.filterMap Verdict.built?) ∧
      b' = { b with aliases, stats := b.stats.add .typedefs ts.length vs } := by
  obtain ⟨results, _, hpass, hend⟩ := h.of_state.of_change.of_bind
  obtain ⟨vs, hgiven, rfl, hbuilder⟩ := hpass.verdicts
  obtain ⟨rfl, rfl⟩ := hend.of_pure
  exact ⟨vs, _, hgiven, rfl, rfl, hbuilder⟩

theorem structs_verdicts {ss : List Header.Struct} {built : List Struct}
    (h : RunsWithin notices (structs ss) b built b') :
    ∃ vs, List.Forall₂ (fun s => Given (judgeStruct b.known b.native b.options s) notices) ss vs ∧
      built = vs.filterMap Verdict.built? ∧
      b' = { b with stats := b.stats.add .structs ss.length vs } :=
  h.of_state.verdicts

theorem functions_verdicts {fs : List Header.Function} {built : List Function × List Delegate}
    (h : RunsWithin notices (functions fs) b built b') :
    ∃ vs, List.Forall₂ (fun f => Given (judgeFunction b.known b.native b.options f) notices) fs vs ∧
      built.1 = (vs.filterMap Verdict.built?).map (·.function) ∧
      built.2 = (vs.filterMap Verdict.built?).flatMap (·.delegates) ∧
      b' = { b with stats := b.stats.add .functions fs.length vs } := by
  obtain ⟨bs, _, hpass, hend⟩ := h.of_state.of_bind
  obtain ⟨vs, hgiven, rfl, hbuilder⟩ := hpass.verdicts
  obtain ⟨rfl, rfl⟩ := hend.of_pure
  exact ⟨vs, hgiven, rfl, rfl, hbuilder⟩

end

/-- Building a header in its stages, each from the state that the one before left. Once the defines
are built, all judgements look at the same settings. -/
inductive Staged (d : Header.Definitions) (b : Builder) (built : DeclarationSet) (b' : Builder)
    (notices : List Notice) : Prop where
  | intro {b₁ b₂ b₃ b₄ b₅ : Builder}
      (defines : RunsWithin notices (constants d.defines) b built.constants b₁)
      (enumConstants : RunsWithin notices (enumConstants d.enums) b₁ built.enumConstants b₂)
      (enums : RunsWithin notices (enums d.enums) b₂ built.enums b₃)
      (typedefs : RunsWithin notices (typedefs d.typedefs) b₃
        (built.aliases, built.typedefDelegates) b₄)
      (structs : RunsWithin notices (structs d.structs) b₄ built.structs b₅)
      (functions : RunsWithin notices (functions d.functions) b₅
        (built.functions, built.delegates) b')
      (settled : ∀ state ∈ [b₁, b₂, b₃, b₄, b₅], settings state = (b.options, b.native, b'.known))
      (inlineArrays : built.inlineArrays = [])

/-- **A header is built in its stages.** -/
theorem staged_of_declarations {d : Header.Definitions} {b : Builder} {built : DeclarationSet}
    (h : (declarations d b).result = .ok built) :
    Staged d b built (declarations d b).builder (declarations d b).notices := by
  have h : RunsWithin (declarations d b).notices (declarations d) b built
      (declarations d b).builder := ⟨⟨h, rfl⟩, fun _ hn => hn⟩
  obtain ⟨_, b₁, hdefines, h⟩ := h.of_report.of_bind
  obtain ⟨_, b₂, hnumbers, h⟩ := h.of_report.of_bind
  obtain ⟨_, b₃, henums, h⟩ := h.of_report.of_bind
  obtain ⟨⟨_, _⟩, b₄, htypedefs, h⟩ := h.of_report.of_bind
  obtain ⟨_, b₅, hstructs, h⟩ := h.of_report.of_bind
  obtain ⟨⟨_, _⟩, b₆, hfunctions, h⟩ := h.of_report.of_bind
  obtain ⟨rfl, hend⟩ := h.of_pure
  rw [hend]
  refine ⟨hdefines, hnumbers, henums, htypedefs, hstructs, hfunctions, ?_, rfl⟩
  -- no collection after the defines changes the settings, so from the end they go back to the first
  have h₅ := hfunctions.view_eq (functions_leaves d.functions)
  have h₄ := hstructs.view_eq (structs_leaves d.structs)
  have h₃ := htypedefs.view_eq (typedefs_leaves d.typedefs)
  have h₂ := henums.view_eq (enums_leaves d.enums)
  have h₁ := hnumbers.view_eq (enumConstants_leaves d.enums)
  have hend : settings b₆ = (b.options, b.native, b₆.known) := by
    have hfirst := hdefines.view_eq (constants_leaves d.defines)
    have hlast : settings b₆ = settings b₁ := h₅.trans (h₄.trans (h₃.trans (h₂.trans h₁)))
    obtain ⟨hoptions, hrest⟩ := Prod.mk.inj hlast
    obtain ⟨hnative, _⟩ := Prod.mk.inj hrest
    obtain ⟨hoptions₁, hnative₁⟩ := Prod.mk.inj hfirst
    rw [settings, hoptions, hoptions₁, hnative, hnative₁]
  simp only [List.forall_mem_cons, List.not_mem_nil, false_imp_iff, implies_true, and_true]
  have e₅ := h₅.symm.trans hend
  have e₄ := h₄.symm.trans e₅
  have e₃ := h₃.symm.trans e₄
  have e₂ := h₂.symm.trans e₃
  exact ⟨h₁.symm.trans e₂, e₂, e₃, e₄, e₅⟩

end Build

end NativeBindings
