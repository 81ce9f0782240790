import Mathlib.Algebra.GroupWithZero.Nat
import NativeBindings.Proofs.NothingLost
import NativeBindings.Proofs.OrderedMap

/-!
# Counts that add up

Every step of building that judges a collection counts its items, and gives each of them one
verdict, which is counted as well. So in the end the verdicts add up to the items, and what is
counted as accepted is what was returned. One builder may take any number of steps, in any
order, and its counts go on from each to the next.

The numbers of enum values are built from the same enums as the enums themselves. That step
counts nothing, since the other one does.
-/

namespace NativeBindings.Build

open CSharp
open Building (RunsWithin)

/-! ## One pass -/

/-- The counts of a kind of items; there are none before the first pass. -/
def Stats.counts (s : Stats) (c : Category) : Counts := (s.get? c).getD {}

theorem Stats.counts_add {α : Type} (s : Stats) (category : Category) (total : Nat)
    (vs : List (Verdict α)) (c : Category) : (s.add category total vs).counts c =
      if category = c then (s.counts category).add total vs else s.counts c := by
  rw [counts, Stats.add, OrderedMap.get?_insert, counts, counts]
  by_cases h : category = c
  · rw [if_pos h, if_pos (by simpa using h)]
    rfl
  · rw [if_neg h, if_neg (by simpa using h)]

/-- A number for one kind, and nothing for the others. -/
def only (kind : Category) (n : Nat) (c : Category) : Nat := if kind = c then n else 0

/-- The counts of a kind after some of its items were judged, of which some were accepted. Defines,
enums and structs are never dropped. -/
structure Counted (c : Category) (before after : Counts) (items accepted : Nat) : Prop where
  total : after.total = before.total + items
  accepted : after.accepted = before.accepted + accepted
  verdicts : after.accepted + after.excluded + after.dropped =
    before.accepted + before.excluded + before.dropped + items
  dropped : c ∈ [.defines, .enums, .structs] → after.dropped = before.dropped

theorem Counted.nothing (c : Category) (counts : Counts) : Counted c counts counts 0 0 :=
  ⟨rfl, rfl, rfl, fun _ => rfl⟩

theorem Counted.trans {c : Category} {before between after : Counts} {m n k l : Nat}
    (h : Counted c before between m k) (h' : Counted c between after n l) :
    Counted c before after (m + n) (k + l) where
  total := by rw [h'.total, h.total, Nat.add_assoc]
  accepted := by rw [h'.accepted, h.accepted, Nat.add_assoc]
  verdicts := by rw [h'.verdicts, h.verdicts, Nat.add_assoc]
  dropped hc := (h'.dropped hc).trans (h.dropped hc)

/-- Each verdict is counted once. -/
theorem Counts.foldl_tally {α : Type} (vs : List (Verdict α)) (k : Counts) :
    (vs.foldl tally k).total = k.total ∧
      (vs.foldl tally k).accepted = k.accepted + (vs.filterMap Verdict.built?).length ∧
      (vs.foldl tally k).accepted + (vs.foldl tally k).excluded + (vs.foldl tally k).dropped =
        k.accepted + k.excluded + k.dropped + vs.length ∧
      ((∀ v ∈ vs, v ≠ .dropped) → (vs.foldl tally k).dropped = k.dropped) := by
  induction vs generalizing k with
  | nil => exact ⟨rfl, rfl, rfl, fun _ => rfl⟩
  | cons v rest ih =>
      obtain ⟨htotal, haccepted, hverdicts, hdropped⟩ := ih (k.tally v)
      rw [List.foldl_cons, List.filterMap_cons, List.length_cons, htotal, haccepted]
      rw [haccepted] at hverdicts
      have hrest : (∀ w ∈ v :: rest, w ≠ .dropped) → (rest.foldl tally (k.tally v)).dropped =
          (k.tally v).dropped := fun h => hdropped fun w hw => h w (List.mem_cons_of_mem v hw)
      cases v with
      | accepted a =>
          refine ⟨rfl, ?_, ?_, hrest⟩
          · simp only [tally, Verdict.built?, List.length_cons]
            omega
          · simp only [tally] at hverdicts ⊢
            omega
      | excluded =>
          refine ⟨rfl, rfl, ?_, hrest⟩
          simp only [tally] at hverdicts ⊢
          omega
      | dropped =>
          refine ⟨rfl, rfl, ?_, fun h => absurd rfl (h .dropped List.mem_cons_self)⟩
          simp only [tally] at hverdicts ⊢
          omega

/-- What a pass adds to the counts. -/
theorem Stats.counted_add {α : Type} (s : Stats) (kind : Category) {total : Nat}
    {vs : List (Verdict α)} (hlength : vs.length = total)
    (hdropped : kind ∈ [.defines, .enums, .structs] → ∀ v ∈ vs, v ≠ .dropped) (c : Category) :
    Counted c (s.counts c) ((s.add kind total vs).counts c) (only kind total c)
      (only kind (vs.filterMap Verdict.built?).length c) := by
  rw [Stats.counts_add, only, only]
  split
  · rename_i hkind
    subst hkind
    obtain ⟨htotal, haccepted, hverdicts, hnone⟩ :=
      Counts.foldl_tally vs { s.counts kind with total := (s.counts kind).total + total }
    exact ⟨htotal, haccepted, hlength ▸ hverdicts, fun hc => hnone (hdropped hc)⟩
  · exact .nothing c _

/-! ## One collection -/

section

variable {notices : List Notice} {b b' : Builder}

theorem constants_counted {ds : List Header.Define} {cs : List Constant}
    (h : RunsWithin notices (constants ds) b cs b') : ∃ new, cs = seededConstants b.known ++ new ∧
      ∀ c, Counted c (b.stats.counts c) (b'.stats.counts c) (only .defines ds.length c)
        (only .defines new.length c) := by
  obtain ⟨items, vs, _, hperm, hgiven, hcs, rfl⟩ := constants_verdicts h
  have hlength : vs.length = ds.length := by
    rw [← hgiven.length_eq, hperm.length_eq, ← List.length_map (·.2), map_snd_placed]
  have hdropped : ∀ v ∈ vs, v ≠ .dropped := forall_right_of_forall₂ hgiven fun p v hv => by
    cases hv.cases with
    | accepted _ _ _ => simp
    | excluded _ => simp
  refine ⟨_, hcs, fun c => ?_⟩
  rw [(inHeaderOrder_perm hperm hgiven).length_eq, List.length_map]
  exact b.stats.counted_add .defines hlength (fun _ => hdropped) c

theorem enums_counted {es : List Header.Enum} {built : List Enum}
    (h : RunsWithin notices (enums es) b built b') (c : Category) :
    Counted c (b.stats.counts c) (b'.stats.counts c) (only .enums es.length c)
      (only .enums built.length c) := by
  obtain ⟨vs, hgiven, rfl, rfl⟩ := enums_verdicts h
  exact b.stats.counted_add .enums hgiven.length_eq.symm (fun _ => forall_right_of_forall₂ hgiven
    fun e v hv => (hv.of_gives (judgeEnum_gives _ _ e)).1) c

/-- Building the numbers of enums leaves everything as it is. -/
theorem enumConstants_leave {es : List Header.Enum} {cs : List Constant}
    (h : RunsWithin notices (enumConstants es) b cs b') : b' = b := by
  have hleaves : (enumConstants es).Leaves id :=
    .bind .state fun _ => .bind (.ofExcept _) fun _ => .pure _
  exact h.view_eq hleaves

/-- What typedefs become is an alias, a delegate or nothing. -/
theorem length_typedefResults (rs : List TypedefResult) : rs.length =
    (aliasesOf rs).length + (delegatesOf rs).length + rs.countP (·.image?.isNone) := by
  induction rs with
  | nil => rfl
  | cons r rest ih =>
      rw [aliasesOf, delegatesOf] at ih ⊢
      rw [List.length_cons, List.countP_cons, List.filterMap_cons, List.filterMap_cons, ih]
      cases r with
      | typeAlias a => simp [TypedefResult.image?]; omega
      | delegate d => simp [TypedefResult.image?]; omega
      | identity => simp [TypedefResult.image?]; omega

/-- Nothing is what a typedef becomes that changes nothing. -/
theorem countP_typedefResults {known : Symbols} {native : NativeTypes} {o : Options}
    {ts : List Header.Typedef} {vs : List (Verdict TypedefResult)}
    (h : List.Forall₂ (fun t => Given (judgeTypedef known native o t) notices) ts vs) :
    (vs.filterMap Verdict.built?).countP (·.image?.isNone) =
      ts.countP (isIdentity known native) := by
  induction h with
  | nil => rfl
  | @cons t v _ vs hv _ ih =>
      rw [List.filterMap_cons, List.countP_cons]
      cases hv.of_gives (judgeTypedef_gives known native o t) with
      | excluded hself _ =>
          rw [hself]
          exact ih
      | dropped hself _ =>
          rw [hself]
          exact ih
      | identity hself =>
          rw [hself]
          exact List.countP_cons.trans (congrArg (· + 1) ih)
      | @accepted r x hself hr _ =>
          rw [hself]
          refine List.countP_cons.trans ?_
          rw [hr]
          exact ih

/-- How many typedefs change nothing. -/
def identities (b : Builder) (ts : List Header.Typedef) : Nat :=
  ts.countP (isIdentity b.known b.native)

theorem identities_congr (h : settings b = settings b') (ts : List Header.Typedef) :
    identities b ts = identities b' ts := by
  obtain ⟨_, hrest⟩ := Prod.mk.inj h
  obtain ⟨hnative, hknown⟩ := Prod.mk.inj hrest
  rw [identities, identities, hnative, hknown]

theorem typedefs_counted {ts : List Header.Typedef} {built : List Alias × List Delegate}
    (h : RunsWithin notices (typedefs ts) b built b') (c : Category) :
    Counted c (b.stats.counts c) (b'.stats.counts c) (only .typedefs ts.length c)
      (only .typedefs (built.1.length + built.2.length + identities b ts) c) := by
  obtain ⟨vs, _, hgiven, haliases, hdelegates, rfl⟩ := typedefs_verdicts h
  rw [haliases, hdelegates, identities, ← countP_typedefResults hgiven, ← length_typedefResults]
  exact b.stats.counted_add .typedefs hgiven.length_eq.symm (by simp) c

theorem structs_counted {ss : List Header.Struct} {built : List Struct}
    (h : RunsWithin notices (structs ss) b built b') (c : Category) :
    Counted c (b.stats.counts c) (b'.stats.counts c) (only .structs ss.length c)
      (only .structs built.length c) := by
  obtain ⟨vs, hgiven, rfl, rfl⟩ := structs_verdicts h
  exact b.stats.counted_add .structs hgiven.length_eq.symm (fun _ => forall_right_of_forall₂ hgiven
    fun s v hv => (hv.of_gives (judgeStruct_gives _ _ _ s)).1) c

theorem functions_counted {fs : List Header.Function} {built : List Function × List Delegate}
    (h : RunsWithin notices (functions fs) b built b') (c : Category) :
    Counted c (b.stats.counts c) (b'.stats.counts c) (only .functions fs.length c)
      (only .functions built.1.length c) := by
  obtain ⟨vs, hgiven, hbuilt, _, rfl⟩ := functions_verdicts h
  rw [hbuilt, List.length_map]
  exact b.stats.counted_add .functions hgiven.length_eq.symm (by simp) c

/-- Building everything counts everything. -/
theorem declarations_counted {d : Header.Definitions} {built : DeclarationSet}
    (h : Building.Runs (declarations d) b built b') :
    ∃ new, built.constants = seededConstants b.known ++ new ∧
      ∀ c, Counted c (b.stats.counts c) (b'.stats.counts c)
        (only .defines d.defines.length c + only .enums d.enums.length c +
          only .typedefs d.typedefs.length c + only .structs d.structs.length c +
          only .functions d.functions.length c)
        (only .defines new.length c + only .enums built.enums.length c +
          only .typedefs (built.aliases.length + built.typedefDelegates.length +
            identities b' d.typedefs) c +
          only .structs built.structs.length c + only .functions built.functions.length c) := by
  have hstaged := staged_of_declarations h.result
  rw [h.builder] at hstaged
  obtain ⟨hdefines, hnumbers, henums, htypedefs, hstructs, hfunctions, hsettled, _⟩ := hstaged
  obtain ⟨new, hnew, hcounted⟩ := constants_counted hdefines
  obtain rfl := enumConstants_leave hnumbers
  -- which typedefs change nothing is the same in the end as when the typedefs were judged
  simp only [List.forall_mem_cons] at hsettled
  obtain ⟨-, -, h₃, -, h₅, -⟩ := hsettled
  have hidentities := identities_congr ((h₃.trans h₅.symm).trans
    (hfunctions.view_eq (functions_leaves d.functions)).symm) d.typedefs
  refine ⟨new, hnew, fun c => ?_⟩
  rw [← hidentities]
  exact ((((hcounted c).trans (enums_counted henums c)).trans (typedefs_counted htypedefs c)).trans
    (structs_counted hstructs c)).trans (functions_counted hfunctions c)

end

/-! ## Operations -/

/-- The operations of a builder. -/
inductive Operation where
  | defines (ds : List Header.Define)
  | enumConstants (es : List Header.Enum)
  | enums (es : List Header.Enum)
  | typedefs (ts : List Header.Typedef)
  | structs (ss : List Header.Struct)
  | functions (fs : List Header.Function)
  | everything (d : Header.Definitions)

namespace Operation

/-- The items that are handed in. -/
def items : Operation → Header.Definitions
  | defines ds => { defines := ds }
  | enumConstants es | enums es => { enums := es }
  | typedefs ts => { typedefs := ts }
  | structs ss => { structs := ss }
  | functions fs => { functions := fs }
  | everything d => d

/-- The operation, with all that it returns as a set of declarations. -/
def run : Operation → Building DeclarationSet
  | defines ds => do return { constants := ← constants ds }
  | enumConstants es => do return { enumConstants := ← Build.enumConstants es }
  | enums es => do return { enums := ← Build.enums es }
  | typedefs ts => do
    let (aliases, typedefDelegates) ← Build.typedefs ts
    return { aliases, typedefDelegates }
  | structs ss => do return { structs := ← Build.structs ss }
  | functions fs => do
    let (imported, delegates) ← Build.functions fs
    return { functions := imported, delegates }
  | everything d => declarations d

/-- How many items of a kind are counted. -/
def total : Operation → Category → Nat
  | enumConstants _, _ => 0
  | op, .defines => op.items.defines.length
  | op, .enums => op.items.enums.length
  | op, .typedefs => op.items.typedefs.length
  | op, .structs => op.items.structs.length
  | op, .functions => op.items.functions.length

/-- The constants for the symbols known before, where defines are built. -/
def seeded (known : Symbols) : Operation → List Constant
  | defines _ | everything _ => seededConstants known
  | enumConstants _ | enums _ | typedefs _ | structs _ | functions _ => []

end Operation

/-- An operation that ended well, with the states around it and what it returned. -/
structure Step where
  operation : Operation
  before : Builder
  returned : DeclarationSet
  after : Builder

namespace Step

/-- The constants that the operation returned for the symbols known before. -/
def seeded (s : Step) : List Constant := s.operation.seeded s.before.known

/-- How many things were made of the items of a kind. -/
def made (s : Step) : Category → Nat
  | .defines => (s.returned.constants.drop s.seeded.length).length
  | .enums => s.returned.enums.length
  | .typedefs => s.returned.aliases.length + s.returned.typedefDelegates.length +
      identities s.after s.operation.items.typedefs
  | .structs => s.returned.structs.length
  | .functions => s.returned.functions.length

/-- The operation counted what it was handed and what it returned. -/
structure Reconciled (s : Step) : Prop where
  seeded : s.seeded <+: s.returned.constants
  counted : ∀ c, Counted c (s.before.stats.counts c) (s.after.stats.counts c)
    (s.operation.total c) (s.made c)

end Step

theorem Building.RunsWithin.of_runs {α : Type} {x : Building α} {b b' : Builder} {a : α}
    (h : Building.Runs x b a b') : RunsWithin (x b).notices x b a b' := ⟨h, fun _ hn => hn⟩

/-- **Every operation counts.** -/
theorem reconciled_of_runs {op : Operation} {b b' : Builder} {returned : DeclarationSet}
    (h : Building.Runs op.run b returned b') : Step.Reconciled ⟨op, b, returned, b'⟩ := by
  have hnew : ∀ {new : List Constant}, returned.constants = seededConstants b.known ++ new →
      returned.constants.drop (seededConstants b.known).length = new := by
    intro new hconstants
    rw [hconstants]
    exact List.drop_left
  -- apart from its own kind an operation counts nothing, and has nothing to count
  cases op with
  | defines ds =>
      obtain ⟨cs, _, hrun, hend⟩ := (Building.RunsWithin.of_runs h).of_bind
      obtain ⟨rfl, rfl⟩ := hend.of_pure
      obtain ⟨new, hconstants, hcounted⟩ := constants_counted hrun
      refine ⟨⟨new, hconstants.symm⟩, fun c => ?_⟩
      rw [← hnew hconstants] at hcounted
      cases c <;> exact hcounted _
  | enumConstants es =>
      obtain ⟨cs, _, hrun, hend⟩ := (Building.RunsWithin.of_runs h).of_bind
      obtain ⟨rfl, rfl⟩ := hend.of_pure
      obtain rfl := enumConstants_leave hrun
      refine ⟨List.nil_prefix, fun c => ?_⟩
      cases c <;> exact .nothing _ _
  | enums es =>
      obtain ⟨built, _, hrun, hend⟩ := (Building.RunsWithin.of_runs h).of_bind
      obtain ⟨rfl, rfl⟩ := hend.of_pure
      refine ⟨List.nil_prefix, fun c => ?_⟩
      cases c <;> exact enums_counted hrun _
  | typedefs ts =>
      obtain ⟨built, b₁, hrun, hend⟩ := (Building.RunsWithin.of_runs h).of_bind
      obtain ⟨rfl, rfl⟩ := hend.of_pure
      refine ⟨List.nil_prefix, fun c => ?_⟩
      have hcounted := typedefs_counted hrun c
      rw [identities_congr (hrun.view_eq (typedefs_leaves ts)).symm ts] at hcounted
      cases c <;> exact hcounted
  | structs ss =>
      obtain ⟨built, _, hrun, hend⟩ := (Building.RunsWithin.of_runs h).of_bind
      obtain ⟨rfl, rfl⟩ := hend.of_pure
      refine ⟨List.nil_prefix, fun c => ?_⟩
      cases c <;> exact structs_counted hrun _
  | functions fs =>
      obtain ⟨built, _, hrun, hend⟩ := (Building.RunsWithin.of_runs h).of_bind
      obtain ⟨rfl, rfl⟩ := hend.of_pure
      refine ⟨List.nil_prefix, fun c => ?_⟩
      cases c <;> exact functions_counted hrun _
  | everything d =>
      obtain ⟨new, hconstants, hcounted⟩ := declarations_counted h
      refine ⟨⟨new, hconstants.symm⟩, fun c => ?_⟩
      rw [← hnew hconstants] at hcounted
      have hcounted := hcounted c
      cases c
      all_goals
        simp only [only, reduceCtorEq, if_true, if_false, Nat.zero_add, Nat.add_zero] at hcounted
        exact hcounted

/-! ## Sessions -/

/-- Operations on one builder that all end well, the first one first. -/
inductive Session : Builder → List Step → Builder → Prop where
  | done {b : Builder} : Session b [] b
  | step {op : Operation} {b b' b'' : Builder} {returned : DeclarationSet} {steps : List Step}
      (h : Building.Runs op.run b returned b') (rest : Session b' steps b'') :
      Session b (⟨op, b, returned, b'⟩ :: steps) b''

/-- Operations on well-typed items end well. -/
theorem Operation.returns {op : Operation} (h : op.items.WellTyped) (b : Builder) :
    ∃ returned b', Building.Runs op.run b returned b' := by
  cases op with
  | defines ds =>
      obtain ⟨_, hruns⟩ := constants_runs h.defines b
      exact ⟨_, _, .bind hruns (.pure _ _)⟩
  | enumConstants es => exact ⟨_, _, .bind (enumConstants_runs h.enums b) (.pure _ _)⟩
  | enums es =>
      obtain ⟨_, hruns⟩ := enums_runs h.enums b
      exact ⟨_, _, .bind hruns (.pure _ _)⟩
  | typedefs ts =>
      obtain ⟨_, hruns⟩ := typedefs_runs h.typedefs b
      exact ⟨_, _, .bind hruns (.pure _ _)⟩
  | structs ss =>
      obtain ⟨_, hruns⟩ := structs_runs h.structs b
      exact ⟨_, _, .bind hruns (.pure _ _)⟩
  | functions fs =>
      obtain ⟨_, hruns⟩ := functions_runs h.functions b
      exact ⟨_, _, .bind hruns (.pure _ _)⟩
  | everything d =>
      obtain ⟨_, hruns⟩ := declarations_runs h b
      exact ⟨_, _, hruns⟩

/-- Any operations on well-typed items make a session. -/
theorem session_of_wellTyped {ops : List Operation} (h : ∀ op ∈ ops, op.items.WellTyped)
    (b : Builder) : ∃ steps b', Session b steps b' ∧ steps.map (·.operation) = ops := by
  induction ops generalizing b with
  | nil => exact ⟨[], b, .done, rfl⟩
  | cons op rest ih =>
      obtain ⟨returned, b₁, hruns⟩ := Operation.returns (h op List.mem_cons_self) b
      obtain ⟨steps, b', hsession, rfl⟩ := ih (fun x hx => h x (List.mem_cons_of_mem op hx)) b₁
      exact ⟨_, b', .step hruns hsession, rfl⟩

theorem Session.reconciled {b b' : Builder} {steps : List Step} (h : Session b steps b') :
    ∀ s ∈ steps, s.Reconciled := by
  induction h with
  | done => exact fun _ hs => absurd hs (by simp)
  | step h _ ih => exact List.forall_mem_cons.mpr ⟨reconciled_of_runs h, ih⟩

/-- What the operations count adds up. -/
theorem Session.counted {b b' : Builder} {steps : List Step} (h : Session b steps b')
    (c : Category) : Counted c (b.stats.counts c) (b'.stats.counts c)
      (steps.map fun s => s.operation.total c).sum (steps.map fun s => s.made c).sum := by
  induction h with
  | done => exact .nothing c _
  | step h _ ih =>
      rw [List.map_cons, List.map_cons, List.sum_cons, List.sum_cons]
      exact ((reconciled_of_runs h).counted c).trans ih

/-- What the counts of a new builder say after some operations. -/
structure Reconcile (steps : List Step) (stats : Stats) : Prop where
  /-- Every item that was handed in has one verdict. -/
  verdicts : ∀ c, (stats.counts c).accepted + (stats.counts c).excluded + (stats.counts c).dropped =
    (stats.counts c).total
  total : ∀ c, (stats.counts c).total = (steps.map fun s => s.operation.total c).sum
  /-- As many were accepted as were returned. -/
  accepted : ∀ c, (stats.counts c).accepted = (steps.map fun s => s.made c).sum
  dropped : ∀ c ∈ [.defines, .enums, .structs], (stats.counts c).dropped = 0
  /-- The constants for symbols known before stand in front, and are not counted. -/
  seeded : ∀ s ∈ steps, s.seeded <+: s.returned.constants

/-- **The counts add up over any number of operations, in any order.** -/
theorem session_reconciles {b b' : Builder} {steps : List Step} (hnew : b.stats = ∅)
    (h : Session b steps b') : Reconcile steps b'.stats := by
  have hzero : ∀ c, b.stats.counts c = {} := fun c => by rw [hnew]; rfl
  have hcounted : ∀ c, Counted c {} (b'.stats.counts c)
      (steps.map fun s => s.operation.total c).sum (steps.map fun s => s.made c).sum :=
    fun c => hzero c ▸ h.counted c
  exact
    { verdicts c := (hcounted c).verdicts.trans (hcounted c).total.symm
      total c := (hcounted c).total.trans (Nat.zero_add _)
      accepted c := (hcounted c).accepted.trans (Nat.zero_add _)
      dropped c hc := (hcounted c).dropped hc
      seeded s hs := (h.reconciled s hs).seeded }

/-- A whole header, and then parts of it once more. -/
def repeatedOperations : List Operation :=
  [.everything lossyHeader, .enumConstants lossyHeader.enums, .typedefs lossyHeader.typedefs,
    .defines lossyHeader.defines, .functions lossyHeader.functions, .enums lossyHeader.enums]

theorem session_reconciles_repeatedOperations : (Builder.start {}).stats = ∅ ∧
    ∃ steps b', Session (.start {}) steps b' ∧ steps.map (·.operation) = repeatedOperations ∧
      Reconcile steps b'.stats := by
  have hwell : ∀ op ∈ repeatedOperations, op.items.WellTyped := by decide
  obtain ⟨steps, b', hsession, hsteps⟩ := session_of_wellTyped hwell (.start {})
  exact ⟨rfl, steps, b', hsession, hsteps, session_reconciles rfl hsession⟩

example : ((Operation.everything lossyHeader).run (.start {})).builder.stats.counts .typedefs =
    { total := 2, accepted := 1, dropped := 1 } := by
  decide +kernel

end NativeBindings.Build
