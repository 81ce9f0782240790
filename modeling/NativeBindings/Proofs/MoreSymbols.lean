import NativeBindings.Proofs.AcceptanceRule
import NativeBindings.Proofs.SeededSymbols

/-!
# More symbols

Only `ifndef` asks that a symbol is unknown. In a header without such guards a symbol that
becomes known can let further items in and cannot keep any out. For the defines this goes
through the rule that says which of them are accepted: what it says of a define depends only
on defines with fewer guards and on earlier ones with as many, and on each of them no less is
known (`AcceptanceRule.mono`). All other items are judged under what is known in the end.
-/

namespace NativeBindings

open CSharp

/-- All symbols of the one table are known to the other one, whatever texts they have there. -/
def FewerSymbols (known known' : Symbols) : Prop :=
  ∀ k, known.contains k = true → known'.contains k = true

/-! ## Guards -/

namespace Header

variable {known known' : Symbols}

/-- The guards let an item through. -/
def Includes (known : Symbols) (guards : List Guard) : Prop := included known guards = .ok true

/-- The guard does not ask that a symbol is unknown. -/
def Guard.Positive (g : Guard) : Prop := g.condition ≠ .text "ifndef"
  deriving Decidable

/-- No guard in the header asks that a symbol is unknown. -/
structure Definitions.Positive (d : Definitions) : Prop where
  defines : ∀ x ∈ d.defines, ∀ g ∈ x.guards, g.Positive
  enums : ∀ e ∈ d.enums, ∀ g ∈ e.guards, g.Positive
  elements : ∀ e ∈ d.enums, ∀ x ∈ e.elements, ∀ g ∈ x.guards, g.Positive
  typedefs : ∀ t ∈ d.typedefs, ∀ g ∈ t.guards, g.Positive
  structs : ∀ s ∈ d.structs, ∀ g ∈ s.guards, g.Positive
  fields : ∀ s ∈ d.structs, ∀ f ∈ s.fields, ∀ g ∈ f.guards, g.Positive
  functions : ∀ f ∈ d.functions, ∀ g ∈ f.guards, g.Positive

instance : DecidablePred Definitions.Positive :=
  fun d => decidable_of_iff
    ((∀ x ∈ d.defines, ∀ g ∈ x.guards, g.Positive) ∧
      (∀ e ∈ d.enums, ∀ g ∈ e.guards, g.Positive) ∧
      (∀ e ∈ d.enums, ∀ x ∈ e.elements, ∀ g ∈ x.guards, g.Positive) ∧
      (∀ t ∈ d.typedefs, ∀ g ∈ t.guards, g.Positive) ∧
      (∀ s ∈ d.structs, ∀ g ∈ s.guards, g.Positive) ∧
      (∀ s ∈ d.structs, ∀ f ∈ s.fields, ∀ g ∈ f.guards, g.Positive) ∧
      ∀ f ∈ d.functions, ∀ g ∈ f.guards, g.Positive)
    ⟨fun ⟨h₁, h₂, h₃, h₄, h₅, h₆, h₇⟩ => ⟨h₁, h₂, h₃, h₄, h₅, h₆, h₇⟩,
      fun h => ⟨h.defines, h.enums, h.elements, h.typedefs, h.structs, h.fields, h.functions⟩⟩

/-- A guard that asks only for what is known goes on holding. -/
theorem Guard.Holds.mono {g : Guard} (hg : g.Positive) {knows knows' : String → Prop}
    (h : ∀ x, knows x → knows' x) (hholds : g.Holds knows) : g.Holds knows' := by
  cases hholds with
  | ifdef hc he hknown => exact .ifdef hc he (h _ hknown)
  | ifndef hc _ _ => exact absurd hc hg
  | ifDefined hc he hlone hknown => exact .ifDefined hc he hlone (h _ hknown)

theorem Guard.holds_mono (h : FewerSymbols known known') {g : Guard} (hg : g.Positive) {lone : Bool}
    (hholds : g.holds known lone = .ok true) : g.holds known' lone = .ok true := by
  unfold Guard.holds at hholds ⊢
  split
  · -- `ifdef`
    rename_i hc
    rw [if_pos hc] at hholds
    obtain ⟨k, hk, hknown⟩ := bind_eq_ok.mp hholds
    rw [hk, ok_bind]
    exact congrArg Except.ok (h k (Except.ok.inj hknown))
  · rename_i hc
    rw [if_neg hc, if_neg hg] at hholds
    rw [if_neg hg]
    split
    · -- a lone `if`
      rename_i hif
      rw [if_pos hif] at hholds
      obtain ⟨s, hs, hknown⟩ := bind_eq_ok.mp hholds
      rw [hs, ok_bind]
      cases hsymbol : definedSymbol? s with
      | none =>
          rw [hsymbol] at hknown
          exact hknown
      | some x =>
          rw [hsymbol] at hknown
          exact congrArg Except.ok (h (.text x) (Except.ok.inj hknown))
    · rename_i hif
      rw [if_neg hif] at hholds
      exact hholds

/-- What is included stays included when more symbols are known. -/
theorem Includes.mono {guards : List Guard} (hincludes : Includes known guards)
    (h : FewerSymbols known known') (hg : ∀ g ∈ guards, g.Positive) : Includes known' guards := by
  match guards, hg with
  | [], _ => exact hincludes
  | [g], hg => exact g.holds_mono h (hg g List.mem_cons_self) hincludes
  | _ :: g :: _, hg =>
      exact g.holds_mono h (hg g (List.mem_cons_of_mem _ List.mem_cons_self)) hincludes

end Header

namespace Build

open Header (Define Guard Includes)

variable {known known' : Symbols}

/-! ## Defines -/

/-- Where more symbols are known, the rule accepts every define that it accepts where fewer are. -/
theorem AcceptanceRule.mono {ds : List Define} {accepted accepted' : Fin ds.length → Bool}
    (h : AcceptanceRule known ds accepted) (h' : AcceptanceRule known' ds accepted')
    (hknown : FewerSymbols known known') (hpositive : ∀ d ∈ ds, ∀ g ∈ d.guards, g.Positive)
    (i : Fin ds.length) (hi : accepted i = true) : accepted' i = true := by
  have hguards : ∀ g ∈ ds[i].guards, g.Positive := hpositive _ (List.getElem_mem i.isLt)
  rcases List.eq_nil_or_concat ds[i].guards with hg | ⟨front, g, hg⟩
  · exact h'.unguarded i hg
  -- earlier siblings matter for one guard only
  · have hlast : g.Positive := hguards g (by rw [hg]; simp)
    by_cases hone : front = []
    · have hsingle : ds[i].guards = [g] := by rw [hg, hone]; rfl
      refine (h'.single i g hsingle).mpr (((h.single i g hsingle).mp hi).mono hlast fun x hx => ?_)
      refine hx.imp (hknown _) (Exists.imp fun j => And.imp_right (Or.imp_right ?_))
      intro hsibling
      obtain ⟨hlt, hj, hlen⟩ := hsibling
      have hdec : ds[j].guards.length = ds[i].guards.length := by rw [hlen, hsingle]; rfl
      exact ⟨hlt, AcceptanceRule.mono h h' hknown hpositive j hj, hlen⟩
    · have hmany : 2 ≤ ds[i].guards.length := by
        have hpos : 0 < front.length := List.length_pos_iff.mpr hone
        rw [hg, List.length_concat]
        omega
      have hconcat : ds[i].guards.getLast? = some g := by rw [hg]; simp
      refine (h'.nested i g hmany hconcat).mpr
        (((h.nested i g hmany hconcat).mp hi).mono hlast fun x hx => ?_)
      refine hx.imp (hknown _) (Exists.imp fun j => And.imp_right ?_)
      intro houter
      obtain ⟨hfewer, hj⟩ := houter
      exact ⟨hfewer, AcceptanceRule.mono h h' hknown hpositive j hj⟩
termination_by (ds[i].guards.length, i.val)
decreasing_by
  · rw [hdec]
    exact Prod.Lex.right _ hlt
  · exact Prod.Lex.left _ _ hfewer

section Defines

variable {ds : List Define} (h : ∀ d ∈ ds, d.WellTyped) (hknown : FewerSymbols known known')
  (hpositive : ∀ d ∈ ds, ∀ g ∈ d.guards, g.Positive)

include h hknown hpositive

/-- Whatever is taken is taken when more symbols are known. -/
theorem takenAt_mono {i : Fin ds.length} (hi : TakenAt (takenOf known ds) i) :
    TakenAt (takenOf known' ds) i := by
  classical
  have hrule : ∀ k : Symbols,
      AcceptanceRule k ds fun j => decide (TakenAt (takenOf k ds) j) := fun k =>
    acceptanceRule_takenOf h k fun _ => decide_eq_true_iff
  exact of_decide_eq_true ((hrule known).mono (hrule known') hknown hpositive i (decide_eq_true hi))

/-- What is taken has a counterpart with the same symbol when more symbols are known. -/
theorem exists_taken_mono {a : AcceptedDefine} (ha : a ∈ takenOf known ds) :
    ∃ a' ∈ takenOf known' ds, a'.symbol = a.symbol := by
  obtain ⟨⟨i, d⟩, hp, hfrom⟩ := allComeFrom_takenOf h known a ha
  obtain ⟨hlt, hd⟩ := List.getElem?_eq_some_iff.mp (mem_placed.mp hp)
  obtain ⟨a', ha', hi⟩ := takenAt_mono h hknown hpositive (i := ⟨i, hlt⟩) ⟨a, ha, hfrom.index⟩
  obtain ⟨s, hs, hsymbol⟩ := hfrom.symbol
  obtain ⟨s', hs', hsymbol'⟩ := (comesFrom_takenOf h known' ha' hi).symbol
  have hname : ds[i].name = .text s := (congrArg Define.name hd).trans hs
  have htext : s' = s := Leaf.text.inj (hs'.symm.trans hname)
  exact ⟨a', ha', by rw [hsymbol', hsymbol, htext]⟩

/-- What is known in the end is known in the end when more symbols are known from the start. -/
theorem fewerSymbols_knownAfter : FewerSymbols (knownAfter known ds) (knownAfter known' ds) := by
  intro k hk
  rcases (contains_foldl_learn _ _ _).mp hk with hseed | ⟨a, ha, hsymbol⟩
  · exact (contains_foldl_learn _ _ _).mpr (.inl (hknown k hseed))
  · obtain ⟨a', ha', hsame⟩ := exists_taken_mono h hknown hpositive ha
    exact (contains_foldl_learn _ _ _).mpr (.inr ⟨a', ha', hsame ▸ hsymbol⟩)

omit hknown hpositive in
/-- The constant of a define is there exactly if the define is taken, and has its name. -/
theorem name_constantAt (known : Symbols) (i : Fin ds.length)
    [Decidable (TakenAt (takenOf known ds) i)] :
    (constantAt known ds i).map (·.name) =
      if TakenAt (takenOf known ds) i then some (ds.get i).name else none := by
  classical
  have hname := name_find?_takenOf h known (fun _ => decide_eq_true_iff) i
  rw [constantAt_eq h, Option.map_map]
  exact hname.trans (by simp only [decide_eq_true_eq, List.get_eq_getElem, Fin.getElem_fin])

/-- A define that becomes a constant becomes one of the same name when more symbols are known. -/
theorem constantAt_mono {i : Fin ds.length} {c : Constant} (hc : constantAt known ds i = some c) :
    ∃ c', constantAt known' ds i = some c' ∧ c'.name = c.name := by
  classical
  have hname := name_constantAt h known i
  have hname' := name_constantAt h known' i
  rw [hc, Option.map_some] at hname
  by_cases hi : TakenAt (takenOf known ds) i
  · rw [if_pos hi] at hname
    rw [if_pos (takenAt_mono h hknown hpositive hi)] at hname'
    obtain ⟨c', hc', hsame⟩ := Option.map_eq_some_iff.mp hname'
    exact ⟨c', hc', hsame.trans (Option.some.inj hname).symm⟩
  · rw [if_neg hi] at hname
    exact absurd hname (by simp)

end Defines

/-! ## Other items -/

theorem isIncluded_iff {guards : List Guard} :
    isIncluded known guards = true ↔ Includes known guards := by
  rw [isIncluded, Includes]
  cases Header.included known guards with
  | error e => simp [Except.toOption]
  | ok b => simp [Except.toOption]

/-- Guarded items are accepted where their guards let them through and their judgement accepts
them. -/
theorem accepted?_judgeGuarded {α : Type} {guards : List Guard} {exclusion : Notice}
    {judge : Traced Notice Misfit (Verdict α)} {a : α} :
    accepted? (judgeGuarded known guards exclusion judge) = some a ↔
      Includes known guards ∧ accepted? judge = some a := by
  rw [accepted?_eq_some, accepted?_eq_some, result_judgeGuarded, Includes]
  constructor
  · intro haccepted
    obtain ⟨included, hincluded, haccepted⟩ := bind_eq_ok.mp haccepted
    cases included with
    | false => exact absurd haccepted (by simp)
    | true => exact ⟨hincluded, haccepted⟩
  · intro haccepted
    rw [haccepted.1, ok_bind]
    exact haccepted.2

/-- The same enum, with the same values and maybe more of them. -/
structure EnumExtendedBy (e e' : Enum) : Prop where
  same : { e' with values := e.values } = e
  values : e.values.Sublist e'.values

/-- The same struct, with the same fields and maybe more of them. -/
structure StructExtendedBy (s s' : Struct) : Prop where
  same : { s' with fields := s.fields, inner := s.inner } = s
  fields : s.fields.Sublist s'.fields
  inner : s.inner.Sublist s'.inner

/-- The declarations have everything that the other ones have, in its order. Enums and structs may
have further values and fields. -/
structure ExtendedBy (built built' : DeclarationSet) : Prop where
  enumConstants : built.enumConstants.Sublist built'.enumConstants
  enums : List.SublistForall₂ EnumExtendedBy built.enums built'.enums
  aliases : built.aliases.Sublist built'.aliases
  typedefDelegates : built.typedefDelegates.Sublist built'.typedefDelegates
  structs : List.SublistForall₂ StructExtendedBy built.structs built'.structs
  delegates : built.delegates.Sublist built'.delegates
  functions : built.functions.Sublist built'.functions

section Lists

variable {α β γ : Type} {R : α → β → Prop} {l : List γ}

/-- What is kept of a list covers what else is kept of it, if it does so for each item. -/
theorem sublistForall₂_filterMap_filterMap {f : γ → Option α} {g : γ → Option β}
    (h : ∀ x ∈ l, ∀ a, f x = some a → ∃ b, g x = some b ∧ R a b) :
    List.SublistForall₂ R (l.filterMap f) (l.filterMap g) := by
  induction l with
  | nil => exact .nil
  | cons x rest ih =>
      have hrest := ih fun y hy => h y (List.mem_cons_of_mem x hy)
      cases hf : f x with
      | none =>
          rw [List.filterMap_cons_none hf, List.filterMap_cons]
          split
          · exact hrest
          · exact .cons_right hrest
      | some a =>
          obtain ⟨b, hb, hab⟩ := h x List.mem_cons_self a hf
          rw [List.filterMap_cons_some hf, List.filterMap_cons_some hb]
          exact .cons hab hrest

/-- If whatever is kept of an item is kept elsewhere too, nothing is missing there. -/
theorem sublist_filterMap_filterMap {f g : γ → Option α}
    (h : ∀ x ∈ l, ∀ a, f x = some a → g x = some a) :
    (l.filterMap f).Sublist (l.filterMap g) := by
  have hcovers : List.SublistForall₂ Eq (l.filterMap f) (l.filterMap g) :=
    sublistForall₂_filterMap_filterMap fun x hx a ha => ⟨a, h x hx a ha, rfl⟩
  obtain ⟨part, hsame, hpart⟩ := List.sublistForall₂_iff.mp hcovers
  rw [List.forall₂_eq_eq_eq] at hsame
  exact hsame ▸ hpart

theorem sublist_filter_filter {p q : γ → Bool} (h : ∀ x ∈ l, p x = true → q x = true) :
    (l.filter p).Sublist (l.filter q) := by
  rw [← List.filterMap_eq_filter, ← List.filterMap_eq_filter]
  refine sublist_filterMap_filterMap fun x hx a ha => ?_
  rw [Option.guard_eq_some_iff] at ha ⊢
  exact ⟨ha.1, h x hx ha.2⟩

end Lists

section Items

variable (hknown : FewerSymbols known known') {native : NativeTypes} {o : Options}

include hknown

theorem isIncluded_mono {guards : List Guard} (hpositive : ∀ g ∈ guards, g.Positive)
    (h : isIncluded known guards = true) : isIncluded known' guards = true :=
  isIncluded_iff.mpr ((isIncluded_iff.mp h).mono hknown hpositive)

/-- Of guarded items, no fewer are included. -/
theorem sublist_filter_isIncluded {ι : Type} {guards : ι → List Guard} {items : List ι}
    (hpositive : ∀ x ∈ items, ∀ g ∈ guards x, g.Positive) :
    (items.filter fun x => isIncluded known (guards x)).Sublist
      (items.filter fun x => isIncluded known' (guards x)) :=
  sublist_filter_filter fun x hx => isIncluded_mono hknown (hpositive x hx)

theorem numbersOf_mono {e : Header.Enum} (henum : ∀ g ∈ e.guards, g.Positive)
    (hvalues : ∀ x ∈ e.elements, ∀ g ∈ x.guards, g.Positive) :
    (numbersOf known e).Sublist (numbersOf known' e) := by
  rw [numbersOf]
  split
  · rename_i hincluded
    rw [numbersOf, if_pos (isIncluded_mono hknown henum hincluded)]
    exact (sublist_filter_isIncluded hknown hvalues).map enumConstant
  · exact List.nil_sublist _

theorem judgeEnum_mono {e : Header.Enum} (h : e.WellTyped) (henum : ∀ g ∈ e.guards, g.Positive)
    (hvalues : ∀ x ∈ e.elements, ∀ g ∈ x.guards, g.Positive) {b : Enum}
    (hb : accepted? (judgeEnum known o e) = some b) :
    ∃ b', accepted? (judgeEnum known' o e) = some b' ∧ EnumExtendedBy b b' := by
  rw [accepted?_of_result (judgeEnum_eq h known o)] at hb
  rw [accepted?_of_result (judgeEnum_eq h known' o)]
  cases hincluded : isIncluded known e.guards with
  | false => simp [hincluded, Verdict.built?] at hb
  | true =>
      rw [hincluded, if_pos rfl] at hb
      rw [if_pos (isIncluded_mono hknown henum hincluded), ← Option.some.inj hb]
      exact ⟨_, rfl, rfl, (sublist_filter_isIncluded hknown hvalues).map (enumValue o)⟩

theorem judgeStruct_mono {s : Header.Struct} (h : s.WellTyped)
    (hstruct : ∀ g ∈ s.guards, g.Positive) (hfields : ∀ f ∈ s.fields, ∀ g ∈ f.guards, g.Positive)
    {b : Struct} (hb : accepted? (judgeStruct known native o s) = some b) :
    ∃ b', accepted? (judgeStruct known' native o s) = some b' ∧ StructExtendedBy b b' := by
  rw [accepted?_of_result (judgeStruct_eq h known native o)] at hb
  rw [accepted?_of_result (judgeStruct_eq h known' native o)]
  cases hincluded : isIncluded known s.guards with
  | false => simp [hincluded, Verdict.built?] at hb
  | true =>
      rw [hincluded, if_pos rfl] at hb
      have hkept : (keptFields known native o s.name s.fields).Sublist
          (keptFields known' native o s.name s.fields) :=
        (sublist_filter_isIncluded hknown hfields).filterMap _
      rw [if_pos (isIncluded_mono hknown hstruct hincluded), ← Option.some.inj hb]
      exact ⟨_, rfl, rfl, hkept.map _, hkept.filterMap _⟩

theorem judgeTypedef_mono {t : Header.Typedef} (hpositive : ∀ g ∈ t.guards, g.Positive)
    {r : TypedefResult} (hr : accepted? (judgeTypedef known native o t) = some r) :
    accepted? (judgeTypedef known' native o t) = some r := by
  obtain ⟨hincludes, hjudged⟩ := accepted?_judgeGuarded.mp hr
  exact accepted?_judgeGuarded.mpr ⟨hincludes.mono hknown hpositive, hjudged⟩

theorem judgeFunction_mono {f : Header.Function} (hpositive : ∀ g ∈ f.guards, g.Positive)
    {b : BuiltFunction} (hb : accepted? (judgeFunction known native o f) = some b) :
    accepted? (judgeFunction known' native o f) = some b := by
  obtain ⟨hincludes, hjudged⟩ := accepted?_judgeGuarded.mp hb
  exact accepted?_judgeGuarded.mpr ⟨hincludes.mono hknown hpositive, hjudged⟩

end Items

/-! ## Headers -/

section Headers

variable {d : Header.Definitions} (h : d.WellTyped) (hpositive : d.Positive) (o : Options)
  {seeds seeds' : Symbols} (hseeds : FewerSymbols seeds seeds')

include h hpositive hseeds

theorem fewerSymbols_knownOf :
    FewerSymbols (knownOf (o.knowing seeds) d) (knownOf (o.knowing seeds') d) := by
  rw [knownOf_eq h, knownOf_eq h]
  exact fewerSymbols_knownAfter h.defines hseeds hpositive.defines

/-- When more symbols are known from the start, no less is built. -/
theorem extendedBy_builtDeclarations :
    ExtendedBy (builtDeclarations (.start (o.knowing seeds)) d)
      (builtDeclarations (.start (o.knowing seeds')) d) := by
  have hknown := fewerSymbols_knownAfter h.defines hseeds hpositive.defines
  -- no judgement looks at the symbols that the settings name
  have hjudged : ∀ known s, JudgedAlike (o.knowing s) o known known := fun known s =>
    judgedAlike (SameSymbols.refl known) o s
  have henums : ∀ known s, judgeEnum known (o.knowing s) = judgeEnum known o :=
    fun known s => funext (hjudged known s).enums
  have htypedefs : ∀ known s,
      judgeTypedef known nativeTypes (o.knowing s) = judgeTypedef known nativeTypes o :=
    fun known s => funext (hjudged known s).typedefs
  have hstructs : ∀ known s,
      judgeStruct known nativeTypes (o.knowing s) = judgeStruct known nativeTypes o :=
    fun known s => funext (hjudged known s).structs
  have hfunctions : ∀ known s,
      judgeFunction known nativeTypes (o.knowing s) = judgeFunction known nativeTypes o :=
    fun known s => funext (hjudged known s).functions
  simp only [builtDeclarations, Builder.start, acceptedStructs_eq h.structs,
    acceptedFunctions_eq h.functions, typedefResults, henums, htypedefs, hstructs, hfunctions]
  have hresults : (d.typedefs.filterMap fun t =>
      accepted? (judgeTypedef (knownAfter seeds d.defines) nativeTypes o t)).Sublist
      (d.typedefs.filterMap fun t =>
        accepted? (judgeTypedef (knownAfter seeds' d.defines) nativeTypes o t)) :=
    sublist_filterMap_filterMap fun t ht _ => judgeTypedef_mono hknown (hpositive.typedefs t ht)
  have haccepted : (d.functions.filterMap fun f =>
      accepted? (judgeFunction (knownAfter seeds d.defines) nativeTypes o f)).Sublist
      (d.functions.filterMap fun f =>
        accepted? (judgeFunction (knownAfter seeds' d.defines) nativeTypes o f)) :=
    sublist_filterMap_filterMap fun f hf _ => judgeFunction_mono hknown (hpositive.functions f hf)
  refine ⟨?_, ?_, hresults.filterMap _, hresults.filterMap _, ?_, haccepted.flatMap _,
    haccepted.map _⟩
  · exact List.Sublist.flatMap_right d.enums fun e he =>
      numbersOf_mono hknown (hpositive.enums e he) (hpositive.elements e he)
  · exact sublistForall₂_filterMap_filterMap fun e he _ =>
      judgeEnum_mono hknown (h.enums e he) (hpositive.enums e he) (hpositive.elements e he)
  · exact sublistForall₂_filterMap_filterMap fun s hs _ =>
      judgeStruct_mono hknown (h.structs s hs) (hpositive.structs s hs) (hpositive.fields s hs)

end Headers

/-- A header is built under two tables of symbols, and what is included under the first one is
included under the second one as well. -/
structure NothingRemoved (o : Options) (seeds seeds' : Symbols) (d : Header.Definitions) :
    Prop where
  /-- Every define that becomes a constant still becomes one, of the same name. -/
  defines : ∀ (i : Fin d.defines.length) (c : Constant), constantAt seeds d.defines i = some c →
    ∃ c', constantAt seeds' d.defines i = some c' ∧ c'.name = c.name
  enums : ∀ e ∈ d.enums, Includes (knownOf (o.knowing seeds) d) e.guards →
    Includes (knownOf (o.knowing seeds') d) e.guards
  elements : ∀ e ∈ d.enums, ∀ x ∈ e.elements, Includes (knownOf (o.knowing seeds) d) x.guards →
    Includes (knownOf (o.knowing seeds') d) x.guards
  typedefs : ∀ t ∈ d.typedefs, Includes (knownOf (o.knowing seeds) d) t.guards →
    Includes (knownOf (o.knowing seeds') d) t.guards
  structs : ∀ s ∈ d.structs, Includes (knownOf (o.knowing seeds) d) s.guards →
    Includes (knownOf (o.knowing seeds') d) s.guards
  fields : ∀ s ∈ d.structs, ∀ f ∈ s.fields, Includes (knownOf (o.knowing seeds) d) f.guards →
    Includes (knownOf (o.knowing seeds') d) f.guards
  functions : ∀ f ∈ d.functions, Includes (knownOf (o.knowing seeds) d) f.guards →
    Includes (knownOf (o.knowing seeds') d) f.guards
  /-- What was known in the end still is. -/
  known : FewerSymbols (knownOf (o.knowing seeds) d) (knownOf (o.knowing seeds') d)
  /-- Both runs end well, and the second one builds everything that the first one does. -/
  declarations : ∃ built built', (declarations d (.start (o.knowing seeds))).result = .ok built ∧
    (declarations d (.start (o.knowing seeds'))).result = .ok built' ∧ ExtendedBy built built'

/-- **Without guards that ask for unknown symbols, more symbols remove nothing.** -/
theorem nothingRemoved_of_fewerSymbols {d : Header.Definitions} (h : d.WellTyped)
    (hpositive : d.Positive) (o : Options) {seeds seeds' : Symbols}
    (hseeds : FewerSymbols seeds seeds') : NothingRemoved o seeds seeds' d := by
  have hknown := fewerSymbols_knownOf h hpositive o hseeds
  obtain ⟨_, hruns⟩ := declarations_runs h (.start (o.knowing seeds))
  obtain ⟨_, hruns'⟩ := declarations_runs h (.start (o.knowing seeds'))
  exact {
    defines := fun _ _ => constantAt_mono h.defines hseeds hpositive.defines
    enums := fun e he hin => hin.mono hknown (hpositive.enums e he)
    elements := fun e he x hx hin => hin.mono hknown (hpositive.elements e he x hx)
    typedefs := fun t ht hin => hin.mono hknown (hpositive.typedefs t ht)
    structs := fun s hs hin => hin.mono hknown (hpositive.structs s hs)
    fields := fun s hs f hf hin => hin.mono hknown (hpositive.fields s hs f hf)
    functions := fun f hf hin => hin.mono hknown (hpositive.functions f hf)
    known := hknown
    declarations := ⟨_, _, hruns.result, hruns'.result,
      extendedBy_builtDeclarations h hpositive o hseeds⟩ }

/-- A header with guards at all places. One define hangs on a symbol that it does not define, and
further ones hang on that define. -/
def featureHeader : Header.Definitions where
  defines :=
    [{ name := "SSL", content := some "1", guards := [⟨"ifdef", "NETWORK"⟩] },
     { name := "TLS", guards := [⟨"if", "defined(SSL)"⟩] },
     { name := "ALPN", content := some "TLS", guards := [⟨"ifdef", "SSL"⟩, ⟨"ifdef", "TLS"⟩] }]
  enums :=
    [{ name := "Mode", guards := [⟨"ifdef", "TLS"⟩], elements :=
        [{ name := "PLAIN", value := 0 },
         { name := "SECURE", value := 1, guards := [⟨"ifdef", "ALPN"⟩] }] }]
  typedefs :=
    [{ name := "socket_id", type := { declaration := "int", description := .builtin "int" },
       guards := [⟨"ifdef", "NETWORK"⟩] }]
  structs :=
    [{ name := "Peer", fields :=
        [{ name := "id", type := { description := .builtin "int" } },
         { name := "mode", type := { description := .user "Mode" },
           guards := [⟨"if", "defined(TLS)"⟩] }] }]
  functions := [{ name := "negotiate", guards := [⟨"ifdef", "ALPN"⟩] }]

theorem nothingRemoved_of_fewerSymbols_featureHeader :
    featureHeader.WellTyped ∧ featureHeader.Positive ∧
      FewerSymbols defaultKnownDefines (defaultKnownDefines.insert "NETWORK" "") ∧
      NothingRemoved {} defaultKnownDefines (defaultKnownDefines.insert "NETWORK" "")
        featureHeader := by
  have hmore : FewerSymbols defaultKnownDefines (defaultKnownDefines.insert "NETWORK" "") := by
    intro k hk
    rw [OrderedMap.contains_insert, hk, Bool.true_or]
  exact ⟨by decide, by decide, hmore,
    nothingRemoved_of_fewerSymbols (by decide) (by decide) {} hmore⟩

end Build

end NativeBindings
