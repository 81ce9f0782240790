import NativeBindings.Build.Defines
import NativeBindings.Proofs.Conversion
import NativeBindings.Proofs.OrderedMap

/-!
# What a pass over the defines takes

Defines are judged group by group, and how a group learns depends on its number of
guards. `taken` is such a pass reduced to what it accepts, and `constants_runs` says that
nothing else of the pass matters: what is known in the end is what was known at first and
the names of what was taken (`contains_foldl_learn`).

Places in the header rise along every group. So a define is found again by its place, and
whether it is taken is decided in its own group (`takenAt_taken`).
-/

namespace NativeBindings.Build

open CSharp
open Header (Define Guard)

/-! ## Judging one define -/

/-- The last guard of the define holds; without guards there is nothing to hold. -/
def Survives (known : String → Prop) (d : Define) : Prop :=
  ∀ g, d.guards.getLast? = some g → g.Holds known

/-- The texts that a table knows. -/
def Knows (known : Symbols) (x : String) : Prop := known.contains (.text x) = true

theorem included_lastGuard {d : Define} (h : d.WellTyped) (known : Symbols) :
    ∃ b, Header.included known (d.guards.drop (d.guards.length - 1)) = .ok b ∧
      (b = true ↔ Survives (Knows known) d) := by
  rcases List.eq_nil_or_concat d.guards with hg | ⟨front, g, hg⟩
  · refine ⟨true, by rw [hg]; rfl, fun _ g' hg' => ?_, fun _ => rfl⟩
    rw [hg] at hg'
    exact absurd hg' (by simp)
  · have hlast : d.guards.getLast? = some g := by rw [hg]; simp
    have hdrop : d.guards.drop (d.guards.length - 1) = [g] := by rw [hg]; simp
    have hmem : g ∈ d.guards := by rw [hg]; simp
    obtain ⟨e, he⟩ := (h.2.2 g hmem).2.exists
    obtain ⟨b, hb, hiff⟩ := Guard.holds_iff he known
    refine ⟨b, by rw [hdrop]; exact hb, hiff.trans ?_⟩
    constructor
    · intro hholds g' hg'
      rw [hlast] at hg'
      injection hg' with hg'
      exact hg' ▸ hholds
    · intro hs
      exact hs g hlast

theorem replacementOf_eq_ok {d : Define} (h : d.WellTyped) : ∃ s, replacementOf d = .ok s := by
  unfold replacementOf
  cases hc : d.content with
  | none => exact ⟨"", rfl⟩
  | some content =>
      have htext : Leaf.IsTextOrMissing d.content := h.2.1
      rw [hc] at htext
      obtain ⟨s, rfl⟩ := Leaf.IsText.exists htext
      dsimp only
      split
      · exact ⟨"", rfl⟩
      · exact ⟨s, rfl⟩

/-- What a define becomes if its content, without the blanks around it, is this one. -/
inductive ConstantFor (known : Symbols) (content : String) : CsType → String → Prop where
  /-- Nothing is defined but the name. -/
  | flag (h : content = "") : ConstantFor known content { base := "bool" } "true"
  /-- The name of a known symbol is kept. -/
  | symbol (h : Knows known content) : ConstantFor known content { base := "bool" } content
  /-- A number is kept. -/
  | number (h : (isHexLiteral content || isIntegerLiteral content) = true) :
      ConstantFor known content { base := "long" } content
  /-- A text in quotes is kept, unless it is the name of a symbol. -/
  | text (h : isQuotedText content = true) (hnew : ¬Knows known content) :
      ConstantFor known content { base := "string" } content
  /-- Anything else counts as a flag. -/
  | unsupported (h : isQuotedText content = false) :
      ConstantFor known content { base := "bool" } "true"

/-- Whatever the content, the constant has the name of the define, and its type and its value are
those for the content. -/
theorem constantOf_for (known : Symbols) (d : Define) (content : String) :
    (constantOf known d content).Ends fun c =>
      c.name = d.name ∧ ConstantFor known content c.type c.value := by
  unfold constantOf
  dsimp only
  split
  · rename_i hempty
    exact .pure ⟨rfl, .flag (String.isEmpty_iff.mp hempty)⟩
  · split
    · rename_i hknown
      exact .pure ⟨rfl, .symbol hknown⟩
    · rename_i hnew
      split
      · rename_i hnumber
        exact .pure ⟨rfl, .number hnumber⟩
      · split
        · rename_i hquoted
          exact .pure ⟨rfl, .text hquoted hnew⟩
        · rename_i hquoted
          exact .afterReport (.pure ⟨rfl, .unsupported (Bool.eq_false_iff.mpr hquoted)⟩)

theorem ConstantFor.writable {known : Symbols} {content value : String} {type : CsType}
    (h : ConstantFor known content type value) : type.Writable := by
  cases h with
  | flag _ | symbol _ | number _ | text _ _ | unsupported _ => exact .of_text _ 0

/-- An accepted define has the place and the name of the define that it comes from. -/
structure ComesFrom (a : AcceptedDefine) (p : Nat × Define) : Prop where
  /-- It stands where the define stood. -/
  index : a.index = p.1
  /-- It makes the name of the define known. -/
  symbol : ∃ s, p.2.name = .text s ∧ a.symbol = .text s
  /-- Its constant is named after the define. -/
  name : a.constant.name = p.2.name
  /-- Its constant has a type that can be written. -/
  type : a.constant.type.Writable

/-- A well-typed define is judged by its last guard. -/
theorem judgeDefine_result {d : Define} (h : d.WellTyped) (known : Symbols) (i : Nat) :
    (∃ a, (judgeDefine known (i, d)).result = .ok (.accepted a) ∧ ComesFrom a (i, d) ∧
        Survives (Knows known) d) ∨
      ((judgeDefine known (i, d)).result = .ok .excluded ∧ ¬Survives (Knows known) d) := by
  obtain ⟨b, hb, hiff⟩ := included_lastGuard h known
  unfold judgeDefine
  dsimp only
  rw [result_judgeGuarded, hb, ok_bind]
  cases b with
  | false =>
      refine .inr ⟨rfl, fun hs => ?_⟩
      exact absurd (hiff.mpr hs) (by simp)
  | true =>
      -- an included define cannot fail any more: its content and its name are texts
      obtain ⟨replacement, hr⟩ := replacementOf_eq_ok h
      obtain ⟨c, hc, hname, hfor⟩ := constantOf_for known d (Text.strip replacement)
      obtain ⟨s, hs⟩ := h.1.exists
      have hkey : d.name.key = .ok (.text s) := by rw [hs]; rfl
      refine .inl ⟨⟨i, .text s, replacement, c⟩, ?_, ⟨rfl, ⟨s, hs, rfl⟩, hname, hfor.writable⟩,
        hiff.mp rfl⟩
      rw [if_pos rfl, Traced.result_bind, Traced.result_ofExcept, hr, ok_bind,
        Traced.result_bind, hc, ok_bind, Traced.result_bind, Traced.result_ofExcept, hkey,
        ok_bind, Traced.result_pure]

theorem result_judgeDefine (known : Symbols) (i : Nat) (d : Define) :
    (judgeDefine known (i, d)).result =
      Header.included known (d.guards.drop (d.guards.length - 1)) >>= fun b =>
        if b then
          replacementOf d >>= fun replacement =>
            (constantOf known d (Text.strip replacement)).result >>= fun constant =>
              d.name.key >>= fun symbol =>
                .ok (.accepted { index := i, symbol, replacement, constant })
        else .ok .excluded := by
  unfold judgeDefine
  rw [result_judgeGuarded]
  simp only [Traced.result_bind, Traced.result_ofExcept, Traced.result_pure]

/-- What is accepted has its place and a constant of its replacement text. -/
theorem accepted_of_judgeDefine {known : Symbols} {i : Nat} {d : Define} {a : AcceptedDefine}
    (h : (judgeDefine known (i, d)).result = .ok (.accepted a)) :
    a.index = i ∧ ∃ replacement, replacementOf d = .ok replacement ∧
      (constantOf known d (Text.strip replacement)).result = .ok a.constant := by
  rw [result_judgeDefine] at h
  obtain ⟨included, _, h⟩ := bind_eq_ok.mp h
  cases included with
  | false => exact absurd (Except.ok.inj h) (by simp)
  | true =>
      rw [if_pos rfl] at h
      obtain ⟨replacement, hreplacement, h⟩ := bind_eq_ok.mp h
      obtain ⟨constant, hconstant, h⟩ := bind_eq_ok.mp h
      obtain ⟨symbol, _, h⟩ := bind_eq_ok.mp h
      injection h with h
      injection h with h
      subst h
      exact ⟨rfl, replacement, hreplacement, hconstant⟩

/-- Of its place in the header the judgement only makes a note. -/
theorem accepted?_judgeDefine_index (known : Symbols) (i j : Nat) (d : Define) :
    accepted? (judgeDefine known (j, d)) =
      (accepted? (judgeDefine known (i, d))).map fun a => { a with index := j } := by
  -- no step of the judgement looks at the place, so the cases are those of its steps
  simp only [accepted?, Traced.value?, result_judgeDefine]
  cases Header.included known (d.guards.drop (d.guards.length - 1)) with
  | error e => rfl
  | ok b =>
      cases b with
      | false => rfl
      | true =>
          simp only [ok_bind, if_true]
          cases replacementOf d with
          | error e => rfl
          | ok replacement =>
              simp only [ok_bind]
              cases (constantOf known d (Text.strip replacement)).result with
              | error e => rfl
              | ok constant =>
                  simp only [ok_bind]
                  cases d.name.key with
                  | error e => rfl
                  | ok symbol => rfl

/-! ## Passes reduced to what they take -/

/-- A define with its place in the header. -/
abbrev Placed := Nat × Define

/-- Every define in the list is well typed. -/
def AllWellTyped (items : List Placed) : Prop := ∀ p ∈ items, p.2.WellTyped

theorem AllWellTyped.sublist {xs ys : List Placed} (h : AllWellTyped ys) (hsub : xs.Sublist ys) :
    AllWellTyped xs := fun p hp => h p (hsub.subset hp)

/-- What is taken when each define is known to the next ones. -/
def takenInTurn (known : Symbols) : List Placed → List AcceptedDefine
  | [] => []
  | p :: rest =>
    match accepted? (judgeDefine known p) with
    | some a => a :: takenInTurn (learn known a) rest
    | none => takenInTurn known rest

/-- What is taken of defines with the same number of guards. -/
def takenWithGuards (known : Symbols) (guards : Nat) (items : List Placed) :
    List AcceptedDefine :=
  if guards ≤ 1 then takenInTurn known items
  else items.filterMap fun p => accepted? (judgeDefine known p)

/-- The defines with a number of guards. -/
def withGuards (items : List Placed) (guards : Nat) : List Placed :=
  items.filter fun p => p.2.guards.length = guards

theorem mem_withGuards {items : List Placed} {guards : Nat} {p : Placed} :
    p ∈ withGuards items guards ↔ p ∈ items ∧ p.2.guards.length = guards := by
  rw [withGuards, List.mem_filter, decide_eq_true_iff]

/-- What is taken of groups that are judged one after the other. -/
def taken (known : Symbols) (items : List Placed) : List Nat → List AcceptedDefine
  | [] => []
  | guards :: more =>
    let first := takenWithGuards known guards (withGuards items guards)
    first ++ taken (first.foldl learn known) items more

theorem definesInTurn_eq_taken {items : List Placed} (h : AllWellTyped items) (known : Symbols) :
    (definesInTurn known items).pass.fault = none ∧
      (definesInTurn known items).pass.built = takenInTurn known items ∧
      (definesInTurn known items).known = (takenInTurn known items).foldl learn known := by
  induction items generalizing known with
  | nil => exact ⟨rfl, rfl, rfl⟩
  | cons p rest ih =>
      have hrest : AllWellTyped rest := h.sublist (List.sublist_cons_self p rest)
      rw [definesInTurn, takenInTurn]
      rcases judgeDefine_result (h p List.mem_cons_self) known p.1 with
        ⟨a, hjudged, _⟩ | ⟨hjudged, _⟩
      · obtain ⟨hf, hb, hk⟩ := ih hrest (learn known a)
        rw [hjudged, accepted?_of_result hjudged]
        exact ⟨hf, congrArg (a :: ·) hb, hk⟩
      · obtain ⟨hf, hb, hk⟩ := ih hrest known
        rw [hjudged, accepted?_of_result hjudged]
        exact ⟨hf, hb, hk⟩

theorem definesWithGuards_eq_taken {items : List Placed} (h : AllWellTyped items)
    (known : Symbols) (guards : Nat) :
    (definesWithGuards known guards items).pass.fault = none ∧
      (definesWithGuards known guards items).pass.built = takenWithGuards known guards items ∧
      (definesWithGuards known guards items).known =
        (takenWithGuards known guards items).foldl learn known := by
  rw [definesWithGuards, takenWithGuards]
  split
  · exact definesInTurn_eq_taken h known
  · have hjudged : ∀ p ∈ items, ∃ v, (judgeDefine known p).result = .ok v := by
      intro p hp
      rcases judgeDefine_result (h p hp) known p.1 with ⟨a, ha, _⟩ | ⟨he, _⟩
      · exact ⟨_, ha⟩
      · exact ⟨_, he⟩
    have hf := Pass.fault_judgeAll hjudged
    have hb := Pass.built_judgeAll hjudged
    refine ⟨hf, hb, ?_⟩
    -- a group that is judged at once learns after all its judgements
    rw [definesAtOnce]
    dsimp only
    rw [hf, hb]
    rfl

theorem definesInGroups_eq_taken {items : List Placed} (h : AllWellTyped items) (gs : List Nat)
    (known : Symbols) :
    (definesInGroups known items gs).pass.fault = none ∧
      (definesInGroups known items gs).pass.built = taken known items gs ∧
      (definesInGroups known items gs).known = (taken known items gs).foldl learn known := by
  induction gs generalizing known with
  | nil => exact ⟨rfl, rfl, rfl⟩
  | cons guards more ih =>
      have hgroup : AllWellTyped (withGuards items guards) := h.sublist List.filter_sublist
      -- the group leaves no fault, so the later ones have their turn under what it made known
      obtain ⟨hf, hb, hk⟩ := definesWithGuards_eq_taken hgroup known guards
      obtain ⟨hf', hb', hk'⟩ := ih (definesWithGuards known guards (withGuards items guards)).known
      have hstep : definesInGroups known items (guards :: more) =
          let first := definesWithGuards known guards (withGuards items guards)
          let later := definesInGroups first.known items more
          ⟨later.known, first.pass.append later.pass⟩ := by
        rw [definesInGroups, ← withGuards]
        dsimp only
        rw [hf]
      rw [hstep]
      refine ⟨?_, ?_, ?_⟩
      · exact (Pass.fault_append hf).trans hf'
      · rw [taken, ← hk]
        dsimp only
        rw [← hb, ← hb']
        exact Pass.built_append hf
      · rw [taken, ← hk]
        dsimp only
        rw [List.foldl_append, ← hk, hk']

/-- A table knows what it knew before it learned, and the names it learned. -/
theorem contains_foldl_learn (as : List AcceptedDefine) (known : Symbols) (k : Key) :
    (as.foldl learn known).contains k = true ↔
      known.contains k = true ∨ ∃ a ∈ as, (a.symbol == k) = true := by
  induction as generalizing known with
  | nil => simp
  | cons a rest ih =>
      rw [List.foldl_cons, ih, learn, OrderedMap.contains_insert, Bool.or_eq_true]
      simp only [List.mem_cons, exists_eq_or_imp, or_assoc]

/-! ## Places -/

/-- The defines stand in the order of the header. -/
def Rising (items : List Placed) : Prop := items.Pairwise fun p q => p.1 < q.1

theorem Rising.sublist {xs ys : List Placed} (h : Rising ys) (hsub : xs.Sublist ys) : Rising xs :=
  List.Pairwise.sublist hsub h

/-- The define at a place is taken. -/
def TakenAt (as : List AcceptedDefine) (i : Nat) : Prop := ∃ a ∈ as, a.index = i

theorem takenAt_append {as bs : List AcceptedDefine} {i : Nat} :
    TakenAt (as ++ bs) i ↔ TakenAt as i ∨ TakenAt bs i := by
  simp only [TakenAt, List.mem_append, or_and_right, exists_or]

/-- At a place stands one define. -/
theorem Rising.eq_of_place {items : List Placed} (h : Rising items) {p q : Placed} (hp : p ∈ items)
    (hq : q ∈ items) (hpq : p.1 = q.1) : p = q := by
  induction items with
  | nil => exact absurd hp (by simp)
  | cons r rest ih =>
      obtain ⟨hr, hrest⟩ := List.pairwise_cons.mp h
      rcases List.mem_cons.mp hp with hpr | hp
      · rcases List.mem_cons.mp hq with hqr | hq
        · exact hpr.trans hqr.symm
        · have := hr q hq
          rw [hpr] at hpq
          omega
      · rcases List.mem_cons.mp hq with hqr | hq
        · have := hr p hp
          rw [hqr] at hpq
          omega
        · exact ih hrest hp hq

/-- What is taken at the place of a define comes from that define. -/
theorem Rising.eq_of_index {items : List Placed} (h : Rising items) {p q : Placed} (hp : p ∈ items)
    (hq : q ∈ items) {a : AcceptedDefine} (hfrom : ComesFrom a q) (hi : a.index = p.1) : p = q :=
  h.eq_of_place hp hq (hi.symm.trans hfrom.index)

theorem accepted?_judgeDefine {p : Placed} (h : p.2.WellTyped) (known : Symbols) :
    (∃ a, accepted? (judgeDefine known p) = some a ∧ ComesFrom a p ∧ Survives (Knows known) p.2) ∨
      (accepted? (judgeDefine known p) = none ∧ ¬Survives (Knows known) p.2) := by
  rcases judgeDefine_result h known p.1 with ⟨a, ha, hfrom, hs⟩ | ⟨he, hs⟩
  · exact .inl ⟨a, accepted?_of_result ha, hfrom, hs⟩
  · exact .inr ⟨accepted?_of_result he, hs⟩

theorem comesFrom_of_accepted? {p : Placed} (h : p.2.WellTyped) {known : Symbols}
    {a : AcceptedDefine} (ha : accepted? (judgeDefine known p) = some a) : ComesFrom a p := by
  rcases accepted?_judgeDefine h known with ⟨b, hb, hfrom, _⟩ | ⟨hb, _⟩
  · rw [ha] at hb
    exact Option.some.inj hb ▸ hfrom
  · rw [ha] at hb
    exact absurd hb (by simp)

/-- What is taken was judged when all that comes before was known. -/
theorem exists_of_mem_takenInTurn {items : List Placed} {known : Symbols} {a : AcceptedDefine}
    (ha : a ∈ takenInTurn known items) : ∃ xs p ys, items = xs ++ p :: ys ∧
      accepted? (judgeDefine ((takenInTurn known xs).foldl learn known) p) = some a := by
  induction items generalizing known with
  | nil => exact absurd ha (by simp [takenInTurn])
  | cons p rest ih =>
      rw [takenInTurn] at ha
      cases hp : accepted? (judgeDefine known p) with
      | none =>
          rw [hp] at ha
          obtain ⟨xs, q, ys, rfl, hq⟩ := ih ha
          refine ⟨p :: xs, q, ys, rfl, ?_⟩
          rw [takenInTurn, hp]
          exact hq
      | some b =>
          rw [hp] at ha
          rcases List.mem_cons.mp ha with rfl | ha
          · exact ⟨[], p, rest, rfl, hp⟩
          · obtain ⟨xs, q, ys, rfl, hq⟩ := ih ha
            refine ⟨p :: xs, q, ys, rfl, ?_⟩
            rw [takenInTurn, hp]
            exact hq

/-- What is taken was taken by a group, with what the groups before had made known. -/
theorem exists_of_mem_taken {items : List Placed} {gs : List Nat} {known : Symbols}
    {a : AcceptedDefine} (ha : a ∈ taken known items gs) : ∃ before guards after,
      gs = before ++ guards :: after ∧
        a ∈ takenWithGuards ((taken known items before).foldl learn known) guards
          (withGuards items guards) := by
  induction gs generalizing known with
  | nil => exact absurd ha (by simp [taken])
  | cons guards more ih =>
      rw [taken] at ha
      rcases List.mem_append.mp ha with ha | ha
      · exact ⟨[], guards, more, rfl, ha⟩
      · obtain ⟨before, guards', after, rfl, hgroup⟩ := ih ha
        refine ⟨guards :: before, guards', after, rfl, ?_⟩
        rw [taken, List.foldl_append]
        exact hgroup

/-- What a group takes was judged. -/
theorem judged_takenWithGuards {items : List Placed} {guards : Nat} {known : Symbols}
    {a : AcceptedDefine} (ha : a ∈ takenWithGuards known guards items) :
    ∃ p ∈ items, ∃ known', accepted? (judgeDefine known' p) = some a := by
  rw [takenWithGuards] at ha
  split at ha
  · obtain ⟨xs, p, ys, rfl, hjudged⟩ := exists_of_mem_takenInTurn ha
    exact ⟨p, List.mem_append_right xs List.mem_cons_self, _, hjudged⟩
  · obtain ⟨p, hp, hjudged⟩ := List.mem_filterMap.mp ha
    exact ⟨p, hp, known, hjudged⟩

theorem mem_takenInTurn {items : List Placed} (h : AllWellTyped items) {known : Symbols}
    {a : AcceptedDefine} (ha : a ∈ takenInTurn known items) : ∃ p ∈ items, ComesFrom a p := by
  obtain ⟨xs, p, ys, rfl, hjudged⟩ := exists_of_mem_takenInTurn ha
  have hp : p ∈ xs ++ p :: ys := List.mem_append_right xs List.mem_cons_self
  exact ⟨p, hp, comesFrom_of_accepted? (h p hp) hjudged⟩

theorem mem_takenWithGuards {items : List Placed} (h : AllWellTyped items) {known : Symbols}
    {guards : Nat} {a : AcceptedDefine} (ha : a ∈ takenWithGuards known guards items) :
    ∃ p ∈ items, ComesFrom a p := by
  obtain ⟨p, hp, _, hjudged⟩ := judged_takenWithGuards ha
  exact ⟨p, hp, comesFrom_of_accepted? (h p hp) hjudged⟩

theorem mem_taken {items : List Placed} (h : AllWellTyped items) {gs : List Nat} {known : Symbols}
    {a : AcceptedDefine} (ha : a ∈ taken known items gs) :
    ∃ p ∈ items, ComesFrom a p ∧ p.2.guards.length ∈ gs := by
  obtain ⟨before, guards, after, rfl, hgroup⟩ := exists_of_mem_taken ha
  obtain ⟨p, hp, hfrom⟩ := mem_takenWithGuards (h.sublist List.filter_sublist) hgroup
  obtain ⟨hp, hlen⟩ := mem_withGuards.mp hp
  exact ⟨p, hp, hfrom, hlen ▸ List.mem_append_right before List.mem_cons_self⟩

theorem takenInTurn_append (known : Symbols) (xs ys : List Placed) :
    takenInTurn known (xs ++ ys) = takenInTurn known xs ++
      takenInTurn ((takenInTurn known xs).foldl learn known) ys := by
  induction xs generalizing known with
  | nil => rfl
  | cons p rest ih =>
      rw [List.cons_append, takenInTurn, takenInTurn]
      cases accepted? (judgeDefine known p) with
      | none => exact ih known
      | some a => exact congrArg (a :: ·) (ih (learn known a))

theorem taken_append (known : Symbols) (items : List Placed) (gs more : List Nat) :
    taken known items (gs ++ more) = taken known items gs ++
      taken ((taken known items gs).foldl learn known) items more := by
  induction gs generalizing known with
  | nil => rfl
  | cons guards rest ih =>
      rw [List.cons_append, taken, taken, ih, List.foldl_append, List.append_assoc]

/-- In turn, a define is judged under what was known and what was taken before it. -/
theorem takenAt_takenInTurn {xs ys : List Placed} {p : Placed} (h : AllWellTyped (xs ++ p :: ys))
    (hr : Rising (xs ++ p :: ys)) (known : Symbols) :
    TakenAt (takenInTurn known (xs ++ p :: ys)) p.1 ↔
      Survives (Knows ((takenInTurn known xs).foldl learn known)) p.2 := by
  have hxs : AllWellTyped xs := h.sublist (List.sublist_append_left xs _)
  have hpys : AllWellTyped (p :: ys) := h.sublist (List.sublist_append_right xs _)
  have hys : AllWellTyped ys := hpys.sublist (List.sublist_cons_self p ys)
  obtain ⟨_, hp, hbefore⟩ := List.pairwise_append.mp hr
  obtain ⟨hafter, _⟩ := List.pairwise_cons.mp hp
  -- neither what comes before nor what comes after stands at this place
  have hfirst : ∀ k, ¬TakenAt (takenInTurn k xs) p.1 := by
    intro k hat
    obtain ⟨a, ha, hi⟩ := hat
    obtain ⟨q, hq, hfrom⟩ := mem_takenInTurn hxs ha
    have := hbefore q hq p List.mem_cons_self
    have := hfrom.index
    omega
  have hlast : ∀ k, ¬TakenAt (takenInTurn k ys) p.1 := by
    intro k hat
    obtain ⟨a, ha, hi⟩ := hat
    obtain ⟨q, hq, hfrom⟩ := mem_takenInTurn hys ha
    have := hafter q hq
    have := hfrom.index
    omega
  rw [takenInTurn_append, takenAt_append, takenInTurn]
  have hpw := hpys p List.mem_cons_self
  rcases accepted?_judgeDefine hpw ((takenInTurn known xs).foldl learn known) with
    ⟨a, ha, hfrom, hs⟩ | ⟨ha, hs⟩
  · rw [ha]
    exact ⟨fun _ => hs, fun _ => .inr ⟨a, List.mem_cons_self, hfrom.index⟩⟩
  · rw [ha]
    refine ⟨fun hat => ?_, fun h => absurd h hs⟩
    rcases hat with hat | hat
    · exact absurd hat (hfirst known)
    · exact absurd hat (hlast _)

/-- At once, a define is judged under what was known. -/
theorem takenAt_atOnce {items : List Placed} (h : AllWellTyped items) (hr : Rising items)
    {p : Placed} (hp : p ∈ items) (known : Symbols) :
    TakenAt (items.filterMap fun q => accepted? (judgeDefine known q)) p.1 ↔
      Survives (Knows known) p.2 := by
  constructor
  · intro hat
    obtain ⟨a, ha, hi⟩ := hat
    obtain ⟨q, hq, hjudged⟩ := List.mem_filterMap.mp ha
    rcases accepted?_judgeDefine (h q hq) known with ⟨b, hb, hfrom, hs⟩ | ⟨hb, _⟩
    · rw [hb] at hjudged
      injection hjudged with hjudged
      subst hjudged
      have : p = q := hr.eq_of_index hp hq hfrom hi
      exact this ▸ hs
    · rw [hb] at hjudged
      exact absurd hjudged (by simp)
  · intro hs
    rcases accepted?_judgeDefine (h p hp) known with ⟨b, hb, hfrom, _⟩ | ⟨_, hn⟩
    · exact ⟨b, List.mem_filterMap.mpr ⟨p, hp, hb⟩, hfrom.index⟩
    · exact absurd hs hn

/-- A define is only taken if its group had its turn. -/
theorem guards_mem_of_takenAt {items : List Placed} (h : AllWellTyped items) (hr : Rising items)
    {p : Placed} (hp : p ∈ items) {gs : List Nat} {known : Symbols}
    (hat : TakenAt (taken known items gs) p.1) : p.2.guards.length ∈ gs := by
  obtain ⟨a, ha, hi⟩ := hat
  obtain ⟨q, hq, hfrom, hlen⟩ := mem_taken h ha
  rw [hr.eq_of_index hp hq hfrom hi]
  exact hlen

/-- A define is taken exactly if its own group takes it. -/
theorem takenAt_taken {items : List Placed} (h : AllWellTyped items) (hr : Rising items)
    {p : Placed} (hp : p ∈ items) {before after : List Nat}
    (hgs : (before ++ p.2.guards.length :: after).Nodup) (known : Symbols) :
    TakenAt (taken known items (before ++ p.2.guards.length :: after)) p.1 ↔
      TakenAt (takenWithGuards ((taken known items before).foldl learn known) p.2.guards.length
        (withGuards items p.2.guards.length)) p.1 := by
  -- a number of guards has one group, so neither an earlier nor a later one takes the define
  obtain ⟨_, hafter, hbefore⟩ := List.nodup_append.mp hgs
  obtain ⟨hnot, _⟩ := List.nodup_cons.mp hafter
  rw [taken_append, takenAt_append, taken, takenAt_append]
  constructor
  · intro hat
    rcases hat with hat | hat | hat
    · have hmem := guards_mem_of_takenAt h hr hp hat
      exact absurd rfl (hbefore _ hmem _ List.mem_cons_self)
    · exact hat
    · exact absurd (guards_mem_of_takenAt h hr hp hat) hnot
  · intro hat
    exact .inr (.inl hat)

/-! ## What is known when a define is judged -/

/-- Everything taken comes from one of the defines. -/
def AllComeFrom (as : List AcceptedDefine) (items : List Placed) : Prop :=
  ∀ a ∈ as, ∃ p ∈ items, ComesFrom a p

/-- What is known after defines were taken, in terms of the defines themselves. -/
theorem knows_foldl_learn {as : List AcceptedDefine} {items : List Placed}
    (hfrom : AllComeFrom as items) (hr : Rising items) (known : Symbols) (x : String) :
    Knows (as.foldl learn known) x ↔
      Knows known x ∨ ∃ p ∈ items, p.2.name = .text x ∧ TakenAt as p.1 := by
  rw [Knows, contains_foldl_learn]
  refine or_congr_right ⟨?_, ?_⟩
  · intro hlearned
    obtain ⟨a, ha, hsymbol⟩ := hlearned
    obtain ⟨p, hp, hcomes⟩ := hfrom a ha
    obtain ⟨s, hname, hs⟩ := hcomes.symbol
    rw [Key.beq_text] at hsymbol
    refine ⟨p, hp, ?_, a, ha, hcomes.index⟩
    rw [hname]
    exact congrArg Leaf.text (Key.text.inj (hs.symm.trans hsymbol))
  · intro hnamed
    obtain ⟨p, hp, hname, a, ha, hi⟩ := hnamed
    obtain ⟨q, hq, hcomes⟩ := hfrom a ha
    have : p = q := hr.eq_of_index hp hq hcomes hi
    obtain ⟨s, hname', hs⟩ := hcomes.symbol
    refine ⟨a, ha, Key.beq_text.mpr ?_⟩
    rw [hs]
    exact congrArg Key.text (Leaf.text.inj (hname'.symm.trans (this ▸ hname)))

/-- Groups that are judged before a define has its turn take what they take in the end. -/
theorem takenAt_before {items : List Placed} (h : AllWellTyped items) (hr : Rising items)
    {q : Placed} (hq : q ∈ items) {before after : List Nat}
    (hdisjoint : ∀ k ∈ before, k ∉ after) (known : Symbols) :
    TakenAt (taken known items before) q.1 ↔
      q.2.guards.length ∈ before ∧ TakenAt (taken known items (before ++ after)) q.1 := by
  rw [taken_append, takenAt_append]
  constructor
  · intro hat
    exact ⟨guards_mem_of_takenAt h hr hq hat, .inl hat⟩
  · intro hin
    rcases hin with ⟨hlen, hat | hat⟩
    · exact hat
    · exact absurd (guards_mem_of_takenAt h hr hq hat) (hdisjoint _ hlen)

/-- In turn, what is taken before a define is what is taken in the end at the places before it. -/
theorem takenAt_front {xs ys : List Placed} {p q : Placed} (h : AllWellTyped (xs ++ p :: ys))
    (hr : Rising (xs ++ p :: ys)) (known : Symbols) :
    TakenAt (takenInTurn known xs) q.1 ↔
      q.1 < p.1 ∧ TakenAt (takenInTurn known (xs ++ p :: ys)) q.1 := by
  have hxs : AllWellTyped xs := h.sublist (List.sublist_append_left xs _)
  have hys : AllWellTyped (p :: ys) := h.sublist (List.sublist_append_right xs _)
  obtain ⟨_, hp, hbefore⟩ := List.pairwise_append.mp hr
  obtain ⟨hafter, _⟩ := List.pairwise_cons.mp hp
  rw [takenInTurn_append, takenAt_append]
  constructor
  · intro hat
    obtain ⟨a, ha, hi⟩ := hat
    obtain ⟨r, hrmem, hfrom⟩ := mem_takenInTurn hxs ha
    have := hbefore r hrmem p List.mem_cons_self
    have := hfrom.index
    exact ⟨by omega, .inl ⟨a, ha, hi⟩⟩
  · intro hin
    rcases hin with ⟨hlt, hat | ⟨a, ha, hi⟩⟩
    · exact hat
    -- the rest of the list has only higher places
    · obtain ⟨r, hrmem, hfrom⟩ := mem_takenInTurn hys ha
      have := hfrom.index
      rcases List.mem_cons.mp hrmem with rfl | hrmem
      · omega
      · have := hafter r hrmem
        omega

/-! ## The defines of a header -/

/-- The defines with their places. -/
def placed (ds : List Define) : List Placed := ds.zipIdx.map fun p => (p.2, p.1)

theorem mem_placed {ds : List Define} {p : Placed} : p ∈ placed ds ↔ ds[p.1]? = some p.2 := by
  rw [placed, List.mem_map]
  constructor
  · intro hzip
    obtain ⟨q, hq, rfl⟩ := hzip
    exact List.mem_zipIdx_iff_getElem?.mp hq
  · intro h
    exact ⟨(p.2, p.1), List.mem_zipIdx_iff_getElem?.mpr h, rfl⟩

theorem rising_placed (ds : List Define) : Rising (placed ds) := by
  rw [Rising, placed, List.pairwise_map, ← List.pairwise_map (f := Prod.snd) (R := (· < ·)),
    List.zipIdx_map_snd]
  exact List.pairwise_lt_range'

theorem map_snd_placed (ds : List Define) : (placed ds).map (·.2) = ds := by
  rw [placed, List.map_map]
  exact List.zipIdx_map_fst 0 ds

theorem range_eq_places (ds : List Define) : List.range ds.length = (placed ds).map (·.1) := by
  rw [placed, List.map_map, List.range_eq_range', ← List.zipIdx_map_snd]
  rfl

/-- The numbers of guards that occur, and all smaller ones. -/
def guardNumbers (ds : List Define) : List Nat :=
  List.range ((ds.map fun d => d.guards.length).foldl max 0 + 1)

/-- The defines that are taken, in the order in which they are judged. -/
def takenOf (known : Symbols) (ds : List Define) : List AcceptedDefine :=
  taken known (placed ds) (guardNumbers ds)

/-- A number of guards that occurs has all smaller ones before it. -/
theorem guardNumbers_split {ds : List Define} {p : Placed} (hp : p ∈ placed ds) :
    ∃ after, guardNumbers ds = List.range p.2.guards.length ++ p.2.guards.length :: after ∧
      ∀ k ∈ after, p.2.guards.length < k := by
  have hmem : p.2 ∈ ds := List.mem_of_getElem? (mem_placed.mp hp)
  have hle : p.2.guards.length ≤ (ds.map fun d => d.guards.length).foldl max 0 := by
    -- the groups reach up to the largest number of guards
    have hmax := List.le_max?_getD_of_mem (k := 0)
      (List.mem_map_of_mem (f := fun d => d.guards.length) hmem)
    rw [List.foldl_max]
    omega
  obtain ⟨m, hm⟩ := Nat.exists_eq_add_of_le hle
  refine ⟨List.range' (p.2.guards.length + 1) m, ?_, fun k hk => ?_⟩
  · have happend := List.range'_append_1 (s := 0) (m := p.2.guards.length) (n := m + 1)
    rw [guardNumbers, hm, List.range_eq_range', List.range_eq_range', Nat.add_assoc, ← happend,
      Nat.zero_add, List.range'_succ]
  · have := (List.mem_range'_1.mp hk).1
    omega

theorem allWellTyped_placed {ds : List Define} (h : ∀ d ∈ ds, d.WellTyped) :
    AllWellTyped (placed ds) := fun _ hp => h _ (List.mem_of_getElem? (mem_placed.mp hp))

theorem allComeFrom_taken {items : List Placed} (h : AllWellTyped items) (known : Symbols)
    (gs : List Nat) : AllComeFrom (taken known items gs) items := by
  intro a ha
  obtain ⟨p, hp, hfrom, _⟩ := mem_taken h ha
  exact ⟨p, hp, hfrom⟩

theorem allComeFrom_takenOf {ds : List Define} (h : ∀ d ∈ ds, d.WellTyped) (known : Symbols) :
    AllComeFrom (takenOf known ds) (placed ds) :=
  allComeFrom_taken (allWellTyped_placed h) known (guardNumbers ds)

/-- The defines of a header add the constants of what is taken, and its names become known. -/
theorem constants_runs {ds : List Define} (h : ∀ d ∈ ds, d.WellTyped) (b : Builder) :
    ∃ stats, Building.Runs (constants ds) b
      (seededConstants b.known ++ inHeaderOrder ds.length (takenOf b.known ds))
      { b with known := (takenOf b.known ds).foldl learn b.known, stats := stats } := by
  obtain ⟨hfault, hbuilt, hknown⟩ :=
    definesInGroups_eq_taken (allWellTyped_placed h) (guardNumbers ds) b.known
  have hpass : passDefines b.known ds = definesInGroups b.known (placed ds) (guardNumbers ds) := rfl
  rw [← hpass] at hfault hbuilt hknown
  refine ⟨b.stats.add .defines ds.length (passDefines b.known ds).pass.verdicts,
    .bind (.state b) (.bind (.state b) (.bind (.change _ b)
      (.bind (.ofPass hfault .defines ds.length _) ?_)))⟩
  dsimp only
  rw [hbuilt, hknown]
  exact .pure _ _

end NativeBindings.Build
