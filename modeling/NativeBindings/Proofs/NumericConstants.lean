import NativeBindings.Proofs.KnownSymbols
import NativeBindings.Proofs.Literals

/-!
# Numeric constants

A define whose content is a number becomes a constant of type `long`, and its text is the
content as it stands. No other constant has this type: not those of the symbols known from the
start, and not those of other defines. So what a numeric constant says is said by the
recognisers of literals.

Whatever the defines, what a pass built was judged, under the symbols that were known at its
turn (`judged_passDefines`).
-/

namespace NativeBindings.Build

open CSharp
open Header (Define)

/-! ## What was judged -/

theorem mem_built_andThen {α : Type} {notices : List Notice} {v : Verdict α} {rest : Pass α}
    {a : α} : a ∈ (Pass.andThen notices v rest).built ↔ v = .accepted a ∨ a ∈ rest.built := by
  rw [Pass.built, Pass.andThen, List.filterMap_cons]
  cases v with
  | accepted b => simp [Verdict.built?, Pass.built, eq_comm]
  | excluded => simp [Verdict.built?, Pass.built]
  | dropped => simp [Verdict.built?, Pass.built]

theorem judged_judgeAll {ι α : Type} {judge : ι → Traced Notice Misfit (Verdict α)}
    {items : List ι} {a : α} (ha : a ∈ (Pass.judgeAll judge items).built) :
    ∃ i ∈ items, (judge i).result = .ok (.accepted a) := by
  induction items with
  | nil => exact absurd ha (by simp [Pass.judgeAll, Pass.built])
  | cons i rest ih =>
      rw [Pass.judgeAll] at ha
      cases hresult : (judge i).result with
      | error e =>
          rw [hresult] at ha
          exact absurd ha (by simp [Pass.built])
      | ok v =>
          rw [hresult] at ha
          rcases mem_built_andThen.mp ha with rfl | ha
          · exact ⟨i, List.mem_cons_self, hresult⟩
          · obtain ⟨j, hj, hjudged⟩ := ih ha
            exact ⟨j, List.mem_cons_of_mem i hj, hjudged⟩

theorem judged_definesInTurn {items : List Placed} {known : Symbols} {a : AcceptedDefine}
    (ha : a ∈ (definesInTurn known items).pass.built) :
    ∃ p ∈ items, ∃ known', (judgeDefine known' p).result = .ok (.accepted a) := by
  induction items generalizing known with
  | nil => exact absurd ha (by simp [definesInTurn, Pass.built])
  | cons p rest ih =>
      rw [definesInTurn] at ha
      cases hresult : (judgeDefine known p).result with
      | error e =>
          rw [hresult] at ha
          exact absurd ha (by simp [Pass.built])
      | ok v =>
          rw [hresult] at ha
          rcases mem_built_andThen.mp ha with rfl | ha
          · exact ⟨p, List.mem_cons_self, known, hresult⟩
          · obtain ⟨q, hq, hjudged⟩ := ih ha
            exact ⟨q, List.mem_cons_of_mem p hq, hjudged⟩

theorem judged_definesWithGuards {items : List Placed} {known : Symbols} {guards : Nat}
    {a : AcceptedDefine} (ha : a ∈ (definesWithGuards known guards items).pass.built) :
    ∃ p ∈ items, ∃ known', (judgeDefine known' p).result = .ok (.accepted a) := by
  rw [definesWithGuards] at ha
  split at ha
  · exact judged_definesInTurn ha
  · obtain ⟨p, hp, hjudged⟩ := judged_judgeAll ha
    exact ⟨p, hp, known, hjudged⟩

theorem judged_definesInGroups {items : List Placed} {gs : List Nat} {known : Symbols}
    {a : AcceptedDefine} (ha : a ∈ (definesInGroups known items gs).pass.built) :
    ∃ p ∈ items, ∃ known', (judgeDefine known' p).result = .ok (.accepted a) := by
  have ofGroup : ∀ {k : Symbols} {guards : Nat},
      a ∈ (definesWithGuards k guards (withGuards items guards)).pass.built →
      ∃ p ∈ items, ∃ known', (judgeDefine known' p).result = .ok (.accepted a) := by
    intro k guards hgroup
    obtain ⟨p, hp, hjudged⟩ := judged_definesWithGuards hgroup
    exact ⟨p, (mem_withGuards.mp hp).1, hjudged⟩
  induction gs generalizing known with
  | nil => exact absurd ha (by simp [definesInGroups, Pass.built])
  | cons guards more ih =>
      rw [definesInGroups] at ha
      dsimp only at ha
      split at ha
      · exact ofGroup ha
      · rename_i hfault
        rw [Pass.built_append hfault] at ha
        rcases List.mem_append.mp ha with ha | ha
        · exact ofGroup ha
        · exact ih ha

/-- What a pass built from the defines of a header was judged, each define at its place. -/
theorem judged_passDefines {ds : List Define} {known : Symbols} {a : AcceptedDefine}
    (ha : a ∈ (passDefines known ds).pass.built) :
    ∃ i d, ds[i]? = some d ∧ ∃ known', (judgeDefine known' (i, d)).result = .ok (.accepted a) := by
  obtain ⟨⟨i, d⟩, hp, hjudged⟩ := judged_definesInGroups ha
  exact ⟨i, d, mem_placed.mp hp, hjudged⟩

/-- Constants that are built without a fault are those of the known symbols and those that the
pass built. -/
theorem constants_of_ok {ds : List Define} {b : Builder} {cs : List Constant}
    (h : (constants ds b).result = .ok cs) : cs = seededConstants b.known ++
      inHeaderOrder ds.length (passDefines b.known ds).pass.built := by
  have hruns : Building.Runs (constants ds) b cs (constants ds b).builder := ⟨h, rfl⟩
  obtain ⟨b₁, _, ⟨hstate, rfl⟩, hruns⟩ := hruns.of_bind
  obtain ⟨b₂, _, ⟨hstate', rfl⟩, hruns⟩ := hruns.of_bind
  obtain ⟨_, _, _, hruns⟩ := hruns.of_bind
  obtain ⟨_, _, hpass, hruns⟩ := hruns.of_bind
  obtain ⟨_, rfl⟩ := hpass.of_ofPass
  -- the state is looked at twice before the pass changes it
  have hfirst : b = b₁ := Except.ok.inj hstate
  have hsecond : b = b₂ := Except.ok.inj hstate'
  rw [← Except.ok.inj hruns.result, ← hfirst, ← hsecond]

/-! ## Constants of type `long` -/

/-- The type of numeric constants. -/
def long : CsType := { base := "long" }

theorem ConstantFor.number_of_long {known : Symbols} {content value : String} {type : CsType}
    (h : ConstantFor known content type value) (htype : type = long) :
    value = content ∧ (isHexLiteral content || isIntegerLiteral content) = true := by
  have hother : { base := "bool" } ≠ long ∧ { base := "string" } ≠ long := by decide
  cases h with
  | flag _ | symbol _ | unsupported _ => exact absurd htype hother.1
  | text _ _ => exact absurd htype hother.2
  | number hnumber => exact ⟨rfl, hnumber⟩

/-- Only what is recognised as a number becomes a numeric constant, and its text is kept. -/
theorem constantOf_long (known : Symbols) (d : Define) (content : String) :
    (constantOf known d content).Ends fun c => c.name = d.name ∧
      (c.type = long → c.value = content ∧
        (isHexLiteral content || isIntegerLiteral content) = true) := by
  obtain ⟨c, hc, hname, hfor⟩ := constantOf_for known d content
  refine ⟨c, hc, hname, fun htype => hfor.number_of_long htype⟩

/-- A content that is not blank is a text of the define. -/
theorem content_of_replacementOf {d : Define} {s : String} (h : replacementOf d = .ok s)
    (hs : Text.strip s ≠ "") : d.content = some (.text s) := by
  have hempty : Text.strip "" = "" := by decide
  rw [replacementOf] at h
  cases hcontent : d.content with
  | none =>
      rw [hcontent] at h
      rw [← Except.ok.inj h] at hs
      exact absurd hempty hs
  | some l =>
      rw [hcontent] at h
      dsimp only at h
      split at h
      · rw [← Except.ok.inj h] at hs
        exact absurd hempty hs
      · cases l with
        | text t => rw [Except.ok.inj h]
        | other v => exact absurd h (by simp [Leaf.needText])

/-- The constant shows the content of the define, and this is a number. -/
structure ShowsNumber (d : Define) (c : Constant) : Prop where
  name : c.name = d.name
  /-- Only the blanks around the content are missing. -/
  content : ∃ s, d.content = some (.text s) ∧ c.value = Text.strip s
  number : Literal.NumberText c.value

/-- A define that is judged to be a numeric constant shows a number. -/
theorem showsNumber_of_judgeDefine {known : Symbols} {i : Nat} {d : Define} {a : AcceptedDefine}
    (h : (judgeDefine known (i, d)).result = .ok (.accepted a)) (hlong : a.constant.type = long) :
    ShowsNumber d a.constant := by
  obtain ⟨_, replacement, hreplacement, hconstant⟩ := accepted_of_judgeDefine h
  obtain ⟨c, hc, hname, hshows⟩ := constantOf_long known d (Text.strip replacement)
  obtain rfl : c = a.constant := Except.ok.inj (hc.symm.trans hconstant)
  obtain ⟨hvalue, hliteral⟩ := hshows hlong
  have hblank : Text.strip replacement ≠ "" := by
    intro hblank
    rw [hblank] at hliteral
    exact absurd hliteral (by decide)
  have hnumber : Literal.NumberText (Text.strip replacement) := by
    rcases (Bool.or_eq_true _ _).mp hliteral with hhex | hinteger
    · exact Literal.numberText_of_isHexLiteral (Literal.stripped_strip _) hhex
    · exact Literal.numberText_of_isIntegerLiteral (Literal.stripped_strip _) hinteger
  exact ⟨hname, ⟨replacement, content_of_replacementOf hreplacement hblank, hvalue⟩,
    hvalue ▸ hnumber⟩

/-- **Numeric constants show the numbers of their defines.** Defines of texts get constants, and
whenever some are returned, those of type `long` are each at the place of a define and show its
content. -/
theorem constants_showNumbers (ds : List Define) (b : Builder) :
    ((∀ d ∈ ds, d.WellTyped) → ∃ cs, (constants ds b).result = .ok cs) ∧
      ∀ cs, (constants ds b).result = .ok cs → ∀ c ∈ cs, c.type = long →
        ∃ i d, ds[i]? = some d ∧ constantAt b.known ds i = some c ∧ ShowsNumber d c := by
  refine ⟨fun h => ?_, fun cs hcs c hc hlong => ?_⟩
  · obtain ⟨_, hruns⟩ := constants_runs h b
    exact ⟨_, hruns.result⟩
  · rw [constants_of_ok hcs] at hc
    rcases List.mem_append.mp hc with hc | hc
    · obtain ⟨e, _, rfl⟩ := List.mem_map.mp hc
      have hstring : ({ base := "string" } : CsType) ≠ long := by decide
      exact absurd hlong hstring
    · obtain ⟨i, _, hi⟩ := List.mem_filterMap.mp hc
      obtain ⟨a, hfind, rfl⟩ := Option.map_eq_some_iff.mp hi
      have hindex : a.index = i := by simpa using List.find?_some hfind
      obtain ⟨j, d, hd, known', hjudged⟩ := judged_passDefines (List.mem_of_find?_eq_some hfind)
      obtain rfl : j = i := (accepted_of_judgeDefine hjudged).1.symm.trans hindex
      exact ⟨j, d, hd, hi, showsNumber_of_judgeDefine hjudged hlong⟩

/-- Numbers of both kinds, one with blanks around it. -/
def numberDefines : List Define :=
  [{ name := "MASK", content := some " 0x40 " }, { name := "LOWEST", content := some "-12" }]

theorem constants_showNumbers_numberDefines :
    (∀ d ∈ numberDefines, d.WellTyped) ∧
      ∃ cs, (constants numberDefines (.start {})).result = .ok cs ∧ ∀ c ∈ cs, c.type = long →
        ∃ i d, numberDefines[i]? = some d ∧
          constantAt (Builder.start {}).known numberDefines i = some c ∧ ShowsNumber d c := by
  have htexts : ∀ d ∈ numberDefines, d.WellTyped := by decide
  obtain ⟨hreturns, hshow⟩ := constants_showNumbers numberDefines (.start {})
  obtain ⟨cs, hcs⟩ := hreturns htexts
  exact ⟨htexts, cs, hcs, hshow cs hcs⟩

example : (constants numberDefines { Builder.start {} with known := ∅ }).result.toOption.map
    (·.map fun c => (c.type, c.value)) = some [(long, "0x40"), (long, "-12")] := by decide +kernel

/-! ## Numbers that do not fit -/

/-- The text is a signed number of 64 bits in C#, and the content is the same number in C. -/
def KeepsNumber (content value : String) : Prop :=
  ∃ n, Literal.inCSharp? value = some n ∧ minInt64 ≤ n ∧ n ≤ maxInt64 ∧
    Literal.inC? content = some n

/-- Every numeric constant keeps the number of its define. -/
def KeepsNumbers (ds : List Define) (b : Builder) : Prop :=
  ∀ cs, (constants ds b).result = .ok cs → ∀ c ∈ cs, c.type = long →
    ∃ d ∈ ds, c.name = d.name ∧ ∃ s, d.content = some (.text s) ∧
      KeepsNumber (Text.strip s) c.value

theorem not_keepsNumbers {d : Define} (h : d.WellTyped) {b : Builder} {c : Constant}
    (hc : constantAt b.known [d] 0 = some c) (hlong : c.type = long) {s : String}
    (hs : d.content = some (.text s)) (hbad : ¬KeepsNumber (Text.strip s) c.value) :
    ¬KeepsNumbers [d] b := by
  have hresult := result_constants (List.forall_mem_singleton.mpr h) b
  have hmem : c ∈ (List.range [d].length).filterMap (constantAt b.known [d]) :=
    List.mem_filterMap.mpr ⟨0, by simp, hc⟩
  intro hkeeps
  obtain ⟨d', hd', _, t, ht, hkept⟩ :=
    hkeeps _ hresult c (List.mem_append_right _ hmem) hlong
  rw [List.mem_singleton.mp hd', hs] at ht
  obtain rfl : s = t := Leaf.text.inj (Option.some.inj ht)
  exact hbad hkept

/-- All sixty-four bits are set. -/
def maskDefine : Define := { name := "MASK", content := some "0xffffffffffffffff" }

/-- A number in octal digits. -/
def modeDefine : Define := { name := "MODE", content := some "0755" }

/-- A number in digits of another script. -/
def countDefine : Define := { name := "COUNT", content := some "٣" }

theorem not_keepsNumbers_singleDefines : ¬KeepsNumbers [maskDefine] (.start {}) ∧
    ¬KeepsNumbers [modeDefine] (.start {}) ∧ ¬KeepsNumbers [countDefine] (.start {}) := by
  refine ⟨?_, ?_, ?_⟩
  · refine not_keepsNumbers (by decide)
      (c := { name := "MASK", type := long, value := "0xffffffffffffffff" }) (by decide +kernel)
      rfl rfl ?_
    have hread : Literal.inCSharp? "0xffffffffffffffff" = some 18446744073709551615 := by
      decide +kernel
    intro hkept
    obtain ⟨n, hn, _, hmax, _⟩ := hkept
    rw [Option.some.inj (hn.symm.trans hread)] at hmax
    exact absurd hmax (by decide)
  · refine not_keepsNumbers (by decide)
      (c := { name := "MODE", type := long, value := "0755" }) (by decide +kernel) rfl rfl ?_
    have hread : Literal.inCSharp? "0755" = some 755 := by decide +kernel
    have hmeant : Literal.inC? (Text.strip "0755") = some 493 := by decide +kernel
    intro hkept
    obtain ⟨n, hn, _, _, hn'⟩ := hkept
    rw [hread] at hn
    rw [hmeant, ← hn] at hn'
    exact absurd hn' (by decide)
  · refine not_keepsNumbers (by decide)
      (c := { name := "COUNT", type := long, value := "٣" }) (by decide +kernel) rfl rfl ?_
    have hread : Literal.inCSharp? "٣" = none := by decide +kernel
    intro hkept
    obtain ⟨n, hn, _⟩ := hkept
    rw [hread] at hn
    exact absurd hn (by simp)

end NativeBindings.Build
