import NativeBindings.Proofs.AliasConstants
import NativeBindings.Proofs.StringLiterals

/-!
# String constants

There are two kinds of constants of type `string`. That of a symbol known from the start is written
as a literal for the text of the symbol. That of a define is the content as it stands, if a quote
begins and ends it. Neither looks at lines, and the quotes inside a content are not looked at
either. So what is written need not be a literal, and it is said here when it is.
-/

namespace NativeBindings.Build

open CSharp
open Header (Define)
open Literal

/-! ## Contents in quotes -/

/-- A text in quotes is no number. -/
theorem not_isNumber_of_isQuotedText {s : String} (hstripped : Stripped s)
    (h : isQuotedText s = true) : (isHexLiteral s || isIntegerLiteral s) = false := by
  obtain ⟨inside, htext⟩ := isQuotedText_iff.mp h
  have hnumber : ¬NumberText s := by
    intro hnumber
    obtain ⟨c, hc, hkind⟩ := hnumber.head
    rw [htext, List.head?_cons] at hc
    obtain rfl : '"' = c := Option.some.inj hc
    exact absurd hkind (by decide)
  rw [Bool.eq_false_iff, Ne, Bool.or_eq_true]
  rintro (hhex | hinteger)
  · exact hnumber (numberText_of_isHexLiteral hstripped hhex)
  · exact hnumber (numberText_of_isIntegerLiteral hstripped hinteger)

section Defines

variable {known : Symbols} {ds : List Define}

/-- The define at a place is accepted, and its content is a text in quotes that is not the name of
a symbol known at its turn. -/
structure TextDefine (known : Symbols) (ds : List Define) (i : Nat) (content : String) :
    Prop where
  accepted : (constantAt known ds i).isSome
  define : ∃ d replacement, ds[i]? = some d ∧ replacementOf d = .ok replacement ∧
    content = Text.strip replacement ∧ ¬KnownAt known ds (i, d) content
  quoted : isQuotedText content = true

/-- A text in quotes becomes a string constant, unless it is the name of a symbol. -/
theorem ConstantFor.string_of_isQuotedText {content value : String} {type : CsType}
    (h : ConstantFor known content type value) (hstripped : Stripped content)
    (hquoted : isQuotedText content = true) (hnew : ¬Knows known content) :
    type = string ∧ value = content := by
  cases h with
  | flag hempty => exact absurd (hempty ▸ hquoted) (by decide)
  | symbol hknown => exact absurd hknown hnew
  | number hnumber =>
      rw [not_isNumber_of_isQuotedText hstripped hquoted] at hnumber
      exact absurd hnumber (by simp)
  | text _ _ => exact ⟨rfl, rfl⟩
  | unsupported hunquoted => exact absurd (hquoted.symm.trans hunquoted) (by simp)

/-- Only a text in quotes becomes a string constant. -/
theorem ConstantFor.quoted_of_string {content value : String} {type : CsType}
    (h : ConstantFor known content type value) (htype : type = string) :
    value = content ∧ isQuotedText content = true ∧ ¬Knows known content := by
  have hother : bool ≠ string ∧ long ≠ string := by decide
  cases h with
  | flag _ => exact absurd htype hother.1
  | symbol _ => exact absurd htype hother.1
  | number _ => exact absurd htype hother.2
  | text hquoted hnew => exact ⟨rfl, hquoted, hnew⟩
  | unsupported _ => exact absurd htype hother.1

/-- The string constant of a define shows the content of the define. -/
theorem textDefine_of_string (h : ∀ d ∈ ds, d.WellTyped) {i : Nat} {c : Constant}
    (hc : constantAt known ds i = some c) (htype : c.type = string) :
    TextDefine known ds i c.value := by
  obtain ⟨d, hturn⟩ := turn_of_constantAt h hc
  obtain ⟨known', replacement, hknown, hreplacement, hfor⟩ := hturn.judged
  obtain ⟨hvalue, hquoted, hnew⟩ := hfor.quoted_of_string htype
  rw [← hvalue] at hquoted hnew
  exact ⟨by rw [hc]; rfl, ⟨d, replacement, hturn.define, hreplacement, hvalue,
    fun hat => hnew ((hknown c.value).mpr hat)⟩, hquoted⟩

/-- A define of a text in quotes becomes a string constant that shows it. -/
theorem TextDefine.exists_constant (h : ∀ d ∈ ds, d.WellTyped) {i : Nat} {content : String}
    (htext : TextDefine known ds i content) :
    ∃ c, constantAt known ds i = some c ∧ c.type = string ∧ c.value = content := by
  obtain ⟨c, hc⟩ := Option.isSome_iff_exists.mp htext.accepted
  obtain ⟨d, replacement, hd, hreplacement, hcontent, hnew⟩ := htext.define
  -- the constant at this place is that of this define, so it was made for the same content
  obtain ⟨d', hturn⟩ := turn_of_constantAt h hc
  obtain ⟨known', replacement', hknown, hreplacement', hfor⟩ := hturn.judged
  obtain rfl : d = d' := Option.some.inj (hd.symm.trans hturn.define)
  obtain rfl : replacement = replacement' := Except.ok.inj (hreplacement.symm.trans hreplacement')
  rw [← hcontent] at hfor
  refine ⟨c, hc, hfor.string_of_isQuotedText ?_ htext.quoted fun hin => hnew ((hknown _).mp hin)⟩
  rw [hcontent]
  exact stripped_strip replacement

end Defines

/-! ## All string constants -/

/-- The constant of a symbol known from the start: undoing the escapes in its value gives the
replacement text back, and it is a literal exactly if that text stays on its line. -/
structure SeedConstant (e : Key × String) (c : Constant) : Prop where
  name : c.name = e.1.toLeaf
  type : c.type = string
  standsFor : StandsFor c.value e.2
  literal : IsStringLiteral c.value ↔ StaysOnLine e.2

theorem forall₂_seededConstants (known : Symbols) :
    List.Forall₂ SeedConstant known.entries (seededConstants known) := by
  rw [seededConstants, List.forall₂_map_right_iff, List.forall₂_same]
  exact fun e _ => ⟨rfl, rfl, standsFor_stringLiteral e.2, isStringLiteral_stringLiteral⟩

/-- Where the string constants in a list come from, and when all of them are literals. -/
structure StringsAccounted (known : Symbols) (ds : List Define) (cs : List Constant) : Prop where
  /-- First come the symbols known from the start, and then only contents in quotes. -/
  sources : ∃ seeded rest, cs = seeded ++ rest ∧
    List.Forall₂ SeedConstant known.entries seeded ∧
    ∀ c ∈ rest, c.type = string → ∃ i, constantAt known ds i = some c ∧
      TextDefine known ds i c.value
  /-- All are literals exactly if the texts of the symbols stay on their lines, and the contents
  in quotes are literals themselves. -/
  literals : (∀ c ∈ cs, c.type = string → IsStringLiteral c.value) ↔
    (∀ e ∈ known.entries, StaysOnLine e.2) ∧
      ∀ i content, TextDefine known ds i content → IsStringLiteral content

/-- **String constants are literals, except for texts with line terminators and contents that only
begin and end with a quote.** -/
theorem constants_stringsAccounted {ds : List Define} (h : ∀ d ∈ ds, d.WellTyped) (b : Builder) :
    ∃ cs, (constants ds b).result = .ok cs ∧ StringsAccounted b.known ds cs := by
  have hseeded := forall₂_seededConstants b.known
  refine ⟨allConstants b.known ds, result_constants h b, ⟨_, _, rfl, hseeded, ?_⟩, ?_⟩
  · intro c hc htype
    obtain ⟨i, _, hi⟩ := List.mem_filterMap.mp hc
    exact ⟨i, hi, textDefine_of_string h hi htype⟩
  · constructor
    · intro hall
      constructor
      · intro e he
        obtain ⟨c, hc, hseed⟩ := exists_of_forall₂ hseeded he
        exact hseed.literal.mp (hall c ((mem_allConstants h).mpr (.inl hc)) hseed.type)
      · intro i content htext
        obtain ⟨c, hc, htype, rfl⟩ := htext.exists_constant h
        exact hall c ((mem_allConstants h).mpr (.inr ⟨i, hc⟩)) htype
    · rintro ⟨hlines, hcontents⟩ c hc htype
      rcases (mem_allConstants h).mp hc with hc | ⟨i, hi⟩
      · obtain ⟨e, he, hseed⟩ := exists_of_forall₂ hseeded.flip hc
        exact hseed.literal.mpr (hlines e he)
      · exact hcontents i c.value (textDefine_of_string h hi htype)

/-- A literal with escaped quotes, and a define that stands for it. -/
def titleDefines : List Define :=
  [{ name := "TITLE", content := some " \"a \\\"b\\\\\" " },
   { name := "NAME", content := some "TITLE" }]

theorem constants_stringsAccounted_titleDefines : (∀ d ∈ titleDefines, d.WellTyped) ∧
    ∃ cs, (constants titleDefines (.start {})).result = .ok cs ∧
      StringsAccounted (Builder.start {}).known titleDefines cs := by
  have htexts : ∀ d ∈ titleDefines, d.WellTyped := by decide
  exact ⟨htexts, constants_stringsAccounted htexts (.start {})⟩

/-! ## Texts that are not literals -/

/-- All string constants are literals. -/
def StringsAreLiterals (ds : List Define) (b : Builder) : Prop :=
  ∀ cs, (constants ds b).result = .ok cs → ∀ c ∈ cs, c.type = string → IsStringLiteral c.value

theorem not_stringsAreLiterals {ds : List Define} (h : ∀ d ∈ ds, d.WellTyped) {b : Builder}
    {c : Constant} (hc : c ∈ allConstants b.known ds) (htype : c.type = string)
    (hvalue : ¬IsStringLiteral c.value) : ¬StringsAreLiterals ds b := by
  intro hall
  exact hvalue (hall _ (result_constants h b) c hc htype)

/-- A symbol whose text goes over two lines. -/
def greetingSymbols : Symbols := .ofList [("GREETING", "one\ntwo")]

/-- Two literals side by side. -/
def adjacentDefine : Define := { name := "BOTH", content := some "\"a\" \"b\"" }

/-- The last quote is escaped. -/
def openDefine : Define := { name := "OPEN", content := some "\"a\\\"" }

theorem not_stringsAreLiterals_texts :
    ¬StringsAreLiterals [] { Builder.start {} with known := greetingSymbols } ∧
      ¬StringsAreLiterals [adjacentDefine] (.start {}) ∧
      ¬StringsAreLiterals [openDefine] (.start {}) := by
  refine ⟨?_, ?_, ?_⟩
  · exact not_stringsAreLiterals (by simp)
      (c := { name := "GREETING", type := string, value := "\"one\ntwo\"" }) (by decide) rfl
      (by decide)
  · exact not_stringsAreLiterals (by decide)
      (c := { name := "BOTH", type := string, value := "\"a\" \"b\"" }) (by decide +kernel) rfl
      (by decide)
  · exact not_stringsAreLiterals (by decide)
      (c := { name := "OPEN", type := string, value := "\"a\\\"" }) (by decide +kernel) rfl
      (by decide)

end NativeBindings.Build
