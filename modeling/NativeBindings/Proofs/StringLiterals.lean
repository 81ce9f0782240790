import NativeBindings.Proofs.CommentText
import NativeBindings.Proofs.Literals

/-!
# String literals

A string literal begins with a quote, stays on its line, and ends with the first quote that no
backslash escapes. A backslash escapes only if it is not escaped itself, so whether a character is
escaped depends on everything before it. `escapedAfter` carries this from one character to the next,
and the reader `readsInside` follows it through the text once.

What is written for a text is read back by taking the backslashes away, and it is a literal
exactly if the text has no line terminators: those are not escaped.
-/

namespace NativeBindings.Literal

/-- The text stays on its line. -/
def StaysOnLine (s : String) : Prop := ∀ c ∈ s.toList, c ∉ lineTerminators

instance : DecidablePred StaysOnLine := fun s =>
  decidable_of_iff (s.toList.all fun c => !lineTerminators.contains c) (by simp [StaysOnLine])

theorem staysOnLine_append {s t : String} :
    StaysOnLine (s ++ t) ↔ StaysOnLine s ∧ StaysOnLine t := by
  simp only [StaysOnLine, String.toList_append, List.forall_mem_append]

/-! ## Escaped characters -/

/-- Whether the next character is escaped: this one has to be a backslash that is not. -/
def escapes (escaped : Bool) (c : Char) : Bool := !escaped && c == '\\'

/-- Whether the character after these ones is escaped, if the first of them is or is not. -/
def escapedAfter (escaped : Bool) (cs : List Char) : Bool := cs.foldl escapes escaped

/-- These characters can stand between the quotes of a literal, the first of them escaped or not. -/
structure Inside (escaped : Bool) (cs : List Char) : Prop where
  oneLine : ∀ c ∈ cs, c ∉ lineTerminators
  /-- No quote ends the literal. -/
  quotes : ∀ before after, cs = before ++ '"' :: after → escapedAfter escaped before = true
  /-- The quote after them does. -/
  last : escapedAfter escaped cs = false

/-- The text is exactly one string literal. -/
def IsStringLiteral (s : String) : Prop :=
  ∃ inside, s.toList = '"' :: (inside ++ ['"']) ∧ Inside false inside

/-- Reads what is between the quotes, character by character. -/
def readsInside (escaped : Bool) : List Char → Bool
  | [] => !escaped
  | c :: rest =>
    !lineTerminators.contains c && (c != '"' || escaped) && readsInside (escapes escaped c) rest

theorem readsInside_iff {escaped : Bool} {cs : List Char} :
    readsInside escaped cs = true ↔ Inside escaped cs := by
  induction cs generalizing escaped with
  | nil =>
      constructor
      · intro h
        rw [readsInside, Bool.not_eq_true'] at h
        exact ⟨fun c hc => absurd hc (by simp), fun before after heq => absurd heq (by simp), h⟩
      · intro h
        rw [readsInside, Bool.not_eq_true']
        exact h.last
  | cons c rest ih =>
      rw [readsInside, Bool.and_eq_true, Bool.and_eq_true, ih]
      constructor
      · rintro ⟨⟨hline, hquote⟩, hrest⟩
        refine ⟨?_, fun before after heq => ?_, hrest.last⟩
        · exact List.forall_mem_cons.mpr ⟨by simpa using hline, hrest.oneLine⟩
        · cases before with
          | nil =>
              obtain rfl : c = '"' := (List.cons.inj heq).1
              simpa [escapedAfter] using hquote
          | cons b before =>
              obtain ⟨rfl, htail⟩ := List.cons.inj heq
              exact hrest.quotes before after htail
      · intro h
        obtain ⟨hline, hlines⟩ := List.forall_mem_cons.mp h.oneLine
        refine ⟨⟨by simpa using hline, ?_⟩, hlines, fun before after heq => ?_, h.last⟩
        · by_cases hc : c = '"'
          · have hescaped : escaped = true := h.quotes [] rest (by rw [hc]; rfl)
            simp [hescaped]
          · simp [hc]
        · exact h.quotes (c :: before) after (by rw [heq]; rfl)

instance (escaped : Bool) : DecidablePred (Inside escaped) :=
  fun _ => decidable_of_iff _ readsInside_iff

theorem isQuotedText_iff {s : String} :
    CSharp.isQuotedText s = true ↔ ∃ inside, s.toList = '"' :: (inside ++ ['"']) := by
  rw [CSharp.isQuotedText, Bool.and_eq_true, Bool.and_eq_true, decide_eq_true_eq,
    decide_eq_true_eq, decide_eq_true_eq]
  constructor
  · rintro ⟨⟨hlength, hhead⟩, hlast⟩
    obtain ⟨rest, hrest⟩ := List.head?_eq_some_iff.mp hhead
    have hne : rest ≠ [] := by
      rintro rfl
      rw [hrest] at hlength
      exact absurd hlength (by decide)
    rw [hrest, List.getLast?_cons_of_ne_nil hne] at hlast
    obtain ⟨inside, hinside⟩ := List.getLast?_eq_some_iff.mp hlast
    exact ⟨inside, by rw [hrest, hinside]⟩
  · rintro ⟨inside, hinside⟩
    rw [hinside]
    exact ⟨⟨by simp, rfl⟩, by rw [← List.cons_append, List.getLast?_concat]⟩

/-- A literal is a text in quotes, with the right characters between them. -/
theorem isStringLiteral_iff {s : String} : IsStringLiteral s ↔
    CSharp.isQuotedText s = true ∧ Inside false s.toList.tail.dropLast := by
  rw [isQuotedText_iff]
  constructor
  · rintro ⟨inside, htext, hinside⟩
    refine ⟨⟨inside, htext⟩, ?_⟩
    rw [htext, List.tail_cons, List.dropLast_concat]
    exact hinside
  · rintro ⟨⟨inside, htext⟩, hinside⟩
    rw [htext, List.tail_cons, List.dropLast_concat] at hinside
    exact ⟨inside, htext, hinside⟩

instance : DecidablePred IsStringLiteral := fun _ => decidable_of_iff _ isStringLiteral_iff.symm

/-! ## What is written for a text -/

/-- The characters without the backslashes that escape. -/
def unescaped : List Char → List Char
  | '\\' :: c :: rest => c :: unescaped rest
  | c :: rest => c :: unescaped rest
  | [] => []

/-- Without its quotes and without the backslashes that escape, the literal is this text. -/
def StandsFor (literal text : String) : Prop :=
  ∃ inside, literal.toList = '"' :: (inside ++ ['"']) ∧ unescaped inside = text.toList

theorem unescaped_flatMap (cs : List Char) :
    unescaped (cs.flatMap CSharp.stringLiteralChar) = cs := by
  induction cs with
  | nil => rfl
  | cons c rest ih =>
      rw [List.flatMap_cons, CSharp.stringLiteralChar]
      split
      · rw [List.cons_append, List.cons_append, List.nil_append, unescaped, ih]
      · rename_i hplain
        -- without a backslash in front, the character stands for itself
        have hbackslash : c ≠ '\\' := fun hc => hplain (by rw [hc]; rfl)
        rw [List.cons_append, List.nil_append, unescaped.eq_2, ih]
        rintro _ _ rfl
        exact absurd rfl hbackslash

/-- Behind a backslash, any character that stays on the line is read. -/
theorem readsInside_escape (c : Char) (rest : List Char) : readsInside false ('\\' :: c :: rest) =
    (!lineTerminators.contains c && readsInside false rest) := by
  have hbackslash : lineTerminators.contains '\\' = false := by decide
  have hescapes : escapes false '\\' = true := by decide
  have hescaped : escapes true c = false := rfl
  rw [readsInside, readsInside, hbackslash, hescapes, hescaped, Bool.or_true, Bool.and_true]
  rfl

theorem readsInside_plain {c : Char} (hbackslash : c ≠ '\\') (hquote : c ≠ '"')
    (rest : List Char) : readsInside false (c :: rest) =
      (!lineTerminators.contains c && readsInside false rest) := by
  have hescapes : escapes false c = false := beq_eq_false_iff_ne.mpr hbackslash
  rw [readsInside, hescapes, Bool.or_false, bne_iff_ne.mpr hquote, Bool.and_true]

theorem readsInside_flatMap (cs : List Char) :
    readsInside false (cs.flatMap CSharp.stringLiteralChar) =
      cs.all fun c => !lineTerminators.contains c := by
  induction cs with
  | nil => rfl
  | cons c rest ih =>
      rw [List.flatMap_cons, CSharp.stringLiteralChar, List.all_cons, ← ih]
      split
      · exact readsInside_escape c _
      · rename_i hplain
        rw [Bool.or_eq_true, decide_eq_true_eq, decide_eq_true_eq, not_or] at hplain
        exact readsInside_plain hplain.1 hplain.2 _

/-- Undoing the escapes gives the text back. -/
theorem standsFor_stringLiteral (s : String) : StandsFor (CSharp.stringLiteral s) s :=
  ⟨_, String.toList_ofList, unescaped_flatMap s.toList⟩

/-- What is written for a text is a literal exactly if the text stays on its line. -/
theorem isStringLiteral_stringLiteral {s : String} :
    IsStringLiteral (CSharp.stringLiteral s) ↔ StaysOnLine s := by
  have htext : (CSharp.stringLiteral s).toList =
      '"' :: (s.toList.flatMap CSharp.stringLiteralChar ++ ['"']) := String.toList_ofList
  rw [isStringLiteral_iff, and_iff_right (isQuotedText_iff.mpr ⟨_, htext⟩), htext, List.tail_cons,
    List.dropLast_concat, ← readsInside_iff, readsInside_flatMap, List.all_eq_true]
  simp [StaysOnLine]

end NativeBindings.Literal
