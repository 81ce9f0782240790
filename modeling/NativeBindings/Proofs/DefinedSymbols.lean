import NativeBindings.Proofs.Guards

/-!
# The symbol of `defined(x)`

The reader of `defined(x)` goes once from left to right, takes as much as it can at every token, and
never goes back. What it is to recognise is a grammar, which says nothing about how far a token
reaches. Both come to the same: a text of the grammar can be divided into its tokens in one way
only, since no blank and no parenthesis is part of a word.

Nor does it matter that an expression with a logical operator is refused before it is read, or
whether a line feed may stand behind the closing parenthesis. No text of the grammar has an operator
in it, and a stripped text does not end with a line feed.
-/

namespace NativeBindings.Header

open Text

/-! ## The grammar -/

/-- The text is `defined(symbol)`, and there are blanks nowhere but between its tokens. -/
structure IsDefined (s symbol : List Char) : Prop where
  /-- There is a symbol. -/
  nonempty : symbol ≠ []
  /-- It is one word. -/
  word : ∀ c ∈ symbol, isWordChar c
  /-- The tokens stand in their order. -/
  tokens : ∃ b₁ b₂ b₃, Blank b₁ ∧ Blank b₂ ∧ Blank b₃ ∧ s = definedTokens b₁ b₂ symbol b₃

/-- The text is `defined(symbol)`, and a line feed may stand behind it. -/
inductive IsDefinedLine (s symbol : List Char) : Prop where
  | whole (h : IsDefined s symbol)
  | beforeLineFeed {line : List Char} (hs : s = line ++ ['\n']) (h : IsDefined line symbol)

/-- The reader decides the grammar. -/
theorem definedSymbolChars?_eq_some {s symbol : List Char} :
    definedSymbolChars? s = some symbol ↔ IsDefined s symbol := by
  constructor
  · intro h
    obtain ⟨hne, hw, htokens⟩ := tokens_of_definedSymbolChars? h
    exact ⟨hne, hw, htokens⟩
  · rintro ⟨hne, hw, b₁, b₂, b₃, h₁, h₂, h₃, rfl⟩
    exact definedSymbolChars?_tokens h₁ h₂ h₃ hne hw

/-- However the tokens of a text are found, its symbol is the same. -/
theorem IsDefined.symbol_eq {s x y : List Char} (hx : IsDefined s x) (hy : IsDefined s y) :
    x = y := by
  have hread : some x = some y :=
    (definedSymbolChars?_eq_some.mpr hx).symm.trans (definedSymbolChars?_eq_some.mpr hy)
  exact Option.some.inj hread

/-- No text of the grammar has an operator in it. -/
theorem IsDefined.hasInfix_eq_false {s symbol : List Char} (h : IsDefined s symbol) :
    hasInfix ['&', '&'] s = false ∧ hasInfix ['|', '|'] s = false := by
  obtain ⟨b₁, b₂, b₃, h₁, h₂, h₃, rfl⟩ := h.tokens
  exact ⟨hasInfix_definedTokens h₁ h₂ h₃ h.word (by decide) (by decide) (by decide) (by decide),
    hasInfix_definedTokens h₁ h₂ h₃ h.word (by decide) (by decide) (by decide) (by decide)⟩

/-! ## Expressions -/

/-- An expression that is refused for an operator would not have been read either. -/
theorem definedSymbol?_eq_map (e : String) :
    definedSymbol? e = (definedSymbolChars? (strip e).toList).map String.ofList := by
  rw [strip, String.toList_ofList, definedSymbol?]
  split
  · rename_i hoperator
    cases hread : definedSymbolChars? (stripChars e.toList) with
    | none => rfl
    | some symbol =>
        obtain ⟨hand, hor⟩ := (definedSymbolChars?_eq_some.mp hread).hasInfix_eq_false
        rw [hand, hor] at hoperator
        exact absurd hoperator (by simp)
  · rfl

theorem definedSymbol?_eq_some_iff {e x : String} :
    definedSymbol? e = some x ↔ IsDefined (strip e).toList x.toList := by
  rw [definedSymbol?_eq_map, ← definedSymbolChars?_eq_some, Option.map_eq_some_iff]
  constructor
  · rintro ⟨symbol, hread, rfl⟩
    rwa [String.toList_ofList]
  · intro hread
    exact ⟨_, hread, String.ofList_toList⟩

theorem definedSymbol?_eq_none_iff {e : String} :
    definedSymbol? e = none ↔ ∀ symbol, ¬IsDefined (strip e).toList symbol := by
  rw [definedSymbol?_eq_map, Option.map_eq_none_iff, Option.eq_none_iff_forall_ne_some]
  exact forall_congr' fun symbol => not_congr definedSymbolChars?_eq_some

/-- No stripped text ends with a line feed, so allowing for one there changes nothing. -/
theorem isDefinedLine_strip {e : String} {symbol : List Char} :
    IsDefinedLine (strip e).toList symbol ↔ IsDefined (strip e).toList symbol := by
  refine ⟨fun h => ?_, .whole⟩
  cases h with
  | whole h => exact h
  | beforeLineFeed hs _ =>
      have hlast : (stripChars e.toList).getLast? = some '\n' := by
        rw [strip, String.toList_ofList] at hs
        rw [hs, List.getLast?_concat]
      exact absurd (isBlank_of_getLast?_stripChars hlast) (by decide)

/-- The symbol of an expression is read off the grammar, once the expression is stripped. -/
structure ReadByGrammar (e : String) : Prop where
  /-- Stripping takes away blanks on both sides, -/
  around : ∃ b b', Blank b ∧ Blank b' ∧ e.toList = b ++ (strip e).toList ++ b'
  /-- and leaves none there. -/
  stripped : (∀ c, (strip e).toList.head? = some c → isBlank c = false) ∧
    ∀ c, (strip e).toList.getLast? = some c → isBlank c = false
  /-- A symbol is found exactly if it stands in `defined(x)`. -/
  found : ∀ x, definedSymbol? e = some x ↔ IsDefined (strip e).toList x.toList
  /-- There is only one that does. -/
  unique : ∀ x y, IsDefined (strip e).toList x → IsDefined (strip e).toList y → x = y
  /-- None is found exactly if none does. -/
  refused : definedSymbol? e = none ↔ ∀ symbol, ¬IsDefined (strip e).toList symbol
  /-- That operators are looked for first changes nothing. -/
  operators : definedSymbol? e = (definedSymbolChars? (strip e).toList).map String.ofList
  /-- That a line feed may stand at the end changes nothing. -/
  lineFeed : ∀ symbol, IsDefinedLine (strip e).toList symbol ↔ IsDefined (strip e).toList symbol

/-- **The symbol of every expression is read by the grammar.** -/
theorem readByGrammar (e : String) : ReadByGrammar e where
  around := by
    rw [strip, String.toList_ofList]
    exact stripChars_blank e.toList
  stripped := by
    rw [strip, String.toList_ofList]
    exact ⟨fun _ => isBlank_of_head?_stripChars, fun _ => isBlank_of_getLast?_stripChars⟩
  found _ := definedSymbol?_eq_some_iff
  unique _ _ := IsDefined.symbol_eq
  refused := definedSymbol?_eq_none_iff
  operators := definedSymbol?_eq_map e
  lineFeed _ := isDefinedLine_strip

example : definedSymbol? "  defined\t(\u00A0Größe ) \n" = some "Größe" := by
  decide +kernel

example : definedSymbol? "defined(A) && defined(B)" = none := by decide +kernel

end NativeBindings.Header
