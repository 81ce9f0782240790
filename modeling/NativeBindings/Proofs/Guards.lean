import NativeBindings.Proofs.Traced

/-!
# When a guard holds

What a guard asks is said here without looking at how its expression is taken
apart: `ifdef` and `ifndef` ask for one symbol, and an `if` asks for the symbol
`x` only if its whole expression is `defined(x)`, with blanks anywhere between its
tokens. `holds_iff` says that the reader of guards decides exactly that.

The expression is read token by token, from the left. So the way back, from the
shape to the reader, hangs on where each token ends: no blank is a word
character, and neither is a parenthesis.
-/

namespace NativeBindings.Header

open Text

/-! ## Characters -/

/-- The ranges of words and those of blanks lie apart. -/
theorem wordRanges_apart_blankRanges :
    (wordRanges.all fun w => blankRanges.all fun b =>
      Nat.blt b.2 w.1 || Nat.blt w.2 b.1) = true := by
  decide +kernel

/-- Below the letters and digits of ASCII there are none. -/
theorem isAlphanum_of_le {c : Char} (h : c.toNat ≤ 0x20) : c.isAlphanum = false := by
  have hval : c.val.toNat ≤ 0x20 := h
  have hbelow : ∀ low : UInt32, 0x20 < low.toNat → ¬c.val ≥ low := by
    intro low hlow hle
    have := UInt32.le_iff_toNat_le.mp hle
    omega
  have hupper : c.isUpper = false := decide_eq_false fun h => hbelow 'A'.val (by decide) h.1
  have hlower : c.isLower = false :=
    Bool.and_eq_false_iff.mpr (.inl (decide_eq_false (hbelow 'a'.val (by decide))))
  have hdigit : c.isDigit = false :=
    Bool.and_eq_false_iff.mpr (.inl (decide_eq_false (hbelow '0'.val (by decide))))
  rw [Char.isAlphanum, show c.isAlpha = (c.isUpper || c.isLower) from rfl, hupper, hlower, hdigit]
  rfl

/-- No blank is a word character. -/
theorem not_blank_of_word {c : Char} (h : isWordChar c) : isBlank c = false := by
  rw [Bool.eq_false_iff]
  intro hb
  rw [isBlank, inRanges, List.any_eq_true] at hb
  obtain ⟨b, hmem, hb⟩ := hb
  simp only [Bool.and_eq_true, decide_eq_true_eq] at hb
  rw [isWordChar] at h
  split at h
  · rename_i hascii
    -- the blanks of ASCII all come before its letters, digits and the underscore
    have hlow : b.2 ≤ 0x20 ∨ 128 ≤ b.1 := by
      have hall : ∀ b ∈ blankRanges, b.2 ≤ 0x20 ∨ 128 ≤ b.1 := by decide
      exact hall b hmem
    rw [isAlphanum_of_le (by omega), Bool.false_or, beq_iff_eq] at h
    have hcode : c.toNat = 95 := by rw [h]; rfl
    omega
  · rw [inRanges, List.any_eq_true] at h
    obtain ⟨w, hw, h⟩ := h
    simp only [Bool.and_eq_true, decide_eq_true_eq] at h
    have hranges := List.all_eq_true.mp wordRanges_apart_blankRanges w hw
    have hapart := List.all_eq_true.mp hranges b hmem
    simp only [Bool.or_eq_true, Nat.blt_eq] at hapart
    omega

/-! ## Blanks around a text -/

/-- Nothing but blanks. -/
def Blank (cs : List Char) : Prop := ∀ c ∈ cs, isBlank c

theorem dropWhile_of_head {p : Char → Bool} {l : List Char}
    (h : ∀ c, l.head? = some c → p c = false) : l.dropWhile p = l := by
  cases l with
  | nil => rfl
  | cons c rest => rw [List.dropWhile_cons_of_neg (by simp [h c rfl])]

theorem takeWhile_of_head {p : Char → Bool} {l : List Char}
    (h : ∀ c, l.head? = some c → p c = false) : l.takeWhile p = [] := by
  cases l with
  | nil => rfl
  | cons c rest => rw [List.takeWhile_cons_of_neg (by simp [h c rfl])]

theorem dropWhile_blank {b l : List Char} (hb : Blank b)
    (h : ∀ c, l.head? = some c → isBlank c = false) : (b ++ l).dropWhile isBlank = l := by
  rw [List.dropWhile_append_of_pos hb, dropWhile_of_head h]

/-- A text is its blanks in front and what is left without them. -/
theorem blank_dropWhile (l : List Char) : ∃ b, Blank b ∧ l = b ++ l.dropWhile isBlank := by
  refine ⟨l.takeWhile isBlank, ?_, List.takeWhile_append_dropWhile.symm⟩
  intro c hc
  exact List.all_eq_true.mp List.all_takeWhile c hc

theorem stripEndChars_append {l b : List Char} (hb : Blank b)
    (h : ∀ c, l.getLast? = some c → isBlank c = false) : stripEndChars (l ++ b) = l := by
  rw [stripEndChars, List.reverse_append, dropWhile_blank, List.reverse_reverse]
  · intro c hc; exact hb c (List.mem_reverse.mp hc)
  · intro c hc; exact h c (by rwa [List.head?_reverse] at hc)

/-- A text is what is left without the blanks at its end, and those blanks. -/
theorem stripEndChars_blank (l : List Char) : ∃ b, Blank b ∧ l = stripEndChars l ++ b := by
  obtain ⟨b, hb, hl⟩ := blank_dropWhile l.reverse
  refine ⟨b.reverse, fun c hc => hb c (List.mem_reverse.mp hc), ?_⟩
  rw [stripEndChars, ← List.reverse_append, ← hl, List.reverse_reverse]

/-- A text is what is left of it when it is stripped, with blanks on both sides. -/
theorem stripChars_blank (l : List Char) :
    ∃ b b', Blank b ∧ Blank b' ∧ l = b ++ stripChars l ++ b' := by
  obtain ⟨b, hb, hfront⟩ := blank_dropWhile l
  obtain ⟨b', hb', hend⟩ := stripEndChars_blank (l.dropWhile isBlank)
  refine ⟨b, b', hb, hb', ?_⟩
  rw [List.append_assoc]
  exact hfront.trans (congrArg (b ++ ·) hend)

theorem isBlank_of_head?_dropWhile {l : List Char} {c : Char}
    (h : (l.dropWhile isBlank).head? = some c) : isBlank c = false := by
  have hnot := List.head?_dropWhile_not isBlank l
  rwa [h] at hnot

/-- A stripped text does not begin with a blank, -/
theorem isBlank_of_head?_stripChars {l : List Char} {c : Char}
    (h : (stripChars l).head? = some c) : isBlank c = false := by
  -- what is cut off at the end leaves the first character
  obtain ⟨b, -, hend⟩ := stripEndChars_blank (l.dropWhile isBlank)
  refine isBlank_of_head?_dropWhile (l := l) ?_
  rw [hend, List.head?_append]
  exact congrArg (Option.or · b.head?) h

/-- and does not end with one. -/
theorem isBlank_of_getLast?_stripChars {l : List Char} {c : Char}
    (h : (stripChars l).getLast? = some c) : isBlank c = false := by
  rw [stripChars, stripEndChars, List.getLast?_reverse] at h
  exact isBlank_of_head?_dropWhile h

/-! ## A lone `defined(x)` -/

/-- The word `defined`. -/
def definedWord : List Char := ['d', 'e', 'f', 'i', 'n', 'e', 'd']

theorem toList_defined : "defined".toList = definedWord := rfl

/-- The tokens of `defined(x)`, with the blanks behind each but the last. -/
def definedTokens (b₁ b₂ symbol b₃ : List Char) : List Char :=
  definedWord ++ (b₁ ++ '(' :: (b₂ ++ (symbol ++ (b₃ ++ [')']))))

/-- The expression is `defined(symbol)` and nothing else, blanks around its tokens aside. -/
structure IsLoneDefined (expression symbol : String) : Prop where
  /-- There is a symbol. -/
  nonempty : symbol.toList ≠ []
  /-- It is one word. -/
  word : ∀ c ∈ symbol.toList, isWordChar c
  /-- The tokens stand in their order, with nothing but blanks between and around them. -/
  tokens : ∃ b₀ b₁ b₂ b₃ b₄, Blank b₀ ∧ Blank b₁ ∧ Blank b₂ ∧ Blank b₃ ∧ Blank b₄ ∧
    expression.toList = b₀ ++ definedTokens b₁ b₂ symbol.toList b₃ ++ b₄

theorem definedSymbolChars?_tokens {b₁ b₂ symbol b₃ : List Char} (h₁ : Blank b₁) (h₂ : Blank b₂)
    (h₃ : Blank b₃) (hne : symbol ≠ []) (hw : ∀ c ∈ symbol, isWordChar c) :
    definedSymbolChars? (definedTokens b₁ b₂ symbol b₃) = some symbol := by
  have hword : (definedTokens b₁ b₂ symbol b₃).drop 7 =
      b₁ ++ '(' :: (b₂ ++ (symbol ++ (b₃ ++ [')']))) := rfl
  have hparen : (b₁ ++ '(' :: (b₂ ++ (symbol ++ (b₃ ++ [')'])))).dropWhile isBlank =
      '(' :: (b₂ ++ (symbol ++ (b₃ ++ [')']))) :=
    dropWhile_blank h₁ (by intro c hc; injection hc with hc; rw [← hc]; decide)
  have hinner : (b₂ ++ (symbol ++ (b₃ ++ [')']))).dropWhile isBlank =
      symbol ++ (b₃ ++ [')']) := by
    refine dropWhile_blank h₂ ?_
    intro c hc
    cases symbol with
    | nil => exact absurd rfl hne
    | cons d rest =>
        injection hc with hc
        exact not_blank_of_word (hc ▸ hw d List.mem_cons_self)
  -- what follows the symbol is a blank or the closing parenthesis, and neither is part of a word
  have hend : ∀ c, (b₃ ++ [')']).head? = some c → isWordChar c = false := by
    intro c hc
    cases b₃ with
    | nil => injection hc with hc; rw [← hc]; decide
    | cons d rest =>
        injection hc with hc
        rw [Bool.eq_false_iff]
        intro hword
        have hblank := h₃ d List.mem_cons_self
        rw [hc, not_blank_of_word hword] at hblank
        exact absurd hblank (by simp)
  have htake : (symbol ++ (b₃ ++ [')'])).takeWhile isWordChar = symbol := by
    rw [List.takeWhile_append_of_pos hw, takeWhile_of_head hend, List.append_nil]
  have hdrop : (symbol ++ (b₃ ++ [')'])).dropWhile isWordChar = b₃ ++ [')'] := by
    rw [List.dropWhile_append_of_pos hw, dropWhile_of_head hend]
  have hclose : (b₃ ++ [')']).dropWhile isBlank = [')'] :=
    dropWhile_blank h₃ (by intro c hc; injection hc with hc; rw [← hc]; decide)
  have hprefix : definedWord.isPrefixOf (definedTokens b₁ b₂ symbol b₃) = true := by
    rw [List.isPrefixOf_iff_prefix]; exact List.prefix_append _ _
  have hnonempty : symbol.isEmpty = false := by simpa using hne
  simp only [definedSymbolChars?, toList_defined, hprefix, if_true, hword, hparen, hinner, htake,
    hdrop, hclose, hnonempty, bind, Option.bind, Bool.not_false, Bool.true_and, decide_true]

theorem tokens_of_definedSymbolChars? {s symbol : List Char}
    (h : definedSymbolChars? s = some symbol) :
    symbol ≠ [] ∧ (∀ c ∈ symbol, isWordChar c) ∧ ∃ b₁ b₂ b₃, Blank b₁ ∧ Blank b₂ ∧ Blank b₃ ∧
      s = definedTokens b₁ b₂ symbol b₃ := by
  unfold definedSymbolChars? at h
  rw [toList_defined] at h
  by_cases hprefix : definedWord.isPrefixOf s = true
  · rw [if_pos hprefix] at h
    rw [Option.bind_eq_bind, Option.bind_some] at h
    dsimp only at h
    split at h
    · rename_i inner hinner
      split at h
      · rename_i hsymbol
        injection h with h
        simp only [Bool.and_eq_true, Bool.not_eq_true', decide_eq_true_eq] at hsymbol
        obtain ⟨hne, hclose⟩ := hsymbol
        -- the blanks that the reader skips are those of the tokens
        obtain ⟨b₁, h₁, e₁⟩ := blank_dropWhile (s.drop 7)
        obtain ⟨b₂, h₂, e₂⟩ := blank_dropWhile inner
        obtain ⟨b₃, h₃, e₃⟩ := blank_dropWhile ((inner.dropWhile isBlank).dropWhile isWordChar)
        rw [h] at hne
        refine ⟨by simpa using hne, ?_, b₁, b₂, b₃, h₁, h₂, h₃, ?_⟩
        · intro c hc
          rw [← h] at hc
          exact List.all_eq_true.mp List.all_takeWhile c hc
        · have hword : definedWord ++ s.drop 7 = s :=
            List.prefix_iff_eq_append.mp (List.isPrefixOf_iff_prefix.mp hprefix)
          have hsplit : inner.dropWhile isBlank =
              symbol ++ (inner.dropWhile isBlank).dropWhile isWordChar := by
            rw [← h]; exact List.takeWhile_append_dropWhile.symm
          have hrest : inner = b₂ ++ (symbol ++ (b₃ ++ [')'])) := by
            rw [← hclose, ← e₃, ← hsplit]; exact e₂
          calc s = definedWord ++ s.drop 7 := hword.symm
            _ = definedWord ++ (b₁ ++ '(' :: inner) := by rw [← hinner, ← e₁]
            _ = definedTokens b₁ b₂ symbol b₃ := by rw [hrest]; rfl
      · exact absurd h (by simp)
    · exact absurd h (by simp)
  · rw [if_neg hprefix] at h
    exact absurd h (by simp)

/-- An operator that occurs in a text has its characters there. -/
theorem mem_of_hasInfix {c : Char} {part : List Char} :
    ∀ {s : List Char}, hasInfix (c :: part) s = true → c ∈ s
  | [], h => absurd h (by simp [hasInfix])
  | d :: s, h => by
      rw [hasInfix, Bool.or_eq_true] at h
      rcases h with h | h
      · simp only [List.isPrefixOf, Bool.and_eq_true, beq_iff_eq] at h
        exact h.1 ▸ List.mem_cons_self
      · exact List.mem_cons_of_mem d (mem_of_hasInfix h)

/-- A lone `defined(x)` has nothing in it but blanks, words and two parentheses. -/
theorem char_of_mem_definedTokens {b₁ b₂ symbol b₃ : List Char} (h₁ : Blank b₁) (h₂ : Blank b₂)
    (h₃ : Blank b₃) (hw : ∀ c ∈ symbol, isWordChar c) {c : Char}
    (hc : c ∈ definedTokens b₁ b₂ symbol b₃) :
    isBlank c = true ∨ isWordChar c = true ∨ c = '(' ∨ c = ')' := by
  have hword : ∀ c ∈ definedWord, isWordChar c := List.all_eq_true.mp (by decide +kernel)
  simp only [definedTokens, List.mem_append, List.mem_cons, List.not_mem_nil, or_false] at hc
  rcases hc with hc | hc | hc | hc | hc | hc | hc
  · exact .inr (.inl (hword c hc))
  · exact .inl (h₁ c hc)
  · exact .inr (.inr (.inl hc))
  · exact .inl (h₂ c hc)
  · exact .inr (.inl (hw c hc))
  · exact .inl (h₃ c hc)
  · exact .inr (.inr (.inr hc))

/-- No operator occurs in a lone `defined(x)`. -/
theorem hasInfix_definedTokens {b₁ b₂ symbol b₃ : List Char} (h₁ : Blank b₁) (h₂ : Blank b₂)
    (h₃ : Blank b₃) (hw : ∀ c ∈ symbol, isWordChar c) {c : Char} (hblank : isBlank c = false)
    (hword : isWordChar c = false) (hopen : c ≠ '(') (hclose : c ≠ ')') :
    hasInfix [c, c] (definedTokens b₁ b₂ symbol b₃) = false := by
  rw [Bool.eq_false_iff]
  intro hinfix
  rcases char_of_mem_definedTokens h₁ h₂ h₃ hw (mem_of_hasInfix hinfix) with h | h | h | h
  · rw [hblank] at h; exact absurd h (by simp)
  · rw [hword] at h; exact absurd h (by simp)
  · exact hopen h
  · exact hclose h

/-- The tokens end with the closing parenthesis. -/
theorem getLast?_definedTokens {b₁ b₂ symbol b₃ : List Char} :
    (definedTokens b₁ b₂ symbol b₃).getLast? = some ')' := by
  rw [definedTokens, ← List.cons_append, ← List.append_assoc, ← List.append_assoc,
    ← List.append_assoc, ← List.append_assoc, List.getLast?_append]
  rfl

theorem stripChars_definedTokens {b₀ b₁ b₂ symbol b₃ b₄ : List Char} (h₀ : Blank b₀)
    (h₄ : Blank b₄) :
    stripChars (b₀ ++ definedTokens b₁ b₂ symbol b₃ ++ b₄) = definedTokens b₁ b₂ symbol b₃ := by
  have hfirst : (b₀ ++ (definedTokens b₁ b₂ symbol b₃ ++ b₄)).dropWhile isBlank =
      definedTokens b₁ b₂ symbol b₃ ++ b₄ :=
    dropWhile_blank h₀ (by intro c hc; injection hc with hc; rw [← hc]; decide)
  rw [stripChars, List.append_assoc, hfirst, stripEndChars_append h₄]
  intro c hc
  rw [getLast?_definedTokens] at hc
  injection hc with hc
  rw [← hc]
  decide

/-- **The reader of `defined(x)` finds exactly the lone ones.** -/
theorem definedSymbol?_eq_some {expression symbol : String} :
    definedSymbol? expression = some symbol ↔ IsLoneDefined expression symbol := by
  constructor
  · intro h
    unfold definedSymbol? at h
    dsimp only at h
    split at h
    · exact absurd h (by simp)
    · obtain ⟨cs, hcs, rfl⟩ := Option.map_eq_some_iff.mp h
      obtain ⟨hne, hw, b₁, b₂, b₃, h₁, h₂, h₃, htokens⟩ := tokens_of_definedSymbolChars? hcs
      -- the reader strips the expression first, so there are blanks around its tokens as well
      obtain ⟨b₀, b₄, h₀, h₄, hstripped⟩ := stripChars_blank expression.toList
      refine ⟨by rwa [String.toList_ofList], by rwa [String.toList_ofList],
        b₀, b₁, b₂, b₃, b₄, h₀, h₁, h₂, h₃, h₄, ?_⟩
      rw [String.toList_ofList, ← htokens]
      exact hstripped
  · intro hlone
    obtain ⟨hne, hw, b₀, b₁, b₂, b₃, b₄, h₀, h₁, h₂, h₃, h₄, he⟩ := hlone
    have hand : hasInfix ['&', '&'] (definedTokens b₁ b₂ symbol.toList b₃) = false :=
      hasInfix_definedTokens h₁ h₂ h₃ hw (by decide) (by decide) (by decide) (by decide)
    have hor : hasInfix ['|', '|'] (definedTokens b₁ b₂ symbol.toList b₃) = false :=
      hasInfix_definedTokens h₁ h₂ h₃ hw (by decide) (by decide) (by decide) (by decide)
    unfold definedSymbol?
    rw [he, stripChars_definedTokens h₀ h₄]
    dsimp only
    rw [hand, hor, definedSymbolChars?_tokens h₁ h₂ h₃ hne hw]
    show some (String.ofList symbol.toList) = some symbol
    rw [String.ofList_toList]

/-! ## Guards -/

/-- When a guard that is looked at alone holds, given which symbols are known. -/
inductive Guard.Holds (known : String → Prop) (g : Guard) : Prop where
  /-- `#ifdef x` -/
  | ifdef {x : String} (hc : g.condition = .text "ifdef") (he : g.expression = .text x)
      (h : known x)
  /-- `#ifndef x` -/
  | ifndef {x : String} (hc : g.condition = .text "ifndef") (he : g.expression = .text x)
      (h : ¬known x)
  /-- `#if defined(x)` -/
  | ifDefined {e x : String} (hc : g.condition = .text "if") (he : g.expression = .text e)
      (hlone : IsLoneDefined e x) (h : known x)

/-- Of the symbols only matters which are known. -/
theorem Guard.Holds.congr {g : Guard} {known known' : String → Prop}
    (h : ∀ x, known x ↔ known' x) : g.Holds known ↔ g.Holds known' := by
  have hsame : known = known' := funext fun x => propext (h x)
  rw [hsame]

section Conditions

variable {known : String → Prop} {g : Guard} {e : String}

theorem Guard.holds_ifdef (hc : g.condition = .text "ifdef") (he : g.expression = .text e) :
    g.Holds known ↔ known e := by
  refine ⟨fun h => ?_, .ifdef hc he⟩
  cases h with
  | ifdef _ hx h =>
      rw [he] at hx
      injection hx with hx
      exact hx ▸ h
  | ifndef hc' _ _ => exact absurd (hc.symm.trans hc') (by decide)
  | ifDefined hc' _ _ _ => exact absurd (hc.symm.trans hc') (by decide)

theorem Guard.holds_ifndef (hc : g.condition = .text "ifndef") (he : g.expression = .text e) :
    g.Holds known ↔ ¬known e := by
  refine ⟨fun h => ?_, .ifndef hc he⟩
  cases h with
  | ifdef hc' _ _ => exact absurd (hc.symm.trans hc') (by decide)
  | ifndef _ hx h =>
      rw [he] at hx
      injection hx with hx
      exact hx ▸ h
  | ifDefined hc' _ _ _ => exact absurd (hc.symm.trans hc') (by decide)

theorem Guard.holds_if (hc : g.condition = .text "if") (he : g.expression = .text e) :
    g.Holds known ↔ ∃ x, definedSymbol? e = some x ∧ known x := by
  constructor
  · intro h
    cases h with
    | ifdef hc' _ _ => exact absurd (hc.symm.trans hc') (by decide)
    | ifndef hc' _ _ => exact absurd (hc.symm.trans hc') (by decide)
    | ifDefined _ hx hlone h =>
        rw [he] at hx
        injection hx with hx
        subst hx
        exact ⟨_, definedSymbol?_eq_some.mpr hlone, h⟩
  · intro h
    obtain ⟨x, hx, h⟩ := h
    exact .ifDefined hc he (definedSymbol?_eq_some.mp hx) h

theorem Guard.not_holds (h₁ : g.condition ≠ .text "ifdef") (h₂ : g.condition ≠ .text "ifndef")
    (h₃ : g.condition ≠ .text "if") : ¬g.Holds known := by
  intro h
  cases h with
  | ifdef hc _ _ => exact h₁ hc
  | ifndef hc _ _ => exact h₂ hc
  | ifDefined hc _ _ _ => exact h₃ hc

end Conditions

/-- **A guard with a text for its expression is decided, and exactly as `Holds` says.** -/
theorem Guard.holds_iff {g : Guard} {e : String} (he : g.expression = .text e) (known : Symbols) :
    ∃ b, g.holds known true = .ok b ∧
      (b = true ↔ g.Holds fun x => known.contains (.text x) = true) := by
  have hkey : g.expression.key = .ok (.text e) := by rw [he]; rfl
  have hneed : g.expression.needText = .ok e := by rw [he]; rfl
  unfold holds
  by_cases h₁ : g.condition = .text "ifdef"
  · rw [if_pos h₁, hkey, holds_ifdef h₁ he]
    exact ⟨_, rfl, Iff.rfl⟩
  · rw [if_neg h₁]
    by_cases h₂ : g.condition = .text "ifndef"
    · rw [if_pos h₂, hkey, holds_ifndef h₂ he]
      exact ⟨_, rfl, by simp⟩
    · rw [if_neg h₂]
      by_cases h₃ : g.condition = .text "if"
      · rw [if_pos ⟨h₃, rfl⟩, hneed, ok_bind, holds_if h₃ he]
        cases hs : definedSymbol? e with
        | none => exact ⟨false, rfl, by simp⟩
        | some x => exact ⟨known.contains (.text x), rfl, by simp⟩
      · rw [if_neg fun h => h₃ h.1]
        exact ⟨false, rfl, by simp [not_holds h₁ h₂ h₃]⟩

end NativeBindings.Header
