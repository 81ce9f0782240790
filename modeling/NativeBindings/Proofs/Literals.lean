import Mathlib.Data.List.DropRight
import Mathlib.Data.Nat.Digits.Defs
import NativeBindings.CSharp.Literal
import NativeBindings.Proofs.Guards

/-!
# Integer literals

A literal is written in one language and read in another one. Both read hexadecimal digits
after `0x` in the same way, but they differ after another leading zero: there the digits are
octal in C and decimal in C#. How a literal is read is said here apart from how texts are
recognised, with the base after a leading zero as a parameter.

What the two recognisers let through has the shape of a number (`NumberText`), and where its
digits are those of ASCII the shape says what it is read as.
-/

namespace NativeBindings

open Text

/-! ## Literals -/

namespace Literal

/-- The value of a digit of ASCII, letters included. -/
def digitOf? (c : Char) : Option Nat :=
  if c.isDigit then some (c.toNat - 48)
  else if 'a' ≤ c ∧ c ≤ 'f' then some (c.toNat - 87)
  else if 'A' ≤ c ∧ c ≤ 'F' then some (c.toNat - 55)
  else none

/-- The number of which these are the digits in some base. -/
def numeral? (base : Nat) (cs : List Char) : Option Nat :=
  if cs = [] then none
  else (cs.mapM fun c => (digitOf? c).filter (· < base)).map fun ds => Nat.ofDigits base ds.reverse

/-- The number that a literal stands for, read with this base after a leading zero. -/
def magnitude? (afterZero : Nat) : List Char → Option Nat
  | '0' :: 'x' :: digits | '0' :: 'X' :: digits => numeral? 16 digits
  | '0' :: digits => numeral? afterZero ('0' :: digits)
  | digits => numeral? 10 digits

/-- The number that a literal with an optional sign stands for. -/
def value? (afterZero : Nat) (s : String) : Option Int :=
  match s.toList with
  | '+' :: cs => (magnitude? afterZero cs).map Int.ofNat
  | '-' :: cs => (magnitude? afterZero cs).map fun n : Nat => -(n : Int)
  | cs => (magnitude? afterZero cs).map Int.ofNat

/-- The number that a text stands for in C, where a leading zero means octal digits. -/
def inC? : String → Option Int := value? 8

/-- The number that a text stands for in C#, where a leading zero means nothing. -/
def inCSharp? : String → Option Int := value? 10

example : (inC? "-0755", inCSharp? "-0755", inC? "0xFf", inCSharp? "0xFf", inC? "08") =
    (some (-493), some (-755), some 255, some 255, none) := by decide

/-! ### Digits -/

theorem toNat_of_isDigit {c : Char} (h : c.isDigit) : 48 ≤ c.toNat ∧ c.toNat ≤ 57 := by
  simp only [Char.isDigit, Bool.and_eq_true, decide_eq_true_eq, ge_iff_le,
    UInt32.le_iff_toNat_le] at h
  exact h

theorem toNat_of_le {a b c : Char} (h : a ≤ c ∧ c ≤ b) : a.toNat ≤ c.toNat ∧ c.toNat ≤ b.toNat := by
  simp only [Char.le_def, UInt32.le_iff_toNat_le] at h
  exact h

/-- A digit of ASCII is a decimal digit, and none of another script is meant by it. -/
theorem digitValue?_of_isDigit {c : Char} (h : c.isDigit) :
    digitValue? c = (digitOf? c).filter (· < 10) := by
  obtain ⟨hlow, hhigh⟩ := toNat_of_isDigit h
  have hfirst : digitZeros.find? (fun z => decide (z ≤ c.toNat) && decide (c.toNat < z + 10)) =
      some 48 := by
    rw [digitZeros, List.find?_cons_of_pos]
    simp only [Bool.and_eq_true, decide_eq_true_eq]
    omega
  have hsmall : c.toNat - 48 < 10 := by omega
  rw [digitValue?, hfirst, digitOf?, if_pos h]
  exact (if_pos (decide_eq_true hsmall)).symm

/-- The digits that the recogniser of hexadecimal literals knows are those of base sixteen. -/
theorem digitOf?_of_isHexDigit {c : Char} (h : CSharp.isHexDigit c = true) :
    ∃ v, digitOf? c = some v ∧ v < 16 := by
  rw [CSharp.isHexDigit, Bool.or_eq_true, Bool.or_eq_true, Bool.and_eq_true, Bool.and_eq_true,
    decide_eq_true_eq, decide_eq_true_eq, decide_eq_true_eq, decide_eq_true_eq] at h
  rw [digitOf?]
  split
  · rename_i hdigit
    have := toNat_of_isDigit hdigit
    exact ⟨_, rfl, by omega⟩
  · rename_i hdigit
    split
    · rename_i hlower
      have hrange := toNat_of_le hlower
      have hbounds : 'a'.toNat = 97 ∧ 'f'.toNat = 102 := by decide
      exact ⟨_, rfl, by omega⟩
    · rename_i hlower
      have hupper : 'A' ≤ c ∧ c ≤ 'F' := by
        rcases h with (hd | hl) | hu
        · exact absurd hd hdigit
        · exact absurd hl hlower
        · exact hu
      have hrange := toNat_of_le hupper
      have hbounds : 'A'.toNat = 65 ∧ 'F'.toNat = 70 := by decide
      rw [if_pos hupper]
      exact ⟨_, rfl, by omega⟩

/-! ### Numerals -/

theorem mapM_congr {f g : Char → Option Nat} {cs : List Char} (h : ∀ c ∈ cs, f c = g c) :
    cs.mapM f = cs.mapM g := by
  induction cs with
  | nil => rfl
  | cons c rest ih =>
      rw [List.mapM_cons, List.mapM_cons, h c List.mem_cons_self,
        ih fun x hx => h x (List.mem_cons_of_mem c hx)]

theorem numberOfDigits_eq (ds : List Nat) : numberOfDigits ds = Nat.ofDigits 10 ds.reverse := by
  rw [Nat.ofDigits_eq_foldr, List.foldr_reverse, numberOfDigits]
  congr 1
  funext n d
  exact Nat.add_comm _ _

/-- Digits of ASCII spell the same number as digits of any script. -/
theorem numeral?_ten {cs : List Char} (hne : cs ≠ []) (h : ∀ c ∈ cs, c.isDigit) :
    numeral? 10 cs = (cs.mapM digitValue?).map numberOfDigits := by
  rw [numeral?, if_neg hne, mapM_congr fun c hc => (digitValue?_of_isDigit (h c hc)).symm]
  congr 1
  funext ds
  exact (numberOfDigits_eq ds).symm

/-- Some hexadecimal digits are a number with at most four bits for each. -/
theorem numeral?_sixteen {cs : List Char} (hne : cs ≠ [])
    (h : ∀ c ∈ cs, CSharp.isHexDigit c = true) :
    ∃ n, numeral? 16 cs = some n ∧ n < 16 ^ cs.length := by
  have hdigits : ∃ ds : List Nat, (cs.mapM fun c => (digitOf? c).filter (· < 16)) = some ds ∧
      ds.length = cs.length ∧ ∀ d ∈ ds, d < 16 := by
    clear hne
    induction cs with
    | nil => exact ⟨[], rfl, rfl, fun _ hd => absurd hd (by simp)⟩
    | cons c rest ih =>
        obtain ⟨ds, hds, hlen, hlt⟩ := ih fun x hx => h x (List.mem_cons_of_mem c hx)
        obtain ⟨v, hv, hv16⟩ := digitOf?_of_isHexDigit (h c List.mem_cons_self)
        have hsmall : (digitOf? c).filter (· < 16) = some v := by
          rw [hv]
          exact if_pos (decide_eq_true hv16)
        refine ⟨v :: ds, ?_, congrArg (· + 1) hlen, List.forall_mem_cons.mpr ⟨hv16, hlt⟩⟩
        rw [List.mapM_cons, hsmall, hds]
        rfl
  obtain ⟨ds, hds, hlen, hlt⟩ := hdigits
  refine ⟨Nat.ofDigits 16 ds.reverse, by rw [numeral?, if_neg hne, hds]; rfl, ?_⟩
  rw [← hlen, ← List.length_reverse]
  exact Nat.ofDigits_lt_base_pow_length (by decide) fun d hd => hlt d (List.mem_reverse.mp hd)

/-! ### Numbers -/

/-- Digits of ASCII are read in base ten, unless a leading zero gives them another base. -/
theorem magnitude?_of_isDigit {afterZero : Nat} {cs : List Char} (h : ∀ c ∈ cs, c.isDigit)
    (hzero : afterZero = 10 ∨ cs.head? ≠ some '0') : magnitude? afterZero cs = numeral? 10 cs := by
  unfold magnitude?
  split
  · exact absurd (h 'x' (by simp)) (by decide)
  · exact absurd (h 'X' (by simp)) (by decide)
  · rcases hzero with rfl | hzero
    · rfl
    · exact absurd rfl hzero
  · rfl

/-- The signs that a number may have. -/
def signs : List (List Char) := [[], ['+'], ['-']]

/-- The number with its sign. -/
def signed (sign : List Char) (n : Nat) : Int := if sign = ['-'] then -(n : Int) else n

theorem value?_eq {afterZero : Nat} {s : String} {sign digits : List Char}
    (htext : s.toList = sign ++ digits) (hsign : sign ∈ signs) (hne : digits ≠ [])
    (h : ∀ c ∈ digits, c.isDigit) :
    value? afterZero s = (magnitude? afterZero digits).map (signed sign) := by
  obtain ⟨d, rest, rfl⟩ := List.exists_cons_of_ne_nil hne
  have hdigit : d.isDigit := h d List.mem_cons_self
  rw [value?, htext]
  simp only [signs, List.mem_cons, List.not_mem_nil, or_false] at hsign
  rcases hsign with rfl | rfl | rfl
  · -- a digit is no sign
    rw [List.nil_append]
    split
    · rename_i heq
      rw [(List.cons.inj heq).1] at hdigit
      exact absurd hdigit (by decide)
    · rename_i heq
      rw [(List.cons.inj heq).1] at hdigit
      exact absurd hdigit (by decide)
    · rfl
  · rfl
  · rfl

/-- The value of the digits behind a sign. -/
theorem signed_of_value {cs sign digits : List Char} (hminus : cs.head? = some '-' ↔ sign = ['-'])
    {n : Int} (h : (if digits.isEmpty then none else do
      let magnitude := numberOfDigits (← digits.mapM digitValue?)
      return if cs.head? = some '-' then -(magnitude : Int) else magnitude) = some n) :
    digits ≠ [] ∧ ∃ ds, digits.mapM digitValue? = some ds ∧
      n = signed sign (numberOfDigits ds) := by
  cases hempty : digits.isEmpty with
  | true =>
      rw [hempty, if_pos rfl] at h
      exact absurd h (by simp)
  | false =>
      rw [hempty, if_neg (by simp)] at h
      obtain ⟨ds, hds, hn⟩ := Option.bind_eq_some_iff.mp h
      refine ⟨by simpa using hempty, ds, hds, ?_⟩
      rw [signed, ← Option.some.inj hn]
      simp only [hminus]

/-- What a text with a decimal value looks like. -/
theorem decimalValue?_eq_some {cs : List Char} {n : Int} (h : CSharp.decimalValue? cs = some n) :
    ∃ sign ∈ signs, ∃ digits, cs = sign ++ digits ∧ digits ≠ [] ∧
      ∃ ds, digits.mapM digitValue? = some ds ∧ n = signed sign (numberOfDigits ds) := by
  unfold CSharp.decimalValue? at h
  dsimp only at h
  split at h
  · exact ⟨['+'], by decide, _, rfl, signed_of_value (by simp) h⟩
  · exact ⟨['-'], by decide, _, rfl, signed_of_value (by simp) h⟩
  · rename_i hplus hminus
    refine ⟨[], by decide, cs, rfl, signed_of_value ⟨fun hhead => ?_, fun hnone => ?_⟩ h⟩
    · obtain ⟨rest, rfl⟩ := List.head?_eq_some_iff.mp hhead
      exact absurd rfl (hminus rest)
    · exact absurd hnone (by simp)

theorem isDecimalDigit_of_mapM {cs : List Char} {ds : List Nat}
    (h : cs.mapM digitValue? = some ds) : ∀ c ∈ cs, isDecimalDigit c = true := by
  induction cs generalizing ds with
  | nil => exact fun _ hc => absurd hc (by simp)
  | cons c rest ih =>
      rw [List.mapM_cons] at h
      obtain ⟨d, hd, h⟩ := Option.bind_eq_some_iff.mp h
      obtain ⟨more, hmore, _⟩ := Option.bind_eq_some_iff.mp h
      refine List.forall_mem_cons.mpr ⟨?_, ih hmore⟩
      rw [isDecimalDigit, hd]
      rfl

/-- A number as it is written: up to sixteen hexadecimal digits, or decimal ones with a sign. -/
inductive NumberText (s : String) : Prop where
  /-- Hexadecimal digits mean the same in both languages. They may take all 64 bits. -/
  | hex {digits : List Char} {n : Nat} (text : s.toList = '0' :: 'x' :: digits)
      (few : digits.length ≤ 16) (small : n < 2 ^ 64)
      (value : inC? s = some (n : Int) ∧ inCSharp? s = some (n : Int))
  /-- Decimal digits of ASCII fit into 64 bits with the sign, and mean the same in both languages
  unless there is a zero before them. -/
  | decimal {sign digits : List Char} (text : s.toList = sign ++ digits) (hsign : sign ∈ signs)
      (nonempty : digits ≠ []) (decimal : ∀ c ∈ digits, isDecimalDigit c = true)
      (value : (∀ c ∈ digits, c.isDigit) → ∃ n, inCSharp? s = some n ∧
        CSharp.minInt64 ≤ n ∧ n ≤ CSharp.maxInt64 ∧
        ((digits.head? = some '0' → digits = ['0']) → inC? s = some n))

/-- Behind a sign or without one, digits begin with a sign or a digit. -/
theorem head?_signs {sign digits : List Char} (hsign : sign ∈ signs) (hne : digits ≠ []) :
    ∃ c, (sign ++ digits).head? = some c ∧ (c = '+' ∨ c = '-' ∨ c ∈ digits) := by
  obtain ⟨d, rest, rfl⟩ := List.exists_cons_of_ne_nil hne
  simp only [signs, List.mem_cons, List.not_mem_nil, or_false] at hsign
  rcases hsign with rfl | rfl | rfl
  · exact ⟨d, rfl, .inr (.inr List.mem_cons_self)⟩
  · exact ⟨'+', rfl, .inl rfl⟩
  · exact ⟨'-', rfl, .inr (.inl rfl)⟩

theorem NumberText.head {s : String} (h : NumberText s) :
    ∃ c, s.toList.head? = some c ∧ (c = '+' ∨ c = '-' ∨ isDecimalDigit c = true) := by
  cases h with
  | hex text few small value =>
      refine ⟨'0', ?_, .inr (.inr (by decide))⟩
      rw [text, List.head?_cons]
  | decimal text hsign nonempty decimal value =>
      obtain ⟨c, hc, hkind⟩ := head?_signs hsign nonempty
      exact ⟨c, text ▸ hc, hkind.imp_right (Or.imp_right (decimal c))⟩

/-- There are no blanks around the text. -/
def Stripped (s : String) : Prop := stripChars s.toList = s.toList

theorem stripChars_stripChars (cs : List Char) : stripChars (stripChars cs) = stripChars cs := by
  have hend : stripEndChars (stripChars cs) = stripChars cs :=
    List.rdropWhile_idempotent isBlank (cs.dropWhile isBlank)
  have hfront : (stripChars cs).dropWhile isBlank = stripChars cs :=
    Header.dropWhile_of_head fun _ hc => Header.isBlank_of_head?_stripChars hc
  rw [stripChars, hfront, hend]

theorem stripped_strip (s : String) : Stripped (strip s) := by
  rw [Stripped, strip, String.toList_ofList]
  exact stripChars_stripChars s.toList

theorem numberText_of_isHexLiteral {s : String} (hstripped : Stripped s)
    (h : CSharp.isHexLiteral s = true) : NumberText s := by
  rw [CSharp.isHexLiteral, hstripped] at h
  split at h
  · rename_i digits htext
    simp only [Bool.and_eq_true, Bool.not_eq_true', List.isEmpty_eq_false_iff, decide_eq_true_eq,
      List.all_eq_true] at h
    obtain ⟨⟨hne, hfew⟩, hdigits⟩ := h
    obtain ⟨n, hn, hsmall⟩ := numeral?_sixteen hne hdigits
    have hvalue : ∀ afterZero, value? afterZero s = some (n : Int) := by
      intro afterZero
      rw [value?, htext]
      show (numeral? 16 digits).map Int.ofNat = _
      rw [hn]
      rfl
    have hbits : (16 : Nat) ^ digits.length ≤ 2 ^ 64 :=
      Nat.pow_le_pow_right (by decide) hfew
    exact .hex htext hfew (by omega) ⟨hvalue 8, hvalue 10⟩
  · exact absurd h (by simp)

theorem numberText_of_isIntegerLiteral {s : String} (hstripped : Stripped s)
    (h : CSharp.isIntegerLiteral s = true) : NumberText s := by
  rw [CSharp.isIntegerLiteral, hstripped] at h
  split at h
  · rename_i n hn
    rw [Bool.and_eq_true, decide_eq_true_eq, decide_eq_true_eq] at h
    obtain ⟨sign, hsign, digits, htext, hne, ds, hds, rfl⟩ := decimalValue?_eq_some hn
    refine .decimal htext hsign hne (isDecimalDigit_of_mapM hds) fun hascii => ?_
    have hnumeral : numeral? 10 digits = some (numberOfDigits ds) := by
      rw [numeral?_ten hne hascii, hds]
      rfl
    refine ⟨_, ?_, h.1, h.2, fun hzero => ?_⟩
    · rw [inCSharp?, value?_eq htext hsign hne hascii, magnitude?_of_isDigit hascii (.inl rfl),
        hnumeral]
      rfl
    · rw [inC?, value?_eq htext hsign hne hascii]
      by_cases hhead : digits.head? = some '0'
      · -- zero itself is the same in every base
        have hdigits := hzero hhead
        have hsame : magnitude? 8 digits = numeral? 10 digits := by
          rw [hdigits]
          decide
        rw [hsame, hnumeral]
        rfl
      · rw [magnitude?_of_isDigit hascii (.inr hhead), hnumeral]
        rfl
  · exact absurd h (by simp)

end Literal

end NativeBindings
