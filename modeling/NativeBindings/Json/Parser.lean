import NativeBindings.Json.Basic
import NativeBindings.OrderedMap

/-!
# Reading JSON text

The grammar is that of JSON, with `NaN`, `Infinity` and `-Infinity` as further numbers. A number
without point and exponent is an integer; a member name that is repeated keeps its first place and
its last value. A string may spell a half of a surrogate pair without the other. A text that is no
JSON is refused with the problem and the place where it was found.

Every parser works on the characters that are left. A problem carries the characters from its place
on, so the place is how many code points stand before them, and every result carries a proof that
something was consumed, which is why reading ends.
-/

namespace NativeBindings.Json

/-- What is wrong with a text that should be JSON. -/
inductive Problem where
  | byteOrderMark
  | expectingValue
  | expectingName
  | expectingColon
  | expectingComma
  | extraData
  | unterminatedString
  | controlCharacter
  | badEscape
  | badCodePoint
  deriving DecidableEq, Repr

/-- What is said about a problem, without its place. -/
def Problem.message : Problem → String
  | byteOrderMark => "Unexpected UTF-8 BOM (decode using utf-8-sig)"
  | expectingValue => "Expecting value"
  | expectingName => "Expecting property name enclosed in double quotes"
  | expectingColon => "Expecting ':' delimiter"
  | expectingComma => "Expecting ',' delimiter"
  | extraData => "Extra data"
  | unterminatedString => "Unterminated string starting at"
  | controlCharacter => "Invalid control character at"
  | badEscape => "Invalid \\escape"
  | badCodePoint => "Invalid \\uXXXX escape"

namespace Parser

/-- A problem, and the text from its place on. -/
structure Failure where
  problem : Problem
  rest : List Char

/-- What was read from the front of `s`, and the rest of `s`, which is shorter. -/
structure Parsed (s : List Char) (α : Type) where
  value : α
  rest : List Char
  shorter : rest.length < s.length

/-- What was read from a part of `s` was read from `s`. -/
def Parsed.within {s t : List Char} {α : Type} (p : Parsed t α) (h : t.length ≤ s.length) :
    Parsed s α :=
  ⟨p.value, p.rest, Nat.lt_of_lt_of_le p.shorter h⟩

/-- White space between the tokens of JSON. -/
def isSpace (c : Char) : Bool :=
  c == ' ' || c == '\t' || c == '\n' || c == '\r'

/-- The text after the white space at its front. -/
def skipSpace (s : List Char) : List Char := s.dropWhile isSpace

theorem length_skipSpace_le (s : List Char) : (skipSpace s).length ≤ s.length :=
  (List.dropWhile_sublist _).length_le

/-! ## Strings -/

/-- The value of a hexadecimal digit. -/
def hexValue? (c : Char) : Option Nat :=
  if '0' ≤ c ∧ c ≤ '9' then some (c.toNat - 48)
  else if 'a' ≤ c ∧ c ≤ 'f' then some (c.toNat - 87)
  else if 'A' ≤ c ∧ c ≤ 'F' then some (c.toNat - 55)
  else none

/-- The value of four hexadecimal digits. -/
def hexValue4? (a b c d : Char) : Option Nat := do
  return ((← hexValue? a) * 16 + (← hexValue? b)) * 256 + (← hexValue? c) * 16 + (← hexValue? d)

/-- The character that a letter after a backslash stands for. -/
def escaped? : Char → Option Char
  | '"' => some '"'
  | '\\' => some '\\'
  | '/' => some '/'
  | 'b' => some '\x08'
  | 'f' => some '\x0c'
  | 'n' => some '\n'
  | 'r' => some '\r'
  | 't' => some '\t'
  | _ => none

/-- Whether a code unit is the first half of a surrogate pair. -/
def isHighSurrogate (n : Nat) : Bool := 0xD800 ≤ n && n ≤ 0xDBFF

/-- Whether a code unit is the second half of a surrogate pair. -/
def isLowSurrogate (n : Nat) : Bool := 0xDC00 ≤ n && n ≤ 0xDFFF

/-- The code point of a surrogate pair. -/
def joinSurrogates (high low : Nat) : Nat :=
  0x10000 + (high - 0xD800) * 0x400 + (low - 0xDC00)

/-- The second half of a surrogate pair, if an escape with one follows and is not the last thing in
the text. An escape with other digits than hexadecimal ones is a problem of its own. -/
def lowSurrogate? : List Char → Except Failure (Option Nat)
  | '\\' :: 'u' :: a :: b :: c :: d :: e :: rest =>
    match hexValue4? a b c d with
    | none => .error ⟨.badCodePoint, 'u' :: a :: b :: c :: d :: e :: rest⟩
    | some n => .ok (if isLowSurrogate n then some n else none)
  | _ => .ok none

/-- The characters read so far, reversed, with a code point that an escape stands for. -/
def readPoint (n : Nat) (done : List Char) : List Char :=
  (Text.CodePoint.ofNat n).chars.reverse ++ done

/-- Reads a string up to its closing quote. `start` is the text from the opening quote on, and
`done` the characters read so far, reversed. -/
def stringBody (start done : List Char) (s : List Char) : Except Failure (Parsed s String) :=
  match s with
  | [] => .error ⟨.unterminatedString, start⟩
  | '"' :: rest => .ok ⟨String.ofList done.reverse, rest, by simp⟩
  | ['\\'] => .error ⟨.unterminatedString, start⟩
  | '\\' :: 'u' :: a :: b :: c :: d :: e :: rest =>
    match hexValue4? a b c d with
    | none => .error ⟨.badCodePoint, 'u' :: a :: b :: c :: d :: e :: rest⟩
    | some n =>
      if isHighSurrogate n then
        match lowSurrogate? (e :: rest) with
        | .error f => .error f
        | .ok none => do
          let p ← stringBody start (readPoint n done) (e :: rest)
          return p.within (by simp)
        | .ok (some low) => do
          let p ← stringBody start (readPoint (joinSurrogates n low) done) (rest.drop 5)
          return p.within (by simp; omega)
      else do
        let p ← stringBody start (readPoint n done) (e :: rest)
        return p.within (by simp)
  | '\\' :: 'u' :: rest => .error ⟨.badCodePoint, 'u' :: rest⟩
  | '\\' :: c :: rest =>
    match escaped? c with
    | none => .error ⟨.badEscape, '\\' :: c :: rest⟩
    | some c' => do
      let p ← stringBody start (c' :: done) rest
      return p.within (by simp; omega)
  | c :: rest =>
    if c.toNat < 0x20 then .error ⟨.controlCharacter, c :: rest⟩
    else do
      let p ← stringBody start (c :: done) rest
      return p.within (by simp)
termination_by s.length
decreasing_by all_goals simp; try omega

/-! ## Numbers -/

/-- Decimal digits, of ASCII only. -/
def isDigit (c : Char) : Bool := '0' ≤ c && c ≤ '9'

/-- The number that ASCII digits spell. -/
def ofDigits (ds : List Char) : Nat :=
  ds.foldl (fun n d => 10 * n + (d.toNat - 48)) 0

/-- The digits at the front, and the rest. -/
def digits (s : List Char) : List Char × List Char :=
  (s.takeWhile isDigit, s.dropWhile isDigit)

/-- A fraction at the front: the digits after the point, of which there must be one. -/
def fraction? : List Char → Option (List Char × List Char)
  | '.' :: rest =>
    if (digits rest).1.isEmpty then none else some (digits rest)
  | _ => none

/-- The sign and the rest. A missing sign is a plus. -/
def sign : List Char → Bool × List Char
  | '-' :: rest => (true, rest)
  | '+' :: rest => (false, rest)
  | s => (false, s)

/-- An exponent at the front. -/
def exponent? : List Char → Option (Int × List Char)
  | c :: rest =>
    if c == 'e' || c == 'E' then
      let (negative, rest) := sign rest
      let (ds, rest) := digits rest
      if ds.isEmpty then none
      else some (if negative then -(ofDigits ds : Int) else (ofDigits ds : Int), rest)
    else none
  | [] => none

/-- The digits before the point: a zero alone, or digits that begin with another one. -/
def whole? : List Char → Option (List Char × List Char)
  | '0' :: rest => some (['0'], rest)
  | s => if (digits s).1.isEmpty then none else some (digits s)

/-- A number at the front. -/
def number? (s : List Char) : Option (Json × List Char) := do
  let (negative, unsigned) := match s with
    | '-' :: rest => (true, rest)
    | _ => (false, s)
  let (ds, rest) ← whole? unsigned
  let fraction := fraction? rest
  let (fs, rest) := fraction.getD ([], rest)
  let exponent := exponent? rest
  let (e, rest) := exponent.getD (0, rest)
  if fraction.isNone && exponent.isNone then
    let n : Int := ofDigits ds
    return (.int (if negative then -n else n), rest)
  else
    return (.float (Binary64.ofDecimal negative (ofDigits (ds ++ fs)) (e - fs.length)), rest)

/-! ## Values -/

/-- The constants, by their spelling. -/
def constants : List (String × Json) :=
  [("null", .null), ("true", .bool true), ("false", .bool false), ("NaN", .float .nan),
   ("Infinity", .float (.infinite false)), ("-Infinity", .float (.infinite true))]

/-- Takes a spelling off the front. -/
def dropPrefix? : List Char → List Char → Option (List Char)
  | [], s => some s
  | c :: cs, d :: s => if c == d then dropPrefix? cs s else none
  | _ :: _, [] => none

/-- A constant at the front. -/
def constant? (s : List Char) : Option (Json × List Char) :=
  constants.findSome? fun (spelling, v) => (dropPrefix? spelling.toList s).map (v, ·)

/-- A constant or a number at the front. -/
def scalar? (s : List Char) : Option (Json × List Char) :=
  (constant? s).orElse fun _ => number? s

/-! ### A scalar takes at least one character -/

theorem length_of_dropPrefix? {spelling s rest : List Char}
    (h : dropPrefix? spelling s = some rest) : rest.length + spelling.length = s.length := by
  induction spelling generalizing s with
  | nil => simp [dropPrefix?] at h; simp [h]
  | cons c cs ih =>
    cases s with
    | nil => simp [dropPrefix?] at h
    | cons d s =>
      rw [dropPrefix?] at h
      split at h
      · have := ih h
        simp only [List.length_cons]
        omega
      · simp at h

theorem length_lt_of_constant? {s rest : List Char} {v : Json}
    (h : constant? s = some (v, rest)) : rest.length < s.length := by
  obtain ⟨⟨spelling, w⟩, hmem, hdrop⟩ := List.exists_of_findSome?_eq_some h
  rw [Option.map_eq_some_iff] at hdrop
  obtain ⟨r, hr, heq⟩ := hdrop
  obtain ⟨-, rfl⟩ := Prod.mk.inj heq
  have hlen := length_of_dropPrefix? hr
  have hpos : 0 < spelling.toList.length := by
    simp only [constants, List.mem_cons, Prod.mk.injEq, List.not_mem_nil, or_false] at hmem
    rcases hmem with h | h | h | h | h | h <;> rw [h.1] <;> decide
  omega

theorem length_digits_rest_le (s : List Char) : (digits s).2.length ≤ s.length :=
  (List.dropWhile_sublist _).length_le

theorem length_digits_rest_lt {s : List Char} (h : (digits s).1.isEmpty = false) :
    (digits s).2.length < s.length := by
  have hpos : 0 < (digits s).1.length := by
    cases hd : (digits s).1 with
    | nil => simp [hd] at h
    | cons _ _ => simp
  have hsum := congrArg List.length (List.takeWhile_append_dropWhile (p := isDigit) (l := s))
  rw [List.length_append] at hsum
  simp only [digits] at hpos ⊢
  omega

theorem length_lt_of_whole? {s ds rest : List Char} (h : whole? s = some (ds, rest)) :
    rest.length < s.length := by
  unfold whole? at h
  split at h
  · simp only [Option.some.injEq, Prod.mk.injEq] at h
    simp [← h.2]
  · split at h
    · simp at h
    · rename_i hd
      rw [Option.some.injEq] at h
      have hlt := length_digits_rest_lt (Bool.eq_false_iff.mpr hd)
      rw [h] at hlt
      exact hlt

theorem length_fraction_rest_le (s : List Char) :
    ((fraction? s).getD ([], s)).2.length ≤ s.length := by
  unfold fraction?
  split
  · rename_i rest
    have := length_digits_rest_le rest
    split <;> simp
    omega
  · simp

theorem length_sign_rest_le (s : List Char) : (sign s).2.length ≤ s.length := by
  unfold sign
  split <;> simp

theorem length_exponent_rest_le (s : List Char) :
    ((exponent? s).getD (0, s)).2.length ≤ s.length := by
  unfold exponent?
  split
  · rename_i c rest
    have hs := length_sign_rest_le rest
    have hd := length_digits_rest_le (sign rest).2
    split
    · simp only
      split <;> simp
      omega
    · simp
  · simp

theorem length_lt_of_number? {s rest : List Char} {v : Json}
    (h : number? s = some (v, rest)) : rest.length < s.length := by
  unfold number? at h
  simp only [Option.bind_eq_bind, Option.bind_eq_some_iff, Prod.exists] at h
  obtain ⟨ds, afterWhole, hwhole, h⟩ := h
  have h1 := length_lt_of_whole? hwhole
  have h2 := length_fraction_rest_le afterWhole
  have h3 := length_exponent_rest_le ((fraction? afterWhole).getD ([], afterWhole)).2
  have h4 : rest = ((exponent? ((fraction? afterWhole).getD ([], afterWhole)).2).getD
      (0, ((fraction? afterWhole).getD ([], afterWhole)).2)).2 := by
    split at h <;> simp at h <;> simp [← h.2]
  have h5 : (match s with
      | '-' :: rest => (true, rest)
      | _ => (false, s)).2.length ≤ s.length := by
    split <;> simp
  rw [h4]
  omega

theorem length_lt_of_scalar? {s rest : List Char} {v : Json}
    (h : scalar? s = some (v, rest)) : rest.length < s.length := by
  unfold scalar? at h
  cases hc : constant? s with
  | some p =>
    simp [hc] at h
    exact length_lt_of_constant? (hc.trans (by rw [h]))
  | none =>
    simp [hc] at h
    exact length_lt_of_number? h

/-- Reads a value that is no string, array or object. -/
def scalar (s : List Char) : Except Failure (Parsed s Json) :=
  match h : scalar? s with
  | none => .error ⟨.expectingValue, s⟩
  | some (v, rest) => .ok ⟨v, rest, length_lt_of_scalar? h⟩

mutual

/-- Reads a value. White space around it is left to the caller. -/
def value (s : List Char) : Except Failure (Parsed s Json) :=
  match s with
  | '"' :: rest => do
    let p ← stringBody ('"' :: rest) [] rest
    return ⟨.str p.value, p.rest, by have := p.shorter; simp; omega⟩
  | '[' :: rest =>
    match h : skipSpace rest with
    | ']' :: rest' =>
      .ok ⟨.arr [], rest', by
        have := length_skipSpace_le rest
        simp [h] at this ⊢; omega⟩
    | _ => do
      let p ← items (skipSpace rest)
      return ⟨.arr p.value, p.rest, by
        have := length_skipSpace_le rest
        have := p.shorter
        simp; omega⟩
  | '\x7b' :: rest =>
    match h : skipSpace rest with
    | '\x7d' :: rest' =>
      .ok ⟨.obj [], rest', by
        have := length_skipSpace_le rest
        simp [h] at this ⊢; omega⟩
    | _ => do
      let p ← members (skipSpace rest)
      return ⟨.obj (OrderedMap.ofList p.value).entries, p.rest, by
        have := length_skipSpace_le rest
        have := p.shorter
        simp; omega⟩
  | s => scalar s
termination_by 2 * s.length
decreasing_by
  all_goals
    have := length_skipSpace_le rest
    simp only [List.length_cons]
    omega

/-- Reads the items of an array up to its closing bracket. -/
def items (s : List Char) : Except Failure (Parsed s (List Json)) := do
  let p ← value s
  have hp := p.shorter
  have hs := length_skipSpace_le p.rest
  match h : skipSpace p.rest with
  | ']' :: rest => return ⟨[p.value], rest, by simp [h] at hs; omega⟩
  | ',' :: rest =>
    have ht := length_skipSpace_le rest
    let q ← items (skipSpace rest)
    return ⟨p.value :: q.value, q.rest, by
      have := q.shorter
      simp [h] at hs; omega⟩
  | rest => .error ⟨.expectingComma, rest⟩
termination_by 2 * s.length + 1
decreasing_by
  · omega
  · simp [h] at hs
    omega

/-- Reads the members of an object up to its closing brace. -/
def members (s : List Char) : Except Failure (Parsed s (List (String × Json))) :=
  match s with
  | '"' :: afterQuote => do
    let name ← stringBody ('"' :: afterQuote) [] afterQuote
    have hn := name.shorter
    have hc := length_skipSpace_le name.rest
    match hcolon : skipSpace name.rest with
    | ':' :: afterColon => do
      have ha := length_skipSpace_le afterColon
      let p ← value (skipSpace afterColon)
      have hp := p.shorter
      have hs := length_skipSpace_le p.rest
      match h : skipSpace p.rest with
      | '\x7d' :: rest =>
        return ⟨[(name.value, p.value)], rest, by
          simp [h] at hs; simp [hcolon] at hc; simp; omega⟩
      | ',' :: rest =>
        have ht := length_skipSpace_le rest
        let q ← members (skipSpace rest)
        return ⟨(name.value, p.value) :: q.value, q.rest, by
          have := q.shorter
          simp [h] at hs; simp [hcolon] at hc; simp; omega⟩
      | rest => .error ⟨.expectingComma, rest⟩
    | rest => .error ⟨.expectingColon, rest⟩
  | s => .error ⟨.expectingName, s⟩
termination_by 2 * s.length + 1
decreasing_by
  · simp [hcolon] at hc
    simp only [List.length_cons]
    omega
  · simp [h] at hs
    simp [hcolon] at hc
    simp only [List.length_cons]
    omega

end

/-- Reads a text that holds one value and white space around it. -/
def document (s : List Char) : Except Failure Json := do
  if s.head? = some '\ufeff' then throw ⟨.byteOrderMark, s⟩
  let p ← value (skipSpace s)
  match skipSpace p.rest with
  | [] => return p.value
  | rest => throw ⟨.extraData, rest⟩

end Parser

/-- Why a text is no JSON: the problem, and where it was found. Lines and columns count from one,
only the line feed ends a line, and columns and offsets count code points. -/
structure ParseError where
  problem : Problem
  line : Nat
  column : Nat
  offset : Nat
  deriving DecidableEq, Repr

/-- The problem and its place. -/
def ParseError.message (e : ParseError) : String :=
  e.problem.message ++ ": line " ++ toString e.line ++ " column " ++ toString e.column ++
    " (char " ++ toString e.offset ++ ")"

/-- The place of a failure in the whole text. -/
def Parser.Failure.locate (whole : List Char) (f : Failure) : ParseError :=
  let before := whole.take (whole.length - f.rest.length)
  let current := (before.reverse.takeWhile (· != '\n')).reverse
  ⟨f.problem, before.count '\n' + 1, (Text.pointsOf current).length + 1,
    (Text.pointsOf before).length⟩

/-- Reads a JSON text. -/
def parse (s : String) : Except ParseError Json :=
  match Parser.document s.toList with
  | .ok v => .ok v
  | .error f => .error (f.locate s.toList)

end NativeBindings.Json
