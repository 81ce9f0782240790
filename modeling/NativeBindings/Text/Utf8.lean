import NativeBindings.Text.Quoted

/-!
# Texts as bytes

A description is stored as UTF-8. A text that is not well-formed is refused at its first faulty
sequence: a byte that starts none, a byte that does not go on with the one before it, or an end
in the middle. Overlong forms, surrogates and code points past U+10FFFF are excluded by the range
that the first byte leaves for the second one.

A text is written as UTF-8 as well. There are bytes for characters only, so a text with a half of a
surrogate pair is refused at the first one.

Line ends are unified after decoding, so that a description reads the same wherever it was written.
-/

namespace NativeBindings.Text.Utf8

/-- What is wrong with a sequence of bytes. -/
inductive Problem where
  | invalidStart
  | invalidContinuation
  | unexpectedEnd
  deriving DecidableEq, Repr

/-- What is said about a problem, without its place. -/
def Problem.message : Problem → String
  | invalidStart => "invalid start byte"
  | invalidContinuation => "invalid continuation byte"
  | unexpectedEnd => "unexpected end of data"

/-- The first faulty sequence: where it starts, its first byte, and how many bytes belong to it. -/
structure Fault where
  problem : Problem
  position : Nat
  first : UInt8
  length : Nat
  deriving DecidableEq, Repr

/-- The fault with the bytes that it is about. -/
def Fault.message (f : Fault) : String :=
  let place :=
    if f.length = 1 then
      "byte 0x" ++ String.ofList (hexDigits 2 f.first.toNat) ++ " in position " ++
        toString f.position
    else
      "bytes in position " ++ toString f.position ++ "-" ++ toString (f.position + f.length - 1)
  "'utf-8' codec can't decode " ++ place ++ ": " ++ f.problem.message

/-- An unfinished sequence: its first byte, how many bytes were read, the bits so far, the range
of the next byte, and how many bytes follow that one. -/
structure Pending where
  first : UInt8
  length : Nat
  bits : Nat
  low : UInt8
  high : UInt8
  more : Nat

/-- The sequence of several bytes that a byte starts. -/
def lead? (b : UInt8) : Option Pending :=
  let n := b.toNat
  if 0xC2 ≤ n && n ≤ 0xDF then some ⟨b, 1, n - 0xC0, 0x80, 0xBF, 0⟩
  else if n = 0xE0 then some ⟨b, 1, n - 0xE0, 0xA0, 0xBF, 1⟩
  else if n = 0xED then some ⟨b, 1, n - 0xE0, 0x80, 0x9F, 1⟩
  else if 0xE1 ≤ n && n ≤ 0xEF then some ⟨b, 1, n - 0xE0, 0x80, 0xBF, 1⟩
  else if n = 0xF0 then some ⟨b, 1, n - 0xF0, 0x90, 0xBF, 2⟩
  else if 0xF1 ≤ n && n ≤ 0xF3 then some ⟨b, 1, n - 0xF0, 0x80, 0xBF, 2⟩
  else if n = 0xF4 then some ⟨b, 1, n - 0xF0, 0x80, 0x8F, 2⟩
  else none

/-- How far decoding has come: the bytes consumed, the characters so far in reverse, and the
sequence that is not finished. -/
structure Progress where
  consumed : Nat := 0
  decoded : List Char := []
  pending : Option Pending := none

/-- Takes the next byte. -/
def Progress.step (p : Progress) (b : UInt8) : Except Fault Progress :=
  match p.pending with
  | none =>
    if b.toNat < 0x80 then
      .ok ⟨p.consumed + 1, Char.ofNat b.toNat :: p.decoded, none⟩
    else
      match lead? b with
      | some s => .ok ⟨p.consumed + 1, p.decoded, some s⟩
      | none => .error ⟨.invalidStart, p.consumed, b, 1⟩
  | some s =>
    if s.low ≤ b && b ≤ s.high then
      let bits := s.bits * 64 + (b.toNat - 0x80)
      match s.more with
      | 0 => .ok ⟨p.consumed + 1, Char.ofNat bits :: p.decoded, none⟩
      | more + 1 =>
        .ok ⟨p.consumed + 1, p.decoded, some ⟨s.first, s.length + 1, bits, 0x80, 0xBF, more⟩⟩
    else .error ⟨.invalidContinuation, p.consumed - s.length, s.first, s.length⟩

/-- The characters of a text that ends here. -/
def Progress.finish (p : Progress) : Except Fault (List Char) :=
  match p.pending with
  | none => .ok p.decoded.reverse
  | some s => .error ⟨.unexpectedEnd, p.consumed - s.length, s.first, s.length⟩

/-- The text that bytes spell. -/
def decode (bytes : List UInt8) : Except Fault String := do
  let progress ← bytes.foldlM Progress.step {}
  return ofChars (← progress.finish)

/-! ## Encoding -/

/-- The first halves in a text, for which there are no bytes: how many code points stand before
them, the first of them, and how many stand in a row. -/
structure EncodeFault where
  position : Nat
  first : Fin 0x800
  length : Nat
  deriving DecidableEq, Repr

/-- The fault with the halves that it is about. -/
def EncodeFault.message (f : EncodeFault) : String :=
  let place :=
    if f.length = 1 then
      "character '" ++ String.ofList (escapedHalf f.first) ++ "' in position " ++
        toString f.position
    else
      "characters in position " ++ toString f.position ++ "-" ++
        toString (f.position + f.length - 1)
  "'utf-8' codec can't encode " ++ place ++ ": surrogates not allowed"

/-- The characters of a text that has nothing else. -/
def characters (s : String) : Except EncodeFault String :=
  let points := codePoints s
  match points.dropWhile CodePoint.isChar with
  | .half n :: rest =>
    .error ⟨(points.takeWhile CodePoint.isChar).length, n,
      1 + (rest.takeWhile fun p => !p.isChar).length⟩
  | _ => .ok (String.ofList (points.filterMap CodePoint.char?))

/-- The bytes of a text. -/
def encode (s : String) : Except EncodeFault (List UInt8) := do
  return (← characters s).toUTF8.toList

/-- How many bytes code points take, or would take. -/
def pointsByteCount : List CodePoint → Nat
  | [] => 0
  | p :: rest => p.byteCount + pointsByteCount rest

/-- How many bytes a text takes, or would take. -/
def byteCount (s : String) : Nat := pointsByteCount (codePoints s)

end NativeBindings.Text.Utf8

namespace NativeBindings.Text

/-- The characters with every line end, be it a carriage return, a line feed or both, as a line
feed. -/
def unifyLineEndChars : List Char → List Char
  | [] => []
  | '\r' :: '\n' :: rest => '\n' :: unifyLineEndChars rest
  | '\r' :: rest => '\n' :: unifyLineEndChars rest
  | c :: rest => c :: unifyLineEndChars rest

/-- The text with every line end as a line feed. -/
def unifyLineEnds (s : String) : String :=
  String.ofList (unifyLineEndChars s.toList)

end NativeBindings.Text
