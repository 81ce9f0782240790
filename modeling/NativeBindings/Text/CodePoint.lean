/-!
# The code points of a text

A text is a sequence of code points. Nearly all of them are characters. The others are halves of
surrogate pairs: JSON can spell one half without the other, and then it is kept, though no bytes
stand for it.

A text is held as a string. A character stands for itself; a half is written as a mark with a
stand-in behind it, and the mark itself is written twice. A mark with anything else behind it stands
for itself, so every string is a text. Marks and stand-ins are like halves in that none of them is a
letter, a digit, a blank, a line end or anything else that is looked for, so only what counts, shows
or encodes code points has to tell them apart.
-/

namespace NativeBindings.Text

/-- A code point: a character, or one half of a surrogate pair without the other, counted from the
first half that there is. -/
inductive CodePoint where
  | char (c : Char)
  | half (n : Fin 0x800)
  deriving DecidableEq, Repr

/-- The character that gives the next one another meaning. -/
def mark : Char := Char.ofNat 0xFFFF

/-- The character that stands for a half behind a mark. -/
def standIn (n : Fin 0x800) : Char := Char.ofNat (0xE000 + n)

/-- What a character stands for behind a mark, if it has a meaning there. -/
def marked? (c : Char) : Option CodePoint :=
  if c = mark then some (.char mark)
  else if h : 0xE000 ≤ c.toNat ∧ c.toNat < 0xE000 + 0x800 then
    some (.half ⟨c.toNat - 0xE000, by omega⟩)
  else none

/-- The code points that characters spell. -/
def pointsOf : List Char → List CodePoint
  | [] => []
  | [c] => [.char c]
  | c :: d :: rest =>
    if c = mark then
      match marked? d with
      | some p => p :: pointsOf rest
      | none => .char c :: pointsOf (d :: rest)
    else .char c :: pointsOf (d :: rest)

/-- The code points of a text. -/
def codePoints (s : String) : List CodePoint := pointsOf s.toList

namespace CodePoint

/-- The code point of a number. -/
def ofNat (n : Nat) : CodePoint :=
  if h : 0xD800 ≤ n ∧ n < 0xD800 + 0x800 then .half ⟨n - 0xD800, by omega⟩
  else .char (Char.ofNat n)

/-- The number of a code point. -/
def toNat : CodePoint → Nat
  | char c => c.toNat
  | half n => 0xD800 + n

/-- The character that a code point is, if it is one. -/
def char? : CodePoint → Option Char
  | char c => some c
  | half _ => none

/-- Whether a code point is a character. -/
def isChar (p : CodePoint) : Bool := p.char?.isSome

/-- How many bytes a code point takes, or would take. -/
def byteCount : CodePoint → Nat
  | char c => c.utf8Size
  | half _ => 3

/-- The characters that spell a code point. -/
def chars : CodePoint → List Char
  | char c => if c = mark then [mark, mark] else [c]
  | half n => [mark, standIn n]

end CodePoint

/-- The text of code points. -/
def ofCodePoints (ps : List CodePoint) : String := String.ofList (ps.flatMap CodePoint.chars)

/-- The text of characters. -/
def ofChars (cs : List Char) : String := ofCodePoints (cs.map .char)

theorem toNat_standIn (n : Fin 0x800) : (standIn n).toNat = 0xE000 + n := by
  have hvalid : (0xE000 + n.val).isValidChar := by
    have := n.isLt
    simp only [Nat.isValidChar]
    omega
  rw [standIn, Char.ofNat, dif_pos hvalid]
  rfl

theorem standIn_ne_mark (n : Fin 0x800) : standIn n ≠ mark := by
  intro h
  have hnat := congrArg Char.toNat h
  rw [toNat_standIn, show mark.toNat = 0xFFFF by decide] at hnat
  have := n.isLt
  omega

@[simp]
theorem marked?_mark : marked? mark = some (.char mark) := rfl

@[simp]
theorem marked?_standIn (n : Fin 0x800) : marked? (standIn n) = some (.half n) := by
  have hrange : 0xE000 ≤ (standIn n).toNat ∧ (standIn n).toNat < 0xE000 + 0x800 := by
    rw [toNat_standIn]
    omega
  rw [marked?, if_neg (standIn_ne_mark n), dif_pos hrange]
  simp [toNat_standIn]

theorem pointsOf_mark_cons {c : Char} {p : CodePoint} (h : marked? c = some p)
    (rest : List Char) : pointsOf (mark :: c :: rest) = p :: pointsOf rest := by
  rw [pointsOf, if_pos rfl, h]

theorem pointsOf_cons {c : Char} (h : c ≠ mark) (rest : List Char) :
    pointsOf (c :: rest) = .char c :: pointsOf rest := by
  cases rest with
  | nil => rfl
  | cons d rest => rw [pointsOf, if_neg h]

theorem pointsOf_chars_append (p : CodePoint) (rest : List Char) :
    pointsOf (p.chars ++ rest) = p :: pointsOf rest := by
  cases p with
  | char c =>
      rw [CodePoint.chars]
      split
      · rename_i hmark
        rw [hmark]
        exact pointsOf_mark_cons marked?_mark rest
      · rename_i hmark
        exact pointsOf_cons hmark rest
  | half n => exact pointsOf_mark_cons (marked?_standIn n) rest

/-- **A text has the code points that it was made of.** -/
theorem codePoints_ofCodePoints (ps : List CodePoint) : codePoints (ofCodePoints ps) = ps := by
  rw [codePoints, ofCodePoints, String.toList_ofList]
  induction ps with
  | nil => rfl
  | cons p rest ih => rw [List.flatMap_cons, pointsOf_chars_append, ih]

end NativeBindings.Text
