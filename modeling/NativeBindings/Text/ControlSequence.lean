/-!
# Control sequences

A terminal takes its colours and its cursor movements from control sequences in the text: an escape
character and an opening bracket, parameter characters, intermediate characters, and one final
character. What is printed for a program to read is printed without them. Nothing else is taken
out; an escape character that begins no such sequence stays.
-/

namespace NativeBindings.Text

/-- The escape character. -/
def escapeChar : Char := Char.ofNat 0x1B

/-- Whether a character can be among the parameters of a control sequence. -/
def isParameterChar (c : Char) : Bool := '0' ≤ c && c ≤ '?'

/-- Whether a character can be among the intermediate ones of a control sequence. -/
def isIntermediateChar (c : Char) : Bool := ' ' ≤ c && c ≤ '/'

/-- Whether a character can end a control sequence. -/
def isFinalChar (c : Char) : Bool := '@' ≤ c && c ≤ '~'

/-- What follows a control sequence whose escape character and bracket were read, or none if it is
no control sequence. -/
def afterControlSequence? (cs : List Char) : Option (List Char) :=
  match (cs.dropWhile isParameterChar).dropWhile isIntermediateChar with
  | c :: rest => if isFinalChar c then some rest else none
  | [] => none

theorem length_afterControlSequence_lt {cs rest : List Char}
    (h : afterControlSequence? cs = some rest) : rest.length < cs.length := by
  have outer := (List.dropWhile_sublist isParameterChar (l := cs)).length_le
  have inner := (List.dropWhile_sublist isIntermediateChar
    (l := cs.dropWhile isParameterChar)).length_le
  unfold afterControlSequence? at h
  split at h
  · rename_i c tail heq
    split at h
    · injection h with h
      subst h
      rw [heq, List.length_cons] at inner
      omega
    · contradiction
  · contradiction

/-- The characters that remain without control sequences. -/
def plainChars : List Char → List Char
  | [] => []
  | c :: cs =>
    if c = escapeChar then
      match cs with
      | [] => [c]
      | d :: ds =>
        if d = '[' then
          match _h : afterControlSequence? ds with
          | some rest => plainChars rest
          | none => c :: plainChars (d :: ds)
        else c :: plainChars (d :: ds)
    else c :: plainChars cs
termination_by cs => cs.length
decreasing_by
  · have := length_afterControlSequence_lt _h
    simp only [List.length_cons]
    omega
  all_goals simp only [List.length_cons]; omega

/-- The text without control sequences. -/
def plain (s : String) : String := String.ofList (plainChars s.toList)

end NativeBindings.Text
