import NativeBindings.Decimal.Binary64
import NativeBindings.Text.CodePoint

/-!
# JSON values

The header description arrives as JSON. An object keeps its members in order, and no two of them
have the same name. Integers are exact and of any size; a number with a point or an exponent is a
binary floating-point number, which includes infinities and NaN.
-/

namespace NativeBindings

/-- A JSON value. -/
inductive Json where
  | null
  | bool (b : Bool)
  | int (n : Int)
  | float (x : Binary64)
  | str (s : String)
  | arr (items : List Json)
  | obj (members : List (String × Json))

namespace Json

/-- What a JSON value is, apart from its content. -/
inductive Kind where
  | null
  | bool
  | int
  | float
  | str
  | arr
  | obj
  deriving DecidableEq, Repr

/-- The kind of a value. -/
def kind : Json → Kind
  | null => .null
  | bool _ => .bool
  | int _ => .int
  | float _ => .float
  | str _ => .str
  | arr _ => .arr
  | obj _ => .obj

/-- The word for a kind in messages. -/
def Kind.word : Kind → String
  | .null => "NoneType"
  | .bool => "bool"
  | .int => "int"
  | .float => "float"
  | .str => "str"
  | .arr => "list"
  | .obj => "dict"

/-- A vacant value counts as absent: null, false, zero, and whatever is empty. -/
def isVacant : Json → Bool
  | null => true
  | bool b => !b
  | int n => n == 0
  | float x => x.isZero
  | str s => s.isEmpty
  | arr items => items.isEmpty
  | obj members => members.isEmpty

/-! ## Members and elements -/

/-- The value of a member, if the object has it. -/
def member? (members : List (String × Json)) (name : String) : Option Json :=
  (members.find? fun m => m.1 = name).map (·.2)

/-- What a value yields when it is gone through one by one: the items of an array, the names of an
object's members, the code points of a text. Other values cannot be gone through. -/
def elements? : Json → Option (List Json)
  | arr items => some items
  | obj members => some (members.map fun m => str m.1)
  | str s => some ((Text.codePoints s).map fun p => str (Text.ofCodePoints [p]))
  | _ => none

/-- A member is smaller than its object, so a reader may follow it. -/
theorem sizeOf_member?_lt {members : List (String × Json)} {name : String} {v : Json}
    (h : member? members name = some v) : sizeOf v < sizeOf (obj members) := by
  rw [member?, Option.map_eq_some_iff] at h
  obtain ⟨m, hm, rfl⟩ := h
  have hmem := List.sizeOf_lt_of_mem (List.mem_of_find?_eq_some hm)
  have : sizeOf m.2 < sizeOf m := by
    rw [Prod.mk.sizeOf_spec m.1 m.2]
    omega
  simp only [obj.sizeOf_spec]
  omega

/-! ## Equality -/

mutual

/-- Structural equality, by recursion on both values. -/
def same : Json → Json → Bool
  | null, null => true
  | bool a, bool b => a == b
  | int a, int b => a == b
  | float a, float b => a == b
  | str a, str b => a == b
  | arr a, arr b => sameItems a b
  | obj a, obj b => sameMembers a b
  | _, _ => false

/-- Structural equality of the items of two arrays. -/
def sameItems : List Json → List Json → Bool
  | [], [] => true
  | a :: as, b :: bs => same a b && sameItems as bs
  | _, _ => false

/-- Structural equality of the members of two objects, order included. -/
def sameMembers : List (String × Json) → List (String × Json) → Bool
  | [], [] => true
  | (k, a) :: as, (l, b) :: bs => k == l && same a b && sameMembers as bs
  | _, _ => false

end

mutual

theorem eq_of_same : ∀ {a b : Json}, same a b = true → a = b
  | null, b, h => by cases b <;> simp_all [same]
  | bool _, b, h => by cases b <;> simp_all [same]
  | int _, b, h => by cases b <;> simp_all [same]
  | float _, b, h => by cases b <;> simp_all [same]
  | str _, b, h => by cases b <;> simp_all [same]
  | arr as, b, h => by
    cases b with
    | arr bs => rw [same] at h; rw [eq_of_sameItems h]
    | _ => simp [same] at h
  | obj as, b, h => by
    cases b with
    | obj bs => rw [same] at h; rw [eq_of_sameMembers h]
    | _ => simp [same] at h

theorem eq_of_sameItems : ∀ {as bs : List Json}, sameItems as bs = true → as = bs
  | [], bs, h => by cases bs <;> simp_all [sameItems]
  | a :: as, [], h => by simp [sameItems] at h
  | a :: as, b :: bs, h => by
    rw [sameItems, Bool.and_eq_true] at h
    rw [eq_of_same h.1, eq_of_sameItems h.2]

theorem eq_of_sameMembers : ∀ {as bs : List (String × Json)}, sameMembers as bs = true → as = bs
  | [], bs, h => by cases bs <;> simp_all [sameMembers]
  | (k, a) :: as, [], h => by simp [sameMembers] at h
  | (k, a) :: as, (l, b) :: bs, h => by
    rw [sameMembers, Bool.and_eq_true, Bool.and_eq_true, beq_iff_eq] at h
    rw [h.1.1, eq_of_same h.1.2, eq_of_sameMembers h.2]

end

mutual

theorem same_self : ∀ a : Json, same a a = true
  | null => rfl
  | bool _ => by simp [same]
  | int _ => by simp [same]
  | float _ => by simp [same]
  | str _ => by simp [same]
  | arr as => by rw [same]; exact sameItems_self as
  | obj as => by rw [same]; exact sameMembers_self as

theorem sameItems_self : ∀ as : List Json, sameItems as as = true
  | [] => rfl
  | a :: as => by rw [sameItems, same_self a, sameItems_self as]; rfl

theorem sameMembers_self : ∀ as : List (String × Json), sameMembers as as = true
  | [] => rfl
  | (k, a) :: as => by rw [sameMembers, same_self a, sameMembers_self as]; simp

end

instance : DecidableEq Json := fun a b =>
  if h : same a b = true then isTrue (eq_of_same h)
  else isFalse fun e => h (e ▸ same_self a)

end Json

end NativeBindings
