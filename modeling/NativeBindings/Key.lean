import NativeBindings.Leaf
import NativeBindings.Misfit

/-!
# Keys

Symbols and types are looked up by name. The name may be any leaf without parts: a text, or a
constant or a number that stands for one. Numbers that are equal are one key, however they are
written: true, 1 and 1.0 look up the same. What a key was first written as is kept.
-/

namespace NativeBindings

/-- What something is looked up by. -/
inductive Key where
  | text (s : String)
  | null
  | bool (b : Bool)
  | int (n : Int)
  | float (x : Binary64)
  deriving DecidableEq

namespace Key

instance : Coe String Key := ⟨text⟩

instance : Inhabited Key := ⟨text ""⟩

/-- What two keys have in common that count as the same. -/
inductive Identity where
  | text (s : String)
  | null
  | integer (n : Int)
  | fraction (x : Binary64)
  deriving DecidableEq

/-- What makes a key the same as another one. Equal numbers with a fraction have one form. -/
def identity : Key → Identity
  | text s => .text s
  | null => .null
  | bool b => .integer (if b then 1 else 0)
  | int n => .integer n
  | float x =>
    match x.integer? with
    | some n => .integer n
    | none => .fraction x

instance : BEq Key := ⟨fun a b => decide (a.identity = b.identity)⟩

theorem beq_iff_identity {a b : Key} : (a == b) = true ↔ a.identity = b.identity :=
  decide_eq_true_iff

instance : EquivBEq Key where
  rfl := beq_iff_identity.mpr rfl
  symm h := beq_iff_identity.mpr (beq_iff_identity.mp h).symm
  trans h k := beq_iff_identity.mpr ((beq_iff_identity.mp h).trans (beq_iff_identity.mp k))

/-- A text is the same key as that text alone. -/
theorem beq_text {k : Key} {s : String} : (k == text s) = true ↔ k = text s := by
  rw [beq_iff_identity]
  constructor
  · intro h
    cases k with
    | text t => simp only [identity, Identity.text.injEq] at h; rw [h]
    | float x => simp only [identity] at h; split at h <;> simp at h
    | _ => simp [identity] at h
  · rintro rfl; rfl

/-- The key as the value that it was written as. -/
def toJson : Key → Json
  | text s => .str s
  | null => .null
  | bool b => .bool b
  | int n => .int n
  | float x => .float x

/-- The key in running text. -/
def display (k : Key) : String := k.toJson.display

/-- The key as a leaf. -/
def toLeaf (k : Key) : Leaf := .ofJson k.toJson

end Key

/-- The key that a leaf is. A leaf with parts is none. -/
def Leaf.key : Leaf → Except Misfit Key
  | text s => .ok (.text s)
  | other (.str s) => .ok (.text s)
  | other .null => .ok .null
  | other (.bool b) => .ok (.bool b)
  | other (.int n) => .ok (.int n)
  | other (.float x) => .ok (.float x)
  | other (.arr _) => .error (.key .arr)
  | other (.obj _) => .error (.key .obj)

end NativeBindings
