import NativeBindings.Proofs.Guards

/-!
# Well-typed headers

A header is well typed when a text stands wherever a text should: in names, guard
expressions, bounds and replacement texts. A header read from a sound description
is. Nothing is asked of how names hang together, of what guards say, or of which
shapes types have.

Each part of a header has its own predicate, and all of them can be decided.
-/

namespace NativeBindings

/-- The leaf is a text. -/
def Leaf.IsText : Leaf → Prop
  | text _ => True
  | other _ => False

instance : DecidablePred Leaf.IsText
  | .text _ => .isTrue trivial
  | .other _ => .isFalse id

theorem Leaf.IsText.exists {l : Leaf} (h : l.IsText) : ∃ s, l = .text s := by
  cases l with
  | text s => exact ⟨s, rfl⟩
  | other v => exact absurd h id

/-- A leaf that may be missing is a text if it is there. -/
def Leaf.IsTextOrMissing : Option Leaf → Prop
  | none => True
  | some l => l.IsText

instance : DecidablePred Leaf.IsTextOrMissing
  | none => .isTrue trivial
  | some l => inferInstanceAs (Decidable l.IsText)

theorem Leaf.IsText.key {l : Leaf} (h : l.IsText) : ∃ s, l.key = .ok (.text s) := by
  obtain ⟨s, rfl⟩ := h.exists
  exact ⟨s, rfl⟩

namespace Header

/-! ## Types -/

namespace TypeDesc

mutual

/-- All names in the description are texts. -/
def WellTyped : TypeDesc → Prop
  | builtin name => name.IsText
  | user name => name.IsText
  | pointer inner => inner.WellTyped
  | array element _ => element.WellTyped
  | function returnType parameters => returnType.WellTyped ∧ AllWellTyped parameters
  | named name inner => Leaf.IsTextOrMissing name ∧ inner.WellTyped
  | unsupported kind => kind.IsText

/-- All names in several descriptions are texts. -/
def AllWellTyped : List TypeDesc → Prop
  | [] => True
  | t :: ts => t.WellTyped ∧ AllWellTyped ts

end

mutual

def decWellTyped : (t : TypeDesc) → Decidable t.WellTyped
  | builtin name => inferInstanceAs (Decidable name.IsText)
  | user name => inferInstanceAs (Decidable name.IsText)
  | pointer inner => decWellTyped inner
  | array element _ => decWellTyped element
  | function returnType parameters =>
      @instDecidableAnd _ _ (decWellTyped returnType) (decAllWellTyped parameters)
  | named name inner =>
      @instDecidableAnd _ _ (inferInstanceAs (Decidable (Leaf.IsTextOrMissing name)))
        (decWellTyped inner)
  | unsupported kind => inferInstanceAs (Decidable kind.IsText)

def decAllWellTyped : (ts : List TypeDesc) → Decidable (AllWellTyped ts)
  | [] => .isTrue trivial
  | t :: ts => @instDecidableAnd _ _ (decWellTyped t) (decAllWellTyped ts)

end

instance : DecidablePred WellTyped := decWellTyped

theorem allWellTyped_iff {ts : List TypeDesc} : AllWellTyped ts ↔ ∀ t ∈ ts, t.WellTyped := by
  induction ts with
  | nil => exact ⟨fun _ t ht => absurd ht (by simp), fun _ => trivial⟩
  | cons t ts ih => rw [AllWellTyped, ih, List.forall_mem_cons]

end TypeDesc

/-- The type as it is written is a text, and so are all names in its description. -/
def TypeRef.WellTyped (t : TypeRef) : Prop := t.declaration.IsText ∧ t.description.WellTyped
  deriving Decidable

/-- A type that may be missing is well typed if it is there. -/
def TypeRef.WellTypedOrMissing : Option TypeRef → Prop
  | none => True
  | some t => t.WellTyped

instance : DecidablePred TypeRef.WellTypedOrMissing
  | none => .isTrue trivial
  | some t => inferInstanceAs (Decidable t.WellTyped)

/-! ## Items -/

/-- Both parts of the guard are texts. -/
def Guard.WellTyped (g : Guard) : Prop := g.condition.IsText ∧ g.expression.IsText
  deriving Decidable

/-- The name, the replacement text and the guards of a define are texts. -/
def Define.WellTyped (d : Define) : Prop :=
  d.name.IsText ∧ Leaf.IsTextOrMissing d.content ∧ ∀ g ∈ d.guards, g.WellTyped
  deriving Decidable

/-- The name and the guards of an enum value are texts. -/
def EnumElement.WellTyped (e : EnumElement) : Prop :=
  e.name.IsText ∧ ∀ g ∈ e.guards, g.WellTyped
  deriving Decidable

/-- The name and the guards of an enum are texts, and its values are well typed. -/
def Enum.WellTyped (e : Enum) : Prop :=
  e.name.IsText ∧ (∀ x ∈ e.elements, x.WellTyped) ∧ ∀ g ∈ e.guards, g.WellTyped
  deriving Decidable

/-- The name and the guards of a typedef are texts, and its type is well typed. -/
def Typedef.WellTyped (t : Typedef) : Prop :=
  t.name.IsText ∧ t.type.WellTyped ∧ ∀ g ∈ t.guards, g.WellTyped
  deriving Decidable

/-- The name, the bound and the guards of a field are texts, and its type is well typed. -/
def Field.WellTyped (f : Field) : Prop :=
  f.name.IsText ∧ f.type.WellTyped ∧ Leaf.IsTextOrMissing f.arrayBounds ∧
    ∀ g ∈ f.guards, g.WellTyped
  deriving Decidable

/-- The name and the guards of a struct are texts, and its fields are well typed. -/
def Struct.WellTyped (s : Struct) : Prop :=
  s.name.IsText ∧ (∀ f ∈ s.fields, f.WellTyped) ∧ ∀ g ∈ s.guards, g.WellTyped
  deriving Decidable

/-- The name and the bound of an argument are texts, and its type is well typed. -/
def Argument.WellTyped (a : Argument) : Prop :=
  a.name.IsText ∧ TypeRef.WellTypedOrMissing a.type ∧ Leaf.IsTextOrMissing a.arrayBounds
  deriving Decidable

/-- The name and the guards of a function are texts, and its signature is well typed. -/
def Function.WellTyped (f : Function) : Prop :=
  f.name.IsText ∧ TypeRef.WellTypedOrMissing f.returnType ∧ (∀ a ∈ f.arguments, a.WellTyped) ∧
    ∀ g ∈ f.guards, g.WellTyped
  deriving Decidable

/-- Everything in the header is well typed. -/
structure Definitions.WellTyped (d : Definitions) : Prop where
  defines : ∀ x ∈ d.defines, x.WellTyped
  enums : ∀ x ∈ d.enums, x.WellTyped
  typedefs : ∀ x ∈ d.typedefs, x.WellTyped
  structs : ∀ x ∈ d.structs, x.WellTyped
  functions : ∀ x ∈ d.functions, x.WellTyped

instance : DecidablePred Definitions.WellTyped :=
  fun d => decidable_of_iff
    ((∀ x ∈ d.defines, x.WellTyped) ∧ (∀ x ∈ d.enums, x.WellTyped) ∧
      (∀ x ∈ d.typedefs, x.WellTyped) ∧ (∀ x ∈ d.structs, x.WellTyped) ∧
      ∀ x ∈ d.functions, x.WellTyped)
    ⟨fun ⟨h₁, h₂, h₃, h₄, h₅⟩ => ⟨h₁, h₂, h₃, h₄, h₅⟩,
      fun h => ⟨h.defines, h.enums, h.typedefs, h.structs, h.functions⟩⟩

/-! ## Guards -/

/-- A well-typed guard is decided wherever it stands. -/
theorem Guard.WellTyped.holds {g : Guard} (h : g.WellTyped) (known : Symbols) (lone : Bool) :
    ∃ b, g.holds known lone = .ok b := by
  obtain ⟨e, he⟩ := h.2.exists
  cases lone with
  | true =>
      obtain ⟨b, hb, _⟩ := Guard.holds_iff he known
      exact ⟨b, hb⟩
  | false =>
      have hkey : g.expression.key = .ok (.text e) := by rw [he]; rfl
      unfold Guard.holds
      split
      · exact ⟨known.contains (.text e), by rw [hkey]; rfl⟩
      · split
        · exact ⟨!known.contains (.text e), by rw [hkey]; rfl⟩
        · exact ⟨false, if_neg (by simp)⟩

/-- Whether an item is included is decided if its guards are well typed. -/
theorem included_eq_ok {guards : List Guard} (h : ∀ g ∈ guards, g.WellTyped) (known : Symbols) :
    ∃ b, included known guards = .ok b := by
  match guards, h with
  | [], _ => exact ⟨true, rfl⟩
  | [g], h => exact (h g List.mem_cons_self).holds known true
  | _ :: g :: _, h => exact (h g (List.mem_cons_of_mem _ List.mem_cons_self)).holds known false

end Header

end NativeBindings
