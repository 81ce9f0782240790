import Mathlib.Data.List.Forall2
import NativeBindings.Header.Load
import NativeBindings.Proofs.WellTyped

/-!
# Headers as JSON

`Encodes` says which JSON values describe a header: every part stands under the name of its
member, texts as texts, comment lines behind slashes, and what may be missing is left out or
null. Other members, and the order of the members, are free. `encode` writes such a value;
it either leaves out what is missing or writes null for it.

Some headers have no description. A shape with an unknown tag cannot have one of the tags
that are known, or an empty one, and comments without any line cannot be told from none.
`Encodable` leaves these out.
-/

namespace NativeBindings.Header

/-! ## Parts of an object -/

/-- The object has the member, with such a value. -/
def Has (ms : Members) (name : String) (P : Json → Prop) : Prop :=
  ∃ v, Json.member? ms name = some v ∧ P v

/-- The value is an object with such members. -/
def IsObject (P : Members → Prop) (v : Json) : Prop := ∃ ms, v = .obj ms ∧ P ms

section Parts

variable {α : Type} (Encodes : α → Json → Prop)

/-- What may be missing stands under its member, or is left out, or null. -/
inductive EncodesOptional : Option α → Option Json → Prop where
  | omitted : EncodesOptional none none
  | null : EncodesOptional none (some .null)
  | present {a : α} {v : Json} (h : Encodes a v) : EncodesOptional (some a) (some v)

/-- A list is an array of what it holds. An empty one may be left out, or null. -/
inductive EncodesAll : List α → Option Json → Prop where
  | omitted : EncodesAll [] none
  | null : EncodesAll [] (some .null)
  | listed {as : List α} {vs : List Json} (h : List.Forall₂ Encodes as vs) :
      EncodesAll as (some (.arr vs))

end Parts

/-- A switch that is off may be left out, or null. -/
inductive EncodesSwitch : Bool → Option Json → Prop where
  | omitted : EncodesSwitch false none
  | null : EncodesSwitch false (some .null)
  | present (b : Bool) : EncodesSwitch b (some (.bool b))

/-- A text is written as it is. -/
inductive EncodesText : Leaf → Json → Prop where
  | text (s : String) : EncodesText (.text s) (.str s)

/-- A line of a comment is written with slashes in front of it. -/
def EncodesLine (line : String) (v : Json) : Prop := v = .str ("// " ++ line)

/-- Several lines of a comment. -/
def EncodesLines (lines : List String) (v : Json) : Prop :=
  ∃ vs, v = .arr vs ∧ List.Forall₂ EncodesLine lines vs

/-- The members for comments, which may be missing. -/
structure CommentsMembers (c : Comments) (ms : Members) : Prop where
  attached : EncodesOptional EncodesLine c.attached (Json.member? ms "attached")
  preceding : EncodesOptional EncodesLines c.preceding (Json.member? ms "preceding")

/-- Comments are an object. -/
def EncodesComments (c : Comments) : Json → Prop := IsObject (CommentsMembers c)

/-- The members for a guard. -/
structure GuardMembers (g : Guard) (ms : Members) : Prop where
  condition : Has ms "condition" (EncodesText g.condition)
  expression : Has ms "expression" (EncodesText g.expression)

/-- A guard is an object. -/
def EncodesGuard (g : Guard) : Json → Prop := IsObject (GuardMembers g)

/-! ## Types -/

/-- The object has this tag. -/
def HasKind (ms : Members) (kind : String) : Prop := Json.member? ms "kind" = some (.str kind)

/-- A type is an object with the tag of its shape, and with the parts of the shape. -/
inductive EncodesType : TypeDesc → Json → Prop where
  | builtin {ms : Members} {name : Leaf} (hk : HasKind ms "Builtin")
      (hname : Has ms "builtin_type" (EncodesText name)) : EncodesType (.builtin name) (.obj ms)
  | user {ms : Members} {name : Leaf} (hk : HasKind ms "User")
      (hname : Has ms "name" (EncodesText name)) : EncodesType (.user name) (.obj ms)
  | pointer {ms : Members} {inner : TypeDesc} {v : Json} (hk : HasKind ms "Pointer")
      (hv : Json.member? ms "inner_type" = some v) (h : EncodesType inner v) :
      EncodesType (.pointer inner) (.obj ms)
  | array {ms : Members} {element : TypeDesc} {v : Json} {bound : Option String}
      (hk : HasKind ms "Array") (hv : Json.member? ms "inner_type" = some v)
      (h : EncodesType element v)
      (hbound : EncodesOptional (fun s => EncodesText (.text s)) bound (Json.member? ms "bounds")) :
      EncodesType (.array element bound) (.obj ms)
  | function {ms : Members} {returnType : TypeDesc} {v : Json} {parameters : List TypeDesc}
      (hk : HasKind ms "Function") (hv : Json.member? ms "return_type" = some v)
      (h : EncodesType returnType v)
      (hparameters : EncodesAll EncodesType parameters (Json.member? ms "parameters")) :
      EncodesType (.function returnType parameters) (.obj ms)
  | named {ms : Members} {name : Option Leaf} {inner : TypeDesc} {v : Json}
      (hk : HasKind ms "Type") (hname : EncodesOptional EncodesText name (Json.member? ms "name"))
      (hv : Json.member? ms "inner_type" = some v) (h : EncodesType inner v) :
      EncodesType (.named name inner) (.obj ms)
  | unsupported {ms : Members} {kind : String} (hk : HasKind ms kind) :
      EncodesType (.unsupported kind) (.obj ms)

/-- The members for a type as it is written. -/
structure TypeRefMembers (t : TypeRef) (ms : Members) : Prop where
  declaration : Has ms "declaration" (EncodesText t.declaration)
  description : Has ms "description" (EncodesType t.description)

/-- A type as it is written is an object. -/
def EncodesTypeRef (t : TypeRef) : Json → Prop := IsObject (TypeRefMembers t)

/-! ## Items -/

/-- What most items have: a name, guards and comments. -/
structure ItemMembers (name : Leaf) (guards : List Guard) (comments : Option Comments)
    (ms : Members) : Prop where
  name : Has ms "name" (EncodesText name)
  guards : EncodesAll EncodesGuard guards (Json.member? ms "conditionals")
  comments : EncodesOptional EncodesComments comments (Json.member? ms "comments")

/-- The members for a define. -/
structure DefineMembers (d : Define) (ms : Members) : Prop extends
    ItemMembers d.name d.guards d.comments ms where
  content : EncodesOptional EncodesText d.content (Json.member? ms "content")

/-- The members for a value of an enum. Its number is always there. -/
structure EnumElementMembers (e : EnumElement) (ms : Members) : Prop extends
    ItemMembers e.name e.guards e.comments ms where
  value : Json.member? ms "value" = some (.int e.value)

/-- The members for an enum. -/
structure EnumMembers (e : Enum) (ms : Members) : Prop extends
    ItemMembers e.name e.guards e.comments ms where
  elements : EncodesAll (fun x => IsObject (EnumElementMembers x)) e.elements
    (Json.member? ms "elements")
  isFlags : EncodesSwitch e.isFlags (Json.member? ms "is_flags_enum")

/-- The members for a typedef. -/
structure TypedefMembers (t : Typedef) (ms : Members) : Prop extends
    ItemMembers t.name t.guards t.comments ms where
  type : Has ms "type" (EncodesTypeRef t.type)

/-- The members for a field. -/
structure FieldMembers (f : Field) (ms : Members) : Prop extends
    ItemMembers f.name f.guards f.comments ms where
  type : Has ms "type" (EncodesTypeRef f.type)
  isArray : EncodesSwitch f.isArray (Json.member? ms "is_array")
  arrayBounds : EncodesOptional EncodesText f.arrayBounds (Json.member? ms "array_bounds")

/-- The members for a struct. -/
structure StructMembers (s : Struct) (ms : Members) : Prop extends
    ItemMembers s.name s.guards s.comments ms where
  fields : EncodesAll (fun f => IsObject (FieldMembers f)) s.fields (Json.member? ms "fields")

/-- The members for an argument, which has neither guards nor comments. -/
structure ArgumentMembers (a : Argument) (ms : Members) : Prop where
  name : Has ms "name" (EncodesText a.name)
  type : EncodesOptional EncodesTypeRef a.type (Json.member? ms "type")
  isArray : EncodesSwitch a.isArray (Json.member? ms "is_array")
  isVarargs : EncodesSwitch a.isVarargs (Json.member? ms "is_varargs")
  arrayBounds : EncodesOptional EncodesText a.arrayBounds (Json.member? ms "array_bounds")

/-- The members for a function. -/
structure FunctionMembers (f : Function) (ms : Members) : Prop extends
    ItemMembers f.name f.guards f.comments ms where
  returnType : EncodesOptional EncodesTypeRef f.returnType (Json.member? ms "return_type")
  arguments : EncodesAll (fun a => IsObject (ArgumentMembers a)) f.arguments
    (Json.member? ms "arguments")

/-- The collections of a header. -/
structure DefinitionsMembers (d : Definitions) (ms : Members) : Prop where
  defines : EncodesAll (fun x => IsObject (DefineMembers x)) d.defines (Json.member? ms "defines")
  enums : EncodesAll (fun x => IsObject (EnumMembers x)) d.enums (Json.member? ms "enums")
  typedefs : EncodesAll (fun x => IsObject (TypedefMembers x)) d.typedefs
    (Json.member? ms "typedefs")
  structs : EncodesAll (fun x => IsObject (StructMembers x)) d.structs (Json.member? ms "structs")
  functions : EncodesAll (fun x => IsObject (FunctionMembers x)) d.functions
    (Json.member? ms "functions")

/-- The value describes the header. -/
def Encodes (d : Definitions) : Json → Prop := IsObject (DefinitionsMembers d)

/-! ## Writing -/

/-- What stands for a value that is missing: nothing, or null. -/
def absentAs (nulls : Bool) : Option Json → Option Json
  | some v => some v
  | none => if nulls then some .null else none

/-- The members of an object, some of which are missing. -/
def presentMembers (nulls : Bool) (ms : List (String × Option Json)) : Members :=
  ms.filterMap fun m => (absentAs nulls m.2).map fun v => (m.1, v)

/-- An object with members that may be missing. -/
def object (nulls : Bool) (ms : List (String × Option Json)) : Json :=
  .obj (presentMembers nulls ms)

/-- A line of a comment, with slashes in front of it. -/
def encodeLine (line : String) : Json := .str ("// " ++ line)

section Encode

variable (nulls : Bool)

def encodeComments (c : Comments) : Json :=
  object nulls [("attached", c.attached.map encodeLine),
    ("preceding", c.preceding.map fun ls => .arr (ls.map encodeLine))]

def encodeGuard (g : Guard) : Json :=
  object nulls [("condition", some g.condition.toJson), ("expression", some g.expression.toJson)]

mutual

/-- A type by its shape. -/
def encodeType : TypeDesc → Json
  | .builtin name =>
    object nulls [("kind", some (.str "Builtin")), ("builtin_type", some name.toJson)]
  | .user name => object nulls [("kind", some (.str "User")), ("name", some name.toJson)]
  | .pointer inner =>
    object nulls [("kind", some (.str "Pointer")), ("inner_type", some (encodeType inner))]
  | .array element bound =>
    object nulls [("kind", some (.str "Array")), ("inner_type", some (encodeType element)),
      ("bounds", bound.map .str)]
  | .function returnType parameters =>
    object nulls [("kind", some (.str "Function")), ("return_type", some (encodeType returnType)),
      ("parameters", some (.arr (encodeTypes parameters)))]
  | .named name inner =>
    object nulls [("kind", some (.str "Type")), ("name", name.map Leaf.toJson),
      ("inner_type", some (encodeType inner))]
  | .unsupported kind => object nulls [("kind", some kind.toJson)]

/-- Several types. -/
def encodeTypes : List TypeDesc → List Json
  | [] => []
  | t :: ts => encodeType t :: encodeTypes ts

end

def encodeTypeRef (t : TypeRef) : Json :=
  object nulls [("declaration", some t.declaration.toJson),
    ("description", some (encodeType nulls t.description))]

/-- The members that most items have, and then the item's own. -/
def itemParts (name : Leaf) (guards : List Guard) (comments : Option Comments)
    (own : List (String × Option Json)) : List (String × Option Json) :=
  ("name", some name.toJson) :: ("conditionals", some (.arr (guards.map (encodeGuard nulls)))) ::
    ("comments", comments.map (encodeComments nulls)) :: own

def encodeDefine (d : Define) : Json :=
  object nulls (itemParts nulls d.name d.guards d.comments
    [("content", d.content.map Leaf.toJson)])

def encodeEnumElement (e : EnumElement) : Json :=
  object nulls (itemParts nulls e.name e.guards e.comments [("value", some (.int e.value))])

def encodeEnum (e : Enum) : Json :=
  object nulls (itemParts nulls e.name e.guards e.comments
    [("elements", some (.arr (e.elements.map (encodeEnumElement nulls)))),
      ("is_flags_enum", some (.bool e.isFlags))])

def encodeTypedef (t : Typedef) : Json :=
  object nulls (itemParts nulls t.name t.guards t.comments
    [("type", some (encodeTypeRef nulls t.type))])

def encodeField (f : Field) : Json :=
  object nulls (itemParts nulls f.name f.guards f.comments
    [("type", some (encodeTypeRef nulls f.type)), ("is_array", some (.bool f.isArray)),
      ("array_bounds", f.arrayBounds.map Leaf.toJson)])

def encodeStruct (s : Struct) : Json :=
  object nulls (itemParts nulls s.name s.guards s.comments
    [("fields", some (.arr (s.fields.map (encodeField nulls))))])

def encodeArgument (a : Argument) : Json :=
  object nulls [("name", some a.name.toJson), ("type", a.type.map (encodeTypeRef nulls)),
    ("is_array", some (.bool a.isArray)), ("is_varargs", some (.bool a.isVarargs)),
    ("array_bounds", a.arrayBounds.map Leaf.toJson)]

def encodeFunction (f : Function) : Json :=
  object nulls (itemParts nulls f.name f.guards f.comments
    [("return_type", f.returnType.map (encodeTypeRef nulls)),
      ("arguments", some (.arr (f.arguments.map (encodeArgument nulls))))])

/-- A description of the header. What is missing is left out, or null. -/
def encode (d : Definitions) : Json :=
  object nulls [("defines", some (.arr (d.defines.map (encodeDefine nulls)))),
    ("enums", some (.arr (d.enums.map (encodeEnum nulls)))),
    ("typedefs", some (.arr (d.typedefs.map (encodeTypedef nulls)))),
    ("structs", some (.arr (d.structs.map (encodeStruct nulls)))),
    ("functions", some (.arr (d.functions.map (encodeFunction nulls))))]

end Encode

/-! ## What is written describes the header -/

section Encodes

variable {nulls : Bool}

theorem member?_presentMembers_cons (m : String × Option Json) (ms : List (String × Option Json))
    (name : String) : Json.member? (presentMembers nulls (m :: ms)) name =
      if m.1 = name then (absentAs nulls m.2).or (Json.member? (presentMembers nulls ms) name)
      else Json.member? (presentMembers nulls ms) name := by
  obtain ⟨k, v⟩ := m
  rw [presentMembers, List.filterMap_cons]
  cases absentAs nulls v with
  | none => by_cases hk : k = name <;> simp [hk, presentMembers]
  | some w => by_cases hk : k = name <;> simp [hk, Json.member?, presentMembers]

theorem member?_presentMembers_of_not_mem {ms : List (String × Option Json)} {name : String}
    (h : name ∉ ms.map (·.1)) : Json.member? (presentMembers nulls ms) name = none := by
  induction ms with
  | nil => rfl
  | cons m rest ih =>
      obtain ⟨hne, hrest⟩ := not_or.mp (mt List.mem_cons.mpr h)
      rw [member?_presentMembers_cons, if_neg (Ne.symm hne), ih hrest]

/-- A member that is there, or stands as missing, is found under its name. -/
theorem member?_presentMembers {ms : List (String × Option Json)} (hnodup : (ms.map (·.1)).Nodup)
    {name : String} {v : Option Json} (hmem : (name, v) ∈ ms) :
    Json.member? (presentMembers nulls ms) name = absentAs nulls v := by
  induction ms with
  | nil => exact absurd hmem (by simp)
  | cons m rest ih =>
      obtain ⟨hnot, hrest⟩ := List.nodup_cons.mp hnodup
      rw [member?_presentMembers_cons]
      rcases List.mem_cons.mp hmem with rfl | hmem
      · rw [if_pos rfl, member?_presentMembers_of_not_mem hnot, Option.or_none]
      · have hne : m.1 ≠ name := by
          intro hname
          exact hnot (List.mem_map.mpr ⟨_, hmem, hname.symm⟩)
        rw [if_neg hne, ih hrest hmem]

section Lookup

variable {α : Type} {Encodes : α → Json → Prop} {ms : List (String × Option Json)}
  (hnodup : (ms.map (·.1)).Nodup) {name : String}

include hnodup

theorem member?_of_mem {v : Json} (hmem : (name, some v) ∈ ms) :
    Json.member? (presentMembers nulls ms) name = some v := member?_presentMembers hnodup hmem

theorem hasKind_of_mem {kind : String} (hmem : ("kind", some (.str kind)) ∈ ms) :
    HasKind (presentMembers nulls ms) kind := member?_presentMembers hnodup hmem

theorem has_of_mem {v : Json} (hmem : (name, some v) ∈ ms) {P : Json → Prop} (h : P v) :
    Has (presentMembers nulls ms) name P := ⟨v, member?_presentMembers hnodup hmem, h⟩

theorem encodesOptional_of_mem {a : Option α} (write : α → Json)
    (hmem : (name, a.map write) ∈ ms) (h : ∀ x ∈ a, Encodes x (write x)) :
    EncodesOptional Encodes a (Json.member? (presentMembers nulls ms) name) := by
  rw [member?_presentMembers hnodup hmem]
  cases a with
  | some x => exact .present (h x rfl)
  | none =>
      cases nulls with
      | true => exact .null
      | false => exact .omitted

theorem encodesAll_of_mem {as : List α} (write : α → Json)
    (hmem : (name, some (.arr (as.map write))) ∈ ms) (h : ∀ a ∈ as, Encodes a (write a)) :
    EncodesAll Encodes as (Json.member? (presentMembers nulls ms) name) := by
  rw [member?_presentMembers hnodup hmem]
  exact .listed (List.forall₂_map_right_iff.mpr (List.forall₂_same.mpr h))

theorem encodesSwitch_of_mem {b : Bool} (hmem : (name, some (.bool b)) ∈ ms) :
    EncodesSwitch b (Json.member? (presentMembers nulls ms) name) := by
  rw [member?_presentMembers hnodup hmem]
  exact .present b

end Lookup

theorem encodesText_toJson {l : Leaf} (h : l.IsText) : EncodesText l l.toJson := by
  obtain ⟨s, rfl⟩ := h.exists
  exact .text s

theorem encodesText_optional {l : Option Leaf} (h : Leaf.IsTextOrMissing l) :
    ∀ x ∈ l, EncodesText x x.toJson := by
  intro x hx
  rw [Option.mem_def] at hx
  subst hx
  exact encodesText_toJson h

theorem encodesComments_encode (c : Comments) : EncodesComments c (encodeComments nulls c) := by
  have hlines : ∀ ls : List String, EncodesLines ls (.arr (ls.map encodeLine)) := fun ls =>
    ⟨_, rfl, List.forall₂_map_right_iff.mpr (List.forall₂_same.mpr fun _ _ => rfl)⟩
  exact ⟨_, rfl,
    encodesOptional_of_mem (by simp) encodeLine (by simp) fun _ _ => rfl,
    encodesOptional_of_mem (by simp) (fun ls => .arr (ls.map encodeLine)) (by simp)
      fun ls _ => hlines ls⟩

theorem encodesGuard_encode {g : Guard} (h : g.WellTyped) :
    EncodesGuard g (encodeGuard nulls g) :=
  ⟨_, rfl, has_of_mem (by simp) (by simp) (encodesText_toJson h.1),
    has_of_mem (by simp) (by simp) (encodesText_toJson h.2)⟩

mutual

theorem encodesType_encode : ∀ {t : TypeDesc}, t.WellTyped → EncodesType t (encodeType nulls t)
  | .builtin name, h => by
      rw [encodeType]
      exact .builtin (hasKind_of_mem (by simp) (by simp))
        (has_of_mem (by simp) (by simp) (encodesText_toJson h))
  | .user name, h => by
      rw [encodeType]
      exact .user (hasKind_of_mem (by simp) (by simp))
        (has_of_mem (by simp) (by simp) (encodesText_toJson h))
  | .pointer inner, h => by
      rw [encodeType]
      exact .pointer (hasKind_of_mem (by simp) (by simp))
        (member?_of_mem (by simp) (by simp)) (encodesType_encode h)
  | .array element bound, h => by
      rw [encodeType]
      exact .array (hasKind_of_mem (by simp) (by simp))
        (member?_of_mem (by simp) (by simp)) (encodesType_encode h)
        (encodesOptional_of_mem (by simp) .str (by simp) fun s _ => .text s)
  | .function returnType parameters, h => by
      rw [encodeType]
      refine .function (hasKind_of_mem (by simp) (by simp))
        (member?_of_mem (by simp) (by simp)) (encodesType_encode h.1) ?_
      rw [member?_of_mem (v := .arr (encodeTypes nulls parameters)) (by simp) (by simp)]
      exact .listed (encodesTypes_encode h.2)
  | .named name inner, h => by
      rw [encodeType]
      exact .named (hasKind_of_mem (by simp) (by simp))
        (encodesOptional_of_mem (by simp) Leaf.toJson (by simp) (encodesText_optional h.1))
        (member?_of_mem (by simp) (by simp)) (encodesType_encode h.2)
  | .unsupported kind, h => by
      obtain ⟨s, rfl⟩ := Leaf.IsText.exists h
      rw [encodeType]
      exact .unsupported (hasKind_of_mem (by simp) (by simp [Leaf.toJson]))

theorem encodesTypes_encode : ∀ {ts : List TypeDesc}, TypeDesc.AllWellTyped ts →
    List.Forall₂ EncodesType ts (encodeTypes nulls ts)
  | [], _ => .nil
  | _ :: _, h => .cons (encodesType_encode h.1) (encodesTypes_encode h.2)

end

theorem encodesTypeRef_encode {t : TypeRef} (h : t.WellTyped) :
    EncodesTypeRef t (encodeTypeRef nulls t) :=
  ⟨_, rfl, has_of_mem (by simp) (by simp) (encodesText_toJson h.1),
    has_of_mem (v := encodeType nulls t.description) (by simp) (by simp) (encodesType_encode h.2)⟩

theorem encodesTypeRef_optional {t : Option TypeRef} (h : TypeRef.WellTypedOrMissing t) :
    ∀ x ∈ t, EncodesTypeRef x (encodeTypeRef nulls x) := by
  intro x hx
  rw [Option.mem_def] at hx
  subst hx
  exact encodesTypeRef_encode h

/-- The members that most items have are among those of the item. -/
theorem itemMembers_encode {name : Leaf} (hname : name.IsText) {guards : List Guard}
    (hguards : ∀ g ∈ guards, g.WellTyped) {comments : Option Comments}
    {own : List (String × Option Json)}
    (hnodup : ((itemParts nulls name guards comments own).map (·.1)).Nodup) :
    ItemMembers name guards comments
      (presentMembers nulls (itemParts nulls name guards comments own)) where
  name := has_of_mem hnodup (by simp [itemParts]) (encodesText_toJson hname)
  guards := encodesAll_of_mem hnodup (encodeGuard nulls) (by simp [itemParts])
    fun g hg => encodesGuard_encode (hguards g hg)
  comments := encodesOptional_of_mem hnodup (encodeComments nulls) (by simp [itemParts])
    fun c _ => encodesComments_encode c

theorem define_encode {d : Define} (h : d.WellTyped) :
    IsObject (DefineMembers d) (encodeDefine nulls d) :=
  have hnodup := by simp [itemParts]
  ⟨_, rfl, itemMembers_encode h.1 h.2.2 hnodup,
    encodesOptional_of_mem hnodup Leaf.toJson (by simp [itemParts]) (encodesText_optional h.2.1)⟩

theorem enumElement_encode {e : EnumElement} (h : e.WellTyped) :
    IsObject (EnumElementMembers e) (encodeEnumElement nulls e) :=
  have hnodup := by simp [itemParts]
  ⟨_, rfl, itemMembers_encode h.1 h.2 hnodup, member?_of_mem hnodup (by simp [itemParts])⟩

theorem enum_encode {e : Enum} (h : e.WellTyped) :
    IsObject (EnumMembers e) (encodeEnum nulls e) :=
  have hnodup := by simp [itemParts]
  ⟨_, rfl, itemMembers_encode h.1 h.2.2 hnodup,
    encodesAll_of_mem hnodup (encodeEnumElement nulls) (by simp [itemParts])
      fun x hx => enumElement_encode (h.2.1 x hx),
    encodesSwitch_of_mem hnodup (by simp [itemParts])⟩

theorem typedef_encode {t : Typedef} (h : t.WellTyped) :
    IsObject (TypedefMembers t) (encodeTypedef nulls t) :=
  have hnodup := by simp [itemParts]
  ⟨_, rfl, itemMembers_encode h.1 h.2.2 hnodup,
    has_of_mem (v := encodeTypeRef nulls t.type) hnodup (by simp [itemParts])
      (encodesTypeRef_encode h.2.1)⟩

theorem field_encode {f : Field} (h : f.WellTyped) :
    IsObject (FieldMembers f) (encodeField nulls f) :=
  have hnodup := by simp [itemParts]
  ⟨_, rfl, itemMembers_encode h.1 h.2.2.2 hnodup,
    has_of_mem (v := encodeTypeRef nulls f.type) hnodup (by simp [itemParts])
      (encodesTypeRef_encode h.2.1),
    encodesSwitch_of_mem hnodup (by simp [itemParts]),
    encodesOptional_of_mem hnodup Leaf.toJson (by simp [itemParts])
      (encodesText_optional h.2.2.1)⟩

theorem struct_encode {s : Struct} (h : s.WellTyped) :
    IsObject (StructMembers s) (encodeStruct nulls s) :=
  have hnodup := by simp [itemParts]
  ⟨_, rfl, itemMembers_encode h.1 h.2.2 hnodup,
    encodesAll_of_mem hnodup (encodeField nulls) (by simp [itemParts])
      fun f hf => field_encode (h.2.1 f hf)⟩

theorem argument_encode {a : Argument} (h : a.WellTyped) :
    IsObject (ArgumentMembers a) (encodeArgument nulls a) :=
  ⟨_, rfl, has_of_mem (by simp) (by simp) (encodesText_toJson h.1),
    encodesOptional_of_mem (by simp) (encodeTypeRef nulls) (by simp)
      (encodesTypeRef_optional h.2.1),
    encodesSwitch_of_mem (by simp) (by simp), encodesSwitch_of_mem (by simp) (by simp),
    encodesOptional_of_mem (by simp) Leaf.toJson (by simp) (encodesText_optional h.2.2)⟩

theorem function_encode {f : Function} (h : f.WellTyped) :
    IsObject (FunctionMembers f) (encodeFunction nulls f) :=
  have hnodup := by simp [itemParts]
  ⟨_, rfl, itemMembers_encode h.1 h.2.2.2 hnodup,
    encodesOptional_of_mem hnodup (encodeTypeRef nulls) (by simp [itemParts])
      (encodesTypeRef_optional h.2.1),
    encodesAll_of_mem hnodup (encodeArgument nulls) (by simp [itemParts])
      fun a ha => argument_encode (h.2.2.1 a ha)⟩

/-- **What is written for a well-typed header describes it.** -/
theorem encodes_encode {d : Definitions} (h : d.WellTyped) : Encodes d (encode nulls d) :=
  ⟨_, rfl,
    encodesAll_of_mem (by simp) (encodeDefine nulls) (by simp)
      fun x hx => define_encode (h.defines x hx),
    encodesAll_of_mem (by simp) (encodeEnum nulls) (by simp)
      fun x hx => enum_encode (h.enums x hx),
    encodesAll_of_mem (by simp) (encodeTypedef nulls) (by simp)
      fun x hx => typedef_encode (h.typedefs x hx),
    encodesAll_of_mem (by simp) (encodeStruct nulls) (by simp)
      fun x hx => struct_encode (h.structs x hx),
    encodesAll_of_mem (by simp) (encodeFunction nulls) (by simp)
      fun x hx => function_encode (h.functions x hx)⟩

end Encodes

end NativeBindings.Header
