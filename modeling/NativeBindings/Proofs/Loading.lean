import NativeBindings.Proofs.Encoding
import NativeBindings.Proofs.Traced

/-!
# Descriptions that are loaded

What describes a header is loaded as that header. Each reader has one lemma that says so for
its part; readers merge a missing member, a null and an empty value, and the lemmas show that
no part of a header is lost that way.

Types are read by recursion, and so is their lemma. The main statement joins both directions:
every header that can be told from others has descriptions, and each of them is loaded as that
header.
-/

namespace NativeBindings.Header

/-! ## Headers that can be told from others -/

/-- The tags of the shapes that are known. -/
def knownKinds : List String := ["Builtin", "User", "Pointer", "Array", "Function", "Type"]

/-- A tag that stands for no known shape, and is not empty. -/
def IsUnknownKind : Leaf → Prop
  | .text s => s ≠ "" ∧ s ∉ knownKinds
  | .other _ => False

instance : DecidablePred IsUnknownKind
  | .text s => inferInstanceAs (Decidable (s ≠ "" ∧ s ∉ knownKinds))
  | .other _ => .isFalse id

namespace TypeDesc

mutual

/-- The tags of the unsupported shapes in a type. -/
def unsupportedKinds : TypeDesc → List Leaf
  | builtin _ | user _ => []
  | pointer inner => inner.unsupportedKinds
  | array element _ => element.unsupportedKinds
  | function returnType parameters =>
    returnType.unsupportedKinds ++ allUnsupportedKinds parameters
  | named _ inner => inner.unsupportedKinds
  | unsupported kind => [kind]

/-- The tags of the unsupported shapes in several types. -/
def allUnsupportedKinds : List TypeDesc → List Leaf
  | [] => []
  | t :: ts => t.unsupportedKinds ++ allUnsupportedKinds ts

end

/-- Every unsupported shape in the type has a tag of its own. -/
def Encodable (t : TypeDesc) : Prop := ∀ k ∈ t.unsupportedKinds, IsUnknownKind k
  deriving Decidable

end TypeDesc

/-- There is a line, attached or preceding; without one there would be no comments. -/
def Comments.Encodable (c : Comments) : Prop := c.attached.isSome ∨ c.preceding.isSome
  deriving Decidable

def Define.Encodable (d : Define) : Prop := ∀ c ∈ d.comments, c.Encodable
  deriving Decidable

def EnumElement.Encodable (e : EnumElement) : Prop := ∀ c ∈ e.comments, c.Encodable
  deriving Decidable

def Enum.Encodable (e : Enum) : Prop :=
  (∀ x ∈ e.elements, x.Encodable) ∧ ∀ c ∈ e.comments, c.Encodable
  deriving Decidable

def Typedef.Encodable (t : Typedef) : Prop :=
  t.type.description.Encodable ∧ ∀ c ∈ t.comments, c.Encodable
  deriving Decidable

def Field.Encodable (f : Field) : Prop :=
  f.type.description.Encodable ∧ ∀ c ∈ f.comments, c.Encodable
  deriving Decidable

def Struct.Encodable (s : Struct) : Prop :=
  (∀ f ∈ s.fields, f.Encodable) ∧ ∀ c ∈ s.comments, c.Encodable
  deriving Decidable

def Argument.Encodable (a : Argument) : Prop := ∀ t ∈ a.type, t.description.Encodable
  deriving Decidable

def Function.Encodable (f : Function) : Prop :=
  (∀ t ∈ f.returnType, t.description.Encodable) ∧ (∀ a ∈ f.arguments, a.Encodable) ∧
    ∀ c ∈ f.comments, c.Encodable
  deriving Decidable

/-- The header can be told from others by its descriptions. -/
structure Definitions.Encodable (d : Definitions) : Prop where
  defines : ∀ x ∈ d.defines, x.Encodable
  enums : ∀ x ∈ d.enums, x.Encodable
  typedefs : ∀ x ∈ d.typedefs, x.Encodable
  structs : ∀ x ∈ d.structs, x.Encodable
  functions : ∀ x ∈ d.functions, x.Encodable

instance : DecidablePred Definitions.Encodable :=
  fun d => decidable_of_iff
    ((∀ x ∈ d.defines, x.Encodable) ∧ (∀ x ∈ d.enums, x.Encodable) ∧
      (∀ x ∈ d.typedefs, x.Encodable) ∧ (∀ x ∈ d.structs, x.Encodable) ∧
      ∀ x ∈ d.functions, x.Encodable)
    ⟨fun ⟨h₁, h₂, h₃, h₄, h₅⟩ => ⟨h₁, h₂, h₃, h₄, h₅⟩,
      fun h => ⟨h.defines, h.enums, h.typedefs, h.structs, h.functions⟩⟩

/-! ## Parts of an object -/

section Parts

variable {α : Type} {Encodes : α → Json → Prop} {read : Json → Except ReadFault α}

theorem optional_of_encodes {a : Option α} {v : Option Json}
    (h : EncodesOptional Encodes a v)
    (hread : ∀ x ∈ a, ∀ w, Encodes x w → read w = .ok x ∧ w ≠ .null) :
    optional read v = .ok a := by
  cases h with
  | omitted => rfl
  | null => rfl
  | @present x w hw =>
      obtain ⟨hx, hnull⟩ := hread x rfl w hw
      unfold optional
      split
      · rename_i hv
        exact absurd hv (by simp)
      · rename_i hv
        injection hv with hv
        exact absurd hv hnull
      · rename_i hv
        injection hv with hv
        rw [← hv, hx]
        rfl

theorem mapM_of_encodes {as : List α} {vs : List Json} (h : List.Forall₂ Encodes as vs)
    (hread : ∀ a ∈ as, ∀ w, Encodes a w → read w = .ok a) : vs.mapM read = .ok as := by
  induction h with
  | nil => rfl
  | cons ha _ ih =>
      rw [List.mapM_cons, hread _ List.mem_cons_self _ ha, ok_bind,
        ih fun a ha => hread a (List.mem_cons_of_mem _ ha)]
      rfl

theorem itemsOf_of_encodes {as : List α} {v : Option Json} (h : EncodesAll Encodes as v)
    (hread : ∀ a ∈ as, ∀ w, Encodes a w → read w = .ok a) : itemsOf read v = .ok as := by
  cases h with
  | omitted => rfl
  | null => rfl
  | @listed _ vs hvs =>
      have hcollection : collection (some (.arr vs)) = .ok vs := by
        cases vs with
        | nil => rfl
        | cons v rest => rfl
      rw [itemsOf, hcollection, ok_bind, mapM_of_encodes hvs hread]

theorem switch_of_encodes {b : Bool} {v : Option Json} (h : EncodesSwitch b v) : switch v = b := by
  cases h with
  | omitted => rfl
  | null => rfl
  | present b => cases b <;> rfl

end Parts

theorem ofJson_of_encodes {l : Leaf} {v : Json} (h : EncodesText l v) : Leaf.ofJson v = l := by
  cases h with
  | text s => rfl

theorem ofJsonD_of_has {ms : Members} {name : String} {l : Leaf}
    (h : Has ms name (EncodesText l)) (default : String) :
    Leaf.ofJsonD default (Json.member? ms name) = l := by
  obtain ⟨v, hv, htext⟩ := h
  rw [hv]
  exact ofJson_of_encodes htext

theorem ofJson?_of_encodes {l : Option Leaf} {v : Option Json}
    (h : EncodesOptional EncodesText l v) : Leaf.ofJson? v = l := by
  cases h with
  | omitted => rfl
  | null => rfl
  | present hx =>
      cases hx with
      | text s => rfl

/-- An empty text is read as the empty text that stands for a missing one. -/
theorem nameOrEmpty_of_has {ms : Members} {name : String} {l : Leaf}
    (h : Has ms name (EncodesText l)) : nameOrEmpty (Json.member? ms name) = l := by
  rw [nameOrEmpty, ofJsonD_of_has h]
  obtain ⟨v, _, htext⟩ := h
  cases htext with
  | text s =>
      rw [Leaf.orElse]
      split
      · rename_i hvacant
        rw [Leaf.isVacant, Leaf.toJson, Json.isVacant, String.isEmpty_iff] at hvacant
        rw [hvacant]
      · rfl

theorem nameOf_of_has {ms : Members} {l : Leaf} (h : Has ms "name" (EncodesText l)) :
    nameOf (.obj ms) = .ok l := by
  obtain ⟨v, hv, htext⟩ := h
  rw [nameOf, hv, ← ofJson_of_encodes htext]

/-! ## Comments and guards -/

theorem stripSlashes_slashes (line : String) : stripSlashes ("// " ++ line) = line := by
  have hchars : ("// " ++ line).toList = '/' :: '/' :: ' ' :: line.toList := by
    rw [String.toList_append]
    rfl
  rw [stripSlashes, hchars]
  exact String.ofList_toList

theorem commentLine_of_encodes {line : String} {v : Json} (h : EncodesLine line v) :
    commentLine v = .ok line := by
  subst h
  rw [commentLine, stripSlashes_slashes]

theorem commentLines_of_encodes {lines : List String} {v : Json} (h : EncodesLines lines v) :
    commentLines v = .ok lines := by
  obtain ⟨vs, rfl, hvs⟩ := h
  exact mapM_of_encodes hvs fun _ _ _ hw => commentLine_of_encodes hw

/-- An object with a line in it is not empty. -/
theorem isVacant_of_commentsMembers {c : Comments} (hc : c.Encodable) {ms : Members}
    (h : CommentsMembers c ms) : (Json.obj ms).isVacant = false := by
  cases ms with
  | cons m rest => rfl
  | nil =>
      obtain ⟨hattached, hpreceding⟩ := h
      rcases hc with hc | hc
      · obtain ⟨line, hline⟩ := Option.isSome_iff_exists.mp hc
        rw [hline] at hattached
        cases hattached
      · obtain ⟨lines, hlines⟩ := Option.isSome_iff_exists.mp hc
        rw [hlines] at hpreceding
        cases hpreceding

theorem commentsOf_of_encodes {c : Option Comments} {v : Option Json}
    (h : EncodesOptional EncodesComments c v) (hc : ∀ x ∈ c, x.Encodable) :
    commentsOf v = .ok c := by
  cases h with
  | omitted => rfl
  | null => rfl
  | @present c w hw =>
      obtain ⟨ms, rfl, hms⟩ := hw
      have hattached := optional_of_encodes hms.attached fun x _ w hw =>
        ⟨commentLine_of_encodes hw, by rw [hw]; simp⟩
      have hpreceding := optional_of_encodes hms.preceding fun x _ w hw =>
        ⟨commentLines_of_encodes hw, by obtain ⟨vs, rfl, _⟩ := hw; simp⟩
      rw [commentsOf, isVacant_of_commentsMembers (hc c rfl) hms, if_neg (by simp), membersOf,
        ok_bind, hattached, ok_bind, hpreceding]
      rfl

theorem guardOf_of_encodes {g : Guard} {v : Json} (h : EncodesGuard g v) : guardOf v = .ok g := by
  obtain ⟨ms, rfl, hms⟩ := h
  rw [guardOf, membersOf, ok_bind, ofJsonD_of_has hms.condition, ofJsonD_of_has hms.expression]
  rfl

theorem guardsOf_of_encodes {gs : List Guard} {v : Option Json} (h : EncodesAll EncodesGuard gs v) :
    guardsOf v = .ok gs := itemsOf_of_encodes h fun _ _ _ hw => guardOf_of_encodes hw

/-! ## Types -/

section Kind

variable {ms : Members} {kind : String} (hk : HasKind ms kind)

include hk

/-- An object with a tag is not empty. -/
theorem isVacant_of_hasKind : (Json.obj ms).isVacant = false := by
  cases ms with
  | nil => exact absurd hk (by simp [HasKind, Json.member?])
  | cons m rest => rfl

theorem kind_of_hasKind : Leaf.ofJsonD "" (Json.member? ms "kind") = .text kind := by
  rw [hk]
  rfl

end Kind

section Shapes

variable {ms : Members}

theorem typeOf_builtin (hk : HasKind ms "Builtin") :
    typeOf (.obj ms) = .ok (.builtin (nameOrEmpty (Json.member? ms "builtin_type"))) := by
  rw [typeOf, isVacant_of_hasKind hk]
  simp [kind_of_hasKind hk]

theorem typeOf_user (hk : HasKind ms "User") :
    typeOf (.obj ms) = .ok (.user (nameOrEmpty (Json.member? ms "name"))) := by
  rw [typeOf, isVacant_of_hasKind hk]
  simp [kind_of_hasKind hk]

theorem typeOf_pointer (hk : HasKind ms "Pointer") :
    typeOf (.obj ms) = (do return .pointer (← typeOfMember ms "inner_type")) := by
  rw [typeOf, isVacant_of_hasKind hk]
  simp [kind_of_hasKind hk]

theorem typeOf_array (hk : HasKind ms "Array") : typeOf (.obj ms) = (do
    let element ← typeOfMember ms "inner_type"
    return .array element (boundOf (Json.member? ms "bounds"))) := by
  rw [typeOf, isVacant_of_hasKind hk]
  simp [kind_of_hasKind hk]

theorem typeOf_named (hk : HasKind ms "Type") : typeOf (.obj ms) = (do
    let inner ← typeOfMember ms "inner_type"
    return .named (Leaf.ofJson? (Json.member? ms "name")) inner) := by
  rw [typeOf, isVacant_of_hasKind hk]
  simp [kind_of_hasKind hk]

/-- Parameters are read from an array; a missing or null member stands for none. -/
theorem typeOf_function (hk : HasKind ms "Function") {returnType : TypeDesc}
    (hreturn : typeOfMember ms "return_type" = .ok returnType) {parameters : List TypeDesc}
    (h : EncodesAll EncodesType parameters (Json.member? ms "parameters"))
    (hread : ∀ vs, List.Forall₂ EncodesType parameters vs → typesOf vs = .ok parameters) :
    typeOf (.obj ms) = .ok (.function returnType parameters) := by
  rw [typeOf, isVacant_of_hasKind hk]
  simp only [kind_of_hasKind hk, Leaf.text.injEq, String.reduceEq, if_false, if_true,
    Bool.false_eq_true, hreturn, ok_bind]
  split
  · rename_i hv
    rw [hv] at h
    cases h with
    | omitted => rfl
  · rename_i vs hv
    rw [hv] at h
    cases h with
    | listed hvs =>
        rw [hread vs hvs]
        rfl
  · rename_i v hnot hv
    rw [hv] at h
    cases h with
    | null => rfl
    | listed _ => exact absurd rfl (hnot _)

theorem typeOf_unsupported {kind : String} (hk : HasKind ms kind)
    (hunknown : IsUnknownKind (.text kind)) : typeOf (.obj ms) = .ok (.unsupported kind) := by
  obtain ⟨hne, hnot⟩ := hunknown
  have hkind : (Leaf.text kind).orElse "missing" = .text kind := by
    rw [Leaf.orElse, if_neg]
    rw [Leaf.isVacant, Leaf.toJson, Json.isVacant, String.isEmpty_iff]
    exact hne
  simp only [knownKinds, List.mem_cons, List.not_mem_nil, or_false, not_or] at hnot
  rw [typeOf, isVacant_of_hasKind hk]
  simp [kind_of_hasKind hk, hnot, hkind]

end Shapes

theorem typeOfMember_eq {ms : Members} {name : String} {v : Json}
    (hv : Json.member? ms name = some v) : typeOfMember ms name = typeOf v := by
  rw [typeOfMember]
  split
  · rename_i hnone
    exact absurd (hnone.symm.trans hv) (by simp)
  · rename_i w hw
    rw [Option.some.inj (hv.symm.trans hw)]

theorem boundOf_of_encodes {bound : Option String} {v : Option Json}
    (h : EncodesOptional (fun s => EncodesText (.text s)) bound v) : boundOf v = bound := by
  cases h with
  | omitted => rfl
  | null => rfl
  | present hs =>
      cases hs with
      | text s => rfl

mutual

/-- Each shape is read back, by recursion along the type. -/
theorem typeOf_of_encodes : ∀ (t : TypeDesc) {v : Json}, EncodesType t v → t.Encodable →
    typeOf v = .ok t
  | .builtin name, _, h, _ => by
      cases h with
      | builtin hk hname => rw [typeOf_builtin hk, nameOrEmpty_of_has hname]
  | .user name, _, h, _ => by
      cases h with
      | user hk hname => rw [typeOf_user hk, nameOrEmpty_of_has hname]
  | .pointer inner, _, h, hkinds => by
      cases h with
      | pointer hk hv h =>
          rw [typeOf_pointer hk, typeOfMember_eq hv, typeOf_of_encodes inner h hkinds]
          rfl
  | .array element bound, _, h, hkinds => by
      cases h with
      | array hk hv h hbound =>
          rw [typeOf_array hk, typeOfMember_eq hv, typeOf_of_encodes element h hkinds,
            boundOf_of_encodes hbound]
          rfl
  | .function returnType parameters, _, h, hkinds => by
      rw [TypeDesc.Encodable, TypeDesc.unsupportedKinds, List.forall_mem_append] at hkinds
      cases h with
      | function hk hv h hparameters =>
          refine typeOf_function hk ?_ hparameters fun vs hvs => ?_
          · rw [typeOfMember_eq hv, typeOf_of_encodes returnType h hkinds.1]
          · exact typesOf_of_encodes parameters hvs hkinds.2
  | .named name inner, _, h, hkinds => by
      cases h with
      | named hk hname hv h =>
          rw [typeOf_named hk, typeOfMember_eq hv, typeOf_of_encodes inner h hkinds,
            ofJson?_of_encodes hname]
          rfl
  | .unsupported kind, _, h, hkinds => by
      cases h with
      | unsupported hk => exact typeOf_unsupported hk (hkinds _ List.mem_cons_self)

theorem typesOf_of_encodes : ∀ (ts : List TypeDesc) {vs : List Json},
    List.Forall₂ EncodesType ts vs → (∀ k ∈ TypeDesc.allUnsupportedKinds ts, IsUnknownKind k) →
    typesOf vs = .ok ts
  | [], _, h, _ => by
      cases h
      rw [typesOf]
  | t :: ts, _, h, hkinds => by
      rw [TypeDesc.allUnsupportedKinds, List.forall_mem_append] at hkinds
      cases h with
      | cons ht hts =>
          rw [typesOf, typeOf_of_encodes t ht hkinds.1, ok_bind,
            typesOf_of_encodes ts hts hkinds.2]
          rfl

end

theorem presentTypeRefOf_of_encodes {t : TypeRef} {v : Json} (h : EncodesTypeRef t v)
    (hkinds : t.description.Encodable) : presentTypeRefOf v = .ok t ∧ v ≠ .null := by
  obtain ⟨ms, rfl, hdeclaration, w, hw, hdescription⟩ := h
  refine ⟨?_, by simp⟩
  rw [presentTypeRefOf, membersOf, ok_bind, ofJsonD_of_has hdeclaration, typeOfMember_eq hw,
    typeOf_of_encodes t.description hdescription hkinds]
  rfl

theorem typeRefOf_of_encodes {t : Option TypeRef} {v : Option Json}
    (h : EncodesOptional EncodesTypeRef t v) (hkinds : ∀ x ∈ t, x.description.Encodable) :
    typeRefOf v = .ok t :=
  optional_of_encodes h fun x hx _ hw => presentTypeRefOf_of_encodes hw (hkinds x hx)

/-- A type that has to be there is read as one that may be missing. -/
theorem typeRefOf_of_has {ms : Members} {name : String} {t : TypeRef}
    (h : Has ms name (EncodesTypeRef t)) (hkinds : t.description.Encodable) :
    typeRefOf (Json.member? ms name) = .ok (some t) := by
  obtain ⟨v, hv, ht⟩ := h
  rw [hv]
  exact typeRefOf_of_encodes (.present ht) fun x hx => Option.some.inj hx ▸ hkinds

/-! ## Items -/

theorem defineOf_of_encodes {d : Define} (hd : d.Encodable) {v : Json}
    (h : IsObject (DefineMembers d) v) : defineOf v = .ok d := by
  obtain ⟨ms, rfl, hms⟩ := h
  rw [defineOf, nameOf_of_has hms.name, ok_bind, membersOf, ok_bind,
    guardsOf_of_encodes hms.guards, ok_bind, commentsOf_of_encodes hms.comments hd, ok_bind,
    ofJson?_of_encodes hms.content]
  rfl

theorem enumElementOf_of_encodes {e : EnumElement} (he : e.Encodable) {v : Json}
    (h : IsObject (EnumElementMembers e) v) : enumElementOf v = .ok e := by
  obtain ⟨ms, rfl, hms⟩ := h
  rw [enumElementOf, nameOf_of_has hms.name, ok_bind, membersOf, ok_bind, hms.value,
    Option.getD_some, integerOf, ok_bind, guardsOf_of_encodes hms.guards, ok_bind,
    commentsOf_of_encodes hms.comments he]
  rfl

theorem enumOf_of_encodes {e : Enum} (he : e.Encodable) {v : Json}
    (h : IsObject (EnumMembers e) v) : enumOf v = .ok e := by
  obtain ⟨ms, rfl, hms⟩ := h
  obtain ⟨vs, hcollection, helements⟩ := bind_eq_ok.mp (itemsOf_of_encodes hms.elements
    fun x hx _ hw => enumElementOf_of_encodes (he.1 x hx) hw)
  rw [enumOf, membersOf, ok_bind, hcollection, ok_bind, helements, ok_bind,
    nameOf_of_has hms.name, ok_bind, guardsOf_of_encodes hms.guards, ok_bind,
    commentsOf_of_encodes hms.comments he.2, ok_bind, switch_of_encodes hms.isFlags]
  rfl

theorem typedefOf_of_encodes {t : Typedef} (ht : t.Encodable) {v : Json}
    (h : IsObject (TypedefMembers t) v) : typedefOf v = .ok t := by
  obtain ⟨ms, rfl, hms⟩ := h
  rw [typedefOf, membersOf, ok_bind, typeRefOf_of_has hms.type ht.1, ok_bind,
    nameOf_of_has hms.name, ok_bind, guardsOf_of_encodes hms.guards, ok_bind,
    commentsOf_of_encodes hms.comments ht.2]
  rfl

theorem fieldOf_of_encodes {f : Field} (hf : f.Encodable) {v : Json}
    (h : IsObject (FieldMembers f) v) : fieldOf v = .ok f := by
  obtain ⟨ms, rfl, hms⟩ := h
  rw [fieldOf, membersOf, ok_bind, typeRefOf_of_has hms.type hf.1, ok_bind,
    nameOf_of_has hms.name, ok_bind, guardsOf_of_encodes hms.guards, ok_bind,
    commentsOf_of_encodes hms.comments hf.2, ok_bind, switch_of_encodes hms.isArray,
    ofJson?_of_encodes hms.arrayBounds]
  rfl

theorem structOf_of_encodes {s : Struct} (hs : s.Encodable) {v : Json}
    (h : IsObject (StructMembers s) v) : structOf v = .ok s := by
  obtain ⟨ms, rfl, hms⟩ := h
  obtain ⟨vs, hcollection, hfields⟩ := bind_eq_ok.mp (itemsOf_of_encodes hms.fields
    fun f hf _ hw => fieldOf_of_encodes (hs.1 f hf) hw)
  rw [structOf, membersOf, ok_bind, hcollection, ok_bind, hfields, ok_bind,
    nameOf_of_has hms.name, ok_bind, guardsOf_of_encodes hms.guards, ok_bind,
    commentsOf_of_encodes hms.comments hs.2]
  rfl

theorem argumentOf_of_encodes {a : Argument} (ha : a.Encodable) {v : Json}
    (h : IsObject (ArgumentMembers a) v) : argumentOf v = .ok a := by
  obtain ⟨ms, rfl, hms⟩ := h
  rw [argumentOf, membersOf, ok_bind, typeRefOf_of_encodes hms.type ha, ok_bind,
    nameOrEmpty_of_has hms.name, switch_of_encodes hms.isArray, switch_of_encodes hms.isVarargs,
    ofJson?_of_encodes hms.arrayBounds]
  rfl

theorem functionOf_of_encodes {f : Function} (hf : f.Encodable) {v : Json}
    (h : IsObject (FunctionMembers f) v) : functionOf v = .ok f := by
  obtain ⟨ms, rfl, hms⟩ := h
  obtain ⟨hreturn, harguments, hcomments⟩ := hf
  obtain ⟨vs, hcollection, hread⟩ := bind_eq_ok.mp (itemsOf_of_encodes hms.arguments
    fun a ha _ hw => argumentOf_of_encodes (harguments a ha) hw)
  rw [functionOf, membersOf, ok_bind, hcollection, ok_bind, hread, ok_bind,
    nameOf_of_has hms.name, ok_bind, typeRefOf_of_encodes hms.returnType hreturn, ok_bind,
    guardsOf_of_encodes hms.guards, ok_bind, commentsOf_of_encodes hms.comments hcomments]
  rfl

/-- What describes a header is loaded as that header. -/
theorem ofJson_of_describes {d : Definitions} (hd : d.Encodable) {v : Json} (h : Encodes d v) :
    ofJson v = .ok d := by
  obtain ⟨ms, rfl, hms⟩ := h
  have hread : definitionsOf ms = .ok d := by
    rw [definitionsOf,
      itemsOf_of_encodes hms.defines fun x hx _ hw => defineOf_of_encodes (hd.defines x hx) hw,
      ok_bind,
      itemsOf_of_encodes hms.enums fun x hx _ hw => enumOf_of_encodes (hd.enums x hx) hw,
      ok_bind,
      itemsOf_of_encodes hms.typedefs fun x hx _ hw => typedefOf_of_encodes (hd.typedefs x hx) hw,
      ok_bind,
      itemsOf_of_encodes hms.structs fun x hx _ hw => structOf_of_encodes (hd.structs x hx) hw,
      ok_bind,
      itemsOf_of_encodes hms.functions
        fun x hx _ hw => functionOf_of_encodes (hd.functions x hx) hw]
    rfl
  rw [ofJson, hread]
  rfl

/-- The header has descriptions, and each of them is loaded as the header. -/
structure LoadsBack (d : Definitions) : Prop where
  /-- It can be written, with nothing or with null for what is missing. -/
  written : ∀ nulls, Encodes d (encode nulls d)
  /-- What is written is loaded. -/
  back : ∀ nulls, ofJson (encode nulls d) = .ok d
  /-- So is whatever else describes it. -/
  described : ∀ v, Encodes d v → ofJson v = .ok d

/-- **Loading undoes writing, for every well-typed header that can be told from others.** -/
theorem loadsBack_of_encodable {d : Definitions} (h : d.WellTyped) (hd : d.Encodable) :
    LoadsBack d :=
  ⟨fun _ => encodes_encode h, fun _ => ofJson_of_describes hd (encodes_encode h),
    fun _ hv => ofJson_of_describes hd hv⟩

/-- A type in which every shape occurs, with and without what may be missing. -/
def everyShape : TypeDesc :=
  .named (some "hook") (.pointer (.function (.builtin "void")
    [.named none (.user "T"), .unsupported "Vector",
      .array (.array (.builtin "") none) (some "4")]))

/-- A header with comments of every kind, and with parts that are empty or missing. -/
def everyPartHeader : Definitions where
  defines :=
    [{ name := "A", content := some "", guards := [⟨"ifdef", "B"⟩] },
     { name := "B", comments := some { attached := some "// twice" } }]
  enums :=
    [{ name := "E_", isFlags := true,
       elements := [{ name := "X", value := -1, comments := some { preceding := some [] } }] }]
  typedefs := [{ name := "hook", type := { declaration := "hook", description := everyShape } }]
  structs :=
    [{ name := "S",
       fields :=
         [{ name := "xs", type := { description := everyShape }, isArray := true,
            arrayBounds := some "4",
            comments := some { attached := some "", preceding := some ["one", " two"] } }] }]
  functions :=
    [{ name := "f", returnType := some { description := .missing },
       arguments :=
         [{ name := "a", type := some { description := everyShape } },
          { name := "", isVarargs := true }] }]

theorem loadsBack_everyPartHeader : everyPartHeader.WellTyped ∧ everyPartHeader.Encodable ∧
    LoadsBack everyPartHeader :=
  ⟨by decide, by decide, loadsBack_of_encodable (by decide) (by decide)⟩

end NativeBindings.Header
