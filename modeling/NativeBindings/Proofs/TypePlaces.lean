import NativeBindings.Proofs.DelegateReferences

/-!
# Types and their places

Every type that is written stands at the place of a description in the header: fields and
elements of arrays, what functions take and return, and the signatures of delegates. The
accepted part of a header and its finished declarations go through these places side by
side. Only an array field may give its place away, to the element of a wrapper; wrappers
stand in the order of their fields.

`TypesIn R` says that every description and its type are in a relation. If one relation is
known to hold, another one holds exactly if something is true of the descriptions.
-/

namespace NativeBindings

open Header (TypeDesc Signature)
open CSharp Build

/-! ## Places in a header -/

/-- What a field is about: its elements if it is an array. -/
def fieldPlace (f : Header.Field) : TypeDesc :=
  if isArrayField f then (arrayShape f.type.description).1 else f.type.description

/-- The description of a type that may be missing. -/
def describedBy : Option Header.TypeRef → TypeDesc
  | none => .missing
  | some t => t.description

/-- An array is passed as a pointer to its elements. -/
def passedAs : TypeDesc → TypeDesc
  | .array element _ => .pointer element
  | t => t

theorem passedAs_eq_self {t : TypeDesc} (h : ∀ element bound, t ≠ .array element bound) :
    passedAs t = t := by
  unfold passedAs
  split
  · exact absurd rfl (h _ _)
  · rfl

/-- What a function returns, and what it is passed. -/
def functionPlaces (f : Header.Function) : List TypeDesc :=
  describedBy f.returnType :: f.arguments.map fun a => passedAs (describedBy a.type)

/-- What a function pointer returns, and what it is passed. -/
def signaturePlaces (s : Signature) : List TypeDesc :=
  s.returnType :: s.parameters.map bareParameter

/-- The signature of the delegate that a field brings. -/
def fieldSignature? (f : Header.Field) : Option Signature :=
  if isArrayField f then none else f.type.description.functionPointer?.map (·.2)

/-- The signature of the delegate that an argument brings. -/
def argumentSignature? (a : Header.Argument) : Option Signature :=
  (describedBy a.type).functionPointer?.map (·.2)

/-- The signature of the delegate that a typedef makes. -/
def typedefSignature? (t : Header.Typedef) : Option Signature :=
  t.type.description.functionPointer?.map (·.2)

/-- The signatures of all delegates, in the order of the delegates. -/
def signatures (d : Header.Definitions) : List Signature :=
  d.functions.flatMap (·.arguments.filterMap argumentSignature?) ++
    d.typedefs.filterMap typedefSignature? ++
      d.structs.flatMap (·.fields.filterMap fieldSignature?)

/-- The descriptions at all places. -/
def places (d : Header.Definitions) : List TypeDesc :=
  d.structs.flatMap (·.fields.map fieldPlace) ++
    (d.functions.flatMap functionPlaces ++ (signatures d).flatMap signaturePlaces)

/-! ## Types at their places -/

section In

variable (R : TypeDesc → CsType → Prop)

/-- The types of fields are in the relation to their places. Wrappers are taken off the first list
of structs, and the second one has those that are left. -/
inductive FieldsIn (struct : Leaf) :
    List Header.Field → List Field → List Struct → List Struct → Prop where
  | nil {ws : List Struct} : FieldsIn struct [] [] ws ws
  /-- The type stands in the field. -/
  | own {f : Header.Field} {f' : Field} {fs : List Header.Field} {fs' : List Field}
      {ws rest : List Struct} (hname : f'.name = f.name) (harray : f'.isArray = isArrayField f)
      (h : R (fieldPlace f) f'.type) (hrest : FieldsIn struct fs fs' ws rest) :
      FieldsIn struct (f :: fs) (f' :: fs') ws rest
  /-- The type stands in the wrapper for the array, and the field refers to the wrapper. -/
  | wrapped {f : Header.Field} {f' : Field} {w : Struct} {type : CsType} {fs : List Header.Field}
      {fs' : List Field} {ws rest : List Struct} (hname : f'.name = f.name)
      (ha : isArrayField f = true) (harray : f'.isArray = false)
      (htype : f'.type = { base := Finish.wrapperName struct f.name })
      (hwrapper : w.name = Finish.wrapperName struct f.name) (helement : w.types = [type])
      (h : R (fieldPlace f) type) (hrest : FieldsIn struct fs fs' ws rest) :
      FieldsIn struct (f :: fs) (f' :: fs') (w :: ws) rest

/-- The types of the fields of structs are in the relation to their places. -/
inductive StructsIn : List Header.Struct → List Struct → List Struct → Prop where
  | nil : StructsIn [] [] []
  | cons {s : Header.Struct} {s' : Struct} {ss : List Header.Struct} {ss' ws rest : List Struct}
      (hname : s'.name = s.name) (h : FieldsIn R s.name s.fields s'.fields ws rest)
      (hrest : StructsIn ss ss' rest) : StructsIn (s :: ss) (s' :: ss') ws

/-- All types of finished declarations are in the relation to their places in a header. -/
structure TypesIn (d : Header.Definitions) (final : DeclarationSet) : Prop where
  /-- Structs, fields and wrappers are those of the header. -/
  structs : StructsIn R d.structs final.structs final.inlineArrays
  /-- Functions are those of the header, with their results and arguments. -/
  functions : List.Forall₂ (fun f f' => f'.name = f.name ∧
    List.Forall₂ R (functionPlaces f) f'.types) d.functions final.functions
  /-- There is a delegate for every signature. -/
  delegates : List.Forall₂ (fun s x => List.Forall₂ R (signaturePlaces s) x.types)
    (signatures d) final.delegates

end In

section Iff

variable {R S : TypeDesc → CsType → Prop} {P : TypeDesc → Prop}

theorem FieldsIn.iff {struct : Leaf} {fs : List Header.Field} {fs' : List Field}
    {ws rest rest' : List Struct} (h : FieldsIn R struct fs fs' ws rest)
    (hR : ∀ t type, R t type → (S t type ↔ P t)) :
    FieldsIn S struct fs fs' ws rest' ↔ rest' = rest ∧ ∀ f ∈ fs, P (fieldPlace f) := by
  induction h with
  | nil =>
      constructor
      · intro h'
        cases h'
        exact ⟨rfl, fun f hf => absurd hf (by simp)⟩
      · rintro ⟨rfl, _⟩
        exact .nil
  | own hname harray h _ ih =>
      rw [List.forall_mem_cons, ← hR _ _ h, and_left_comm, ← ih]
      constructor
      · intro h'
        cases h' with
        | own _ _ hS hrest => exact ⟨hS, hrest⟩
        | wrapped _ ha hwrapped _ _ _ _ _ =>
            rw [harray, ha] at hwrapped
            exact absurd hwrapped (by simp)
      · intro h'
        exact .own hname harray h'.1 h'.2
  | wrapped hname ha harray htype hwrapper helement h _ ih =>
      rw [List.forall_mem_cons, ← hR _ _ h, and_left_comm, ← ih]
      constructor
      · intro h'
        cases h' with
        | own _ hown _ _ =>
            rw [harray, ha] at hown
            exact absurd hown (by simp)
        | wrapped _ _ _ _ _ helement' hS hrest =>
            rw [helement] at helement'
            injection helement' with hsame
            exact ⟨hsame ▸ hS, hrest⟩
      · intro h'
        exact .wrapped hname ha harray htype hwrapper helement h'.1 h'.2

theorem StructsIn.iff {ss : List Header.Struct} {ss' ws : List Struct}
    (h : StructsIn R ss ss' ws) (hR : ∀ t type, R t type → (S t type ↔ P t)) :
    StructsIn S ss ss' ws ↔ ∀ s ∈ ss, ∀ f ∈ s.fields, P (fieldPlace f) := by
  induction h with
  | nil => exact ⟨fun _ s hs => absurd hs (by simp), fun _ => .nil⟩
  | cons hname h _ ih =>
      rw [List.forall_mem_cons, ← ih]
      constructor
      · intro h'
        cases h' with
        | cons _ hfields hrest =>
            -- both relations take the same wrappers off the list
            obtain ⟨rfl, hP⟩ := (h.iff hR).mp hfields
            exact ⟨hP, hrest⟩
      · intro h'
        exact .cons hname ((h.iff hR).mpr ⟨rfl, h'.1⟩) h'.2

/-- **Where one relation holds at all places, another one does exactly if every description has the
property that decides it.** -/
theorem TypesIn.iff {d : Header.Definitions} {final : DeclarationSet} (h : TypesIn R d final)
    (hR : ∀ t type, R t type → (S t type ↔ P t)) :
    TypesIn S d final ↔ ∀ t ∈ places d, P t := by
  have hstructs := h.structs.iff hR
  have hfunctions := forall₂_iff (S := fun f f' => f'.name = f.name ∧
    List.Forall₂ S (functionPlaces f) f'.types) h.functions fun f f' hf =>
      (and_iff_right hf.1).trans (forall₂_iff hf.2 hR)
  have hdelegates := forall₂_iff (S := fun s x => List.Forall₂ S (signaturePlaces s) x.types)
    h.delegates fun s x hs => forall₂_iff hs hR
  simp only [places, List.forall_mem_append, List.forall_mem_flatMap, List.forall_mem_map]
  rw [← hstructs, ← hfunctions, ← hdelegates]
  exact ⟨fun h' => ⟨h'.structs, h'.functions, h'.delegates⟩, fun h' => ⟨h'.1, h'.2.1, h'.2.2⟩⟩

end Iff

/-! ## The accepted part of a header -/

/-- The type that is built at the place of a description. -/
inductive PlaceType (native : NativeTypes) (t : TypeDesc) : CsType → Prop where
  | converted {type : CsType} (h : Converted native t type) : PlaceType native t type
  /-- A function pointer gets its delegate, or a pointer to anything. -/
  | functionPointer {type : CsType}
      (hp : t.functionPointer? ≠ none ∨ ∃ r ps, t = .pointer (.function r ps)) :
      PlaceType native t type
  | refused (h : ∃ cause, (convert native t).result = .ok (.error cause)) :
      PlaceType native t .unknown
  /-- What has no description returns nothing. -/
  | nothing (h : t = .missing) : PlaceType native t { base := "void" }

/-- The type that is written at the place of a description: the one that is built, resolved. -/
def WrittenType (aliases : Aliases) (native : NativeTypes) (t : TypeDesc) (type : CsType) : Prop :=
  ∃ built, PlaceType native t built ∧ aliases.resolve built = type

namespace Build

variable {native : NativeTypes}

theorem SlotType.placeType {t : TypeDesc} {type : CsType} (h : SlotType native t type) :
    PlaceType native t type := by
  cases h with
  | functionPointer hp => exact .functionPointer hp
  | converted _ h => exact .converted h
  | refused h => exact .refused h

theorem FieldFrom.placeType {f : Header.Field} {b : BuiltField} (h : FieldFrom native f b) :
    PlaceType native (fieldPlace f) b.field.type := by
  rw [fieldPlace]
  cases h with
  | array ha h => rw [if_pos ha]; exact .converted h
  | functionPointer ha hp => rw [if_neg (by simp [ha])]; exact .functionPointer (.inl (by simp [hp]))
  | converted ha _ h => rw [if_neg (by simp [ha])]; exact .converted h

theorem ArgumentFrom.placeType {function : Leaf} {a : Header.Argument} {b : BuiltArgument}
    (h : ArgumentFrom native function a b) :
    PlaceType native (passedAs (describedBy a.type)) b.argument.type := by
  cases h with
  | array ht ha h htype =>
      rw [ht, describedBy, ha, htype]
      exact .converted (.pointer h)
  | functionPointer ht hp =>
      rw [ht, describedBy, passedAs_eq_self fun _ _ ha => ?_]
      · exact .functionPointer (.inl (by simp [hp]))
      · rw [ha] at hp
        exact absurd hp (by simp [TypeDesc.functionPointer?])
  | converted ht _ h =>
      rw [ht, describedBy, passedAs_eq_self fun _ _ ha => not_converted_array (ha ▸ h)]
      exact .converted h

theorem ReturnFrom.placeType {f : Header.Function} {type : CsType} (h : ReturnFrom native f type) :
    PlaceType native (describedBy f.returnType) type := by
  cases h with
  | void ht => rw [ht]; exact .nothing rfl
  | converted ht h => rw [ht]; exact .converted h
  | refused ht h => rw [ht]; exact .refused h

/-- The types of a delegate go along with the places in its signature. -/
theorem DelegateFrom.placeTypes {name : Leaf} {s : Signature} {x : Delegate}
    (h : DelegateFrom native name s x) :
    List.Forall₂ (PlaceType native) (signaturePlaces s) x.types := by
  refine .cons h.returnType.placeType ?_
  rw [List.forall₂_map_left_iff, List.forall₂_map_right_iff]
  exact h.arguments.imp fun _ _ hslot => hslot.placeType

/-- The delegate that is brought, if there is one, comes from the signature. -/
def BroughtFrom (native : NativeTypes) : Option Signature → Option Delegate → Prop :=
  Option.Rel fun s x => ∃ name, DelegateFrom native name s x

theorem FieldFrom.broughtFrom {f : Header.Field} {b : BuiltField} (h : FieldFrom native f b) :
    BroughtFrom native (fieldSignature? f) b.delegate := by
  rw [fieldSignature?]
  cases h with
  | array ha _ hd => rw [if_pos ha, hd]; exact .none
  | functionPointer ha hp _ h hd =>
      rw [if_neg (by simp [ha]), hp, hd]
      exact .some ⟨_, h⟩
  | converted ha hp _ hd => rw [if_neg (by simp [ha]), hp, hd]; exact .none

theorem ArgumentFrom.broughtFrom {function : Leaf} {a : Header.Argument} {b : BuiltArgument}
    (h : ArgumentFrom native function a b) :
    BroughtFrom native (argumentSignature? a) b.delegate := by
  rw [argumentSignature?]
  cases h with
  | array ht ha _ _ hd => rw [ht, describedBy, ha, hd]; exact .none
  | functionPointer ht hp _ _ h hd =>
      rw [ht, describedBy, hp, hd]
      exact .some ⟨_, h⟩
  | converted ht hp _ hd => rw [ht, describedBy, hp, hd]; exact .none

end Build

section Accepted

variable {o : Options} {d : Header.Definitions} (aliases : Aliases)

/-- Fields that are laid out stand at their places. -/
theorem fieldsIn_layOut {native : NativeTypes} (scope : Finish.BoundScope) (struct : Leaf)
    {fs : List Header.Field} {bs : List BuiltField} (h : List.Forall₂ (FieldFrom native) fs bs)
    (rest : List Struct) :
    FieldsIn (WrittenType aliases native) struct fs
      (((bs.map (·.field)).map (Finish.layOutField aliases scope struct)).map (·.field))
      (((bs.map (·.field)).map (Finish.layOutField aliases scope struct)).filterMap (·.wrapper) ++
        rest) rest := by
  induction h with
  | nil => exact .nil
  | @cons f b _ _ hfrom _ ih =>
      obtain ⟨hname, harray⟩ := hfrom.sameShape
      have hwritten : WrittenType aliases native (fieldPlace f) (aliases.resolve b.field.type) :=
        ⟨_, hfrom.placeType, rfl⟩
      rw [List.map_cons, List.map_cons, List.map_cons]
      cases Finish.layOutField_laidOut aliases scope struct b.field with
      | own htype hnone hsame hisArray =>
          rw [List.filterMap_cons_none hnone]
          exact .own (hsame.trans hname) (hisArray.trans harray) (htype ▸ hwritten) ih
      | wrapped htype hsome htypes hsame hwrapper ha hisArray =>
          rw [List.filterMap_cons_some hsome]
          rw [hname] at htype hwrapper
          exact .wrapped (hsame.trans hname) (harray.symm.trans ha) hisArray htype hwrapper htypes
            hwritten ih

variable (h : d.WellTyped)
  (hall : AllAccepted o (knownAfter (Builder.start o).known d.defines) d)

include h hall

theorem structsIn_finish (scope : Finish.BoundScope) {ss : List Header.Struct} {ss' : List Struct}
    (hss : List.Forall₂ (fun s s' => s ∈ d.structs ∧
      s' = builtStruct (knownAfter (Builder.start o).known d.defines) nativeTypes o s) ss ss') :
    StructsIn (WrittenType aliases nativeTypes) ss (ss'.map (Finish.struct aliases scope))
      (ss'.flatMap (Finish.wrappers aliases scope)) := by
  induction hss with
  | nil => exact .nil
  | cons hs _ ih =>
      obtain ⟨hs, rfl⟩ := hs
      exact .cons rfl (fieldsIn_layOut aliases scope _ (forall₂_fields h hall hs) _) ih

/-- The types of every function go along with its places. -/
theorem forall₂_functionPlaces {f : Header.Function} (hf : f ∈ d.functions) :
    List.Forall₂ (PlaceType nativeTypes) (functionPlaces f)
      (builtFunction nativeTypes o f).function.types := by
  refine .cons (builtReturnType_from (h.functions f hf) nativeTypes).placeType ?_
  rw [List.forall₂_map_left_iff, List.forall₂_map_right_iff]
  exact List.forall₂_map_right_iff.mpr
    ((forall₂_arguments h hall hf).imp fun _ _ hfrom => hfrom.placeType)

/-- Every signature has its delegate, in the order of the delegates. -/
theorem forall₂_signatures : List.Forall₂ (fun s x => ∃ name, DelegateFrom nativeTypes name s x)
    (signatures d) (Finish.allDelegates (builtDeclarations (.start o) d)) := by
  -- delegates come from arguments first, then from typedefs, and from fields last
  refine List.rel_append (List.rel_append ?_ ?_) ?_
  · refine List.rel_flatMap (forall₂_functions hall) fun f b hb => ?_
    obtain ⟨hf, rfl⟩ := hb
    exact List.rel_filterMap (fun _ _ hfrom => hfrom.broughtFrom) (forall₂_arguments h hall hf)
  · refine List.rel_filterMap (fun t r hr => ?_) (forall₂_typedefs h hall)
    rw [typedefSignature?]
    cases hr with
    | delegate hp hd => rw [hp]; exact .some ⟨_, hd⟩
    | typeAlias hp => rw [hp]; exact .none
    | identity hp => rw [hp]; exact .none
  · refine List.rel_flatMap (forall₂_structs hall) fun s s' hs => ?_
    obtain ⟨hs, rfl⟩ := hs
    rw [delegates_builtStruct]
    exact List.rel_filterMap (fun _ _ hfrom => hfrom.broughtFrom) (forall₂_fields h hall hs)

/-- **If nothing of a header is rejected, all types are written at their places.** -/
theorem typesIn_declarations : TypesIn (WrittenType aliases nativeTypes) d
    (Finish.declarations o aliases (builtDeclarations (.start o) d)) where
  structs := structsIn_finish aliases h hall _ (forall₂_structs hall)
  functions := by
    refine List.forall₂_map_right_iff.mpr (List.forall₂_map_right_iff.mpr ?_)
    refine (forall₂_functions hall).imp fun f b hb => ?_
    obtain ⟨hf, rfl⟩ := hb
    rw [Finish.types_function]
    refine ⟨rfl, List.forall₂_map_right_iff.mpr ?_⟩
    exact (forall₂_functionPlaces h hall hf).imp fun _ _ htype => ⟨_, htype, rfl⟩
  delegates := by
    refine List.forall₂_map_right_iff.mpr ((forall₂_signatures h hall).imp fun s x hx => ?_)
    obtain ⟨_, hx⟩ := hx
    rw [Finish.types_delegate]
    exact List.forall₂_map_right_iff.mpr (hx.placeTypes.imp fun _ _ htype => ⟨_, htype, rfl⟩)

end Accepted

/-- The finished declarations of a header have all types at the places of its accepted part. -/
theorem typesIn_acceptedPart {d : Header.Definitions} (h : d.WellTyped) (o : Options) :
    TypesIn (WrittenType (aliasesOf o d) nativeTypes) (acceptedPart o d)
      (Finish.declarations o (aliasesOf o d) (builtDeclarations (.start o) d)) := by
  rw [← builtDeclarations_acceptedPart h o]
  exact typesIn_declarations _ (acceptedPart_wellTyped h o) (acceptedPart_allAccepted h o)

end NativeBindings
