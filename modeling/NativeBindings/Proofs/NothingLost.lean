import NativeBindings.Proofs.Verdicts

/-!
# Nothing is lost in silence

What is built from a collection of a header are images of some of its items, in the order of
the header and one for each. An item without an image was left out for a reason, and there is
a message that says so and has the name of the item in it. Inside the items it is the same:
for the values of an enum, for the fields of a struct and for the arguments of a function.
Only a typedef that gives a type its own name has neither an image nor a message.

Every judgement has one lemma that says what it makes of its item, or what it reports instead.
The lemmas speak of any header; that a well-typed one is built at all is known already.
-/

namespace NativeBindings

/-! ## Notices of losses -/

namespace Notice

/-- The name of what a notice says is left out. -/
def leftOut? : Notice → Option Leaf
  | defineExcluded name | enumExcluded name | enumValueExcluded name _ => some name
  | typedefExcluded name | typedefFailed name _ => some name
  | typedefOfWrapper name | typedefOfShape name _ => some name
  | structExcluded name | fieldExcluded name _ | fieldSkipped name _ _ => some name
  | functionExcluded name | functionDropped name _ | argumentIgnored name _ _ => some name
  | announced _ | builtinUnknown _ | defineUnsupported _ _ => none
  | delegateTypeUnknown _ _ _ | delegateParameterUnnamed _ _ => none
  | fieldDelegate _ _ | returnTypeUnknown _ _ => none
  | arrayUnresolved _ _ | arrayWrapped _ _ _ | loaded _ | wrote _ => none

/-- The message of the notice has the name in it. -/
def Mentions (n : Notice) (name : Leaf) : Prop :=
  ∃ before after, n.message.text = before ++ name.display ++ after

/-- Whatever is left out is mentioned. -/
theorem mentions_of_leftOut? {n : Notice} {name : Leaf} (h : n.leftOut? = some name) :
    n.Mentions name := by
  cases n with
  | defineExcluded x =>
      obtain rfl := Option.some.inj h
      exact ⟨"Skipped define ", covered, rfl⟩
  | enumExcluded x =>
      obtain rfl := Option.some.inj h
      exact ⟨"Skipped enum ", covered, rfl⟩
  | enumValueExcluded x enum =>
      obtain rfl := Option.some.inj h
      refine ⟨"Skipped enum value ", " of " ++ enum.display ++ covered, ?_⟩
      simp only [message, Message.progress, String.append_assoc]
  | typedefExcluded x =>
      obtain rfl := Option.some.inj h
      exact ⟨"Skipping typedef ", ", because its conditionals evaluated to false", rfl⟩
  | typedefFailed x problem =>
      obtain rfl := Option.some.inj h
      exact ⟨"Failed to write C# definition for ", _, String.append_assoc ..⟩
  | typedefOfWrapper x =>
      obtain rfl := Option.some.inj h
      exact ⟨"Unknown Type typedef ", "", String.append_empty.symm⟩
  | typedefOfShape x shape =>
      obtain rfl := Option.some.inj h
      exact ⟨"Unknown typedef kind for ", ": " ++ shape, String.append_assoc ..⟩
  | structExcluded x =>
      obtain rfl := Option.some.inj h
      exact ⟨"Skipped struct ", covered, rfl⟩
  | fieldExcluded x struct =>
      obtain rfl := Option.some.inj h
      refine ⟨"Skipped field ", " of " ++ struct.display ++ covered, ?_⟩
      simp only [message, Message.progress, String.append_assoc]
  | fieldSkipped x struct problem =>
      obtain rfl := Option.some.inj h
      obtain ⟨reason, htext⟩ : ∃ reason, (fieldSkipped x struct problem).message.text =
          "Skipped field " ++ x.display ++ " of " ++ struct.display ++ ": " ++ reason := ⟨_, rfl⟩
      refine ⟨"Skipped field ", " of " ++ struct.display ++ ": " ++ reason, ?_⟩
      simp only [htext, String.append_assoc]
  | functionExcluded x =>
      obtain rfl := Option.some.inj h
      exact ⟨"Skipped function ", " because it has a false conditional", rfl⟩
  | functionDropped x problem =>
      obtain rfl := Option.some.inj h
      exact ⟨"Dropped function ", _, String.append_assoc ..⟩
  | argumentIgnored x function problem =>
      obtain rfl := Option.some.inj h
      obtain ⟨reason, htext⟩ : ∃ reason, (argumentIgnored x function problem).message.text =
          "Ignored parameter: " ++ x.display ++ " of " ++ function.display ++ reason := ⟨_, rfl⟩
      refine ⟨"Ignored parameter: ", " of " ++ function.display ++ reason, ?_⟩
      simp only [htext, String.append_assoc]
  | _ => exact absurd h (by simp [leftOut?])

end Notice

namespace Build

open Header (TypeDesc)
open CSharp

/-- Among the notices is one that says that something with this name is left out, and its message
has the name in it. -/
def Reported (notices : List Notice) (name : Leaf) : Prop :=
  ∃ n ∈ notices, n.leftOut? = some name ∧ n.Mentions name

theorem Reported.of_mem {notices : List Notice} {n : Notice} (h : n ∈ notices) {name : Leaf}
    (hname : n.leftOut? = some name) : Reported notices name :=
  ⟨n, h, hname, Notice.mentions_of_leftOut? hname⟩

/-! ## Images in order -/

section

variable {ι α β γ : Type}

/-- The results are images of some of the items, in their order and one for each. The other items
are lost. -/
inductive KeptInOrder (image : ι → α → Prop) (lost : ι → Prop) : List ι → List α → Prop where
  | nil : KeptInOrder image lost [] []
  | kept {i : ι} {a : α} {items : List ι} {as : List α} (h : image i a)
      (rest : KeptInOrder image lost items as) : KeptInOrder image lost (i :: items) (a :: as)
  | lost {i : ι} {items : List ι} {as : List α} (h : lost i)
      (rest : KeptInOrder image lost items as) : KeptInOrder image lost (i :: items) as

/-- The result is the image of the item, or there is no result and the item is lost. -/
def Accounted (image : α → Prop) (lost : Prop) : Option α → Prop
  | some a => image a
  | none => lost

namespace KeptInOrder

variable {image : ι → α → Prop} {lost : ι → Prop} {items : List ι} {as : List α}

theorem cons {i : ι} {r : Option α} (h : Accounted (image i) (lost i) r)
    (rest : KeptInOrder image lost items as) :
    KeptInOrder image lost (i :: items) (r.toList ++ as) := by
  cases r with
  | none => exact .lost h rest
  | some a => exact .kept h rest

theorem of_forall₂ {R : ι → β → Prop} {f : β → Option α} {bs : List β} (h : List.Forall₂ R items bs)
    (haccounted : ∀ i b, R i b → Accounted (image i) (lost i) (f b)) :
    KeptInOrder image lost items (bs.filterMap f) := by
  induction h with
  | nil => exact .nil
  | @cons i b _ _ hi _ ih =>
      rw [List.filterMap_cons]
      have hcons := ih.cons (haccounted i b hi)
      cases hb : f b with
      | none => rwa [hb] at hcons
      | some a => rwa [hb] at hcons

/-- An image of an image is an image, and what has none in the end is lost. -/
theorem filterMap {image' : ι → β → Prop} {lost' : ι → Prop} {f : α → Option β}
    (h : KeptInOrder image lost items as)
    (himage : ∀ i a, image i a → Accounted (image' i) (lost' i) (f a))
    (hlost : ∀ i, lost i → lost' i) : KeptInOrder image' lost' items (as.filterMap f) := by
  induction h with
  | nil => exact .nil
  | @kept i a _ _ hi _ ih =>
      rw [List.filterMap_cons]
      have hcons := ih.cons (himage i a hi)
      cases ha : f a with
      | none => rwa [ha] at hcons
      | some b => rwa [ha] at hcons
  | lost hi _ ih => exact .lost (hlost _ hi) ih

theorem map {image' : ι → β → Prop} {f : α → β} (h : KeptInOrder image lost items as)
    (himage : ∀ i a, image i a → image' i (f a)) : KeptInOrder image' lost items (as.map f) := by
  rw [← List.filterMap_eq_map]
  exact h.filterMap himage fun _ hi => hi

theorem imp {image' : ι → α → Prop} {lost' : ι → Prop} (h : KeptInOrder image lost items as)
    (himage : ∀ i a, image i a → image' i a) (hlost : ∀ i, lost i → lost' i) :
    KeptInOrder image' lost' items as := by
  induction h with
  | nil => exact .nil
  | kept hi _ ih => exact .kept (himage _ _ hi) ih
  | lost hi _ ih => exact .lost (hlost _ hi) ih

theorem append {items' : List ι} {as' : List α} (h : KeptInOrder image lost items as)
    (h' : KeptInOrder image lost items' as') :
    KeptInOrder image lost (items ++ items') (as ++ as') := by
  induction h with
  | nil => exact h'
  | kept hi _ ih => exact .kept hi ih
  | lost hi _ ih => exact .lost hi ih

theorem of_lost (h : ∀ i ∈ items, lost i) : KeptInOrder image lost items [] := by
  induction items with
  | nil => exact .nil
  | cons i rest ih =>
      exact .lost (h i List.mem_cons_self) (ih fun j hj => h j (List.mem_cons_of_mem i hj))

theorem flatMap {image' : γ → β → Prop} {lost' : γ → Prop} {f : ι → List γ} {g : α → List β}
    (h : KeptInOrder image lost items as)
    (himage : ∀ i a, image i a → KeptInOrder image' lost' (f i) (g a))
    (hlost : ∀ i, lost i → ∀ c ∈ f i, lost' c) :
    KeptInOrder image' lost' (items.flatMap f) (as.flatMap g) := by
  induction h with
  | nil => exact .nil
  | kept hi _ ih =>
      rw [List.flatMap_cons, List.flatMap_cons]
      exact (himage _ _ hi).append ih
  | lost hi _ ih =>
      rw [List.flatMap_cons]
      exact (of_lost (hlost _ hi)).append ih

/-- Results that are made from something are images by way of it. -/
theorem of_map {f : β → α} {bs : List β} (h : KeptInOrder image lost items (bs.map f)) :
    KeptInOrder (fun i b => image i (f b)) lost items bs := by
  generalize hbs : bs.map f = as at h
  induction h generalizing bs with
  | nil =>
      obtain rfl := List.map_eq_nil_iff.mp hbs
      exact .nil
  | kept hi _ ih =>
      obtain ⟨b, more, rfl, rfl, hmore⟩ := List.map_eq_cons_iff.mp hbs
      exact .kept hi (ih hmore)
  | lost hi _ ih => exact .lost hi (ih hbs)

/-- Every result is an image of one of the items. -/
theorem exists_of_mem (h : KeptInOrder image lost items as) {a : α} (ha : a ∈ as) :
    ∃ i ∈ items, image i a := by
  induction h with
  | nil => exact absurd ha (by simp)
  | kept hi _ ih =>
      rcases List.mem_cons.mp ha with rfl | ha
      · exact ⟨_, List.mem_cons_self, hi⟩
      · obtain ⟨i, hi, himage⟩ := ih ha
        exact ⟨i, List.mem_cons_of_mem _ hi, himage⟩
  | lost _ _ ih =>
      obtain ⟨i, hi, himage⟩ := ih ha
      exact ⟨i, List.mem_cons_of_mem _ hi, himage⟩

/-- Images that have the names of their items have them in their order. -/
theorem names_sublist {κ : Type} {key : ι → κ} {name : α → κ} (h : KeptInOrder image lost items as)
    (hname : ∀ i a, image i a → name a = key i) : (as.map name).Sublist (items.map key) := by
  induction h with
  | nil => exact .slnil
  | kept hi _ ih =>
      rw [List.map_cons, List.map_cons, hname _ _ hi]
      exact ih.cons_cons _
  | lost _ _ ih => exact ih.cons _

/-- Only the items with a property count, if all that are kept have it. -/
theorem filter_items {p : ι → Bool} (h : KeptInOrder image lost items as)
    (hp : ∀ i a, image i a → p i = true) : KeptInOrder image lost (items.filter p) as := by
  induction h with
  | nil => exact .nil
  | kept hi _ ih =>
      rw [List.filter_cons_of_pos (hp _ _ hi)]
      exact .kept hi ih
  | @lost i _ _ hi _ ih =>
      cases hpi : p i with
      | true =>
          rw [List.filter_cons_of_pos hpi]
          exact .lost hi ih
      | false =>
          rw [List.filter_cons_of_neg (by simp [hpi])]
          exact ih

/-- Items that are made from something are kept or lost by way of it. -/
theorem map_items {f : γ → ι} {cs : List γ}
    (h : KeptInOrder (fun c => image (f c)) (fun c => lost (f c)) cs as) :
    KeptInOrder image lost (cs.map f) as := by
  induction h with
  | nil => exact .nil
  | kept hi _ ih => exact .kept hi ih
  | lost hi _ ih => exact .lost hi ih

end KeptInOrder

end

section

variable {notices : List Notice} {known : Symbols} {native : NativeTypes} {o : Options}

/-! ## Delegates -/

/-- The delegate has this name, and nothing but its attribute in front of it. -/
structure DelegateImage (o : Options) (name : Leaf) (d : Delegate) : Prop where
  name : d.name = name
  modifiers : d.annotations.modifiers = []
  attributes : d.annotations.attributes = [o.delegateAttribute]
  arguments : ∀ a ∈ d.arguments, a.annotations = {}

theorem delegateParameter_gives (native : NativeTypes) (delegate : Leaf) (index : Nat)
    (t : TypeDesc) :
    (delegateParameter native delegate index t).Gives notices fun a => a.annotations = {} := by
  unfold delegateParameter
  split
  · exact .after fun _ => .after fun _ => .pure rfl
  · exact .after fun _ => .after fun _ => .after fun _ => .pure rfl

theorem delegateParameters_gives (native : NativeTypes) (delegate : Leaf) (index : Nat)
    (ts : List TypeDesc) : (delegateParameters native delegate index ts).Gives notices
      fun as => ∀ a ∈ as, a.annotations = {} := by
  induction ts generalizing index with
  | nil => exact .pure (by simp)
  | cons t rest ih =>
      rw [delegateParameters]
      refine .bind (delegateParameter_gives native delegate index t) fun a ha => ?_
      exact .bind (ih (index + 1)) fun as has => .pure (List.forall_mem_cons.mpr ⟨ha, has⟩)

theorem delegateOf_gives (native : NativeTypes) (o : Options) (name : Leaf)
    (s : Header.Signature) : (delegateOf native o name s).Gives notices (DelegateImage o name) :=
  .after fun _ => .bind (delegateParameters_gives native name 0 s.parameters) fun _ has =>
    .pure ⟨rfl, rfl, rfl, has⟩

/-! ## Defines -/

/-- The constant has the name and the comments of the define. -/
structure DefineImage (d : Header.Define) (c : Constant) : Prop where
  name : c.name = d.name
  annotations : c.annotations = annotationsOf d.comments

/-- The constants in the order of the header are images of defines, in whichever order the defines
were judged. -/
theorem define_images {ds : List Header.Define} {items : List Placed}
    {vs : List (Verdict AcceptedDefine)} (hperm : items.Perm (placed ds))
    (h : List.Forall₂ (GivenInTurn notices) items vs) :
    KeptInOrder DefineImage (fun d => Reported notices d.name) ds
      (inHeaderOrder ds.length (vs.filterMap Verdict.built?)) := by
  -- what stands at the place of a define is what its verdict accepts
  have haccounted : List.Forall₂ (fun p _ =>
      Accounted (DefineImage p.2) (Reported notices p.2.name)
        (((vs.filterMap Verdict.built?).find? (·.index = p.1)).map (·.constant)) ∧ True)
      items vs := by
    refine (forall₂_find?_accepted h (nodup_places hperm)).mp (fun p v hfind hp => ⟨?_, trivial⟩) h
    rw [hfind]
    cases hp.cases with
    | accepted _ name annotations => exact ⟨name, annotations⟩
    | excluded hn => exact .of_mem hn rfl
  have haccounted := ((List.forall₂_and_left _ _).mp haccounted).1
  have hkept := KeptInOrder.of_forall₂ (List.forall₂_same.mpr fun p hp =>
    haccounted p (hperm.mem_iff.mpr hp)) fun _ _ hp => hp
  rw [← inHeaderOrder_eq_filterMap] at hkept
  have hdefines : KeptInOrder DefineImage (fun d => Reported notices d.name)
      ((placed ds).map (·.2)) _ := hkept.map_items
  rwa [map_snd_placed] at hdefines

/-! ## Enums -/

/-- The value has the name and the comments of the element. -/
structure ValueImage (x : Header.EnumElement) (v : EnumValue) : Prop where
  name : v.name = x.name
  annotations : v.annotations = annotationsOf x.comments

/-- The enum has the name of the one in the header without an underscore at its end, its comments,
and the values for its elements. -/
structure EnumImage (notices : List Notice) (e : Header.Enum) (e' : Enum) : Prop where
  name : ∃ s, e.name = .text s ∧ e'.name = .text (withoutUnderscore s)
  annotations : e'.annotations =
    { annotationsOf e.comments with attributes := if e.isFlags then ["Flags"] else [] }
  values : KeptInOrder ValueImage (fun x => Reported notices x.name) e.elements e'.values

theorem enumValues_gives (known : Symbols) (o : Options) (enum : Leaf)
    (es : List Header.EnumElement) : (enumValues known o enum es).Gives notices
      (KeptInOrder ValueImage (fun x => Reported notices x.name) es) := by
  induction es with
  | nil => exact .pure .nil
  | cons x rest ih =>
      rw [enumValues]
      refine .afterExcept fun included _ => ?_
      cases included with
      | true => exact .bind ih fun vs hvs => .pure (.kept ⟨rfl, rfl⟩ hvs)
      | false => exact .afterReport fun hn => ih.imp fun vs hvs => .lost (.of_mem hn rfl) hvs

theorem judgeEnum_gives (known : Symbols) (o : Options) (e : Header.Enum) :
    (judgeEnum known o e).Gives notices fun v =>
      v ≠ .dropped ∧ Accounted (EnumImage notices e) (Reported notices e.name) v.built? := by
  refine judgeGuarded_gives (fun hn _ => ⟨by simp, .of_mem hn rfl⟩) fun _ => ?_
  refine .afterExcept fun name hname => ?_
  have hname : ∃ s, e.name = .text s ∧ name = .text (withoutUnderscore s) := by
    cases hleaf : e.name with
    | text s =>
        rw [hleaf] at hname
        exact ⟨s, rfl, (Except.ok.inj hname).symm⟩
    | other v =>
        rw [hleaf] at hname
        exact absurd hname (by simp [enumName])
  refine .bind (enumValues_gives known o e.name e.elements) fun values hvalues => ?_
  refine .pure ⟨by simp, hname, ?_, hvalues⟩
  cases e.isFlags with
  | true => rfl
  | false => cases e.comments <;> rfl

/-- The constant has the name and the comments of the element. -/
structure NumberImage (x : Header.EnumElement) (c : Constant) : Prop where
  name : c.name = x.name
  annotations : c.annotations = annotationsOf x.comments

/-- The numbers of the values are lost with their enums or on their own. -/
theorem number_images {es : List Header.Enum} {es' : List Enum}
    (h : KeptInOrder (EnumImage notices) (fun e => Reported notices e.name) es es')
    {xs : List Header.EnumElement} (hxs : es'.flatMap (·.values) = xs.map (enumValue o)) :
    KeptInOrder (fun x => NumberImage x.2)
      (fun x => Reported notices x.1.name ∨ Reported notices x.2.name)
      (es.flatMap fun e => e.elements.map fun x => (e, x)) (xs.map enumConstant) := by
  -- the values stand for the same elements as the numbers
  have hvalues : KeptInOrder (fun (x : Header.Enum × Header.EnumElement) => ValueImage x.2)
      (fun x => Reported notices x.1.name ∨ Reported notices x.2.name)
      (es.flatMap fun e => e.elements.map fun x => (e, x)) (es'.flatMap (·.values)) := by
    refine h.flatMap (fun e e' he => ?_) fun e he x hx => ?_
    · exact .map_items (he.values.imp (fun _ _ hv => hv) fun _ hx => .inr hx)
    · obtain ⟨_, _, rfl⟩ := List.mem_map.mp hx
      exact .inl he
  rw [hxs] at hvalues
  exact hvalues.of_map.map fun _ _ hx => ⟨hx.name, hx.annotations⟩

/-! ## Typedefs -/

/-- The C# name for a type that is nothing but a name. -/
def bareTarget? (native : NativeTypes) : TypeDesc → Option Key
  | .builtin name => name.key.toOption.bind fun k => (nativeName? native k).map Key.text
  | .user name => name.key.toOption.map fun k => ((nativeName? native k).map Key.text).getD k
  | _ => none

/-- The typedef gives a type the name that it has. -/
def namesItself (native : NativeTypes) (t : Header.Typedef) : Bool :=
  match bareTarget? native t.type.description, t.name.key with
  | some target, .ok name => target == name
  | _, _ => false

/-- The typedef is included and changes nothing. -/
def isIdentity (known : Symbols) (native : NativeTypes) (t : Header.Typedef) : Bool :=
  isIncluded known t.guards && namesItself native t

/-- A target without a pointer is a bare one. -/
def TargetOf (native : NativeTypes) (t : TypeDesc) (target : CsType) : Prop :=
  bareTarget? native t = if target.isPointer then none else some target.base

theorem aliasTarget_gives (native : NativeTypes) (name : Leaf) (t : TypeDesc) :
    (aliasTarget native name t).Gives notices
      (Accounted (TargetOf native t) (bareTarget? native t = none ∧ Reported notices name)) := by
  have refused : ∀ n : Notice, n.leftOut? = some name → bareTarget? native t = none →
      (aliasTarget.refuse n).Gives notices
        (Accounted (TargetOf native t) (bareTarget? native t = none ∧ Reported notices name)) :=
    fun n hn ht => .afterReport fun hmem => .pure ⟨ht, .of_mem hmem hn⟩
  cases t with
  | builtin builtin =>
      refine .afterExcept fun k hk => ?_
      have ht : bareTarget? native (.builtin builtin) = (nativeName? native k).map Key.text := by
        rw [bareTarget?, hk]
        rfl
      cases hn : nativeName? native k with
      | none =>
          rw [hn] at ht
          exact refused _ rfl ht
      | some n =>
          rw [hn] at ht
          exact .pure ht
  | user user =>
      refine .bind (P := fun r => ∃ target, r = .ok target ∧ TargetOf native (.user user) target)
        ?_ fun r hr => ?_
      · refine .afterExcept fun k hk => .pure ⟨_, rfl, ?_⟩
        rw [TargetOf, bareTarget?, hk]
        rfl
      · obtain ⟨target, rfl, htarget⟩ := hr
        exact .pure htarget
  | pointer inner =>
      refine .bind (P := fun r => ∀ target, r = .ok target → target.isPointer = true)
        (.after fun r => .pure fun target htarget => ?_) fun r hr => ?_
      · cases r with
        | error cause => exact absurd htarget (by simp [Except.map])
        | ok type =>
            obtain rfl := Except.ok.inj htarget
            rfl
      · cases r with
        | error cause => exact refused _ rfl rfl
        | ok target =>
            refine .pure ?_
            show bareTarget? native (.pointer inner) = _
            rw [hr target rfl]
            rfl
  | named _ _ => exact refused _ rfl rfl
  | array _ _ => exact refused _ rfl rfl
  | function _ _ => exact refused _ rfl rfl
  | unsupported _ => exact refused _ rfl rfl

theorem namesItself_of_bareTarget? {t : Header.Typedef}
    (h : bareTarget? native t.type.description = none) : namesItself native t = false := by
  rw [namesItself, h]

/-- What a typedef becomes, if anything. -/
def TypedefResult.image? : TypedefResult → Option (Alias ⊕ Delegate)
  | typeAlias a => some (.inl a)
  | delegate d => some (.inr d)
  | identity => none

/-- The alias has the name and the comments of the typedef; the delegate of a function pointer has
the name of its wrapper. -/
inductive TypedefImage (o : Options) (t : Header.Typedef) : Alias ⊕ Delegate → Prop where
  | typeAlias {a : Alias} (name : t.name.key = .ok a.name)
      (annotations : a.annotations = annotationsOf t.comments) : TypedefImage o t (.inl a)
  | delegate {wrapper : Leaf} {s : Header.Signature} {d : Delegate}
      (hp : t.type.description.functionPointer? = some (wrapper, s))
      (h : DelegateImage o (wrapper.orElse t.name) d) : TypedefImage o t (.inr d)

/-- What a typedef gets as its verdict. -/
inductive TypedefVerdict (notices : List Notice) (known : Symbols) (native : NativeTypes)
    (o : Options) (t : Header.Typedef) : Verdict TypedefResult → Prop where
  | excluded (hself : isIdentity known native t = false) (h : Reported notices t.name) :
      TypedefVerdict notices known native o t .excluded
  | dropped (hself : isIdentity known native t = false) (h : Reported notices t.name) :
      TypedefVerdict notices known native o t .dropped
  | accepted {r : TypedefResult} {x : Alias ⊕ Delegate}
      (hself : isIdentity known native t = false) (hr : r.image? = some x)
      (h : TypedefImage o t x) : TypedefVerdict notices known native o t (.accepted r)
  | identity (hself : isIdentity known native t = true) :
      TypedefVerdict notices known native o t (.accepted .identity)

theorem judgeTypedef_gives (known : Symbols) (native : NativeTypes) (o : Options)
    (t : Header.Typedef) : (judgeTypedef known native o t).Gives notices
      (TypedefVerdict notices known native o t) := by
  refine judgeGuarded_gives (fun hn hguards => ?_) fun hguards => ?_
  · refine .excluded ?_ (.of_mem hn rfl)
    rw [isIdentity, hguards, Bool.false_and]
  have hidentity : isIdentity known native t = namesItself native t := by
    rw [isIdentity, hguards, Bool.true_and]
  dsimp only
  split
  · rename_i wrapper s hp
    have hbare : bareTarget? native t.type.description = none := by
      cases ht : t.type.description with
      | named _ _ => rfl
      | _ => rw [ht] at hp; exact absurd hp (by simp [TypeDesc.functionPointer?])
    refine .bind (delegateOf_gives native o (wrapper.orElse t.name) s) fun d hd => ?_
    exact .pure (.accepted (hidentity.trans (namesItself_of_bareTarget? hbare)) rfl
      (.delegate hp ⟨hd.name, hd.modifiers, hd.attributes, hd.arguments⟩))
  · refine .bind (aliasTarget_gives native t.name t.type.description) fun r hr => ?_
    cases r with
    | none => exact .pure (.dropped (hidentity.trans (namesItself_of_bareTarget? hr.1)) hr.2)
    | some target =>
        refine .afterExcept fun name hname => ?_
        have hself : isIdentity known native t = (target.base == name && !target.isPointer) := by
          have hbare : bareTarget? native t.type.description = _ := hr
          rw [hidentity, namesItself, hbare, hname]
          cases target.isPointer with
          | true => exact (Bool.and_false _).symm
          | false => exact (Bool.and_true _).symm
        split
        · rename_i hsame
          exact .pure (.identity (hself.trans hsame))
        · rename_i hother
          exact .pure (.accepted (hself.trans (Bool.eq_false_iff.mpr hother)) rfl
            (.typeAlias hname rfl))

theorem typedef_images {ts : List Header.Typedef} {vs : List (Verdict TypedefResult)}
    (h : List.Forall₂ (fun t => Given (judgeTypedef known native o t) notices) ts vs) :
    KeptInOrder (TypedefImage o)
      (fun t => isIdentity known native t = true ∨ Reported notices t.name) ts
      ((vs.filterMap Verdict.built?).filterMap TypedefResult.image?) := by
  rw [List.filterMap_filterMap]
  refine .of_forall₂ h fun t v hv => ?_
  cases hv.of_gives (judgeTypedef_gives known native o t) with
  | excluded _ hlost => exact .inr hlost
  | dropped _ hlost => exact .inr hlost
  | identity hself => exact .inl hself
  | accepted _ hr himage =>
      show Accounted _ _ (TypedefResult.image? _)
      rw [hr]
      exact himage

/-! ## Structs -/

/-- The field has the name and the comments of the one in the header. -/
structure FieldImage (f : Header.Field) (f' : Field) : Prop where
  name : f'.name = f.name
  annotations : f'.annotations = annotationsOf f.comments

/-- The field is the image of one in the header, and it may bring a delegate. -/
structure BuiltFieldImage (o : Options) (f : Header.Field) (b : BuiltField) : Prop where
  field : FieldImage f b.field
  delegate : ∀ d, b.delegate = some d → ∃ name, DelegateImage o name d

/-- The struct has the name and the comments of the one in the header, and fields for its fields. -/
structure StructImage (notices : List Notice) (known : Symbols) (o : Options) (s : Header.Struct)
    (s' : Struct) : Prop where
  included : isIncluded known s.guards = true
  name : s'.name = s.name
  annotations : s'.annotations = annotationsOf s.comments
  fields : KeptInOrder FieldImage (fun f => Reported notices f.name) s.fields s'.fields
  inner : ∀ x ∈ s'.inner, ∃ d name, x = .delegate d ∧ DelegateImage o name d

theorem skipField_gives {image : BuiltField → Prop} (struct : Leaf) (f : Header.Field)
    (problem : FieldProblem) :
    (skipField struct f problem).Gives notices (Accounted image (Reported notices f.name)) :=
  .afterReport fun hn => .pure (.of_mem hn rfl)

theorem fieldOf_gives (native : NativeTypes) (o : Options) (struct : Leaf) (f : Header.Field) :
    (fieldOf native o struct f).Gives notices
      (Accounted (BuiltFieldImage o f) (Reported notices f.name)) := by
  have hnone : ∀ {d : Delegate}, none = some d → ∃ name, DelegateImage o name d :=
    fun h => absurd h (by simp)
  unfold fieldOf
  split
  · unfold arrayField
    dsimp only
    split
    · exact skipField_gives struct f _
    · refine .after fun r => ?_
      cases r with
      | error cause => exact skipField_gives struct f _
      | ok type => exact .after fun _ => .pure ⟨⟨rfl, rfl⟩, fun _ => hnone⟩
  · unfold plainField
    split
    · rename_i wrapper s _
      refine .bind (delegateOf_gives native o _ s) fun d hd => .after fun _ =>
        .pure ⟨⟨rfl, rfl⟩, ?_⟩
      intro d' hd'
      exact ⟨_, Option.some.inj hd' ▸ hd⟩
    · refine .after fun r => ?_
      cases r with
      | error cause => exact skipField_gives struct f _
      | ok type => exact .pure ⟨⟨rfl, rfl⟩, fun _ => hnone⟩

theorem fieldsOf_gives (known : Symbols) (native : NativeTypes) (o : Options) (struct : Leaf)
    (fs : List Header.Field) : (fieldsOf known native o struct fs).Gives notices
      (KeptInOrder (BuiltFieldImage o) (fun f => Reported notices f.name) fs) := by
  induction fs with
  | nil => exact .pure .nil
  | cons f rest ih =>
      rw [fieldsOf]
      refine .afterExcept fun included _ => ?_
      cases included with
      | true =>
          exact .bind (fieldOf_gives native o struct f) fun r hr => .bind ih fun bs hbs =>
            .pure (hbs.cons hr)
      | false => exact .afterReport fun hn => ih.imp fun bs hbs => .lost (.of_mem hn rfl) hbs

theorem judgeStruct_gives (known : Symbols) (native : NativeTypes) (o : Options)
    (s : Header.Struct) : (judgeStruct known native o s).Gives notices fun v =>
      v ≠ .dropped ∧
        Accounted (StructImage notices known o s) (Reported notices s.name) v.built? := by
  refine judgeGuarded_gives (fun hn _ => ⟨by simp, .of_mem hn rfl⟩) fun hguards => ?_
  refine .bind (fieldsOf_gives known native o s.name s.fields) fun bs hbs => ?_
  refine .pure ⟨by simp, hguards, rfl, rfl, hbs.map fun _ _ hb => hb.field, fun x hx => ?_⟩
  obtain ⟨b, hb, hx⟩ := List.mem_filterMap.mp hx
  obtain ⟨d, hd, rfl⟩ := Option.map_eq_some_iff.mp hx
  obtain ⟨f, _, himage⟩ := hbs.exists_of_mem hb
  obtain ⟨name, hname⟩ := himage.delegate d hd
  exact ⟨d, name, rfl, hname⟩

/-! ## Functions -/

/-- The argument has the name of the one in the header, or that name made a parameter's. -/
structure ArgumentImage (a : Header.Argument) (a' : Argument) : Prop where
  name : parameterName a.name = .ok a'.name
  annotations : a'.annotations = {}

/-- The delegate is named after the function and the argument that brings it. -/
def BroughtBy (o : Options) (function : Leaf) (a : Header.Argument) (d : Delegate) : Prop :=
  ∃ name, parameterName a.name = .ok name ∧
    DelegateImage o (delegateName (.text (function.display ++ name.display))) d

/-- The argument is the image of one in the header, and it may bring a delegate. -/
structure BuiltArgumentImage (o : Options) (function : Leaf) (a : Header.Argument)
    (b : BuiltArgument) : Prop where
  argument : ArgumentImage a b.argument
  delegate : ∀ d, b.delegate = some d → BroughtBy o function a d

/-- The function has the name and the comments of the one in the header, its attribute, and
arguments for its arguments. It is unsafe if a type in its signature is a pointer or unknown. -/
structure FunctionImage (notices : List Notice) (o : Options) (f : Header.Function)
    (f' : Function) : Prop where
  name : f'.name = f.name
  annotations : f'.annotations = { annotationsOf f.comments with
    modifiers :=
      if needsUnsafe (f'.returnType :: f'.arguments.map (·.type)) then ["unsafe"] else []
    attributes := [o.importAttribute] }
  arguments : KeptInOrder ArgumentImage (fun a => Reported notices a.name) f.arguments f'.arguments

/-- The function is the image of one in the header, and its arguments may bring delegates. -/
structure BuiltFunctionImage (notices : List Notice) (o : Options) (f : Header.Function)
    (b : BuiltFunction) : Prop where
  function : FunctionImage notices o f b.function
  delegates : KeptInOrder (BroughtBy o f.name) (fun _ => True) f.arguments b.delegates

theorem ignoreArgument_gives {image : BuiltArgument → Prop} (function : Leaf)
    (a : Header.Argument) (problem : ArgumentProblem) :
    (ignoreArgument function a problem).Gives notices
      (Accounted image (Reported notices a.name)) :=
  .afterReport fun hn => .pure (.of_mem hn rfl)

theorem argumentOf_gives (native : NativeTypes) (o : Options) (function : Leaf)
    (a : Header.Argument) : (argumentOf native o function a).Gives notices
      (Accounted (BuiltArgumentImage o function a) (Reported notices a.name)) := by
  have hnone : ∀ {d : Delegate}, none = some d → BroughtBy o function a d :=
    fun h => absurd h (by simp)
  unfold argumentOf
  refine .afterExcept fun name hname => ?_
  split
  · exact ignoreArgument_gives function a _
  · unfold typedArgument
    split
    · refine .after fun r => ?_
      cases r with
      | error cause => exact ignoreArgument_gives function a _
      | ok type => exact .pure ⟨⟨hname, rfl⟩, fun _ => hnone⟩
    · split
      · rename_i wrapper s _
        refine .bind (delegateOf_gives native o _ s) fun d hd => .pure ⟨⟨hname, rfl⟩, ?_⟩
        intro d' hd'
        exact ⟨name, hname, Option.some.inj hd' ▸ hd⟩
      · refine .after fun r => ?_
        cases r with
        | error cause => exact ignoreArgument_gives function a _
        | ok type => exact .pure ⟨⟨hname, rfl⟩, fun _ => hnone⟩

theorem argumentsOf_gives (native : NativeTypes) (o : Options) (function : Leaf)
    (as : List Header.Argument) : (argumentsOf native o function as).Gives notices
      (Accounted (KeptInOrder (BuiltArgumentImage o function) (fun a => Reported notices a.name) as)
        (Reported notices function)) := by
  have hdrop : ∀ {as} (problem : FunctionProblem),
      (dropFunction function problem : Traced Notice Misfit (Option (List BuiltArgument))).Gives
        notices (Accounted (KeptInOrder (BuiltArgumentImage o function)
          (fun a => Reported notices a.name) as) (Reported notices function)) :=
    fun problem => .afterReport fun hn => .pure (.of_mem hn rfl)
  induction as with
  | nil => exact .pure .nil
  | cons a rest ih =>
      rw [argumentsOf]
      split
      · exact hdrop _
      · refine .bind (argumentOf_gives native o function a) fun r hr => ?_
        cases r with
        | none =>
            refine ih.imp fun bs hbs => ?_
            cases bs with
            | none => exact hbs
            | some bs => exact .lost hr hbs
        | some b =>
            dsimp only
            split
            · exact hdrop _
            · refine .bind ih fun bs hbs => .pure ?_
              cases bs with
              | none => exact hbs
              | some bs => exact .kept hr hbs

theorem judgeFunction_gives (known : Symbols) (native : NativeTypes) (o : Options)
    (f : Header.Function) : (judgeFunction known native o f).Gives notices fun v =>
      Accounted (BuiltFunctionImage notices o f) (Reported notices f.name) v.built? := by
  refine judgeGuarded_gives (fun hn _ => .of_mem hn rfl) fun _ => ?_
  refine .bind (P := Accounted (BuiltFunctionImage notices o f) (Reported notices f.name)) ?_
    fun r hr => ?_
  · refine .after fun returnType => .bind (argumentsOf_gives native o f.name f.arguments)
      fun bs hbs => ?_
    cases bs with
    | none => exact .pure hbs
    | some bs =>
        dsimp only
        split
        · exact .afterReport fun hn => .pure (.of_mem hn rfl)
        · refine .pure ⟨⟨rfl, rfl, hbs.map fun _ _ hb => hb.argument⟩, ?_⟩
          refine hbs.filterMap (fun a b hb => ?_) fun _ _ => trivial
          cases hd : b.delegate with
          | none => exact trivial
          | some d => exact hb.delegate d hd
  · cases r with
    | none => exact .pure hr
    | some b => exact .pure hr

end

/-! ## The whole header -/

/-- What is built from a header is made of images of what is in it, and what has none is reported.
Constants for the symbols known from the start stand before the images of the defines. -/
structure NothingLost (b : Builder) (known : Symbols) (notices : List Notice)
    (d : Header.Definitions) (built : DeclarationSet) : Prop where
  constants : ∃ images, built.constants = seededConstants b.known ++ images ∧
    KeptInOrder DefineImage (fun x => Reported notices x.name) d.defines images
  /-- An element is lost with its enum or on its own. -/
  enumConstants : KeptInOrder (fun x => NumberImage x.2)
    (fun x => Reported notices x.1.name ∨ Reported notices x.2.name)
    (d.enums.flatMap fun e => e.elements.map fun x => (e, x)) built.enumConstants
  enums : KeptInOrder (EnumImage notices) (fun e => Reported notices e.name) d.enums built.enums
  /-- The images of typedefs, aliases and delegates alike, are those of two lists. -/
  typedefs : ∃ images, KeptInOrder (TypedefImage b.options)
      (fun t => isIdentity known b.native t = true ∨ Reported notices t.name) d.typedefs images ∧
    built.aliases = images.filterMap Sum.getLeft? ∧
    built.typedefDelegates = images.filterMap Sum.getRight?
  structs : KeptInOrder (StructImage notices known b.options) (fun s => Reported notices s.name)
    d.structs built.structs
  functions : KeptInOrder (FunctionImage notices b.options) (fun f => Reported notices f.name)
    d.functions built.functions
  /-- Delegates are images of arguments. That most arguments bring none is no loss. -/
  delegates : KeptInOrder (fun x => BroughtBy b.options x.1.name x.2) (fun _ => True)
    (d.functions.flatMap fun f => f.arguments.map fun a => (f, a)) built.delegates
  inlineArrays : built.inlineArrays = []

theorem aliasesOf_eq_lefts (rs : List TypedefResult) :
    aliasesOf rs = (rs.filterMap TypedefResult.image?).filterMap Sum.getLeft? := by
  rw [aliasesOf, List.filterMap_filterMap]
  refine List.filterMap_congr fun r _ => ?_
  cases r <;> rfl

theorem delegatesOf_eq_rights (rs : List TypedefResult) :
    delegatesOf rs = (rs.filterMap TypedefResult.image?).filterMap Sum.getRight? := by
  rw [delegatesOf, List.filterMap_filterMap]
  refine List.filterMap_congr fun r _ => ?_
  cases r <;> rfl

/-- Whatever the header, if it is built then nothing is lost. -/
theorem nothingLost_of_declarations {d : Header.Definitions} {b : Builder} {built : DeclarationSet}
    (h : (declarations d b).result = .ok built) :
    NothingLost b (declarations d b).builder.known (declarations d b).notices d built := by
  obtain ⟨hdefines, _, henums, htypedefs, hstructs, hfunctions, hsettled, hwrappers⟩ :=
    staged_of_declarations h
  simp only [List.forall_mem_cons, settings, Prod.mk.injEq] at hsettled
  obtain ⟨⟨-, -, h₁⟩, ⟨ho₂, -, h₂⟩, ⟨ho₃, hn₃, h₃⟩, ⟨ho₄, hn₄, h₄⟩, ⟨ho₅, hn₅, h₅⟩, -⟩ := hsettled
  obtain ⟨items, defines, _, hperm, hgivenDefines, hconstants, _⟩ := constants_verdicts hdefines
  obtain ⟨enums, hgivenEnums, hbuiltEnums, _⟩ := enums_verdicts henums
  obtain ⟨typedefs, _, hgivenTypedefs, haliases, hdelegates, _⟩ := typedefs_verdicts htypedefs
  obtain ⟨structs, hgivenStructs, hbuiltStructs, _⟩ := structs_verdicts hstructs
  obtain ⟨functions, hgivenFunctions, hbuiltFunctions, hbrought, _⟩ := functions_verdicts hfunctions
  rw [h₃, hn₃, ho₃] at hgivenTypedefs
  rw [h₄, hn₄, ho₄] at hgivenStructs
  rw [h₅, hn₅, ho₅] at hgivenFunctions
  have henumImages := KeptInOrder.of_forall₂ hgivenEnums fun e v hv =>
    (hv.of_gives (judgeEnum_gives _ _ e)).2
  have hfunctionImages := KeptInOrder.of_forall₂ hgivenFunctions fun f v hv =>
    hv.of_gives (judgeFunction_gives _ _ _ f)
  rw [← hbuiltEnums] at henumImages
  refine
    { constants := ⟨_, hconstants, define_images hperm hgivenDefines⟩
      enumConstants := ?_
      enums := henumImages
      typedefs := ?_
      structs := ?_
      functions := ?_
      delegates := ?_
      inlineArrays := hwrappers }
  · obtain ⟨hvalues, hnumbers⟩ := enumLists_of_declarations h
    rw [hnumbers]
    exact number_images henumImages hvalues
  · exact ⟨_, typedef_images hgivenTypedefs, haliases.trans (aliasesOf_eq_lefts _),
      hdelegates.trans (delegatesOf_eq_rights _)⟩
  · rw [hbuiltStructs]
    exact .of_forall₂ hgivenStructs fun s v hv => (hv.of_gives (judgeStruct_gives _ _ _ s)).2
  · rw [show built.functions = _ from hbuiltFunctions]
    exact hfunctionImages.map fun _ _ hb => hb.function
  · rw [show built.delegates = _ from hbrought]
    exact hfunctionImages.flatMap (fun f b hb => .map_items hb.delegates) fun _ _ _ _ => trivial

/-- **Nothing is lost in silence.** A well-typed header is built, and everything in it has its image
or is reported. -/
theorem declarations_nothingLost (d : Header.Definitions) (b : Builder) (h : d.WellTyped) :
    ∃ built, (declarations d b).result = .ok built ∧
      NothingLost b (declarations d b).builder.known (declarations d b).notices d built := by
  obtain ⟨_, hruns⟩ := declarations_runs h b
  exact ⟨_, hruns.result, nothingLost_of_declarations hruns.result⟩

/-- Something is lost of every kind, on every level. One typedef gives a type its own name. -/
def lossyHeader : Header.Definitions where
  defines := [{ name := "OLD", guards := [⟨"ifndef", "NEW"⟩] }, { name := "NEW" }]
  enums :=
    [{ name := "Color_", elements :=
        [{ name := "Color_Red", value := 0 },
          { name := "Color_Old", value := 1, guards := [⟨"ifndef", "NEW"⟩] }] }]
  typedefs :=
    [{ name := "Node", type := { description := .user "Node" } },
      { name := "Rows", type := { description := .array (.builtin "int") none } }]
  structs :=
    [{ name := "Node", fields :=
        [{ name := "rows", type := { description := .array (.builtin "int") none } },
          { name := "next", type := { description := .pointer (.user "Node") } }] },
      { name := "Leaf", guards := [⟨"ifdef", "OLD"⟩] }]
  functions :=
    [{ name := "Log", arguments := [{ name := "...", isVarargs := true }] },
      { name := "Draw", arguments :=
          [{ name := "hint" },
            { name := "node", type := some { description := .pointer (.user "Node") } }] }]

theorem declarations_nothingLost_lossyHeader : lossyHeader.WellTyped ∧
    ∃ built, (declarations lossyHeader (.start {})).result = .ok built ∧
      NothingLost (.start {}) (declarations lossyHeader (.start {})).builder.known
        (declarations lossyHeader (.start {})).notices lossyHeader built :=
  ⟨by decide, declarations_nothingLost lossyHeader (.start {}) (by decide)⟩

example : (declarations lossyHeader (.start {})).notices.filterMap Notice.leftOut? =
    ["OLD", "Color_Old", "Rows", "rows", "Leaf", "Log", "hint"] := by
  decide +kernel

end Build

end NativeBindings
