import NativeBindings.Generate
import NativeBindings.Proofs.Traced

/-!
# What a description has to hold

Most of what is found in a description is taken as it comes. What is asked of a value is asked at
few places, and there are five demands: to have members, to have a name, to be gone through, to
stand for an integer, to be a line of a comment. The demands of a description are listed here
along the value alone, in the order in which it is read.

Loading is then settled by the list: a description is loaded if every demand is met, and the first
one that is not tells the fault. Only some of these faults are reported as a malformed item, so
the list also tells which values end a program instead.
-/

namespace NativeBindings.Header

/-- What is asked of a value. -/
inductive Need where
  /-- The value has members. -/
  | members (v : Json)
  /-- The value has a member `name`. -/
  | name (v : Json)
  /-- The value can be gone through one by one. -/
  | elements (v : Json)
  /-- The value stands for an integer. -/
  | integer (v : Json)
  /-- The value is a line of a comment. -/
  | line (v : Json)

namespace Need

/-- Whether the value is what it is needed to be. -/
def isMet : Need → Bool
  | members v => v.kind = .obj
  | name (.obj ms) => (Json.member? ms "name").isSome
  | name _ => false
  | elements v => v.elements?.isSome
  | integer (.int _) => true
  | integer (.bool _) => true
  | integer (.float x) => x.truncate?.isSome
  | integer (.str s) => (Text.integer? s).isSome
  | integer _ => false
  | line v => v.kind = .str

/-- The fault if it is not met. -/
def fault : Need → ReadFault
  | members v => .misfit (.object v.kind)
  | name (.obj _) => .missingName
  | name v => .nameOfNonObject v.kind
  | elements v => .notIterable v.kind
  | integer (.float x) => if x = .nan then .nanInteger else .infiniteInteger
  | integer (.str s) => .notInteger s
  | integer v => .notNumeric v.kind
  | line v => .misfit (.comment v.kind)

/-- Whether the fault is passed on as it is, and not reported as a malformed item. -/
def escapes : Need → Bool
  | members _ => true
  | integer (.float (.infinite _)) => true
  | line _ => true
  | _ => false

theorem isMalformedItem_fault {n : Need} (h : n.isMet = false) :
    n.fault.isMalformedItem = !n.escapes := by
  cases n with
  | members v => rfl
  | name v => cases v <;> rfl
  | elements v => rfl
  | line v => rfl
  | integer v =>
      cases v with
      | float x =>
          cases x with
          | nan => rfl
          | infinite negative => rfl
          | finite negative significand exponent =>
              exact absurd h (by simp [isMet, Binary64.truncate?])
      | _ => rfl

end Need

/-- The first need that is not met. -/
def firstUnmet? (ns : List Need) : Option Need := ns.find? fun n => !n.isMet

theorem firstUnmet?_append (ns ms : List Need) :
    firstUnmet? (ns ++ ms) = (firstUnmet? ns).or (firstUnmet? ms) := List.find?_append

theorem firstUnmet?_eq_none {ns : List Need} :
    firstUnmet? ns = none ↔ ∀ n ∈ ns, n.isMet = true := by
  simp [firstUnmet?, List.find?_eq_none]

theorem isMet_of_firstUnmet? {ns : List Need} {n : Need} (h : firstUnmet? ns = some n) :
    n.isMet = false := by
  have := List.find?_some h
  simpa using this

/-! ## Readers that ask

A reader asks for needs if it ends well exactly when they are all met, and otherwise ends with the
fault of the first one that is not. -/

section Asks

variable {α β : Type}

/-- The fault that a reader ends with. -/
def faultOf : Except ReadFault α → Option ReadFault
  | .ok _ => none
  | .error e => some e

/-- The reader is settled by these needs. -/
def Asks (x : Except ReadFault α) (ns : List Need) : Prop :=
  faultOf x = (firstUnmet? ns).map Need.fault

namespace Asks

theorem ok (a : α) : Asks (.ok a) [] := rfl

theorem met {n : Need} (h : n.isMet = true) (a : α) : Asks (.ok a) [n] := by
  simp [Asks, faultOf, firstUnmet?, h]

theorem unmet (n : Need) (h : n.isMet = false) :
    Asks (.error n.fault : Except ReadFault α) [n] := by
  simp [Asks, faultOf, firstUnmet?, h]

/-- What is asked first is asked of the first reader. -/
theorem bind {x : Except ReadFault α} {f : α → Except ReadFault β} {ns ms : List Need}
    (hx : Asks x ns) (hf : ∀ a, x = .ok a → Asks (f a) ms) : Asks (x >>= f) (ns ++ ms) := by
  rw [Asks, firstUnmet?_append]
  rw [Asks] at hx
  cases x with
  | error e =>
      cases hn : firstUnmet? ns with
      | none => rw [hn] at hx; exact absurd hx (by simp [faultOf])
      | some n => rw [hn] at hx; exact hx
  | ok a =>
      cases hn : firstUnmet? ns with
      | none => exact hf a rfl
      | some n => rw [hn] at hx; exact absurd hx (by simp [faultOf])

theorem map {x : Except ReadFault α} {ns : List Need} (hx : Asks x ns) (f : α → β) :
    Asks (f <$> x) ns := by
  cases x with
  | ok a => exact hx
  | error e => exact hx

/-- A result that is only put together asks for nothing more. -/
theorem pack {x : Except ReadFault α} {ns : List Need} (hx : Asks x ns) (f : α → β) :
    Asks (x >>= fun a => pure (f a)) ns := by
  rw [bind_pure_comp]
  exact hx.map f

theorem mapM {read : Json → Except ReadFault α} {needs : Json → List Need} {vs : List Json}
    (h : ∀ v ∈ vs, Asks (read v) (needs v)) : Asks (vs.mapM read) (vs.flatMap needs) := by
  induction vs with
  | nil => exact ok []
  | cons v vs ih =>
      rw [List.mapM_cons, List.flatMap_cons]
      exact (h v List.mem_cons_self).bind fun a _ =>
        (ih fun w hw => h w (List.mem_cons_of_mem v hw)).pack (a :: ·)

end Asks

end Asks

/-! ## Building blocks -/

theorem nameOf_asks (v : Json) : Asks (nameOf v) [.name v] := by
  cases v with
  | obj ms =>
      rw [nameOf]
      cases hname : Json.member? ms "name" with
      | none => exact .unmet (.name (.obj ms)) (by rw [Need.isMet, hname]; rfl)
      | some w => exact .met (by rw [Need.isMet, hname]; rfl) _
  | _ => rfl

theorem integerOf_asks (v : Json) : Asks (integerOf v) [.integer v] := by
  cases v with
  | float x =>
      rw [integerOf]
      cases hint : x.truncate? with
      | none => exact .unmet (.integer (.float x)) (by rw [Need.isMet, hint]; rfl)
      | some n => exact .met (by rw [Need.isMet, hint]; rfl) n
  | str s =>
      rw [integerOf]
      cases hint : Text.integer? s with
      | none => exact .unmet (.integer (.str s)) (by rw [Need.isMet, hint]; rfl)
      | some n => exact .met (by rw [Need.isMet, hint]; rfl) n
  | _ => rfl

theorem commentLine_asks (v : Json) : Asks (commentLine v) [.line v] := by
  cases v <;> rfl

/-- The needs of a value that has to be an object. -/
def objectNeeds (needs : Members → List Need) : Json → List Need
  | .obj ms => needs ms
  | v => [.members v]

theorem membersOf_asks {α : Type} {read : Members → Except ReadFault α}
    {needs : Members → List Need} {v : Json}
    (h : ∀ ms, v = .obj ms → Asks (read ms) (needs ms)) :
    Asks (membersOf v >>= read) (objectNeeds needs v) := by
  cases v with
  | obj ms => exact h ms rfl
  | _ => rfl

/-- The needs of a value that may be missing. -/
def optionalNeeds (needs : Json → List Need) : Option Json → List Need
  | none => []
  | some .null => []
  | some v => needs v

theorem optional_asks {α : Type} {read : Json → Except ReadFault α} {needs : Json → List Need}
    (h : ∀ v, Asks (read v) (needs v)) (v : Option Json) :
    Asks (optional read v) (optionalNeeds needs v) := by
  cases v with
  | none => exact .ok none
  | some v =>
      cases v with
      | null => exact .ok none
      | _ => exact (h _).map some

/-- The needs of a value that is gone through. -/
def eachNeeds (needs : Json → List Need) (v : Json) : List Need :=
  .elements v :: (v.elements?.getD []).flatMap needs

theorem elementsOf_asks {α : Type} {read : List Json → Except ReadFault α}
    {needs : Json → List Need} {v : Json}
    (h : ∀ vs, v.elements? = some vs → Asks (read vs) (vs.flatMap needs)) :
    Asks (elementsOf v >>= read) (eachNeeds needs v) := by
  have hfirst : Asks (elementsOf v) [.elements v] := by
    rw [elementsOf]
    cases helements : v.elements? with
    | none => exact .unmet (.elements v) (by rw [Need.isMet, helements]; rfl)
    | some vs => exact .met (by rw [Need.isMet, helements]; rfl) vs
  refine hfirst.bind fun vs hvs => ?_
  have helements : v.elements? = some vs := by
    rw [elementsOf] at hvs
    split at hvs
    · rename_i hsome
      rw [hsome, Except.ok.inj hvs]
    · exact absurd hvs (by simp)
  rw [helements]
  exact h vs helements

/-- The needs of a collection. -/
def itemsNeeds (needs : Json → List Need) : Option Json → List Need
  | none => []
  | some v => if v.isVacant then [] else eachNeeds needs v

theorem itemsOf_asks {α : Type} {read : Json → Except ReadFault α} {needs : Json → List Need}
    (h : ∀ v, Asks (read v) (needs v)) (v : Option Json) :
    Asks (itemsOf read v) (itemsNeeds needs v) := by
  cases v with
  | none => exact .ok []
  | some v =>
      rw [itemsOf, collection, itemsNeeds]
      split
      · exact .ok []
      · exact elementsOf_asks fun vs _ => .mapM fun w _ => h w

/-- The same, for a collection that is followed by other members. -/
theorem itemsOf_bind_asks {α β : Type} {read : Json → Except ReadFault α}
    {needs : Json → List Need} (h : ∀ v, Asks (read v) (needs v)) (v : Option Json)
    {next : List α → Except ReadFault β} {ns : List Need} (hnext : ∀ as, Asks (next as) ns) :
    Asks
      (do
        let vs ← collection v
        let as ← vs.mapM read
        next as)
      (itemsNeeds needs v ++ ns) := by
  rw [← bind_assoc]
  exact (itemsOf_asks h v).bind fun as _ => hnext as

/-! ## Comments and guards -/

theorem commentLines_asks (v : Json) :
    Asks (commentLines v) (eachNeeds (fun line => [.line line]) v) :=
  elementsOf_asks fun _ _ => .mapM fun line _ => commentLine_asks line

/-- The needs of comments, those of the attached line first. -/
def commentsNeeds : Option Json → List Need
  | none => []
  | some v =>
    if v.isVacant then []
    else
      objectNeeds
        (fun ms =>
          optionalNeeds (fun line => [.line line]) (Json.member? ms "attached") ++
            optionalNeeds (eachNeeds fun line => [.line line]) (Json.member? ms "preceding"))
        v

theorem commentsOf_asks (v : Option Json) : Asks (commentsOf v) (commentsNeeds v) := by
  cases v with
  | none => exact .ok none
  | some v =>
      rw [commentsOf, commentsNeeds]
      split
      · exact .ok none
      · refine membersOf_asks fun ms _ => ?_
        exact (optional_asks commentLine_asks _).bind fun _ _ =>
          (optional_asks commentLines_asks _).pack _

/-- A guard is an object, and nothing is asked of its members. -/
def guardNeeds (v : Json) : List Need := objectNeeds (fun _ => []) v

theorem guardsOf_asks (v : Option Json) : Asks (guardsOf v) (itemsNeeds guardNeeds v) :=
  itemsOf_asks (fun _ => membersOf_asks fun _ _ => .ok _) v

/-- The needs of the guards and the comments, with which every item ends. -/
def annotationNeeds (ms : Members) : List Need :=
  itemsNeeds guardNeeds (Json.member? ms "conditionals") ++
    commentsNeeds (Json.member? ms "comments")

theorem annotations_ask {α : Type} (ms : Members) (item : List Guard → Option Comments → α) :
    Asks
      (do
        let guards ← guardsOf (Json.member? ms "conditionals")
        let comments ← commentsOf (Json.member? ms "comments")
        return item guards comments)
      (annotationNeeds ms) :=
  (guardsOf_asks _).bind fun _ _ => (commentsOf_asks _).pack _

/-! ## Types -/

/-- The needs of a parameter that is a text. -/
def textParameterNeeds (v : Json) : List Need := if v.isVacant then [] else [.members v]

theorem parameterOfText_asks {v : Json} (hv : v.kind = .str) :
    Asks (parameterOfText v) (textParameterNeeds v) := by
  rw [parameterOfText, textParameterNeeds]
  split
  · exact .ok _
  · exact .unmet (.members v) (by rw [Need.isMet, hv]; rfl)

mutual

/-- The needs of a type. -/
def typeNeeds (v : Json) : List Need :=
  if v.isVacant then []
  else
    match v with
    | .obj ms =>
      let kind := Leaf.ofJsonD "" (Json.member? ms "kind")
      if kind = .text "Pointer" then memberTypeNeeds ms "inner_type"
      else if kind = .text "Array" then memberTypeNeeds ms "inner_type"
      else if kind = .text "Function" then
        memberTypeNeeds ms "return_type" ++
          match _h : Json.member? ms "parameters" with
          | none => []
          | some (.arr vs) => allTypeNeeds vs
          | some v => if v.isVacant then [] else eachNeeds textParameterNeeds v
      else if kind = .text "Type" then memberTypeNeeds ms "inner_type"
      else []
    | v => [.members v]
termination_by (sizeOf v, 0)
decreasing_by
  all_goals simp_wf
  all_goals first
    | (have smaller := Json.sizeOf_member?_lt _h; simp at smaller ⊢; omega)
    | (simp [Prod.lex_def])

/-- The needs of the type that a member describes. -/
def memberTypeNeeds (ms : Members) (name : String) : List Need :=
  match _h : Json.member? ms name with
  | none => []
  | some v => typeNeeds v
termination_by (sizeOf (Json.obj ms) - 1, 1)
decreasing_by
  all_goals have := Json.sizeOf_member?_lt _h
  all_goals simp [Prod.lex_def] at this ⊢
  all_goals omega

/-- The needs of several types. -/
def allTypeNeeds (vs : List Json) : List Need :=
  match vs with
  | [] => []
  | v :: vs => typeNeeds v ++ allTypeNeeds vs
termination_by (sizeOf vs, 0)
decreasing_by
  all_goals simp [Prod.lex_def]
  all_goals omega

end

/-- Only an array has elements that are no texts. -/
theorem kind_of_mem_elements {v w : Json} {vs : List Json} (hv : v.kind ≠ .arr)
    (hvs : v.elements? = some vs) (hw : w ∈ vs) : w.kind = .str := by
  cases v with
  | arr items => exact absurd rfl hv
  | obj ms =>
      rw [← Option.some.inj hvs] at hw
      obtain ⟨m, _, rfl⟩ := List.mem_map.mp hw
      rfl
  | str s =>
      rw [← Option.some.inj hvs] at hw
      obtain ⟨c, _, rfl⟩ := List.mem_map.mp hw
      rfl
  | _ => exact absurd hvs (by simp [Json.elements?])

/-- Parameters that are read from no array are texts. -/
theorem textParameters_ask {v : Json} (hv : v.kind ≠ .arr) (type : List TypeDesc → TypeDesc) :
    Asks
      (if v.isVacant then pure (type [])
        else do
          let vs ← elementsOf v
          let parameters ← vs.mapM parameterOfText
          return type parameters)
      (if v.isVacant then [] else eachNeeds textParameterNeeds v) := by
  split
  · exact .ok _
  · exact elementsOf_asks fun vs hvs => Asks.pack
      (.mapM fun w hw => parameterOfText_asks (kind_of_mem_elements hv hvs hw)) type

mutual

/-- Each shape asks for the types it is made of, by recursion along the value. -/
theorem typeOf_asks (v : Json) : Asks (typeOf v) (typeNeeds v) := by
  unfold typeOf typeNeeds
  split
  · exact .ok _
  · cases v with
    | obj ms =>
        dsimp only
        -- builtins and user types have no parts, and none of the tags that follow
        split
        · rename_i hk
          simp only [hk, Leaf.text.injEq, String.reduceEq, if_false]
          exact .ok _
        split
        · rename_i hk
          simp only [hk, Leaf.text.injEq, String.reduceEq, if_false]
          exact .ok _
        -- pointers and arrays
        split
        · exact (typeOfMember_asks ms "inner_type").pack _
        split
        · exact (typeOfMember_asks ms "inner_type").pack _
        -- functions
        split
        · refine (typeOfMember_asks ms "return_type").bind fun returnType _ => ?_
          cases hv : Json.member? ms "parameters" with
          | none => exact .ok _
          | some v =>
            cases v with
            | arr vs =>
              have smaller : sizeOf vs < 1 + sizeOf ms := by
                have := Json.sizeOf_member?_lt hv
                simp only [Json.arr.sizeOf_spec, Json.obj.sizeOf_spec] at this
                omega
              exact (typesOf_asks vs).pack _
            | _ => exact textParameters_ask (by simp [Json.kind]) _
        -- wrappers with a name, and shapes that are not known
        split
        · exact (typeOfMember_asks ms "inner_type").pack _
        · exact .ok _
    | _ => rfl
termination_by (sizeOf v, 0)

theorem typeOfMember_asks (ms : Members) (name : String) :
    Asks (typeOfMember ms name) (memberTypeNeeds ms name) := by
  rw [typeOfMember, memberTypeNeeds]
  cases hv : Json.member? ms name with
  | none => exact .ok _
  | some v => exact typeOf_asks v
termination_by (sizeOf (Json.obj ms) - 1, 1)
decreasing_by
  all_goals have := Json.sizeOf_member?_lt hv
  all_goals simp [Prod.lex_def] at this ⊢
  all_goals omega

theorem typesOf_asks (vs : List Json) : Asks (typesOf vs) (allTypeNeeds vs) := by
  cases vs with
  | nil =>
      rw [typesOf, allTypeNeeds]
      exact .ok _
  | cons v vs =>
      rw [typesOf, allTypeNeeds]
      exact (typeOf_asks v).bind fun t _ => (typesOf_asks vs).pack (t :: ·)
termination_by (sizeOf vs, 0)

end

/-- The needs of a type as it is written. -/
def typeRefNeeds (v : Json) : List Need :=
  objectNeeds (fun ms => memberTypeNeeds ms "description") v

theorem typeRefOf_asks (v : Option Json) : Asks (typeRefOf v) (optionalNeeds typeRefNeeds v) :=
  optional_asks (fun _ => membersOf_asks fun ms _ => (typeOfMember_asks ms "description").pack _) v

/-! ## Items -/

/-- What is first asked of a define and of a value of an enum is its name, so that it is an object
is not asked any more. -/
theorem obj_of_nameOf {v : Json} {name : Leaf} (h : nameOf v = .ok name) :
    ∃ ms, v = .obj ms := by
  cases v with
  | obj ms => exact ⟨ms, rfl⟩
  | _ => exact absurd h (by simp [nameOf])

/-- The needs of a value that is asked for its name and then for more members. -/
def namedNeeds (needs : Members → List Need) (v : Json) : List Need :=
  [.name v] ++
    match v with
    | .obj ms => needs ms
    | _ => []

theorem nameOf_membersOf_asks {α : Type} {read : Leaf → Members → Except ReadFault α}
    {needs : Members → List Need} {v : Json}
    (h : ∀ name ms, v = .obj ms → Asks (read name ms) (needs ms)) :
    Asks (do let name ← nameOf v; let ms ← membersOf v; read name ms) (namedNeeds needs v) := by
  refine (nameOf_asks v).bind fun name hname => ?_
  obtain ⟨ms, rfl⟩ := obj_of_nameOf hname
  exact h name ms rfl

/-- The needs of a define. -/
def defineNeeds (v : Json) : List Need := namedNeeds annotationNeeds v

theorem defineOf_asks (v : Json) : Asks (defineOf v) (defineNeeds v) :=
  nameOf_membersOf_asks fun _ ms _ => annotations_ask ms _

/-- The needs of a value of an enum, its number first. -/
def enumElementNeeds (v : Json) : List Need :=
  namedNeeds
    (fun ms => [.integer ((Json.member? ms "value").getD (.int 0))] ++ annotationNeeds ms) v

theorem enumElementOf_asks (v : Json) : Asks (enumElementOf v) (enumElementNeeds v) :=
  nameOf_membersOf_asks fun _ ms _ => (integerOf_asks _).bind fun _ _ => annotations_ask ms _

/-- The needs of an enum, those of its values first. -/
def enumNeeds (v : Json) : List Need :=
  objectNeeds
    (fun ms =>
      itemsNeeds enumElementNeeds (Json.member? ms "elements") ++
        ([.name v] ++ annotationNeeds ms))
    v

theorem enumOf_asks (v : Json) : Asks (enumOf v) (enumNeeds v) :=
  membersOf_asks fun ms _ => itemsOf_bind_asks enumElementOf_asks _ fun _ =>
    (nameOf_asks v).bind fun _ _ => annotations_ask ms _

/-- The needs of a typedef or of a field, those of its type first. -/
def typedNeeds (v : Json) : List Need :=
  objectNeeds
    (fun ms =>
      optionalNeeds typeRefNeeds (Json.member? ms "type") ++ ([.name v] ++ annotationNeeds ms))
    v

theorem typedefOf_asks (v : Json) : Asks (typedefOf v) (typedNeeds v) :=
  membersOf_asks fun ms _ => (typeRefOf_asks _).bind fun _ _ =>
    (nameOf_asks v).bind fun _ _ => annotations_ask ms _

theorem fieldOf_asks (v : Json) : Asks (fieldOf v) (typedNeeds v) :=
  membersOf_asks fun ms _ => (typeRefOf_asks _).bind fun _ _ =>
    (nameOf_asks v).bind fun _ _ => annotations_ask ms _

/-- The needs of a struct, those of its fields first. -/
def structNeeds (v : Json) : List Need :=
  objectNeeds
    (fun ms =>
      itemsNeeds typedNeeds (Json.member? ms "fields") ++ ([.name v] ++ annotationNeeds ms))
    v

theorem structOf_asks (v : Json) : Asks (structOf v) (structNeeds v) :=
  membersOf_asks fun ms _ => itemsOf_bind_asks fieldOf_asks _ fun _ =>
    (nameOf_asks v).bind fun _ _ => annotations_ask ms _

/-- The needs of an argument, which need not have a name. -/
def argumentNeeds (v : Json) : List Need :=
  objectNeeds (fun ms => optionalNeeds typeRefNeeds (Json.member? ms "type")) v

theorem argumentOf_asks (v : Json) : Asks (argumentOf v) (argumentNeeds v) :=
  membersOf_asks fun _ _ => (typeRefOf_asks _).pack _

/-- The needs of a function, those of its arguments first. -/
def functionNeeds (v : Json) : List Need :=
  objectNeeds
    (fun ms =>
      itemsNeeds argumentNeeds (Json.member? ms "arguments") ++
        ([.name v] ++
          (optionalNeeds typeRefNeeds (Json.member? ms "return_type") ++ annotationNeeds ms)))
    v

theorem functionOf_asks (v : Json) : Asks (functionOf v) (functionNeeds v) :=
  membersOf_asks fun ms _ => itemsOf_bind_asks argumentOf_asks _ fun _ =>
    (nameOf_asks v).bind fun _ _ => (typeRefOf_asks _).bind fun _ _ => annotations_ask ms _

/-- The needs of a description, in the order in which it is read. -/
def descriptionNeeds (ms : Members) : List Need :=
  itemsNeeds defineNeeds (Json.member? ms "defines") ++
    (itemsNeeds enumNeeds (Json.member? ms "enums") ++
      (itemsNeeds typedNeeds (Json.member? ms "typedefs") ++
        (itemsNeeds structNeeds (Json.member? ms "structs") ++
          itemsNeeds functionNeeds (Json.member? ms "functions"))))

theorem definitionsOf_asks (ms : Members) : Asks (definitionsOf ms) (descriptionNeeds ms) :=
  (itemsOf_asks defineOf_asks _).bind fun _ _ =>
    (itemsOf_asks enumOf_asks _).bind fun _ _ =>
      (itemsOf_asks typedefOf_asks _).bind fun _ _ =>
        (itemsOf_asks structOf_asks _).bind fun _ _ => (itemsOf_asks functionOf_asks _).pack _

/-! ## Loading -/

/-- The needs of a value that is loaded. That it has to be an object is told apart from them. -/
def loadNeeds : Json → List Need
  | .obj ms => descriptionNeeds ms
  | _ => []

/-- A value is loaded, or a user is told that it describes no header. -/
def LoadedOrReported (v : Json) : Prop :=
  (∃ d, ofJson v = .ok d) ∨
    ∃ e, ofJson v = .error e ∧ (InputError.unloadable e).isReported = true

/-- A value is loaded if nothing asked of it is missing. -/
theorem ofJson_of_met {ms : Members} (h : firstUnmet? (loadNeeds (.obj ms)) = none) :
    ∃ d, ofJson (.obj ms) = .ok d := by
  have hasks := definitionsOf_asks ms
  rw [Asks, show firstUnmet? (descriptionNeeds ms) = none from h] at hasks
  rw [ofJson]
  cases hread : definitionsOf ms with
  | ok d => exact ⟨d, rfl⟩
  | error e => rw [hread] at hasks; exact absurd hasks (by simp [faultOf])

/-- The first thing that is missing is the fault. -/
theorem ofJson_of_unmet {v : Json} {n : Need} (h : firstUnmet? (loadNeeds v) = some n) :
    ofJson v = .error (.item n.fault) := by
  cases v with
  | obj ms =>
      have hasks := definitionsOf_asks ms
      rw [Asks, show firstUnmet? (descriptionNeeds ms) = some n from h] at hasks
      rw [ofJson]
      cases hread : definitionsOf ms with
      | ok d => rw [hread] at hasks; exact absurd hasks (by simp [faultOf])
      | error e =>
          rw [hread] at hasks
          rw [← Option.some.inj hasks]
          rfl
  | _ => exact absurd h (by simp [loadNeeds, firstUnmet?])

theorem ofJson_of_kind_ne {v : Json} (h : v.kind ≠ .obj) :
    ofJson v = .error (.notObject v.kind) := by
  cases v with
  | obj ms => exact absurd rfl h
  | _ => rfl

theorem loadedOrReported_iff (v : Json) :
    LoadedOrReported v ↔ ∀ n, firstUnmet? (loadNeeds v) = some n → n.escapes = false := by
  cases hn : firstUnmet? (loadNeeds v) with
  | some n =>
      have hfault := ofJson_of_unmet hn
      have hmalformed := Need.isMalformedItem_fault (isMet_of_firstUnmet? hn)
      constructor
      · rintro (⟨d, hd⟩ | ⟨e, he, hreported⟩) m hm
        · exact absurd (hfault.symm.trans hd) (by simp)
        · rw [← Except.error.inj (hfault.symm.trans he), InputError.isReported, hmalformed]
            at hreported
          rw [← Option.some.inj hm]
          simpa using hreported
      · intro h
        refine .inr ⟨_, hfault, ?_⟩
        rw [InputError.isReported, hmalformed, h n rfl]
        rfl
  | none =>
      refine iff_of_true ?_ fun n hn => absurd hn (by simp)
      by_cases hkind : v.kind = .obj
      · cases v with
        | obj ms => exact .inl (ofJson_of_met hn)
        | _ => exact absurd hkind (by simp [Json.kind])
      · exact .inr ⟨_, ofJson_of_kind_ne hkind, rfl⟩

/-- How a value is loaded. -/
structure LoadedByNeeds (v : Json) : Prop where
  /-- Nothing but an object is a description. -/
  notObject : v.kind ≠ .obj → ofJson v = .error (.notObject v.kind)
  /-- An object is one exactly if every need of it is met. -/
  loaded : (∃ d, ofJson v = .ok d) ↔ v.kind = .obj ∧ ∀ n ∈ loadNeeds v, n.isMet = true
  /-- The first need that is not met tells the fault. -/
  fault : ∀ n, firstUnmet? (loadNeeds v) = some n → ofJson v = .error (.item n.fault)
  /-- A user is told, unless that need is one whose fault is passed on as it is. -/
  reported : LoadedOrReported v ↔
    ∀ n, firstUnmet? (loadNeeds v) = some n → n.escapes = false

/-- **Whatever value is loaded, the first need that it does not meet settles how that ends.** -/
theorem loadedByNeeds (v : Json) : LoadedByNeeds v where
  notObject := ofJson_of_kind_ne
  loaded := by
    constructor
    · rintro ⟨d, hd⟩
      have hkind : v.kind = .obj := by
        cases v with
        | obj ms => rfl
        | _ => exact absurd hd (by simp [ofJson])
      refine ⟨hkind, firstUnmet?_eq_none.mp ?_⟩
      cases hn : firstUnmet? (loadNeeds v) with
      | none => rfl
      | some n => exact absurd (hd.symm.trans (ofJson_of_unmet hn)) (by simp)
    · rintro ⟨hkind, hmet⟩
      cases v with
      | obj ms => exact ofJson_of_met (firstUnmet?_eq_none.mpr hmet)
      | _ => exact absurd hkind (by simp [Json.kind])
  fault := fun _ => ofJson_of_unmet
  reported := loadedOrReported_iff v

/-- The names of the collections in a description. -/
def collectionNames : List String := ["defines", "enums", "typedefs", "structs", "functions"]

/-- What a value lacks that is no object and stands alone in a collection. -/
theorem firstUnmet?_stray {v : Json} (hv : v.kind ≠ .obj) {name : String}
    (hname : name ∈ collectionNames) :
    firstUnmet? (loadNeeds (.obj [(name, .arr [v])])) =
      some (if name = "defines" then .name v else .members v) := by
  simp only [collectionNames, List.mem_cons, List.not_mem_nil, or_false] at hname
  cases v with
  | obj ms => exact absurd rfl hv
  | _ => rcases hname with rfl | rfl | rfl | rfl | rfl <;> rfl

/-- A stray value is reported among the defines, and among them only: there its name is asked for
first, elsewhere its members. -/
theorem loadedOrReported_stray {v : Json} (hv : v.kind ≠ .obj) {name : String}
    (hname : name ∈ collectionNames) :
    LoadedOrReported (.obj [(name, .arr [v])]) ↔ name = "defines" := by
  rw [loadedOrReported_iff, firstUnmet?_stray hv hname]
  simp only [Option.some.injEq, forall_eq']
  split
  · rename_i hdefines
    exact iff_of_true rfl hdefines
  · rename_i hother
    exact iff_of_false (by simp [Need.escapes]) hother

/-- A description with a number among its enums. -/
def numberAsEnum : Json := .obj [("enums", .arr [.int 5])]

theorem numberAsEnum_not_loadedOrReported : ¬ LoadedOrReported numberAsEnum := by
  rw [numberAsEnum, loadedOrReported_stray (by simp [Json.kind]) (by simp [collectionNames])]
  simp

end NativeBindings.Header
