import Mathlib.Data.List.Sort
import NativeBindings.CSharp.Declaration

/-!
# What is added to a declaration

Building a declaration and finishing it both add modifiers and attributes, and neither has to know
what the other one added. Adding values in two portions is adding them in one. What stood there
stays in front, and what is new follows, each value once and in the order in which the values occur
first, so a portion that is added again has no effect. Comments only get longer. And what is added
to one kind of annotation depends on no other kind, so the order does not matter.

Either list may have repetitions in it. Those that are there already stay, and no further one is
made.
-/

namespace NativeBindings.CSharp

variable {present new added : List String}

/-! ## Adding what is new -/

/-- What comes to a list from new values: those that it does not have, each of them once, in the
order in which they occur first. -/
structure FirstOccurrences (present new added : List String) : Prop where
  only : ∀ x ∈ added, x ∈ new ∧ x ∉ present
  once : ∀ x ∈ new, x ∉ present → added.count x = 1
  inOrder : added.Pairwise fun x y => new.idxOf x < new.idxOf y

namespace FirstOccurrences

theorem mem_iff (h : FirstOccurrences present new added) {x : String} :
    x ∈ added ↔ x ∈ new ∧ x ∉ present := by
  constructor
  · exact h.only x
  · rintro ⟨hnew, hpresent⟩
    refine List.count_pos_iff.mp ?_
    rw [h.once x hnew hpresent]
    exact Nat.one_pos

theorem nodup_of_inOrder (h : added.Pairwise fun x y => new.idxOf x < new.idxOf y) :
    added.Nodup := by
  refine h.imp fun hlt heq => ?_
  rw [heq] at hlt
  exact Nat.lt_irrefl _ hlt

theorem of_mem_iff (hmem : ∀ x, x ∈ added ↔ x ∈ new ∧ x ∉ present)
    (h : added.Pairwise fun x y => new.idxOf x < new.idxOf y) :
    FirstOccurrences present new added where
  only x hx := (hmem x).mp hx
  once x hnew hpresent :=
    List.count_eq_one_of_mem (nodup_of_inOrder h) ((hmem x).mpr ⟨hnew, hpresent⟩)
  inOrder := h

/-- The members and their order leave no choice. -/
theorem unique {added' : List String} (h : FirstOccurrences present new added)
    (h' : FirstOccurrences present new added') : added = added' := by
  have hirrefl : Std.Irrefl fun x y => new.idxOf x < new.idxOf y := ⟨fun _ => Nat.lt_irrefl _⟩
  have hantisymm : Std.Antisymm fun x y => new.idxOf x < new.idxOf y :=
    ⟨fun _ _ hlt hgt => absurd hlt (Nat.lt_asymm hgt)⟩
  exact h.inOrder.eq_of_mem_iff h'.inOrder fun _ => h.mem_iff.trans h'.mem_iff.symm

/-- A value in front moves the places of all others by one. -/
theorem inOrder_cons {x : String} {rest : List String} (hne : ∀ y ∈ added, y ≠ x)
    (h : added.Pairwise fun y z => rest.idxOf y < rest.idxOf z) :
    added.Pairwise fun y z => (x :: rest).idxOf y < (x :: rest).idxOf z := by
  refine List.Pairwise.imp_of_mem (fun hy hz hlt => ?_) h
  rw [List.idxOf_cons_ne _ (hne _ hy).symm, List.idxOf_cons_ne _ (hne _ hz).symm]
  exact Nat.succ_lt_succ hlt

theorem nil : FirstOccurrences present [] [] where
  only _ hx := absurd hx List.not_mem_nil
  once _ hx := absurd hx List.not_mem_nil
  inOrder := List.Pairwise.nil

theorem skip {x : String} {rest : List String} (hx : x ∈ present)
    (h : FirstOccurrences present rest added) : FirstOccurrences present (x :: rest) added := by
  have hne : ∀ y ∈ added, y ≠ x := fun y hy heq => (h.only y hy).2 (heq ▸ hx)
  refine of_mem_iff (fun y => ?_) (inOrder_cons hne h.inOrder)
  rw [h.mem_iff, List.mem_cons]
  constructor
  · exact fun ⟨hrest, hy⟩ => ⟨.inr hrest, hy⟩
  · rintro ⟨rfl | hrest, hy⟩
    · exact absurd hx hy
    · exact ⟨hrest, hy⟩

theorem cons {x : String} {rest : List String} (hx : x ∉ present)
    (h : FirstOccurrences (present ++ [x]) rest added) :
    FirstOccurrences present (x :: rest) (x :: added) := by
  have hne : ∀ y ∈ added, y ≠ x := fun y hy heq =>
    (h.only y hy).2 (List.mem_append_right _ (List.mem_singleton.mpr heq))
  refine of_mem_iff (fun y => ?_) (List.pairwise_cons.mpr ⟨fun y hy => ?_, ?_⟩)
  · rw [List.mem_cons, h.mem_iff, List.mem_cons, List.mem_append, List.mem_singleton, not_or]
    constructor
    · rintro (rfl | ⟨hrest, hy, -⟩)
      · exact ⟨.inl rfl, hx⟩
      · exact ⟨.inr hrest, hy⟩
    · rintro ⟨rfl | hrest, hy⟩
      · exact .inl rfl
      · by_cases heq : y = x
        · exact .inl heq
        · exact .inr ⟨hrest, hy, heq⟩
  · rw [List.idxOf_cons_self, List.idxOf_cons_ne _ (hne y hy).symm]
    exact Nat.succ_pos _
  · exact inOrder_cons hne h.inOrder

end FirstOccurrences

theorem addNew_cons_of_mem {x : String} (hx : x ∈ present) (rest : List String) :
    addNew present (x :: rest) = addNew present rest := by
  rw [addNew, List.foldl_cons, if_pos hx, ← addNew]

theorem addNew_cons_of_not_mem {x : String} (hx : x ∉ present) (rest : List String) :
    addNew present (x :: rest) = addNew (present ++ [x]) rest := by
  rw [addNew, List.foldl_cons, if_neg hx, ← addNew]

/-- What is there stays in front, and what is new follows. -/
theorem exists_addNew_eq (present new : List String) :
    ∃ added, FirstOccurrences present new added ∧ addNew present new = present ++ added := by
  induction new generalizing present with
  | nil => exact ⟨[], .nil, (List.append_nil present).symm⟩
  | cons x rest ih =>
      by_cases hx : x ∈ present
      · obtain ⟨added, hadded, heq⟩ := ih present
        exact ⟨added, hadded.skip hx, (addNew_cons_of_mem hx rest).trans heq⟩
      · obtain ⟨added, hadded, heq⟩ := ih (present ++ [x])
        refine ⟨x :: added, hadded.cons hx, ?_⟩
        rw [addNew_cons_of_not_mem hx, heq, List.append_assoc, List.singleton_append]

/-- The rule says exactly what is added. -/
theorem addNew_eq_append_iff :
    addNew present new = present ++ added ↔ FirstOccurrences present new added := by
  obtain ⟨added', h', heq'⟩ := exists_addNew_eq present new
  rw [heq', List.append_right_inj]
  constructor
  · rintro rfl
    exact h'
  · exact h'.unique

example : addNew ["public", "public"] ["unsafe", "public", "fixed", "unsafe"] =
    ["public", "public", "unsafe", "fixed"] := by
  decide

theorem mem_addNew {x : String} : x ∈ addNew present new ↔ x ∈ present ∨ x ∈ new := by
  obtain ⟨added, h, heq⟩ := exists_addNew_eq present new
  rw [heq, List.mem_append, h.mem_iff]
  constructor
  · rintro (hx | ⟨hx, -⟩)
    · exact .inl hx
    · exact .inr hx
  · rintro (hx | hx)
    · exact .inl hx
    · by_cases hpresent : x ∈ present
      · exact .inl hpresent
      · exact .inr ⟨hx, hpresent⟩

/-- No value comes to stand there again. -/
theorem count_addNew (present new : List String) (x : String) :
    (addNew present new).count x =
      present.count x + if x ∈ new ∧ x ∉ present then 1 else 0 := by
  obtain ⟨added, h, heq⟩ := exists_addNew_eq present new
  rw [heq, List.count_append, Nat.add_left_cancel_iff]
  by_cases hx : x ∈ new ∧ x ∉ present
  · rw [if_pos hx, h.once x hx.1 hx.2]
  · rw [if_neg hx, List.count_eq_zero]
    exact fun hmem => hx (h.only x hmem)

theorem nodup_addNew {present : List String} (h : present.Nodup) (new : List String) :
    (addNew present new).Nodup := by
  obtain ⟨added, hadded, heq⟩ := exists_addNew_eq present new
  rw [heq, List.nodup_append]
  exact ⟨h, FirstOccurrences.nodup_of_inOrder hadded.inOrder, fun x hx y hy hxy =>
    (hadded.only y hy).2 (hxy ▸ hx)⟩

theorem addNew_append (present a b : List String) :
    addNew present (a ++ b) = addNew (addNew present a) b :=
  List.foldl_append ..

theorem addNew_of_subset (h : new ⊆ present) : addNew present new = present := by
  have hnone : FirstOccurrences present new [] := .of_mem_iff
    (fun _ => iff_of_false List.not_mem_nil fun ⟨hnew, hx⟩ => hx (h hnew)) .nil
  rw [addNew_eq_append_iff.mpr hnone, List.append_nil]

/-- Adding the same values again has no effect. -/
@[simp] theorem addNew_addNew_self (present new : List String) :
    addNew (addNew present new) new = addNew present new :=
  addNew_of_subset fun _ hx => mem_addNew.mpr (.inr hx)

/-! ## Annotations of any declaration -/

namespace Declaration

@[simp] theorem annotations_withAnnotations (d : Declaration) (n : Annotations) :
    (d.withAnnotations n).annotations = n := by
  cases d <;> rfl

@[simp] theorem withAnnotations_withAnnotations (d : Declaration) (n m : Annotations) :
    (d.withAnnotations n).withAnnotations m = d.withAnnotations m := by
  cases d <;> rfl

/-- The second declaration is the first one with these annotations: it is of the same kind, and all
else that belongs to it is the same. -/
inductive Reannotated (n : Annotations) : Declaration → Declaration → Prop
  | constant (c : Constant) : Reannotated n (.constant c)
      (.constant { name := c.name, type := c.type, value := c.value, annotations := n })
  | enumValue (v : EnumValue) : Reannotated n (.enumValue v)
      (.enumValue { name := v.name, value := v.value, annotations := n })
  | enum (e : Enum) : Reannotated n (.enum e)
      (.enum { name := e.name, isFlags := e.isFlags, values := e.values, annotations := n })
  | field (f : Field) : Reannotated n (.field f)
      (.field { name := f.name, type := f.type, isArray := f.isArray, arrayBound := f.arrayBound,
                annotations := n })
  | argument (a : Argument) : Reannotated n (.argument a)
      (.argument { name := a.name, type := a.type, isArray := a.isArray,
                   arrayBound := a.arrayBound, annotations := n })
  | delegate (x : Delegate) : Reannotated n (.delegate x)
      (.delegate { name := x.name, returnType := x.returnType, arguments := x.arguments,
                   annotations := n })
  | function (f : Function) : Reannotated n (.function f)
      (.function { name := f.name, returnType := f.returnType, arguments := f.arguments,
                   annotations := n })
  | struct (s : Struct) : Reannotated n (.struct s)
      (.struct { name := s.name, fields := s.fields, inner := s.inner, annotations := n })
  | typeAlias (a : Alias) : Reannotated n (.typeAlias a)
      (.typeAlias { name := a.name, target := a.target, annotations := n })

theorem reannotated_withAnnotations (d : Declaration) (n : Annotations) :
    Reannotated n d (d.withAnnotations n) := by
  cases d with
  | constant c => exact .constant c
  | enumValue v => exact .enumValue v
  | enum e => exact .enum e
  | field f => exact .field f
  | argument a => exact .argument a
  | delegate x => exact .delegate x
  | function f => exact .function f
  | struct s => exact .struct s
  | typeAlias a => exact .typeAlias a

/-- Two changes to annotations that can change places can do so on every declaration. -/
theorem withAnnotations_comm {f g : Annotations → Annotations} (h : ∀ n, f (g n) = g (f n))
    (d : Declaration) :
    (d.withAnnotations (g d.annotations)).withAnnotations
        (f (d.withAnnotations (g d.annotations)).annotations) =
      (d.withAnnotations (f d.annotations)).withAnnotations
        (g (d.withAnnotations (f d.annotations)).annotations) := by
  rw [annotations_withAnnotations, annotations_withAnnotations, withAnnotations_withAnnotations,
    withAnnotations_withAnnotations, h]

end Declaration

/-! ## Modifiers and attributes -/

/-- A list among the annotations: how it is read, and how it is put in place of the one there. -/
structure AnnotationList where
  get : Annotations → List String
  set : Annotations → List String → Annotations
  get_set : ∀ n l, get (set n l) = l
  set_set : ∀ n l m, set (set n l) m = set n m

namespace AnnotationList

/-- The list of modifiers. -/
def modifiers : AnnotationList where
  get n := n.modifiers
  set n l := { n with modifiers := l }
  get_set _ _ := rfl
  set_set _ _ _ := rfl

/-- The list of attributes. -/
def attributes : AnnotationList where
  get n := n.attributes
  set n l := { n with attributes := l }
  get_set _ _ := rfl
  set_set _ _ _ := rfl

end AnnotationList

/-- How values are added to one list among the annotations of a declaration. -/
structure AddsNew (list : AnnotationList) (add : Declaration → List String → Declaration) :
    Prop where
  /-- Two portions are as good as one. -/
  composes : ∀ d a b, add (add d a) b = add d (a ++ b)
  /-- A portion that is added again has no effect. -/
  repeats : ∀ d a, add (add d a) a = add d a
  /-- The list that was there stays in front, what is new follows, and all else is as before. -/
  grows : ∀ d new, ∃ added, FirstOccurrences (list.get d.annotations) new added ∧
    Declaration.Reannotated (list.set d.annotations (list.get d.annotations ++ added)) d (add d new)
  /-- A value is there as often as before, or once if it is a new one. -/
  noDuplicate : ∀ d new x, (list.get (add d new).annotations).count x =
    (list.get d.annotations).count x + if x ∈ new ∧ x ∉ list.get d.annotations then 1 else 0

theorem AddsNew.of_addNew {list : AnnotationList} {add : Declaration → List String → Declaration}
    (h : ∀ d new, add d new =
      d.withAnnotations (list.set d.annotations (addNew (list.get d.annotations) new))) :
    AddsNew list add := by
  have hget : ∀ d new, list.get (add d new).annotations = addNew (list.get d.annotations) new := by
    intro d new
    rw [h, Declaration.annotations_withAnnotations, list.get_set]
  have hadd : ∀ d a b, add (add d a) b = d.withAnnotations
      (list.set d.annotations (addNew (addNew (list.get d.annotations) a) b)) := by
    intro d a b
    rw [h (add d a), hget, h d, Declaration.annotations_withAnnotations,
      Declaration.withAnnotations_withAnnotations, list.set_set]
  refine ⟨fun d a b => ?_, fun d a => ?_, fun d new => ?_, fun d new x => ?_⟩
  · rw [hadd, h, addNew_append]
  · rw [hadd, h, addNew_addNew_self]
  · obtain ⟨added, hadded, heq⟩ := exists_addNew_eq (list.get d.annotations) new
    refine ⟨added, hadded, ?_⟩
    rw [h, heq]
    exact d.reannotated_withAnnotations _
  · rw [hget, count_addNew]

namespace Declaration

/-- How the annotations of a declaration grow. -/
structure AnnotationLaws : Prop where
  modifiers : AddsNew .modifiers addModifiers
  attributes : AddsNew .attributes addAttributes
  /-- Adding to one kind of annotation and adding to another one change places. -/
  modifiers_attributes : ∀ d a b,
    (addModifiers d a).addAttributes b = (addAttributes d b).addModifiers a
  modifiers_comments : ∀ d a b,
    (addModifiers d a).addCommentLines b = (addCommentLines d b).addModifiers a
  attributes_comments : ∀ d a b,
    (addAttributes d a).addCommentLines b = (addCommentLines d b).addAttributes a

/-- **Annotations compose.** Whatever the declaration, modifiers and attributes can be added in any
portions, again, and in any order with each other and with comments. -/
theorem annotations_compose : AnnotationLaws where
  modifiers := .of_addNew fun _ _ => rfl
  attributes := .of_addNew fun _ _ => rfl
  modifiers_attributes d a b :=
    withAnnotations_comm (f := (·.addAttributes b)) (g := (·.addModifiers a)) (fun _ => rfl) d
  modifiers_comments d a b :=
    withAnnotations_comm (f := (·.addCommentLines b)) (g := (·.addModifiers a)) (fun _ => rfl) d
  attributes_comments d a b :=
    withAnnotations_comm (f := (·.addCommentLines b)) (g := (·.addAttributes a)) (fun _ => rfl) d

end Declaration

end NativeBindings.CSharp
