import NativeBindings.Proofs.Finished
import NativeBindings.Render.Documents

/-!
# What is written, as lines

Writing goes by marks and by a level that the marks move up and down. Here the same lines
are given without a level: every declaration has its lines, a block is the lines inside it
one tab further in, between braces, and what stands side by side has an empty line between.

The marks of a declaration write just these lines, whatever the level is: each line that is
not empty gets the tabs of the level, and at the end the level is what it was. So a
declaration reads the same wherever it stands, and one that is written never disturbs what
comes after it. This goes through structs inside structs, to any depth.
-/

namespace NativeBindings

open CSharp

namespace Render

/-! ## Lines further in -/

theorem indented_zero (s : String) : indented (0 : Nat) s = s := by
  unfold indented
  split
  · rename_i hempty
    exact (String.isEmpty_iff.mp hempty).symm
  · rfl

theorem indented_indented (m n : Nat) (s : String) :
    indented m (indented n s) = indented (m + n : Nat) s := by
  by_cases hempty : s.isEmpty = true
  · have hnone : ∀ level : Int, indented level s = "" := fun level => if_pos hempty
    rw [hnone, hnone]
    rfl
  · have hline : ∀ k : Nat, indented k s = String.ofList (List.replicate k '\t') ++ s :=
      fun k => if_neg hempty
    -- what has tabs in front of it is not empty either
    have hinner : ¬(indented n s).isEmpty = true := by
      rw [hline, String.isEmpty_iff, String.append_eq_empty_iff]
      exact fun h => hempty (String.isEmpty_iff.mpr h.2)
    have houter : indented m (indented n s) =
        String.ofList (List.replicate m '\t') ++ indented n s := if_neg hinner
    rw [houter, hline, hline, ← String.append_assoc, ← String.ofList_append,
      List.replicate_append_replicate]

/-- Lines under a number of further blocks. Empty lines stay empty. -/
def shifted (n : Nat) (lines : List String) : List String := lines.map (indented n)

theorem shifted_zero (lines : List String) : shifted 0 lines = lines := by
  have hid : (indented ((0 : Nat) : Int)) = id := funext indented_zero
  rw [shifted, hid, List.map_id]

theorem shifted_shifted (m n : Nat) (lines : List String) :
    shifted m (shifted n lines) = shifted (m + n) lines := by
  rw [shifted, shifted, shifted, List.map_map]
  exact List.map_congr_left fun s _ => indented_indented m n s

theorem shifted_append (n : Nat) (xs ys : List String) :
    shifted n (xs ++ ys) = shifted n xs ++ shifted n ys := List.map_append

/-! ## Complete renderings -/

/-- Whatever the level before the marks, it is the level after them. -/
def Balanced (marks : List Mark) : Prop := ∀ level, Mark.levelAfterAll level marks = level

theorem levelAfterAll_append (level : Int) (xs ys : List Mark) :
    Mark.levelAfterAll level (xs ++ ys) = Mark.levelAfterAll (Mark.levelAfterAll level xs) ys :=
  List.foldl_append

theorem writtenAll_append (level : Int) (xs ys : List Mark) : Mark.writtenAll level (xs ++ ys) =
    Mark.writtenAll level xs ++ Mark.writtenAll (Mark.levelAfterAll level xs) ys := by
  induction xs generalizing level with
  | nil => rfl
  | cons x rest ih =>
      rw [List.cons_append, Mark.writtenAll, Mark.writtenAll, ih]
      rfl

/-- The rendering ends well and closes what it opens. -/
structure Completes (r : Rendered) : Prop where
  result : r.result = .ok ()
  balanced : Balanced r.trace

/-- The rendering is complete, and at any level it writes the lines under that many blocks. -/
structure Writes (r : Rendered) (lines : List String) : Prop extends Completes r where
  written : ∀ n : Nat, Mark.writtenAll n r.trace = shifted n lines

/-- Lines in braces. -/
def inBraces (lines : List String) : List String := "\x7b" :: shifted 1 lines ++ ["\x7d"]

/-- Groups of lines with an empty line between them. -/
def apart (groups : List (List String)) : List String := [""].intercalate groups

theorem apart_singleton (x : List String) : apart [x] = x := List.intercalate_singleton

theorem apart_cons_cons (x y : List String) (rest : List (List String)) :
    apart (x :: y :: rest) = x ++ [""] ++ apart (y :: rest) := List.intercalate_cons_cons

/-- Groups of both kinds, if there are some of each, have an empty line where the kinds meet. -/
theorem apart_append {xs ys : List (List String)} (hx : xs ≠ []) (hy : ys ≠ []) :
    apart (xs ++ ys) = apart xs ++ [""] ++ apart ys := by
  obtain ⟨y, ys, rfl⟩ := List.exists_cons_of_ne_nil hy
  induction xs with
  | nil => exact absurd rfl hx
  | cons x rest ih =>
      cases rest with
      | nil =>
          rw [List.singleton_append, apart_cons_cons, apart_singleton]
      | cons x' rest =>
          rw [List.cons_append, List.cons_append, apart_cons_cons, apart_cons_cons,
            ← List.cons_append, ih (by simp)]
          simp only [List.append_assoc]

theorem apart_append_of_nil {xs ys : List (List String)} (h : xs = [] ∨ ys = []) :
    apart (xs ++ ys) = apart xs ++ apart ys := by
  rcases h with rfl | rfl
  · rfl
  · rw [List.append_nil]
    exact (List.append_nil _).symm

namespace Writes

variable {x y : Rendered} {xs ys : List String}

theorem nothing : Writes (pure ()) [] := ⟨⟨rfl, fun _ => rfl⟩, fun _ => rfl⟩

theorem line (s : String) : Writes (Traced.report (.line s)) [s] :=
  ⟨⟨rfl, fun _ => rfl⟩, fun _ => rfl⟩

theorem lines (ss : List String) : Writes (Traced.reportAll (ss.map .line)) ss := by
  have hlevel : ∀ level, Mark.levelAfterAll level (ss.map .line) = level := by
    intro level
    induction ss with
    | nil => rfl
    | cons s rest ih => exact ih
  have hwritten : ∀ n : Nat, Mark.writtenAll n (ss.map .line) = shifted n ss := by
    intro n
    induction ss with
    | nil => rfl
    | cons s rest ih =>
        rw [List.map_cons, Mark.writtenAll, Mark.levelAfter, ih fun level => hlevel level]
        rfl
  exact ⟨⟨rfl, hlevel⟩, hwritten⟩

theorem andThen (hx : Writes x xs) (hy : Writes y ys) :
    Writes (x >>= fun _ => y) (xs ++ ys) := by
  have hstep : (x >>= fun _ => y) = ⟨x.trace ++ y.trace, y.result⟩ := by
    show Traced.bind x _ = _
    unfold Traced.bind
    rw [hx.result]
  rw [hstep]
  refine ⟨⟨hy.result, fun level => ?_⟩, fun n => ?_⟩
  · rw [levelAfterAll_append, hx.balanced, hy.balanced]
  · rw [writtenAll_append, hx.balanced, hx.written, hy.written, shifted_append]

/-- A block closes after whatever is inside, and what is inside is one level further in. -/
theorem block (h : Writes x xs) : Writes (block x) (inBraces xs) := by
  have hblock : Render.block x = ⟨.openBlock :: (x.trace ++ [.closeBlock]), .ok ()⟩ := by
    show Traced.bind (Traced.report .openBlock) (fun _ =>
      Traced.bind x fun _ => Traced.report .closeBlock) = _
    unfold Traced.bind
    rw [h.result]
    rfl
  rw [hblock]
  refine ⟨⟨rfl, fun level => ?_⟩, fun n => ?_⟩
  · show Mark.levelAfterAll (level + 1) (x.trace ++ [.closeBlock]) = level
    rw [levelAfterAll_append, h.balanced]
    show level + 1 - 1 = level
    omega
  · show indented n "\x7b" :: Mark.writtenAll ((n + 1 : Nat) : Int) (x.trace ++ [.closeBlock]) = _
    rw [writtenAll_append, h.balanced, h.written]
    show indented n "\x7b" :: (shifted (n + 1) xs ++ [indented ((n + 1 : Nat) - 1) "\x7d"]) = _
    have hlevel : (((n + 1 : Nat) : Int) - 1) = n := by omega
    rw [hlevel, ← shifted_shifted]
    simp [inBraces, shifted]

theorem separated {α : Type} {render : α → Rendered} {f : α → List String} {as : List α}
    (h : ∀ a ∈ as, Writes (render a) (f a)) : Writes (separated render as) (apart (as.map f)) := by
  induction as with
  | nil => exact nothing
  | cons a rest ih =>
      have ha := h a List.mem_cons_self
      have hrest := ih fun b hb => h b (List.mem_cons_of_mem a hb)
      cases rest with
      | nil =>
          rw [List.map_singleton, apart_singleton]
          exact ha
      | cons b more =>
          have hboth := ha.andThen ((line "").andThen hrest)
          rw [List.map_cons, List.map_cons, apart_cons_cons, List.append_assoc]
          exact hboth

end Writes

/-! ## The lines of declarations -/

/-- The lines above a declaration. -/
def preambleLines (a : Annotations) : List String :=
  (summaryLines a).map (fun line => "/// " ++ line) ++
    a.attributes.map fun text => "[" ++ text ++ "]"

/-- A declaration in one line, under its preamble. -/
def lineUnder (a : Annotations) (line : String) : List String :=
  preambleLines a ++ [modifiers a ++ line]

/-- The lines of a constant. -/
def constantLines (c : Constant) : List String :=
  lineUnder c.annotations (c.type.display ++ " " ++ c.name.display ++ " = " ++ c.value ++ ";")

/-- The lines of an enum value. -/
def enumValueLines (v : EnumValue) : List String :=
  lineUnder v.annotations (v.name.display ++ " = " ++ v.value ++ ",")

/-- The values of an enum stand in braces. -/
def enumLines (e : Enum) : List String :=
  lineUnder e.annotations ("enum " ++ e.name.display) ++
    inBraces (apart (e.values.map enumValueLines))

/-- The text of a field. -/
def fieldText (f : Field) : String :=
  modifiers f.annotations ++ f.type.display ++ " " ++ f.name.display ++
    (if f.isArray then "[" ++ f.arrayBound ++ "]" else "") ++ ";"

/-- A field of unknown type is a comment. -/
def fieldLines (f : Field) : List String :=
  preambleLines f.annotations ++
    [if f.type.isUnknown then "// unresolved: " ++ fieldText f else fieldText f]

/-- The text of a signature. -/
def signatureText (returnType : CsType) (name : Leaf) (arguments : List Argument) : String :=
  returnType.display ++ " " ++ name.display ++ "(" ++
    ", ".intercalate (arguments.map fun a => a.type.display ++ " " ++ a.name.display) ++ ");"

/-- The lines of a delegate. -/
def delegateLines (d : Delegate) : List String :=
  lineUnder d.annotations ("delegate " ++ signatureText d.returnType d.name d.arguments)

/-- The lines of a function. -/
def functionLines (f : Function) : List String :=
  lineUnder f.annotations (signatureText f.returnType f.name f.arguments)

mutual

/-- The inner declarations of a struct come first, then its fields. -/
def structLines : Struct → List String
  | ⟨name, fields, inner, annotations⟩ =>
    lineUnder annotations ("struct " ++ name.display) ++
      inBraces (apart (innerLines inner ++ fields.map fieldLines))

/-- The lines of a declaration. What is only a part of one has none. -/
def declarationLines : Declaration → List String
  | .constant c => constantLines c
  | .enum e => enumLines e
  | .struct s => structLines s
  | .delegate d => delegateLines d
  | .function f => functionLines f
  | .enumValue _ | .field _ | .argument _ | .typeAlias _ => []

/-- The lines of each declaration inside a struct. -/
def innerLines : List Declaration → List (List String)
  | [] => []
  | d :: rest => declarationLines d :: innerLines rest

end

theorem innerLines_eq_nil {inner : List Declaration} : innerLines inner = [] ↔ inner = [] := by
  cases inner with
  | nil => exact ⟨fun _ => rfl, fun _ => rfl⟩
  | cons d rest => simp [innerLines]

end Render

/-! ## Declarations that can be written -/

namespace CSharp

mutual

/-- The types of the fields can be written, and so can all that stands inside. -/
inductive Struct.Renderable : Struct → Prop where
  | intro {name : Leaf} {fields : List Field} {inner : List Declaration}
      {annotations : Annotations} (hfields : ∀ f ∈ fields, f.type.Writable)
      (hinner : ∀ i ∈ inner, Declaration.Renderable i) :
      Struct.Renderable ⟨name, fields, inner, annotations⟩

/-- It is a whole declaration, and all types in it can be written. -/
inductive Declaration.Renderable : Declaration → Prop where
  | constant {c : Constant} (h : c.type.Writable) : Declaration.Renderable (.constant c)
  | enum (e : Enum) : Declaration.Renderable (.enum e)
  | struct {s : Struct} (h : s.Renderable) : Declaration.Renderable (.struct s)
  | delegate {d : Delegate} (h : d.Writable) : Declaration.Renderable (.delegate d)
  | function {f : Function} (h : f.Writable) : Declaration.Renderable (.function f)

end

/-- Everything in the set can be written, and so can all that stands inside of it. -/
structure DeclarationSet.Renderable (d : DeclarationSet) : Prop where
  constants : ∀ c ∈ d.constants ++ d.enumConstants, c.type.Writable
  structs : ∀ s ∈ d.structs ++ d.inlineArrays, s.Renderable
  delegates : ∀ x ∈ d.delegates, x.Writable
  functions : ∀ f ∈ d.functions, f.Writable

end CSharp

namespace Render

theorem preamble_writes (a : Annotations) :
    Writes (Traced.reportAll (preamble a)) (preambleLines a) := by
  have hmarks : preamble a = (preambleLines a).map .line := by
    rw [preamble, summary, attributes, preambleLines, List.map_append, List.map_map, List.map_map]
    rfl
  rw [hmarks]
  exact .lines _

theorem oneLine_writes {a : Annotations} {line : Except Misfit String} {s : String}
    (h : line = .ok s) : Writes (oneLine a line) (lineUnder a s) := by
  subst h
  exact (preamble_writes a).andThen (.line (modifiers a ++ s))

theorem constant_writes {c : Constant} (h : c.type.Writable) :
    Writes (constant c) (constantLines c) := by
  unfold constant
  rw [h.written]
  exact oneLine_writes rfl

theorem enum_writes (e : Enum) : Writes (enum e) (enumLines e) :=
  (oneLine_writes rfl).andThen (.block (.separated fun _ _ => oneLine_writes rfl))

theorem field_writes {f : Field} (h : f.type.Writable) : Writes (field f) (fieldLines f) := by
  have hline : fieldLine f =
      .ok (if f.type.isUnknown then "// unresolved: " ++ fieldText f else fieldText f) := by
    rw [fieldLine, h.written]
    rfl
  unfold field
  rw [hline]
  exact (preamble_writes f.annotations).andThen (.line _)

theorem signature_eq {returnType : CsType} {arguments : List Argument} (hr : returnType.Writable)
    (ha : ∀ a ∈ arguments, a.type.Writable) (name : Leaf) :
    signature returnType name arguments = .ok (signatureText returnType name arguments) := by
  have harguments : arguments.mapM Argument.display =
      .ok (arguments.map fun a => a.type.display ++ " " ++ a.name.display) := by
    refine mapM_eq_map fun a h => ?_
    rw [Argument.display, (ha a h).written]
    rfl
  rw [signature, hr.written, ok_bind, displayArguments, harguments]
  rfl

theorem delegate_writes {d : Delegate} (h : d.Writable) :
    Writes (delegate d) (delegateLines d) := by
  unfold delegate
  rw [signature_eq h.1 h.2]
  exact oneLine_writes rfl

theorem function_writes {f : Function} (h : f.Writable) :
    Writes (function f) (functionLines f) := by
  unfold function
  exact oneLine_writes (signature_eq h.1 h.2 f.name)

/-- What is inside the braces of a struct. -/
theorem inside_writes {inner : List Declaration} {fields : List Field}
    (hinner : Writes (declarations inner) (apart (innerLines inner)))
    (hfields : ∀ f ∈ fields, f.type.Writable) :
    Writes (do
        declarations inner
        if !inner.isEmpty && !fields.isEmpty then Traced.report .blank
        separated field fields)
      (apart (innerLines inner ++ fields.map fieldLines)) := by
  have hafter : Writes (separated field fields) (apart (fields.map fieldLines)) :=
    .separated fun f hf => field_writes (hfields f hf)
  by_cases hnone : inner = [] ∨ fields = []
  · -- where one kind is missing there is nothing to set apart
    have hblank : (!inner.isEmpty && !fields.isEmpty) = false := by
      rcases hnone with rfl | rfl
      · rfl
      · exact Bool.and_false _
    have hlines : innerLines inner = [] ∨ fields.map fieldLines = [] :=
      hnone.imp innerLines_eq_nil.mpr List.map_eq_nil_iff.mpr
    rw [apart_append_of_nil hlines]
    simp only [hblank, Bool.false_eq_true, if_false]
    exact hinner.andThen hafter
  · obtain ⟨hi, hf⟩ := not_or.mp hnone
    have hblank : (!inner.isEmpty && !fields.isEmpty) = true := by simp [hi, hf]
    rw [apart_append (mt innerLines_eq_nil.mp hi) (mt List.map_eq_nil_iff.mp hf),
      List.append_assoc]
    simp only [hblank, if_true]
    exact hinner.andThen ((Writes.line "").andThen hafter)

/-- Declarations that are written are written side by side. -/
theorem declarations_writes {inner : List Declaration}
    (h : ∀ i ∈ inner, Writes (declaration i) (declarationLines i)) :
    Writes (declarations inner) (apart (innerLines inner)) := by
  induction inner with
  | nil => exact .nothing
  | cons i rest ih =>
      have hi := h i List.mem_cons_self
      have hrest := ih fun k hk => h k (List.mem_cons_of_mem i hk)
      cases rest with
      | nil =>
          rw [innerLines, innerLines, apart_singleton]
          exact hi
      | cons j more =>
          have hstep : declarations (i :: j :: more) = (do
              declaration i
              Traced.report .blank
              declarations (j :: more)) := by
            rw [declarations]
            exact List.cons_ne_nil j more
          rw [hstep, innerLines, innerLines, apart_cons_cons, List.append_assoc, ← innerLines]
          exact hi.andThen ((Writes.line "").andThen hrest)

/-- **A declaration that can be written is written, as its lines.** The induction is on how deep
structs stand in one another. -/
theorem declaration_writes {x : Declaration} (h : x.Renderable) :
    Writes (declaration x) (declarationLines x) := by
  refine @Declaration.Renderable.rec (fun s _ => Writes (struct s) (structLines s))
    (fun x _ => Writes (declaration x) (declarationLines x))
    ?inside ?constant ?enum ?struct ?delegate ?function x h
  case inside =>
    intro name fields inner annotations hfields _ hinner
    rw [struct, structLines]
    exact (oneLine_writes rfl).andThen (.block (inside_writes (declarations_writes hinner) hfields))
  case constant =>
    intro c hc
    rw [declaration, declarationLines]
    exact constant_writes hc
  case enum =>
    intro e
    rw [declaration, declarationLines]
    exact enum_writes e
  case struct =>
    intro s _ hs
    rw [declaration, declarationLines]
    exact hs
  case delegate =>
    intro d hd
    rw [declaration, declarationLines]
    exact delegate_writes hd
  case function =>
    intro f hf
    rw [declaration, declarationLines]
    exact function_writes hf

theorem struct_writes {s : Struct} (h : s.Renderable) : Writes (struct s) (structLines s) := by
  have hwhole := declaration_writes (.struct h)
  rwa [declaration, declarationLines] at hwhole

/-! ## The lines of documents -/

/-- The lines of the namespace. -/
def namespaceLines (o : Options) : List String := ["namespace " ++ o.namespaceName ++ ";", ""]

/-- The lines with which a document begins. Only attributes of enums need something to be used. -/
def headLines (o : Options) (d : DeclarationSet) : Document → List String
  | .constants => namespaceLines o
  | .enums =>
    (if ∃ e ∈ d.enums, e.annotations.attributes ≠ [] then ["using System;", ""] else []) ++
      namespaceLines o
  | .structs => [constantsUsing o, ""] ++ namespaceLines o
  | .delegates => [interopUsing, ""] ++ namespaceLines o
  | .inlineArrays => [compilerServicesUsing, constantsUsing o, ""] ++ namespaceLines o
  | .functions => [interopUsing, ""] ++ namespaceLines o

/-- The declarations that a document holds. -/
def content (d : DeclarationSet) : Document → List Declaration
  | .constants => (d.constants ++ d.enumConstants).map .constant
  | .enums => d.enums.map .enum
  | .structs => d.structs.map .struct
  | .delegates => d.delegates.map .delegate
  | .inlineArrays => d.inlineArrays.map .struct
  | .functions => d.functions.map .function

/-- The declarations of the document are members of the class. -/
def inClass : Document → Bool
  | .constants | .functions => true
  | .enums | .structs | .delegates | .inlineArrays => false

/-- The lines of the declarations in a document. -/
def bodyLines (o : Options) (d : DeclarationSet) (which : Document) : List String :=
  let inside := apart ((content d which).map declarationLines)
  if inClass which then
    ("public static partial class " ++ o.nativeClass) :: inBraces inside
  else inside

/-- The lines of a document, its head first. -/
def documentLines (o : Options) (d : DeclarationSet) (which : Document) : List String :=
  headLines o d which ++ bodyLines o d which

theorem header_writes (o : Options) (d : DeclarationSet) (which : Document) :
    Writes (Traced.reportAll (header o (usings o d which))) (headLines o d which) := by
  have hmarks : header o (usings o d which) = (headLines o d which).map .line := by
    cases which with
    | enums =>
        have hiff : (d.enums.any fun e => !e.annotations.attributes.isEmpty) = true ↔
            ∃ e ∈ d.enums, e.annotations.attributes ≠ [] := by simp
        rw [usings, headLines]
        by_cases hsome : ∃ e ∈ d.enums, e.annotations.attributes ≠ []
        · rw [if_pos hsome, if_pos (hiff.mpr hsome)]
          rfl
        · rw [if_neg hsome, if_neg fun h => hsome (hiff.mp h)]
          rfl
    | _ => rfl
  rw [hmarks]
  exact .lines _

/-- Declarations of one kind, side by side. -/
theorem separated_writes {α : Type} {render : α → Rendered} {kind : α → Declaration} {as : List α}
    (h : ∀ a ∈ as, Writes (render a) (declarationLines (kind a))) :
    Writes (separated render as) (apart ((as.map kind).map declarationLines)) := by
  rw [List.map_map]
  exact .separated h

theorem body_writes {d : DeclarationSet} (h : d.Renderable) (o : Options) (which : Document) :
    Writes (body o d which) (bodyLines o d which) := by
  cases which with
  | constants =>
      exact (Writes.line _).andThen (.block (separated_writes fun c hc => by
        rw [declarationLines]
        exact constant_writes (h.constants c hc)))
  | enums =>
      exact separated_writes fun e _ => by
        rw [declarationLines]
        exact enum_writes e
  | structs =>
      exact separated_writes fun s hs => by
        rw [declarationLines]
        exact struct_writes (h.structs s (List.mem_append_left _ hs))
  | delegates =>
      exact separated_writes fun x hx => by
        rw [declarationLines]
        exact delegate_writes (h.delegates x hx)
  | inlineArrays =>
      exact separated_writes fun s hs => by
        rw [declarationLines]
        exact struct_writes (h.structs s (List.mem_append_right _ hs))
  | functions =>
      exact (Writes.line _).andThen (.block (separated_writes fun f hf => by
        rw [declarationLines]
        exact function_writes (h.functions f hf)))

/-- **Every document is written, as its lines.** -/
theorem document_writes {d : DeclarationSet} (h : d.Renderable) (o : Options) (which : Document) :
    Writes (document o d which) (documentLines o d which) :=
  (header_writes o d which).andThen (body_writes h o which)

end Render

end NativeBindings
