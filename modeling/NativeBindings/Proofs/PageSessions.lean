import NativeBindings.Proofs.WrittenLines

/-!
# Sessions on a page

Lines, blocks, parts of documents and whole declarations may be written to a page in any order,
and a document may be completed at any time. Some of these steps fail: a declaration that cannot
be written leaves what was written of it, maybe with an open block, and a document is not
completed while a block is open.

Whatever the order, no line gets lost. What an operation writes does not depend on the page, so
all marks of a session are known from its operations, and the invariant places every line: those
of the completed documents come first, in the order of their completion, and the others are on
the page. A document is only completed at level zero, so the next one begins at the level at
which the marks go on, and the lines are those of all marks together.
-/

namespace NativeBindings.Render

open CSharp

/-! ## Lines of marks -/

/-- How many blocks the marks open and leave open. It is negative if they close more than they
open. -/
def depth (marks : List Mark) : Int := marks.count .openBlock - marks.count .closeBlock

/-- The lines of marks, each under the blocks that those before it leave open. -/
def linesOf (marks : List Mark) : List String :=
  marks.mapIdx fun i m => m.written (depth (marks.take i))

theorem depth_append (xs ys : List Mark) : depth (xs ++ ys) = depth xs + depth ys := by
  rw [depth, depth, depth, List.count_append, List.count_append]
  omega

theorem depth_singleton (level : Int) (m : Mark) : m.levelAfter level = level + depth [m] := by
  cases m with
  | line _ => exact (Int.add_zero level).symm
  | openBlock => rfl
  | closeBlock => rfl

theorem levelAfterAll_eq (level : Int) (marks : List Mark) :
    Mark.levelAfterAll level marks = level + depth marks := by
  induction marks generalizing level with
  | nil => exact (Int.add_zero level).symm
  | cons m rest ih =>
      have hcons : depth (m :: rest) = depth [m] + depth rest := depth_append [m] rest
      have hstep : Mark.levelAfterAll level (m :: rest) =
          Mark.levelAfterAll (m.levelAfter level) rest := rfl
      rw [hstep, ih, depth_singleton, hcons, Int.add_assoc]

theorem writtenAll_eq (level : Int) (marks : List Mark) : Mark.writtenAll level marks =
    marks.mapIdx fun i m => m.written (level + depth (marks.take i)) := by
  induction marks generalizing level with
  | nil => rfl
  | cons m rest ih =>
      have htake : ∀ i, level + depth ((m :: rest).take (i + 1)) =
          m.levelAfter level + depth (rest.take i) := by
        intro i
        have hcons : depth (m :: rest.take i) = depth [m] + depth (rest.take i) :=
          depth_append [m] (rest.take i)
        rw [List.take_succ_cons, hcons, depth_singleton, Int.add_assoc]
      rw [Mark.writtenAll, ih, List.mapIdx_cons]
      simp only [htake]
      rw [show level + depth ((m :: rest).take 0) = level from Int.add_zero level]

/-- At level zero the marks write their lines. -/
theorem linesOf_eq (marks : List Mark) : linesOf marks = Mark.writtenAll 0 marks := by
  rw [writtenAll_eq, linesOf]
  simp only [Int.zero_add]

/-! ## Sessions -/

/-- Something that is written to a page. -/
inductive Part where
  | line (text : String)
  | openBlock
  | closeBlock
  /-- The head of a document. -/
  | header (usings : List String)
  | summary (a : Annotations)
  | attributes (a : Annotations)
  | constant (c : Constant)
  | enumValue (v : EnumValue)
  | enum (e : Enum)
  | field (f : Field)
  | struct (s : Struct)
  | delegate (d : Delegate)
  | function (f : Function)
  /-- Anything that may stand in a struct, also if it cannot be written. -/
  | declaration (d : Declaration)
  /-- All declarations of a document. -/
  | body (d : DeclarationSet) (which : Document)

/-- The marks that the part is written with. -/
def Part.rendered (o : Options) : Part → Rendered
  | line text => Traced.report (.line text)
  | openBlock => Traced.report .openBlock
  | closeBlock => Traced.report .closeBlock
  | header usings => Traced.reportAll (Render.header o usings)
  | summary a => Traced.reportAll (Render.summary a)
  | attributes a => Traced.reportAll (Render.attributes a)
  | constant c => Render.constant c
  | enumValue v => Render.enumValue v
  | enum e => Render.enum e
  | field f => Render.field f
  | struct s => Render.struct s
  | delegate d => Render.delegate d
  | function f => Render.function f
  | declaration d => Render.declaration d
  | body d which => Render.body o d which

/-- A step of a session: something is written, or the document gets its name. -/
inductive Operation where
  | write (part : Part)
  | complete (name : String)

/-- The marks that an operation makes, up to the fault that ends it if there is one. -/
def Operation.marks (o : Options) : Operation → List Mark
  | write part => (part.rendered o).trace
  | complete _ => []

/-- The marks that several operations make. -/
def marksOf (o : Options) (ops : List Operation) : List Mark := ops.flatMap (·.marks o)

/-- A page, with the lines of each document that was completed, the first one first. -/
structure Session where
  page : Page := {}
  completed : List (String × List String) := []

namespace Session

/-- One operation. After a fault the session goes on from what was reached. -/
def perform (o : Options) (s : Session) : Operation → Session × Except RenderFault Unit
  | .write part =>
    ({ s with page := s.page.apply (part.rendered o).trace },
      (part.rendered o).result.mapError .unwritable)
  | .complete name =>
    match s.page.complete name with
    | .ok page => ({ page, completed := s.completed ++ [(name, s.page.lines)] }, .ok ())
    | .error u => (s, .error (.unbalanced u))

/-- Operations one after the other, whether they fail or not. -/
def performAll (o : Options) (s : Session) (ops : List Operation) : Session :=
  ops.foldl (fun s op => (s.perform o op).1) s

end Session

/-- What a session came to from an empty page. -/
def sessionOf (o : Options) (ops : List Operation) : Session := Session.performAll o {} ops

/-- The documents of their lines, which are joined by line feeds, with one at the end; under a
name that comes twice the later one is kept. -/
def documentsOf (completed : List (String × List String)) : OrderedMap String String :=
  completed.foldl (fun documents e =>
    documents.insert e.1 ("\n".intercalate e.2 ++ "\n")) ∅

/-- The session accounts for the marks that were made. -/
structure Accounts (s : Session) (marks : List Mark) : Prop where
  /-- The lines of the completed documents, and then those on the page, are all lines that were
  written. -/
  lines : s.completed.flatMap (·.2) ++ s.page.lines = linesOf marks
  /-- The level is the number of blocks that were opened less those that were closed. -/
  level : s.page.level = depth marks
  documents : s.page.documents = documentsOf s.completed

/-- What comes of completing a document. -/
structure Completing (o : Options) (s : Session) (level : Int) (name : String) : Prop where
  succeeds : (s.perform o (.complete name)).2 = .ok () ↔ level = 0
  /-- The page is empty again, and the document has its lines, joined by line feeds and with one
  at the end. -/
  stores : level = 0 → (s.perform o (.complete name)).1 =
    { page := { documents := s.page.documents.insert name ("\n".intercalate s.page.lines ++ "\n") }
      completed := s.completed ++ [(name, s.page.lines)] }
  /-- Nothing changes while blocks are open, or closed that were not opened. -/
  fails : level ≠ 0 → s.perform o (.complete name) = (s, .error (.unbalanced ⟨name, level⟩))

theorem completing {o : Options} {s : Session} {level : Int} (h : s.page.level = level)
    (name : String) : Completing o s level name := by
  subst h
  by_cases hlevel : s.page.level = 0
  · have hcomplete : s.page.complete name =
        .ok { s.page with lines := [], documents := s.page.documents.insert name s.page.text } :=
      if_pos hlevel
    refine ⟨⟨fun _ => hlevel, fun _ => ?_⟩, fun _ => ?_, fun hne => absurd hlevel hne⟩
    · rw [Session.perform, hcomplete]
    · rw [Session.perform, hcomplete]
      dsimp only
      rw [hlevel, Page.text]
  · have hcomplete : s.page.complete name = .error ⟨name, s.page.level⟩ := if_neg hlevel
    have hperform : s.perform o (.complete name) =
        (s, .error (.unbalanced ⟨name, s.page.level⟩)) := by
      rw [Session.perform, hcomplete]
    refine ⟨⟨fun hok => ?_, fun hzero => absurd hzero hlevel⟩, fun hzero => absurd hzero hlevel,
      fun _ => hperform⟩
    rw [hperform] at hok
    exact absurd hok (by simp)

/-- Every operation keeps the account, also one that fails. -/
theorem Accounts.perform {s : Session} {marks : List Mark} (h : Accounts s marks) (o : Options)
    (op : Operation) : Accounts (s.perform o op).1 (marks ++ op.marks o) := by
  cases op with
  | write part =>
      refine ⟨?_, ?_, h.documents⟩
      · show s.completed.flatMap (·.2) ++ (s.page.lines ++
          Mark.writtenAll s.page.level (part.rendered o).trace) = _
        rw [← List.append_assoc, h.lines, h.level, linesOf_eq, linesOf_eq, writtenAll_append,
          levelAfterAll_eq, Int.zero_add]
        rfl
      · show Mark.levelAfterAll s.page.level (part.rendered o).trace = _
        rw [levelAfterAll_eq, h.level, depth_append]
        rfl
  | complete name =>
      rw [Operation.marks, List.append_nil]
      have hcompleting := completing (o := o) h.level name
      by_cases hlevel : depth marks = 0
      · rw [hcompleting.stores hlevel]
        refine ⟨?_, hlevel.symm, ?_⟩
        · rw [List.flatMap_append, List.append_nil, ← h.lines]
          exact congrArg (s.completed.flatMap (·.2) ++ ·) (List.append_nil s.page.lines)
        · rw [documentsOf, List.foldl_append, ← documentsOf, ← h.documents]
          rfl
      · rw [hcompleting.fails hlevel]
        exact h

theorem Accounts.performAll {s : Session} {marks : List Mark} (h : Accounts s marks) (o : Options)
    (ops : List Operation) : Accounts (s.performAll o ops) (marks ++ marksOf o ops) := by
  induction ops generalizing s marks with
  | nil =>
      rw [marksOf, List.flatMap_nil, List.append_nil]
      exact h
  | cons op rest ih =>
      rw [marksOf, List.flatMap_cons, ← List.append_assoc]
      exact ih (h.perform o op)

/-- **Whatever is written, in whatever order, every line is kept, once and at its place.** -/
theorem sessionOf_accounts (o : Options) (ops : List Operation) :
    Accounts (sessionOf o ops) (marksOf o ops) ∧
      ∀ name, Completing o (sessionOf o ops) (depth (marksOf o ops)) name := by
  have hempty : Accounts {} [] := ⟨rfl, rfl, rfl⟩
  have haccounts := hempty.performAll o ops
  exact ⟨haccounts, completing haccounts.level⟩

/-- A struct that cannot be written leaves its block open, and the lines that come next stand in
this block. -/
example : (sessionOf {} [.write (.struct { name := "S", inner := [.enumValue
      { name := "A", value := "1" }] }), .complete "a.cs", .write (.line "x"), .write .closeBlock,
      .complete "b.cs", .write .openBlock]).completed =
    [("b.cs", ["struct S", "\x7b", "\tx", "\x7d"])] := by decide +kernel

/-! ## Documents -/

theorem Page.apply_append (p : Page) (xs ys : List Mark) :
    p.apply (xs ++ ys) = (p.apply xs).apply ys := by
  rw [Page.apply, Page.apply, Page.apply, levelAfterAll_append, writtenAll_append,
    List.append_assoc]

/-- Writing documents is a session too, which ends with the first fault. -/
theorem exists_operations_writeDocuments (o : Options) (d : DeclarationSet)
    (whichs : List Document) (s : Session) :
    ∃ ops, (s.performAll o ops).page = (s.page.writeDocuments o d whichs).1 := by
  induction whichs generalizing s with
  | nil => exact ⟨[], rfl⟩
  | cons which rest ih =>
      let parts : List Operation :=
        [.write (.header (usings o d which)), .write (.body d which)]
      have hdocument : document o d which =
          ⟨header o (usings o d which) ++ (body o d which).trace, (body o d which).result⟩ := rfl
      have hwritten : (s.performAll o parts).page = s.page.apply (document o d which).trace := by
        rw [hdocument, Page.apply_append]
        rfl
      rw [Page.writeDocuments]
      rw [← hwritten]
      cases (document o d which).result with
      | error u => exact ⟨parts, rfl⟩
      | ok _ =>
          cases hcomplete : (s.performAll o parts).page.complete (o.documentName which.word) with
          | error u => exact ⟨parts, rfl⟩
          | ok page =>
              -- the page is the one after the document, and the others follow
              let next := (s.performAll o parts).perform o (.complete (o.documentName which.word))
              have hpage : next.1.page = page := by
                dsimp only [next]
                rw [Session.perform, hcomplete]
              obtain ⟨ops, hops⟩ := ih next.1
              rw [hpage] at hops
              refine ⟨parts ++ .complete (o.documentName which.word) :: ops, ?_⟩
              rw [Session.performAll, List.foldl_append]
              exact hops

end NativeBindings.Render
