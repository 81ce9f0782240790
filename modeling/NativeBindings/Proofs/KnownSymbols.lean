import NativeBindings.Proofs.AcceptedPart

/-!
# Which symbols are known

Guards ask whether a symbol is known, and a define looks whether its content is the name
of one. Neither looks at the replacement text. So a table of symbols is read only as the
set of its keys: under two tables with the same keys every item of a header is judged the
same way, and what is learned from it keeps the keys the same.
-/

namespace NativeBindings

open CSharp

/-- Both tables know the same symbols, whatever texts they have for them. -/
def SameSymbols (known known' : Symbols) : Prop := ∀ k, known.contains k = known'.contains k

/-- The same settings, with other symbols known from the start. -/
def Options.knowing (o : Options) (seeds : Symbols) : Options := { o with knownDefines := seeds }

variable {known known' : Symbols}

namespace SameSymbols

theorem refl (known : Symbols) : SameSymbols known known := fun _ => rfl

/-- A symbol that becomes known in both tables may have different texts in them. -/
theorem insert (h : SameSymbols known known') (k : Key) (v v' : String) :
    SameSymbols (known.insert k v) (known'.insert k v') := by
  intro k'
  rw [OrderedMap.contains_insert, OrderedMap.contains_insert, h k']

end SameSymbols

/-! ## Guards -/

theorem Header.Guard.holds_congr (h : SameSymbols known known') (g : Header.Guard) (lone : Bool) :
    g.holds known lone = g.holds known' lone := by
  have hcontains : known.contains = known'.contains := funext h
  unfold Header.Guard.holds
  rw [hcontains]

/-- The same items are included. -/
theorem Header.included_congr (h : SameSymbols known known') :
    Header.included known = Header.included known' := by
  funext guards
  match guards with
  | [] => rfl
  | [g] => exact g.holds_congr h true
  | _ :: g :: _ => exact g.holds_congr h false

namespace Build

theorem isIncluded_congr (h : SameSymbols known known') : isIncluded known = isIncluded known' := by
  funext guards
  rw [isIncluded, Header.included_congr h, isIncluded]

theorem judgeGuarded_congr {α : Type} (h : SameSymbols known known') :
    judgeGuarded (α := α) known = judgeGuarded known' := by
  unfold judgeGuarded
  rw [Header.included_congr h]

/-! ## Items -/

/-- Under two tables, and under settings that may differ in the symbols known from the start, all
items that depend on the final table are judged the same way: with the same verdicts and the same
reports. -/
structure JudgedAlike (o o' : Options) (known known' : Symbols) : Prop where
  enums : ∀ e, judgeEnum known o e = judgeEnum known' o' e
  typedefs : ∀ t, judgeTypedef known nativeTypes o t = judgeTypedef known' nativeTypes o' t
  structs : ∀ s, judgeStruct known nativeTypes o s = judgeStruct known' nativeTypes o' s
  functions : ∀ f, judgeFunction known nativeTypes o f = judgeFunction known' nativeTypes o' f

section Judgements

variable (h : SameSymbols known known') (o : Options) (seeds : Symbols) (native : NativeTypes)

include h

theorem constantOf_congr : constantOf known = constantOf known' := by
  have hcontains : known.contains = known'.contains := funext h
  unfold constantOf
  rw [hcontains]

theorem judgeDefine_congr : judgeDefine known = judgeDefine known' := by
  unfold judgeDefine
  rw [judgeGuarded_congr h, constantOf_congr h]

theorem enumValues_congr (enum : Leaf) (es : List Header.EnumElement) :
    enumValues known (o.knowing seeds) enum es = enumValues known' o enum es := by
  induction es with
  | nil => rfl
  | cons e rest ih =>
      rw [enumValues, enumValues, Header.included_congr h, ih]
      rfl

theorem judgeEnum_congr (e : Header.Enum) :
    judgeEnum known (o.knowing seeds) e = judgeEnum known' o e := by
  unfold judgeEnum
  rw [judgeGuarded_congr h, enumValues_congr h]

theorem judgeTypedef_congr (t : Header.Typedef) :
    judgeTypedef known native (o.knowing seeds) t = judgeTypedef known' native o t := by
  unfold judgeTypedef
  rw [judgeGuarded_congr h]
  rfl

theorem fieldsOf_congr (struct : Leaf) (fs : List Header.Field) :
    fieldsOf known native (o.knowing seeds) struct fs = fieldsOf known' native o struct fs := by
  induction fs with
  | nil => rfl
  | cons f rest ih =>
      rw [fieldsOf, fieldsOf, Header.included_congr h, ih]
      rfl

theorem judgeStruct_congr (s : Header.Struct) :
    judgeStruct known native (o.knowing seeds) s = judgeStruct known' native o s := by
  unfold judgeStruct
  rw [judgeGuarded_congr h, fieldsOf_congr h]

omit h in
theorem argumentsOf_knowing (function : Leaf) (as : List Header.Argument) :
    argumentsOf native (o.knowing seeds) function as = argumentsOf native o function as := by
  induction as with
  | nil => rfl
  | cons a rest ih =>
      rw [argumentsOf, argumentsOf, ih]
      rfl

theorem judgeFunction_congr (f : Header.Function) :
    judgeFunction known native (o.knowing seeds) f = judgeFunction known' native o f := by
  unfold judgeFunction functionOf
  rw [judgeGuarded_congr h, argumentsOf_knowing]
  rfl

/-- **Of the symbols only matters which of them are known.** -/
theorem judgedAlike : JudgedAlike (o.knowing seeds) o known known' where
  enums := judgeEnum_congr h o seeds
  typedefs := judgeTypedef_congr h o seeds nativeTypes
  structs := judgeStruct_congr h o seeds nativeTypes
  functions := judgeFunction_congr h o seeds nativeTypes

end Judgements

/-! ## Passes over the defines -/

/-- What is learned from the same defines leaves the same symbols known. -/
theorem foldl_learn_congr (h : SameSymbols known known') (as : List AcceptedDefine) :
    SameSymbols (as.foldl learn known) (as.foldl learn known') := by
  induction as generalizing known known' with
  | nil => exact h
  | cons a rest ih => exact ih (h.insert a.symbol a.replacement a.replacement)

theorem takenInTurn_congr (h : SameSymbols known known') (items : List Placed) :
    takenInTurn known items = takenInTurn known' items := by
  induction items generalizing known known' with
  | nil => rfl
  | cons p rest ih =>
      rw [takenInTurn, takenInTurn, judgeDefine_congr h]
      cases accepted? (judgeDefine known' p) with
      | none => exact ih h
      | some a => exact congrArg (a :: ·) (ih (h.insert a.symbol a.replacement a.replacement))

theorem takenWithGuards_congr (h : SameSymbols known known') (guards : Nat) (items : List Placed) :
    takenWithGuards known guards items = takenWithGuards known' guards items := by
  rw [takenWithGuards, takenWithGuards, takenInTurn_congr h, judgeDefine_congr h]

/-- Under the same symbols the same defines are taken, and they become the same constants. -/
theorem taken_congr (h : SameSymbols known known') (items : List Placed) (gs : List Nat) :
    taken known items gs = taken known' items gs := by
  induction gs generalizing known known' with
  | nil => rfl
  | cons guards more ih =>
      rw [taken, taken, takenWithGuards_congr h]
      exact congrArg _ (ih (foldl_learn_congr h _))

theorem takenOf_congr (h : SameSymbols known known') (ds : List Header.Define) :
    takenOf known ds = takenOf known' ds := taken_congr h _ _

/-! ## What becomes of each define -/

/-- The constant of the define at a place, if it is accepted. -/
def constantAt (known : Symbols) (ds : List Header.Define) (i : Nat) : Option Constant :=
  ((passDefines known ds).pass.built.find? (·.index = i)).map (·.constant)

theorem constantAt_eq {ds : List Header.Define} (h : ∀ d ∈ ds, d.WellTyped) (known : Symbols)
    (i : Nat) :
    constantAt known ds i = ((takenOf known ds).find? (·.index = i)).map (·.constant) := by
  rw [constantAt, built_passDefines h]

/-- The constants of a header are those of the known symbols and then those of its defines, place
by place. -/
theorem result_constants {ds : List Header.Define} (h : ∀ d ∈ ds, d.WellTyped) (b : Builder) :
    (constants ds b).result =
      .ok (seededConstants b.known ++
        (List.range ds.length).filterMap (constantAt b.known ds)) := by
  obtain ⟨stats, hruns⟩ := constants_runs h b
  rw [hruns.result, inHeaderOrder]
  simp only [← constantAt_eq h]

end Build

end NativeBindings
