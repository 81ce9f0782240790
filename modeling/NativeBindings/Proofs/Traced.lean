import NativeBindings.Build.Builder

/-!
# Steps that end well

What a traced step reports never decides how it ends. So a chain of steps can be
read as a chain of results, and the lemmas here push `result` through every way
in which steps are put together. Above them stand passes: a pass without a fault
is nothing but its judgements, one by one.
-/

namespace NativeBindings

/-! ## Results and faults -/

section Except

variable {ε α β : Type}

@[simp] theorem ok_bind (a : α) (f : α → Except ε β) : (Except.ok a >>= f) = f a := rfl

/-- Two steps end well exactly if both do. -/
theorem bind_eq_ok {x : Except ε α} {f : α → Except ε β} {b : β} :
    (x >>= f) = .ok b ↔ ∃ a, x = .ok a ∧ f a = .ok b := by
  cases x with
  | error e =>
      constructor
      · intro h
        exact absurd (show Except.error e = Except.ok b from h) (by simp)
      · intro h
        obtain ⟨a, ha, _⟩ := h
        exact absurd ha (by simp)
  | ok a =>
      constructor
      · intro h
        exact ⟨a, rfl, h⟩
      · intro h
        obtain ⟨a', ha, hf⟩ := h
        injection ha with ha
        subst ha
        exact hf

theorem mapM_eq_map {f : α → Except ε β} {g : α → β} :
    ∀ {l : List α}, (∀ x ∈ l, f x = .ok (g x)) → l.mapM f = .ok (l.map g)
  | [], _ => rfl
  | x :: rest, h => by
      have hx := h x List.mem_cons_self
      have hrest := mapM_eq_map fun y hy => h y (List.mem_cons_of_mem x hy)
      rw [List.mapM_cons, hx, ok_bind, hrest]
      rfl

/-- A list that is mapped without a fault becomes what its elements become. -/
theorem eq_map_of_mapM {f : α → Except ε β} {g : α → β} (hg : ∀ x y, f x = .ok y → y = g x) :
    ∀ {l : List α} {ys : List β}, l.mapM f = .ok ys → ys = l.map g
  | [], _, h => (Except.ok.inj h).symm
  | x :: rest, ys, h => by
      rw [List.mapM_cons] at h
      obtain ⟨y, hy, h⟩ := bind_eq_ok.mp h
      obtain ⟨more, hmore, h⟩ := bind_eq_ok.mp h
      rw [← Except.ok.inj h, List.map_cons, hg x y hy, eq_map_of_mapM hg hmore]

theorem filterAuxM_eq_filter {f : α → Except ε Bool} {p : α → Bool} :
    ∀ {l : List α} (acc : List α), (∀ x ∈ l, f x = .ok (p x)) →
      l.filterAuxM f acc = .ok ((l.filter p).reverse ++ acc)
  | [], _, _ => rfl
  | x :: rest, acc, h => by
      have hx := h x List.mem_cons_self
      -- what is kept is put in front of the accumulator, which the whole list reverses in the end
      have hrest := fun acc => filterAuxM_eq_filter acc fun y hy => h y (List.mem_cons_of_mem x hy)
      rw [List.filterAuxM, hx, ok_bind, hrest]
      cases hp : p x with
      | true => simp [hp]
      | false => simp [hp]

theorem filterM_eq_filter {f : α → Except ε Bool} {p : α → Bool} {l : List α}
    (h : ∀ x ∈ l, f x = .ok (p x)) : l.filterM f = .ok (l.filter p) := by
  rw [List.filterM, filterAuxM_eq_filter [] h, ok_bind]
  simp [pure, Except.pure]

/-- What is decided in a list that is filtered without a fault. -/
theorem ok_of_filterAuxM {f : α → Except ε Bool} :
    ∀ {l acc r : List α}, l.filterAuxM f acc = .ok r → ∀ x ∈ l, ∃ b, f x = .ok b
  | [], _, _, _, _, hx => absurd hx (by simp)
  | y :: rest, acc, r, h, x, hx => by
      rw [List.filterAuxM] at h
      obtain ⟨b, hb, h⟩ := bind_eq_ok.mp h
      rcases List.mem_cons.mp hx with rfl | hx
      · exact ⟨b, hb⟩
      · exact ok_of_filterAuxM h x hx

/-- A list that is filtered without a fault keeps what passes the test. -/
theorem eq_filter_of_filterM {f : α → Except ε Bool} {p : α → Bool}
    (hp : ∀ x b, f x = .ok b → b = p x) {l r : List α} (h : l.filterM f = .ok r) :
    r = l.filter p := by
  have hdecided : ∀ x ∈ l, f x = .ok (p x) := by
    intro x hx
    obtain ⟨kept, hkept, _⟩ := bind_eq_ok.mp h
    obtain ⟨b, hb⟩ := ok_of_filterAuxM hkept x hx
    rw [hb, hp x b hb]
  rw [filterM_eq_filter hdecided] at h
  exact (Except.ok.inj h).symm

theorem forM_eq_ok {f : α → Except ε PUnit} :
    ∀ {l : List α}, (∀ x ∈ l, f x = .ok ⟨⟩) → l.forM f = .ok ⟨⟩
  | [], _ => rfl
  | x :: rest, h => by
      have hx := h x List.mem_cons_self
      have hrest := forM_eq_ok fun y hy => h y (List.mem_cons_of_mem x hy)
      show (f x >>= fun _ => rest.forM f) = _
      rw [hx]
      exact hrest

end Except

namespace Traced

variable {ω ε ε' α β : Type}

@[simp] theorem result_pure (a : α) : (pure a : Traced ω ε α).result = .ok a := rfl

@[simp] theorem result_bind (x : Traced ω ε α) (f : α → Traced ω ε β) :
    (x >>= f).result = x.result >>= fun a => (f a).result := by
  show (bind x f).result = _
  unfold bind
  cases h : x.result with
  | error e => rfl
  | ok a => rfl

@[simp] theorem result_report (w : ω) : (report w : Traced ω ε PUnit).result = .ok ⟨⟩ := rfl

@[simp] theorem result_ofExcept (r : Except ε α) :
    (ofExcept r : Traced ω ε α).result = r := rfl

theorem ofExcept_ok_bind (a : α) (f : α → Traced ω ε β) : (ofExcept (.ok a) >>= f) = f a := rfl

@[simp] theorem result_mapError (f : ε → ε') (x : Traced ω ε α) :
    (x.mapError f).result = x.result.mapError f := rfl

theorem result_forM {f : α → Traced ω ε PUnit} :
    ∀ {l : List α}, (∀ x ∈ l, (f x).result = .ok ⟨⟩) → (l.forM f).result = .ok ⟨⟩
  | [], _ => rfl
  | x :: rest, h => by
      have hx := h x List.mem_cons_self
      have hrest := result_forM fun y hy => h y (List.mem_cons_of_mem x hy)
      show (f x >>= fun _ => rest.forM f).result = _
      rw [result_bind, hx]
      exact hrest

/-- The step ends with a result, and the result has a property. -/
def Ends (x : Traced ω ε α) (P : α → Prop) : Prop := ∃ a, x.result = .ok a ∧ P a

theorem Ends.pure {P : α → Prop} {a : α} (h : P a) : (Pure.pure a : Traced ω ε α).Ends P :=
  ⟨a, rfl, h⟩

theorem Ends.bind {x : Traced ω ε α} {f : α → Traced ω ε β} {P : α → Prop} {Q : β → Prop}
    (hx : x.Ends P) (hf : ∀ a, P a → (f a).Ends Q) : (x >>= f).Ends Q := by
  obtain ⟨a, ha, hP⟩ := hx
  obtain ⟨b, hb, hQ⟩ := hf a hP
  refine ⟨b, ?_, hQ⟩
  rw [result_bind, ha, ok_bind, hb]

/-- A step whose result is known only hands it on. -/
theorem Ends.bind_of_result {x : Traced ω ε α} {f : α → Traced ω ε β} {Q : β → Prop} {a : α}
    (hx : x.result = .ok a) (hf : (f a).Ends Q) : (x >>= f).Ends Q :=
  Ends.bind (P := fun a' => a' = a) ⟨a, hx, rfl⟩ fun _ h => h ▸ hf

/-- A report comes before anything without changing how it ends. -/
theorem Ends.afterReport {w : ω} {f : PUnit → Traced ω ε β} {Q : β → Prop}
    (hf : (f ⟨⟩).Ends Q) : (Traced.report w >>= f).Ends Q := Ends.bind_of_result rfl hf

section Partial

variable {P : α → Prop} {a : α}

theorem Ends.some (h : P a) :
    (Pure.pure (Option.some a) : Traced ω ε (Option α)).Ends fun r => ∀ b, r = .some b → P b :=
  .pure fun _ hb => Option.some.inj hb ▸ h

theorem Ends.none :
    (Pure.pure Option.none : Traced ω ε (Option α)).Ends fun r => ∀ b, r = .some b → P b :=
  .pure fun _ hb => absurd hb (by simp)

theorem Ends.ok (h : P a) :
    (Pure.pure (.ok a) : Traced ω ε (Except ε' α)).Ends fun r => ∀ b, r = .ok b → P b :=
  .pure fun _ hb => Except.ok.inj hb ▸ h

theorem Ends.error (e : ε') :
    (Pure.pure (.error e) : Traced ω ε (Except ε' α)).Ends fun r => ∀ b, r = .ok b → P b :=
  .pure fun _ hb => absurd hb (by simp)

end Partial

/-- What a step results in, if it ends well. -/
def value? (x : Traced ω ε α) : Option α := x.result.toOption

theorem value?_eq_some {x : Traced ω ε α} {a : α} : x.value? = some a ↔ x.result = .ok a := by
  unfold value?
  cases x.result with
  | error e => simp [Except.toOption]
  | ok b => simp [Except.toOption]

end Traced

/-! ## Passes without a fault -/

namespace Build

variable {ι α : Type}

theorem Verdict.built?_eq_some {v : Verdict α} {a : α} : v.built? = some a ↔ v = .accepted a := by
  cases v with
  | accepted b => simp [built?]
  | excluded => simp [built?]
  | dropped => simp [built?]

/-- What a judgement accepts, if it ends well and accepts anything. -/
def accepted? (judged : Traced Notice Misfit (Verdict α)) : Option α :=
  judged.value?.bind Verdict.built?

theorem accepted?_of_result {judged : Traced Notice Misfit (Verdict α)} {v : Verdict α}
    (h : judged.result = .ok v) : accepted? judged = v.built? := by
  rw [accepted?, Traced.value?_eq_some.mpr h]
  rfl

theorem accepted?_eq_some {judged : Traced Notice Misfit (Verdict α)} {a : α} :
    accepted? judged = some a ↔ judged.result = .ok (.accepted a) := by
  rw [accepted?, Option.bind_eq_some_iff]
  constructor
  · intro h
    obtain ⟨v, hv, ha⟩ := h
    rw [← Verdict.built?_eq_some.mp ha]
    exact Traced.value?_eq_some.mp hv
  · intro h
    exact ⟨_, Traced.value?_eq_some.mpr h, rfl⟩

namespace Pass

theorem fault_judgeAll {judge : ι → Traced Notice Misfit (Verdict α)} :
    ∀ {items : List ι}, (∀ i ∈ items, ∃ v, (judge i).result = .ok v) →
      (judgeAll judge items).fault = none
  | [], _ => rfl
  | i :: rest, h => by
      obtain ⟨v, hv⟩ := h i List.mem_cons_self
      rw [judgeAll, hv]
      exact fault_judgeAll fun j hj => h j (List.mem_cons_of_mem i hj)

/-- In a pass without a fault every judgement ended well. -/
theorem ok_of_fault {judge : ι → Traced Notice Misfit (Verdict α)} :
    ∀ {items : List ι}, (judgeAll judge items).fault = none →
      ∀ i ∈ items, ∃ v, (judge i).result = .ok v
  | [], _, i, hi => absurd hi (by simp)
  | j :: rest, h, i, hi => by
      rw [judgeAll] at h
      cases hj : (judge j).result with
      | error e =>
          rw [hj] at h
          exact absurd h (by simp)
      | ok v =>
          rw [hj] at h
          rcases List.mem_cons.mp hi with rfl | hi
          · exact ⟨v, hj⟩
          · exact ok_of_fault h i hi

/-- A pass without a fault builds what its judgements accept. -/
theorem built_judgeAll {judge : ι → Traced Notice Misfit (Verdict α)} :
    ∀ {items : List ι}, (∀ i ∈ items, ∃ v, (judge i).result = .ok v) →
      (judgeAll judge items).built = items.filterMap fun i => accepted? (judge i)
  | [], _ => rfl
  | i :: rest, h => by
      obtain ⟨v, hv⟩ := h i List.mem_cons_self
      have hrest := built_judgeAll fun j hj => h j (List.mem_cons_of_mem i hj)
      rw [built] at hrest ⊢
      rw [judgeAll, hv]
      show (v :: (judgeAll judge rest).verdicts).filterMap Verdict.built? = _
      rw [List.filterMap_cons, List.filterMap_cons, accepted?_of_result hv, hrest]

theorem fault_append {p q : Pass α} (h : p.fault = none) : (p.append q).fault = q.fault := by
  unfold append
  rw [h]

theorem built_append {p q : Pass α} (h : p.fault = none) :
    (p.append q).built = p.built ++ q.built := by
  unfold append
  rw [h]
  exact List.filterMap_append

theorem result_of_fault {p : Pass α} (h : p.fault = none) : p.result = .ok p.built := by
  rw [result, h]

end Pass

theorem result_judgeGuarded {known : Symbols} {guards : List Header.Guard} {exclusion : Notice}
    {judge : Traced Notice Misfit (Verdict α)} :
    (judgeGuarded known guards exclusion judge).result =
      Header.included known guards >>= fun b => if b then judge.result else .ok .excluded := by
  rw [judgeGuarded, Traced.result_bind, Traced.result_ofExcept]
  -- the notice of an exclusion does not show in the result
  refine congrArg (Header.included known guards >>= ·) (funext fun b => ?_)
  cases b with
  | true => rfl
  | false => rfl

/-! ## Steps of building -/

namespace Building

variable {β : Type} {b b' b'' : Builder}

/-- The step, taken in the first state, ends well in the second one. -/
structure Runs (x : Building α) (b : Builder) (a : α) (b' : Builder) : Prop where
  result : (x b).result = .ok a
  builder : (x b).builder = b'

theorem Runs.pure (a : α) (b : Builder) : Runs (Pure.pure a : Building α) b a b := ⟨rfl, rfl⟩

theorem Runs.bind {x : Building α} {f : α → Building β} {a : α} {c : β} (hx : Runs x b a b')
    (hf : Runs (f a) b' c b'') : Runs (x >>= f) b c b'' := by
  have hstep : (x >>= f) b =
      ⟨(f a b').builder, (x b).notices ++ (f a b').notices, (f a b').result⟩ := by
    show Building.bind x f b = _
    unfold Building.bind
    dsimp only
    rw [hx.result, hx.builder]
  exact ⟨by rw [hstep]; exact hf.result, by rw [hstep]; exact hf.builder⟩

/-- A run of two steps is a run of the first and then one of the second. -/
theorem Runs.of_bind {x : Building α} {f : α → Building β} {c : β}
    (h : Runs (x >>= f) b c b'') : ∃ a b', Runs x b a b' ∧ Runs (f a) b' c b'' := by
  obtain ⟨hresult, hbuilder⟩ := h
  have hresult : (Building.bind x f b).result = .ok c := hresult
  have hbuilder : (Building.bind x f b).builder = b'' := hbuilder
  unfold Building.bind at hresult hbuilder
  dsimp only at hresult hbuilder
  cases hx : (x b).result with
  | error e =>
      rw [hx] at hresult
      exact absurd hresult (by simp)
  | ok a =>
      rw [hx] at hresult hbuilder
      exact ⟨a, (x b).builder, ⟨hx, rfl⟩, hresult, hbuilder⟩

theorem Runs.state (b : Builder) : Runs Building.state b b b := ⟨rfl, rfl⟩

theorem Runs.change (f : Builder → Builder) (b : Builder) : Runs (Building.change f) b () (f b) :=
  ⟨rfl, rfl⟩

theorem Runs.report (n : Notice) (b : Builder) : Runs (Building.report n) b () b := ⟨rfl, rfl⟩

theorem Runs.of_report {n : Notice} {x : Building α} {a : α}
    (h : Runs (Building.report n >>= fun _ => x) b a b') : Runs x b a b' := by
  obtain ⟨_, _, hreport, h⟩ := h.of_bind
  have hsame : b = _ := hreport.builder
  rw [hsame]
  exact h

theorem Runs.ofExcept {r : Except Misfit α} {a : α} (h : r = .ok a) (b : Builder) :
    Runs (Building.ofExcept r) b a b := ⟨h, rfl⟩

/-- Taking over a pass without a fault changes nothing but the counts. -/
theorem Runs.ofPass {p : Pass α} (h : p.fault = none) (category : Category) (total : Nat)
    (b : Builder) : Runs (Building.ofPass category total p) b p.built
      { b with stats := b.stats.add category total p.verdicts } :=
  ⟨Pass.result_of_fault h, rfl⟩

/-- Only a pass without a fault can be taken over. -/
theorem Runs.of_ofPass {p : Pass α} {category : Category} {total : Nat} {as : List α}
    (h : Runs (Building.ofPass category total p) b as b') : p.fault = none ∧ as = p.built := by
  have hresult : p.result = .ok as := h.result
  cases hfault : p.fault with
  | some e =>
      rw [Pass.result, hfault] at hresult
      exact absurd hresult (by simp)
  | none =>
      rw [Pass.result_of_fault hfault] at hresult
      injection hresult with hresult
      exact ⟨rfl, hresult.symm⟩

/-! ## What a step leaves as it is -/

variable {γ : Type} {view : Builder → γ}

/-- The step leaves as it is what a view shows of the state, however it ends. -/
def Leaves (view : Builder → γ) (x : Building α) : Prop := ∀ b, view (x b).builder = view b

theorem Leaves.bind {x : Building α} {f : α → Building β} (hx : Leaves view x)
    (hf : ∀ a, Leaves view (f a)) : Leaves view (x >>= f) := by
  intro b
  show view (Building.bind x f b).builder = view b
  unfold Building.bind
  dsimp only
  cases (x b).result with
  | error e => exact hx b
  | ok a => exact (hf a (x b).builder).trans (hx b)

theorem Leaves.pure (a : α) : Leaves view (Pure.pure a : Building α) := fun _ => rfl

theorem Leaves.state : Leaves view Building.state := fun _ => rfl

theorem Leaves.ofExcept (r : Except Misfit α) : Leaves view (Building.ofExcept r) := fun _ => rfl

/-- Taking over a pass leaves everything but the counts. -/
theorem Leaves.ofPass (h : ∀ b stats, view { b with stats := stats } = view b)
    (category : Category) (total : Nat) (p : Pass α) :
    Leaves view (Building.ofPass category total p) := fun b => h b _

theorem Runs.view_eq {x : Building α} {a : α} (h : Runs x b a b') (hx : Leaves view x) :
    view b' = view b := h.builder ▸ hx b

end Building

end Build

end NativeBindings
