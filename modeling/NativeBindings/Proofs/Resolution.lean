import Mathlib.Algebra.GroupWithZero.Nat
import Mathlib.Data.List.Find
import NativeBindings.Build.Typedefs
import NativeBindings.Proofs.Aliases

/-!
# How a type is resolved

A type is resolved turn by turn: a pointer is taken off and counted, a name with an
alias gives way to its target, and at a name without one the pointers are put back. The
type shrinks in one kind of turn and may grow in the other, so nothing about the type
alone says that this ends. It does for every type exactly if there are no cycles, and
then after no more targets than the table has entries.

A turn never looks at the pointers counted so far. So resolving goes through pointers,
and the targets met on the way add theirs.
-/

namespace NativeBindings

namespace CsType

theorem under_under (t : CsType) (m n : Nat) : (t.under m).under n = t.under (m + n) := by
  rw [under, under, under, Nat.add_assoc]

end CsType

namespace Aliases

variable {aliases : Aliases}

/-! ## Turns -/

/-- The turns by which a type is resolved when a number of pointers is counted already: the targets
that they put in, and the type in which they end. -/
inductive Resolves (aliases : Aliases) : (counted : Nat) → CsType → List CsType → CsType → Prop where
  /-- A pointer is taken off and counted. -/
  | pointer {counted n : Nat} {t r : CsType} {targets : List CsType} (hp : t.pointers = n + 1)
      (h : Resolves aliases (counted + 1) { t with pointers := n } targets r) :
      Resolves aliases counted t targets r
  /-- A name with an alias gives way to its target. -/
  | target {counted : Nat} {t target r : CsType} {targets : List CsType} (hp : t.pointers = 0)
      (hget : aliases.get? t.base = some target) (h : Resolves aliases counted target targets r) :
      Resolves aliases counted t (target :: targets) r
  /-- At a name without one the pointers are put back. -/
  | final {counted : Nat} {t : CsType} (hp : t.pointers = 0) (hfinal : aliases.IsFinal t.base) :
      Resolves aliases counted t [] (t.under counted)

namespace Resolves

variable {counted : Nat} {t r : CsType} {targets : List CsType}

/-- All pointers are taken off before the name is looked at. -/
theorem of_base (h : aliases.Resolves (counted + t.pointers) { base := t.base } targets r) :
    aliases.Resolves counted t targets r := by
  obtain ⟨k, n⟩ := t
  induction n generalizing counted with
  | zero => exact h
  | succ n ih =>
      dsimp only at h
      rw [← Nat.succ_add_eq_add_succ] at h
      exact .pointer rfl (ih h)

/-- At a name without an alias the turns end with the type as it was. -/
theorem of_isFinal (h : aliases.IsFinal t.base) (counted : Nat) :
    aliases.Resolves counted t [] (t.under counted) := by
  have hend : t.under counted = CsType.under { base := t.base } (counted + t.pointers) := by
    rw [CsType.under, CsType.under, Nat.zero_add, Nat.add_comm]
  rw [hend]
  exact .of_base (.final rfl h)

/-- No alias applies to the type in which the turns end. -/
theorem isFinal (h : aliases.Resolves counted t targets r) : aliases.IsFinal r.base := by
  induction h with
  | pointer _ _ ih => exact ih
  | target _ _ _ ih => exact ih
  | final _ hfinal => exact hfinal

/-- The pointers of the type and those of the targets add up. -/
theorem pointers_eq (h : aliases.Resolves counted t targets r) :
    r.pointers = counted + t.pointers + (targets.map (·.pointers)).sum := by
  induction h with
  | pointer hp _ ih =>
      dsimp only at ih
      omega
  | target hp _ _ ih =>
      rw [List.map_cons, List.sum_cons]
      omega
  | final _ _ =>
      rw [List.map_nil, List.sum_nil, CsType.under]
      exact Nat.add_comm _ _

/-- In every state there is one turn to take, so the turns go one way. -/
theorem unique {r' : CsType} {targets' : List CsType} (h : aliases.Resolves counted t targets r)
    (h' : aliases.Resolves counted t targets' r') : targets' = targets ∧ r' = r := by
  induction h generalizing targets' r' with
  | pointer hp _ ih =>
      cases h' with
      | pointer hp' h' =>
          rw [hp] at hp'
          injection hp' with hp'
          subst hp'
          exact ih h'
      | target hp' _ _ => omega
      | final hp' _ => omega
  | target hp hget _ ih =>
      cases h' with
      | pointer hp' _ => omega
      | target _ hget' h' =>
          rw [hget] at hget'
          injection hget' with hsame
          subst hsame
          obtain ⟨rfl, rfl⟩ := ih h'
          exact ⟨rfl, rfl⟩
      | final _ hfinal =>
          rw [IsFinal, hget] at hfinal
          exact absurd hfinal (by simp)
  | final hp hfinal =>
      cases h' with
      | pointer hp' _ => omega
      | target _ hget _ =>
          rw [IsFinal, hget] at hfinal
          exact absurd hfinal (by simp)
      | final _ _ => exact ⟨rfl, rfl⟩

/-- Turns that end come from a name at which the chain ends. -/
theorem isFinal_along (h : aliases.Resolves counted t targets r) :
    aliases.IsFinal (aliases.along t.base targets.length) := by
  induction h with
  | pointer _ _ ih => exact ih
  | target _ hget _ ih =>
      have hstep : aliases.Step _ _ := Option.map_eq_some_iff.mpr ⟨_, hget, rfl⟩
      rw [List.length_cons, along_succ_of_step hstep]
      exact ih
  | final _ hfinal => exact hfinal

end Resolves

/-! ## The end of the turns -/

theorem follow_of_isFinal {t : CsType} (h : aliases.IsFinal t.base) (n : Nat) :
    aliases.follow n t = t := by
  cases n with
  | zero => rfl
  | succ n => rw [follow, show aliases.get? t.base = none from h]

/-- Following aliases goes through pointers. -/
theorem follow_under (n m : Nat) (t : CsType) :
    aliases.follow n (t.under m) = (aliases.follow n t).under m := by
  induction n generalizing t with
  | zero => rfl
  | succ n ih =>
      rw [follow, follow, show (t.under m).base = t.base from rfl]
      cases aliases.get? t.base with
      | none => rfl
      | some target =>
          dsimp only
          rw [← ih, CsType.under_under]
          rfl

/-- Where the chain ends within some steps, following that many aliases gives what the turns end
in. -/
theorem resolves_follow {n : Nat} {t : CsType} (h : aliases.IsFinal (aliases.along t.base n))
    (counted : Nat) : ∃ targets, targets.length ≤ n ∧
      aliases.Resolves counted t targets ((aliases.follow n t).under counted) := by
  induction n generalizing t counted with
  | zero => exact ⟨[], Nat.le_refl 0, .of_isFinal h counted⟩
  | succ n ih =>
      cases hget : aliases.get? t.base with
      | none =>
          rw [follow_of_isFinal hget]
          exact ⟨[], Nat.zero_le _, .of_isFinal hget counted⟩
      | some target =>
          have hstep : aliases.Step t.base target.base := Option.map_eq_some_iff.mpr ⟨_, hget, rfl⟩
          rw [along_succ_of_step hstep] at h
          obtain ⟨targets, hlength, hturns⟩ := ih h (counted + t.pointers)
          refine ⟨target :: targets, Nat.succ_le_succ hlength, .of_base (.target rfl hget ?_)⟩
          rw [follow, hget]
          dsimp only
          rw [follow_under, CsType.under_under, Nat.add_comm t.pointers]
          exact hturns

/-- Without cycles the turns from a type end in what it is resolved to, and no more targets are put
in than the table has entries. -/
theorem Acyclic.resolves (h : aliases.Acyclic) (t : CsType) :
    ∃ targets, targets.length ≤ aliases.size ∧ aliases.Resolves 0 t targets (aliases.resolve t) :=
  resolves_follow (h.isFinal_along_size t.base) 0

/-- **The turns from every type end exactly if there are no cycles.** -/
theorem acyclic_iff_resolves :
    aliases.Acyclic ↔ ∀ t, ∃ targets r, aliases.Resolves 0 t targets r := by
  constructor
  · intro h t
    obtain ⟨targets, _, hturns⟩ := h.resolves t
    exact ⟨targets, _, hturns⟩
  · intro h k hk
    obtain ⟨targets, r, hturns⟩ := h { base := k }
    exact not_isFinal_along_of_leadsOn hk _ hturns.isFinal_along

/-! ## Laws -/

theorem resolve_of_isFinal {t : CsType} (h : aliases.IsFinal t.base) : aliases.resolve t = t :=
  follow_of_isFinal h _

theorem resolve_under (t : CsType) (n : Nat) :
    aliases.resolve (t.under n) = (aliases.resolve t).under n := follow_under _ n t

/-- Without cycles a name is resolved to what its target is resolved to. -/
theorem Acyclic.resolve_of_get? (h : aliases.Acyclic) {k : Key} {target : CsType}
    (hget : aliases.get? k = some target) : aliases.resolve { base := k } = aliases.resolve target := by
  obtain ⟨_, _, hname⟩ := h.resolves { base := k }
  obtain ⟨_, _, htarget⟩ := h.resolves target
  -- the first turn from the name puts the target in, and from there the turns go one way
  exact (Resolves.unique (.target rfl hget htarget) hname).2

/-! ## Tables with the same answers -/

section Congr

variable {aliases' : Aliases} (hsame : ∀ k, aliases.get? k = aliases'.get? k)

include hsame

/-- A turn asks a table for the alias of a name and for nothing else. -/
theorem Resolves.congr {counted : Nat} {t r : CsType} {targets : List CsType}
    (h : aliases.Resolves counted t targets r) : aliases'.Resolves counted t targets r := by
  induction h with
  | pointer hp _ ih => exact .pointer hp ih
  | target hp hget _ ih => exact .target hp ((hsame _).symm.trans hget) ih
  | final hp hfinal => exact .final hp ((hsame _).symm.trans hfinal)

theorem Acyclic.congr (h : aliases.Acyclic) : aliases'.Acyclic := by
  rw [acyclic_iff_resolves] at h ⊢
  intro t
  obtain ⟨targets, r, hturns⟩ := h t
  exact ⟨targets, r, hturns.congr hsame⟩

/-- **Without cycles only the answers of a table matter, not how it came to be.** -/
theorem Acyclic.resolve_congr (h : aliases.Acyclic) (t : CsType) :
    aliases.resolve t = aliases'.resolve t := by
  obtain ⟨_, _, hturns⟩ := h.resolves t
  obtain ⟨_, _, hturns'⟩ := (h.congr hsame).resolves t
  exact (hturns'.unique (hturns.congr hsame)).2

end Congr

end Aliases

/-! ## After registrations -/

open CSharp

/-- Of several aliases for a name the first one counts. -/
theorem Build.get?_register (aliases : Aliases) (as : List Alias) (k : Key) :
    (register aliases as).get? k =
      (aliases.get? k).or ((as.find? fun a => a.name == k).map (·.target)) := by
  induction as generalizing aliases with
  | nil => simp [register]
  | cons a rest ih =>
      rw [register, List.foldl_cons, ← register, ih, OrderedMap.get?_insertIfNew, List.find?_cons,
        Option.or_assoc]
      cases hk : a.name == k with
      | true => rfl
      | false => rfl

/-- Aliases of different names may be registered in any order. -/
theorem Build.get?_register_perm (aliases : Aliases) {as as' : List Alias} (h : as.Perm as')
    (hapart : as.Pairwise fun a b => (a.name == b.name) = false) (k : Key) :
    (register aliases as).get? k = (register aliases as').get? k := by
  -- at most one of them has the name that is looked up
  have hone : Set.Subsingleton {a | a ∈ as ∧ (a.name == k) = true} := by
    rintro a ⟨ha, hak⟩ b ⟨hb, hbk⟩
    by_contra hne
    have hsymm : Std.Symm fun a b : Alias => (a.name == b.name) = false :=
      ⟨fun x y hxy => BEq.comm.trans hxy⟩
    have hdiffer := hapart.forall ha hb hne
    rw [BEq.trans hak (BEq.symm hbk)] at hdiffer
    exact absurd hdiffer (by simp)
  rw [get?_register, get?_register, List.find?_eq_find?_of_perm h hone]

namespace Aliases

/-- The aliases that are known once some were registered, one after the other. -/
def registered (as : List Alias) : Aliases := Build.register ∅ as

/-- What resolving makes of a type after some registrations. -/
structure Settles (as : List Alias) (t : CsType) : Prop where
  /-- The first registration of a name counts. -/
  first : ∀ k, (registered as).get? k = (as.find? (·.name == k)).map (·.target)
  /-- The turns end, and they end in the resolved type only. They put in no more targets than the
  table has entries, and the pointers of these targets come on top of those of the type. -/
  turns : ∃ targets, (registered as).Resolves 0 t targets ((registered as).resolve t) ∧
    (∀ targets' r, (registered as).Resolves 0 t targets' r →
      targets' = targets ∧ r = (registered as).resolve t) ∧
    targets.length ≤ (registered as).size ∧
    ((registered as).resolve t).pointers = t.pointers + (targets.map (·.pointers)).sum
  /-- No alias applies to the name that is left. -/
  isFinal : (registered as).IsFinal ((registered as).resolve t).base
  /-- A resolved type is resolved already. -/
  again : (registered as).resolve ((registered as).resolve t) = (registered as).resolve t
  /-- Resolving goes through a pointer. -/
  pointer : (registered as).resolve t.pointerTo = ((registered as).resolve t).pointerTo
  /-- A name is resolved to what the target of its first registration is resolved to. -/
  name : ∀ k a, as.find? (·.name == k) = some a →
    (registered as).resolve { base := k } = (registered as).resolve a.target

/-- **Without cycles every type settles, whatever was registered.** -/
theorem Acyclic.settles {as : List Alias} (h : (registered as).Acyclic) (t : CsType) :
    Settles as t := by
  have hfirst : ∀ k, (registered as).get? k = (as.find? (·.name == k)).map (·.target) :=
    fun k => Build.get?_register ∅ as k
  obtain ⟨targets, hlength, hturns⟩ := h.resolves t
  have hpointers := hturns.pointers_eq
  rw [Nat.zero_add] at hpointers
  have hfinal := h.isFinal_resolve t
  exact {
    first := hfirst
    turns := ⟨targets, hturns, fun _ _ h' => hturns.unique h', hlength, hpointers⟩
    isFinal := hfinal
    again := resolve_of_isFinal hfinal
    pointer := resolve_under t 1
    name := fun k a ha => h.resolve_of_get? (by rw [hfirst, ha, Option.map_some]) }

/-- A chain through pointers, and a name that is registered twice. -/
def textureAliases : List Alias :=
  [{ name := "ImGuiID", target := { base := "uint" } },
   { name := "ImGuiKeyChord", target := { base := "ImGuiID" } },
   { name := "ImTextureID", target := { base := "void", pointers := 1 } },
   { name := "ImTextureIDRef", target := { base := "ImTextureID", pointers := 1 } },
   { name := "ImGuiID", target := { base := "ImGuiKeyChord" } }]

theorem settles_textureAliases : (registered textureAliases).Acyclic ∧
    Settles textureAliases { base := "ImTextureIDRef", pointers := 1 } ∧
      (registered textureAliases).resolve { base := "ImTextureIDRef", pointers := 1 } =
        { base := "void", pointers := 3 } := by
  have hacyclic : (registered textureAliases).Acyclic := by decide +kernel
  exact ⟨hacyclic, hacyclic.settles _, by decide +kernel⟩

end Aliases

end NativeBindings
