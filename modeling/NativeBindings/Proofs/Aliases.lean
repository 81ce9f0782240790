import Mathlib.Data.Fintype.Pigeonhole
import Mathlib.Logic.Relation
import NativeBindings.Aliases
import NativeBindings.Proofs.Conversion
import NativeBindings.Proofs.OrderedMap

/-!
# Where aliases lead

Aliases take names to names. Without cycles a chain of names cannot be longer than
the table: names further along would share an entry with earlier ones, and the chain
would have come back to where it was. So a resolved type has the name at the end of
its chain, to which no alias applies.
-/

namespace NativeBindings.Aliases

open Relation

/-- The name to which the alias of a name leads, if it has one. -/
def next? (aliases : Aliases) (k : Key) : Option Key := (aliases.get? k).map (·.base)

/-- An alias leads from a name to a name. -/
def Step (aliases : Aliases) (k l : Key) : Prop := aliases.next? k = some l

/-- Aliases lead from a name to a name, or the names are one. -/
def Leads (aliases : Aliases) : Key → Key → Prop := ReflTransGen aliases.Step

/-- At least one alias leads from a name to a name. -/
def LeadsOn (aliases : Aliases) : Key → Key → Prop := TransGen aliases.Step

/-- No alias applies to the name. -/
def IsFinal (aliases : Aliases) (k : Key) : Prop := aliases.get? k = none

/-- No name leads back to itself. -/
def Acyclic (aliases : Aliases) : Prop := ∀ k, ¬aliases.LeadsOn k k

variable {aliases : Aliases}

theorem isFinal_iff {k : Key} : aliases.IsFinal k ↔ aliases.next? k = none := by
  rw [IsFinal, next?, Option.map_eq_none_iff]

theorem next?_congr {k l : Key} (h : k == l) : aliases.next? k = aliases.next? l := by
  rw [next?, next?, OrderedMap.get?_congr aliases h]

/-- If a number falls along every alias, no name leads back to itself. -/
theorem acyclic_of_rank (rank : Key → Nat) (h : ∀ k l, aliases.Step k l → rank l < rank k) :
    aliases.Acyclic := by
  have hfalls : ∀ k l, aliases.LeadsOn k l → rank l < rank k := by
    intro k l hkl
    induction hkl with
    | single hstep => exact h _ _ hstep
    | tail _ hstep ih => exact Nat.lt_trans (h _ _ hstep) ih
  exact fun k hk => absurd (hfalls k k hk) (Nat.lt_irrefl _)

instance (aliases : Aliases) : DecidablePred aliases.IsFinal :=
  fun k => inferInstanceAs (Decidable (aliases.get? k = none))

/-- If no alias stands for a name that has one, no name leads back to itself. -/
theorem acyclic_of_flat (h : ∀ e ∈ aliases.entries, aliases.IsFinal e.2.base) :
    aliases.Acyclic := by
  -- every alias leads from a name that has one to a name that has none
  refine acyclic_of_rank (fun k => if aliases.IsFinal k then 0 else 1) fun k l hstep => ?_
  obtain ⟨target, hget, rfl⟩ := Option.map_eq_some_iff.mp hstep
  obtain ⟨e, he, rfl⟩ := Option.map_eq_some_iff.mp hget
  have hnot : ¬aliases.IsFinal k := by
    rw [IsFinal, hget]
    simp
  rw [if_pos (h e (List.mem_of_find?_eq_some he)), if_neg hnot]
  exact Nat.zero_lt_one

/-! ## Chains -/

/-- The name after some steps; where no alias applies the name stays. -/
def along (aliases : Aliases) (k : Key) : Nat → Key
  | 0 => k
  | n + 1 => (aliases.next? (aliases.along k n)).getD (aliases.along k n)

theorem along_succ_of_step {k l : Key} (h : aliases.Step k l) (n : Nat) :
    aliases.along k (n + 1) = aliases.along l n := by
  induction n with
  | zero =>
      show (aliases.next? k).getD k = l
      rw [show aliases.next? k = some l from h]
      rfl
  | succ n ih => rw [along, ih, along]

theorem leads_along (k : Key) (n : Nat) : aliases.Leads k (aliases.along k n) := by
  induction n with
  | zero => exact .refl
  | succ n ih =>
      rw [along]
      cases hnext : aliases.next? (aliases.along k n) with
      | none => exact ih
      | some l => exact ih.tail hnext

theorem along_of_isFinal {k : Key} (h : aliases.IsFinal k) (n : Nat) : aliases.along k n = k := by
  induction n with
  | zero => rfl
  | succ n ih => rw [along, ih, isFinal_iff.mp h, Option.getD_none]

/-- Past its end a chain stays where it is. -/
theorem along_add_of_isFinal {k : Key} {n : Nat} (h : aliases.IsFinal (aliases.along k n))
    (m : Nat) : aliases.along k (n + m) = aliases.along k n := by
  induction m with
  | zero => rfl
  | succ m ih => rw [← Nat.add_assoc, along, ih, isFinal_iff.mp h, Option.getD_none]

theorem step_along {k : Key} {n : Nat} (h : ¬aliases.IsFinal (aliases.along k n)) :
    aliases.Step (aliases.along k n) (aliases.along k (n + 1)) := by
  rw [isFinal_iff] at h
  obtain ⟨l, hl⟩ := Option.ne_none_iff_exists'.mp h
  rw [Step, along, hl, Option.getD_some]

/-- As long as aliases apply, a chain leads on. -/
theorem leadsOn_along {k : Key} {i j : Nat} (hij : i < j)
    (h : ∀ n < j, ¬aliases.IsFinal (aliases.along k n)) :
    aliases.LeadsOn (aliases.along k i) (aliases.along k j) := by
  induction j with
  | zero => exact absurd hij (Nat.not_lt_zero i)
  | succ j ih =>
      have hstep := step_along (h j (Nat.lt_succ_self j))
      rcases Nat.lt_or_eq_of_le (Nat.le_of_lt_succ hij) with hlt | rfl
      · exact (ih hlt fun n hn => h n (Nat.lt_succ_of_lt hn)).tail hstep
      · exact .single hstep

/-- A name to which an alias applies has an entry. -/
theorem exists_entry {k : Key} (h : ¬aliases.IsFinal k) :
    ∃ i : Fin aliases.size, (aliases.entries[i].1 == k) = true := by
  rw [IsFinal, OrderedMap.get?_eq_none, Bool.not_eq_false, OrderedMap.contains, OrderedMap.keys,
    List.any_map, List.any_eq_true] at h
  obtain ⟨e, he, hk⟩ := h
  obtain ⟨i, hi, rfl⟩ := List.getElem_of_mem he
  exact ⟨⟨i, hi⟩, hk⟩

/-- **Without cycles a chain of aliases ends before it is longer than the table.** -/
theorem Acyclic.isFinal_along (h : aliases.Acyclic) (k : Key) :
    ∃ n ≤ aliases.size, aliases.IsFinal (aliases.along k n) := by
  by_contra hall
  have hnot : ∀ n ≤ aliases.size, ¬aliases.IsFinal (aliases.along k n) :=
    fun n hn hfinal => hall ⟨n, hn, hfinal⟩
  have hentry : ∀ n : Fin (aliases.size + 1), ∃ i : Fin aliases.size,
      (aliases.entries[i].1 == aliases.along k n) = true :=
    fun n => exists_entry (hnot n (Nat.le_of_lt_succ n.isLt))
  choose entry hentry using hentry
  -- two places of the chain share an entry, and from the second the chain goes on as from the first
  have hcycle : ∀ i j : Fin (aliases.size + 1), i < j → entry i ≠ entry j := by
    intro i j hij hsame
    have hkeys : aliases.along k i == aliases.along k j := by
      have hi := hentry i
      rw [hsame] at hi
      exact BEq.trans (BEq.symm hi) (hentry j)
    have hi := step_along (hnot i (Nat.le_of_lt_succ i.isLt))
    have hj := step_along (hnot j (Nat.le_of_lt_succ j.isLt))
    rw [Step, next?_congr hkeys, hj] at hi
    injection hi with hi
    have hon := leadsOn_along (k := k) (Nat.succ_lt_succ (Fin.lt_def.mp hij)) fun n hn =>
      hnot n (by omega)
    exact h _ (hi ▸ hon)
  obtain ⟨i, j, hne, hsame⟩ := Fintype.exists_ne_map_eq_of_card_lt entry (by simp)
  rcases Nat.lt_or_gt_of_ne (Fin.val_ne_of_ne hne) with hlt | hgt
  · exact hcycle i j hlt hsame
  · exact hcycle j i hgt hsame.symm

/-- Without cycles every chain has ended after as many aliases as there are. -/
theorem Acyclic.isFinal_along_size (h : aliases.Acyclic) (k : Key) :
    aliases.IsFinal (aliases.along k aliases.size) := by
  obtain ⟨n, hn, hfinal⟩ := h.isFinal_along k
  obtain ⟨m, hm⟩ := Nat.exists_eq_add_of_le hn
  rw [hm, along_add_of_isFinal hfinal]
  exact hfinal

/-- A chain that comes back to where it began has no end. -/
theorem not_isFinal_along_of_leadsOn {k : Key} (h : aliases.LeadsOn k k) (n : Nat) :
    ¬aliases.IsFinal (aliases.along k n) := by
  induction n generalizing k with
  | zero =>
      obtain ⟨l, hstep, _⟩ := TransGen.head'_iff.mp h
      intro hfinal
      rw [along, isFinal_iff, show aliases.next? k = some l from hstep] at hfinal
      exact absurd hfinal (by simp)
  | succ n ih =>
      -- the name to which the first alias leads comes back to itself as well
      obtain ⟨l, hstep, hback⟩ := TransGen.head'_iff.mp h
      rw [along_succ_of_step hstep]
      exact ih (.tail' hback hstep)

/-- **There are no cycles exactly if the chain of every entry ends before it is longer than the
table.** -/
theorem acyclic_iff : aliases.Acyclic ↔
    ∀ e ∈ aliases.entries, aliases.IsFinal (aliases.along e.1 aliases.size) := by
  constructor
  · intro h e _
    exact h.isFinal_along_size e.1
  · intro hends k hk
    obtain ⟨l, hstep, _⟩ := TransGen.head'_iff.mp hk
    obtain ⟨i, hi⟩ := exists_entry (not_isFinal_along_of_leadsOn hk 0)
    have he : aliases.entries[i] ∈ aliases.entries := List.getElem_mem i.isLt
    obtain ⟨m, hm⟩ := Nat.exists_eq_succ_of_ne_zero (Nat.ne_of_gt (Nat.zero_lt_of_lt i.isLt))
    generalize aliases.entries[i] = e at hi he
    -- the entry of the name is another spelling of it, and both lead to the same name
    have hentry : aliases.Step e.1 l := (next?_congr hi).trans hstep
    have hfinal := hends e he
    rw [hm, along_succ_of_step hentry, ← along_succ_of_step hstep] at hfinal
    exact not_isFinal_along_of_leadsOn hk _ hfinal

instance (aliases : Aliases) : Decidable aliases.Acyclic := decidable_of_iff' _ acyclic_iff

/-! ## Resolved types -/

theorem base_follow (t : CsType) (n : Nat) :
    (aliases.follow n t).base = aliases.along t.base n := by
  induction n generalizing t with
  | zero => rfl
  | succ n ih =>
      rw [follow]
      cases hget : aliases.get? t.base with
      | none => rw [along_of_isFinal hget]
      | some target =>
          have hstep : aliases.Step t.base target.base := by rw [Step, next?, hget, Option.map_some]
          rw [along_succ_of_step hstep]
          exact ih _

theorem leads_resolve (t : CsType) : aliases.Leads t.base (aliases.resolve t).base := by
  rw [resolve, base_follow]
  exact leads_along _ _

/-- **Without cycles no alias applies to a resolved type.** -/
theorem Acyclic.isFinal_resolve (h : aliases.Acyclic) (t : CsType) :
    aliases.IsFinal (aliases.resolve t).base := by
  rw [resolve, base_follow]
  exact h.isFinal_along_size t.base

/-- From one name aliases lead to only one name to which none applies. -/
theorem Leads.eq_of_isFinal {k l m : Key} (hl : aliases.Leads k l) (hm : aliases.Leads k m)
    (hfinal : aliases.IsFinal l) (hfinal' : aliases.IsFinal m) : l = m := by
  rw [isFinal_iff] at hfinal hfinal'
  -- an alias leads to one name, so the two ways take the same steps
  induction hl using ReflTransGen.head_induction_on with
  | refl =>
      rcases hm.cases_head with rfl | ⟨c, hstep, _⟩
      · rfl
      · rw [Step, hfinal] at hstep
        exact absurd hstep (by simp)
  | head hstep _ ih =>
      rcases hm.cases_head with rfl | ⟨c, hstep', hrest⟩
      · rw [Step, hfinal'] at hstep
        exact absurd hstep (by simp)
      · rw [Step, hstep] at hstep'
        injection hstep' with hsame
        exact ih (hsame ▸ hrest)

/-- **Without cycles a type is resolved to the one name to which its own leads and to which no
alias applies.** -/
theorem Acyclic.base_resolve (h : aliases.Acyclic) (t : CsType) (k : Key) :
    (aliases.resolve t).base = k ↔ aliases.Leads t.base k ∧ aliases.IsFinal k := by
  constructor
  · rintro rfl
    exact ⟨leads_resolve t, h.isFinal_resolve t⟩
  · intro hend
    obtain ⟨hleads, hfinal⟩ := hend
    exact (leads_resolve t).eq_of_isFinal hleads (h.isFinal_resolve t) hfinal

/-! ## Resolved types that can be written -/

/-- Every alias stands for a type that can be written. -/
def AllWritable (aliases : Aliases) : Prop := ∀ e ∈ aliases.entries, e.2.Writable

theorem follow_writable (h : aliases.AllWritable) {t : CsType} (ht : t.Writable) (n : Nat) :
    (aliases.follow n t).Writable := by
  induction n generalizing t with
  | zero => exact ht
  | succ n ih =>
      rw [follow]
      cases hget : aliases.get? t.base with
      | none => exact ht
      | some target =>
          obtain ⟨e, he, rfl⟩ := Option.map_eq_some_iff.mp hget
          exact ih ((h e (List.mem_of_find?_eq_some he)).under _)

theorem resolve_writable (h : aliases.AllWritable) {t : CsType} (ht : t.Writable) :
    (aliases.resolve t).Writable := follow_writable h ht aliases.size

theorem checkChange_of_writable {t : CsType} (ht : t.Writable) :
    aliases.checkChange t = .ok () := by
  rw [checkChange, ht.checkWritable, ite_self]

end NativeBindings.Aliases
