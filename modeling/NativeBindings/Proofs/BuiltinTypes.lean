import NativeBindings.Proofs.Resolution
import NativeBindings.Proofs.TypePlaces

/-!
# Builtin types and typedefs with their names

A builtin is converted to the C# type that the table of native types has for it, under as
many pointers, wherever it is met. Aliases come later and are looked up by name, and the
name of a C# type may be that of a typedef as well. Then the typedef takes over builtins
that have nothing to do with it.

The main statement says exactly when that does not happen.
-/

namespace NativeBindings

open Header (TypeDesc)
open CSharp Build

/-! ## Builtins behind pointers -/

/-- The C# type of a builtin with a native type, behind pointers or not. -/
def nativeType? (native : NativeTypes) : TypeDesc → Option CsType
  | .builtin (.text name) => (native.get? name).map fun n : String => ({ base := n } : CsType)
  | .pointer inner => (nativeType? native inner).map CsType.pointerTo
  | _ => none

section

variable {native : NativeTypes}

theorem nativeType?_pointers (name : String) (k : Nat) :
    nativeType? native (TypeDesc.pointer^[k] (.builtin name)) =
      (native.get? name).map fun n : String => ({ base := n, pointers := k } : CsType) := by
  induction k with
  | zero => rfl
  | succ k ih =>
      rw [Function.iterate_succ_apply', nativeType?, ih, Option.map_map]
      rfl

/-- **There are as many pointers over the C# name as over the builtin.** -/
theorem nativeType?_eq_some {t : TypeDesc} {type : CsType} : nativeType? native t = some type ↔
    ∃ (name n : String) (k : Nat), t = TypeDesc.pointer^[k] (.builtin name) ∧
      native.get? name = some n ∧ type = { base := n, pointers := k } := by
  constructor
  · intro h
    match t, h with
    | .builtin (.text name), h =>
        obtain ⟨n, hn, rfl⟩ := Option.map_eq_some_iff.mp h
        exact ⟨name, n, 0, rfl, hn, rfl⟩
    | .pointer inner, h =>
        obtain ⟨_, hinner, rfl⟩ := Option.map_eq_some_iff.mp h
        obtain ⟨name, n, k, rfl, hn, rfl⟩ := nativeType?_eq_some.mp hinner
        exact ⟨name, n, k + 1, (Function.iterate_succ_apply' ..).symm, hn, rfl⟩
  · rintro ⟨name, n, k, rfl, hn, rfl⟩
    rw [nativeType?_pointers, hn, Option.map_some]

theorem functionPointer?_of_nativeType? {t : TypeDesc} {type : CsType}
    (h : nativeType? native t = some type) : t.functionPointer? = none := by
  cases t with
  | named name inner => exact absurd h (by simp [nativeType?])
  | builtin | user | pointer | array | function | unsupported => rfl

/-- A builtin with a native type is converted to that type, and to nothing else. -/
theorem Converted.eq_of_nativeType? {t : TypeDesc} {type type' : CsType}
    (h : Converted native t type) (hn : nativeType? native t = some type') : type = type' := by
  induction h generalizing type' with
  | builtin name =>
      obtain ⟨n, hget, rfl⟩ := Option.map_eq_some_iff.mp hn
      rw [hget, Option.getD_some]
  | user name => exact absurd hn (by simp [nativeType?])
  | functionPointer hp =>
      rw [functionPointer?_of_nativeType? hn] at hp
      exact absurd hp (by simp)
  | pointer _ ih =>
      obtain ⟨_, hinner, rfl⟩ := Option.map_eq_some_iff.mp hn
      rw [ih hinner]

/-- A builtin with a native type is not refused. -/
theorem convert_of_nativeType? {t : TypeDesc} {type : CsType}
    (h : nativeType? native t = some type) : (convert native t).result = .ok (.ok type) := by
  match t, h with
  | .builtin (.text name), h =>
      obtain ⟨n, hget, rfl⟩ := Option.map_eq_some_iff.mp h
      have hkey : (Leaf.text name).key = .ok (.text name) := rfl
      have hnative : nativeName? native (.text name) = some n := hget
      show (Conversion.leaf native (.builtin (.text name))).result = _
      rw [Conversion.leaf, Traced.result_bind, Traced.result_ofExcept, hkey, ok_bind, hnative]
      rfl
  | .pointer inner, h =>
      obtain ⟨_, hinner, rfl⟩ := Option.map_eq_some_iff.mp h
      exact result_convert_pointer (convert_of_nativeType? hinner)

/-- At the place of a builtin its native type is built. -/
theorem PlaceType.eq_of_nativeType? {t : TypeDesc} {type type' : CsType}
    (h : PlaceType native t type) (hn : nativeType? native t = some type') : type = type' := by
  cases h with
  | converted h => exact h.eq_of_nativeType? hn
  | functionPointer hp =>
      rcases hp with hne | ⟨_, _, rfl⟩
      · exact absurd (functionPointer?_of_nativeType? hn) hne
      · exact absurd hn (by simp [nativeType?])
  | refused h =>
      obtain ⟨cause, hcause⟩ := h
      rw [convert_of_nativeType? hn] at hcause
      exact absurd hcause (by simp)
  | nothing ht =>
      subst ht
      exact absurd hn (by simp [nativeType?, TypeDesc.missing])

end

/-! ## Builtins in a binding -/

/-- If a builtin with a native type is described, the type is the C# name under as many pointers. -/
def KeepsBuiltin (t : TypeDesc) (type : CsType) : Prop :=
  ∀ (name n : String) (k : Nat), t = TypeDesc.pointer^[k] (.builtin name) →
    nativeTypes.get? name = some n → type = { base := n, pointers := k }

/-- If a builtin with a native type is described, no alias has its C# name. -/
def NotCaptured (aliases : Aliases) (t : TypeDesc) : Prop :=
  ∀ (name n : String) (k : Nat), t = TypeDesc.pointer^[k] (.builtin name) →
    nativeTypes.get? name = some n → aliases.IsFinal n

/-- What is written for a builtin is its native type exactly if no alias has the C# name. -/
theorem WrittenType.keepsBuiltin_iff {aliases : Aliases} (ha : aliases.Acyclic) {t : TypeDesc}
    {type : CsType} (h : WrittenType aliases nativeTypes t type) :
    KeepsBuiltin t type ↔ NotCaptured aliases t := by
  obtain ⟨built, hbuilt, rfl⟩ := h
  refine forall_congr' fun name => forall_congr' fun n => forall_congr' fun k =>
    imp_congr_right fun ht => imp_congr_right fun hn => ?_
  obtain rfl := hbuilt.eq_of_nativeType? (nativeType?_eq_some.mpr ⟨name, n, k, ht, hn, rfl⟩)
  constructor
  · intro hkept
    -- the end of a chain has no alias, and here it is where the chain begins
    have hfinal := ha.isFinal_resolve { base := n, pointers := k }
    rwa [hkept] at hfinal
  · intro hfinal
    exact Aliases.resolve_of_isFinal (t := { base := n, pointers := k }) hfinal

/-- **Builtins are kept at all places exactly if none of them has a C# type whose name a typedef
has.** -/
theorem finished_builtinsKept {d : Header.Definitions} (h : d.WellTyped) (o : Options)
    (ha : (aliasesOf o d).Acyclic) :
    ∃ final, finishedOf o d = .ok final ∧ (TypesIn KeepsBuiltin (acceptedPart o d) final ↔
      ∀ t ∈ places (acceptedPart o d), NotCaptured (aliasesOf o d) t) :=
  ⟨_, finishedOf_eq h o, (typesIn_acceptedPart h o).iff fun _ _ hw => hw.keepsBuiltin_iff ha⟩

/-- A typedef that is called like the C# type of an unsigned character, which is what the field of a
struct is. -/
def byteHeader : Header.Definitions where
  typedefs := [{ name := "byte", type := { description := .builtin "signed char" } }]
  structs := [{ name := "Color", fields :=
    [{ name := "red", type := { description := .builtin "unsigned char" } }] }]

theorem acyclic_byteHeader : (aliasesOf {} byteHeader).Acyclic :=
  Aliases.acyclic_of_flat (by decide +kernel)

theorem finished_builtinsKept_byteHeader :
    byteHeader.WellTyped ∧ (aliasesOf {} byteHeader).Acyclic ∧
      ∃ final, finishedOf {} byteHeader = .ok final ∧
        (TypesIn KeepsBuiltin (acceptedPart {} byteHeader) final ↔
          ∀ t ∈ places (acceptedPart {} byteHeader), NotCaptured (aliasesOf {} byteHeader) t) :=
  ⟨by decide, acyclic_byteHeader, finished_builtinsKept (by decide) {} acyclic_byteHeader⟩

/-- The typedef takes over the field. -/
theorem byteHeader_not_builtinsKept :
    byteHeader.WellTyped ∧ (aliasesOf {} byteHeader).Acyclic ∧
      ∃ final, finishedOf {} byteHeader = .ok final ∧
        ¬TypesIn KeepsBuiltin (acceptedPart {} byteHeader) final := by
  have htypes := typesIn_acceptedPart (d := byteHeader) (by decide) {}
  refine ⟨by decide, acyclic_byteHeader, _, finishedOf_eq (by decide) {}, fun hkept => ?_⟩
  have hfield : ((places (acceptedPart {} byteHeader)).any fun t =>
      nativeType? nativeTypes t = some { base := "byte" }) = true := by decide +kernel
  have halias : ¬(aliasesOf {} byteHeader).IsFinal "byte" := by decide +kernel
  obtain ⟨t, ht, hn⟩ := List.any_eq_true.mp hfield
  obtain ⟨name, n, k, hdescribed, hget, hbyte⟩ := nativeType?_eq_some.mp (of_decide_eq_true hn)
  have hnot := (htypes.iff fun _ _ hw => hw.keepsBuiltin_iff acyclic_byteHeader).mp hkept t ht
  have hfinal := hnot name n k hdescribed hget
  injection hbyte with hbase
  rw [← hbase] at hfinal
  exact halias hfinal

end NativeBindings
