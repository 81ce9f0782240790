import Mathlib.Data.List.TakeWhile
import NativeBindings.Text.Utf8

/-!
# Texts that have bytes

There are bytes for a text exactly if all of its code points are characters (`HasBytes`), so the
encoder refuses the others and no more (`exists_encode`, `exists_encodeFault`).

Where a text is cut, a mark may come to stand at the end of the front, and then it stands for
itself. So the code points of a front are nearly a front of the code points (`isFrontOf_pointsOf`),
which is enough to see that a front has bytes if the text has, and not more of them. Before a
character that means nothing behind a mark the cut is clean (`pointsOf_append_cons`).
-/

namespace NativeBindings.Text

/-- There are bytes for a text: it has characters only. -/
def HasBytes (s : String) : Prop := ∀ p ∈ codePoints s, p.isChar = true

instance (s : String) : Decidable (HasBytes s) :=
  inferInstanceAs (Decidable (∀ p ∈ codePoints s, p.isChar = true))

namespace Utf8

theorem exists_characters {s : String} (h : HasBytes s) : ∃ cs, characters s = .ok cs := by
  have hnone : (codePoints s).dropWhile CodePoint.isChar = [] := List.dropWhile_eq_nil_iff.mpr h
  exact ⟨_, by rw [characters, hnone]⟩

/-- The encoder tells the first halves, of which there is one at least. -/
theorem characters_eq_error {s : String} (h : ¬HasBytes s) :
    ∃ fault, characters s = .error fault := by
  cases hrest : (codePoints s).dropWhile CodePoint.isChar with
  | nil => exact absurd (List.dropWhile_eq_nil_iff.mp hrest) h
  | cons p rest =>
      have hp := List.head?_dropWhile_not CodePoint.isChar (codePoints s)
      rw [hrest] at hp
      cases p with
      | char c => exact absurd hp (by simp [CodePoint.isChar, CodePoint.char?])
      | half n => exact ⟨_, by rw [characters, hrest]⟩

theorem characters_eq_ok_iff {s : String} : (∃ cs, characters s = .ok cs) ↔ HasBytes s := by
  refine ⟨fun ⟨cs, hcs⟩ => ?_, exists_characters⟩
  by_contra h
  obtain ⟨fault, hfault⟩ := characters_eq_error h
  exact absurd (hcs.symm.trans hfault) (by simp)

end Utf8

/-! ## Fronts of texts -/

/-- The first code points are a front of the second ones, but that a mark at their end may be part
of another code point there. -/
def IsFrontOf (ps qs : List CodePoint) : Prop :=
  ps <+: qs ∨ ∃ before p, ps = before ++ [.char mark] ∧ before ++ [p] <+: qs ∧ p.byteCount = 3

theorem IsFrontOf.cons {ps qs : List CodePoint} (h : IsFrontOf ps qs) (p : CodePoint) :
    IsFrontOf (p :: ps) (p :: qs) := by
  rcases h with hfront | ⟨before, q, rfl, hfront, hq⟩
  · exact .inl (List.cons_prefix_cons.mpr ⟨rfl, hfront⟩)
  · exact .inr ⟨p :: before, q, rfl, List.cons_prefix_cons.mpr ⟨rfl, hfront⟩, hq⟩

theorem byteCount_of_marked? {c : Char} {p : CodePoint} (h : marked? c = some p) :
    p.byteCount = 3 := by
  rw [marked?] at h
  split at h
  · obtain rfl := Option.some.inj h
    rfl
  · split at h
    · obtain rfl := Option.some.inj h
      rfl
    · exact absurd h (by simp)

theorem isFrontOf_pointsOf (xs ys : List Char) :
    IsFrontOf (pointsOf xs) (pointsOf (xs ++ ys)) := by
  induction xs using pointsOf.induct with
  | case1 => exact .inl (List.nil_prefix)
  | case2 c =>
      cases ys with
      | nil => exact .inl (List.prefix_refl _)
      | cons d ys =>
          rw [List.singleton_append, pointsOf, pointsOf]
          split
          · rename_i hmark
            split
            · rename_i p hp
              refine .inr ⟨[], p, by rw [hmark]; rfl, ?_, byteCount_of_marked? hp⟩
              exact List.cons_prefix_cons.mpr ⟨rfl, List.nil_prefix⟩
            · exact .inl (List.cons_prefix_cons.mpr ⟨rfl, List.nil_prefix⟩)
          · exact .inl (List.cons_prefix_cons.mpr ⟨rfl, List.nil_prefix⟩)
  | case3 d rest p hp ih =>
      rw [List.cons_append, List.cons_append, pointsOf_mark_cons hp, pointsOf_mark_cons hp]
      exact ih.cons p
  | case4 d rest hp ih =>
      rw [List.cons_append, List.cons_append, pointsOf, pointsOf, if_pos rfl, if_pos rfl, hp]
      exact ih.cons _
  | case5 c d rest hc ih =>
      rw [List.cons_append, List.cons_append, pointsOf_cons hc, pointsOf_cons hc]
      exact ih.cons _

/-- A text that has bytes has a front with bytes. -/
theorem HasBytes.front {xs ys : List Char} (h : HasBytes (String.ofList (xs ++ ys))) :
    HasBytes (String.ofList xs) := by
  rw [HasBytes, codePoints, String.toList_ofList] at h ⊢
  rcases isFrontOf_pointsOf xs ys with hfront | ⟨before, p, hbefore, hfront, _⟩
  · exact fun p hp => h p (hfront.subset hp)
  · rw [hbefore]
    intro q hq
    rcases List.mem_append.mp hq with hq | hq
    · exact h q (hfront.subset (List.mem_append_left _ hq))
    · rw [List.mem_singleton.mp hq]
      rfl

theorem pointsByteCount_append (ps qs : List CodePoint) : Utf8.pointsByteCount (ps ++ qs) =
    Utf8.pointsByteCount ps + Utf8.pointsByteCount qs := by
  induction ps with
  | nil => exact (Nat.zero_add _).symm
  | cons p rest ih =>
      rw [List.cons_append, Utf8.pointsByteCount, Utf8.pointsByteCount, ih, Nat.add_assoc]

/-- The front of a text does not take more bytes than the text. -/
theorem byteCount_front_le (xs ys : List Char) :
    Utf8.byteCount (String.ofList xs) ≤ Utf8.byteCount (String.ofList (xs ++ ys)) := by
  rw [Utf8.byteCount, Utf8.byteCount, codePoints, codePoints, String.toList_ofList,
    String.toList_ofList]
  rcases isFrontOf_pointsOf xs ys with ⟨later, hlater⟩ | ⟨before, p, hbefore, ⟨later, hlater⟩, hp⟩
  · rw [← hlater, pointsByteCount_append]
    exact Nat.le_add_right _ _
  · have hmark : (CodePoint.char mark).byteCount = 3 := rfl
    have hlast : Utf8.pointsByteCount [.char mark] = Utf8.pointsByteCount [p] := by
      simp only [Utf8.pointsByteCount, hmark, hp]
    rw [hbefore, ← hlater, pointsByteCount_append, pointsByteCount_append, pointsByteCount_append,
      hlast]
    exact Nat.le_add_right _ _

end NativeBindings.Text
