import NativeBindings.OrderedMap

/-!
# What a map knows after a write

Which keys a map has, and what it says about them, after a key was set or was set
unless present. Keys are told apart by `==` alone, so every statement is about
`==` and none about equality.
-/

namespace NativeBindings.OrderedMap

variable {α β : Type} [BEq α]

/-- A key has a value exactly if it is present. -/
theorem get?_eq_none {m : OrderedMap α β} {k : α} : m.get? k = none ↔ m.contains k = false := by
  rw [get?, contains, keys, Option.map_eq_none_iff, List.find?_eq_none, List.any_map,
    List.any_eq_false]
  rfl

/-- Keys that compare as the same look up the same. -/
theorem get?_congr [EquivBEq α] (m : OrderedMap α β) {k k' : α} (h : k == k') :
    m.get? k = m.get? k' := by
  have hsame : ∀ e : α × β, (e.1 == k) = (e.1 == k') := fun e => BEq.congr_right h
  simp only [get?, hsame]

/-- A new key goes to the end. -/
theorem insert_of_contains_eq_false {m : OrderedMap α β} {k : α} (h : m.contains k = false) (v : β) :
    m.insert k v = ⟨m.entries ++ [(k, v)]⟩ := by
  have hentries : ∀ l : List (α × β), l.any (fun e => e.1 == k) = false →
      insertEntry k v l = l ++ [(k, v)] := by
    intro l
    induction l with
    | nil => exact fun _ => rfl
    | cons e rest ih =>
        intro hl
        rw [List.any_cons, Bool.or_eq_false_iff] at hl
        rw [insertEntry, hl.1, if_neg (by simp), ih hl.2, List.cons_append]
  rw [contains, keys, List.any_map] at h
  rw [insert, hentries m.entries h]

section Insert

variable [EquivBEq α]

theorem any_insertEntry (k : α) (v : β) (k' : α) (l : List (α × β)) :
    (insertEntry k v l).any (fun e => e.1 == k') = (l.any (fun e => e.1 == k') || k == k') := by
  induction l with
  | nil => simp [insertEntry]
  | cons e rest ih =>
      rw [insertEntry]
      split
      · rename_i h
        -- the entry that is overwritten keeps its key
        have hk : (e.1 == k') = (k == k') := BEq.congr_left h
        simp only [List.any_cons, hk]
        cases k == k' <;> simp
      · rw [List.any_cons, ih, List.any_cons, Bool.or_assoc]

/-- Setting a key adds that key and no other. -/
theorem contains_insert (m : OrderedMap α β) (k : α) (v : β) (k' : α) :
    (m.insert k v).contains k' = (m.contains k' || k == k') := by
  simp only [contains, keys, insert, List.any_map]
  exact any_insertEntry k v k' m.entries

theorem find?_insertEntry (k : α) (v : β) (k' : α) (l : List (α × β)) :
    ((insertEntry k v l).find? fun e => e.1 == k').map (·.2) =
      if k == k' then some v else (l.find? fun e => e.1 == k').map (·.2) := by
  induction l with
  | nil => by_cases hk : k == k' <;> simp [insertEntry, hk]
  | cons e rest ih =>
      rw [insertEntry]
      split
      · rename_i h
        have hk : (e.1 == k') = (k == k') := BEq.congr_left h
        by_cases hk' : k == k' <;> simp [hk, hk']
      · rename_i h
        by_cases he : e.1 == k'
        · -- the entry has the key that is looked up, so that key was not set
          have hk : ¬(k == k') = true := fun hk => h (BEq.trans he (BEq.symm hk))
          simp [he, hk]
        · simp only [List.find?_cons, he, ih]

/-- A key that is set says the new value, and the others what they said. -/
theorem get?_insert (m : OrderedMap α β) (k : α) (v : β) (k' : α) :
    (m.insert k v).get? k' = if k == k' then some v else m.get? k' :=
  find?_insertEntry k v k' m.entries

end Insert

/-- A key that is set unless present says what it said before, or else the new value. -/
theorem get?_insertIfNew [EquivBEq α] (m : OrderedMap α β) (k : α) (v : β) (k' : α) :
    (m.insertIfNew k v).get? k' = (m.get? k').or (if k == k' then some v else none) := by
  rw [insertIfNew]
  split
  · rename_i h
    by_cases hk : k == k'
    · have hsome : m.get? k' ≠ none := by
        rw [← get?_congr m hk]
        intro hn
        rw [get?_eq_none, h] at hn
        exact absurd hn (by simp)
      obtain ⟨w, hw⟩ := Option.ne_none_iff_exists'.mp hsome
      rw [hw, Option.some_or]
    · rw [if_neg hk, Option.or_none]
  · simp only [get?, List.find?_append, Option.map_or, List.find?_singleton]
    by_cases hk : k == k'
    · rw [if_pos hk]; simp [hk]
    · rw [if_neg hk]; simp [hk]

end NativeBindings.OrderedMap
