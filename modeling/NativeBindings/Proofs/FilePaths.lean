import NativeBindings.Files.Tree
import NativeBindings.Proofs.EncodedTexts

/-!
# Paths in a tree

A path is gone along part by part, from the root or from the current directory, so what the front of
a path names decides where the rest goes on (`walk_append`). A step of the way to a directory is one
of two things, a part that stays or a part that enters a directory (`Enters`), and what is said of
walks is said of these steps first.

Names joined to a directory are located in it (`locate_join`), and a path that is taken apart has
fronts that lead to directories if the path does (`isDirectory_front`).
-/

namespace NativeBindings.Files

/-! ## Parts of paths -/

theorem partsOf_append_slash (xs ys : List Char) : partsOf (String.ofList (xs ++ '/' :: ys)) =
    partsOf (String.ofList xs) ++ partsOf (String.ofList ys) := by
  simp only [partsOf, String.toList_ofList, List.splitOn_append_cons_self, List.map_append]

/-- A text that is one part of a path, and one that leads further down. -/
structure IsPart (name : String) : Prop where
  noSlash : '/' ∉ name.toList
  nonempty : name ≠ ""
  notHere : name ≠ "."
  notAbove : name ≠ ".."

/-- A name that a file can have: a part of a path that is not too long. -/
structure IsName (name : String) : Prop extends IsPart name where
  bytes : Text.Utf8.byteCount name ≤ Tree.mostNameBytes

namespace Tree

variable {t : Tree}

/-! ## Walks -/

/-- A part of a path leads from a directory to a directory. -/
inductive Enters (t : Tree) (start : Place) (part : String) : Place → Prop where
  | here (h : (part = "" || part = ".") = true) : Enters t start part start
  | next (h : (part = "" || part = ".") = false)
      (hbytes : ¬mostNameBytes < Text.Utf8.byteCount part)
      (hnode : t.node? (follow start part) = some .directory) :
      Enters t start part (follow start part)

theorem Enters.walk {start next : Place} {part : String} (h : Enters t start part next)
    (rest : List String) : t.walk start (part :: rest) = t.walk next rest := by
  rw [Tree.walk]
  cases h with
  | here h => rw [if_pos h]
  | next h hbytes hnode =>
      rw [if_neg (by simp [h]), if_neg hbytes]
      dsimp only
      rw [hnode]

theorem Enters.node? {start next : Place} {part : String} (h : Enters t start part next)
    (hstart : t.node? start = some .directory) : t.node? next = some .directory := by
  cases h with
  | here _ => exact hstart
  | next _ _ hnode => exact hnode

/-- A part of a path leads to something that is no directory, and nothing comes after it. -/
structure EndsAt (t : Tree) (start : Place) (part : String) (rest : List String)
    (node : Option Node) : Prop where
  next : (part = "" || part = ".") = false
  bytes : ¬mostNameBytes < Text.Utf8.byteCount part
  found : t.node? (follow start part) = node
  notDirectory : node ≠ some .directory
  last : rest.all (·.isEmpty) = true

/-- A walk enters a directory, or it ends. -/
theorem enters_or_ends {start place : Place} {part : String} {rest : List String}
    {node : Option Node} (h : t.walk start (part :: rest) = .ok (place, node)) :
    (∃ next, Enters t start part next) ∨
      EndsAt t start part rest node ∧ place = follow start part := by
  rw [walk] at h
  split at h
  · rename_i hhere
    exact .inl ⟨start, .here hhere⟩
  · rename_i hhere
    have hpart := Bool.eq_false_iff.mpr hhere
    split at h
    · exact absurd h (by simp)
    · rename_i hbytes
      dsimp only at h
      split at h
      · rename_i hnode
        exact .inl ⟨_, .next hpart hbytes hnode⟩
      · rename_i hnode
        split at h
        · rename_i hrest
          obtain ⟨rfl, rfl⟩ := Prod.mk.inj (Except.ok.inj h)
          rw [List.isEmpty_iff] at hrest
          exact .inr ⟨⟨hpart, hbytes, hnode, by simp, by simp [hrest]⟩, rfl⟩
        · exact absurd h (by simp)
      · rename_i hnode
        split at h
        · rename_i hrest
          obtain ⟨rfl, rfl⟩ := Prod.mk.inj (Except.ok.inj h)
          exact .inr ⟨⟨hpart, hbytes, hnode, by simp, hrest⟩, rfl⟩
        · exact absurd h (by simp)

/-- A walk to a directory enters it by way of directories. -/
theorem enters_of_walk {start place : Place} {part : String} {rest : List String}
    (h : t.walk start (part :: rest) = .ok (place, some .directory)) :
    ∃ next, Enters t start part next := by
  rcases enters_or_ends h with henters | ⟨hends, _⟩
  · exact henters
  · exact absurd rfl hends.notDirectory

/-- On the way to a directory there are only directories. -/
theorem walk_front {start place : Place} {front rest : List String}
    (h : t.walk start (front ++ rest) = .ok (place, some .directory)) :
    ∃ middle, t.walk start front = .ok (middle, some .directory) := by
  induction front generalizing start with
  | nil => exact ⟨start, rfl⟩
  | cons part more ih =>
      obtain ⟨next, hnext⟩ := enters_of_walk h
      rw [List.cons_append, hnext.walk] at h
      obtain ⟨middle, hmiddle⟩ := ih h
      exact ⟨middle, by rw [hnext.walk, hmiddle]⟩

/-- A walk that begins in a directory tells what stands where it ends. -/
theorem node?_of_walk {start place : Place} {parts : List String} {node : Option Node}
    (hstart : t.node? start = some .directory) (h : t.walk start parts = .ok (place, node)) :
    t.node? place = node := by
  induction parts generalizing start with
  | nil =>
      obtain ⟨rfl, rfl⟩ := Prod.mk.inj (Except.ok.inj h)
      exact hstart
  | cons part rest ih =>
      rcases enters_or_ends h with ⟨next, hnext⟩ | ⟨hends, rfl⟩
      · rw [hnext.walk] at h
        exact ih (hnext.node? hstart) h
      · exact hends.found

/-- Empty parts lead nowhere else. -/
theorem walk_empty {parts : List String} (h : parts.all (·.isEmpty) = true) (start : Place) :
    t.walk start parts = .ok (start, some .directory) := by
  induction parts with
  | nil => rfl
  | cons part rest ih =>
      rw [List.all_cons, Bool.and_eq_true, String.isEmpty_iff] at h
      obtain ⟨rfl, hrest⟩ := h
      rw [(Enters.here (t := t) (by decide)).walk, ih hrest]

/-! ## Walks in other trees -/

/-- The directories of the one tree are directories in the other one, and one of them is the current
one in both. -/
structure KeepsDirectories (t t' : Tree) : Prop where
  current : t'.current = t.current
  directory : ∀ place, t.node? place = some .directory → t'.node? place = some .directory

/-- Where directories are kept, so are the ways to them. -/
theorem walk_mono {t' : Tree} (hkeeps : t.KeepsDirectories t') {start place : Place}
    {parts : List String} (h : t.walk start parts = .ok (place, some .directory)) :
    t'.walk start parts = .ok (place, some .directory) := by
  induction parts generalizing start with
  | nil => exact h
  | cons part rest ih =>
      obtain ⟨next, henters⟩ := enters_of_walk h
      rw [henters.walk] at h
      have henters' : t'.Enters start part next := by
        cases henters with
        | here hhere => exact .here hhere
        | next hpart hbytes hnode => exact .next hpart hbytes (hkeeps.directory _ hnode)
      rw [henters'.walk, ih h]

/-- Every way begins in a directory. -/
theorem node?_start (t : Tree) (path : String) : t.node? (t.start path) = some .directory := by
  have habove : t.isAbove (t.start path) = true := by
    rw [isAbove, start, List.isPrefixOf_iff_prefix]
    split
    · exact List.nil_prefix
    · exact List.prefix_refl _
  rw [Tree.node?, if_pos habove]

/-- A path with a slash in front is another one. It names the same file only if it goes on by way of
the current directory. -/
example : let t := ({} : Tree).withNode ["in.json"] (.file [0x7B, 0x7D])
    t.read "in.json" = .ok [0x7B, 0x7D] ∧ t.read "/in.json" = .error .missing ∧
      t.read "/home/user/work/in.json" = .ok [0x7B, 0x7D] := by
  decide +kernel

theorem KeepsDirectories.start_eq {t' : Tree} (h : t.KeepsDirectories t') (path : String) :
    t'.start path = t.start path := by
  rw [start, start, h.current]

/-- A path that goes on begins where it began. -/
theorem start_append {front : List Char} (h : front ≠ []) (rest : List Char) (t : Tree) :
    t.start (String.ofList (front ++ rest)) = t.start (String.ofList front) := by
  obtain ⟨c, more, rfl⟩ := List.exists_cons_of_ne_nil h
  rw [start, start, String.toList_ofList, String.toList_ofList]
  rfl

/-- A part of the path of a directory, or all of it, leads to the place. -/
def LeadsTo (t : Tree) (directory : String) (place : Place) : Prop :=
  ∃ front, front <+: partsOf directory ∧
    t.walk (t.start directory) front = .ok (place, some .directory)

theorem LeadsTo.mono {t' : Tree} (hkeeps : t.KeepsDirectories t') {directory : String}
    {place : Place} (h : t.LeadsTo directory place) : t'.LeadsTo directory place := by
  obtain ⟨front, hfront, hwalk⟩ := h
  exact ⟨front, hfront, by rw [hkeeps.start_eq, walk_mono hkeeps hwalk]⟩

theorem LeadsTo.node? {directory : String} {place : Place} (h : t.LeadsTo directory place) :
    t.node? place = some .directory := by
  obtain ⟨front, _, hwalk⟩ := h
  exact node?_of_walk (node?_start t directory) hwalk

/-! ## Names -/

theorem checkPath_eq_ok_iff {path : String} : checkPath path = .ok () ↔
    Text.HasBytes path ∧ '\x00' ∉ path.toList ∧ path ≠ "" ∧
      Text.Utf8.byteCount path ≤ mostPathBytes := by
  rw [checkPath, ← Text.Utf8.characters_eq_ok_iff]
  cases Text.Utf8.characters path with
  | error fault => exact ⟨fun h => absurd h (by simp [bind, Except.bind, Except.mapError]), by simp⟩
  | ok cs =>
      show (if _ then _ else _ : Except Problem Unit) = _ ↔ _
      split
      · rename_i hnull
        rw [List.contains_iff_mem] at hnull
        exact ⟨fun h => absurd h (by simp), fun h => absurd hnull h.2.1⟩
      · rename_i hnull
        rw [List.contains_iff_mem] at hnull
        split
        · rename_i hempty
          rw [String.isEmpty_iff] at hempty
          exact ⟨fun h => absurd h (by simp), fun h => absurd hempty h.2.2.1⟩
        · rename_i hempty
          rw [String.isEmpty_iff] at hempty
          split
          · rename_i hlong
            exact ⟨fun h => absurd h (by simp), fun h => absurd h.2.2.2 (Nat.not_le.mpr hlong)⟩
          · rename_i hshort
            exact ⟨fun _ => ⟨⟨cs, rfl⟩, hnull, hempty, Nat.le_of_not_lt hshort⟩, fun _ => rfl⟩

theorem locate_eq {path : String} {r : Place × Option Node} : t.locate path = .ok r ↔
    checkPath path = .ok () ∧ t.walk (t.start path) (partsOf path) = .ok r := by
  rw [locate]
  cases checkPath path with
  | error e =>
      exact ⟨fun h => absurd h (by simp [bind, Except.bind]), fun h => absurd h.1 (by simp)⟩
  | ok u => exact ⟨fun h => ⟨rfl, h⟩, fun h => h.2⟩

/-- Where directories are kept, paths lead to them as before. -/
theorem KeepsDirectories.locate {t' : Tree} (hkeeps : t.KeepsDirectories t') {path : String}
    {place : Place} (h : t.locate path = .ok (place, some .directory)) :
    t'.locate path = .ok (place, some .directory) := by
  obtain ⟨hcheck, hwalk⟩ := locate_eq.mp h
  exact locate_eq.mpr ⟨hcheck, by rw [hkeeps.start_eq, walk_mono hkeeps hwalk]⟩

theorem isDirectory_iff {path : String} :
    t.isDirectory path = true ↔ ∃ place, t.locate path = .ok (place, some .directory) := by
  rw [isDirectory]
  constructor
  · intro h
    split at h
    · rename_i place hlocate
      exact ⟨place, hlocate⟩
    · exact absurd h (by simp)
  · intro h
    obtain ⟨place, hlocate⟩ := h
    rw [hlocate]

/-- The front of a path, cut off where a part of it ends. -/
structure IsFront (front rest : List Char) : Prop where
  nonempty : front ≠ []
  /-- The rest begins with a slash, or there is nothing but slashes before it. -/
  cut : rest = [] ∨ rest.head? = some '/' ∨ ∀ c ∈ front, c = '/'

theorem partsOf_slashes {cs : List Char} (h : ∀ c ∈ cs, c = '/') :
    (partsOf (String.ofList cs)).all (·.isEmpty) = true := by
  induction cs with
  | nil => rfl
  | cons c rest ih =>
      obtain ⟨rfl, hrest⟩ := List.forall_mem_cons.mp h
      have hparts : partsOf (String.ofList ('/' :: rest)) =
          "" :: partsOf (String.ofList rest) := partsOf_append_slash [] rest
      rw [hparts, List.all_cons, ih hrest]
      rfl

theorem checkPath_front {front rest : List Char} (hne : front ≠ [])
    (h : checkPath (String.ofList (front ++ rest)) = .ok ()) :
    checkPath (String.ofList front) = .ok () := by
  obtain ⟨hbytes, hnull, _, hshort⟩ := checkPath_eq_ok_iff.mp h
  rw [String.toList_ofList] at hnull
  refine checkPath_eq_ok_iff.mpr ⟨hbytes.front, ?_, ?_,
    Nat.le_trans (Text.byteCount_front_le front rest) hshort⟩
  · rw [String.toList_ofList]
    exact fun hmem => hnull (List.mem_append_left rest hmem)
  · intro hempty
    have hnil := congrArg String.toList hempty
    rw [String.toList_ofList] at hnil
    exact hne hnil

/-- What stands in front in the path of a directory is a directory. -/
theorem isDirectory_front {front rest : List Char} (hfront : IsFront front rest)
    (h : t.isDirectory (String.ofList (front ++ rest)) = true) :
    t.isDirectory (String.ofList front) = true := by
  obtain ⟨place, hlocate⟩ := isDirectory_iff.mp h
  obtain ⟨hpath, hwalk⟩ := locate_eq.mp hlocate
  have hcheck := checkPath_front hfront.nonempty hpath
  rcases hfront.cut with rfl | hrest | hslashes
  · rwa [List.append_nil] at h
  · obtain ⟨more, rfl⟩ := List.head?_eq_some_iff.mp hrest
    rw [start_append hfront.nonempty, partsOf_append_slash] at hwalk
    obtain ⟨middle, hmiddle⟩ := walk_front hwalk
    exact isDirectory_iff.mpr ⟨middle, locate_eq.mpr ⟨hcheck, hmiddle⟩⟩
  · exact isDirectory_iff.mpr ⟨_, locate_eq.mpr ⟨hcheck, walk_empty (partsOf_slashes hslashes) _⟩⟩

end Tree

/-! ## Paths taken apart -/

/-- Without slashes at its end a path is a front of it, also where it goes on with a slash. -/
theorem isFront_dropSlashes {reversed rest : List Char} (hne : reversed ≠ [])
    (hrest : rest = [] ∨ reversed.head? = some '/') :
    ∃ rest', reversed.reverse ++ rest = (dropSlashes reversed).reverse ++ rest' ∧
      Tree.IsFront (dropSlashes reversed).reverse rest' := by
  rw [dropSlashes]
  split
  · rename_i hall
    refine ⟨rest, rfl, by simpa using hne, .inr (.inr fun c hc => ?_)⟩
    simpa using List.all_eq_true.mp hall c (List.mem_reverse.mp hc)
  · rename_i hall
    obtain ⟨slashes, hslashes⟩ : ∃ slashes, reversed.takeWhile (· = '/') = slashes := ⟨_, rfl⟩
    have hsplit : reversed = slashes ++ reversed.dropWhile (· = '/') := by
      rw [← hslashes, List.takeWhile_append_dropWhile]
    refine ⟨slashes.reverse ++ rest, ?_, ?_, ?_⟩
    · rw [← List.append_assoc, ← List.reverse_append, ← hsplit]
    · intro hnil
      rw [List.reverse_eq_nil_iff.mp hnil, List.append_nil, ← hslashes] at hsplit
      exact hall (hsplit ▸ List.all_takeWhile)
    · rcases List.eq_nil_or_concat slashes with rfl | ⟨front, c, rfl⟩
      · -- without a slash at its end, the path does not go on
        refine .inl ?_
        rcases hrest with rfl | hhead
        · rfl
        · obtain ⟨more, rfl⟩ := List.head?_eq_some_iff.mp hhead
          exact absurd hslashes (by simp)
      · have hc : c = '/' := by
          have hmem : c ∈ reversed.takeWhile (· = '/') := hslashes ▸ by simp
          simpa using List.all_eq_true.mp List.all_takeWhile c hmem
        refine .inr (.inl ?_)
        rw [hc]
        simp

/-- The path without slashes at its end is a front of it. -/
theorem isFront_withoutSlashes {path : List Char} (h : path ≠ []) :
    ∃ front rest, withoutSlashes (String.ofList path) = String.ofList front ∧
      path = front ++ rest ∧ Tree.IsFront front rest := by
  have hrev : path.reverse ≠ [] := by simpa using h
  obtain ⟨rest, hpath, hfront⟩ := isFront_dropSlashes hrev (.inl (rfl : ([] : List Char) = []))
  rw [List.reverse_reverse, List.append_nil] at hpath
  exact ⟨_, rest, by rw [withoutSlashes, String.toList_ofList], hpath, hfront⟩

/-- What stands before the last part of a path, if there is something, is a front of it. -/
theorem isFront_parent {path : List Char} (h : (split path).parent ≠ []) :
    ∃ rest, path = (split path).parent ++ rest ∧ Tree.IsFront (split path).parent rest := by
  obtain ⟨reversed, hreversed⟩ : ∃ r, path.reverse.dropWhile (· = '/') = r := ⟨_, rfl⟩
  obtain ⟨before, hbefore⟩ : ∃ b, reversed.dropWhile (· ≠ '/') = b := ⟨_, rfl⟩
  have hparent : (split path).parent = (dropSlashes before).reverse := by
    rw [split, hreversed, ← hbefore]
  have hne : before ≠ [] := by
    rintro rfl
    rw [hparent] at h
    exact h rfl
  have hhead : before.head? = some '/' := by
    obtain ⟨c, more, rfl⟩ := List.exists_cons_of_ne_nil hne
    have hnot := List.head?_dropWhile_not (fun c : Char => decide (c ≠ '/')) reversed
    rw [hbefore] at hnot
    have hc : c = '/' := by simpa using hnot
    rw [hc]
    rfl
  -- the path is what stands before its last part, that part, and the slashes at its end
  have hpath : path = before.reverse ++ ((reversed.takeWhile (· ≠ '/')).reverse ++
      (path.reverse.takeWhile (· = '/')).reverse) := by
    have hwhole : path.reverse = path.reverse.takeWhile (· = '/') ++
        (reversed.takeWhile (· ≠ '/') ++ before) := by
      rw [← hbefore, List.takeWhile_append_dropWhile, ← hreversed,
        List.takeWhile_append_dropWhile]
    have hback := congrArg List.reverse hwhole
    rw [List.reverse_reverse, List.reverse_append, List.reverse_append, List.append_assoc] at hback
    exact hback
  obtain ⟨rest, hsplit, hfront⟩ := isFront_dropSlashes hne (.inr hhead)
  rw [hparent]
  exact ⟨rest, hpath.trans hsplit, hfront⟩

end NativeBindings.Files
