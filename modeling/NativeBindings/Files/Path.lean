/-!
# Paths

A path is a text whose parts are separated by slashes. Slashes at its end and repeated slashes do
not matter for what it names, but a path is kept as it was written.
-/

namespace NativeBindings.Files

/-- The path of a name inside a directory. A name that begins with a slash is a path of its own. -/
def join (directory name : String) : String :=
  if name.toList.head? = some '/' then name
  else if directory.isEmpty || directory.toList.getLast? = some '/' then directory ++ name
  else directory ++ "/" ++ name

/-- The parts of a path, between its slashes. -/
def partsOf (path : String) : List String := (path.toList.splitOn '/').map String.ofList

/-- A path taken apart: what stands before the last part, without slashes at its end, and the last
part. -/
structure Split where
  parent : List Char
  name : List Char

/-- The characters of a reversed path without the slashes in front, unless it has nothing else. -/
def dropSlashes (reversed : List Char) : List Char :=
  if reversed.all (· = '/') then reversed else reversed.dropWhile (· = '/')

/-- The path without slashes at its end, unless it has nothing else. -/
def withoutSlashes (path : String) : String :=
  String.ofList (dropSlashes path.toList.reverse).reverse

/-- A path taken apart at its last part. Slashes at the end belong to neither half. -/
def split (path : List Char) : Split :=
  let reversed := path.reverse.dropWhile (· = '/')
  { parent := (dropSlashes (reversed.dropWhile (· ≠ '/'))).reverse
    name := (reversed.takeWhile (· ≠ '/')).reverse }

theorem length_dropSlashes_le (cs : List Char) : (dropSlashes cs).length ≤ cs.length := by
  unfold dropSlashes
  split
  · exact Nat.le_refl _
  · exact (List.dropWhile_sublist _).length_le

/-- What stands before the last part is shorter than the path. -/
theorem length_parent_lt {path : List Char} (h : (split path).name ≠ []) :
    (split path).parent.length < path.length := by
  simp only [split, ne_eq, List.reverse_eq_nil_iff] at h
  have hpos := List.length_pos_iff.mpr h
  have hsum := congrArg List.length
    (List.takeWhile_append_dropWhile (p := (· ≠ '/')) (l := path.reverse.dropWhile (· = '/')))
  have hall := (List.dropWhile_sublist (· = '/') (l := path.reverse)).length_le
  have hdrop := length_dropSlashes_le ((path.reverse.dropWhile (· = '/')).dropWhile (· ≠ '/'))
  simp only [List.length_append, List.length_reverse, ne_eq] at hsum hall hdrop
  simp only [split, List.length_reverse, ne_eq]
  omega

end NativeBindings.Files
