import NativeBindings.Files.Access
import NativeBindings.OrderedMap
import NativeBindings.Text.Utf8

/-!
# A tree of files

Files and directories, by the names on the way to them from the root. One of the directories is the
current one, where the way of a path begins that has no slash in front. A tree gives access to files
without a file system, so that what the program does with files can be computed.
-/

namespace NativeBindings.Files

/-- What stands at a place in a tree. -/
inductive Node where
  | directory
  | file (bytes : List UInt8)
  deriving DecidableEq

/-- A place: the names on the way to it from the root. -/
abbrev Place := List String

/-- Files and directories, with the current directory. -/
structure Tree where
  current : Place := ["home", "user", "work"]
  nodes : OrderedMap Place Node := ∅

namespace Tree

/-- Whether a place is the current directory or on the way to it. -/
def isAbove (t : Tree) (place : Place) : Bool := place.isPrefixOf t.current

/-- What stands at a place. -/
def node? (t : Tree) (place : Place) : Option Node :=
  if t.isAbove place then some .directory else t.nodes.get? place

/-- The place that a part names, seen from a directory. The root is above itself. -/
def follow (directory : Place) (part : String) : Place :=
  if part = ".." then directory.dropLast else directory ++ [part]

/-- The most bytes that the name of a file or a directory can have. -/
def mostNameBytes : Nat := 255

/-- The most bytes that a path can have. -/
def mostPathBytes : Nat := 4095

/-- A path that can be gone along has bytes and no null characters, is not empty, and is not too
long. -/
def checkPath (path : String) : Except Problem Unit := do
  let _ ← (Text.Utf8.characters path).mapError .noBytes
  if path.toList.contains '\x00' then .error .noPath
  else if path.isEmpty then .error .missing
  else if mostPathBytes < Text.Utf8.byteCount path then .error .nameTooLong
  else .ok ()

/-- Goes along the parts of a path, from a directory on. Only at the end of the path may there be
nothing, or a file. -/
def walk (t : Tree) (directory : Place) :
    List String → Except Problem (Place × Option Node)
  | [] => .ok (directory, some .directory)
  | part :: rest =>
    if part = "" || part = "." then walk t directory rest
    else if mostNameBytes < Text.Utf8.byteCount part then .error .nameTooLong
    else
      let next := follow directory part
      match t.node? next with
      | some .directory => walk t next rest
      | some (.file bytes) =>
        if rest.isEmpty then .ok (next, some (.file bytes)) else .error .notDirectory
      | none => if rest.all (·.isEmpty) then .ok (next, none) else .error .missing

/-- Where the way of a path begins: at the root if there is a slash in front, else in the current
directory. -/
def start (t : Tree) (path : String) : Place :=
  if path.toList.head? = some '/' then [] else t.current

/-- The place that a path names, and what stands there. -/
def locate (t : Tree) (path : String) : Except Problem (Place × Option Node) := do
  checkPath path
  t.walk (t.start path) (partsOf path)

/-- The tree with something at a place. -/
def put (t : Tree) (place : Place) (node : Node) : Tree :=
  { t with nodes := t.nodes.insert place node }

/-- The bytes of a file. -/
def read (t : Tree) (path : String) : Except Problem (List UInt8) :=
  match t.locate path with
  | .error problem => .error problem
  | .ok (_, some (.file bytes)) => .ok bytes
  | .ok (_, some .directory) => .error .isDirectory
  | .ok (_, none) => .error .missing

/-- Whether a path names anything. -/
def isPresent (t : Tree) (path : String) : Bool :=
  match t.locate path with
  | .ok (_, some _) => true
  | _ => false

/-- Whether a path names a directory. -/
def isDirectory (t : Tree) (path : String) : Bool :=
  match t.locate path with
  | .ok (_, some .directory) => true
  | _ => false

/-- The tree with a new directory. Slashes at the end of its path are not looked at. -/
def makeDirectory (t : Tree) (path : String) : Except Problem Tree := do
  checkPath path
  match ← t.locate (withoutSlashes path) with
  | (_, some _) => .error .present
  | (place, none) => .ok (t.put place .directory)

/-- Writes a file, made new or in place of one that is there. Its text is encoded once it is open,
so one for which there are no bytes leaves it empty. -/
def write (t : Tree) (path text : String) : Except Problem Unit × Tree :=
  match t.locate path with
  | .error problem => (.error problem, t)
  | .ok (_, some .directory) => (.error .isDirectory, t)
  | .ok (place, _) =>
    match Text.Utf8.encode text with
    | .error fault => (.error (.noBytes fault), t.put place (.file []))
    | .ok bytes => (.ok (), t.put place (.file bytes))

instance : Access (StateM Tree) where
  read path := fun t => (t.read path, t)
  isPresent path := fun t => (t.isPresent path, t)
  isDirectory path := fun t => (t.isDirectory path, t)
  makeDirectory path := fun t =>
    match t.makeDirectory path with
    | .ok t => (.ok (), t)
    | .error problem => (.error problem, t)
  write path text := fun t => t.write path text

/-- The tree with something at a path from the current directory, and with the directories that lead
to it, for setting up. -/
def withNode (t : Tree) (names : List String) (node : Node) : Tree :=
  let leading := (List.range names.length).map fun n => (names.take n).foldl follow t.current
  let t := leading.foldl (fun t p => if (t.node? p).isSome then t else t.put p .directory) t
  t.put (names.foldl follow t.current) node

/-- The files below the current directory, by path. -/
def files (t : Tree) : List (String × List UInt8) :=
  t.nodes.entries.filterMap fun
    | (_, .directory) => none
    | (place, .file bytes) =>
      if t.current.isPrefixOf place then
        some ("/".intercalate (place.drop t.current.length), bytes)
      else none

end Tree

end NativeBindings.Files
