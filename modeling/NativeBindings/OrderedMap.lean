/-!
# Maps that remember the order of arrival

Known symbols, typedefs, counts and documents are all looked up by key and all written out in the
order in which their keys first arrived. Writing to a key that is present changes its value and
leaves the key as it arrived, and in its place. Keys are the same if they compare as such, even if
they were written in different ways.
-/

namespace NativeBindings

universe u v

/-- A map whose entries stand in the order in which their keys first arrived. -/
structure OrderedMap (α : Type u) (β : Type v) where
  entries : List (α × β)
  deriving Repr, DecidableEq

namespace OrderedMap

variable {α : Type u} {β : Type v}

/-- The map without entries. -/
def empty : OrderedMap α β := ⟨[]⟩

instance : EmptyCollection (OrderedMap α β) := ⟨empty⟩

instance : Inhabited (OrderedMap α β) := ⟨empty⟩

/-- The keys, in order of arrival. -/
def keys (m : OrderedMap α β) : List α := m.entries.map (·.1)

/-- How many keys have a value. -/
def size (m : OrderedMap α β) : Nat := m.entries.length

variable [BEq α]

/-- The value of a key, if it has one. -/
def get? (m : OrderedMap α β) (k : α) : Option β :=
  (m.entries.find? fun e => e.1 == k).map (·.2)

/-- Whether a key has a value. -/
def contains (m : OrderedMap α β) (k : α) : Bool :=
  m.keys.any (· == k)

/-- Entries with the value of `k` set; a new key goes to the end. -/
def insertEntry (k : α) (v : β) : List (α × β) → List (α × β)
  | [] => [(k, v)]
  | e :: rest => if e.1 == k then (e.1, v) :: rest else e :: insertEntry k v rest

/-- Sets the value of a key. -/
def insert (m : OrderedMap α β) (k : α) (v : β) : OrderedMap α β :=
  ⟨insertEntry k v m.entries⟩

/-- Sets the value of a key unless it has one. -/
def insertIfNew (m : OrderedMap α β) (k : α) (v : β) : OrderedMap α β :=
  if m.contains k then m else ⟨m.entries ++ [(k, v)]⟩

/-- Sets the values of several keys, one after the other. -/
def insertMany (m : OrderedMap α β) (es : List (α × β)) : OrderedMap α β :=
  es.foldl (fun m e => m.insert e.1 e.2) m

/-- The map that arises when the entries arrive one after the other. -/
def ofList (es : List (α × β)) : OrderedMap α β :=
  empty.insertMany es

end OrderedMap

end NativeBindings
