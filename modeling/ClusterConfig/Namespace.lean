import ClusterConfig.Value

/-!
# Namespaces

An insertion-ordered map. A new key goes to the end, a replaced one keeps its place, and removal keeps the order of the others.
Reading treats an entry that holds null as missing; `getRaw?` tells the two apart.
-/

namespace ClusterConfig

namespace Namespace

/-- The namespace without entries. -/
def empty : Namespace := ⟨[]⟩

/-- The keys in order. -/
def keys (ns : Namespace) : List String := ns.entries.map Prod.fst

/-- The values in order. -/
def values (ns : Namespace) : List Value := ns.entries.map Prod.snd

/-- How many entries there are. -/
def size (ns : Namespace) : Nat := ns.entries.length

/-- The stored value, explicit nulls included. -/
def getRaw? (ns : Namespace) (key : String) : Option Value := ns.entries.lookup key

/-- The stored value, unless it is null. -/
def get? (ns : Namespace) (key : String) : Option Value := (ns.getRaw? key).filter fun v => !v.isNull

/-- The text stored under a key. -/
def getString? (ns : Namespace) (key : String) : Option String := (ns.get? key).bind Value.asString?

/-- The key has an entry, null or not. -/
def contains (ns : Namespace) (key : String) : Bool := (ns.getRaw? key).isSome

/-- Entries with a value put under a key: in its place if it is there, at the end otherwise. -/
def put (key : String) (value : Value) : List (String × Value) → List (String × Value)
  | [] => [(key, value)]
  | (k, v) :: rest => if k = key then (k, value) :: rest else (k, v) :: put key value rest

/-- The namespace with a value put under a key. -/
def insert (ns : Namespace) (key : String) (value : Value) : Namespace := ⟨put key value ns.entries⟩

/-- Entries without those under a key. -/
def drop (key : String) (entries : List (String × Value)) : List (String × Value) :=
  entries.filter fun e => e.1 != key

/-- The namespace without a key. -/
def erase (ns : Namespace) (key : String) : Namespace := ⟨drop key ns.entries⟩

/-- The value under a key changed in place, if there is one. -/
def modify (ns : Namespace) (key : String) (f : Value → Value) : Namespace :=
  ⟨ns.entries.map fun e => if e.1 = key then (e.1, f e.2) else e⟩

/-- All values changed in place. -/
def mapValues (ns : Namespace) (f : Value → Value) : Namespace := ⟨ns.entries.map fun e => (e.1, f e.2)⟩

/-- All values changed in place, in view of their keys. -/
def mapEntries (ns : Namespace) (f : String → Value → Value) : Namespace :=
  ⟨ns.entries.map fun e => (e.1, f e.1 e.2)⟩

/-- The namespace collected from pairs: each is inserted in turn. -/
def ofPairs (pairs : List (String × Value)) : Namespace :=
  pairs.foldl (fun ns e => ns.insert e.1 e.2) empty

/-- The entries collected again in reverse order. -/
def reversed (ns : Namespace) : Namespace := ofPairs ns.entries.reverse

end Namespace

end ClusterConfig
