import ClusterConfig.Json
import ClusterConfig.Namespace
import ClusterConfig.Yaml.Node

/-!
# Values from and to trees

A YAML or JSON mapping becomes a namespace, through all nested mappings and sequences. A scalar YAML key becomes its text; an
entry under any other key is left out and reported. Tags carry no meaning and are dropped. In the other direction a value becomes
a YAML tree, a path its text; a path that has none cannot be written.
-/

namespace ClusterConfig

namespace Yaml.Node

/-- The text that a scalar key stands for, below its tags. -/
def keyText? : Node → Option String
  | string s => some s
  | number n => some n.text
  | bool b => some (toString b)
  | tagged _ node => keyText? node
  | _ => none

end Yaml.Node

namespace Value

open Yaml

mutual

/-- The value of a YAML tree. -/
def ofNode : Node → Value
  | .null => null
  | .bool b => bool b
  | .number n => number n
  | .string s => string s
  | .seq items => seq (ofNodes items)
  | .map entries => ofNamespace (Namespace.ofPairs (ofEntries entries))
  | .tagged _ node => ofNode node

/-- The values of the elements of a sequence. -/
def ofNodes : List Node → List Value
  | [] => []
  | n :: rest => ofNode n :: ofNodes rest

/-- The entries of a mapping under scalar keys. -/
def ofEntries : List (Node × Node) → List (String × Value)
  | [] => []
  | (k, v) :: rest =>
    match k.keyText? with
    | some key => (key, ofNode v) :: ofEntries rest
    | none => ofEntries rest

end

mutual

/-- The keys that conversion leaves out of a tree, in document order. -/
def skippedKeys : Node → List Node
  | .seq items => skippedInItems items
  | .map entries => skippedInEntries entries
  | .tagged _ node => skippedKeys node
  | _ => []

/-- The keys left out of the elements of a sequence. -/
def skippedInItems : List Node → List Node
  | [] => []
  | n :: rest => skippedKeys n ++ skippedInItems rest

/-- The keys left out of a mapping and of the values it keeps. -/
def skippedInEntries : List (Node × Node) → List Node
  | [] => []
  | (k, v) :: rest => (if k.keyText?.isSome then skippedKeys v else [k]) ++ skippedInEntries rest

end

mutual

/-- The value of a JSON tree. -/
def ofJson : Json → Value
  | .null => null
  | .bool b => bool b
  | .number n => number n.toNumber
  | .string s => string s
  | .array items => seq (ofJsons items)
  | .object members => ofNamespace (Namespace.ofPairs (ofMembers members))

/-- The values of the elements of an array. -/
def ofJsons : List Json → List Value
  | [] => []
  | j :: rest => ofJson j :: ofJsons rest

/-- The members of an object. -/
def ofMembers : List (String × Json) → List (String × Value)
  | [] => []
  | (k, j) :: rest => (k, ofJson j) :: ofMembers rest

end

mutual

/-- The tree that a value is written as, or the first path in document order that has no text. -/
def toNode : Value → Except Path Node
  | null => .ok .null
  | bool b => .ok (.bool b)
  | number n => .ok (.number n)
  | string s => .ok (.string s)
  | path p =>
    match p.text? with
    | some s => .ok (.string s)
    | none => .error p
  | seq items => (toNodes items).map .seq
  | map entries => (toEntries entries).map .map

/-- The trees of the elements of a sequence. -/
def toNodes : List Value → Except Path (List Node)
  | [] => .ok []
  | v :: rest => do return (← toNode v) :: (← toNodes rest)

/-- The entries of a mapping, under the same keys. -/
def toEntries : List (String × Value) → Except Path (List (Node × Node))
  | [] => .ok []
  | (k, v) :: rest => do return (.string k, ← toNode v) :: (← toEntries rest)

end

end Value

namespace Namespace

open Yaml

/-- The namespace of a YAML mapping. -/
def ofMapping (entries : List (Node × Node)) : Namespace := ofPairs (Value.ofEntries entries)

/-- The namespace of a JSON object. -/
def ofMembers (members : List (String × Json)) : Namespace := ofPairs (Value.ofMembers members)

/-- The mapping that a namespace is written as. -/
def toNode (ns : Namespace) : Except Path Node := Value.toNode (.map ns.entries)

end Namespace

end ClusterConfig
