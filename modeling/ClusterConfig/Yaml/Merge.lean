import ClusterConfig.Yaml.Node

/-!
# Merge keys

An entry under the key `<<` merges other mappings into the mapping it stands in. The entry is taken out, the last entry of the
mapping moving into its place, and the entries of the merged mappings whose keys are missing go to the end; the first of several
merged mappings wins. A mapping is expanded before the mappings inside it, and those inside the last entry first. A `<<` that a
merge brings in is an ordinary entry.
-/

namespace ClusterConfig.Yaml

/-- What cannot stand under a merge key. -/
inductive MergeFault where
  | scalar
  | scalarElement
  | sequenceElement
  | tag
  deriving DecidableEq, Repr

namespace MergeFault

/-- The fault in words. -/
def message : MergeFault → String
  | scalar => "expected a mapping or list of mappings for merging, but found scalar"
  | scalarElement => "expected a mapping for merging, but found scalar"
  | sequenceElement => "expected a mapping for merging, but found sequence"
  | tag => "unexpected tagged value in merge"

end MergeFault

namespace Node

/-- The key that merges. -/
def mergeKey : Node := .string "<<"

/-- Entries without the first one under a key, the last entry in its place, and the value that stood there. -/
def swapRemove (key : Node) : List (Node × Node) → Option (Node × List (Node × Node))
  | [] => none
  | (k, v) :: rest =>
    if key.same k then
      some (v, match rest.getLast? with
        | some last => last :: rest.dropLast
        | none => [])
    else (swapRemove key rest).map fun found => (found.1, (k, v) :: found.2)

/-- Entries with those of a merged mapping whose keys are missing put at the end. -/
def addMissing (entries merged : List (Node × Node)) : List (Node × Node) :=
  merged.foldl (fun es e => if (lookup e.1 es).isSome then es else es ++ [e]) entries

/-- The mappings that a list under a merge key names, up to the first element that is none. -/
def mergeList : List Node → Except MergeFault (List (List (Node × Node)))
  | [] => .ok []
  | map entries :: rest => (mergeList rest).map (entries :: ·)
  | seq _ :: _ => .error .sequenceElement
  | tagged _ _ :: _ => .error .tag
  | _ :: _ => .error .scalarElement

/-- The mappings that the value of a merge entry names. -/
def mergeSources : Node → Except MergeFault (List (List (Node × Node)))
  | map entries => .ok [entries]
  | seq items => mergeList items
  | tagged _ _ => .error .tag
  | _ => .error .scalar

/-- The entries of one mapping after its own merge entry is expanded. -/
def mergeEntries (entries : List (Node × Node)) : Except MergeFault (List (Node × Node)) :=
  match swapRemove mergeKey entries with
  | none => .ok entries
  | some (value, rest) => (mergeSources value).map fun sources => sources.foldl addMissing rest

mutual

/-- How deep the tree is nested; a scalar has depth one. -/
def depth : Node → Nat
  | seq items => depthItems items + 1
  | map entries => depthEntries entries + 1
  | tagged _ node => depth node + 1
  | _ => 1

/-- The depth of the deepest element. -/
def depthItems : List Node → Nat
  | [] => 0
  | n :: rest => max (depth n) (depthItems rest)

/-- The depth of the deepest value of an entry. -/
def depthEntries : List (Node × Node) → Nat
  | [] => 0
  | (_, v) :: rest => max (depth v) (depthEntries rest)

end

/-- A list with a function used on every element, the last one first, so that its fault comes first. -/
def mapFromLast {α β ε : Type} (f : α → Except ε β) : List α → Except ε (List β)
  | [] => .ok []
  | x :: xs => do
    let ys ← mapFromLast f xs
    let y ← f x
    return y :: ys

/-- Expand the merge entries of a tree, down to the given depth. -/
def expandTo : Nat → Node → Except MergeFault Node
  | 0, node => .ok node
  | fuel + 1, node =>
    match node with
    | map entries => do
      let merged ← mergeEntries entries
      let values ← mapFromLast (fun e => do return (e.1, ← expandTo fuel e.2)) merged
      return map values
    | seq items => return seq (← mapFromLast (expandTo fuel) items)
    | tagged tag inner => return tagged tag (← expandTo fuel inner)
    | node => .ok node

/-- The tree with every merge entry expanded. A merged mapping is never deeper than where it came from, so the depth of the tree
bounds the walk. -/
def expandMerges (node : Node) : Except MergeFault Node := expandTo node.depth node

end Node

end ClusterConfig.Yaml
