import ClusterConfig.Number
import ClusterConfig.Text.Quoted

/-!
# YAML trees

What a YAML document stands for: scalars already told apart by type, sequences, mappings whose keys are trees, and trees under a
local tag. The keys of a mapping are distinct in the sense of `Node.same`, which disregards the order of entries.
-/

namespace ClusterConfig.Yaml

/-- A YAML tree. -/
inductive Node where
  | null
  | bool (b : Bool)
  | number (n : Number)
  | string (s : String)
  | seq (items : List Node)
  | map (entries : List (Node × Node))
  /-- A tree under a local tag, which is named without its mark. -/
  | tagged (tag : String) (node : Node)
  deriving Inhabited

namespace Node

mutual

/-- The two trees mean the same. -/
def same : Node → Node → Bool
  | null, null => true
  | bool a, bool b => a == b
  | number a, number b => a.same b
  | string a, string b => a == b
  | seq xs, seq ys => sameItems xs ys
  | map es, map fs => es.length == fs.length && foundIn es fs
  | tagged s a, tagged t b => s == t && same a b
  | _, _ => false

/-- Sequences of the same length with the same elements in order. -/
def sameItems : List Node → List Node → Bool
  | [], [] => true
  | x :: xs, y :: ys => same x y && sameItems xs ys
  | _, _ => false

/-- Every entry of the first mapping has one in the second with the same key and value. -/
def foundIn : List (Node × Node) → List (Node × Node) → Bool
  | [], _ => true
  | (k, v) :: es, fs => fs.any (fun f => same k f.1 && same v f.2) && foundIn es fs

end

/-- The value of the entry whose key means the same. -/
def lookup (key : Node) (entries : List (Node × Node)) : Option Node :=
  (entries.find? fun e => key.same e.1).map Prod.snd

/-- Entries with a value put under a key: in its place if it is there, at the end otherwise. -/
def put (key value : Node) : List (Node × Node) → List (Node × Node)
  | [] => [(key, value)]
  | (k, v) :: rest => if key.same k then (k, value) :: rest else (k, v) :: put key value rest

/-- A mapping made of pairs, each put in turn. -/
def ofPairs (pairs : List (Node × Node)) : Node :=
  map (pairs.foldl (fun entries e => put e.1 e.2 entries) [])

/-- A local tag without its mark. The mark alone is a tag of that name. -/
def tagName (tag : String) : String :=
  match tag.toList with
  | '!' :: c :: cs => String.ofList (c :: cs)
  | cs => String.ofList cs

mutual

/-- A tree with its kinds, for diagnostics. -/
def shown : Node → String
  | null => "Null"
  | bool b => "Bool(" ++ toString b ++ ")"
  | number n => "Number(" ++ n.text ++ ")"
  | string s => "String(" ++ Text.Quoted.string s ++ ")"
  | seq items => "Sequence [" ++ String.intercalate ", " (shownItems items) ++ "]"
  | map entries => "Mapping \x7b" ++ String.intercalate ", " (shownEntries entries) ++ "\x7d"
  | tagged tag node => "TaggedValue \x7b tag: !" ++ tag ++ ", value: " ++ shown node ++ " \x7d"

/-- The elements of a sequence. -/
def shownItems : List Node → List String
  | [] => []
  | n :: rest => shown n :: shownItems rest

/-- The entries of a mapping; a scalar key other than null goes without its kind. -/
def shownEntries : List (Node × Node) → List String
  | [] => []
  | (k, v) :: rest =>
    ((match k with
      | bool b => toString b
      | number n => n.text
      | string s => Text.Quoted.string s
      | k => shown k) ++ ": " ++ shown v) :: shownEntries rest

end

end Node

end ClusterConfig.Yaml
