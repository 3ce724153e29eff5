import ClusterConfig.Yaml.ScalarText

/-!
# Writing a tree

Collections are written in blocks, one item or entry a line, two columns deeper for each level; a sequence under a key is not
indented. Empty collections are written in brackets. A key that is long or has several lines gets a sign of its own before it.
Tags are not written.
-/

namespace ClusterConfig.Yaml

namespace Layout

/-- Spaces up to a column. -/
def pad (n : Nat) : String := String.ofList (ScalarText.spaces n)

/-- Parts that each end a line, all but the first indented to a column. -/
def column (n : Nat) (parts : List String) : String := String.intercalate (pad n) parts

/-- A key on one line; none where it needs a sign of its own. -/
def simpleKey? : Node → Option String
  | .null => some "null"
  | .bool b => some (toString b)
  | .number n => some n.text
  | .string s => if ScalarText.isSimpleKey s then some (ScalarText.key s) else none
  | _ => none

mutual

/-- A tree from a column on, with the line breaks after it. -/
def block (n : Nat) : Node → String
  | .null => "null\n"
  | .bool b => toString b ++ "\n"
  | .number x => x.text ++ "\n"
  | .string s => ScalarText.line n s
  | .seq items => if items.isEmpty then "[]\n" else column n (itemLines n items)
  | .map entries => if entries.isEmpty then "\x7b\x7d\n" else column n (entryLines n entries)
  | .tagged _ node => block n node

/-- The items of a sequence that stands at a column. -/
def itemLines (n : Nat) : List Node → List String
  | [] => []
  | item :: rest => ("- " ++ block (n + 2) item) :: itemLines n rest

/-- The entries of a mapping that stands at a column. -/
def entryLines (n : Nat) : List (Node × Node) → List String
  | [] => []
  | (k, v) :: rest =>
    (match simpleKey? k with
      | some key => key ++ ":" ++ afterKey n v
      | none => "? " ++ block (n + 2) k ++ pad n ++ ": " ++ block (n + 2) v) :: entryLines n rest

/-- The value after a key on one line, in a mapping that stands at a column. -/
def afterKey (n : Nat) : Node → String
  | .seq items => if items.isEmpty then " []\n" else "\n" ++ pad n ++ column n (itemLines n items)
  | .map entries =>
    if entries.isEmpty then " \x7b\x7d\n" else "\n" ++ pad (n + 2) ++ column (n + 2) (entryLines (n + 2) entries)
  | .tagged _ node => afterKey n node
  | .null => " null\n"
  | .bool b => " " ++ toString b ++ "\n"
  | .number x => " " ++ x.text ++ "\n"
  | .string s => " " ++ ScalarText.line (n + 2) s

end

end Layout

/-- The text of a tree as a document. Further lines of a lone text are indented like those of an entry. -/
def write : Node → String
  | .string s => ScalarText.line 2 s
  | node => Layout.block 0 node

end ClusterConfig.Yaml
