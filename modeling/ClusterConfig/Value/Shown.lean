import ClusterConfig.Namespace

/-!
# Values in diagnostics

The text that shows a value with its kind, as diagnostics print it: the kind, then its content between brackets.
-/

namespace ClusterConfig

/-- Texts between a comma and a blank. -/
def commaSeparated (parts : List String) : String := String.intercalate ", " parts

namespace Value

mutual

/-- A value with its kind. -/
def shown : Value → String
  | null => "Null"
  | bool b => "Bool(" ++ toString b ++ ")"
  | number n => "Number(Number(" ++ n.text ++ "))"
  | string s => "String(" ++ Text.Quoted.string s ++ ")"
  | path p => "Path(" ++ p.quoted ++ ")"
  | seq items => "Seq([" ++ commaSeparated (shownItems items) ++ "])"
  | map entries => "Map(Namespace \x7b entries: \x7b" ++ commaSeparated (shownEntries entries) ++ "\x7d \x7d)"

/-- The elements of a sequence. -/
def shownItems : List Value → List String
  | [] => []
  | v :: rest => shown v :: shownItems rest

/-- The entries of a namespace. -/
def shownEntries : List (String × Value) → List String
  | [] => []
  | (k, v) :: rest => (Text.Quoted.string k ++ ": " ++ shown v) :: shownEntries rest

end

end Value

/-- A namespace with its entries. -/
def Namespace.shown (ns : Namespace) : String :=
  "Namespace \x7b entries: \x7b" ++ commaSeparated (Value.shownEntries ns.entries) ++ "\x7d \x7d"

end ClusterConfig
