import ClusterConfig.Number
import ClusterConfig.Path

/-!
# Values of a cluster description

A value is a leaf, a sequence or a namespace. A namespace is an ordered list of entries under text keys; the operations of
`ClusterConfig.Namespace` keep its keys distinct. A path is a leaf of its own, which reads as text where its bytes have one.
-/

namespace ClusterConfig

/-- A value inside a namespace. -/
inductive Value where
  /-- Explicitly absent. -/
  | null
  | bool (b : Bool)
  | number (n : Number)
  | string (s : String)
  | path (p : Path)
  | seq (items : List Value)
  | map (entries : List (String × Value))
  deriving Inhabited

/-- An ordered map from field name to value. -/
structure Namespace where
  entries : List (String × Value)
  deriving Inhabited

namespace Value

/-- A nested namespace as a value. -/
def ofNamespace (ns : Namespace) : Value := .map ns.entries

/-- The value is explicitly absent. -/
def isNull : Value → Bool
  | null => true
  | _ => false

/-- The text of a string, or of a path that has one. -/
def asString? : Value → Option String
  | string s => some s
  | path p => p.text?
  | _ => none

/-- The truth value of a boolean. -/
def asBool? : Value → Option Bool
  | bool b => some b
  | _ => none

/-- A number in the range of signed words. -/
def asSigned? : Value → Option Int
  | number n => n.toSigned?
  | _ => none

/-- A number in the range of unsigned words. -/
def asUnsigned? : Value → Option Nat
  | number n => n.toUnsigned?
  | _ => none

/-- A number as a double. -/
def asBinary64? : Value → Option Binary64
  | number n => some n.toBinary64
  | _ => none

/-- A path, or the path written as a string. -/
def asPath? : Value → Option Path
  | path p => some p
  | string s => some (Path.ofString s)
  | _ => none

/-- The elements of a sequence. -/
def asSeq? : Value → Option (List Value)
  | seq items => some items
  | _ => none

/-- A nested namespace. -/
def asMap? : Value → Option Namespace
  | map entries => some ⟨entries⟩
  | _ => none

/-- The elements of a sequence changed one by one; any other value is left as it is. -/
def mapItems (f : Value → Value) : Value → Value
  | seq items => seq (items.map f)
  | v => v

/-- A nested namespace changed; any other value is left as it is. -/
def mapNamespace (f : Namespace → Namespace) : Value → Value
  | map entries => ofNamespace (f ⟨entries⟩)
  | v => v

end Value

end ClusterConfig
