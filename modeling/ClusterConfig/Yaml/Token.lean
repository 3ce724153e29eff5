/-!
# Tokens

The pieces of YAML text that its grammar is about. Indentation has become tokens too: a block collection starts and ends with
one of its own.
-/

namespace ClusterConfig.Yaml

/-- How a scalar is written. -/
inductive ScalarStyle where
  | plain
  | singleQuoted
  | doubleQuoted
  | literal
  | folded
  deriving DecidableEq, Repr

/-- A scalar in the text of a document. -/
structure Scalar where
  text : String
  style : ScalarStyle
  deriving DecidableEq, Repr

/-- A token of a YAML text. Parts of tags are bytes, as their escapes need not be UTF-8. -/
inductive Token where
  | endOfText
  | version (major minor : Nat)
  | tagHandle (handle start : List UInt8)
  | documentStart
  | documentEnd
  | blockSequenceStart
  | blockMappingStart
  | blockEnd
  | flowSequenceStart
  | flowSequenceEnd
  | flowMappingStart
  | flowMappingEnd
  | entry
  | separator
  | key
  | value
  | alias (name : String)
  | anchor (name : String)
  | tag (handle suffix : List UInt8)
  | scalar (s : Scalar)
  deriving DecidableEq, Repr

end ClusterConfig.Yaml
