/-!
# What makes a text no document

The causes that reading a document can fail for, and their wording.
-/

namespace ClusterConfig.Yaml

/-- What makes a text no YAML document. -/
inductive SyntaxFault where
  | unreadableCharacter
  | unexpectedCharacter
  | badDirective
  | badTag
  | badAnchor
  | badBlockHeader
  | badEscape
  | tabAsIndentation
  | unclosedQuote
  | documentMarkInQuotes
  | ambiguousColon
  | missingColon
  | misplacedEntry
  | misplacedKey
  | misplacedValue
  | unknownTagHandle
  | unexpectedToken
  | secondDocument
  | unknownAnchor
  | tooDeep
  | tooManyAliases
  | duplicateKey
  | unusableScalar
  deriving DecidableEq, Repr

namespace SyntaxFault

/-- The fault in words. -/
def message : SyntaxFault → String
  | unreadableCharacter => "a character that no document may hold"
  | unexpectedCharacter => "a character that starts nothing"
  | badDirective => "a directive that cannot be read"
  | badTag => "a tag that cannot be read"
  | badAnchor => "an anchor or alias without a proper name"
  | badBlockHeader => "a block scalar with a bad header"
  | badEscape => "an unknown escape in a quoted scalar"
  | tabAsIndentation => "a tab that stands for indentation"
  | unclosedQuote => "a quoted scalar that does not end"
  | documentMarkInQuotes => "a document mark inside a quoted scalar"
  | ambiguousColon => "a colon that may or may not end a key"
  | missingColon => "a key without a colon"
  | misplacedEntry => "a sequence entry where none may start"
  | misplacedKey => "a mapping key where none may start"
  | misplacedValue => "a mapping value where none may start"
  | unknownTagHandle => "a tag with an unknown handle"
  | unexpectedToken => "a structure that does not fit together"
  | secondDocument => "more than one document"
  | unknownAnchor => "an alias without an anchor before it"
  | tooDeep => "collections nested too deeply"
  | tooManyAliases => "too many repetitions by aliases"
  | duplicateKey => "a key that stands twice in a mapping"
  | unusableScalar => "a scalar that is not what its tag says, or too large a number"

end SyntaxFault

end ClusterConfig.Yaml
