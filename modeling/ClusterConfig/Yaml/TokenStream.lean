import ClusterConfig.Yaml.Property
import ClusterConfig.Yaml.Scalar.Block
import ClusterConfig.Yaml.Scalar.Plain
import ClusterConfig.Yaml.Scalar.Quoted

/-!
# From text to tokens

The text is read from left to right with a stack of indentations and, for every open flow collection, the place where a key
without a sign of its own may have started. Only a colon tells that it was a key, so the tokens before a key are remembered by
their number and spliced in at the end. Such a key stands on one line and is no longer than 1024 characters.
-/

namespace ClusterConfig.Yaml

/-- A place where a key may have started. -/
structure KeyStart where
  /-- The place must be a key: a block collection goes on at its column. -/
  required : Bool
  /-- The number of the token that starts the key. -/
  token : Nat
  line : Nat
  column : Nat
  index : Nat

/-- A key found later: the number of its first token, and whether a block mapping starts with it. -/
structure FoundKey where
  token : Nat
  opensMapping : Bool

/-- A found key put in its place among the others; keys of later tokens come first. -/
def FoundKey.insert (k : FoundKey) : List FoundKey → List FoundKey
  | [] => [k]
  | f :: rest => if k.token < f.token then f :: k.insert rest else k :: f :: rest

/-- How far a text is read. Lists are stacks with the newest first. -/
structure Reading where
  cursor : Cursor
  tokens : List Token
  count : Nat
  found : List FoundKey
  /-- The columns of the open block collections. -/
  indents : List Nat
  /-- The possible key of the block context and of each open flow collection. -/
  keyStarts : List (Option KeyStart)
  /-- A key may start here. -/
  keyAllowed : Bool

namespace Reading

/-- The start of a text. -/
def start (text : List Char) : Reading := ⟨Cursor.start text, [], 0, [], [], [none], true⟩

/-- Inside a flow collection. -/
def inFlow (r : Reading) : Bool := decide (1 < r.keyStarts.length)

/-- The least column of text that belongs to the innermost block collection. -/
def contentColumn (r : Reading) : Nat :=
  match r.indents with
  | [] => 0
  | i :: _ => i + 1

/-- A token put at the end. -/
def push (r : Reading) (t : Token) : Reading := { r with tokens := t :: r.tokens, count := r.count + 1 }

/-- A token that takes the given number of characters. -/
def pushSign (r : Reading) (t : Token) (length : Nat) : Reading :=
  { r.push t with cursor := r.cursor.advance length }

/-- Close the block collections that stand right of a column. -/
def closeTo (r : Reading) (column : Nat) : Reading :=
  if r.inFlow then r
  else
    let open_ := r.indents.takeWhile (column < ·)
    { r with
      tokens := List.replicate open_.length Token.blockEnd ++ r.tokens
      count := r.count + open_.length
      indents := r.indents.drop open_.length }

/-- Close all block collections. -/
def closeAll (r : Reading) : Reading :=
  if r.inFlow then r
  else
    { r with
      tokens := List.replicate r.indents.length Token.blockEnd ++ r.tokens
      count := r.count + r.indents.length
      indents := [] }

/-- A block collection would start at this column: it is right of the innermost one. -/
def opensAt (r : Reading) (column : Nat) : Bool := !r.inFlow && decide (r.contentColumn ≤ column)

/-- Start a block collection here, if its column says so. -/
def openHere (r : Reading) (t : Token) : Reading :=
  if r.opensAt r.cursor.column then { r.push t with indents := r.cursor.column :: r.indents } else r

/-- Give up the possible key of the innermost context. -/
def dropKey (r : Reading) : Except SyntaxFault Reading :=
  match r.keyStarts with
  | some k :: rest => if k.required then .error .missingColon else .ok { r with keyStarts := none :: rest }
  | _ => .ok r

/-- Remember this place as the start of a possible key. -/
def saveKey (r : Reading) : Except SyntaxFault Reading :=
  if !r.keyAllowed then .ok r
  else do
    let c := r.cursor
    let required := !r.inFlow && r.indents.head? == some c.column
    let r ← r.dropKey
    return { r with keyStarts := some ⟨required, r.count, c.line, c.column, c.index⟩ :: r.keyStarts.tail }

/-- A possible key after its line, or after the greatest length of a key. -/
def isStale (c : Cursor) (k : KeyStart) : Bool := decide (k.line < c.line) || decide (k.index + 1024 < c.index)

/-- Give up the possible keys that are too long by now. -/
def dropStale (r : Reading) : Except SyntaxFault Reading :=
  if r.keyStarts.any fun k => (k.map fun k => isStale r.cursor k && k.required).getD false then .error .missingColon
  else .ok { r with keyStarts := r.keyStarts.map fun k => k.filter fun k => !isStale r.cursor k }

/-- Past blanks, comments and line breaks, at most `fuel` lines. A byte order mark may start a line. In a block context a key may
start on a new line, and tabs only count as blanks where no key may start. -/
def skipGaps : Nat → Reading → Reading
  | 0, r => r
  | fuel + 1, r =>
    let tabs := r.inFlow || !r.keyAllowed
    let c := (r.cursor.skipMark.skipWhile fun ch => ch == ' ' || (tabs && ch == '\t')).skipComment
    match c.readBreak? with
    | some (_, next) => skipGaps fuel { r with cursor := next, keyAllowed := r.keyAllowed || !r.inFlow }
    | none => { r with cursor := c }

/-- A directive or a document mark: it ends all block collections. -/
def endBlocks (r : Reading) : Except SyntaxFault Reading := do
  let r ← r.closeAll.dropKey
  return { r with keyAllowed := false }

/-- A sign that opens a flow collection. -/
def openFlow (r : Reading) (t : Token) : Except SyntaxFault Reading := do
  let r ← r.saveKey
  return { r.pushSign t 1 with keyStarts := none :: r.keyStarts, keyAllowed := true }

/-- A sign that closes a flow collection. -/
def closeFlow (r : Reading) (t : Token) : Except SyntaxFault Reading := do
  let r ← r.dropKey
  return { r.pushSign t 1 with keyStarts := if r.inFlow then r.keyStarts.tail else r.keyStarts, keyAllowed := false }

/-- A comma. -/
def readSeparator (r : Reading) : Except SyntaxFault Reading := do
  let r ← r.dropKey
  return { r.pushSign .separator 1 with keyAllowed := true }

/-- The sign of a block sequence's entry. In a flow collection it is read too; the grammar refuses it there. -/
def readEntry (r : Reading) : Except SyntaxFault Reading :=
  if !r.inFlow && !r.keyAllowed then .error .misplacedEntry
  else do
    let r ← (r.openHere .blockSequenceStart).dropKey
    return { r.pushSign .entry 1 with keyAllowed := true }

/-- The sign of a key. -/
def readKey (r : Reading) : Except SyntaxFault Reading :=
  if !r.inFlow && !r.keyAllowed then .error .misplacedKey
  else do
    let r ← (r.openHere .blockMappingStart).dropKey
    return { r.pushSign .key 1 with keyAllowed := !r.inFlow }

/-- The sign of a value. If a key may have started before, it did, and with it perhaps a block mapping. -/
def readValue (r : Reading) : Except SyntaxFault Reading :=
  match r.keyStarts with
  | some k :: rest =>
    let opens := r.opensAt k.column
    .ok { r.pushSign .value 1 with
      found := FoundKey.insert ⟨k.token, opens⟩ r.found
      indents := if opens then k.column :: r.indents else r.indents
      keyStarts := none :: rest
      keyAllowed := false }
  | _ =>
    if !r.inFlow && !r.keyAllowed then .error .misplacedValue
    else
      let r := r.openHere .blockMappingStart
      .ok { r.pushSign .value 1 with keyAllowed := !r.inFlow }

/-- A token that may start a key and after which none may start. -/
def readContent (r : Reading) (read : Cursor → Except SyntaxFault (Token × Cursor)) : Except SyntaxFault Reading := do
  let r ← r.saveKey
  let (token, next) ← read r.cursor
  return { r.push token with cursor := next, keyAllowed := false }

/-- A quoted scalar. -/
def readQuoted (r : Reading) (single : Bool) : Except SyntaxFault Reading :=
  r.readContent fun c => (Quoted.read single c).map fun (text, next) =>
    (.scalar ⟨String.ofList text, if single then .singleQuoted else .doubleQuoted⟩, next)

/-- A plain scalar. After one that ends with a line, a key may start. -/
def readPlain (r : Reading) : Except SyntaxFault Reading := do
  let r ← r.saveKey
  let p ← Plain.read r.inFlow r.contentColumn r.cursor
  return { r.push (.scalar ⟨String.ofList p.text, .plain⟩) with cursor := p.cursor, keyAllowed := p.broken }

/-- A block scalar. -/
def readBlock (r : Reading) (literal : Bool) : Except SyntaxFault Reading := do
  let r ← r.dropKey
  let (text, next) ← Block.read literal (r.indents.headD 0) (!r.indents.isEmpty) r.cursor
  return { r.push (.scalar ⟨String.ofList text, if literal then .literal else .folded⟩) with cursor := next, keyAllowed := true }

/-- A plain scalar may start with this character before this rest. -/
def startsPlain (inFlow : Bool) (c : Char) (rest : List Char) : Bool :=
  if c == '-' then !(rest.head?.map isBlankChar).getD false
  else if c == '?' || c == ':' then !inFlow && !atGap rest
  else !(isBlankChar c || isBreakChar c || ",[]\x7b\x7d#&*!|>'\"%@`".toList.contains c)

/-- One token with what comes before it. None at the end of the text. -/
def step (r : Reading) : Except SyntaxFault (Reading × Bool) := do
  let r ← (r.skipGaps (r.cursor.rest.length + 1)).dropStale
  let r := r.closeTo r.cursor.column
  let go (next : Except SyntaxFault Reading) : Except SyntaxFault (Reading × Bool) := next.map (·, true)
  match r.cursor.rest with
  | [] => do
    let r ← r.closeAll.dropKey
    return (r.push .endOfText, false)
  | c :: rest =>
    let atLineStart := r.cursor.column == 0
    if atLineStart && c == '%' then go do
      let r ← r.endBlocks
      let (token, next) ← Property.readDirective r.cursor
      return { r.push token with cursor := next }
    else if atLineStart && atMark '-' r.cursor.rest then go do return (← r.endBlocks).pushSign .documentStart 3
    else if atLineStart && atMark '.' r.cursor.rest then go do return (← r.endBlocks).pushSign .documentEnd 3
    else if c == '[' then go (r.openFlow .flowSequenceStart)
    else if c == '\x7b' then go (r.openFlow .flowMappingStart)
    else if c == ']' then go (r.closeFlow .flowSequenceEnd)
    else if c == '\x7d' then go (r.closeFlow .flowMappingEnd)
    else if c == ',' then go r.readSeparator
    else if c == '-' && atGap rest then go r.readEntry
    else if c == '?' && (r.inFlow || atGap rest) then go r.readKey
    else if c == ':' && (r.inFlow || atGap rest) then go r.readValue
    else if c == '*' then go (r.readContent fun c => (Property.readName c).map fun (name, next) => (.alias name, next))
    else if c == '&' then go (r.readContent fun c => (Property.readName c).map fun (name, next) => (.anchor name, next))
    else if c == '!' then go (r.readContent (Property.readTag r.inFlow))
    else if c == '|' && !r.inFlow then go (r.readBlock true)
    else if c == '>' && !r.inFlow then go (r.readBlock false)
    else if c == '\'' then go (r.readQuoted true)
    else if c == '"' then go (r.readQuoted false)
    else if startsPlain r.inFlow c rest then go r.readPlain
    else .error .unexpectedCharacter

/-- Steps up to the end of the text, at most `fuel`. -/
def run : Nat → Reading → Except SyntaxFault Reading
  | 0, _ => .error .unexpectedToken
  | fuel + 1, r => do
    let (next, more) ← r.step
    if more then run fuel next else return next

/-- The tokens in order with the found keys spliced in. Tokens and keys come newest first, `n` is the number of the first token
of the list, and `done` is what follows it. -/
def splice : Nat → List FoundKey → List Token → List Token → List Token
  | _, _, [], done => done
  | n, [], t :: rest, done => splice (n - 1) [] rest (t :: done)
  | n, k :: found, t :: rest, done =>
    if k.token = n then
      splice (n - 1) found rest ((if k.opensMapping then [.blockMappingStart, .key] else [.key]) ++ t :: done)
    else splice (n - 1) (k :: found) rest (t :: done)

end Reading

/-- The tokens of a text. -/
def tokensOf (text : List Char) : Except SyntaxFault (List Token) :=
  if !text.all isDocumentChar then .error .unreadableCharacter
  else (Reading.run (text.length + 2) (Reading.start text)).map fun r =>
    Reading.splice (r.count - 1) r.found r.tokens []

end ClusterConfig.Yaml
