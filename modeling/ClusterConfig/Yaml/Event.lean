import ClusterConfig.Yaml.Cursor
import ClusterConfig.Yaml.Property

/-!
# From tokens to events

A document is a sequence of events: scalars, aliases, and the starts and ends of collections. The grammar is a stack of goals;
each step takes the goal on top, looks at the next tokens, gives an event or none, and puts new goals in its place.
-/

namespace ClusterConfig.Yaml

/-- The anchor and the full tag of a node. -/
structure NodeProps where
  anchor : Option String
  tag : Option (List UInt8)
  deriving DecidableEq, Repr

/-- An event of a document. -/
inductive Event where
  | alias (name : String)
  | scalar (props : NodeProps) (s : Scalar)
  | seqStart (props : NodeProps)
  | seqEnd
  | mapStart (props : NodeProps)
  | mapEnd
  deriving DecidableEq, Repr

/-- What the grammar expects next. -/
inductive Goal where
  /-- A node; in a block context also a block collection, and below a key also a sequence that is not indented. -/
  | node (block indentless : Bool)
  | blockEntry
  | indentlessEntry
  | blockKey
  | blockValue
  | flowEntry (first : Bool)
  /-- The parts of a mapping of one pair inside a flow sequence. -/
  | pairKey
  | pairValue
  | pairEnd
  | flowKey (first : Bool)
  | flowValue
  /-- A key of a flow mapping went without a value. -/
  | noValue

namespace Event

/-- No anchor and no tag. -/
def noProps : NodeProps := ⟨none, none⟩

/-- The scalar that stands where a node is left out. -/
def empty (props : NodeProps) : Event := .scalar props ⟨"", .plain⟩

/-- The handles that every document knows. -/
def commonHandles : List (List UInt8 × List UInt8) :=
  [(Property.bytesOf ['!'], Property.bytesOf ['!']),
   (Property.bytesOf ['!', '!'], Property.bytesOf "tag:yaml.org,2002:".toList)]

/-- The full tag of a handle and a suffix. -/
def fullTag (handles : List (List UInt8 × List UInt8)) (handle suffix : List UInt8) : Except SyntaxFault (List UInt8) :=
  if handle.isEmpty then .ok suffix
  else match handles.lookup handle with
    | some start => .ok (start ++ suffix)
    | none => .error .unknownTagHandle

/-- The properties before a node: an anchor and a tag in any order. -/
def propsOf (handles : List (List UInt8 × List UInt8)) : List Token → Except SyntaxFault (NodeProps × List Token)
  | .anchor a :: .tag h s :: rest => (fullTag handles h s).map fun t => (⟨some a, some t⟩, rest)
  | .tag h s :: .anchor a :: rest => (fullTag handles h s).map fun t => (⟨some a, some t⟩, rest)
  | .anchor a :: rest => .ok (⟨some a, none⟩, rest)
  | .tag h s :: rest => (fullTag handles h s).map fun t => (⟨none, some t⟩, rest)
  | tokens => .ok (noProps, tokens)

/-- The result of a step: an event if there is one, the goals in place of the one that was met, and the tokens left. -/
abbrev Step := Except SyntaxFault (Option Event × List Goal × List Token)

/-- A node left out. -/
def leftOut (goals : List Goal) (rest : List Token) : Step := .ok (some (empty noProps), goals, rest)

/-- The token ends an entry of a block sequence. -/
def endsEntry : List Token → Bool
  | .entry :: _ | .blockEnd :: _ => true
  | _ => false

/-- The token ends a key or value of a block mapping. -/
def endsPair : List Token → Bool
  | .key :: _ | .value :: _ | .blockEnd :: _ => true
  | _ => false

/-- The step for a node. -/
def nodeStep (handles : List (List UInt8 × List UInt8)) (block indentless : Bool) (tokens : List Token) : Step :=
  match tokens with
  | .alias name :: rest => .ok (some (.alias name), [], rest)
  | _ => do
    let (props, rest) ← propsOf handles tokens
    let refused : Step :=
      if props = noProps then .error .unexpectedToken else .ok (some (empty props), [], rest)
    match rest with
    | .entry :: _ => if indentless then return (some (.seqStart props), [.indentlessEntry], rest) else refused
    | .scalar s :: rest =>
      return (some (.scalar { props with tag := props.tag.filter (· != Property.bytesOf ['!']) } s), [], rest)
    | .flowSequenceStart :: rest => return (some (.seqStart props), [.flowEntry true], rest)
    | .flowMappingStart :: rest => return (some (.mapStart props), [.flowKey true], rest)
    | .blockSequenceStart :: after =>
      if block then return (some (.seqStart props), [.blockEntry], after) else refused
    | .blockMappingStart :: after =>
      if block then return (some (.mapStart props), [.blockKey], after) else refused
    | _ => refused

/-- The tokens after the comma that an entry of a flow collection needs unless it is the first. -/
def afterSeparator (first : Bool) : List Token → Except SyntaxFault (List Token)
  | .separator :: rest => .ok (if first then .separator :: rest else rest)
  | tokens => if first then .ok tokens else .error .unexpectedToken

/-- The step for an entry of a flow sequence or for its end. -/
def flowEntryStep (first : Bool) : List Token → Step
  | .flowSequenceEnd :: rest => .ok (some .seqEnd, [], rest)
  | tokens => do
    match ← afterSeparator first tokens with
    | .flowSequenceEnd :: rest => return (some .seqEnd, [], rest)
    | .key :: rest => return (some (.mapStart noProps), [.pairKey, .flowEntry false], rest)
    | rest => return (none, [.node false false, .flowEntry false], rest)

/-- The step for a key of a flow mapping or for its end. -/
def flowKeyStep (first : Bool) : List Token → Step
  | .flowMappingEnd :: rest => .ok (some .mapEnd, [], rest)
  | tokens => do
    match ← afterSeparator first tokens with
    | .flowMappingEnd :: rest => return (some .mapEnd, [], rest)
    | .key :: rest =>
      match rest with
      | .value :: _ | .separator :: _ | .flowMappingEnd :: _ => leftOut [.flowValue, .flowKey false] rest
      | _ => return (none, [.node false false, .flowValue, .flowKey false], rest)
    | rest => return (none, [.node false false, .noValue, .flowKey false], rest)

/-- The step for a goal. A pair in a flow sequence whose key is left out takes the token after it too. -/
def step (handles : List (List UInt8 × List UInt8)) : Goal → List Token → Step
  | .node block indentless, tokens => nodeStep handles block indentless tokens
  | .blockEntry, .entry :: rest =>
    if endsEntry rest then leftOut [.blockEntry] rest else .ok (none, [.node true false, .blockEntry], rest)
  | .blockEntry, .blockEnd :: rest => .ok (some .seqEnd, [], rest)
  | .blockEntry, _ => .error .unexpectedToken
  | .indentlessEntry, .entry :: rest =>
    if endsEntry rest || endsPair rest then leftOut [.indentlessEntry] rest
    else .ok (none, [.node true false, .indentlessEntry], rest)
  | .indentlessEntry, tokens => .ok (some .seqEnd, [], tokens)
  | .blockKey, .key :: rest =>
    if endsPair rest then leftOut [.blockValue] rest else .ok (none, [.node true true, .blockValue], rest)
  | .blockKey, .blockEnd :: rest => .ok (some .mapEnd, [], rest)
  | .blockKey, _ => .error .unexpectedToken
  | .blockValue, .value :: rest =>
    if endsPair rest then leftOut [.blockKey] rest else .ok (none, [.node true true, .blockKey], rest)
  | .blockValue, tokens => leftOut [.blockKey] tokens
  | .flowEntry first, tokens => flowEntryStep first tokens
  | .pairKey, tokens =>
    match tokens with
    | .value :: rest | .separator :: rest | .flowSequenceEnd :: rest => leftOut [.pairValue] rest
    | _ => .ok (none, [.node false false, .pairValue], tokens)
  | .pairValue, .value :: rest =>
    match rest with
    | .separator :: _ | .flowSequenceEnd :: _ => leftOut [.pairEnd] rest
    | _ => .ok (none, [.node false false, .pairEnd], rest)
  | .pairValue, tokens => leftOut [.pairEnd] tokens
  | .pairEnd, tokens => .ok (some .mapEnd, [], tokens)
  | .flowKey first, tokens => flowKeyStep first tokens
  | .flowValue, .value :: rest =>
    match rest with
    | .separator :: _ | .flowMappingEnd :: _ => leftOut [] rest
    | _ => .ok (none, [.node false false], rest)
  | .flowValue, tokens => leftOut [] tokens
  | .noValue, tokens => leftOut [] tokens

/-- Steps until no goal is left, at most `fuel`. The events come newest first. -/
def run (handles : List (List UInt8 × List UInt8)) :
    Nat → List Goal → List Token → List Event → Except SyntaxFault (List Event × List Token)
  | _, [], tokens, events => .ok (events, tokens)
  | 0, _ :: _, _, _ => .error .unexpectedToken
  | fuel + 1, goal :: goals, tokens, events =>
    match step handles goal tokens with
    | .error fault => .error fault
    | .ok (event, more, rest) => run handles fuel (more ++ goals) rest (event.toList ++ events)

/-- The directives before a document: whether a version was given, and the handles. -/
def directives : Bool → List (List UInt8 × List UInt8) → List Token →
    Except SyntaxFault (List (List UInt8 × List UInt8) × List Token)
  | versioned, handles, .version major minor :: rest =>
    if versioned || major != 1 || (minor != 1 && minor != 2) then .error .badDirective
    else directives true handles rest
  | versioned, handles, .tagHandle handle start :: rest =>
    if (handles.lookup handle).isSome then .error .badDirective
    else directives versioned (handles ++ [(handle, start)]) rest
  | _, handles, .documentStart :: rest => .ok (handles, rest)
  | _, _, _ => .error .unexpectedToken

/-- The events of a document whose start is behind. Four steps are enough for a token. -/
def content (handles : List (List UInt8 × List UInt8)) (tokens : List Token) :
    Except SyntaxFault (List Event × List Token) :=
  run (handles ++ commonHandles) (8 * tokens.length + 8) [.node true false] tokens []

/-- Nothing follows but marks that end documents. -/
def onlyEnds : List Token → Bool
  | [.endOfText] => true
  | .documentEnd :: rest => onlyEnds rest
  | _ => false

/-- The events of the only document of a text; none for a text without one. -/
def ofTokens (tokens : List Token) : Except SyntaxFault (List Event) := do
  match tokens with
  | [.endOfText] => return []
  | .version _ _ :: _ | .tagHandle _ _ :: _ | .documentStart :: _ =>
    let (handles, rest) ← directives false [] tokens
    let (events, rest) ←
      match rest with
      | .version _ _ :: _ | .tagHandle _ _ :: _ | .documentStart :: _ | .documentEnd :: _ | [.endOfText] =>
        .ok ([empty noProps], rest)
      | _ => content handles rest
    if onlyEnds rest then return events.reverse else .error .secondDocument
  | _ =>
    let (events, rest) ← content [] tokens
    if onlyEnds rest then return events.reverse else .error .secondDocument

end Event

end ClusterConfig.Yaml
