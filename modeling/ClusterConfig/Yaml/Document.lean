import ClusterConfig.Yaml.Event
import ClusterConfig.Yaml.Resolution
import ClusterConfig.Yaml.TokenStream

/-!
# Documents

The events of a document become a tree. An alias repeats the node that its anchor marks, read again from its start; nesting
is limited, and so is the number of repetitions, in proportion to the length of the document. A list of texts is read from the
same events, each scalar as it is written.
-/

namespace ClusterConfig.Yaml

/-- An event whose alias is resolved to the number of an anchor. -/
inductive Part where
  | alias (anchor : Nat)
  | scalar (tag : Option (List UInt8)) (s : Scalar)
  | seqStart (tag : Option (List UInt8))
  | seqEnd
  | mapStart (tag : Option (List UInt8))
  | mapEnd

/-- A document: its parts, and for the number of each anchor the parts from the marked node on. -/
structure Document where
  parts : List Part
  anchors : List (Nat × List Part)

namespace Document

/-- How deep collections may be nested. -/
def maxDepth : Nat := 128

/-- How often aliases may be followed, for each part of the document. -/
def aliasesPerPart : Nat := 100

/-- Numbers for anchor names. A name that is used again takes the number after the largest, but there are no more numbers than
names, so the next new name takes the same one. -/
abbrev Names := List (String × Nat)

/-- A name with a number, instead of the one it had. -/
def Names.set (names : Names) (name : String) : Names :=
  (name, names.length) :: names.filter fun e => e.1 != name

/-- The names after an anchor, and the number it gets. -/
def Names.mark (names : Names) : Option String → Names × Option Nat
  | none => (names, none)
  | some name => (names.set name, some names.length)

/-- Resolve the aliases of events. Each part comes with the number of the anchor at it. -/
def resolve : Names → List Event → Except SyntaxFault (List (Option Nat × Part))
  | _, [] => .ok []
  | names, .alias name :: rest =>
    match names.lookup name with
    | some id => (resolve names rest).map ((none, .alias id) :: ·)
    | none => .error .unknownAnchor
  | names, .scalar props s :: rest =>
    let (names, id) := names.mark props.anchor
    (resolve names rest).map ((id, .scalar props.tag s) :: ·)
  | names, .seqStart props :: rest =>
    let (names, id) := names.mark props.anchor
    (resolve names rest).map ((id, .seqStart props.tag) :: ·)
  | names, .seqEnd :: rest => (resolve names rest).map ((none, .seqEnd) :: ·)
  | names, .mapStart props :: rest =>
    let (names, id) := names.mark props.anchor
    (resolve names rest).map ((id, .mapStart props.tag) :: ·)
  | names, .mapEnd :: rest => (resolve names rest).map ((none, .mapEnd) :: ·)

/-- The parts from each anchor on; of several anchors with one number the last counts. -/
def marks : List (Option Nat × Part) → List (Nat × List Part)
  | [] => []
  | (id, part) :: rest =>
    match id with
    | some n => marks rest ++ [(n, part :: rest.map Prod.snd)]
    | none => marks rest

/-- The document of events. -/
def ofEvents (events : List Event) : Except SyntaxFault Document :=
  (resolve [] events).map fun parts => ⟨parts.map Prod.snd, marks parts⟩

/-- The document of a text. -/
def ofText (text : String) : Except SyntaxFault Document :=
  (tokensOf text.toList).bind fun tokens => (Event.ofTokens tokens).bind ofEvents

/-- How often aliases may be followed in the document. -/
def maxAliases (d : Document) : Nat := aliasesPerPart * d.parts.length

/-- The tree under the local tag of a collection, if it has one. -/
def tagCollection (tag : Option (List UInt8)) (node : Node) : Node :=
  match tag.bind Resolution.localTag? with
  | some name => .tagged name node
  | none => node

/-- The tree of a scalar. -/
def scalarNode (tag : Option (List UInt8)) (s : Scalar) : Except SyntaxFault Node :=
  let node := match tag.bind Resolution.localTag? with
    | some name => (Resolution.tagged s).map (.tagged name)
    | none => Resolution.scalar tag s
  match node with
  | some n => .ok n
  | none => .error .unusableScalar

/-- The collection that is being read. -/
inductive Opening where
  | sequence (tag : Option (List UInt8)) (items : List Node)
  | mapping (tag : Option (List UInt8)) (entries : List (Node × Node))
  /-- A mapping after a key. -/
  | pair (tag : Option (List UInt8)) (entries : List (Node × Node)) (key : Node)
  /-- An alias was followed, and these are the parts after it. -/
  | repeated (rest : List Part)

/-- A finished tree put into the collections around it. -/
inductive Placed where
  | open_ (stack : List Opening) (rest : List Part)
  | done (node : Node)

/-- How many collections are open. -/
def openDepth : List Opening → Nat
  | [] => 0
  | .repeated _ :: rest => openDepth rest
  | _ :: rest => openDepth rest + 1

/-- Put a finished tree where it belongs. Items and entries are kept newest first. -/
def place (node : Node) : List Opening → List Part → Except SyntaxFault Placed
  | [], _ => .ok (.done node)
  | .sequence tag items :: stack, rest => .ok (.open_ (.sequence tag (node :: items) :: stack) rest)
  | .mapping tag entries :: stack, rest =>
    if entries.any fun e => node.same e.1 then .error .duplicateKey
    else .ok (.open_ (.pair tag entries node :: stack) rest)
  | .pair tag entries key :: stack, rest => .ok (.open_ (.mapping tag ((key, node) :: entries) :: stack) rest)
  | .repeated after :: stack, _ => place node stack after

/-- Read parts with the collections that are open, in at most `fuel` steps. `aliases` is how many may still be followed. -/
def build (anchors : List (Nat × List Part)) :
    Nat → (aliases : Nat) → List Opening → List Part → Except SyntaxFault Node
  | 0, _, _, _ => .error .tooManyAliases
  | _, _, _, [] => .error .unexpectedToken
  | fuel + 1, aliases, stack, part :: rest =>
    let finish (node : Node) (stack : List Opening) : Except SyntaxFault Node := do
      match ← place node stack rest with
      | .done node => return node
      | .open_ stack rest => build anchors fuel aliases stack rest
    match part with
    | .scalar tag s => (scalarNode tag s).bind fun node => finish node stack
    | .seqStart tag =>
      if maxDepth ≤ openDepth stack then .error .tooDeep
      else build anchors fuel aliases (.sequence tag [] :: stack) rest
    | .mapStart tag =>
      if maxDepth ≤ openDepth stack then .error .tooDeep
      else build anchors fuel aliases (.mapping tag [] :: stack) rest
    | .alias id =>
      match aliases, anchors.lookup id with
      | 0, _ => .error .tooManyAliases
      | _, none => .error .unknownAnchor
      | n + 1, some marked => build anchors fuel n (.repeated rest :: stack) marked
    | .seqEnd =>
      match stack with
      | .sequence tag items :: stack => finish (tagCollection tag (.seq items.reverse)) stack
      | _ => .error .unexpectedToken
    | .mapEnd =>
      match stack with
      | .mapping tag entries :: stack => finish (tagCollection tag (.map entries.reverse)) stack
      | _ => .error .unexpectedToken

/-- The tree of a document; a document without parts is null. Each alias adds no more steps than the document has parts. -/
def node (d : Document) : Except SyntaxFault Node :=
  if d.parts.isEmpty then .ok .null
  else build d.anchors ((d.maxAliases + 1) * (d.parts.length + 1)) d.maxAliases [] d.parts

/-- The node that an alias repeats, where the part is one. Aliases of aliases do not occur. -/
def follow (d : Document) : Part → List Part → List Part
  | .alias id, _ => (d.anchors.lookup id).getD []
  | part, rest => part :: rest

/-- The texts of the scalars of a sequence, up to its end. -/
def texts? (d : Document) : List Part → Option (List String)
  | [] => none
  | .seqEnd :: _ => some []
  | part :: rest =>
    match d.follow part rest with
    | .scalar _ s :: _ => (texts? d rest).map (s.text :: ·)
    | _ => none

/-- The document as a list of texts, which may be missing. Null and an empty plain scalar are a missing or an empty list. -/
def textList? (d : Document) : Option (List String) :=
  match d.parts with
  | [] => some []
  | part :: rest =>
    match d.follow part rest with
    | .seqStart _ :: items => d.texts? items
    | .scalar tag s :: _ =>
      if s.style ≠ .plain then none
      else match tag with
        | none => if s.text == "" || Resolution.isNull s.text then some [] else none
        | some t =>
          if Resolution.coreTag? t = some .null then (if Resolution.isNull s.text then some [] else none)
          else if s.text == "" then some []
          else none
    | _ => none

end Document

/-- The tree of a text that holds one document at most. -/
def read (text : String) : Except SyntaxFault Node := (Document.ofText text).bind Document.node

/-- The list of texts that a text holds. -/
def readTexts? (text : String) : Option (List String) := (Document.ofText text).toOption.bind Document.textList?

end ClusterConfig.Yaml
