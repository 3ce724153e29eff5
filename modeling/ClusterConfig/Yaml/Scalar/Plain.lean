import ClusterConfig.Yaml.Scalar.Gap

/-!
# Plain scalars

A scalar without quotes ends where a colon stands before a gap, where a gap stands before a comment, at a document mark, at a
line that is not indented enough, and in a flow collection at the signs of the collection.
-/

namespace ClusterConfig.Yaml.Plain

/-- Signs that end a plain scalar inside a flow collection. -/
def isFlowSign (c : Char) : Bool := c == ',' || c == '[' || c == ']' || c == '\x7b' || c == '\x7d'

/-- A colon before one of these inside a flow collection could be meant in two ways. -/
def clashes : List Char → Bool
  | c :: _ => isFlowSign c || c == '?'
  | [] => false

/-- The number of characters up to the next gap or end of the scalar, added to `n`. -/
def wordLength (flow : Bool) : Nat → List Char → Except SyntaxFault Nat
  | n, [] => .ok n
  | n, c :: rest =>
    if isBlankChar c || isBreakChar c then .ok n
    else if flow && c == ':' && clashes rest then .error .ambiguousColon
    else if (c == ':' && atGap rest) || (flow && isFlowSign c) then .ok n
    else wordLength flow (n + 1) rest

/-- A plain scalar: its text, the place after it and the gap that follows, and whether that gap holds a line break. -/
structure Outcome where
  text : List Char
  cursor : Cursor
  broken : Bool

/-- Read words and gaps in turn, at most `fuel` of them. `gap` is what stands before the next word, and `broken` says that it
holds a line break; the gap belongs to the scalar only if a word follows. -/
def readUpTo (flow : Bool) (indent : Nat) :
    Nat → (gap : List Char) → (broken : Bool) → Cursor → Except SyntaxFault Outcome
  | 0, _, broken, c => .ok ⟨[], c, broken⟩
  | fuel + 1, gap, broken, c =>
    if c.column == 0 && atDocumentMark c.rest then .ok ⟨[], c, broken⟩
    else if c.rest.head? == some '#' then .ok ⟨[], c, broken⟩
    else do
      let n ← wordLength flow 0 c.rest
      let next := c.advance n
      if n = 0 then return ⟨[], next, broken⟩
      else
        let word := gap ++ c.rest.take n
        if !atGap next.rest || next.rest.isEmpty then return ⟨word, next, false⟩
        else
          let (g, after) ← Gap.read indent false next
          let broken := !g.breaks.isEmpty
          if !flow && decide (after.column < indent) then return ⟨word, after, broken⟩
          else
            let more ← readUpTo flow indent fuel g.folded broken after
            return { more with text := word ++ more.text }

/-- Read a plain scalar whose continuation lines are indented to the column `indent` at least, outside flow collections. -/
def read (flow : Bool) (indent : Nat) (c : Cursor) : Except SyntaxFault Outcome :=
  readUpTo flow indent (c.rest.length + 1) [] false c

end ClusterConfig.Yaml.Plain
