import ClusterConfig.Yaml.Scalar.Gap

/-!
# Block scalars

A header says whether lines are folded, what becomes of the breaks at the end, and perhaps how far the text is indented; else the
first line with text says it, together with the blank lines before. Folding joins two lines by a blank unless one of them is
indented further.
-/

namespace ClusterConfig.Yaml.Block

/-- What becomes of the line breaks at the end. -/
inductive Chomping where
  | strip
  | clip
  | keep
  deriving DecidableEq

/-- The sign of a chomping. -/
def chomping? : Char → Option Chomping
  | '+' => some .keep
  | '-' => some .strip
  | _ => none

/-- The header after its sign: a chomping and an indentation digit in any order, each at most once. Also the number of
characters. -/
def header? : List Char → Option (Chomping × Nat × Nat)
  | a :: rest =>
    match chomping? a with
    | some ch =>
      match rest with
      | d :: _ => if d == '0' then none else some (if d.isDigit then (ch, d.toNat - 48, 2) else (ch, 0, 1))
      | [] => some (ch, 0, 1)
    | none =>
      if a == '0' then none
      else if a.isDigit then
        match rest.head?.bind chomping? with
        | some ch => some (ch, a.toNat - 48, 2)
        | none => some (.clip, a.toNat - 48, 1)
      else some (.clip, 0, 0)
  | [] => some (.clip, 0, 0)

/-- Read blank lines and the indentation of the next line. Indentation is at most `indent` columns wide, or any where that is
zero. Gives the breaks, the widest indentation met and the place. -/
def readBreaks (indent : Nat) : Nat → Nat → Cursor → Except SyntaxFault (List Char × Nat × Cursor)
  | 0, widest, c => .ok ([], widest, c)
  | fuel + 1, widest, c =>
    let spaces := (c.rest.takeWhile (· == ' ')).length
    let next := c.advance (if indent = 0 then spaces else min spaces (indent - c.column))
    let widest := max widest next.column
    if (indent == 0 || decide (next.column < indent)) && next.rest.head? == some '\t' then .error .tabAsIndentation
    else match next.readBreak? with
      | some (b, after) => (readBreaks indent fuel widest after).map fun r => (b :: r.1, r.2)
      | none => .ok ([], widest, next)

/-- The text is at a blank. -/
def atBlank (c : Cursor) : Bool := (c.rest.head?.map isBlankChar).getD false

/-- Read lines of text. `lead` is the break after the line before, `breaks` the blank lines since, and `indented` says that the
line before started with a blank. Gives the text and the breaks that follow it. -/
def readLines (literal : Bool) (indent : Nat) :
    Nat → (lead : List Char) → (breaks : List Char) → (indented : Bool) → Cursor →
      Except SyntaxFault (List Char × List Char × List Char × Cursor)
  | 0, lead, breaks, _, c => .ok ([], lead, breaks, c)
  | fuel + 1, lead, breaks, indented, c =>
    if c.column != indent || c.rest.isEmpty then .ok ([], lead, breaks, c)
    else do
      let blank := atBlank c
      let joined :=
        if !literal && lead == ['\n'] && !indented && !blank then (if breaks.isEmpty then [' '] else [])
        else lead
      let line := c.rest.takeWhile fun ch => !isBreakChar ch
      let eol := c.advance line.length
      let newLead := match eol.readBreak? with
        | some (b, _) => [b]
        | none => []
      let (newBreaks, _, next) ← readBreaks indent (c.rest.length + 1) 0 eol.skipBreak
      let (text, rest) ← readLines literal indent fuel newLead newBreaks blank next
      return (joined ++ breaks ++ line ++ text, rest)

/-- Read a block scalar, from its sign on. `parent` is the column that the enclosing block is indented to, or zero. -/
def read (literal : Bool) (parent : Nat) (nested : Bool) (c : Cursor) : Except SyntaxFault (List Char × Cursor) :=
  let c := c.advance 1
  match header? c.rest with
  | none => .error .badBlockHeader
  | some (chomping, increment, n) => do
    let c := ((c.advance n).skipWhile isBlankChar).skipComment
    if !atBreakOrEnd c.rest then .error .badBlockHeader
    else
      let c := c.skipBreak
      let given := if increment = 0 then 0 else parent + increment
      let (breaks, widest, c) ← readBreaks given (c.rest.length + 1) 0 c
      let indent := if given = 0 then max widest (max (if nested then parent + 1 else 0) 1) else given
      let (text, lead, trailing, c) ← readLines literal indent (c.rest.length + 1) [] breaks false c
      let kept := match chomping with
        | .strip => []
        | .clip => lead
        | .keep => lead ++ trailing
      return (text ++ kept, c)

end ClusterConfig.Yaml.Block
