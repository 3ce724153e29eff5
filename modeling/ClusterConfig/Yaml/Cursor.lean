import ClusterConfig.Yaml.Fault

/-!
# A place in a YAML text

The characters that are left, with the line, column and index of the next one. Line breaks are a line feed, a carriage return,
both together, and the three Unicode breaks; they read as line feeds, save for the two separators that read as themselves.
-/

namespace ClusterConfig.Yaml

/-- A space or a tab. -/
def isBlankChar (c : Char) : Bool := c == ' ' || c == '\t'

/-- A character that ends a line. -/
def isBreakChar (c : Char) : Bool :=
  c == '\n' || c == '\r' || c == '\u0085' || c == '\u2028' || c == '\u2029'

/-- An ASCII letter or digit, a dash or an underscore. -/
def isWordChar (c : Char) : Bool := c.isAlphanum || c == '-' || c == '_'

/-- A character that a document may hold. -/
def isDocumentChar (c : Char) : Bool :=
  let n := c.toNat
  n == 9 || n == 10 || n == 13 || (0x20 ≤ n && n ≤ 0x7E) || n == 0x85 || (0xA0 ≤ n && n ≤ 0xD7FF) ||
    (0xE000 ≤ n && n ≤ 0xFFFD) || 0x10000 ≤ n

/-- The text is at its end or at a line break. -/
def atBreakOrEnd : List Char → Bool
  | [] => true
  | c :: _ => isBreakChar c

/-- The text is at its end, at a blank or at a line break. -/
def atGap : List Char → Bool
  | [] => true
  | c :: _ => isBlankChar c || isBreakChar c

/-- The text is at three given characters and a gap. -/
def atMark (mark : Char) : List Char → Bool
  | a :: b :: c :: rest => a == mark && b == mark && c == mark && atGap rest
  | _ => false

/-- The text is at a line that starts or ends a document. -/
def atDocumentMark (cs : List Char) : Bool := atMark '-' cs || atMark '.' cs

/-- A place in a text. -/
structure Cursor where
  rest : List Char
  line : Nat
  column : Nat
  index : Nat

namespace Cursor

/-- The start of a text. -/
def start (text : List Char) : Cursor := ⟨text, 0, 0, 0⟩

/-- Past the given number of characters of the line. -/
def advance (c : Cursor) (n : Nat) : Cursor := ⟨c.rest.drop n, c.line, c.column + n, c.index + n⟩

/-- Past the characters of a class, which holds no line breaks. -/
def skipWhile (p : Char → Bool) (c : Cursor) : Cursor := c.advance (c.rest.takeWhile p).length

/-- Past a line break, if there is one, with the character it reads as. -/
def readBreak? (c : Cursor) : Option (Char × Cursor) :=
  match c.rest with
  | '\r' :: '\n' :: rest => some ('\n', ⟨rest, c.line + 1, 0, c.index + 2⟩)
  | b :: rest =>
    if isBreakChar b then
      some (if b = '\u2028' ∨ b = '\u2029' then b else '\n', ⟨rest, c.line + 1, 0, c.index + 1⟩)
    else none
  | [] => none

/-- Past a line break, if there is one. -/
def skipBreak (c : Cursor) : Cursor :=
  match c.readBreak? with
  | some (_, next) => next
  | none => c

/-- Past a byte order mark, if one starts the line. -/
def skipMark (c : Cursor) : Cursor :=
  if c.column = 0 ∧ c.rest.head? = some '\uFEFF' then c.advance 1 else c

/-- Past a comment, up to the end of its line. -/
def skipComment (c : Cursor) : Cursor :=
  match c.rest with
  | '#' :: _ => c.skipWhile fun ch => !isBreakChar ch
  | _ => c

end Cursor

end ClusterConfig.Yaml
