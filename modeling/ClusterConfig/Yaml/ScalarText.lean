import ClusterConfig.Yaml.Cursor
import ClusterConfig.Yaml.Resolution

/-!
# Writing a scalar

A text is written plain where it reads back as itself. A text that would read as something else is put between single quotes, one
with a line feed becomes a literal block, and double quotes with escapes are for what the other forms cannot carry. Lines after
the first are indented to a given column.
-/

namespace ClusterConfig.Yaml.ScalarText

/-- A character that can be written as itself. -/
def isWritable (c : Char) : Bool :=
  let n := c.toNat
  n == 0x0A || (0x20 ≤ n && n ≤ 0x7E) || (0xA0 ≤ n && n ≤ 0xD7FF) || (0xE000 ≤ n && n ≤ 0xFFFD && n != 0xFEFF) ||
    0x10000 ≤ n

/-- The text has a character of the first class right before one of the second. -/
def hasPair (p q : Char → Bool) : List Char → Bool
  | a :: b :: rest => (p a && q b) || hasPair p q (b :: rest)
  | _ => false

/-- A blank within a line. -/
def isSpace (c : Char) : Bool := c == ' '

/-- A character that ends a word. -/
def isGapChar (c : Char) : Bool := isBlankChar c || isBreakChar c

/-- The text starts in a way that means something else than a plain scalar. -/
def startsWithSign : List Char → Bool
  | [] => false
  | c :: rest =>
    "#,[]\x7b\x7d&*!|>'\"%@`".toList.contains c || ((c == '?' || c == '-') && atGap rest) ||
      ['-', '-', '-'].isPrefixOf (c :: rest) || ['.', '.', '.'].isPrefixOf (c :: rest)

/-- A colon before a gap, or a comment sign after one. -/
def hasInnerSign (cs : List Char) : Bool :=
  hasPair (· == ':') isGapChar cs || cs.getLast? == some ':' || hasPair isGapChar (· == '#') cs

/-- Space next to a line break, before or after it. -/
def spaceAtBreak (cs : List Char) : Bool := hasPair isSpace isBreakChar cs

/-- Space at the start of a line other than the first. -/
def spaceAfterBreak (cs : List Char) : Bool := hasPair isBreakChar isSpace cs

/-- The text can stand without quotes. -/
def plainAllowed (cs : List Char) : Bool :=
  cs.all isWritable && !cs.any isBreakChar && !startsWithSign cs && !hasInnerSign cs &&
    cs.head? != some ' ' && cs.getLast? != some ' '

/-- The text can stand between single quotes. -/
def singleQuotedAllowed (cs : List Char) : Bool := cs.all isWritable && !spaceAtBreak cs && !spaceAfterBreak cs

/-- The text can be a literal block. -/
def literalAllowed (cs : List Char) : Bool := cs.all isWritable && !spaceAtBreak cs && cs.getLast? != some ' '

/-- The text without quotes would read as something else, or looks like a number with leading zeros. -/
def isAmbiguous (s : String) : Bool :=
  match Resolution.plain s with
  | some (.string _) => Resolution.isZeroPadded s.toList
  | _ => true

/-- The form a text is written in. -/
def styleOf (s : String) : ScalarStyle :=
  let cs := s.toList
  if cs.contains '\n' then (if literalAllowed cs then .literal else .doubleQuoted)
  else if plainAllowed cs && !isAmbiguous s then .plain
  else if singleQuotedAllowed cs then .singleQuoted
  else .doubleQuoted

/-- Spaces up to a column. -/
def spaces (n : Nat) : List Char := List.replicate n ' '

/-- The upper-case hexadecimal digits of a number, a given count of them. -/
def hexDigits (count n : Nat) : List Char :=
  let digits := (Nat.toDigits 16 n).map Char.toUpper
  List.replicate (count - digits.length) '0' ++ digits

/-- The letter of an escape. -/
def escapeLetter? : Char → Option Char
  | '\x00' => some '0'
  | '\x07' => some 'a'
  | '\x08' => some 'b'
  | '\t' => some 't'
  | '\n' => some 'n'
  | '\x0b' => some 'v'
  | '\x0c' => some 'f'
  | '\r' => some 'r'
  | '\x1b' => some 'e'
  | '"' => some '"'
  | '\\' => some '\\'
  | '\u0085' => some 'N'
  | '\u2028' => some 'L'
  | '\u2029' => some 'P'
  | _ => none

/-- A character between double quotes. -/
def escaped (c : Char) : List Char :=
  match escapeLetter? c with
  | some letter => ['\\', letter]
  | none =>
    if isWritable c then [c]
    else if c.toNat ≤ 0xFF then '\\' :: 'x' :: hexDigits 2 c.toNat
    else if c.toNat ≤ 0xFFFF then '\\' :: 'u' :: hexDigits 4 c.toNat
    else '\\' :: 'U' :: hexDigits 8 c.toNat

/-- A text between double quotes. -/
def doubleQuoted (cs : List Char) : List Char := '"' :: cs.flatMap escaped ++ ['"']

/-- The inside of single quotes. After line breaks, `broken` here, the next character or the closing quote is indented. -/
def singleQuotedInner (indent : Nat) : Bool → List Char → List Char
  | broken, [] => if broken then spaces indent else []
  | broken, c :: rest =>
    if isBreakChar c then c :: singleQuotedInner indent true rest
    else
      (if broken then spaces indent else []) ++ (if c == '\'' then ['\'', '\''] else [c]) ++
        singleQuotedInner indent false rest

/-- A text between single quotes. -/
def singleQuoted (indent : Nat) (cs : List Char) : List Char := '\'' :: singleQuotedInner indent false cs ++ ['\'']

/-- The signs after the bar of a literal block: an indentation where the first line does not show it, and what becomes of the
breaks at the end. -/
def literalHeader (cs : List Char) : List Char :=
  let indentation := match cs with
    | c :: _ => if isSpace c || isBreakChar c then ['2'] else []
    | [] => []
  let chomping := match cs.reverse with
    | a :: rest =>
      if !isBreakChar a then ['-']
      else match rest with
        | [] => ['+']
        | b :: _ => if isBreakChar b then ['+'] else []
    | [] => ['-']
  indentation ++ chomping

/-- The lines of a literal block. A line with text is indented; `fresh` says that one starts here. -/
def literalLines (indent : Nat) : Bool → List Char → List Char
  | fresh, [] => if fresh then [] else ['\n']
  | fresh, c :: rest =>
    if isBreakChar c then c :: literalLines indent true rest
    else (if fresh then spaces indent else []) ++ c :: literalLines indent false rest

/-- A text with the line break after it, where lines after the first are indented to a column. -/
def line (indent : Nat) (s : String) : String :=
  let cs := s.toList
  match styleOf s with
  | .plain => s ++ "\n"
  | .singleQuoted => String.ofList (singleQuoted indent cs ++ ['\n'])
  | .doubleQuoted => String.ofList (doubleQuoted cs ++ ['\n'])
  | _ => String.ofList ('|' :: literalHeader cs ++ '\n' :: literalLines indent true cs)

/-- A text as the key of a mapping, on one line. -/
def key (s : String) : String :=
  match styleOf s with
  | .plain => s
  | .singleQuoted => String.ofList (singleQuoted 0 s.toList)
  | _ => String.ofList (doubleQuoted s.toList)

/-- A key that needs no sign of its own: it has no line break and at most 128 bytes. -/
def isSimpleKey (s : String) : Bool := !s.toList.any isBreakChar && decide (s.utf8ByteSize ≤ 128)

end ClusterConfig.Yaml.ScalarText
