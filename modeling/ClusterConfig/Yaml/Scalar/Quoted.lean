import ClusterConfig.Decimal.Notation
import ClusterConfig.Yaml.Scalar.Gap

/-!
# Quoted scalars

Between single quotes a doubled quote stands for one. Between double quotes a backslash starts an escape, or joins two lines.
-/

namespace ClusterConfig.Yaml.Quoted

/-- The character of a one-letter escape. -/
def simpleEscape? : Char → Option Char
  | '0' => some '\x00'
  | 'a' => some '\x07'
  | 'b' => some '\x08'
  | 't' => some '\t'
  | '\t' => some '\t'
  | 'n' => some '\n'
  | 'v' => some '\x0b'
  | 'f' => some '\x0c'
  | 'r' => some '\r'
  | 'e' => some '\x1b'
  | ' ' => some ' '
  | '"' => some '"'
  | '/' => some '/'
  | '\\' => some '\\'
  | 'N' => some '\u0085'
  | '_' => some '\u00a0'
  | 'L' => some '\u2028'
  | 'P' => some '\u2029'
  | _ => none

/-- How many hexadecimal digits follow the letter of a numeric escape. -/
def numericLength? : Char → Option Nat
  | 'x' => some 2
  | 'u' => some 4
  | 'U' => some 8
  | _ => none

/-- The character with a code point, unless that is a surrogate or too large. -/
def charOfCode? (n : Nat) : Option Char :=
  if n < 0xD800 ∨ 0xDFFF < n ∧ n < 0x110000 then some (Char.ofNat n) else none

/-- The character of an escape, whose letter comes first, and the length of letter and digits. -/
def escape? : List Char → Option (Char × Nat)
  | [] => none
  | letter :: rest =>
    match simpleEscape? letter with
    | some c => some (c, 1)
    | none =>
      (numericLength? letter).bind fun n =>
        let digits := rest.take n
        if digits.length = n then
          ((Decimal.natOfDigits? 16 digits).bind charOfCode?).map fun c => (c, n + 1)
        else none

/-- Why a run of characters between gaps ends. -/
inductive Stop where
  | quote
  | gap
  | joinedLine

/-- Read characters up to a gap or the closing quote. `word` holds the characters so far, the last one first. -/
def wordUpTo (single : Bool) : Nat → List Char → Cursor → Except SyntaxFault (List Char × Stop × Cursor)
  | 0, word, c => .ok (word.reverse, .gap, c)
  | fuel + 1, word, c =>
    match c.rest with
    | [] => .ok (word.reverse, .gap, c)
    | ch :: rest =>
      if isBlankChar ch || isBreakChar ch then .ok (word.reverse, .gap, c)
      else if single && ch == '\'' then
        if rest.head? == some '\'' then wordUpTo single fuel ('\'' :: word) (c.advance 2)
        else .ok (word.reverse, .quote, c.advance 1)
      else if !single && ch == '"' then .ok (word.reverse, .quote, c.advance 1)
      else if !single && ch == '\\' then
        if (rest.head?.map isBreakChar).getD false then .ok (word.reverse, .joinedLine, (c.advance 1).skipBreak)
        else match escape? rest with
          | some (e, n) => wordUpTo single fuel (e :: word) (c.advance (n + 1))
          | none => .error .badEscape
      else wordUpTo single fuel (ch :: word) (c.advance 1)

/-- Read the rest of a quoted scalar, in at most `fuel` runs. -/
def readUpTo (single : Bool) : Nat → Cursor → Except SyntaxFault (List Char × Cursor)
  | 0, _ => .error .unclosedQuote
  | fuel + 1, c =>
    if c.column == 0 && atDocumentMark c.rest then .error .documentMarkInQuotes
    else if c.rest.isEmpty then .error .unclosedQuote
    else do
      let (word, stop, next) ← wordUpTo single (c.rest.length + 1) [] c
      match stop with
      | .quote => return (word, next)
      | .gap =>
        let (g, after) ← Gap.read 0 false next
        let (more, last) ← readUpTo single fuel after
        return (word ++ g.folded ++ more, last)
      | .joinedLine =>
        let (g, after) ← Gap.read 0 true next
        let (more, last) ← readUpTo single fuel after
        return (word ++ g.breaks ++ more, last)

/-- Read a quoted scalar, from its opening quote on. -/
def read (single : Bool) (c : Cursor) : Except SyntaxFault (List Char × Cursor) :=
  readUpTo single (c.rest.length + 1) (c.advance 1)

end ClusterConfig.Yaml.Quoted
