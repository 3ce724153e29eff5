import ClusterConfig.Decimal.Notation
import ClusterConfig.Text.Utf8
import ClusterConfig.Yaml.Cursor
import ClusterConfig.Yaml.Token

/-!
# Tags, anchors and directives

The properties a node may have before its content, and the lines before a document. A tag is `!<uri>`, or a handle with a suffix;
octets of a suffix may be escaped by a percent sign.
-/

namespace ClusterConfig.Yaml.Property

/-- Bytes of characters. -/
def bytesOf (cs : List Char) : List UInt8 := Text.Utf8.encode (String.ofList cs)

/-- A character of a tag. Commas and square brackets only count between angle brackets and in directives. -/
def isTagChar (verbatim : Bool) (c : Char) : Bool :=
  isWordChar c || ";/?:@&=+$.%!~*'()".toList.contains c || (verbatim && (c == ',' || c == '[' || c == ']'))

/-- The number of bytes of the character that an octet starts. -/
def octetCount? (b : Nat) : Option Nat :=
  if b < 0x80 then some 1
  else if 0xC0 ≤ b ∧ b < 0xE0 then some 2
  else if 0xE0 ≤ b ∧ b < 0xF0 then some 3
  else if 0xF0 ≤ b ∧ b < 0xF8 then some 4
  else none

/-- One escaped octet. -/
def octet? : List Char → Option Nat
  | '%' :: a :: b :: _ => Decimal.natOfDigits? 16 [a, b]
  | _ => none

/-- Further octets of a character. -/
def moreOctets? : Nat → List Char → Option (List UInt8)
  | 0, _ => some []
  | n + 1, cs =>
    (octet? cs).bind fun b =>
      if 0x80 ≤ b ∧ b < 0xC0 then (moreOctets? n (cs.drop 3)).map (UInt8.ofNat b :: ·) else none

/-- The octets of an escaped character. -/
def escaped? (cs : List Char) : Option (List UInt8) :=
  (octet? cs).bind fun b =>
    (octetCount? b).bind fun n => (moreOctets? (n - 1) (cs.drop 3)).map (UInt8.ofNat b :: ·)

/-- Read the characters of a tag: their bytes and their number. -/
def tagText (verbatim : Bool) : Nat → List Char → Except SyntaxFault (List UInt8 × Nat)
  | 0, _ => .ok ([], 0)
  | fuel + 1, cs =>
    match cs with
    | [] => .ok ([], 0)
    | c :: rest =>
      if !isTagChar verbatim c then .ok ([], 0)
      else if c == '%' then
        match escaped? cs with
        | none => .error .badTag
        | some bytes =>
          (tagText verbatim fuel (cs.drop (3 * bytes.length))).map fun r => (bytes ++ r.1, 3 * bytes.length + r.2)
      else (tagText verbatim fuel rest).map fun r => (bytesOf [c] ++ r.1, r.2 + 1)

/-- Read the characters of a tag: the bytes that count, which end at an escaped zero, and the number of characters. -/
def readTagText (verbatim : Bool) (cs : List Char) : Except SyntaxFault (List UInt8 × Nat) :=
  (tagText verbatim cs.length cs).map fun r => (r.1.takeWhile (· != 0), r.2)

/-- A handle: a mark, word characters and perhaps another mark. -/
def handleOf (cs : List Char) : List Char :=
  match cs with
  | '!' :: rest =>
    let word := rest.takeWhile isWordChar
    '!' :: word ++ (match rest.drop word.length with
      | '!' :: _ => ['!']
      | _ => [])
  | _ => []

/-- Read a tag, from its mark on: the handle, the suffix and the place after it. -/
def readTag (flow : Bool) (c : Cursor) : Except SyntaxFault (Token × Cursor) := do
  let (token, next) ←
    match c.rest with
    | '!' :: '<' :: rest => do
      let (uri, n) ← readTagText true rest
      if n = 0 ∨ (rest.drop n).head? ≠ some '>' then .error .badTag
      else .ok (Token.tag [] uri, c.advance (n + 3))
    | _ => do
      let handle := handleOf c.rest
      let after := c.advance handle.length
      let (suffix, n) ← readTagText false after.rest
      if 2 ≤ handle.length ∧ handle.getLast? = some '!' then
        if n = 0 then .error .badTag else .ok (Token.tag (bytesOf handle) suffix, after.advance n)
      else
        let suffix := bytesOf (handle.drop 1) ++ suffix
        .ok (if suffix.isEmpty then Token.tag [] (bytesOf ['!']) else Token.tag (bytesOf ['!']) suffix, after.advance n)
  if (flow && next.rest.head? == some ',') || atGap next.rest then return (token, next)
  else .error .badTag

/-- Read the name of an anchor or alias, from its sign on. -/
def readName (c : Cursor) : Except SyntaxFault (String × Cursor) :=
  let name := (c.rest.drop 1).takeWhile isWordChar
  let next := c.advance (name.length + 1)
  let ends := match next.rest with
    | ch :: _ => atGap next.rest || "?:,]\x7d%@`".toList.contains ch
    | [] => true
  if name.isEmpty || !ends then .error .badAnchor else .ok (String.ofList name, next)

/-- Read a number of a version, of nine digits at most. -/
def readVersionPart (c : Cursor) : Except SyntaxFault (Nat × Cursor) :=
  let digits := c.rest.takeWhile Char.isDigit
  match Decimal.natOfDigits? 10 digits with
  | some n => if digits.length ≤ 9 then .ok (n, c.advance digits.length) else .error .badDirective
  | none => .error .badDirective

/-- Read the value of a version directive. -/
def readVersion (c : Cursor) : Except SyntaxFault (Token × Cursor) := do
  let (major, c) ← readVersionPart (c.skipWhile isBlankChar)
  if c.rest.head? ≠ some '.' then .error .badDirective
  else
    let (minor, c) ← readVersionPart (c.advance 1)
    return (.version major minor, c)

/-- Read the value of a directive that names a handle. -/
def readTagHandle (c : Cursor) : Except SyntaxFault (Token × Cursor) := do
  let c := c.skipWhile isBlankChar
  let handle := handleOf c.rest
  let named := handle == ['!'] || (2 ≤ handle.length && handle.getLast? == some '!')
  let after := c.advance handle.length
  if !named || !(after.rest.head?.map isBlankChar).getD false then .error .badDirective
  else
    let start := after.skipWhile isBlankChar
    let (uri, n) ← readTagText true start.rest
    let next := start.advance n
    if n = 0 ∨ !atGap next.rest then .error .badDirective else return (.tagHandle (bytesOf handle) uri, next)

/-- Read a directive, from its sign to the end of its line. -/
def readDirective (c : Cursor) : Except SyntaxFault (Token × Cursor) := do
  let name := (c.rest.drop 1).takeWhile isWordChar
  let next := c.advance (name.length + 1)
  if !atGap next.rest then .error .badDirective
  else
    let (token, next) ←
      if name == "YAML".toList then readVersion next
      else if name == "TAG".toList then readTagHandle next
      else .error .badDirective
    let next := (next.skipWhile isBlankChar).skipComment
    if !atBreakOrEnd next.rest then .error .badDirective else return (token, next.skipBreak)

end ClusterConfig.Yaml.Property
