import ClusterConfig.Decimal.Notation
import ClusterConfig.Text.Utf8

/-!
# Formatted printing

A format is text with escapes and directives. A directive takes the next argument, and the format is used again as long as it
takes arguments and some are left. Missing arguments are empty. The program knows two escapes that the shell's own command does
not: a byte in base sixteen, and a double quote.
-/

namespace ClusterConfig.Format

/-- The character that an escape letter stands for. -/
def escapeOf? : Char → Option UInt8
  | 'a' => some 7
  | 'b' => some 8
  | 'e' => some 27
  | 'f' => some 12
  | 'n' => some 10
  | 'r' => some 13
  | 't' => some 9
  | 'v' => some 11
  | '\\' => some 92
  | _ => none

/-- A digit of a number in base eight. -/
def isOctal (c : Char) : Bool := decide ('0' ≤ c) && decide (c ≤ '7')

/-- The digits of a class at the start, at most some number of them, and what follows. -/
def digitsAt (p : Char → Bool) (most : Nat) (cs : List Char) : List Char × List Char :=
  let digits := (cs.take most).takeWhile p
  (digits, cs.drop digits.length)

/-- A byte by its digits in a base. -/
def byteOf (base : Nat) (digits : List Char) : UInt8 := ((Decimal.natOfDigits? base digits).getD 0).toUInt8

/-- What stands after a backslash, and what follows. A backslash before anything else stands for itself. With `zeroFirst`, as in
arguments, digits in base eight may have a zero in front. -/
def escapeAt (byShell zeroFirst : Bool) : List Char → List UInt8 × List Char
  | [] => ([92], [])
  | c :: cs =>
    match escapeOf? c with
    | some b => ([b], cs)
    | none =>
      if isOctal c then
        let (digits, rest) := if zeroFirst && c = '0' then digitsAt isOctal 3 cs else digitsAt isOctal 3 (c :: cs)
        ([byteOf 8 digits], rest)
      else if c = '"' && !byShell then ([34], cs)
      else if c = 'x' && !byShell then
        match digitsAt (fun d => (Decimal.digitValue? d).isSome) 2 cs with
        | ([], _) => ([92, 120], cs)
        | (digits, rest) => ([byteOf 16 digits], rest)
      else (92 :: Text.Utf8.encode (String.singleton c), cs)

/-- A text with its escapes read, at most `fuel` of them, up to one that ends all output. -/
def unescapeUpTo (byShell : Bool) : Nat → List Char → List UInt8 × Bool
  | 0, _ => ([], false)
  | _ + 1, [] => ([], false)
  | _ + 1, '\\' :: 'c' :: _ => ([], true)
  | fuel + 1, '\\' :: cs =>
    let (bytes, rest) := escapeAt byShell true cs
    let (more, ended) := unescapeUpTo byShell fuel rest
    (bytes ++ more, ended)
  | fuel + 1, c :: cs =>
    let (more, ended) := unescapeUpTo byShell fuel cs
    (Text.Utf8.encode (String.singleton c) ++ more, ended)

/-- A text with its escapes read, and whether it ends all output. -/
def unescape (byShell : Bool) (s : String) : List UInt8 × Bool := unescapeUpTo byShell (s.length + 1) s.toList

/-- A directive: flags, least width, greatest precision, and the letter of the conversion. -/
structure Directive where
  flags : List Char
  width : Nat
  precision : Option Nat
  conversion : Char

/-- The directive after a percent sign, and what follows. -/
def directiveAt? (cs : List Char) : Option (Directive × List Char) :=
  let flags := cs.takeWhile "-+ 0#".toList.contains
  let cs := cs.drop flags.length
  let width := cs.takeWhile Char.isDigit
  let cs := cs.drop width.length
  let (precision, cs) := match cs with
    | '.' :: rest => (some (rest.takeWhile Char.isDigit), rest.dropWhile Char.isDigit)
    | _ => (none, cs)
  let number (digits : List Char) : Nat := (Decimal.natOfDigits? 10 digits).getD 0
  match cs with
  | c :: rest => some (⟨flags, number width, precision.map number, c⟩, rest)
  | [] => none

/-- Bytes filled up to the width, on the side that the flags name. -/
def pad (d : Directive) (bytes : List UInt8) : List UInt8 :=
  let fill := List.replicate (d.width - bytes.length) (32 : UInt8)
  if d.flags.contains '-' then bytes ++ fill else fill ++ bytes

/-- The integer that an argument stands for; none for one that stands for none. -/
def intOf? (argument : String) : Option Int :=
  let unsigned (cs : List Char) : Option Nat :=
    match cs with
    | '0' :: 'x' :: rest => Decimal.natOfDigits? 16 rest
    | '0' :: d :: rest => Decimal.natOfDigits? 8 (d :: rest)
    | cs => Decimal.natOfDigits? 10 cs
  match argument.toList with
  | [] => some 0
  | '\'' :: c :: _ => some c.toNat
  | '"' :: c :: _ => some c.toNat
  | '-' :: cs => (unsigned cs).map fun n => -(n : Int)
  | '+' :: cs => (unsigned cs).map Int.ofNat
  | cs => (unsigned cs).map Int.ofNat

/-- An integer in the form that a directive asks for. -/
def integer (d : Directive) (n : Int) : List UInt8 :=
  let base := match d.conversion with
    | 'o' => 8
    | 'x' => 16
    | 'X' => 16
    | _ => 10
  let unsigned := !(d.conversion = 'd' || d.conversion = 'i')
  let magnitude := if unsigned && n < 0 then (n + 0x10000000000000000).toNat else n.natAbs
  let digits := Nat.toDigits base magnitude
  let digits := if d.conversion = 'X' then digits.map Char.toUpper else digits
  let digits := List.replicate (d.precision.getD 1 - digits.length) '0' ++ digits
  let sign := if n < 0 && !unsigned then ['-'] else if d.flags.contains '+' then ['+'] else
    if d.flags.contains ' ' then [' '] else []
  let zeros := if d.flags.contains '0' && !d.flags.contains '-' && d.precision.isNone then
    List.replicate (d.width - sign.length - digits.length) '0' else []
  pad d (Text.Utf8.encode (String.ofList (sign ++ zeros ++ digits)))

/-- What has been printed so far. -/
structure Printing where
  bytes : List UInt8
  arguments : List String
  /-- A directive took an argument. -/
  took : Bool
  /-- An argument was no number. -/
  failed : Bool
  /-- Nothing more is printed. -/
  ended : Bool

/-- Print what a directive makes of the next argument. -/
def convert (byShell : Bool) (p : Printing) (d : Directive) : Printing :=
  let argument := p.arguments.headD ""
  let p := { p with arguments := p.arguments.tail, took := true }
  let put (bytes : List UInt8) : Printing := { p with bytes := p.bytes ++ bytes }
  match d.conversion with
  | 's' =>
    let bytes := Text.Utf8.encode argument
    put (pad d (match d.precision with
      | some n => bytes.take n
      | none => bytes))
  | 'b' =>
    let (bytes, ended) := unescape byShell argument
    { put (pad d bytes) with ended := ended }
  | 'c' => put (pad d ((Text.Utf8.encode argument).take 1))
  | _ =>
    match intOf? argument with
    | some n => put (integer d n)
    | none => { put (integer d 0) with failed := true }

/-- The conversions there are. -/
def isConversion (c : Char) : Bool := "sbcdiuoxX".toList.contains c

/-- Print the format once, at most `fuel` parts of it. -/
def printOnce (byShell : Bool) : Nat → Printing → List Char → Printing
  | 0, p, _ => p
  | _ + 1, p, [] => p
  | fuel + 1, p, '%' :: '%' :: cs => printOnce byShell fuel { p with bytes := p.bytes ++ [37] } cs
  | fuel + 1, p, '%' :: cs =>
    match directiveAt? cs with
    | some (d, rest) =>
      if isConversion d.conversion then
        let p := convert byShell p d
        if p.ended then p else printOnce byShell fuel p rest
      else { p with failed := true, ended := true }
    | none => { p with failed := true, ended := true }
  | fuel + 1, p, '\\' :: cs =>
    let (bytes, rest) := escapeAt byShell false cs
    printOnce byShell fuel { p with bytes := p.bytes ++ bytes } rest
  | fuel + 1, p, c :: cs => printOnce byShell fuel { p with bytes := p.bytes ++ Text.Utf8.encode (String.singleton c) } cs

/-- Print the format again and again, at most `fuel` times. -/
def printAll (byShell : Bool) : Nat → Printing → List Char → Printing
  | 0, p, _ => p
  | fuel + 1, p, format =>
    let p := printOnce byShell (format.length + 1) { p with took := false } format
    if p.ended || !p.took || p.arguments.isEmpty then p else printAll byShell fuel p format

/-- Print arguments by a format. The answer says whether all went well. -/
def print (byShell : Bool) (format : String) (arguments : List String) : List UInt8 × Bool :=
  let p := printAll byShell (arguments.length + 1) ⟨[], arguments, false, false, false⟩ format.toList
  (p.bytes, !p.failed)

end ClusterConfig.Format
