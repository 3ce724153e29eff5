import ClusterConfig.Decimal.Notation
import ClusterConfig.Yaml.Node
import ClusterConfig.Yaml.Token

/-!
# What a scalar stands for

A plain scalar without a tag is null, a boolean, an integer, a double or a string, tried in this order. Digits after a leading
zero make a string. An integer that fits no word but fits twice the width stands for nothing. The tags of the core types force a
type; quoted and block scalars are strings otherwise.
-/

namespace ClusterConfig.Yaml.Resolution

/-- The text of null. -/
def isNull (s : String) : Bool := s == "null" || s == "Null" || s == "NULL" || s == "~"

/-- The boolean that a text names. -/
def bool? (s : String) : Option Bool :=
  if s == "true" || s == "True" || s == "TRUE" then some true
  else if s == "false" || s == "False" || s == "FALSE" then some false
  else none

/-- Digits with a leading zero, after an optional sign. Such a text is no number. -/
def isZeroPadded (cs : List Char) : Bool :=
  let digits := match cs with
    | '+' :: rest | '-' :: rest => rest
    | cs => cs
  match digits with
  | '0' :: d :: rest => (d :: rest).all Char.isDigit
  | _ => false

/-- The base that a text is written in after a zero and a letter, and its digits. -/
def radix? : List Char → Option (Nat × List Char)
  | '0' :: 'x' :: digits => some (16, digits)
  | '0' :: 'o' :: digits => some (8, digits)
  | '0' :: 'b' :: digits => some (2, digits)
  | _ => none

/-- An integer with an optional sign, in base ten or with a letter for its base. -/
def integer? (cs : List Char) : Option Int :=
  let negative := cs.head? == some '-'
  let unsigned := match cs with
    | '+' :: rest | '-' :: rest => rest
    | cs => cs
  let magnitude := match radix? unsigned with
    | some (base, digits) => Decimal.natOfDigits? base digits
    | none => if isZeroPadded cs then none else Decimal.natOfDigits? 10 unsigned
  magnitude.map fun n => if negative then -(n : Int) else n

/-- The double that a text names: a finite decimal, an infinity or the value that is no number. -/
def float? (s : String) : Option Binary64 :=
  let named := fun (names : List String) => names.contains s
  if named [".inf", ".Inf", ".INF", "+.inf", "+.Inf", "+.INF"] then some (Binary64.infinity false)
  else if named ["-.inf", "-.Inf", "-.INF"] then some (Binary64.infinity true)
  else if named [".nan", ".NaN", ".NAN"] then some Binary64.nan
  else (Decimal.ofChars? s.toList).bind fun d => if d.toBinary64.isFinite then some d.toBinary64 else none

/-- What trying to read a text as an integer gives. -/
inductive IntegerOutcome where
  | fits (n : Number)
  /-- Too wide for a word, but not for two. -/
  | unusable
  | notInteger

/-- An integer, told apart by its width. -/
def integerOutcome (s : String) : IntegerOutcome :=
  match integer? s.toList with
  | none => .notInteger
  | some n =>
    match Number.ofInt? n with
    | some number => .fits number
    | none => if -0x80000000000000000000000000000000 ≤ n ∧ n < 0x100000000000000000000000000000000 then .unusable else .notInteger

/-- The node of a plain scalar; none where it stands for nothing. -/
def plain (s : String) : Option Node :=
  if s == "" || isNull s then some .null
  else match bool? s with
    | some b => some (.bool b)
    | none =>
      match integerOutcome s with
      | .fits n => some (.number n)
      | .unusable => none
      | .notInteger =>
        match if isZeroPadded s.toList then none else float? s with
        | some x => some (.number (.float x))
        | none => some (.string s)

/-- The tags of the core types. -/
inductive CoreTag where
  | null
  | bool
  | int
  | float
  deriving DecidableEq

/-- The core type that a full tag names. -/
def coreTag? (tag : List UInt8) : Option CoreTag :=
  let is := fun (name : String) => tag == Text.Utf8.encode ("tag:yaml.org,2002:" ++ name)
  if is "null" then some .null
  else if is "bool" then some .bool
  else if is "int" then some .int
  else if is "float" then some .float
  else none

/-- The node of a scalar under a core tag. -/
def forced (tag : CoreTag) (s : String) : Option Node :=
  match tag with
  | .null => if isNull s then some .null else none
  | .bool => (bool? s).map .bool
  | .int =>
    match integerOutcome s with
    | .fits n => some (.number n)
    | _ => none
  | .float => (float? s).map fun x => .number (.float x)

/-- The name of a local tag, which starts with a mark; none for other tags and for bytes that are no text. -/
def localTag? (tag : List UInt8) : Option String :=
  if tag.head? = some 33 then (Text.Utf8.decode? tag).map Node.tagName else none

/-- The node of a scalar with its full tag, where that is not a local one. -/
def scalar (tag : Option (List UInt8)) (s : Scalar) : Option Node :=
  match tag with
  | none => if s.style = .plain then plain s.text else some (.string s.text)
  | some t =>
    match coreTag? t with
    | some core => forced core s.text
    | none => if t.head? = some 33 ∧ s.style = .plain then plain s.text else some (.string s.text)

/-- The node of a scalar below a local tag. -/
def tagged (s : Scalar) : Option Node := if s.style = .plain then plain s.text else some (.string s.text)

end ClusterConfig.Yaml.Resolution
