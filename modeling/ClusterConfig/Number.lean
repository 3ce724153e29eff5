import ClusterConfig.Decimal.Shortest

/-!
# Numbers of a cluster description

A number is an integer that fits a 64-bit word, signed or unsigned, or a double. The two kinds are never equal to each
other. The text of a number is the one that is written to a file and that a number gets as a key.
-/

namespace ClusterConfig

/-- An integer that fits a signed or an unsigned 64-bit word. -/
structure WordInt where
  val : Int
  lower : -0x8000000000000000 ≤ val
  upper : val < 0x10000000000000000
  deriving DecidableEq

namespace WordInt

/-- An integer, if it fits. -/
def ofInt? (n : Int) : Option WordInt :=
  if h : -0x8000000000000000 ≤ n ∧ n < 0x10000000000000000 then some ⟨n, h.1, h.2⟩ else none

end WordInt

/-- A number: integers and doubles are kept apart. -/
inductive Number where
  | int (n : WordInt)
  | float (x : Binary64)
  deriving DecidableEq

namespace Number

/-- A number from an integer that fits a word. -/
def ofInt? (n : Int) : Option Number := (WordInt.ofInt? n).map int

/-- A number from a signed word. -/
def ofInt64 (n : Int64) : Number :=
  int ⟨n.toInt, n.le_toInt, by have := n.toInt_lt; omega⟩

/-- A number from an unsigned word. -/
def ofUInt64 (n : UInt64) : Number :=
  int ⟨n.toNat, by omega, by have := n.toNat_lt; omega⟩

/-- Equality of numbers: integers by value, doubles by `Binary64.same`, and never one of each. -/
def same : Number → Number → Bool
  | int m, int n => m == n
  | float x, float y => x.same y
  | _, _ => false

/-- The value as a signed word, for an integer in its range. -/
def toSigned? : Number → Option Int
  | int n => if n.val < 0x8000000000000000 then some n.val else none
  | float _ => none

/-- The value as an unsigned word, for an integer in its range. -/
def toUnsigned? : Number → Option Nat
  | int n => if 0 ≤ n.val then some n.val.toNat else none
  | float _ => none

/-- The value as a double; an integer is rounded to the nearest one. -/
def toBinary64 : Number → Binary64
  | int n => Binary64.ofInt n.val
  | float x => x

/-- Digits with a point after the first one that is `before` digits in, for `0 < before`. -/
def pointed (digits : String) (before : Nat) : String :=
  String.ofList (digits.toList.take before) ++ "." ++ String.ofList (digits.toList.drop before)

/-- A positive decimal as text: with a point where the leading digit lies between the sixteenth place before the point and the
fifth after it, and with an exponent elsewhere. An integral value ends in one zero after the point. -/
def positional (digits : String) (exponent : Int) : String :=
  let point : Int := digits.length + exponent
  if 0 ≤ exponent ∧ point ≤ 16 then digits ++ String.ofList (List.replicate exponent.toNat '0') ++ ".0"
  else if 0 < point ∧ point ≤ 16 then pointed digits point.toNat
  else if -5 < point ∧ point ≤ 0 then "0." ++ String.ofList (List.replicate (-point).toNat '0') ++ digits
  else
    (if digits.length = 1 then digits else pointed digits 1) ++ "e" ++ toString (point - 1)

/-- The text of a double: the shortest decimal that reads back, or a name where there is no finite value. -/
def floatText (x : Binary64) : String :=
  if x.isNaN then ".nan"
  else
    let sign := if x.negative then "-" else ""
    if x.isInfinite then sign ++ ".inf"
    else if x.isZero then sign ++ "0.0"
    else
      let d := Decimal.shortest x
      sign ++ positional (toString d.digits) d.exponent

/-- The text of a number. -/
def text : Number → String
  | int n => toString n.val
  | float x => floatText x

end Number

end ClusterConfig
