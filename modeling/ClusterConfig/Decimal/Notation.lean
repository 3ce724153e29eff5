import ClusterConfig.Decimal.Binary64

/-!
# Reading a decimal

The grammar of decimal notation: an optional sign, digits with at most one point among or around them, and an optional
exponent. What is read is an exact decimal, and `Decimal.toBinary64` rounds it once.
-/

namespace ClusterConfig

/-- The exact number `± digits * 10 ^ exponent`. -/
structure Decimal where
  negative : Bool
  digits : Nat
  exponent : Int
  deriving DecidableEq, Repr

namespace Decimal

/-- The value of a digit in bases up to sixteen. -/
def digitValue? (c : Char) : Option Nat :=
  if '0' ≤ c ∧ c ≤ '9' then some (c.toNat - 48)
  else if 'a' ≤ c ∧ c ≤ 'f' then some (c.toNat - 87)
  else if 'A' ≤ c ∧ c ≤ 'F' then some (c.toNat - 55)
  else none

/-- The number that digits of a base stand for; none for an empty text or one with another character. -/
def natOfDigits? (base : Nat) (cs : List Char) : Option Nat :=
  if cs.isEmpty then none
  else cs.foldlM (fun n c => (digitValue? c).bind fun d => if d < base then some (n * base + d) else none) 0

/-- An integer in a base, with an optional sign. -/
def intOfDigits? (base : Nat) : List Char → Option Int
  | '-' :: cs => (natOfDigits? base cs).map fun n => -(n : Int)
  | '+' :: cs => (natOfDigits? base cs).map Int.ofNat
  | cs => (natOfDigits? base cs).map Int.ofNat

/-- The exponent part: nothing, or `e` with an integer. -/
def exponentPart? : List Char → Option Int
  | [] => some 0
  | c :: cs => if c = 'e' ∨ c = 'E' then intOfDigits? 10 cs else none

/-- An unsigned decimal. At least one digit stands before or after the point. -/
def unsigned? (negative : Bool) (cs : List Char) : Option Decimal :=
  let whole := cs.takeWhile Char.isDigit
  let rest := cs.dropWhile Char.isDigit
  let part := match rest with
    | '.' :: more => more.takeWhile Char.isDigit
    | _ => []
  let tail := match rest with
    | '.' :: more => more.dropWhile Char.isDigit
    | _ => rest
  (natOfDigits? 10 (whole ++ part)).bind fun n =>
    (exponentPart? tail).map fun e => ⟨negative, n, e - part.length⟩

/-- A decimal with an optional sign. -/
def ofChars? : List Char → Option Decimal
  | '-' :: cs => unsigned? true cs
  | '+' :: cs => unsigned? false cs
  | cs => unsigned? false cs

/-- How many digits a number has in base ten; zero has one. -/
def length (n : Nat) : Nat := (Nat.toDigits 10 n).length

/-- The double closest to a decimal. Exponents far outside the range of doubles are settled without computing the power. -/
def toBinary64 (d : Decimal) : Binary64 :=
  let top := d.exponent + length d.digits
  if d.digits = 0 ∨ top < -400 then Binary64.ofMagnitude d.negative 0
  else if 400 < top then Binary64.infinity d.negative
  else Binary64.nearest d.negative (d.digits * Nat.pow 10 d.exponent.toNat)
    (Nat.pow 10 (-d.exponent).toNat)

end Decimal

end ClusterConfig
