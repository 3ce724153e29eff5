/-!
# Binary floating point of double precision

A double is its 64-bit word. The fields of the word give the exact value `significand * 2 ^ scale` of a finite double, and
`nearest` goes the other way: from an exact fraction to the closest double, where a fraction halfway between two doubles goes
to the one with the even significand. No operation here uses hardware arithmetic.
-/

namespace ClusterConfig

/-- A double-precision number, as its word. -/
structure Binary64 where
  bits : UInt64
  deriving DecidableEq, Repr

namespace Binary64

/-- Number of stored fraction values. -/
def fractionLimit : Nat := 0x10000000000000

/-- The exponent field of infinities and of what is not a number. -/
def topExponent : Nat := 2047

/-- The word of positive infinity. -/
def infinityWord : Nat := topExponent * fractionLimit

/-- The sign bit is set. -/
def negative (x : Binary64) : Bool := decide (0x8000000000000000 ≤ x.bits.toNat)

/-- The word without its sign bit. -/
def magnitude (x : Binary64) : Nat := x.bits.toNat % 0x8000000000000000

/-- The exponent field. -/
def exponentField (x : Binary64) : Nat := x.magnitude / fractionLimit

/-- The stored fraction. -/
def fraction (x : Binary64) : Nat := x.magnitude % fractionLimit

/-- The word stands for no number. -/
def isNaN (x : Binary64) : Bool := decide (infinityWord < x.magnitude)

/-- The word stands for one of the two infinities. -/
def isInfinite (x : Binary64) : Bool := x.magnitude == infinityWord

/-- The word stands for a number. -/
def isFinite (x : Binary64) : Bool := decide (x.magnitude < infinityWord)

/-- Positive or negative zero. -/
def isZero (x : Binary64) : Bool := x.magnitude == 0

/-- The integer part of the exact value: the fraction, with the leading one that normal numbers do not store. -/
def significand (x : Binary64) : Nat :=
  if x.exponentField = 0 then x.fraction else fractionLimit + x.fraction

/-- The power of two that the significand is scaled by. -/
def scale (x : Binary64) : Int := (max 1 x.exponentField : Nat) - (1075 : Int)

/-- Two doubles that stand for the same number; what is not a number is taken as one value, and both zeros are the same. -/
def same (x y : Binary64) : Bool :=
  (x.isNaN && y.isNaN) || (!x.isNaN && !y.isNaN && ((x.isZero && y.isZero) || x == y))

/-- A double from its sign and the rest of the word. -/
def ofMagnitude (negative : Bool) (magnitude : Nat) : Binary64 :=
  ⟨UInt64.ofNat ((if negative then 0x8000000000000000 else 0) + magnitude)⟩

/-- Infinity with the given sign. -/
def infinity (negative : Bool) : Binary64 := ofMagnitude negative infinityWord

/-- The quiet word that is written where no number results. -/
def nan : Binary64 := ofMagnitude false (infinityWord + fractionLimit / 2)

/-- The largest `k` with `2 ^ k ≤ num / den`, for a positive fraction. -/
def floorLog2 (num den : Nat) : Int :=
  let k : Int := (Nat.log2 num : Int) - (Nat.log2 den : Int)
  if num * Nat.pow 2 (-k).toNat < den * Nat.pow 2 k.toNat then k - 1 else k

/-- The quotient rounded to the nearest integer, a tie to the even one. -/
def roundHalfEven (num den : Nat) : Nat :=
  let q := num / den
  let r := num % den
  if 2 * r < den then q else if den < 2 * r then q + 1 else if q % 2 = 0 then q else q + 1

/-- The double closest to `num / den`. A value beyond the largest double by half a unit or more is infinite. -/
def nearest (negative : Bool) (num den : Nat) : Binary64 :=
  if num = 0 then ofMagnitude negative 0
  else
    let e : Int := max (-1074) (floorLog2 num den - 52)
    let m := roundHalfEven (num * Nat.pow 2 (-e).toNat) (den * Nat.pow 2 e.toNat)
    ofMagnitude negative (min infinityWord ((e + 1074).toNat * fractionLimit + m))

/-- The double closest to an integer. -/
def ofInt (n : Int) : Binary64 := nearest (decide (n < 0)) n.natAbs 1

end Binary64

end ClusterConfig
