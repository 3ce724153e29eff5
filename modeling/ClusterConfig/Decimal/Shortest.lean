import ClusterConfig.Decimal.Notation

/-!
# The shortest decimal of a double

Among the decimals that round to a given double, the one with the fewest digits is written, and of several such the nearest
to the double. The candidates with a given number of digits are the two neighbours of the exact value on a decimal grid, so
the search tries the grids from coarse to fine.
-/

namespace ClusterConfig.Decimal

/-- The exact value of a finite double and the interval of numbers that round to it, over one denominator. -/
structure Span where
  low : Nat
  value : Nat
  high : Nat
  den : Nat
  /-- The ends of the interval round to the double too. -/
  closed : Bool

/-- The interval of a finite double's magnitude. Below a power of two the doubles lie twice as dense. -/
def Span.of (x : Binary64) : Span :=
  let m := x.significand
  let up := Nat.pow 2 (x.scale - 2).toNat
  let below := if m = Binary64.fractionLimit ∧ 1 < x.exponentField then 1 else 2
  ⟨(4 * m - below) * up, 4 * m * up, (4 * m + 2) * up, Nat.pow 2 (2 - x.scale).toNat, m % 2 = 0⟩

/-- The number `c / unit`, given over the span's denominator, lies in the span. -/
def Span.holds (s : Span) (c unit : Nat) : Bool :=
  if s.closed then decide (s.low * unit ≤ c) && decide (c ≤ s.high * unit)
  else decide (s.low * unit < c) && decide (c < s.high * unit)

/-- The exponent of the leading decimal digit of a positive fraction. -/
def leadingExponent (num den : Nat) : Int :=
  if den ≤ num then (length (num / den) : Int) - 1 else -(length ((den + num - 1) / num - 1) : Int)

/-- The grid point of `10 ^ k` next to the value that lies in its span; the nearer one where both neighbours do, and the even
one where they are equally near. -/
def Span.gridPoint? (s : Span) (k : Int) : Option Nat :=
  let up := Nat.pow 10 k.toNat * s.den
  let unit := Nat.pow 10 (-k).toNat
  let v := s.value * unit
  let a := v / up
  let below := s.holds (a * up) unit
  let above := s.holds ((a + 1) * up) unit
  if below && above then
    let r := v % up
    some (if 2 * r < up then a else if up < 2 * r then a + 1 else if a % 2 = 0 then a else a + 1)
  else if below then some a
  else if above then some (a + 1)
  else none

/-- Search from the grid of `10 ^ k` to finer ones. -/
def Span.search (s : Span) : Nat → Int → Nat × Int
  | 0, k => (s.value / s.den, k)
  | fuel + 1, k =>
    match s.gridPoint? k with
    | some c => (c, k)
    | none => s.search fuel (k - 1)

/-- Trailing zeros of the digits moved into the exponent. -/
def dropZeros : Nat → Nat → Int → Nat × Int
  | 0, n, k => (n, k)
  | fuel + 1, n, k => if n ≠ 0 ∧ n % 10 = 0 then dropZeros fuel (n / 10) (k + 1) else (n, k)

/-- The shortest decimal that rounds to a finite double. Seventeen digits always suffice. -/
def shortest (x : Binary64) : Decimal :=
  if x.isZero then ⟨x.negative, 0, 0⟩
  else
    let s := Span.of x
    let found := s.search 18 (leadingExponent s.value s.den)
    let trimmed := dropZeros 18 found.1 found.2
    ⟨x.negative, trimmed.1, trimmed.2⟩

end ClusterConfig.Decimal
