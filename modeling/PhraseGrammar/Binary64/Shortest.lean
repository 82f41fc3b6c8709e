import PhraseGrammar.Binary64.Basic

/-!
# Shortest digits

The shortest decimal that reads back as a double, found by exact arithmetic on
its rounding interval. Of two decimals of that length the nearer one is taken.
-/

namespace PhraseGrammar.Binary64

/-- A positive decimal: digits, the first one before the point, and a power of ten. -/
structure Decimal where
  digits : List Char
  exponent : Int
  deriving DecidableEq, Repr

/-- The interval of reals that round to a double, in quarters of its unit `2 ^ exponent`. -/
structure Interval where
  low : Nat
  centre : Nat
  high : Nat
  closed : Bool
  exponent : Int

/-- At a power of two the lower neighbour is only half as far as the upper one. -/
def interval (mantissa : Nat) (exponent : Int) : Interval where
  low := if mantissa = leastMantissa ∧ leastExponent < exponent then 4 * mantissa - 1
    else 4 * mantissa - 2
  centre := 4 * mantissa
  high := 4 * mantissa + 2
  closed := mantissa % 2 = 0
  exponent := exponent

/-- `quarters · 2 ^ exponent / 4` and `count · 10 ^ scale`, both cleared of fractions alike. -/
def Interval.sides (range : Interval) (scale : Int) (quarters count : Nat) : Nat × Nat :=
  (quarters * Nat.pow 2 range.exponent.toNat * Nat.pow 10 (-scale).toNat,
    count * Nat.pow 10 scale.toNat * 4 * Nat.pow 2 (-range.exponent).toNat)

def Interval.holds (range : Interval) (scale : Int) (count : Nat) : Bool :=
  let (low, point) := range.sides scale range.low count
  let (high, _) := range.sides scale range.high count
  if range.closed then low ≤ point && point ≤ high else low < point && point < high

/-- The nearer of two neighbouring grid points, the even one if they are equally near. -/
def Interval.nearer (range : Interval) (scale : Int) (count : Nat) : Nat :=
  let (centre, below) := range.sides scale range.centre count
  let (_, above) := range.sides scale range.centre (count + 1)
  let down := centre - below
  let up := above - centre
  if down < up ∨ (down = up ∧ count % 2 = 0) then count else count + 1

/-- The point of the grid `10 ^ scale` that stands for the double, if there is one. -/
def Interval.point? (range : Interval) (scale : Int) : Option Nat :=
  let (num, den) := range.sides scale range.centre 1
  let below := num / den
  match range.holds scale below, range.holds scale (below + 1) with
  | true, true => some (range.nearer scale below)
  | true, false => some below
  | false, true => some (below + 1)
  | false, false => none

/-- The greatest power of ten that is at most `num / den`. -/
def decimalOrder (num den : Nat) : Int :=
  let guess : Int := ((toString num).length : Int) - (toString den).length
  if num * Nat.pow 10 (-guess).toNat < den * Nat.pow 10 guess.toNat then guess - 1 else guess

/-- The decimal of a grid point, without zeros at its end. -/
def Decimal.ofPoint (point : Nat) (scale : Int) : Decimal :=
  let digits := (toString point).toList
  ⟨(digits.reverse.dropWhile (· = '0')).reverse, scale + digits.length - 1⟩

/-- The first of the grids with 1, 2, … 17 digits that has a point for the double. -/
def shortest (mantissa : Nat) (exponent : Int) : Decimal :=
  let range := interval mantissa exponent
  let (num, den) := range.sides 0 range.centre 1
  let order := decimalOrder num den
  let hit := (List.range 17).findSome? fun (extra : Nat) =>
    (range.point? (order - extra)).map fun point => Decimal.ofPoint point (order - extra)
  hit.getD ⟨['0'], 0⟩

end PhraseGrammar.Binary64
