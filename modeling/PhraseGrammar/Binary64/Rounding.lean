import PhraseGrammar.Binary64.Basic

/-!
# Rounding to a double

A quotient of natural numbers goes to the nearest double, a half to the
neighbour with the even mantissa.
-/

namespace PhraseGrammar.Binary64

/-- The nearest natural number to a quotient, a half going to the even one. -/
def divNearest (num den : Nat) : Nat :=
  let quotient := num / den
  let twice := 2 * (num % den)
  if twice < den ∨ (twice = den ∧ quotient % 2 = 0) then quotient else quotient + 1

/-- The greatest `k` with `2 ^ k ≤ num / den`, for positive arguments. -/
def binaryOrder (num den : Nat) : Int :=
  let guess : Int := (num.log2 : Int) - den.log2
  if num * Nat.pow 2 (-guess).toNat < den * Nat.pow 2 guess.toNat then guess - 1 else guess

def ofRatio (negative : Bool) (num den : Nat) : Binary64 :=
  if num = 0 then zero negative
  else
    let exponent := max (binaryOrder num den - 52) leastExponent
    let mantissa := divNearest
      (num * Nat.pow 2 (-exponent).toNat) (den * Nat.pow 2 exponent.toNat)
    let (mantissa, exponent) :=
      if mantissa = 2 * leastMantissa then (leastMantissa, exponent + 1)
      else (mantissa, exponent)
    if exponent > greatestExponent then .infinite negative
    else .finite negative mantissa exponent

/--
The double nearest to `mantissa · 10 ^ exponent`. Numbers of more than 400
digits before the point are beyond every double, and those that open with 400
zeros after it are below every one.
-/
def ofDecimal (negative : Bool) (mantissa : Nat) (exponent : Int) : Binary64 :=
  let order := ((toString mantissa).length : Int) + exponent
  if mantissa = 0 ∨ order < -400 then zero negative
  else if order > 400 then .infinite negative
  else ofRatio negative (mantissa * Nat.pow 10 exponent.toNat) (Nat.pow 10 (-exponent).toNat)

end PhraseGrammar.Binary64
