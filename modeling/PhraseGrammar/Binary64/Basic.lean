/-!
# Double-precision numbers

A number with a fraction is kept in the binary64 format: 53 bits of mantissa
and an exponent of two between -1074 and 971. Arithmetic on it is exact
arithmetic on natural numbers followed by one rounding.
-/

namespace PhraseGrammar

/--
A double. A finite one is `mantissa · 2 ^ exponent` with its sign; the mantissa
stays below `2 ^ 53`, and below `2 ^ 52` only at the least exponent.
-/
inductive Binary64 where
  | nan
  | infinite (negative : Bool)
  | finite (negative : Bool) (mantissa : Nat) (exponent : Int)
  deriving DecidableEq, Repr, Inhabited

namespace Binary64

def leastExponent : Int := -1074

def greatestExponent : Int := 971

/-- The least mantissa of all exponents but the least; twice that is beyond every mantissa. -/
def leastMantissa : Nat := Nat.pow 2 52

/-- Zero keeps its sign. -/
def zero (negative : Bool) : Binary64 :=
  .finite negative 0 leastExponent

def isZero : Binary64 → Bool
  | .finite _ mantissa _ => mantissa = 0
  | _ => false

def neg : Binary64 → Binary64
  | .nan => .nan
  | .infinite negative => .infinite !negative
  | .finite negative mantissa exponent => .finite (!negative) mantissa exponent

/-- Whether an integer is at most a double, compared exactly. Nothing is at most NaN. -/
def atLeast (bound : Binary64) (value : Int) : Bool :=
  match bound with
  | .nan => false
  | .infinite negative => !negative
  | .finite negative mantissa exponent =>
      let signed : Int := if negative then -(mantissa : Int) else mantissa
      value * Nat.pow 2 (-exponent).toNat ≤ signed * Nat.pow 2 exponent.toNat

end Binary64

end PhraseGrammar
