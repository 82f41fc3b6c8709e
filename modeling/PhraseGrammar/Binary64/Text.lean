import PhraseGrammar.Binary64.Rounding
import PhraseGrammar.Binary64.Shortest
import PhraseGrammar.Numeral.Integer

/-!
# The text of a double

Reading takes a decimal with an optional fraction and exponent, digits of any
script, or a name of infinity or NaN. Writing gives the fewest digits that read
back, positionally for exponents that are neither far below nor far above zero.
-/

namespace PhraseGrammar.Binary64

open Numeral

/-- The characters of a group of digits, and the rest. -/
def spanGroup (text : List Char) : List Char × List Char :=
  text.span fun c => Unicode.isDigit c || c = '_'

/-- A group that may be missing but is well formed otherwise. -/
def groupDigits? (group : List Char) : Option (List Nat) :=
  if group = [] then some [] else grouped? Unicode.digit? group

/-- The exponent that a text of its own denotes: nothing, or `e` with an integer. -/
def readExponent? : List Char → Option Int
  | [] => some 0
  | mark :: rest =>
      if mark = 'e' ∨ mark = 'E' then
        let (negative, body) := splitSign rest
        (grouped? Unicode.digit? body).map fun digits =>
          let value : Int := ofDigits 10 digits
          if negative then -value else value
      else none

/-- An unsigned decimal: digits on at least one side of the point. -/
def readDecimal? (negative : Bool) (text : List Char) : Option Binary64 :=
  let (whole, afterWhole) := spanGroup text
  let (fraction, afterFraction) := match afterWhole with
    | '.' :: rest => spanGroup rest
    | rest => ([], rest)
  match groupDigits? whole, groupDigits? fraction, readExponent? afterFraction with
  | some left, some right, some exponent =>
      if left = [] ∧ right = [] then none
      else some (ofDecimal negative (ofDigits 10 (left ++ right)) (exponent - right.length))
  | _, _, _ => none

/-- The names of the values that have no digits, in any mixture of cases. -/
def readName? (negative : Bool) (text : List Char) : Option Binary64 :=
  let name := String.ofList (text.map Char.toLower)
  if name = "inf" ∨ name = "infinity" then some (.infinite negative)
  else if name = "nan" then some .nan
  else none

/-- The double nearest to the number that a text denotes. -/
def read? (text : String) : Option Binary64 :=
  let (negative, body) := splitSign (dropMargins text.toList)
  readName? negative body <|> readDecimal? negative body

/-- How the digits of a double are laid out. -/
structure Layout where
  /-- The exponents of ten that are written positionally. -/
  leastPositional : Int
  greatestPositional : Int
  /-- The least number of digits of a written exponent. -/
  exponentWidth : Nat

/-- Positional from `0.0001` up to 16 digits before the point; exponents of two digits at least. -/
def layout : Layout := ⟨-4, 15, 2⟩

/-- Positional notation always shows a digit after the point. -/
def Decimal.positional (decimal : Decimal) : List Char :=
  if decimal.exponent < 0 then
    '0' :: '.' :: List.replicate (-decimal.exponent - 1).toNat '0' ++ decimal.digits
  else
    let width := decimal.exponent.toNat + 1
    let whole := decimal.digits.take width
    let fraction := decimal.digits.drop width
    whole ++ List.replicate (width - whole.length) '0' ++
      '.' :: (if fraction = [] then ['0'] else fraction)

/-- Scientific notation shows the sign of its exponent. -/
def Decimal.scientific (style : Layout) (decimal : Decimal) : List Char :=
  let fraction := decimal.digits.drop 1
  let size := (toString decimal.exponent.natAbs).toList
  decimal.digits.take 1 ++ (if fraction = [] then [] else '.' :: fraction) ++
    'e' :: (if decimal.exponent < 0 then '-' else '+') ::
      (List.replicate (style.exponentWidth - size.length) '0' ++ size)

def Decimal.text (style : Layout) (decimal : Decimal) : List Char :=
  if style.leastPositional ≤ decimal.exponent ∧ decimal.exponent ≤ style.greatestPositional then
    decimal.positional
  else decimal.scientific style

def text : Binary64 → String
  | .nan => "nan"
  | .infinite negative => if negative then "-inf" else "inf"
  | .finite negative mantissa exponent =>
      let body := if mantissa = 0 then "0.0"
        else String.ofList ((shortest mantissa exponent).text layout)
      if negative then "-" ++ body else body

example : (ofDecimal false 1 (-1)).text = "0.1" := by decide +kernel

example : (ofDecimal true 0 0).text = "-0.0" := by decide +kernel

example : (ofDecimal false 1 15).text = "1000000000000000.0" := by decide +kernel

example : (ofDecimal false 1 16).text = "1e+16" := by decide +kernel

example : (ofDecimal false 15 (-8)).text = "1.5e-07" := by decide +kernel

end PhraseGrammar.Binary64
