import PhraseGrammar.Unicode.Digit
import PhraseGrammar.Unicode.Space

/-!
# Written integers

An integer is written in decimal with the digits of any script, or in
hexadecimal after `0x`. Single underscores may separate digits. Decimal
notation is limited in length, both for reading and for writing; hexadecimal
notation is not.
-/

namespace PhraseGrammar.Numeral

/-- The greatest number of digits of a decimal numeral. -/
def digitLimit : Nat := 4300

/-- The number that digits denote in a base, the most significant one first. -/
def ofDigits (base : Nat) (digits : List Nat) : Nat :=
  digits.foldl (fun value digit => value * base + digit) 0

/--
The values of digits that single underscores may separate. There is at least
one digit, and no underscore at either end.
-/
def grouped? (value? : Char → Option Nat) : List Char → Option (List Nat)
  | [] => none
  | [c] => (value? c).map ([·])
  | c :: '_' :: rest =>
      match value? c, grouped? value? rest with
      | some value, some values => some (value :: values)
      | _, _ => none
  | c :: next :: rest =>
      match value? c, grouped? value? (next :: rest) with
      | some value, some values => some (value :: values)
      | _, _ => none

/--
The whitespace that may surround a numeral. Of the ASCII characters only the
blank, the tabulations and the line and page breaks count.
-/
def isMargin (c : Char) : Bool :=
  if c.toNat < 0x80 then c = ' ' || (0x09 ≤ c.toNat && c.toNat ≤ 0x0D)
  else Unicode.isSpace c

def dropTrailingMargin (text : List Char) : List Char :=
  (text.reverse.dropWhile isMargin).reverse

def dropMargins (text : List Char) : List Char :=
  dropTrailingMargin (text.dropWhile isMargin)

/-- A leading sign, true for a minus, and what follows it. -/
def splitSign : List Char → Bool × List Char
  | '-' :: rest => (true, rest)
  | '+' :: rest => (false, rest)
  | text => (false, text)

/-- A decimal numeral within the length limit. -/
def readDecimal? (text : List Char) : Option Int :=
  let (negative, body) := splitSign (dropMargins text)
  match grouped? Unicode.digit? body with
  | none => none
  | some digits =>
      if digits.length ≤ digitLimit then
        let value : Int := ofDigits 10 digits
        some (if negative then -value else value)
      else none

/-- A hexadecimal digit: a decimal digit of any script or an ASCII letter. -/
def hexadecimal? (c : Char) : Option Nat :=
  Unicode.digit? c <|> Unicode.hexDigit? c

/-- What may follow `0x`: digits of base 16, also after one underscore. -/
def readHexadecimal? (text : List Char) : Option Int :=
  let body := dropTrailingMargin text
  let digits := match body with
    | '_' :: rest => rest
    | _ => body
  (grouped? hexadecimal? digits).map fun values => (ofDigits 16 values : Int)

/-- The integer that a text denotes. -/
def readInteger? (text : String) : Option Int :=
  match text.toList with
  | '0' :: 'x' :: rest => readHexadecimal? rest
  | '0' :: 'X' :: rest => readHexadecimal? rest
  | whole => readDecimal? whole

/-- The least number with more digits than a numeral may have. -/
def decimalBound : Nat := Nat.pow 10 digitLimit

theorem decimalBound_pos : 0 < decimalBound := by
  have positive (limit : Nat) : 0 < Nat.pow 10 limit := Nat.pow_pos (by decide)
  unfold decimalBound
  exact positive digitLimit

/-- The decimal numeral of an integer, unless it is longer than the limit. -/
def decimal? (value : Int) : Option String :=
  if value.natAbs < decimalBound then some (toString value) else none

theorem isSome_decimal? {value : Int} :
    (decimal? value).isSome = true ↔ value.natAbs < decimalBound := by
  unfold decimal?
  split <;> simp_all

theorem isSome_decimal?_zero : (decimal? 0).isSome = true := by
  rw [isSome_decimal?, Int.natAbs_zero]
  exact decimalBound_pos

theorem eq_toString_of_decimal? {value : Int} {text : String}
    (written : decimal? value = some text) : text = toString value := by
  unfold decimal? at written
  split at written
  · exact (Option.some.inj written).symm
  · cases written

theorem decimal?_eq_toString {value : Int} (short : (decimal? value).isSome = true) :
    decimal? value = some (toString value) := by
  obtain ⟨text, written⟩ := Option.isSome_iff_exists.mp short
  rw [written, eq_toString_of_decimal? written]

/-- What lies between two integers that can be written can be written. -/
theorem isSome_decimal?_of_between {lo value hi : Int} (left : (decimal? lo).isSome = true)
    (right : (decimal? hi).isSome = true) (above : lo ≤ value) (below : value < hi) :
    (decimal? value).isSome = true := by
  rw [isSome_decimal?] at left right ⊢
  omega

end PhraseGrammar.Numeral
