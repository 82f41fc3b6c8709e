import PhraseGrammar.Unicode.Digit

/-!
# Escapes in literals

After a backslash an escape has one of the long forms: `x`, `u` or `U` with
two, four or eight hexadecimal digits, or three octal digits. Every other
escape is a single character.
-/

namespace PhraseGrammar.Escape

/-- The text opens with that many characters of a class. -/
def opensWith (count : Nat) (holds : Char → Bool) (text : List Char) : Bool :=
  (text.take count).length = count && (text.take count).all holds

/-- The length of the long form at the front of a text, the backslash left out. -/
def longForm? : List Char → Option Nat
  | 'x' :: rest => if opensWith 2 Unicode.isHexDigit rest then some 3 else none
  | 'u' :: rest => if opensWith 4 Unicode.isHexDigit rest then some 5 else none
  | 'U' :: rest => if opensWith 8 Unicode.isHexDigit rest then some 9 else none
  | rest => if opensWith 3 Unicode.isOctalDigit rest then some 3 else none

/-- The number of characters that an escape takes after its backslash. -/
def extent (text : List Char) : Nat :=
  (longForm? text).getD 1

end PhraseGrammar.Escape
