import PhraseGrammar.Text.Basic
import PhraseGrammar.Unicode.Printable

/-!
# Quoted text

Messages show a text between quotes so that everything in it can be seen; a
surrogate is written by its number. The quotes are single unless the text holds
a single quote and no double one.
-/

namespace PhraseGrammar.Text

/-- Lower-case hexadecimal digits, filled up with zeros to a width. -/
def hexDigits (width value : Nat) : List Char :=
  let digits := Nat.toDigits 16 value
  List.replicate (width - digits.length) '0' ++ digits

/-- One character as it stands between the quotes `mark`. -/
def escapeChar (mark c : Char) : List Char :=
  if c = mark ∨ c = '\\' then ['\\', c]
  else if c = '\n' then ['\\', 'n']
  else if c = '\r' then ['\\', 'r']
  else if c = '\t' then ['\\', 't']
  else if Unicode.isPrintable c then [c]
  else if c.toNat < 0x100 then '\\' :: 'x' :: hexDigits 2 c.toNat
  else if c.toNat < 0x10000 then '\\' :: 'u' :: hexDigits 4 c.toNat
  else '\\' :: 'U' :: hexDigits 8 c.toNat

def escape (mark : Char) (code : CodePoint) : List Char :=
  match code.char? with
  | some c => escapeChar mark c
  | none => '\\' :: 'u' :: hexDigits 4 code.toNat

/-- The quote that needs no escape in the text, if one of the two does not. -/
def quoteMark (text : Text) : Char :=
  if CodePoint.ofChar '\'' ∈ text.codes ∧ CodePoint.ofChar '"' ∉ text.codes then '"' else '\''

def quote (text : Text) : String :=
  let mark := quoteMark text
  String.ofList (mark :: text.codes.flatMap (escape mark) ++ [mark])

example : quote "it's" = "\"it's\"" := by decide +kernel

example : quote "\"it's\"" = "'\"it\\'s\"'" := by decide +kernel

example : quote ("a\n" ++ ⟨[⟨0xD800, by decide⟩]⟩) = "'a\\n\\ud800'" := by decide +kernel

end PhraseGrammar.Text
