import PhraseGrammar.Token.Front

/-!
# Lexemes

The tokens of a text in order, each with the place where it begins and the
character that follows it immediately. The sequence ends with the text, or
before a literal or comment that is never closed.
-/

namespace PhraseGrammar

structure Lexeme where
  token : Token
  place : Position
  follow : Option Char
  deriving DecidableEq, Repr

/-- How a text ends, and where. -/
inductive Ending where
  | eof (place : Position)
  | unterminated (form : Unclosed) (place : Position)
  deriving DecidableEq, Repr

/-- The token of `more + 1` characters that opens with `c`. -/
def Lexeme.cut (kind : Kind) (more : Nat) (c : Char) (rest : List Char) (place : Position) :
    Lexeme where
  token := ⟨kind, String.ofList (c :: rest.take more)⟩
  place := place
  follow := (rest.drop more).head?

namespace Lexeme

/-- The lexemes of a text from a place on, the first `skip` characters being spoken for. -/
def scan : List Char → Nat → Position → List Lexeme × Ending
  | [], _, place => ([], .eof place)
  | c :: rest, skip + 1, place => scan rest skip (place.advance c)
  | c :: rest, 0, place =>
      match Front.ofText c rest with
      | .layout more => scan rest more (place.advance c)
      | .token kind more =>
          let (lexemes, ending) := scan rest more (place.advance c)
          (cut kind more c rest place :: lexemes, ending)
      | .unterminated form => ([], .unterminated form place)

theorem scan_skip (text : List Char) (skip : Nat) (place : Position) :
    scan text skip place = scan (text.drop skip) 0 (place.after (text.take skip)) := by
  induction text generalizing skip place with
  | nil => simp [scan]
  | cons c rest ih =>
      cases skip with
      | zero => simp
      | succ skip => simpa [scan] using ih skip (place.advance c)

end Lexeme

/-- The lexemes of a whole text. -/
def lexemes (text : String) : List Lexeme × Ending :=
  Lexeme.scan text.toList 0 .start

end PhraseGrammar
