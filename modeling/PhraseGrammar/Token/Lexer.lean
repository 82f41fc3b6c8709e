import PhraseGrammar.Error
import PhraseGrammar.Token.Lexeme

/-!
# Lexers

A lexer gives out the tokens of a text one after the other and can look one
token ahead. Looking ahead consumes nothing, and a step that fails leaves the
lexer as it was.
-/

namespace PhraseGrammar

/-- What the search for the next token comes to. -/
inductive Found where
  /-- A token, the text behind it, and the place where that text begins. -/
  | token (lexeme : Lexeme) (rest : List Char) (place : Position)
  | ended (ending : Ending)
  deriving DecidableEq, Repr

namespace Found

/-- The first token of a text, the first `skip` characters being spoken for. -/
def search : List Char → Nat → Position → Found
  | [], _, place => .ended (.eof place)
  | c :: rest, skip + 1, place => search rest skip (place.advance c)
  | c :: rest, 0, place =>
      match Front.ofText c rest with
      | .layout more => search rest more (place.advance c)
      | .token kind more =>
          .token (.cut kind more c rest place) (rest.drop more)
            (place.after (c :: rest.take more))
      | .unterminated form => .ended (.unterminated form place)

/-- The token that was found; the end of the text counts as one. -/
def token? : Found → Except GrammarError Token
  | .token lexeme _ _ => .ok lexeme.token
  | .ended (.eof _) => .ok .eof
  | .ended (.unterminated form place) => .error (.located (.unterminated form) place)

end Found

/--
A lexer's state: the text behind the last consumed token, the place where that
text begins, the place where the last consumed token began, and what has been
seen ahead.
-/
structure Lexer where
  rest : List Char
  place : Position
  last : Position
  ahead : Option Found
  deriving DecidableEq, Repr

namespace Lexer

def ofText (text : String) : Lexer :=
  ⟨text.toList, .start, .start, none⟩

/-- What follows the last consumed token, as seen before or as found now. -/
def upcoming (lexer : Lexer) : Found :=
  lexer.ahead.getD (Found.search lexer.rest 0 lexer.place)

/-- The lexer behind what was found. An open literal or comment is not passed. -/
def pass (lexer : Lexer) : Found → Lexer
  | .token lexeme rest place => ⟨rest, place, lexeme.place, none⟩
  | .ended (.eof place) => ⟨[], place, place, none⟩
  | .ended (.unterminated _ _) => lexer

/-- Consume the next token. -/
def next (lexer : Lexer) : Except GrammarError Token × Lexer :=
  let found := lexer.upcoming
  (found.token?, lexer.pass found)

/-- The next token, not consumed; it is kept if there is one. -/
def peek (lexer : Lexer) : Except GrammarError Token × Lexer :=
  let found := lexer.upcoming
  match found.token? with
  | .ok token => (.ok token, { lexer with ahead := some found })
  | .error error => (.error error, lexer)

/-- The character immediately after the last consumed token. -/
def peekChar (lexer : Lexer) : Option Char :=
  lexer.rest.head?

/-- The remaining tokens, the end left out, in at most `allowance` steps. -/
def drain : Nat → Lexer → List Token × Option GrammarError × Lexer
  | 0, lexer => ([], none, lexer)
  | allowance + 1, lexer =>
      match lexer.next with
      | (.error error, lexer) => ([], some error, lexer)
      | (.ok token, lexer) =>
          if token.kind = .eof then ([], none, lexer)
          else
            let (tokens, error, lexer) := drain allowance lexer
            (token :: tokens, error, lexer)

/--
All remaining tokens, the error that stopped them if one did, and the lexer
behind them. Each token takes a character of the text and the end one step.
-/
def toEnd (lexer : Lexer) : List Token × Option GrammarError × Lexer :=
  drain (lexer.rest.length + 1) lexer

end Lexer

end PhraseGrammar
