import PhraseGrammar.Token.Basic

/-!
# Errors

Every refusal has a cause, and every cause one wording. An error may know the
place in the text that it is about.
-/

namespace PhraseGrammar

/-- Errors of a grammar's text and errors of use are grammar errors as well. -/
inductive ErrorKind where
  | grammar
  | parse
  | usage
  deriving DecidableEq, Repr

/-- What is wrong. A token called `got` is the one that stands in the wrong place. -/
inductive Cause where
  | unterminated (form : Unclosed)
  | expected (text : String) (got : Token)
  | noDefinition
  | expectedSymbol (got : Token)
  | expectedHint (name marker : String) (got : Token)
  | expectedRule (number : Nat) (name delimiter : String) (got : Token)
  | expectedReference (got : Token)
  | noReferenceLiteral
  | expectedContextSymbol (got : Token)
  | undeclaredContext (name : String)
  | expectedVariable (name : String) (got : Token)
  | expectedContextEnd (name : String) (got : Token)
  | expectedNumber (got : Token)
  | invalidContextValue (got : Token)
  | invalidLiteral (text : String)
  | unknownEscape (escape text : String)
  | expectedArgument (got : Token)
  | expectedArgumentEnd (got : Token)
  | unknownReference (ref name : String)
  | unboundReference (name : String)
  | rangeArity (count : Nat)
  | rangeEmpty (lo hi : Int)
  | unknownStart (symbol : Option String)
  /-- An error of a caller's own making. -/
  | custom (kind : ErrorKind) (text : String)
  deriving DecidableEq, Repr

namespace Cause

def kind : Cause → ErrorKind
  | .unboundReference _ | .rangeArity _ | .rangeEmpty _ _ => .usage
  | .unknownStart _ => .grammar
  | .custom kind _ => kind
  | _ => .parse

/-- The wording of a cause, without a place. -/
def message : Cause → String
  | .unterminated form => "unterminated " ++ form.name
  | .expected text got => "expected " ++ Text.quote text ++ ", got " ++ got.describe
  | .noDefinition => "grammar does not define any nonterminal"
  | .expectedSymbol got => "expected a nonterminal name, got " ++ got.describe
  | .expectedHint name marker got =>
      "expected an integer after " ++ name ++ marker ++ ", got " ++ got.describe
  | .expectedRule number name delimiter got =>
      "rule " ++ toString number ++ " of " ++ name ++ " should begin with " ++
        Text.quote delimiter ++ ", got " ++ got.describe
  | .expectedReference got => "expected a name after '$', got " ++ got.describe
  | .noReferenceLiteral => "'$' references need a Reference literal in the registry"
  | .expectedContextSymbol got =>
      "expected a nonterminal name in Context, got " ++ got.describe
  | .undeclaredContext name => "Context given for undeclared nonterminal " ++ Text.quote name
  | .expectedVariable name got =>
      "invalid context for nonterminal " ++ name ++ ": expected a variable name, got " ++
        got.describe
  | .expectedContextEnd name got =>
      "expected ',' or '.' in context of " ++ name ++ ", got " ++ got.describe
  | .expectedNumber got => "expected a number after '-', got " ++ got.describe
  | .invalidContextValue got => "invalid context value " ++ got.describe
  | .invalidLiteral text => "invalid literal " ++ text
  | .unknownEscape escape text => "unknown escape sequence \\" ++ escape ++ " in " ++ text
  | .expectedArgument got => "expected integer argument, got " ++ Text.quote got.text
  | .expectedArgumentEnd got =>
      "expected ',' or ')' in argument list, got " ++ Text.quote got.text
  | .unknownReference ref name =>
      "Unknown reference " ++ Text.quote ref ++ " in a rule of " ++ name
  | .unboundReference name => "reference $" ++ name ++ " is not bound in this context"
  | .rangeArity count => "range expects one or two arguments, got " ++ toString count
  | .rangeEmpty lo hi => "range(" ++ toString lo ++ ", " ++ toString hi ++ ") is empty"
  | .unknownStart symbol => "Unknown start symbol " ++ symbol.elim "None" (Text.quote ·)
  | .custom _ text => text

end Cause

/-- A cause and the place that it is about, as far as known. -/
structure GrammarError where
  cause : Cause
  line : Option Int
  column : Option Int
  deriving DecidableEq, Repr

namespace GrammarError

/-- An error without a place. -/
def bare (cause : Cause) : GrammarError := ⟨cause, none, none⟩

/-- An error at a place of the text. -/
def located (cause : Cause) (place : Position) : GrammarError :=
  ⟨cause, some place.line, some place.column⟩

def kind (error : GrammarError) : ErrorKind := error.cause.kind

/-- The wording with the place in front, if the line is known. -/
def message (error : GrammarError) : String :=
  match error.line with
  | none => error.cause.message
  | some line =>
      "line " ++ toString line ++ ", column " ++ error.column.elim "None" toString ++ ": " ++
        error.cause.message

/-- An error that knows no line gets the given place. -/
def orAt (error : GrammarError) (place : Position) : GrammarError :=
  match error.line with
  | none => located error.cause place
  | some _ => error

end GrammarError

/-- The ways in which reading a grammar ends without one. -/
inductive ParseFailure where
  | grammar (error : GrammarError)
  /-- A numeral that cannot be read, or an integer too long to be written. -/
  | numeral
  /-- An escape denotes a number that no code point could ever have. -/
  | codePointTooLarge
  /-- A character literal that denotes no single code point. -/
  | notOneCharacter
  deriving DecidableEq, Repr

namespace ParseFailure

def bare (cause : Cause) : ParseFailure := .grammar (.bare cause)

def located (cause : Cause) (place : Position) : ParseFailure :=
  .grammar (.located cause place)

/-- Grammar errors that know no line get the given place. -/
def orAt (failure : ParseFailure) (place : Position) : ParseFailure :=
  match failure with
  | .grammar error => .grammar (error.orAt place)
  | other => other

end ParseFailure

end PhraseGrammar
