import PhraseGrammar.Text.Quoted

/-!
# Tokens

A grammar text is a sequence of tokens, each of one kind, with layout between
them. Places in the text count lines and columns from one; only a line feed
ends a line.
-/

namespace PhraseGrammar

structure Position where
  line : Nat
  column : Nat
  deriving DecidableEq, Repr

namespace Position

def start : Position := ⟨1, 1⟩

/-- The place after one character. -/
def advance (place : Position) (c : Char) : Position :=
  if c = '\n' then ⟨place.line + 1, 1⟩ else ⟨place.line, place.column + 1⟩

/-- The place after a piece of text. -/
def after (place : Position) (text : List Char) : Position :=
  text.foldl advance place

@[simp] theorem after_nil (place : Position) : place.after [] = place := rfl

@[simp] theorem after_cons (place : Position) (c : Char) (text : List Char) :
    place.after (c :: text) = (place.advance c).after text := rfl

theorem after_append (place : Position) (left right : List Char) :
    place.after (left ++ right) = (place.after left).after right :=
  List.foldl_append

end Position

inductive Kind where
  | ident
  | string
  | char
  | int
  | float
  | punct
  | eof
  deriving DecidableEq, Repr

/-- The name under which tokens of a kind are shown and registered. -/
def Kind.name : Kind → String
  | .ident => "Ident"
  | .string => "String"
  | .char => "Char"
  | .int => "Int"
  | .float => "Float"
  | .punct => "Punct"
  | .eof => "EOF"

/-- A kind and the characters as written; quotes belong to the text. -/
structure Token where
  kind : Kind
  text : String
  deriving DecidableEq, Repr

namespace Token

/-- The token at the end of every text. -/
def eof : Token := ⟨.eof, ""⟩

def punct (text : String) : Token := ⟨.punct, text⟩

/-- How a message names a token. -/
def describe (token : Token) : String :=
  if token.kind = .eof then "end of input" else Text.quote token.text

end Token

/-- What can be left open at the end of a text. -/
inductive Unclosed where
  | literal
  | comment
  deriving DecidableEq, Repr

def Unclosed.name : Unclosed → String
  | .literal => "string or character literal"
  | .comment => "block comment"

end PhraseGrammar
