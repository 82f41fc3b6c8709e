import PhraseGrammar.Token.Basic
import PhraseGrammar.Token.Escape
import PhraseGrammar.Unicode.Space
import PhraseGrammar.Unicode.Word

/-!
# The front of a text

What stands at the front of a nonempty text is decided from its first
character on: a piece of layout, a token, or a literal or comment that is never
closed. Lengths are counted after the first character.
-/

namespace PhraseGrammar

inductive Front where
  | layout (more : Nat)
  | token (kind : Kind) (more : Nat)
  | unterminated (form : Unclosed)
  deriving DecidableEq, Repr

namespace Front

/-- The number of characters of a class at the front of a text. -/
def run (holds : Char → Bool) (text : List Char) : Nat :=
  (text.takeWhile holds).length

/-- The length of a point with digits after it. -/
def fraction : List Char → Nat
  | '.' :: rest =>
      let digits := run Unicode.isDigit rest
      if digits = 0 then 0 else digits + 1
  | _ => 0

def sign : List Char → Nat
  | '+' :: _ => 1
  | '-' :: _ => 1
  | _ => 0

/-- The length of `e` with an integer after it. -/
def exponent : List Char → Nat
  | [] => 0
  | mark :: rest =>
      let digits := run Unicode.isDigit (rest.drop (sign rest))
      if (mark = 'e' ∨ mark = 'E') ∧ digits ≠ 0 then sign rest + digits + 1 else 0

/-- The length of `x` with hexadecimal digits after it, behind a zero. -/
def hexadecimal (c : Char) : List Char → Nat
  | [] => 0
  | mark :: rest =>
      let digits := run Unicode.isHexDigit rest
      if c = '0' ∧ (mark = 'x' ∨ mark = 'X') ∧ digits ≠ 0 then digits + 1 else 0

/-- A fraction or an exponent makes a number a float. -/
def number (c : Char) (rest : List Char) : Front :=
  let whole := run Unicode.isDigit rest
  let point := fraction (rest.drop whole)
  let power := exponent ((rest.drop whole).drop point)
  if point + power ≠ 0 then .token .float (whole + point + power)
  else if hexadecimal c rest ≠ 0 then .token .int (hexadecimal c rest)
  else .token .int whole

/--
The length of a string's body with its closing quote. A backslash takes the
next character with it, whatever it is; a line feed of its own ends the search.
-/
def stringBody? : List Char → Option Nat
  | [] => none
  | '"' :: _ => some 1
  | '\n' :: _ => none
  | '\\' :: _ :: rest => (stringBody? rest).map (· + 2)
  | _ :: rest => (stringBody? rest).map (· + 1)

/-- The length of one character, plain or escaped, with the closing quote. -/
def charBody? : List Char → Option Nat
  | '\\' :: rest =>
      if rest[Escape.extent rest]? = some '\'' then some (Escape.extent rest + 2) else none
  | '\'' :: _ => none
  | '\n' :: _ => none
  | _ :: '\'' :: _ => some 2
  | _ => none

/-- The length of a comment's body with its closing mark. -/
def commentBody? : List Char → Option Nat
  | [] => none
  | '*' :: '/' :: _ => some 2
  | _ :: rest => (commentBody? rest).map (· + 1)

def literal (kind : Kind) : Option Nat → Front
  | some more => .token kind more
  | none => .unterminated .literal

/-- What opens with a given character, the rest of the text following. -/
def ofText (c : Char) (rest : List Char) : Front :=
  if Unicode.isSpace c then .layout 0
  else if Unicode.isDigit c then number c rest
  else if Unicode.isNameStart c then .token .ident (run Unicode.isWord rest)
  else if c = '"' then literal .string (stringBody? rest)
  else if c = '\'' then literal .char (charBody? rest)
  else match c, rest with
    | '/', '/' :: tail => .layout (run (· ≠ '\n') tail + 1)
    | '/', '*' :: tail =>
        match commentBody? tail with
        | some more => .layout (more + 1)
        | none => .unterminated .comment
    | _, _ => .token .punct 0

end Front

end PhraseGrammar
