import PhraseGrammar.Error
import PhraseGrammar.Token.Escape

/-!
# Literals

A literal is written between quotes. Its escapes stand for single code points,
surrogates among them, and everything else for itself.
-/

namespace PhraseGrammar.Literal

/-- Why an escape stands for no code point. -/
inductive EscapeFailure where
  | unknown (escape : List Char)
  | codePointTooLarge
  deriving DecidableEq, Repr

/-- The escapes of one character. -/
def short? : Char → Option Char
  | 'a' => some '\x07'
  | 'b' => some '\x08'
  | 'f' => some '\x0c'
  | 'n' => some '\n'
  | 'r' => some '\r'
  | 't' => some '\t'
  | 'v' => some '\x0b'
  | '\\' => some '\\'
  | '\'' => some '\''
  | '"' => some '"'
  | _ => none

/-- The number that digits write in a base of at most sixteen. -/
def number (base : Nat) (digits : List Char) : Nat :=
  digits.foldl (fun value c => value * base + (Unicode.hexDigit? c).getD 0) 0

/-- The code point that an escape stands for, the backslash left out. -/
def value (escape : List Char) : Except EscapeFailure CodePoint :=
  match escape with
  | [c] => (short? c).elim (.error (.unknown escape)) fun c => .ok c
  | c :: digits =>
      let code := if c = 'x' ∨ c = 'u' ∨ c = 'U' then number 16 digits else number 8 escape
      if 0x80000000 ≤ code then .error .codePointTooLarge
      else (CodePoint.ofNat? code).elim (.error (.unknown escape)) .ok
  | [] => .error (.unknown [])

/--
The code points that the body of a literal stands for, its first `skip`
characters being spoken for. A backslash at the very end stands for itself.
-/
def decode : List Char → Nat → Except EscapeFailure (List CodePoint)
  | [], _ => .ok []
  | _ :: rest, skip + 1 => decode rest skip
  | c :: rest, 0 =>
      if c = '\\' ∧ rest ≠ [] then
        let extent := Escape.extent rest
        match value (rest.take extent) with
        | .error failure => .error failure
        | .ok decoded => (decode rest extent).map (decoded :: ·)
      else (decode rest 0).map (.ofChar c :: ·)

/-- The text between the quotes of a literal, if it is written between two equal ones. -/
def body? (text : List Char) : Option (List Char) :=
  match text with
  | mark :: rest =>
      if (mark = '"' ∨ mark = '\'') ∧ rest.getLast? = some mark then some rest.dropLast
      else none
  | [] => none

/-- The text that a literal denotes. -/
def unquote (text : String) : Except ParseFailure Text :=
  match body? text.toList with
  | none => .error (.bare (.invalidLiteral text))
  | some body =>
      match decode body 0 with
      | .ok decoded => .ok ⟨decoded⟩
      | .error (.unknown escape) =>
          .error (.bare (.unknownEscape (String.ofList escape) text))
      | .error .codePointTooLarge => .error .codePointTooLarge

end PhraseGrammar.Literal
