import PhraseGrammar.Json.Basic
import PhraseGrammar.Text.Utf16

/-!
# Writing JSON

Values are written without spaces and in ASCII; a code point outside it is
written by its UTF-16 units.
-/

namespace PhraseGrammar.Json

/-- One UTF-16 unit, escaped. -/
def escapeUnit (unit : Nat) : List Char :=
  '\\' :: 'u' :: Text.hexDigits 4 unit

def escapeChar (c : Char) : List Char :=
  if c = '"' ∨ c = '\\' then ['\\', c]
  else if c = '\n' then ['\\', 'n']
  else if c = '\r' then ['\\', 'r']
  else if c = '\t' then ['\\', 't']
  else if c = '\x08' then ['\\', 'b']
  else if c = '\x0c' then ['\\', 'f']
  else if 0x20 ≤ c.toNat ∧ c.toNat < 0x7F then [c]
  else (Text.Utf16.units c).flatMap escapeUnit

def escapeCode (code : CodePoint) : List Char :=
  match code.char? with
  | some c => escapeChar c
  | none => escapeUnit code.toNat

def renderString (text : Text) : String :=
  String.ofList ('"' :: text.codes.flatMap escapeCode ++ ['"'])

mutual

def render : Json Text → String
  | .null => "null"
  | .bool value => if value then "true" else "false"
  | .integer value => toString value
  | .real value => value.text
  | .string value => renderString value
  | .array items => "[" ++ ",".intercalate (renderItems items) ++ "]"
  | .object members => "\x7b" ++ ",".intercalate (renderMembers members) ++ "\x7d"

def renderItems : List (Json Text) → List String
  | [] => []
  | item :: rest => item.render :: renderItems rest

def renderMembers : List (String × Json Text) → List String
  | [] => []
  | (key, item) :: rest => (renderString key ++ ":" ++ item.render) :: renderMembers rest

end

end PhraseGrammar.Json
