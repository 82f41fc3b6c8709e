import PhraseGrammar.Literal
import PhraseGrammar.Rules.Range

/-!
# Default bindings

After the definitions a block may give default bindings, for one nonterminal
after the other. A value is a text, a character, which stands for its code
point, or a number.
-/

namespace PhraseGrammar.Reader

/-- A number behind a sign. -/
def signedNumber (negative : Bool) (token : Token) : Reader Value :=
  match token.kind with
  | .int => do
      let size ← integer token
      return .integer (if negative then -size else size)
  | .float =>
      match Binary64.read? token.text with
      | some size => return .real (if negative then size.neg else size)
      | none => fail .numeral
  | _ => reject (.expectedNumber token)

/-- The number of the code point in a text of only one. -/
def codePoint (text : Text) : Except ParseFailure Value :=
  match text.codes with
  | [code] => .ok (.integer code.toNat)
  | _ => .error .notOneCharacter

/-- A text, a character as its code point, or a number with or without a minus. -/
def contextValue : Reader Value := do
  let token ← next
  if token = .punct "-" then
    let number ← next
    signedNumber true number
  else
    match token.kind with
    | .string => (ofExcept ((Literal.unquote token.text).map Value.text)).orAtPlace
    | .char => (ofExcept ((Literal.unquote token.text).bind codePoint)).orAtPlace
    | .int | .float => signedNumber false token
    | _ => reject (.invalidContextValue token)

/-- One binding and the mark behind it. -/
def bindingsTurn (name : String) (defaults : Table Value) (token : Token) :
    Reader (Turn (Table Value) (Table Value)) := do
  if token.kind ≠ .ident then reject (.expectedVariable name token)
  else
    expect "="
    let value ← contextValue
    let defaults := defaults.set token.text value
    let mark ← next
    if mark = .punct "." then return .done defaults
    else if mark = .punct "," then return .again defaults
    else reject (.expectedContextEnd name mark)

/-- The bindings of one nonterminal, up to the period. -/
def bindings (name : String) (defaults : Table Value) : Reader (Table Value) :=
  eachToken (fun _ => reject (.expectedVariable name .eof)) (bindingsTurn name) defaults

/-- The bindings of the nonterminal that a token names. -/
def contextTurn (table : Table Nonterminal) (token : Token) :
    Reader (Turn (Table Nonterminal) (Table Nonterminal)) := do
  if token.kind ≠ .ident then reject (.expectedContextSymbol token)
  else
    expect ":"
    match table.get? token.text with
    | none => reject (.undeclaredContext token.text)
    | some nonterminal =>
        let defaults ← bindings token.text nonterminal.defaults
        return .again (table.set token.text { nonterminal with defaults })

/-- Reads a period if it comes next. -/
def skipPeriod : Reader Unit := do
  let mark ← peek
  if mark = .punct "." then
    let _ ← next

/-- The block of default bindings, up to the end of the text. -/
def context (table : Table Nonterminal) : Reader (Table Nonterminal) := do
  skipPeriod
  eachToken pure contextTurn table

end PhraseGrammar.Reader
