import PhraseGrammar.Json.Basic
import PhraseGrammar.Text.Utf16

/-!
# Reading JSON

The usual grammar, together with the names of NaN and the infinities. Of
several members with one key the last one wins, at the place of the first. A
decimal integer is limited in length, and a value in how deep it is nested.
Strings are read as far as they have no surrogates in them.
-/

namespace PhraseGrammar.Json

def isBlank (c : Char) : Bool :=
  c = ' ' || c = '\t' || c = '\n' || c = '\r'

def skipBlank (text : List Char) : List Char :=
  text.dropWhile isBlank

/-- Why a text is not read. -/
inductive ReadError where
  | malformed
  /-- More arrays and objects are open within each other than there is room for. -/
  | tooDeep
  /-- A surrogate without its partner is escaped, which no string holds. -/
  | surrogate
  deriving DecidableEq, Repr

def orMalformed {α : Type} : Option α → Except ReadError α
  | some value => .ok value
  | none => .error .malformed

/-- The number that four hexadecimal digits write. -/
def unit? : List Char → Option (Nat × List Char)
  | a :: b :: c :: d :: rest =>
      match [a, b, c, d].mapM Unicode.hexDigit? with
      | some digits => some (Numeral.ofDigits 16 digits, rest)
      | none => none
  | _ => none

/-- The escapes of one character. -/
def shortEscape? : Char → Option Char
  | '"' => some '"'
  | '\\' => some '\\'
  | '/' => some '/'
  | 'b' => some '\x08'
  | 'f' => some '\x0c'
  | 'n' => some '\n'
  | 'r' => some '\r'
  | 't' => some '\t'
  | _ => none

/-- The unit of a low surrogate at the front of a text. -/
def lowSurrogate? : List Char → Option (Nat × List Char)
  | '\\' :: 'u' :: rest =>
      (unit? rest).filter fun found => Text.Utf16.isLow found.1
  | _ => none

/-- The character that one unit or two write. -/
def codeEscape (text : List Char) : Except ReadError (Char × List Char) := do
  let (unit, rest) ← orMalformed (unit? text)
  if Text.Utf16.isHigh unit then
    match lowSurrogate? rest with
    | some (low, rest) => return (Char.ofNat (Text.Utf16.pair unit low), rest)
    | none => throw .surrogate
  else if Text.Utf16.isLow unit then throw .surrogate
  else return (Char.ofNat unit, rest)

/-- The characters up to the closing quote. Control characters have to be escaped. -/
def stringBody : Nat → List Char → Except ReadError (List Char × List Char)
  | 0, _ => .error .malformed
  | _ + 1, [] => .error .malformed
  | _ + 1, '"' :: rest => .ok ([], rest)
  | fuel + 1, '\\' :: 'u' :: rest => do
      let (c, rest) ← codeEscape rest
      (stringBody fuel rest).map fun (body, rest) => (c :: body, rest)
  | fuel + 1, '\\' :: mark :: rest => do
      let c ← orMalformed (shortEscape? mark)
      (stringBody fuel rest).map fun (body, rest) => (c :: body, rest)
  | fuel + 1, c :: rest =>
      if c.toNat < 0x20 ∨ c = '\\' then .error .malformed
      else (stringBody fuel rest).map fun (body, rest) => (c :: body, rest)

def readString (text : List Char) : Except ReadError (String × List Char) :=
  (stringBody (text.length + 1) text).map fun (body, rest) => (String.ofList body, rest)

def isDecimal (c : Char) : Bool :=
  '0' ≤ c && c ≤ '9'

/-- The digits of a whole number: a single zero, or digits that open with another one. -/
def wholePart : List Char → List Char × List Char
  | '0' :: rest => (['0'], rest)
  | text => text.span isDecimal

/-- A point with digits behind it, or nothing. -/
def fractionPart : List Char → List Char × List Char
  | '.' :: rest =>
      let (digits, after) := rest.span isDecimal
      if digits = [] then ([], '.' :: rest) else ('.' :: digits, after)
  | text => ([], text)

/-- A mark with an integer behind it, or nothing. -/
def exponentPart : List Char → List Char × List Char
  | [] => ([], [])
  | mark :: rest =>
      let (sign, body) := match rest with
        | '+' :: body => (['+'], body)
        | '-' :: body => (['-'], body)
        | body => ([], body)
      let (digits, after) := body.span isDecimal
      if (mark = 'e' ∨ mark = 'E') ∧ digits ≠ [] then (mark :: sign ++ digits, after)
      else ([], mark :: rest)

/-- A number with its sign already read. -/
def number? (sign text : List Char) : Option (Json String × List Char) :=
  let (whole, rest) := wholePart text
  let (fraction, rest) := fractionPart rest
  let (exponent, rest) := exponentPart rest
  let literal := String.ofList (sign ++ whole ++ fraction ++ exponent)
  if whole = [] then none
  else if fraction = [] ∧ exponent = [] then
    (Numeral.readInteger? literal).map fun value => (.integer value, rest)
  else (Binary64.read? literal).map fun value => (.real value, rest)

/-- What follows a given front. -/
def after? (front : String) (text : List Char) : Option (List Char) :=
  if front.toList.isPrefixOf text then some (text.drop front.length) else none

/-- The values that are written as a word. -/
def words : List (String × Json String) :=
  [("null", .null), ("true", .bool true), ("false", .bool false), ("NaN", .real .nan),
    ("Infinity", .real (.infinite false)), ("-Infinity", .real (.infinite true))]

def word? (text : List Char) : Option (Json String × List Char) :=
  words.findSome? fun (word, json) => (after? word text).map fun rest => (json, rest)

/-- A member set among others; a key that is there keeps its place. -/
def setMember (key : String) (json : Json String) :
    List (String × Json String) → List (String × Json String)
  | [] => [(key, json)]
  | entry :: rest =>
      if entry.1 = key then (key, json) :: rest else entry :: setMember key json rest

mutual

/-- A value at the front of a text, in which `room` arrays and objects may open within each other. -/
def readValue : Nat → Nat → List Char → Except ReadError (Json String × List Char)
  | 0, _, _ => .error .malformed
  | fuel + 1, room, text =>
      match text with
      | '"' :: rest => (readString rest).map fun (value, rest) => (.string value, rest)
      | '[' :: rest =>
          match room with
          | 0 => .error .tooDeep
          | room + 1 =>
              match skipBlank rest with
              | ']' :: rest => .ok (.array [], rest)
              | rest => (readItems fuel room rest).map fun (items, rest) => (.array items, rest)
      | '\x7b' :: rest =>
          match room with
          | 0 => .error .tooDeep
          | room + 1 =>
              match skipBlank rest with
              | '\x7d' :: rest => .ok (.object [], rest)
              | rest =>
                  (readMembers fuel room [] rest).map fun (members, rest) => (.object members, rest)
      | text =>
          match word? text with
          | some found => .ok found
          | none =>
              match text with
              | '-' :: rest => orMalformed (number? ['-'] rest)
              | rest => orMalformed (number? [] rest)

/-- The items of an array from one of them on. -/
def readItems : Nat → Nat → List Char → Except ReadError (List (Json String) × List Char)
  | 0, _, _ => .error .malformed
  | fuel + 1, room, text => do
      let (item, rest) ← readValue fuel room text
      match skipBlank rest with
      | ',' :: rest =>
          (readItems fuel room (skipBlank rest)).map fun (items, rest) => (item :: items, rest)
      | ']' :: rest => .ok ([item], rest)
      | _ => .error .malformed

/-- The members of an object from one of them on, set among those before. -/
def readMembers : Nat → Nat → List (String × Json String) → List Char →
    Except ReadError (List (String × Json String) × List Char)
  | 0, _, _, _ => .error .malformed
  | fuel + 1, room, before, text =>
      match text with
      | '"' :: rest => do
          let (key, rest) ← readString rest
          match skipBlank rest with
          | ':' :: rest =>
              let (json, rest) ← readValue fuel room (skipBlank rest)
              let members := setMember key json before
              match skipBlank rest with
              | ',' :: rest => readMembers fuel room members (skipBlank rest)
              | '\x7d' :: rest => .ok (members, rest)
              | _ => .error .malformed
          | _ => .error .malformed
      | _ => .error .malformed

end

/--
The value that a whole text denotes, with room for so many arrays and objects
within each other. Every step down consumes at least half a character.
-/
def read (room : Nat) (text : String) : Except ReadError (Json String) := do
  let chars := text.toList
  let (json, rest) ← readValue (2 * chars.length + 2) room (skipBlank chars)
  if skipBlank rest = [] then .ok json else .error .malformed

end PhraseGrammar.Json
