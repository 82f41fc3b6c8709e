import PhraseGrammar.Service.Basic
import PhraseGrammar.Text.Encoding

/-!
# Bodies of requests

A body counts if its media type is one of JSON and it can be read; any other
body is null. Only a body that is nested too deep is neither. A request gives
its members by an object, and none by null. Requests have strings in them, so
that a body with a surrogate in it makes none.
-/

namespace PhraseGrammar.Service

/-- A text without the blanks and tabulations at its two ends. -/
def trimHeader (text : List Char) : List Char :=
  let isBlank : Char → Bool := fun c => c = ' ' || c = '\t'
  ((text.dropWhile isBlank).reverse.dropWhile isBlank).reverse

/-- A media type is compared in lower case and without its parameters. -/
def isJsonType (type : String) : Bool :=
  let name := String.ofList ((trimHeader (type.toList.takeWhile (· ≠ ';'))).map Char.toLower)
  name = "application/json" || (name.startsWith "application/" && name.endsWith "+json")

/-- What the bytes of a body come to. -/
inductive Body where
  | value (json : Json String)
  | tooDeep
  /-- A surrogate without its partner, escaped or as it stands. -/
  | surrogate

/-- What the text of a body comes to, with room for so many values within each other. -/
def readBody (room : Nat) (text : String) : Body :=
  match Json.read room text with
  | .ok json => .value json
  | .error .malformed => .value .null
  | .error .tooDeep => .tooDeep
  | .error .surrogate => .surrogate

/-- The same from the bytes, which show their encoding. -/
def decodeBody (room : Nat) (type : String) (bytes : List UInt8) : Body :=
  if isJsonType type then
    match Text.ofBytes? bytes with
    | none => .value .null
    | some text => text.toString?.elim .surrogate (readBody room)
  else .value .null

/-- A request with a body. -/
def Request.ofBody? (method url : String) : Body → Option Request
  | .value json => some ⟨method, url, some json⟩
  | .tooDeep => some ⟨method, url, none⟩
  | .surrogate => none

/-- The members that a request gives. A null body gives none, and only objects give any. -/
def fields? : Json String → Option (Json String)
  | .null => some (.object [])
  | .object members => some (.object members)
  | _ => none

end PhraseGrammar.Service
