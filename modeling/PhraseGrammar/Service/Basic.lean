import PhraseGrammar.Grammar.Basic
import PhraseGrammar.Json.Parser

/-!
# The grammar service

A service keeps one grammar with its start symbol and answers requests to set
it, to expand it and to show it. Refusals of its own are answers like any other;
a failure that no answer is foreseen for is an internal error.

Some of what follows is not the service's own but stands for the web framework
that it runs in, as one set-up of it behaves: how settings are given
(`Settings.set?`), which bodies count and how they are read (`isJsonType`,
`decodeBody`), the path of a URL and what it leads to (`Target.path`,
`Route.ofPath?`), and the methods that a route answers besides its own
(`upperCase`, and `HEAD` and `OPTIONS` in `handle`). The room for values within
each other depends on what else is on the stack, and is a parameter wherever
JSON is read.
-/

namespace PhraseGrammar.Service

/-- What the service can be configured with; every value is allowed. -/
structure Settings where
  /-- The number of texts when a request names none. -/
  maxStrings : Json String
  /-- The greatest number of texts that a request may name. -/
  countLimit : Json String
  /-- The seed when a request names none. -/
  seed : Json String

def Settings.initial : Settings := ⟨.integer 10, .integer 1000, .null⟩

namespace Settings

/-- A value with another one set under a path of keys; only objects have keys. -/
def assign (value : Json String) : List String → Json String → Option (Json String)
  | [], last => some last
  | key :: path, last =>
      match value with
      | .object members =>
          (assign ((value.get? key).getD (.object [])) path last).map fun inner =>
            .object (Json.setMember key inner members)
      | _ => none

/-- Why a setting is not made. -/
inductive SetError where
  /-- Its name leads to a member of a value that is no object. -/
  | noObject
  /-- A surrogate is escaped in it; settings hold strings. -/
  | surrogate
  deriving DecidableEq, Repr

/-- The value of a setting, which is a text if it cannot be read as JSON. -/
def valueOf (room : Nat) (text : String) : Except SetError (Json String) :=
  match Json.read room text with
  | .ok json => .ok json
  | .error .surrogate => .error .surrogate
  | .error .malformed | .error .tooDeep => .ok (.string text)

/-- Two underscores in the name of a setting lead to a member of an object. -/
def set? (settings : Settings) (room : Nat) (name text : String) : Except SetError Settings := do
  let value ← valueOf room text
  let assigned (setting : Json String) (path : List String) : Except SetError (Json String) :=
    (assign setting path value).elim (.error .noObject) .ok
  match name.splitOn "__" with
  | "MAX_STRINGS" :: path =>
      return { settings with maxStrings := ← assigned settings.maxStrings path }
  | "COUNT_LIMIT" :: path =>
      return { settings with countLimit := ← assigned settings.countLimit path }
  | "SEED" :: path =>
      return { settings with seed := ← assigned settings.seed path }
  | _ => return settings

/-- Settings made one after the other, in the order of their names. -/
def setAll? (settings : Settings) (room : Nat) (given : List (String × String)) :
    Except SetError Settings :=
  (given.mergeSort fun left right => decide (left.1 ≤ right.1)).foldlM
    (fun settings entry => settings.set? room entry.1 entry.2) settings

end Settings

/-- The grammar that was set last, and the symbol to start from. -/
structure Loaded where
  grammar : Grammar
  start : Option String

structure State where
  settings : Settings
  loaded : Option Loaded

def State.initial : State := ⟨.initial, none⟩

/-- A request with the value of its body, if that can be read. -/
structure Request where
  method : String
  url : String
  body? : Option (Json String)

/-- A status and a JSON body; pages that are no JSON have none. -/
structure Response where
  status : Nat
  body : Option (Json Text)

namespace Response

def ok (members : List (String × Json Text)) : Response := ⟨200, some (.object members)⟩

def refuse (message : String) : Response :=
  ok [("success", .bool false), ("message", .string message)]

def accept (members : List (String × Json Text)) : Response :=
  ok (("success", .bool true) :: members)

def noGrammar : Response := refuse "Grammar is not set."

def notFound : Response := ⟨404, none⟩

def wrongMethod : Response := ⟨405, none⟩

def internalError : Response := ⟨500, none⟩

/-- The same status without a body. -/
def withoutBody (response : Response) : Response := { response with body := none }

end Response

end PhraseGrammar.Service
