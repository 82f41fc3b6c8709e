import PhraseGrammar.Json.Outline
import PhraseGrammar.Service.Generation
import PhraseGrammar.Service.Loading
import PhraseGrammar.Service.Target

/-!
# Routes

Each path of the service has one method. Only setting a grammar changes the
state.
-/

namespace PhraseGrammar.Service

def showTree (state : State) : Response :=
  match state.loaded with
  | none => .noGrammar
  | some loaded =>
      match loaded.grammar.outline with
      | .ok outline => .accept [("tree", outline.toJson)]
      | .error _ => .internalError

def ping : Response :=
  .ok [("status", .string "OK"), ("message", .string "Server running")]

inductive Route where
  | setGrammar
  | generate
  | grammar
  | ping
  /-- A file to be shown as it is. There are none. -/
  | file
  deriving DecidableEq, Repr

/-- Whether a path names something below a folder. -/
def isBelow (folder : String) (path : String) : Bool :=
  let front := folder.toList ++ ['/']
  front.isPrefixOf path.toList && ((path.toList.drop front.length).head?.any (· ≠ '/'))

def Route.ofPath? (path : String) : Option Route :=
  match path with
  | "set_grammar" => some .setGrammar
  | "generate" => some .generate
  | "grammar" => some .grammar
  | "ping" => some .ping
  | path => if isBelow "static" path then some .file else none

/-- The method that a route answers. -/
def Route.method : Route → String
  | .setGrammar | .generate => "POST"
  | .grammar | .ping | .file => "GET"

/-- The upper case of a character, as far as it is ASCII. -/
def upperCase (c : Char) : List Char :=
  if c = 'ı' then ['I']
  else if c = 'ſ' then ['S']
  else if c = 'ﬅ' ∨ c = 'ﬆ' then ['S', 'T']
  else [c.toUpper]

/-- What a route answers to its own method. A body that cannot be read fails where it is needed. -/
def answer (entropy : Random.Entropy) (state : State) (route : Route)
    (body? : Option (Json String)) : Response × State :=
  match route, body? with
  | .setGrammar, some body => setGrammar state body
  | .setGrammar, none => (.internalError, state)
  | .generate, some body => (expand entropy state body, state)
  | .generate, none => (if state.loaded.isSome then .internalError else .noGrammar, state)
  | .grammar, _ => (showTree state, state)
  | .ping, _ => (ping, state)
  | .file, _ => (.notFound, state)

/--
The answer to a request and the state after it. Methods are told apart in upper
case. What a route shows can also be asked for by `HEAD`, and every route for
its options; an answer is left without its body only to `HEAD` as it stands.
-/
def handle (entropy : Random.Entropy) (state : State) (request : Request) : Response × State :=
  match Route.ofPath? (Target.path request.url) with
  | none => (.notFound, state)
  | some route =>
      let method := String.ofList (request.method.toList.flatMap upperCase)
      if method = "OPTIONS" then (⟨200, none⟩, state)
      else if method = route.method ∨ (method = "HEAD" ∧ route.method = "GET") then
        let (response, state) := answer entropy state route request.body?
        (if request.method = "HEAD" then response.withoutBody else response, state)
      else (.wrongMethod, state)

end PhraseGrammar.Service
