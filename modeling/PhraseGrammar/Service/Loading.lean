import PhraseGrammar.Rules.GrammarText
import PhraseGrammar.Service.Basic
import PhraseGrammar.Service.Body
import PhraseGrammar.Unicode.Space

/-!
# Setting the grammar

The grammar of the service is replaced only by one that can be read and that
declares the symbol to start from, if a request names one.
-/

namespace PhraseGrammar.Service

/-- The wording of a refused grammar. -/
def refuseGrammar (message : String) : Response :=
  .refuse ("Grammar Error: " ++ message)

/-- The text asked to start from, without the space around it; what is falsy asks for none. -/
def requestedStart? (fields : Json String) : Option String :=
  match fields.get? "start" with
  | none => some ""
  | some (.string start) => some (Unicode.strip start)
  | some json => if json.isFalsy then some "" else none

/-- A grammar that has been read, unless the requested start is not declared in it. -/
def load (state : State) (grammar : Grammar) (start : String) : Response × State :=
  if start ≠ "" ∧ ¬ grammar.contains start then
    (refuseGrammar ("start symbol '" ++ start ++ "' is not defined."), state)
  else
    let chosen := if start = "" then grammar.start else some start
    (.accept [("message", .string "Grammar successfully parsed."),
        ("start", chosen.elim .null fun start => .string start),
        ("nonterminals", .array (grammar.table.keys.map fun name : String => .string name))],
      { state with loaded := some ⟨grammar, chosen⟩ })

def setGrammar (state : State) (body : Json String) : Response × State :=
  match fields? body with
  | none => (refuseGrammar "request body must be a JSON object.", state)
  | some fields =>
      match (fields.get? "grammar").getD (.string "") with
      | .string text =>
          if Unicode.strip text = "" then
            (refuseGrammar "no production rules given.", state)
          else
            match requestedStart? fields with
            | none => (refuseGrammar "start must be a string.", state)
            | some start =>
                match (Grammar.parse .default text).1 with
                | .ok grammar => load state grammar start
                | .error (.grammar error) => (refuseGrammar error.message, state)
                | .error _ => (.internalError, state)
      | _ => (refuseGrammar "no production rules given.", state)

end PhraseGrammar.Service
