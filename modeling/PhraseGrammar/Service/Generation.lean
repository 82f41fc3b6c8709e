import PhraseGrammar.Expansion.Expand
import PhraseGrammar.Service.Basic
import PhraseGrammar.Service.Body

/-!
# Expanding the grammar

A request names how many texts it wants, the seed they are drawn from and the
symbol to expand. The number is checked first, then the seed, then the symbol;
nothing is drawn before all three are right.
-/

namespace PhraseGrammar.Service

/-- Whether an integer is within a limit; limits that are no numbers compare with nothing. -/
def withinLimit? (limit : Json String) (count : Int) : Option Bool :=
  match limit with
  | .integer bound => some (count ≤ bound)
  | .bool bound => some (count ≤ if bound then 1 else 0)
  | .real bound => some (bound.atLeast count)
  | _ => none

/-- What a requested number of texts comes to. -/
inductive Count where
  | valid (count : Nat)
  | refused
  /-- The limit itself is no number. -/
  | incomparable

def checkCount (limit count : Json String) : Count :=
  match count with
  | .integer count =>
      if 0 < count then
        match withinLimit? limit count with
        | some true => .valid count.toNat
        | some false => .refused
        | none => .incomparable
      else .refused
  | _ => .refused

/-- Seeds are integers, truth values as 0 and 1, and texts. Null asks for a further source. -/
def source? (entropy : Random.Source) : Json String → Option Random.Source
  | .null => some entropy
  | .integer value => some (Random.Seed.integer value).source
  | .bool value => some (Random.Seed.integer (if value then 1 else 0)).source
  | .string value => some (Random.Seed.text value).source
  | _ => none

/-- The symbol asked for, or the one stored; what is falsy asks for none. -/
def requestedSymbol (loaded : Loaded) (fields : Json String) : Json String :=
  match fields.get? "start" with
  | none => stored
  | some json => if json.isFalsy then stored else json
where
  stored : Json String := loaded.start.elim .null .string

def expandWith (loaded : Loaded) (symbol : String) (count : Nat) (source : Random.Source)
    (shown : Text) : Response :=
  match (loaded.grammar.generateStrings Expander.depthLimit (some symbol) count source shown).1 with
  | .ok texts => .accept [("generated", .array (texts.map .string))]
  | .error (.grammar error) => .refuse error.message
  | .error _ => .internalError

/-- The refusal by a message, which may hold an integer too long to be written. -/
def refuseWith (message? : Option String) : Response :=
  message?.elim .internalError .refuse

/-- The refusal of a number of texts. -/
def refuseCount (limit : Json String) : Response :=
  refuseWith (limit.display?.map fun shown =>
    "count must be an integer between 1 and " ++ shown ++ ".")

/-- The refusal of a symbol. -/
def refuseSymbol (symbol : Json String) : Response :=
  refuseWith (symbol.display?.map fun shown => "Unknown start symbol '" ++ shown ++ "'.")

def expand (entropy : Random.Entropy) (state : State) (body : Json String) : Response :=
  match state.loaded with
  | none => .noGrammar
  | some loaded =>
      match fields? body with
      | none => .refuse "request body must be a JSON object."
      | some fields =>
          let limit := state.settings.countLimit
          match checkCount limit ((fields.get? "count").getD state.settings.maxStrings) with
          | .incomparable => .internalError
          | .refused => refuseCount limit
          | .valid count =>
              match source? entropy.source ((fields.get? "seed").getD state.settings.seed) with
              | none => .refuse "seed must be an integer or a string."
              | some source =>
                  match requestedSymbol loaded fields with
                  | .string name =>
                      if loaded.grammar.contains name then
                        expandWith loaded name count source (entropy.shown 0)
                      else refuseSymbol (.string name)
                  | symbol => refuseSymbol symbol

end PhraseGrammar.Service
