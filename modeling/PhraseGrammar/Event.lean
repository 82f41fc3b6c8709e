/-!
# Events

What reading, linking and expanding a grammar note down on the way.
-/

namespace PhraseGrammar

inductive Event where
  | parsed (name : String) (rules : Nat)
  | redefined (name : String)
  | resolved (refs nonterminals : Nat)
  | skipped (symbol : String)
  deriving DecidableEq, Repr

namespace Event

/-- Redefinitions and skipped expansions deserve attention. -/
def isWarning : Event → Bool
  | .redefined _ | .skipped _ => true
  | .parsed _ _ | .resolved _ _ => false

def message : Event → String
  | .parsed name rules =>
      "parsed nonterminal " ++ name ++ " with " ++ toString rules ++ " rule(s)"
  | .redefined name =>
      "nonterminal " ++ name ++ " is defined more than once, keeping the last definition"
  | .resolved refs nonterminals =>
      "resolved " ++ toString refs ++ " reference(s) across " ++ toString nonterminals ++
        " nonterminal(s)"
  | .skipped symbol =>
      "expansion of " ++ symbol ++ " exceeded the recursion limit, skipping it"

end Event

end PhraseGrammar
