import PhraseGrammar.Rules.Context
import PhraseGrammar.Rules.Node

/-!
# Definitions

A definition is a name followed by rules. A recursion depth may stand behind
the name, marked by `!` or `#` without a gap. A later definition of a name
replaces an earlier one and keeps its place.
-/

namespace PhraseGrammar.Reader

/-- The name that opens the block of default bindings. -/
def contextName : String := "Context"

/-- The recursion depth behind a name, if a marker follows it immediately. -/
def depthHint (name : String) : Reader (Option Int) := do
  let follow ← follow
  if follow = some '!' ∨ follow = some '#' then
    let marker ← next
    let token ← next
    if token.kind ≠ .int then reject (.expectedHint name marker.text token)
    else
      let hint ← integer token
      return some hint
  else return none

/-- A nonterminal entered into the table; the first one is the start. -/
def define (grammar : Grammar) (nonterminal : Nonterminal) : Reader Grammar := do
  if grammar.contains nonterminal.name then note (.redefined nonterminal.name)
  note (.parsed nonterminal.name nonterminal.rules.length)
  return {
    table := grammar.table.set nonterminal.name nonterminal
    start := grammar.start <|> some nonterminal.name }

/-- One definition, or the block of default bindings; semicolons between them are skipped. -/
def definitionsTurn (registry : Registry) (grammar : Grammar) (token : Token) :
    Reader (Turn Grammar Grammar) := do
  if token = .punct ";" then return .again grammar
  else if token.kind ≠ .ident then reject (.expectedSymbol token)
  else
    let hint ← depthHint token.text
    if token.text = contextName then
      let table ← context grammar.table
      return .done { grammar with table }
    else
      let rules ← rules registry token.text
      let grammar ← define grammar ⟨token.text, rules, .empty, hint⟩
      return .again grammar

/-- Definitions up to the end of the text or of the block of default bindings. -/
def definitions (registry : Registry) : Reader Grammar :=
  eachToken pure (definitionsTurn registry) ⟨.empty, none⟩

/-- A whole grammar, its references left as bare names. -/
def grammar (registry : Registry) : Reader Grammar := do
  let grammar ← definitions registry
  if grammar.table.isEmpty then reject .noDefinition
  else return grammar

end PhraseGrammar.Reader
