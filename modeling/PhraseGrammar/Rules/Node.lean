import PhraseGrammar.Rules.Registry

/-!
# Rules

A first rule begins with a colon and every further one with a bar. A rule ends
with a semicolon if another follows and with a period if it is the last; the
end of the text may stand for the period. Between them stand its nodes.
-/

namespace PhraseGrammar.Reader

/--
The node that a token of a rule opens: a literal before a terminal, a terminal
before a built-in, a built-in before `$`, and else a bare name.
-/
def node (registry : Registry) (token : Token) : Reader Node :=
  match registry.literals.get? token.kind.name with
  | some construct => ofExcept ((construct token.text).map Node.leaf)
  | none =>
      match registry.terminals.get? token.text with
      | some made => ofExcept (made.map Node.leaf)
      | none =>
          match registry.builtins.get? token.text with
          | some reader => do return .leaf (← reader)
          | none =>
              if token = .punct "$" then do
                let name ← next
                if name.kind ≠ .ident then reject (.expectedReference name)
                else
                  match registry.literals.get? Registry.referenceName with
                  | none => reject .noReferenceLiteral
                  | some construct => ofExcept ((construct name.text).map Node.leaf)
              else return .unresolved token.text

/-- One token of a rule: an end of the rule, or a node with what belongs to it. -/
def nodesTurn (registry : Registry) (nodes : Array Node) (token : Token) :
    Reader (Turn (Array Node) (List Node × Bool)) := do
  if token = .punct "." then return .done (nodes.toList, false)
  else if token = .punct ";" then return .done (nodes.toList, true)
  else
    let node ← (node registry token).orAtPlace
    return .again (nodes.push node)

/-- A rule's nodes, and whether another rule follows. -/
def nodes (registry : Registry) : Reader (List Node × Bool) :=
  eachToken (fun nodes => pure (nodes.toList, false)) (nodesTurn registry) #[]

/-- What the next rule begins with. -/
def ruleMark (rules : Array (List Node)) : String :=
  if rules.isEmpty then ":" else "|"

/-- Another token stands where the next rule should begin. -/
def noRule {α : Type} (name : String) (rules : Array (List Node)) (token : Token) : Reader α :=
  reject (.expectedRule (rules.size + 1) name (ruleMark rules) token)

/-- One rule, its mark already read. -/
def rulesTurn (registry : Registry) (name : String) (rules : Array (List Node)) (token : Token) :
    Reader (Turn (Array (List Node)) (List (List Node))) := do
  if token = .punct (ruleMark rules) then
    let (rule, more) ← nodes registry
    if more then return .again (rules.push rule)
    else return .done (rules.push rule).toList
  else noRule name rules token

/-- The rules of a nonterminal; there is at least one. -/
def rules (registry : Registry) (name : String) : Reader (List (List Node)) :=
  eachToken (fun rules => noRule name rules .eof) (rulesTurn registry name) #[]

end PhraseGrammar.Reader
