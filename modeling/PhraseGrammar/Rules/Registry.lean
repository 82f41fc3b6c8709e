import PhraseGrammar.Grammar.Basic
import PhraseGrammar.Rules.Reader

/-!
# Registries

A registry says what the tokens of a rule stand for. A literal is looked up by
the kind of its token, a terminal and a built-in reader by the token's text.
-/

namespace PhraseGrammar

structure Registry where
  /-- From the text of a token to its leaf. -/
  literals : Table (String → Except ParseFailure Leaf)
  /-- The leaf of a name, or the failure of making it. -/
  terminals : Table (Except ParseFailure Leaf)
  /-- Readers that may consume arguments of their own. -/
  builtins : Table (Reader Leaf)

namespace Registry

def empty : Registry := ⟨.empty, .empty, .empty⟩

/-- The literal that leaves with a bound name are made by; it belongs to no kind of token. -/
def referenceName : String := "Reference"

def setLiteral (registry : Registry) (name : String)
    (construct : String → Except ParseFailure Leaf) : Registry :=
  { registry with literals := registry.literals.set name construct }

def setTerminal (registry : Registry) (name : String) (leaf : Leaf) : Registry :=
  { registry with terminals := registry.terminals.set name (.ok leaf) }

def setBuiltin (registry : Registry) (name : String) (reader : Reader Leaf) : Registry :=
  { registry with builtins := registry.builtins.set name reader }

/-- Names in the order of their code points. -/
def showNames {α : Type} (table : Table α) : String :=
  let names := table.keys.mergeSort fun left right => decide (left ≤ right)
  "[" ++ ", ".intercalate (names.map fun name : String => Text.quote name) ++ "]"

def shown (registry : Registry) : String :=
  "Registry(literals=" ++ showNames registry.literals ++
    ", terminals=" ++ showNames registry.terminals ++
    ", bnfs=" ++ showNames registry.builtins ++ ")"

end Registry

end PhraseGrammar
