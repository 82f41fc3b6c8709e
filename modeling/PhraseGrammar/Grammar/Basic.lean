import PhraseGrammar.Table
import PhraseGrammar.Value

/-!
# Grammars

A grammar is a table of nonterminals. Each has rules, which are sequences of
nodes, and default bindings for the variables of its expansions. A rule refers
to another nonterminal by its key in the table once it is linked, and by a bare
name before that.
-/

namespace PhraseGrammar

/-- What a leaf does when it is expanded. -/
inductive Emission where
  /-- Emits a fixed text. -/
  | text (value : Text)
  /-- Emits the value that is bound to a name. -/
  | lookup (name : String)
  /-- Emits an integer drawn from the interval that the arguments give. -/
  | draw (arguments : List Int)
  /-- Emits nothing and records the bindings in sight. -/
  | observe
  deriving DecidableEq, Repr

/-- A leaf shows its name and value; two leaves that show the same are equal. -/
structure Leaf where
  name : String
  value : Text
  emission : Emission
  deriving DecidableEq, Repr

namespace Leaf

/-- A leaf that emits its value. -/
def constant (name : String) (value : Text) : Leaf :=
  ⟨name, value, .text value⟩

def same (left right : Leaf) : Bool :=
  left.name = right.name && left.value = right.value

def shown (leaf : Leaf) : String :=
  "Terminal(name=" ++ Text.quote leaf.name ++ ", value=" ++ Text.quote leaf.value ++ ")"

end Leaf

inductive Node where
  | leaf (leaf : Leaf)
  /-- The nonterminal under a key of the table. -/
  | symbol (key : String)
  /-- A name that is yet to be linked. -/
  | unresolved (ref : String)
  /-- A text that stands where a node should. -/
  | stray (text : String)
  deriving DecidableEq, Repr

structure Nonterminal where
  name : String
  rules : List (List Node)
  /-- The bindings that every expansion starts with. -/
  defaults : Table Value
  /-- A recursion depth given in the header; kept, and not consulted. -/
  depthHint : Option Int
  deriving DecidableEq

structure Grammar where
  table : Table Nonterminal
  /-- The key of the nonterminal to expand when none is asked for. -/
  start : Option String
  deriving DecidableEq

namespace Grammar

def get? (grammar : Grammar) (key : String) : Option Nonterminal :=
  grammar.table.get? key

def contains (grammar : Grammar) (key : String) : Bool :=
  grammar.table.contains key

/-- The name of the nonterminal under a key. -/
def nameOf (grammar : Grammar) (key : String) : String :=
  (grammar.get? key).elim key Nonterminal.name

end Grammar

/--
Equality of nodes. Leaves are compared by what they show, and a nonterminal is
equal only to itself.
-/
def Node.same : Node → Node → Bool
  | .leaf left, .leaf right => left.same right
  | .symbol left, .symbol right => left = right
  | .unresolved left, .unresolved right => left = right
  | .stray left, .stray right => left = right
  | _, _ => false

/-- The text of a nonterminal; its rules and defaults are left out. -/
def Nonterminal.shown? (nonterminal : Nonterminal) : Option String :=
  let showWith (hint : String) :=
    "NonTerminal(name=" ++ Text.quote nonterminal.name ++ ", lrmax=" ++ hint ++ ")"
  match nonterminal.depthHint with
  | none => some (showWith "None")
  | some hint => (Numeral.decimal? hint).map showWith

/-- The text of a name that is yet to be linked. -/
def shownRef (ref : String) : String :=
  "Unresolved(ref=" ++ Text.quote ref ++ ")"

/-- The text of a node. -/
def Grammar.shownNode? (grammar : Grammar) : Node → Option String
  | .leaf leaf => some leaf.shown
  | .symbol key => (grammar.get? key).bind Nonterminal.shown?
  | .unresolved ref => some (shownRef ref)
  | .stray text => some (Text.quote text)

end PhraseGrammar
