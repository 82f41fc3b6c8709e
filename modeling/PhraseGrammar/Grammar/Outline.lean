import PhraseGrammar.Grammar.Basic

/-!
# Outlines

A grammar is shown as a tree of names or as lines of text. Both go through the
table in order and show, for each nonterminal, its header, its rules and its
default bindings.
-/

namespace PhraseGrammar

/-- Why a grammar cannot be shown. -/
inductive ShowFailure where
  /-- Something that is no node stands in a rule. -/
  | unknownNode (text : String)
  /-- An integer is too long to be written. -/
  | integerTooLong
  deriving DecidableEq, Repr

namespace ShowFailure

/-- The wording of the failure that has one. -/
def message? : ShowFailure → Option String
  | .unknownNode text => some ("Unknown node " ++ Text.quote text)
  | .integerTooLong => none

/-- A text that exists unless an integer is too long. -/
def written (text? : Option String) : Except ShowFailure String :=
  text?.elim (.error .integerTooLong) .ok

end ShowFailure

/-- A leaf shows its value in parentheses, a bare name a question mark. -/
def Grammar.describe (grammar : Grammar) : Node → Except ShowFailure Text
  | .leaf leaf => .ok (leaf.name ++ "(" ++ leaf.value ++ ")")
  | .symbol key => .ok (grammar.nameOf key)
  | .unresolved ref => .ok (ref ++ "?" : String)
  | .stray text => .error (.unknownNode text)

/-- The name with the depth hint behind it. -/
def Nonterminal.header (nonterminal : Nonterminal) : Except ShowFailure String :=
  match nonterminal.depthHint with
  | none => .ok nonterminal.name
  | some hint =>
      (ShowFailure.written (Numeral.decimal? hint)).map fun hint =>
        nonterminal.name ++ "#" ++ hint

/-- A default binding as it is shown. -/
def showBinding (entry : String × Value) : Except ShowFailure Text :=
  (ShowFailure.written entry.2.shown?).map fun value => .ofString (entry.1 ++ " = " ++ value)

/-- A rule with its nodes, or the context with its bindings. -/
structure Outline.Group where
  name : String
  members : List Text
  deriving DecidableEq, Repr

structure Outline.Entry where
  name : String
  groups : List Outline.Group
  deriving DecidableEq, Repr

structure Outline where
  name : String
  entries : List Outline.Entry
  deriving DecidableEq, Repr

namespace Grammar

/-- Rules are numbered from one. -/
def outlineRules (grammar : Grammar) : Nat → List (List Node) →
    Except ShowFailure (List Outline.Group)
  | _, [] => .ok []
  | number, rule :: rest => do
      let members ← rule.mapM grammar.describe
      let groups ← outlineRules grammar (number + 1) rest
      return ⟨"rule " ++ toString number, members⟩ :: groups

/-- The bindings come after the rules, and only if there are any. -/
def outlineContext (defaults : Table Value) : Except ShowFailure (List Outline.Group) :=
  if defaults.isEmpty then .ok []
  else (defaults.entries.mapM showBinding).map fun members => [⟨"Context", members⟩]

/-- The header is written last. -/
def outlineEntry (grammar : Grammar) (nonterminal : Nonterminal) :
    Except ShowFailure Outline.Entry := do
  let rules ← grammar.outlineRules 1 nonterminal.rules
  let context ← outlineContext nonterminal.defaults
  let name ← nonterminal.header
  return ⟨name, rules ++ context⟩

/-- A grammar without a start symbol is shown under a question mark. -/
def rootName (grammar : Grammar) : String :=
  match grammar.start with
  | none => "?"
  | some start => if start = "" then "?" else start

def outline (grammar : Grammar) : Except ShowFailure Outline := do
  let entries ← grammar.table.entries.mapM fun entry => grammar.outlineEntry entry.2
  return ⟨grammar.rootName, entries⟩

/-- The header is written first. -/
def entryLines (grammar : Grammar) (nonterminal : Nonterminal) :
    Except ShowFailure (List Text) := do
  let header ← nonterminal.header
  let rules ← nonterminal.rules.mapM fun rule =>
    (rule.mapM grammar.describe).map fun members => "    : " ++ Text.intercalate " . " members
  let bindings ← nonterminal.defaults.entries.mapM fun entry =>
    (showBinding entry).map fun shown : Text => "    " ++ shown
  return .ofString header :: (rules ++ bindings ++ [.ofString ""])

/-- The lines of a grammar, an empty one after each nonterminal. -/
def dump (grammar : Grammar) : Except ShowFailure Text := do
  let lines ← grammar.table.entries.mapM fun entry => grammar.entryLines entry.2
  return Text.intercalate "\n" lines.flatten

end Grammar

end PhraseGrammar
