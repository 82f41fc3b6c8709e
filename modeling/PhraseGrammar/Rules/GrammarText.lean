import PhraseGrammar.Grammar.Linking
import PhraseGrammar.Rules.Defaults
import PhraseGrammar.Rules.Definition

/-!
# Grammar texts

A text holds the definitions of nonterminals and then possibly a block of
default bindings:

    greeting : "hello " $who ;
             | "goodbye" .

    Context.
    greeting : who = "world" .

A grammar is read from its text and then linked.
-/

namespace PhraseGrammar

namespace Grammar

/-- Reads a text without linking it, and tells what was noted on the way. -/
def read (registry : Registry) (text : String) : Except ParseFailure Grammar × List Event :=
  let (result, reading) := (Reader.grammar registry).run (.ofText text)
  (result, reading.log)

/-- Links a grammar, and tells what was noted on the way. -/
def linkNoting (grammar : Grammar) : Linked Grammar × List Event :=
  let linked := grammar.link
  match linked.failure with
  | none => (linked, [.resolved linked.count grammar.table.size])
  | some _ => (linked, [])

/-- Reads and links a text. -/
def parse (registry : Registry) (text : String) : Except ParseFailure Grammar × List Event :=
  match read registry text with
  | (.error failure, log) => (.error failure, log)
  | (.ok grammar, log) =>
      let (linked, noted) := grammar.linkNoting
      match linked.failure with
      | none => (.ok linked.result, log ++ noted)
      | some cause => (.error (.bare cause), log)

end Grammar

end PhraseGrammar
