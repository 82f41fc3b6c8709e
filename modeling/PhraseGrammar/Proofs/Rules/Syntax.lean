import PhraseGrammar.Proofs.Token.Lexemes
import PhraseGrammar.Rules.Definition
import PhraseGrammar.Rules.Defaults

/-!
# The syntax of grammar texts

The notation of grammars as a grammar of its own, over the lexemes of a text:

    source     ::= ';'* (definition ';'*)* [context] end
    definition ::= name [marker int] ':' node* (';' '|' node*)* ('.' | end)
    node       ::= literal | terminal | 'range' range | '$' name | reference
    range      ::= '(' ['-'] int [',' ['-'] int] ')'
    context    ::= 'Context' [marker int] ['.'] (name ':' binding (',' binding)* '.')*
    binding    ::= name '=' (string | char | ['-'] int | ['-'] float)

Each notion says which lexemes spell something and what they spell.
-/

namespace PhraseGrammar

/-- The leaf of a range with these arguments. -/
def Leaf.range (arguments : List Int) : Leaf :=
  ⟨"range", ", ".intercalate (arguments.map toString), .draw arguments⟩

/-- Tokens that stand for themselves in a rule. -/
def Token.IsLiteral (token : Token) : Prop :=
  token.kind = .string ∨ token.kind = .char ∨ token.kind = .int ∨ token.kind = .float

namespace Syntax

/-- An integer with or without a minus. -/
inductive SpellsInteger : List Lexeme → Int → Prop where
  | plain {numeral : Lexeme} (kind : numeral.token.kind = .int) :
      SpellsInteger [numeral] numeral.token.integer
  | minus {sign numeral : Lexeme} (signed : sign.token = .punct "-")
      (kind : numeral.token.kind = .int) :
      SpellsInteger [sign, numeral] (-numeral.token.integer)

/-- One or two integers in parentheses. -/
inductive SpellsRange : List Lexeme → Leaf → Prop where
  | one {opening closing : Lexeme} {bound : List Lexeme} {hi : Int}
      (opens : opening.token = .punct "(") (upper : SpellsInteger bound hi)
      (closes : closing.token = .punct ")") :
      SpellsRange (opening :: (bound ++ [closing])) (.range [hi])
  | two {opening comma closing : Lexeme} {first second : List Lexeme} {lo hi : Int}
      (opens : opening.token = .punct "(") (lower : SpellsInteger first lo)
      (parts : comma.token = .punct ",") (upper : SpellsInteger second hi)
      (closes : closing.token = .punct ")") :
      SpellsRange (opening :: (first ++ comma :: (second ++ [closing]))) (.range [lo, hi])

/-- A node of a rule. Any token without another meaning is a reference by its text. -/
inductive SpellsNode : List Lexeme → Node → Prop where
  | string {lexeme : Lexeme} {value : Text} (kind : lexeme.token.kind = .string)
      (decodes : Literal.unquote lexeme.token.text = .ok value) :
      SpellsNode [lexeme] (.leaf (.constant "String" value))
  | char {lexeme : Lexeme} {value : Text} (kind : lexeme.token.kind = .char)
      (decodes : Literal.unquote lexeme.token.text = .ok value) :
      SpellsNode [lexeme] (.leaf (.constant "Char" value))
  | int {lexeme : Lexeme} (kind : lexeme.token.kind = .int) :
      SpellsNode [lexeme] (.leaf (.constant "Int" lexeme.token.text))
  | float {lexeme : Lexeme} (kind : lexeme.token.kind = .float) :
      SpellsNode [lexeme] (.leaf (.constant "Float" lexeme.token.text))
  | terminal {lexeme : Lexeme} {leaf : Leaf} (plain : ¬lexeme.token.IsLiteral)
      (registered : Registry.default.terminals.get? lexeme.token.text = some (.ok leaf)) :
      SpellsNode [lexeme] (.leaf leaf)
  | range {name : Lexeme} {arguments : List Lexeme} {leaf : Leaf}
      (plain : ¬name.token.IsLiteral) (called : name.token.text = "range")
      (bounds : SpellsRange arguments leaf) : SpellsNode (name :: arguments) (.leaf leaf)
  | reference {sigil name : Lexeme} (sign : sigil.token = .punct "$")
      (kind : name.token.kind = .ident) :
      SpellsNode [sigil, name] (.leaf (.reference name.token.text))
  | bare {lexeme : Lexeme} (plain : ¬lexeme.token.IsLiteral)
      (unregistered : Registry.default.terminals.get? lexeme.token.text = none)
      (other : lexeme.token.text ≠ "range") (free : lexeme.token ≠ .punct "$")
      (inner : lexeme.token ≠ .punct "." ∧ lexeme.token ≠ .punct ";") :
      SpellsNode [lexeme] (.unresolved lexeme.token.text)

/-- Nodes one after the other. -/
inductive SpellsRule : List Lexeme → List Node → Prop where
  | nil : SpellsRule [] []
  | cons {front rest : List Lexeme} {node : Node} {nodes : List Node}
      (first : SpellsNode front node) (others : SpellsRule rest nodes) :
      SpellsRule (front ++ rest) (node :: nodes)

/-- Rules, the first mark left out. -/
inductive SpellsRules : List Lexeme → List (List Node) → Prop where
  | last {front : List Lexeme} {rule : List Node} (spells : SpellsRule front rule) :
      SpellsRules front [rule]
  | more {front rest : List Lexeme} {semicolon bar : Lexeme} {rule : List Node}
      {rules : List (List Node)} (first : SpellsRule front rule)
      (ends : semicolon.token = .punct ";") (begins : bar.token = .punct "|")
      (others : SpellsRules rest rules) :
      SpellsRules (front ++ semicolon :: bar :: rest) (rule :: rules)

/-- A recursion depth behind a name, which may be missing. -/
inductive SpellsHint (name : Lexeme) : List Lexeme → Option Int → Prop where
  | none : SpellsHint name [] none
  | some {marker numeral : Lexeme} (marks : marker.Marks name)
      (kind : numeral.token.kind = .int) :
      SpellsHint name [marker, numeral] (some numeral.token.integer)

/-- A definition without its end. -/
inductive SpellsDefinition : List Lexeme → Nonterminal → Prop where
  | mk {name colon : Lexeme} {hint body : List Lexeme} {depth : Option Int}
      {rules : List (List Node)} (kind : name.token.kind = .ident)
      (other : name.token.text ≠ Reader.contextName) (hinted : SpellsHint name hint depth)
      (begins : colon.token = .punct ":") (ruled : SpellsRules body rules) :
      SpellsDefinition (name :: (hint ++ colon :: body)) ⟨name.token.text, rules, .empty, depth⟩

/-- A value of a default binding. A character stands for its code point. -/
inductive SpellsValue : List Lexeme → Value → Prop where
  | text {lexeme : Lexeme} {value : Text} (kind : lexeme.token.kind = .string)
      (decodes : Literal.unquote lexeme.token.text = .ok value) :
      SpellsValue [lexeme] (.text value)
  | char {lexeme : Lexeme} {code : CodePoint} (kind : lexeme.token.kind = .char)
      (decodes : Literal.unquote lexeme.token.text = .ok ⟨[code]⟩) :
      SpellsValue [lexeme] (.integer code.toNat)
  | integer {front : List Lexeme} {size : Int} (spells : SpellsInteger front size) :
      SpellsValue front (.integer size)
  | real {lexeme : Lexeme} (kind : lexeme.token.kind = .float) :
      SpellsValue [lexeme] (.real lexeme.token.size)
  | minus {sign lexeme : Lexeme} (signed : sign.token = .punct "-")
      (kind : lexeme.token.kind = .float) :
      SpellsValue [sign, lexeme] (.real lexeme.token.size.neg)

/-- Bindings with commas between them. -/
inductive SpellsBindings : List Lexeme → List (String × Value) → Prop where
  | last {name equals : Lexeme} {front : List Lexeme} {value : Value}
      (kind : name.token.kind = .ident) (binds : equals.token = .punct "=")
      (spells : SpellsValue front value) :
      SpellsBindings (name :: equals :: front) [(name.token.text, value)]
  | more {name equals comma : Lexeme} {front rest : List Lexeme} {value : Value}
      {bindings : List (String × Value)} (kind : name.token.kind = .ident)
      (binds : equals.token = .punct "=") (spells : SpellsValue front value)
      (parts : comma.token = .punct ",") (others : SpellsBindings rest bindings) :
      SpellsBindings (name :: equals :: (front ++ comma :: rest))
        ((name.token.text, value) :: bindings)

/-- The bindings of one nonterminal, under its name. -/
abbrev Entry := String × List (String × Value)

/-- Bindings of one nonterminal after the other. -/
inductive SpellsEntries : List Lexeme → List Entry → Prop where
  | nil : SpellsEntries [] []
  | cons {name colon period : Lexeme} {front rest : List Lexeme}
      {bindings : List (String × Value)} {entries : List Entry}
      (kind : name.token.kind = .ident) (begins : colon.token = .punct ":")
      (spells : SpellsBindings front bindings) (ends : period.token = .punct ".")
      (others : SpellsEntries rest entries) :
      SpellsEntries (name :: colon :: (front ++ period :: rest))
        ((name.token.text, bindings) :: entries)

/-- The block of default bindings, with or without a period behind its name. -/
inductive SpellsContext : List Lexeme → List Entry → Prop where
  | plain {name : Lexeme} {hint rest : List Lexeme} {depth : Option Int} {entries : List Entry}
      (kind : name.token.kind = .ident) (called : name.token.text = Reader.contextName)
      (hinted : SpellsHint name hint depth) (spells : SpellsEntries rest entries) :
      SpellsContext (name :: (hint ++ rest)) entries
  | period {name period : Lexeme} {hint rest : List Lexeme} {depth : Option Int}
      {entries : List Entry} (kind : name.token.kind = .ident)
      (called : name.token.text = Reader.contextName) (hinted : SpellsHint name hint depth)
      (ends : period.token = .punct ".") (spells : SpellsEntries rest entries) :
      SpellsContext (name :: (hint ++ period :: rest)) entries

/-- What a text gives: definitions and default bindings, both in order. -/
structure Source where
  definitions : List Nonterminal
  entries : List Entry

/-- A whole source. The last definition may end with the text, and the block of bindings does. -/
inductive SpellsSource : List Lexeme → Source → Prop where
  | nil : SpellsSource [] ⟨[], []⟩
  | semicolon {lexeme : Lexeme} {rest : List Lexeme} {source : Source}
      (stray : lexeme.token = .punct ";") (others : SpellsSource rest source) :
      SpellsSource (lexeme :: rest) source
  | definition {front rest : List Lexeme} {period : Lexeme} {nonterminal : Nonterminal}
      {source : Source} (spells : SpellsDefinition front nonterminal)
      (ends : period.token = .punct ".") (others : SpellsSource rest source) :
      SpellsSource (front ++ period :: rest) ⟨nonterminal :: source.definitions, source.entries⟩
  | last {front : List Lexeme} {nonterminal : Nonterminal}
      (spells : SpellsDefinition front nonterminal) : SpellsSource front ⟨[nonterminal], []⟩
  | context {front : List Lexeme} {entries : List Entry} (spells : SpellsContext front entries) :
      SpellsSource front ⟨[], entries⟩

/-- Entries set one after the other. -/
def setAll {α : Type} (table : Table α) (entries : List (String × α)) : Table α :=
  entries.foldl (fun table entry => table.set entry.1 entry.2) table

/-- All bindings that are given to a name, in order. -/
def bindingsOf (entries : List Entry) (name : String) : List (String × Value) :=
  (entries.filter fun entry => entry.1 = name).flatMap Prod.snd

namespace Source

/-- There is a definition, and bindings are given to defined nonterminals only. -/
def Proper (source : Source) : Prop :=
  source.definitions ≠ [] ∧
    ∀ entry ∈ source.entries, ∃ nonterminal ∈ source.definitions, nonterminal.name = entry.1

/--
The grammar of a source. Of several definitions of a name the last one counts,
in the place of the first; of several bindings of a variable the last one. The
start is the first name.
-/
def grammar (source : Source) : Grammar where
  table := (setAll .empty (source.definitions.map fun nonterminal =>
      (nonterminal.name, nonterminal))).map fun nonterminal =>
    { nonterminal with
      defaults := setAll nonterminal.defaults (bindingsOf source.entries nonterminal.name) }
  start := source.definitions.head?.map Nonterminal.name

end Source

end Syntax

end PhraseGrammar
