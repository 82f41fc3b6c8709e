import PhraseGrammar.Literal
import PhraseGrammar.Rules.Range

/-!
# The default registry

Literals for texts, characters, numbers and bound names, terminals for the
characters that are awkward to write, and the range.
-/

namespace PhraseGrammar.Leaf

def string (text : String) : Except ParseFailure Leaf :=
  (Literal.unquote text).map (constant "String")

def char (text : String) : Except ParseFailure Leaf :=
  (Literal.unquote text).map (constant "Char")

/-- Numbers in a rule stand for themselves as they are written. -/
def int (text : String) : Except ParseFailure Leaf :=
  .ok (constant "Int" text)

def float (text : String) : Except ParseFailure Leaf :=
  .ok (constant "Float" text)

/-- A leaf that emits what is bound to a name. -/
def reference (name : String) : Leaf :=
  ⟨Registry.referenceName, name, .lookup name⟩

end PhraseGrammar.Leaf

namespace PhraseGrammar.Registry

def defaultLiterals : List (String × (String → Except ParseFailure Leaf)) :=
  [(Kind.string.name, Leaf.string), (Kind.char.name, Leaf.char), (Kind.int.name, Leaf.int),
    (Kind.float.name, Leaf.float), (referenceName, fun name => .ok (Leaf.reference name))]

def defaultTerminals : List (String × Leaf) :=
  [("NL", "\n"), ("SP", " "), ("TAB", "\t"), ("DQ", "\""), ("SQ", "'"), ("EMPTY", "")].map
    fun (name, text) => (name, .constant name text)

def default : Registry where
  literals := .ofList defaultLiterals
  terminals := (Table.ofList defaultTerminals).map .ok
  builtins := .ofList [("range", Reader.range)]

/-- These literals are decoded if they are in quotes, and else stand for themselves. -/
theorem literal_made {kind : Kind} {construct : String → Except ParseFailure Leaf}
    (entry : default.literals.get? kind.name = some construct) :
    ((kind = .string ∨ kind = .char) ∧
      construct = fun text => (Literal.unquote text).map (Leaf.constant kind.name)) ∨
    ((kind = .int ∨ kind = .float) ∧
      construct = fun text => .ok (Leaf.constant kind.name text)) := by
  cases kind with
  | ident => cases entry
  | punct => cases entry
  | eof => cases entry
  | string =>
      cases entry
      exact .inl ⟨.inl rfl, rfl⟩
  | char =>
      cases entry
      exact .inl ⟨.inr rfl, rfl⟩
  | int =>
      cases entry
      exact .inr ⟨.inl rfl, rfl⟩
  | float =>
      cases entry
      exact .inr ⟨.inr rfl, rfl⟩

/-- None of these terminals fails to be made. -/
theorem terminal_made {name : String} {made : Except ParseFailure Leaf}
    (entry : default.terminals.get? name = some made) :
    ∃ leaf, made = .ok leaf ∧ (name, leaf) ∈ defaultTerminals := by
  rw [default, Table.get?_map] at entry
  obtain ⟨leaf, found, rfl⟩ := Option.map_eq_some_iff.mp entry
  exact ⟨leaf, rfl, Table.mem_entries_of_get? found⟩

end PhraseGrammar.Registry
