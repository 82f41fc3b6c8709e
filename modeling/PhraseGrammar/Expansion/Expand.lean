import PhraseGrammar.Expansion.Run

/-!
# Expansion

A nonterminal is expanded by one of its rules, drawn from the source in sight.
The nodes of the rule are expanded from left to right in a frame of their own;
the text of a nonterminal is bound to its name there, for the nodes that follow.
-/

namespace PhraseGrammar

namespace Expander

/-- The number of nested expansions that are allowed. -/
def depthLimit : Nat := 1000

/-- One node of a rule of `owner`; symbols are expanded by `expand`. -/
def node (grammar : Grammar) (expand : String → Expander Text) (owner : String) :
    Node → Expander Text
  | .leaf leaf => emit leaf.emission
  | .symbol key => do
      let text ← expand key
      bind (grammar.nameOf key) (.value (.text text))
      return text
  | .unresolved ref => throw (.notExpandable (shownRef ref) owner)
  | .stray text => throw (.notExpandable (Text.quote text) owner)

/-- The nodes of a rule from left to right. -/
def nodes (grammar : Grammar) (expand : String → Expander Text) (owner : String) :
    List Node → Expander Text
  | [] => return ""
  | first :: rest => do
      let text ← node grammar expand owner first
      let others ← nodes grammar expand owner rest
      return text ++ others

/-- The text of a nonterminal, by at most `limit` nested expansions. -/
def expand (grammar : Grammar) : Nat → String → Expander Text
  | 0, _ => throw .tooDeep
  | limit + 1, key =>
      match grammar.get? key with
      | none => throw (.undeclared key)
      | some nonterminal => do
          let rule ← choose nonterminal.rules
          within nonterminal.defaults
            (nodes grammar (expand grammar limit) nonterminal.name rule)

/-- An empty name counts as none. -/
def chosen (grammar : Grammar) (symbol : Option String) : Option String :=
  match symbol with
  | none => grammar.start
  | some name => if name = "" then grammar.start else some name

/--
The text of a symbol, or of the start symbol. With `visible` the bindings in
scope can be seen. The expansion runs in the scope itself if that has a random
source and no other is given, and else in a new one.
-/
def generate (grammar : Grammar) (limit : Nat) (entropy : Random.Entropy)
    (symbol : Option String) (source : Option Nat) (visible : Bool) : Expander Text := do
  match chosen grammar symbol with
  | none => throw (.bare (.unknownStart none))
  | some key =>
      if grammar.contains key then
        let scope := (← get).scope
        if visible then
          if source.isSome ∨ (scope.get? randomName).isNone then
            let root ← newRoot entropy source scope.flatten
            inScope root (expand grammar limit key)
          else expand grammar limit key
        else
          let root ← newRoot entropy source .empty
          inScope root (expand grammar limit key)
      else throw (.bare (.unknownStart (some key)))

/-- One text of a batch; an expansion beyond the limit is noted and left out. -/
def attempt (grammar : Grammar) (limit : Nat) (symbol : Option String) (source : Nat)
    (shown : Text) : Expander (Option Text) := fun run =>
  match generate grammar limit (.unused shown) symbol (some source) false run with
  | .ok text run => .ok (some text) run
  | .error .tooDeep run =>
      let name := (chosen grammar symbol).getD ""
      .ok none { run with log := run.log ++ [.skipped name] }
  | .error failure run => .error failure run

/-- That many attempts, one after the other. -/
def batch (grammar : Grammar) (limit : Nat) (symbol : Option String) (source : Nat)
    (shown : Text) : Nat → Expander (List Text)
  | 0 => return []
  | count + 1 => do
      let first ← attempt grammar limit symbol source shown
      let others ← batch grammar limit symbol source shown count
      return first.toList ++ others

end Expander

namespace Grammar

/--
The texts of that many expansions of a symbol, all from one source, which is
shown as a given text, and what was noted on the way. Expansions beyond the
limit are skipped.
-/
def generateStrings (grammar : Grammar) (limit : Nat) (symbol : Option String) (count : Nat)
    (source : Random.Source) (shown : Text) : Except RunFailure (List Text) × List Event :=
  match Expander.batch grammar limit symbol 0 shown count (.start ⟨[]⟩ [source]) with
  | .ok texts run => (.ok texts, run.log)
  | .error failure run => (.error failure, run.log)

end Grammar

end PhraseGrammar
