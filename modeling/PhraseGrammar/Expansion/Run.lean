import PhraseGrammar.Error
import PhraseGrammar.Event
import PhraseGrammar.Expansion.Scope
import PhraseGrammar.Grammar.Basic
import PhraseGrammar.Random.Source

/-!
# Runs

A run carries the scope of the expansion at hand and the random sources, which
contexts may share. Its state is kept when it fails.
-/

namespace PhraseGrammar

/-- The ways in which an expansion ends without a text. -/
inductive RunFailure where
  | grammar (error : GrammarError)
  /-- No random source is bound. -/
  | noSource
  /-- A plain value is bound where the random source should be. -/
  | notSource
  /-- A nonterminal without rules. -/
  | noRule
  /-- A node, as shown, of the named nonterminal that is neither a leaf nor a symbol. -/
  | notExpandable (node owner : String)
  /-- A symbol that the table does not hold. -/
  | undeclared (key : String)
  /-- An integer too long to be written. -/
  | integerTooLong
  /-- Expansions nested beyond the limit. -/
  | tooDeep
  deriving DecidableEq, Repr

namespace RunFailure

def bare (cause : Cause) : RunFailure := .grammar (.bare cause)

/-- The wording of the failures that have one. -/
def message? : RunFailure → Option String
  | .grammar error => some error.message
  | .noRule => some "Cannot choose from an empty sequence"
  | .notExpandable node owner =>
      some ("cannot generate from " ++ node ++ " in " ++ owner ++ "; was build_ast run?")
  | _ => none

end RunFailure

structure Run where
  scope : Scope
  sources : List Random.Source
  /-- The bindings that observing leaves have seen. -/
  observed : List Frame
  log : List Event

namespace Run

/-- A run that starts in a scope. -/
def start (scope : Scope) (sources : List Random.Source) : Run :=
  ⟨scope, sources, [], []⟩

end Run

/-- A step of a run. A step that fails keeps what was done before. -/
abbrev Expander := EStateM RunFailure Run

namespace Expander

variable {α : Type}

/-- The number of the random source in sight. -/
def sourceId : Expander Nat := do
  match (← get).scope.get? randomName with
  | none => throw .noSource
  | some (.value _) => throw .notSource
  | some (.source id _) => return id

/-- A number below a bound from a given source, which moves on. -/
def drawFrom (id bound : Nat) : Expander Nat := do
  let run ← get
  match run.sources[id]? with
  | none => throw .noSource
  | some source =>
      let (value, source) := source.draw bound
      set { run with sources := run.sources.set id source }
      return value

/-- One of the rules, each as likely as every other. -/
def choose (rules : List (List Node)) : Expander (List Node) := do
  let id ← sourceId
  if rules.isEmpty then throw .noRule
  else
    let index ← drawFrom id rules.length
    return rules.getD index []

/-- An integer from the interval that one or two arguments give, by one draw. -/
def drawRange (arguments : List Int) : Expander Int :=
  match arguments with
  | [hi] => between 0 hi
  | [lo, hi] => between lo hi
  | _ => throw (.bare (.rangeArity arguments.length))
where
  /-- The lower end is included and the upper one is not. -/
  between (lo hi : Int) : Expander Int := do
    if hi ≤ lo then
      if (Numeral.decimal? lo).isSome ∧ (Numeral.decimal? hi).isSome then
        throw (.bare (.rangeEmpty lo hi))
      else throw .integerTooLong
    else
      let id ← sourceId
      let offset ← drawFrom id (hi - lo).toNat
      return lo + offset

/-- A text that exists unless an integer is too long. -/
def written (text? : Option Text) : Expander Text :=
  text?.elim (throw .integerTooLong) pure

/-- The text of what a name is bound to. -/
def lookup (name : String) : Expander Text := do
  match (← get).scope.get? name with
  | none => throw (.bare (.unboundReference name))
  | some (.value value) => written value.plain?
  | some (.source _ shown) => return shown

def emit : Emission → Expander Text
  | .text value => return value
  | .lookup name => lookup name
  | .draw arguments => do
      let value ← drawRange arguments
      written (Numeral.text? value)
  | .observe => do
      modify fun run => { run with observed := run.observed ++ [run.scope.flatten] }
      return ""

/-- A binding in the innermost frame. -/
def bind (name : String) (binding : Binding) : Expander Unit :=
  modify fun run => { run with scope := run.scope.bind name binding }

/-- Runs a step in a frame of its own, which is dropped however the step ends. -/
def within (defaults : Table Value) (step : Expander α) : Expander α := fun run =>
  match step { run with scope := run.scope.push defaults } with
  | .ok value run => .ok value { run with scope := run.scope.pop }
  | .error failure run => .error failure { run with scope := run.scope.pop }

/-- Runs a step in another scope and comes back to the one at hand. -/
def inScope (scope : Scope) (step : Expander α) : Expander α := fun run =>
  match step { run with scope := scope } with
  | .ok value after => .ok value { after with scope := run.scope }
  | .error failure after => .error failure { after with scope := run.scope }

/-- Takes a further source into the run. -/
def addSource (source : Random.Source) : Expander Nat := do
  let run ← get
  set { run with sources := run.sources ++ [source] }
  return run.sources.length

/-- A scope of one frame with a given source, or with a further one. -/
def newRoot (entropy : Random.Entropy) (source : Option Nat) (bindings : Frame) :
    Expander Scope := do
  let id ← source.elim (addSource entropy.source) pure
  return ⟨[bindings.set randomName (.source id (entropy.shown id))]⟩

end Expander

end PhraseGrammar
