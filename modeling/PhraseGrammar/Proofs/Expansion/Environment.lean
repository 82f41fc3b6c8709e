import PhraseGrammar.Proofs.Expansion.Step

/-!
# Expansion over one environment

Expansion keeps the bindings in a stack of frames that change while it runs.
Here the same texts are computed from one map that is passed on and never
changes: a symbol is evaluated in the map of the rule that it stands in, and
its text is added to the map for the nodes after it. Both give the same text or
failure and leave the sources in the same state.
-/

namespace PhraseGrammar

/-- The bindings in sight, as one map. -/
abbrev Environment := String → Option Binding

/-- A text or another value, or a failure, and the sources afterwards. -/
abbrev Outcome (α : Type) := Except RunFailure α × List Random.Source

namespace Outcome

variable {α β : Type}

/-- What follows goes on with the sources that are left; a failure ends both. -/
def andThen (first : Outcome α) (second : α → List Random.Source → Outcome β) : Outcome β :=
  match first with
  | (.ok value, sources) => second value sources
  | (.error failure, sources) => (.error failure, sources)

/-- What is left to see of a step once its run is over. -/
def ofResult : EStateM.Result RunFailure Run α → Outcome α
  | .ok value run => (.ok value, run.sources)
  | .error failure run => (.error failure, run.sources)

end Outcome

/-- The lower end, included, and the upper end, not included, that arguments give. -/
def interval? : List Int → Option (Int × Int)
  | [hi] => some (0, hi)
  | [lo, hi] => some (lo, hi)
  | _ => none

namespace Environment

def set (environment : Environment) (name : String) (binding : Binding) : Environment :=
  fun other => if other = name then some binding else environment other

/-- Default bindings hide what the environment holds under their names. -/
def override (environment : Environment) (defaults : Table Value) : Environment :=
  fun name => ((defaults.get? name).map Binding.value).or (environment name)

theorem set_of_ne {environment : Environment} {name other : String} (different : other ≠ name)
    (binding : Binding) : environment.set name binding other = environment other :=
  if_neg different

theorem override_of_spared {environment : Environment} {defaults : Table Value} {name : String}
    (spared : defaults.contains name = false) :
    environment.override defaults name = environment name := by
  rw [override, Option.not_isSome_iff_eq_none.mp (Bool.eq_false_iff.mp spared)]
  rfl

def write (text? : Option Text) (sources : List Random.Source) : Outcome Text :=
  (text?.elim (.error .integerTooLong) .ok, sources)

/-- A number below a bound, drawn from the source in sight. Nothing is below zero. -/
def draw (environment : Environment) (bound : Nat) (sources : List Random.Source) : Outcome Nat :=
  match environment randomName with
  | none => (.error .noSource, sources)
  | some (.value _) => (.error .notSource, sources)
  | some (.source id _) =>
      if bound = 0 then (.error .noRule, sources)
      else
        match sources[id]? with
        | none => (.error .noSource, sources)
        | some source => (.ok (source.draw bound).1, sources.set id (source.draw bound).2)

/-- An integer from an interval; the emptiness of the interval is found out first. -/
def drawBetween (environment : Environment) (lo hi : Int) (sources : List Random.Source) :
    Outcome Text :=
  if hi ≤ lo then
    if (Numeral.decimal? lo).isSome ∧ (Numeral.decimal? hi).isSome then
      (.error (.bare (.rangeEmpty lo hi)), sources)
    else (.error .integerTooLong, sources)
  else
    (environment.draw (hi - lo).toNat sources).andThen fun offset sources =>
      write (Numeral.text? (lo + offset)) sources

/-- The text of what a name is bound to. -/
def lookup (environment : Environment) (name : String) (sources : List Random.Source) :
    Outcome Text :=
  match environment name with
  | none => (.error (.bare (.unboundReference name)), sources)
  | some binding => write (Expander.shownBinding? binding) sources

/-- What a leaf emits in an environment. -/
def emit (environment : Environment) (emission : Emission) (sources : List Random.Source) :
    Outcome Text :=
  match emission with
  | .text value => (.ok value, sources)
  | .lookup name => environment.lookup name sources
  | .draw arguments =>
      match interval? arguments with
      | none => (.error (.bare (.rangeArity arguments.length)), sources)
      | some (lo, hi) => environment.drawBetween lo hi sources
  | .observe => (.ok "", sources)

/--
The nodes of a rule of `owner` from left to right, symbols being evaluated by
`symbol`. The text of a symbol is bound to its name for the nodes after it.
-/
def nodes (grammar : Grammar)
    (symbol : String → Environment → List Random.Source → Outcome Text) (owner : String) :
    List Node → Environment → List Random.Source → Outcome Text
  | [], _, sources => (.ok "", sources)
  | .leaf leaf :: rest, environment, sources =>
      (environment.emit leaf.emission sources).andThen fun text sources =>
        (nodes grammar symbol owner rest environment sources).andThen fun others sources =>
          (.ok (text ++ others), sources)
  | .symbol key :: rest, environment, sources =>
      (symbol key environment sources).andThen fun text sources =>
        (nodes grammar symbol owner rest
          (environment.set (grammar.nameOf key) (.value (.text text))) sources).andThen
            fun others sources => (.ok (text ++ others), sources)
  | .unresolved ref :: _, _, sources => (.error (.notExpandable (shownRef ref) owner), sources)
  | .stray text :: _, _, sources => (.error (.notExpandable (Text.quote text) owner), sources)

/-- The text of a nonterminal in an environment, by at most `limit` nested evaluations. -/
def evaluate (grammar : Grammar) : Nat → String → Environment → List Random.Source →
    Outcome Text
  | 0, _, _, sources => (.error .tooDeep, sources)
  | limit + 1, key, environment, sources =>
      match grammar.get? key with
      | none => (.error (.undeclared key), sources)
      | some nonterminal =>
          (environment.draw nonterminal.rules.length sources).andThen fun index sources =>
            nodes grammar (evaluate grammar limit) nonterminal.name
              (nonterminal.rules.getD index []) (environment.override nonterminal.defaults) sources

end Environment

end PhraseGrammar
