import PhraseGrammar.Proofs.Expansion.Step

/-!
# Why expansions are refused

Once a declared symbol is expanded, only a leaf can raise an error of the
grammar: it refers to an unbound name, or its range is malformed or empty. This
holds of every grammar and of whole batches.
-/

namespace PhraseGrammar

/-- The causes for which a leaf is not expanded. -/
inductive Cause.OfLeaf : Cause → Prop where
  | unbound (name : String) : OfLeaf (.unboundReference name)
  | arity (count : Nat) : OfLeaf (.rangeArity count)
  | empty (lo hi : Int) : OfLeaf (.rangeEmpty lo hi)

/-- An error of the grammar has such a cause and knows no place. -/
def RunFailure.OfLeaf (failure : RunFailure) : Prop :=
  ∀ error, failure = .grammar error → ∃ cause : Cause, cause.OfLeaf ∧ error = .bare cause

theorem RunFailure.OfLeaf.bare {cause : Cause} (blamed : cause.OfLeaf) : (bare cause).OfLeaf := by
  intro error same
  cases same
  exact ⟨cause, blamed, rfl⟩

namespace Expander

variable {α β : Type}

/-- Whatever run the step starts from, its failures are of this kind. -/
def Blames (step : Expander α) : Prop :=
  ∀ run failure after, step run = .error failure after → failure.OfLeaf

namespace Blames

theorem pure (value : α) : Blames (pure value) := by
  intro run failure after failed
  cases failed

theorem throw {failure : RunFailure} (blamed : failure.OfLeaf) :
    Blames (throw failure : Expander α) := by
  intro run other after failed
  cases failed
  exact blamed

theorem bind {first : Expander α} {second : α → Expander β} (before : Blames first)
    (further : ∀ value, Blames (second value)) : Blames (first >>= second) := by
  intro run failure after failed
  rw [run_bind] at failed
  cases ran : first run with
  | ok value next =>
      rw [ran] at failed
      exact further value next failure after failed
  | error other next =>
      rw [ran] at failed
      cases failed
      exact before run failure after ran

theorem within {step : Expander α} (defaults : Table Value) (blames : Blames step) :
    Blames (within defaults step) := by
  intro run failure after failed
  simp only [Expander.within] at failed
  cases ran : step { run with scope := run.scope.push defaults } with
  | ok value next =>
      rw [ran] at failed
      cases failed
  | error other next =>
      rw [ran] at failed
      cases failed
      exact blames _ _ _ ran

theorem inScope {step : Expander α} (scope : Scope) (blames : Blames step) :
    Blames (inScope scope step) := by
  intro run failure after failed
  simp only [Expander.inScope] at failed
  cases ran : step { run with scope := scope } with
  | ok value next =>
      rw [ran] at failed
      cases failed
  | error other next =>
      rw [ran] at failed
      cases failed
      exact blames _ _ _ ran

theorem get : Blames get := by
  intro run failure after failed
  cases failed

end Blames

theorem blames_sourceId : Blames sourceId := by
  intro run failure after failed
  rw [run_sourceId] at failed
  split at failed <;> cases failed <;> exact fun _ => nofun

theorem blames_drawFrom (id bound : Nat) : Blames (drawFrom id bound) := by
  intro run failure after failed
  rw [run_drawFrom] at failed
  split at failed <;> cases failed
  exact fun _ => nofun

theorem blames_written (text? : Option Text) : Blames (written text?) := by
  cases text? with
  | none => exact .throw fun _ => nofun
  | some text => exact .pure text

theorem blames_choose (rules : List (List Node)) : Blames (choose rules) := by
  refine blames_sourceId.bind fun id => ?_
  split
  · exact .throw fun _ => nofun
  · exact (blames_drawFrom id _).bind fun index => .pure _

theorem blames_between (lo hi : Int) : Blames (drawRange.between lo hi) := by
  unfold drawRange.between
  split
  · split
    · exact .throw (.bare (.empty lo hi))
    · exact .throw fun _ => nofun
  · exact blames_sourceId.bind fun id => (blames_drawFrom id _).bind fun offset => .pure _

theorem blames_drawRange (arguments : List Int) : Blames (drawRange arguments) := by
  unfold drawRange
  split
  · exact blames_between _ _
  · exact blames_between _ _
  · exact .throw (.bare (.arity _))

theorem blames_lookup (name : String) : Blames (lookup name) := by
  intro run failure after failed
  rw [run_lookup] at failed
  split at failed
  · cases failed
    exact .bare (.unbound name)
  · exact blames_written _ _ _ _ failed

theorem blames_emit (emission : Emission) : Blames (emit emission) := by
  cases emission with
  | text value => exact .pure value
  | lookup name => exact blames_lookup name
  | draw arguments => exact (blames_drawRange arguments).bind fun value => blames_written _
  | observe =>
      intro run failure after failed
      cases failed

theorem blames_nodes (grammar : Grammar) {expand : String → Expander Text}
    (blames : ∀ key, Blames (expand key)) (owner : String) (rule : List Node) :
    Blames (nodes grammar expand owner rule) := by
  have binds (name : String) (binding : Binding) : Blames (Expander.bind name binding) := by
    intro run failure after failed
    cases failed
  have expands (first : Node) : Blames (node grammar expand owner first) := by
    cases first with
    | leaf leaf => exact blames_emit leaf.emission
    | symbol key => exact (blames key).bind fun text => (binds _ _).bind fun _ => .pure text
    | unresolved ref => exact .throw fun _ => nofun
    | stray text => exact .throw fun _ => nofun
  induction rule with
  | nil => exact .pure _
  | cons first rest ih => exact (expands first).bind fun text => ih.bind fun others => .pure _

theorem blames_expand (grammar : Grammar) (limit : Nat) (key : String) :
    Blames (expand grammar limit key) := by
  induction limit generalizing key with
  | zero => exact .throw fun _ => nofun
  | succ limit ih =>
      unfold expand
      split
      · exact .throw fun _ => nofun
      · exact (blames_choose _).bind fun rule => .within _ (blames_nodes grammar ih _ rule)

theorem blames_generate {grammar : Grammar} {symbol : Option String} {key : String}
    (asked : chosen grammar symbol = some key) (declared : grammar.contains key = true)
    (limit : Nat) (entropy : Random.Entropy) (source : Nat) :
    Blames (generate grammar limit entropy symbol (some source) false) := by
  unfold generate
  simp only [asked, declared]
  have roots : Blames (newRoot entropy (some source) .empty) := by
    intro run failure after failed
    cases failed
  exact Blames.get.bind fun _ => roots.bind fun root => .inScope root (blames_expand grammar limit key)

theorem blames_batch {grammar : Grammar} {symbol : Option String} {key : String}
    (asked : chosen grammar symbol = some key) (declared : grammar.contains key = true)
    (limit source : Nat) (shown : Text) (count : Nat) :
    Blames (batch grammar limit symbol source shown count) := by
  have attempts : Blames (attempt grammar limit symbol source shown) := by
    intro run failure after failed
    simp only [attempt] at failed
    split at failed
    · cases failed
    · cases failed
    · rename_i other next tooDeep ran
      cases failed
      exact blames_generate asked declared _ _ _ _ _ _ ran
  induction count with
  | zero => exact .pure []
  | succ count ih => exact attempts.bind fun first => ih.bind fun others => .pure _

end Expander

/-- Texts of a declared symbol are refused for a leaf only. -/
theorem Grammar.ofLeaf_of_generateStrings {grammar : Grammar} {symbol : Option String} {key : String}
    (asked : Expander.chosen grammar symbol = some key) (declared : grammar.contains key = true)
    {limit count : Nat} {source : Random.Source} {shown : Text} {failure : RunFailure}
    (failed : (grammar.generateStrings limit symbol count source shown).1 = .error failure) :
    failure.OfLeaf := by
  simp only [generateStrings] at failed
  split at failed
  · cases failed
  · rename_i other after ran
    cases failed
    exact Expander.blames_batch asked declared _ _ _ _ _ _ _ ran

end PhraseGrammar
