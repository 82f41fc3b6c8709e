import PhraseGrammar.Expansion.Expand

/-!
# Steps of a run

What the elementary steps of an expansion do to the run that they start from,
and what a sequence of steps keeps if each of them keeps it. How lookups see a
new frame and a new binding is told beside it.
-/

namespace PhraseGrammar

namespace Scope

/-- A new frame shows its defaults and what they leave in sight. -/
theorem get?_push (scope : Scope) (defaults : Table Value) (name : String) :
    (scope.push defaults).get? name =
      ((defaults.get? name).map Binding.value).or (scope.get? name) := by
  simp only [get?, push, List.findSome?_cons, Table.get?_map]
  cases defaults.get? name <;> rfl

theorem get?_bind (scope : Scope) (name other : String) (binding : Binding) :
    (scope.bind name binding).get? other =
      if other = name then some binding else scope.get? other := by
  simp only [get?, bind]
  cases scope.frames with
  | nil => by_cases same : other = name <;> simp [same]
  | cons frame rest => by_cases same : other = name <;> simp [same, List.findSome?_cons]

@[simp] theorem pop_bind (scope : Scope) (name : String) (binding : Binding) :
    (scope.bind name binding).pop = scope.pop := by
  simp only [bind, pop]
  cases scope.frames <;> rfl

end Scope

namespace Expander

variable {α β γ : Type}

/-- The run after a step, whichever way the step ended. -/
def after : EStateM.Result RunFailure Run α → Run
  | .ok _ run => run
  | .error _ run => run

theorem run_bind (first : Expander α) (second : α → Expander β) (run : Run) :
    (first >>= second) run =
      match first run with
      | .ok value run => second value run
      | .error failure run => .error failure run := by
  change EStateM.bind first second run = _
  unfold EStateM.bind
  cases first run <;> rfl

/-- What two steps keep, their sequence keeps as well. -/
theorem after_bind (view : Run → γ) {first : Expander α} {second : α → Expander β}
    (before : ∀ run, view (after (first run)) = view run)
    (further : ∀ value run, view (after (second value run)) = view run) (run : Run) :
    view (after ((first >>= second) run)) = view run := by
  have kept := before run
  rw [run_bind]
  cases ran : first run with
  | ok value next =>
      rw [ran] at kept
      exact (further value next).trans kept
  | error failure next =>
      rw [ran] at kept
      exact kept

theorem run_sourceId (run : Run) :
    sourceId run =
      match run.scope.get? randomName with
      | none => .error .noSource run
      | some (.value _) => .error .notSource run
      | some (.source id _) => .ok id run := by
  simp only [sourceId, run_bind]
  change (match run.scope.get? randomName with
    | none => (MonadExcept.throw RunFailure.noSource : Expander Nat)
    | some (.value _) => MonadExcept.throw RunFailure.notSource
    | some (.source id _) => Pure.pure id) run = _
  cases run.scope.get? randomName with
  | none => rfl
  | some binding => cases binding <;> rfl

theorem run_drawFrom (id bound : Nat) (run : Run) :
    drawFrom id bound run =
      match run.sources[id]? with
      | none => .error .noSource run
      | some source =>
          .ok (source.draw bound).1
            { run with sources := run.sources.set id (source.draw bound).2 } := by
  simp only [drawFrom, run_bind]
  change (match run.sources[id]? with
    | none => (MonadExcept.throw RunFailure.noSource : Expander Nat)
    | some source => _) run = _
  cases run.sources[id]? <;> rfl

/-- The text that a binding emits. -/
def shownBinding? : Binding → Option Text
  | .value bound => bound.plain?
  | .source _ shown => some shown

theorem run_lookup (name : String) (run : Run) :
    lookup name run =
      match run.scope.get? name with
      | none => .error (.bare (.unboundReference name)) run
      | some binding => written (shownBinding? binding) run := by
  simp only [lookup, run_bind]
  change (match run.scope.get? name with
    | none => (MonadExcept.throw (RunFailure.bare (.unboundReference name)) : Expander Text)
    | some (.value bound) => written bound.plain?
    | some (.source _ shown) => Pure.pure shown) run = _
  cases run.scope.get? name with
  | none => rfl
  | some binding => cases binding <;> rfl

end Expander

end PhraseGrammar
