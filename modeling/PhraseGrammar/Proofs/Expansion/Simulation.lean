import PhraseGrammar.Proofs.Expansion.Environment

/-!
# Frames against one environment

Every step of an expansion answers as the evaluation of its node does in the
bindings that it sees, and leaves the frames below its own as they were. Hence
an expansion and the evaluation of its symbol agree on text, failure and draws.
-/

namespace PhraseGrammar

theorem Scope.get?_push_eq (scope : Scope) (defaults : Table Value) :
    (scope.push defaults).get? = Environment.override scope.get? defaults :=
  funext (scope.get?_push defaults)

theorem Scope.get?_bind_eq (scope : Scope) (name : String) (binding : Binding) :
    (scope.bind name binding).get? = Environment.set scope.get? name binding :=
  funext fun other => scope.get?_bind name other binding

namespace Expander

variable {α β : Type}

/-- A step answers as an evaluation in the bindings in sight does, and leaves the scope alone. -/
structure Follows (step : Expander α)
    (evaluation : Environment → List Random.Source → Outcome α) : Prop where
  outcome (run : Run) : Outcome.ofResult (step run) = evaluation run.scope.get? run.sources
  scope (run : Run) : (after (step run)).scope = run.scope

namespace Follows

theorem pure (value : α) : Follows (pure value) fun _ sources => (.ok value, sources) :=
  ⟨fun _ => rfl, fun _ => rfl⟩

theorem throw (failure : RunFailure) :
    Follows (throw failure : Expander α) fun _ sources => (.error failure, sources) :=
  ⟨fun _ => rfl, fun _ => rfl⟩

/-- After a first step, what follows answers from the same scope and the sources that are left. -/
theorem outcome_bind {first : Expander α} {second : α → Expander β}
    {evaluation : Environment → List Random.Source → Outcome α}
    {further : α → List Random.Source → Outcome β} (leads : Follows first evaluation) (run : Run)
    (continues : ∀ value next, next.scope = run.scope →
      Outcome.ofResult (second value next) = further value next.sources) :
    Outcome.ofResult ((first >>= second) run) =
      (evaluation run.scope.get? run.sources).andThen further := by
  have kept := leads.scope run
  rw [← leads.outcome, run_bind]
  cases ran : first run with
  | ok value next =>
      rw [ran] at kept
      exact continues value next kept
  | error failure next => rfl

theorem bind {first : Expander α} {second : α → Expander β}
    {evaluation : Environment → List Random.Source → Outcome α}
    {further : α → Environment → List Random.Source → Outcome β}
    (leads : Follows first evaluation) (follows : ∀ value, Follows (second value) (further value)) :
    Follows (first >>= second) fun environment sources =>
      (evaluation environment sources).andThen fun value => further value environment where
  outcome run := leads.outcome_bind run fun value next same => by
    rw [(follows value).outcome next, same]
  scope := after_bind Run.scope leads.scope fun value => (follows value).scope

end Follows

theorem follows_draw {bound : Nat} (positive : bound ≠ 0) :
    Follows (sourceId >>= fun id => drawFrom id bound)
      fun environment => environment.draw bound := by
  constructor <;> intro run <;>
    simp only [run_bind, run_sourceId, run_drawFrom, Environment.draw, positive, if_false]
  all_goals
    cases run.scope.get? randomName with
    | none => rfl
    | some binding =>
        cases binding with
        | value bound => rfl
        | source id shown =>
            dsimp only
            cases run.sources[id]? <;> rfl

/-- A nonterminal without rules fails as a draw below zero does. -/
theorem follows_choose (rules : List (List Node)) :
    Follows (choose rules) fun environment sources =>
      (environment.draw rules.length sources).andThen fun index sources =>
        (.ok (rules.getD index []), sources) := by
  cases rules with
  | nil =>
      constructor <;> intro run <;>
        simp only [choose, run_bind, run_sourceId, List.isEmpty_nil, if_true, Environment.draw,
          List.length_nil]
      all_goals
        cases run.scope.get? randomName with
        | none => rfl
        | some binding => cases binding <;> rfl
  | cons first rest =>
      have positive : (first :: rest).length ≠ 0 := by simp
      have sequence : choose (first :: rest) =
          (sourceId >>= fun id => drawFrom id (first :: rest).length) >>= fun index =>
            pure ((first :: rest).getD index []) := by
        simp [choose]
      rw [sequence]
      exact (follows_draw positive).bind fun index => .pure _

theorem follows_written (text? : Option Text) :
    Follows (written text?) fun _ => Environment.write text? := by
  cases text? with
  | none => exact .throw _
  | some text => exact .pure text

theorem follows_lookup (name : String) :
    Follows (lookup name) fun environment => environment.lookup name := by
  constructor <;> intro run <;> rw [run_lookup]
  · unfold Environment.lookup
    cases run.scope.get? name with
    | none => rfl
    | some binding => exact (follows_written (shownBinding? binding)).outcome run
  · cases run.scope.get? name with
    | none => rfl
    | some binding => exact (follows_written (shownBinding? binding)).scope run

theorem follows_between (lo hi : Int) :
    Follows (drawRange.between lo hi >>= fun value => written (Numeral.text? value))
      fun environment => environment.drawBetween lo hi := by
  unfold drawRange.between Environment.drawBetween
  by_cases empty : hi ≤ lo
  · by_cases shown : (Numeral.decimal? lo).isSome ∧ (Numeral.decimal? hi).isSome
    · simp only [empty, shown, if_true]
      exact .throw _
    · simp only [empty, shown, if_true, if_false]
      exact .throw _
  · have positive : (hi - lo).toNat ≠ 0 := by omega
    simp only [empty, if_false, bind_assoc, pure_bind]
    rw [← bind_assoc]
    exact (follows_draw positive).bind fun offset => follows_written _

theorem follows_emit (emission : Emission) :
    Follows (emit emission) fun environment => environment.emit emission := by
  cases emission with
  | text value => exact .pure value
  | lookup name => exact follows_lookup name
  | observe => exact ⟨fun _ => rfl, fun _ => rfl⟩
  | draw arguments =>
      match arguments with
      | [] => exact .throw _
      | [hi] => exact follows_between 0 hi
      | [lo, hi] => exact follows_between lo hi
      | _ :: _ :: _ :: _ => exact .throw _

/-- A frame of its own shows a step its defaults, and is gone afterwards. -/
theorem follows_within (defaults : Table Value) {step : Expander α}
    {evaluation : Environment → List Random.Source → Outcome α}
    (outcome : ∀ run, Outcome.ofResult (step run) = evaluation run.scope.get? run.sources)
    (below : ∀ run, (after (step run)).scope.pop = run.scope.pop) :
    Follows (within defaults step) fun environment =>
      evaluation (environment.override defaults) where
  outcome run := by
    have answers := outcome { run with scope := run.scope.push defaults }
    rw [Scope.get?_push_eq] at answers
    rw [← answers, within]
    cases step { run with scope := run.scope.push defaults } <;> rfl
  scope run := by
    have kept := below { run with scope := run.scope.push defaults }
    rw [Scope.pop_push] at kept
    rw [within]
    cases ran : step { run with scope := run.scope.push defaults } <;>
      exact (congrArg (fun result => (after result).scope.pop) ran).symm.trans kept

section

variable (grammar : Grammar) {expand : String → Expander Text} (owner : String)
  {symbol : String → Environment → List Random.Source → Outcome Text}

theorem pop_node (follows : ∀ key, Follows (expand key) (symbol key)) (first : Node) (run : Run) :
    (after (node grammar expand owner first run)).scope.pop = run.scope.pop := by
  cases first with
  | leaf leaf => exact congrArg Scope.pop ((follows_emit leaf.emission).scope run)
  | unresolved ref => rfl
  | stray text => rfl
  | symbol key =>
      apply after_bind fun run => run.scope.pop
      · exact fun run => congrArg Scope.pop ((follows key).scope run)
      · exact fun text run => run.scope.pop_bind _ _

theorem pop_nodes (follows : ∀ key, Follows (expand key) (symbol key)) (rule : List Node)
    (run : Run) : (after (nodes grammar expand owner rule run)).scope.pop = run.scope.pop := by
  induction rule generalizing run with
  | nil => rfl
  | cons first rest ih =>
      apply after_bind fun run => run.scope.pop
      · exact pop_node grammar owner follows first
      · exact fun text => after_bind (fun run => run.scope.pop) ih fun others run => rfl

/-- The frame changes from node to node as the environment does. -/
theorem outcome_nodes (follows : ∀ key, Follows (expand key) (symbol key)) (rule : List Node)
    (run : Run) :
    Outcome.ofResult (nodes grammar expand owner rule run) =
      Environment.nodes grammar symbol owner rule run.scope.get? run.sources := by
  induction rule generalizing run with
  | nil => rfl
  | cons first rest ih =>
      have joined (text : Text) (run : Run) :
          Outcome.ofResult
              ((nodes grammar expand owner rest >>= fun others => pure (text ++ others)) run) =
            (Environment.nodes grammar symbol owner rest run.scope.get? run.sources).andThen
              fun others sources => (.ok (text ++ others), sources) := by
        rw [run_bind, ← ih]
        cases nodes grammar expand owner rest run <;> rfl
      cases first with
      | unresolved ref => rfl
      | stray text => rfl
      | leaf leaf =>
          apply (follows_emit leaf.emission).outcome_bind
          intro text next same
          rw [joined, same]
      | symbol key =>
          simp only [nodes, node, bind_assoc, pure_bind]
          apply (follows key).outcome_bind
          intro text next same
          have bound := joined text { next with
            scope := next.scope.bind (grammar.nameOf key) (.value (.text text)) }
          rw [Scope.get?_bind_eq, congrArg Scope.get? same] at bound
          rw [run_bind]
          exact bound

end

/-- An expansion answers as the evaluation of its symbol does, whatever the limit. -/
theorem follows_expand (grammar : Grammar) (limit : Nat) (key : String) :
    Follows (expand grammar limit key) (Environment.evaluate grammar limit key) := by
  induction limit generalizing key with
  | zero => exact .throw _
  | succ limit ih =>
      cases found : grammar.get? key with
      | none =>
          unfold expand
          rw [found]
          refine ⟨fun run => ?_, fun run => rfl⟩
          rw [Environment.evaluate, found]
          rfl
      | some nonterminal =>
          have whole := (follows_choose nonterminal.rules).bind fun rule =>
            follows_within nonterminal.defaults
              (outcome_nodes grammar nonterminal.name ih rule)
              (pop_nodes grammar nonterminal.name ih rule)
          unfold expand
          rw [found]
          refine ⟨fun run => (whole.outcome run).trans ?_, whole.scope⟩
          rw [Environment.evaluate, found]
          dsimp only
          cases Environment.draw run.scope.get? nonterminal.rules.length run.sources with
          | mk result sources => cases result <;> rfl

/--
Expansion is lexical scoping over one map: it gives the text or the failure of
its evaluation in the bindings in sight and leaves the sources as that does.
Scopes of different frames that show the same bindings, a single table among
them, cannot be told apart.
-/
theorem ofResult_expand (grammar : Grammar) (limit : Nat) (key : String) (run : Run) :
    Outcome.ofResult (expand grammar limit key run) =
        Environment.evaluate grammar limit key run.scope.get? run.sources ∧
      ∀ other : Run, (∀ name, other.scope.get? name = run.scope.get? name) →
        other.sources = run.sources →
          Outcome.ofResult (expand grammar limit key other) =
            Outcome.ofResult (expand grammar limit key run) := by
  have follows := follows_expand grammar limit key
  refine ⟨follows.outcome run, fun other alike same => ?_⟩
  rw [follows.outcome, follows.outcome, funext alike, same]

/-- The text of a sibling hides the caller's binding, and a default hides both for a while. -/
def shadowing : Grammar where
  table := ⟨[
    ("S", ⟨"S", [[.symbol "B", .symbol "C", .leaf ⟨"Reference", "B", .lookup "B"⟩]], .empty, none⟩),
    ("B", ⟨"B", [[.leaf ⟨"Reference", "B", .lookup "B"⟩, .leaf (.constant "String" "!")]],
      .empty, none⟩),
    ("C", ⟨"C", [[.leaf ⟨"Reference", "B", .lookup "B"⟩]],
      Table.empty.set "B" (.text "default"), none⟩)], by decide⟩
  start := some "S"

/-- A caller's bindings in one frame. -/
def oneFrame : Run :=
  .start ⟨[(Table.empty.set randomName (.source 0 "source")).set "B" (.value (.text "caller"))]⟩
    [.script [5, 7, 9, 11]]

/-- The same bindings in sight, and a hidden one below them. -/
def twoFrames : Run :=
  .start ⟨[Table.empty.set "B" (.value (.text "caller")),
    (Table.empty.set "B" (.value (.text "hidden"))).set randomName (.source 0 "source")]⟩
    [.script [5, 7, 9, 11]]

theorem shown_alike (name : String) : twoFrames.scope.get? name = oneFrame.scope.get? name := by
  by_cases bound : name = "B"
  · simp [twoFrames, oneFrame, Run.start, Scope.get?, bound]
  · by_cases source : name = randomName
    · simp [twoFrames, oneFrame, Run.start, Scope.get?, source, randomName]
    · simp [twoFrames, oneFrame, Run.start, Scope.get?, bound, source]

theorem ofResult_expand_shadowing :
    (∀ name, twoFrames.scope.get? name = oneFrame.scope.get? name) ∧
      twoFrames.sources = oneFrame.sources ∧
        Outcome.ofResult (expand shadowing 2 "S" twoFrames) =
          (.ok "caller!defaultcaller!", [.script [11]]) :=
  ⟨shown_alike, rfl,
    ((ofResult_expand shadowing 2 "S" oneFrame).2 twoFrames shown_alike rfl).trans (by rfl)⟩

end Expander

end PhraseGrammar
