import PhraseGrammar.Proofs.Expansion.Visits

/-!
# What an expansion leaves behind

However an expansion ends, the scope and the notes of its run are as they were,
and so is every source but the one that its caller sees. In a context of its own
it draws from the source that is given to it, or from a further one.
-/

namespace PhraseGrammar

/-- An outcome after which a view of the sources is what it was. -/
def Outcome.Keeps {α γ : Type} (view : List Random.Source → γ) (sources : List Random.Source)
    (outcome : Outcome α) : Prop :=
  view outcome.2 = view sources

theorem Outcome.Keeps.andThen {α β γ : Type} {view : List Random.Source → γ}
    {sources : List Random.Source} {first : Outcome α}
    {second : α → List Random.Source → Outcome β} (keeps : first.Keeps view sources)
    (further : ∀ value after, (second value after).Keeps view after) :
    (first.andThen second).Keeps view sources := by
  obtain ⟨result, after⟩ := first
  cases result with
  | error failure => exact keeps
  | ok value => exact (further value after).trans keeps

namespace Environment

variable {γ : Type} {view : List Random.Source → γ} {environment : Environment} {id : Nat}

/-- When the source in sight moves, the view stays the same. -/
def Hides (environment : Environment) (view : List Random.Source → γ) : Prop :=
  ∀ used shown, environment randomName = some (.source used shown) →
    ∀ (sources : List Random.Source) source, view (sources.set used source) = view sources

/-- A source that is not in sight stays in its state. -/
theorem hides_of_ne (other : ∀ shown, environment randomName ≠ some (.source id shown)) :
    environment.Hides (·[id]?) := by
  intro used shown seen sources source
  have different : used ≠ id := fun same => other shown (same ▸ seen)
  exact List.getElem?_set_ne different

theorem hides_length (environment : Environment) : environment.Hides List.length :=
  fun _ _ _ _ _ => List.length_set

theorem Hides.set (hides : environment.Hides view) (name : String) (value : Value) :
    (environment.set name (.value value)).Hides view := by
  intro used shown seen
  unfold Environment.set at seen
  split at seen
  · cases seen
  · exact hides used shown seen

theorem Hides.override (hides : environment.Hides view) (defaults : Table Value) :
    (environment.override defaults).Hides view := by
  intro used shown seen
  unfold Environment.override at seen
  cases found : defaults.get? randomName with
  | none =>
      rw [found] at seen
      exact hides used shown seen
  | some value =>
      rw [found] at seen
      cases seen

theorem keeps_draw (hides : environment.Hides view) (bound : Nat) (sources : List Random.Source) :
    (environment.draw bound sources).Keeps view sources := by
  unfold draw
  cases seen : environment randomName with
  | none => rfl
  | some binding =>
      cases binding with
      | value value => rfl
      | source used shown =>
          dsimp only
          split
          · rfl
          · cases sources[used]? with
            | none => rfl
            | some source => exact hides used shown seen sources _

theorem keeps_drawBetween (hides : environment.Hides view) (lo hi : Int)
    (sources : List Random.Source) :
    (environment.drawBetween lo hi sources).Keeps view sources := by
  unfold drawBetween
  split
  · split <;> rfl
  · exact (keeps_draw hides _ sources).andThen fun offset after => Eq.refl (view after)

theorem keeps_emit (hides : environment.Hides view) (emission : Emission)
    (sources : List Random.Source) : (environment.emit emission sources).Keeps view sources := by
  cases emission with
  | text value => rfl
  | observe => rfl
  | lookup name =>
      simp only [emit, lookup]
      cases environment name <;> rfl
  | draw arguments =>
      simp only [emit]
      cases interval? arguments with
      | none => rfl
      | some ends => exact keeps_drawBetween hides ends.1 ends.2 sources

theorem keeps_nodes {grammar : Grammar} {owner : String}
    {symbol : String → Environment → List Random.Source → Outcome Text}
    (symbols : ∀ key (environment : Environment) sources, environment.Hides view →
      (symbol key environment sources).Keeps view sources)
    (rule : List Node) (hides : environment.Hides view) (sources : List Random.Source) :
    (nodes grammar symbol owner rule environment sources).Keeps view sources := by
  induction rule generalizing environment sources with
  | nil => rfl
  | cons first rest ih =>
      cases first with
      | unresolved ref => rfl
      | stray text => rfl
      | leaf leaf =>
          refine (keeps_emit hides leaf.emission sources).andThen fun text after => ?_
          exact (ih hides after).andThen fun others last => rfl
      | symbol key =>
          refine (symbols key environment sources hides).andThen fun text after => ?_
          exact (ih (hides.set _ _) after).andThen fun others last => rfl

/-- An evaluation keeps every view in which the source in sight does not show. -/
theorem keeps_evaluate (grammar : Grammar) (limit : Nat) (key : String)
    (hides : environment.Hides view) (sources : List Random.Source) :
    (evaluate grammar limit key environment sources).Keeps view sources := by
  induction limit generalizing key environment sources with
  | zero => rfl
  | succ limit ih =>
      unfold evaluate
      cases grammar.get? key with
      | none => rfl
      | some nonterminal =>
          refine (keeps_draw hides _ sources).andThen fun index after => ?_
          exact keeps_nodes (fun key environment sources hides => ih key hides sources) _
            (hides.override _) after

end Environment

/-- The source in sight, if there is one. -/
def Scope.source? (scope : Scope) : Option Nat :=
  match scope.get? randomName with
  | some (.source id _) => some id
  | _ => none

theorem Scope.hides_of_source? {scope : Scope} {id : Nat} (other : scope.source? ≠ some id) :
    Environment.Hides scope.get? (·[id]?) := by
  apply Environment.hides_of_ne
  intro shown seen
  exact other (by rw [source?, seen])

/-- A leaf that records the bindings in sight. The default registry has none. -/
def Node.observes : Node → Bool
  | .leaf ⟨_, _, .observe⟩ => true
  | _ => false

theorem Node.emission_ne_observe {leaf : Leaf} (plain : (Node.leaf leaf).observes = false) :
    leaf.emission ≠ .observe := by
  obtain ⟨kind, shown, emission⟩ := leaf
  rintro rfl
  cases plain

/-- No leaf of the grammar records the bindings in sight. -/
def Grammar.Unobserving (grammar : Grammar) : Prop :=
  ∀ entry ∈ grammar.table.entries, ∀ rule ∈ entry.2.rules, ∀ node ∈ rule, node.observes = false

instance (grammar : Grammar) : Decidable grammar.Unobserving :=
  inferInstanceAs (Decidable (∀ entry ∈ grammar.table.entries, _))

/-- Two runs that differ in the state of one source at most, and in further sources. -/
structure Run.Untouched (used : Option Nat) (before after : Run) : Prop where
  scope : after.scope = before.scope
  observed : after.observed = before.observed
  log : after.log = before.log
  source {id : Nat} (known : id < before.sources.length) (other : used ≠ some id) :
    after.sources[id]? = before.sources[id]?

theorem Run.Untouched.refl (used : Option Nat) (run : Run) : run.Untouched used run :=
  ⟨rfl, rfl, rfl, fun _ _ => rfl⟩

namespace Expander

/-- What is recorded in the course of a run. -/
def records (run : Run) : List Frame × List Event :=
  (run.observed, run.log)

theorem records_sourceId (run : Run) : records (after (sourceId run)) = records run := by
  rw [run_sourceId]
  cases run.scope.get? randomName with
  | none => rfl
  | some binding => cases binding <;> rfl

theorem records_drawFrom (id bound : Nat) (run : Run) :
    records (after (drawFrom id bound run)) = records run := by
  rw [run_drawFrom]
  cases run.sources[id]? <;> rfl

theorem records_choose (rules : List (List Node)) (run : Run) :
    records (after (choose rules run)) = records run := by
  unfold choose
  apply after_bind records records_sourceId
  intro id run
  split
  · rfl
  · exact after_bind records (records_drawFrom id _) (fun index run => rfl) run

theorem records_written (text? : Option Text) (run : Run) :
    records (after (written text? run)) = records run := by
  cases text? <;> rfl

theorem records_lookup (name : String) (run : Run) :
    records (after (lookup name run)) = records run := by
  rw [run_lookup]
  cases run.scope.get? name with
  | none => rfl
  | some binding => exact records_written _ run

theorem records_between (lo hi : Int) (run : Run) :
    records (after (drawRange.between lo hi run)) = records run := by
  unfold drawRange.between
  split
  · split <;> rfl
  · apply after_bind records records_sourceId
    intro id
    exact after_bind records (records_drawFrom id _) fun offset run => rfl

theorem records_drawRange (arguments : List Int) (run : Run) :
    records (after (drawRange arguments run)) = records run := by
  match arguments with
  | [] => rfl
  | [hi] => exact records_between 0 hi run
  | [lo, hi] => exact records_between lo hi run
  | _ :: _ :: _ :: _ => rfl

theorem records_emit {emission : Emission} (plain : emission ≠ .observe) (run : Run) :
    records (after (emit emission run)) = records run := by
  cases emission with
  | text value => rfl
  | lookup name => exact records_lookup name run
  | draw arguments =>
      exact after_bind records (records_drawRange arguments)
        (fun value => records_written (Numeral.text? value)) run
  | observe => exact absurd rfl plain

/-- Leaves that record the bindings in sight note nothing. -/
theorem log_emit (emission : Emission) (run : Run) : (after (emit emission run)).log = run.log := by
  by_cases observes : emission = .observe
  · subst observes
    rfl
  · exact congrArg Prod.snd (records_emit observes run)

section

variable {γ : Type} (view : Run → γ) (unscoped : ∀ run scope, view { run with scope } = view run)

include unscoped

/-- A view without the scope stays the same over a rule if it does over its parts. -/
theorem view_nodes {grammar : Grammar} {expand : String → Expander Text} {owner : String}
    (symbols : ∀ key run, view (after (expand key run)) = view run) {rule : List Node}
    (leaves : ∀ leaf, .leaf leaf ∈ rule → ∀ run, view (after (emit leaf.emission run)) = view run)
    (run : Run) : view (after (nodes grammar expand owner rule run)) = view run := by
  induction rule generalizing run with
  | nil => rfl
  | cons first rest ih =>
      apply after_bind view
      · intro run
        cases first with
        | unresolved ref => rfl
        | stray text => rfl
        | leaf leaf => exact leaves leaf List.mem_cons_self run
        | symbol key => exact after_bind view (symbols key) (fun text run => unscoped run _) run
      · intro text
        exact after_bind view (ih fun leaf member => leaves leaf (.tail _ member))
          fun others run => rfl

theorem view_within (defaults : Table Value) (step : Expander Text) (run : Run) :
    view (after (within defaults step run)) =
      view (after (step { run with scope := run.scope.push defaults })) := by
  unfold within
  cases step { run with scope := run.scope.push defaults } <;> exact unscoped _ _

theorem view_expand {grammar : Grammar}
    (choices : ∀ rules run, view (after (choose rules run)) = view run)
    (leaves : ∀ entry ∈ grammar.table.entries, ∀ rule ∈ entry.2.rules, ∀ leaf, .leaf leaf ∈ rule →
      ∀ run, view (after (emit leaf.emission run)) = view run) (limit : Nat) (key : String)
    (run : Run) : view (after (expand grammar limit key run)) = view run := by
  induction limit generalizing key run with
  | zero => rfl
  | succ limit ih =>
      unfold expand
      cases found : grammar.get? key with
      | none => rfl
      | some nonterminal =>
          -- That the rule is one of the symbol's is what tells about its leaves.
          have drawn := choices nonterminal.rules run
          dsimp only
          rw [run_bind]
          cases chosen : choose nonterminal.rules run with
          | error failure next =>
              rw [chosen] at drawn
              exact drawn
          | ok rule next =>
              rw [chosen] at drawn
              have known := leaves _ (Table.mem_entries_of_get? found) rule (mem_of_choose chosen)
              refine (view_within view unscoped _ _ next).trans ?_
              exact (view_nodes view unscoped ih known _).trans ((unscoped next _).trans drawn)

end

theorem records_expand {grammar : Grammar} (plain : grammar.Unobserving) (limit : Nat)
    (key : String) (run : Run) :
    records (after (expand grammar limit key run)) = records run := by
  refine view_expand records (fun _ _ => rfl) records_choose ?_ limit key run
  intro entry member rule chosen leaf inside
  exact records_emit (Node.emission_ne_observe (plain entry member rule chosen _ inside))

/-- An expansion notes nothing. -/
theorem log_expand (grammar : Grammar) (limit : Nat) (key : String) (run : Run) :
    (after (expand grammar limit key run)).log = run.log := by
  refine view_expand Run.log (fun _ _ => rfl) ?_ ?_ limit key run
  · exact fun rules run => congrArg Prod.snd (records_choose rules run)
  · exact fun _ _ _ _ leaf _ => log_emit leaf.emission

/-! ## Expansions -/

theorem sources_after {α : Type} (result : EStateM.Result RunFailure Run α) :
    (Outcome.ofResult result).2 = (after result).sources := by
  cases result <;> rfl

/-- An expansion moves no source but the one in sight. -/
theorem untouched_expand {grammar : Grammar} (plain : grammar.Unobserving) (limit : Nat)
    (key : String) (run : Run) :
    run.Untouched run.scope.source? (after (expand grammar limit key run)) where
  scope := (follows_expand grammar limit key).scope run
  observed := congrArg Prod.fst (records_expand plain limit key run)
  log := congrArg Prod.snd (records_expand plain limit key run)
  source := by
    intro id known other
    have spared := Environment.keeps_evaluate grammar limit key (Scope.hides_of_source? other)
      run.sources
    rw [← (follows_expand grammar limit key).outcome run, Outcome.Keeps, sources_after] at spared
    exact spared

/-- What is seen of a step does not depend on the scope that it comes back to. -/
theorem ofResult_inScope {α : Type} (root : Scope) (step : Expander α) (run : Run) :
    Outcome.ofResult (inScope root step run) =
      Outcome.ofResult (step { run with scope := root }) := by
  unfold inScope
  cases step { run with scope := root } <;> rfl

/-- An expansion in a new context with a given source, or with a further one. -/
def expandAnew (grammar : Grammar) (limit : Nat) (key : String) (entropy : Random.Entropy)
    (source : Option Nat) (bindings : Frame) : Expander Text := do
  let root ← newRoot entropy source bindings
  inScope root (expand grammar limit key)

/-- A text is generated in the scope at hand, or in a new context with its bindings or none. -/
theorem run_generate (grammar : Grammar) (limit : Nat) (entropy : Random.Entropy)
    (symbol : Option String) (source : Option Nat) (visible : Bool) (run : Run) :
    generate grammar limit entropy symbol source visible run =
      match chosen grammar symbol with
      | none => .error (.bare (.unknownStart none)) run
      | some key =>
          if grammar.contains key then
            if visible then
              if source.isSome ∨ (run.scope.get? randomName).isNone then
                expandAnew grammar limit key entropy source run.scope.flatten run
              else expand grammar limit key run
            else expandAnew grammar limit key entropy source .empty run
          else .error (.bare (.unknownStart (some key))) run := by
  unfold generate
  cases chosen grammar symbol with
  | none => rfl
  | some key =>
      by_cases declared : grammar.contains key = true
      · simp only [declared, if_true]
        cases visible with
        | false => rfl
        | true =>
            change (if source.isSome ∨ (run.scope.get? randomName).isNone then
              expandAnew grammar limit key entropy source run.scope.flatten
              else expand grammar limit key) run = _
            by_cases own : source.isSome ∨ (run.scope.get? randomName).isNone
            · simp only [own, if_true]
            · simp only [own, if_true, if_false]
      · simp only [declared]
        rfl

/-- The source that a text is generated from, unless it is a further one. -/
def usedSource? (source : Option Nat) (scope? : Option Scope) : Option Nat :=
  source.or (scope?.bind Scope.source?)

theorem untouched_inScope {used : Option Nat} {root : Scope} {step : Expander Text} (run : Run)
    (untouched : Run.Untouched used { run with scope := root }
      (after (step { run with scope := root }))) :
    run.Untouched used (after (inScope root step run)) := by
  unfold inScope
  cases ran : step { run with scope := root } <;> rw [ran] at untouched <;>
    exact ⟨rfl, untouched.observed, untouched.log, untouched.source⟩

theorem source?_rooted (bindings : Frame) (id : Nat) (shown : Text) :
    (Scope.rooted bindings id shown).source? = some id := by
  rw [Scope.source?, Scope.get?_rooted, if_pos rfl]

theorem untouched_expandAnew {grammar : Grammar} (plain : grammar.Unobserving) (limit : Nat)
    (key : String) (entropy : Random.Entropy) (source : Option Nat) (bindings : Frame) (run : Run) :
    run.Untouched source
      (after (expandAnew grammar limit key entropy source bindings run)) := by
  cases source with
  | some id =>
      have inner := untouched_expand plain limit key
        { run with scope := .rooted bindings id (entropy.shown id) }
      rw [source?_rooted] at inner
      exact untouched_inScope run inner
  | none =>
      have inner := untouched_expand plain limit key
        { run with
          sources := run.sources ++ [entropy.source]
          scope := .rooted bindings run.sources.length (entropy.shown run.sources.length) }
      rw [source?_rooted] at inner
      have outer := untouched_inScope { run with sources := run.sources ++ [entropy.source] } inner
      refine ⟨outer.scope, outer.observed, outer.log, fun {id} known other => ?_⟩
      have longer : id < (run.sources ++ [entropy.source]).length := by
        rw [List.length_append]
        omega
      have kept := outer.source longer fun same => Nat.ne_of_gt known (Option.some.inj same)
      exact kept.trans (List.getElem?_append_left known)

/-- Generation moves no source but the one that is given, or else the one in sight. -/
theorem untouched_generate {grammar : Grammar} (plain : grammar.Unobserving) (limit : Nat)
    (entropy : Random.Entropy) (symbol : Option String) (source : Option Nat) (visible : Bool)
    (run : Run) :
    run.Untouched (usedSource? source (if visible then some run.scope else none))
      (after (generate grammar limit entropy symbol source visible run)) := by
  rw [run_generate]
  cases chosen grammar symbol with
  | none => exact .refl _ run
  | some key =>
      by_cases declared : grammar.contains key = true
      · simp only [declared, if_true]
        cases visible with
        | false =>
            have anew := untouched_expandAnew plain limit key entropy source .empty run
            cases source <;> exact anew
        | true =>
            by_cases own : source.isSome ∨ (run.scope.get? randomName).isNone
            · simp only [own, if_true]
              have anew := untouched_expandAnew plain limit key entropy source run.scope.flatten run
              cases source with
              | some id => exact anew
              | none =>
                  have unbound := Option.isNone_iff_eq_none.mp (own.resolve_left Bool.false_ne_true)
                  have unseen : run.scope.source? = none := by
                    rw [Scope.source?, unbound]
                  rw [usedSource?, Option.none_or, Option.bind_some, unseen]
                  exact anew
            · simp only [own, if_true, if_false]
              have within := untouched_expand plain limit key run
              cases source with
              | some id => exact absurd (.inl rfl) own
              | none => exact within
      · simp only [declared]
        exact .refl _ run

end Expander

end PhraseGrammar
