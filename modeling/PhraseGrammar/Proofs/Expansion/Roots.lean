import PhraseGrammar.Proofs.Expansion.Choices
import PhraseGrammar.Proofs.Expansion.Effects

/-!
# The root of a generation

A text is generated in the scope at hand, or in a scope of one frame that holds
the source that is given or a further one. What becomes of it is told from this
root: two generations from roots that show the same, with sources in the same
state, are alike, and a source that the root does not hold stays as it is.
-/

namespace PhraseGrammar

/-- A leaf that emits how the random source is shown. -/
def Node.showsSource : Node → Bool
  | .leaf ⟨_, _, .lookup name⟩ => name = randomName
  | _ => false

namespace Grammar

/-- A leaf that the symbol reaches emits how the random source is shown. -/
def ShowsSource (grammar : Grammar) (symbol : String) : Prop :=
  ∃ leaf, grammar.ReachesLeaf symbol leaf ∧ leaf.emission = .lookup randomName

/-- No leaf of the grammar emits how the random source is shown. -/
def ConcealsSource (grammar : Grammar) : Prop :=
  ∀ entry ∈ grammar.table.entries, ∀ rule ∈ entry.2.rules, ∀ node ∈ rule, node.showsSource = false

instance (grammar : Grammar) : Decidable grammar.ConcealsSource :=
  inferInstanceAs (Decidable (∀ entry ∈ grammar.table.entries, _))

theorem ConcealsSource.not_showsSource {grammar : Grammar} (conceals : grammar.ConcealsSource)
    (symbol : String) : ¬grammar.ShowsSource symbol := by
  rintro ⟨⟨kind, shown, emission⟩, ⟨key, nonterminal, rule, _, found, chosen, member⟩, rfl⟩
  have hidden := conceals _ (Table.mem_entries_of_get? found) rule chosen _ member
  cases hidden

end Grammar

namespace Expander

/-- The scope that a text is generated in, and the sources with a further one if there is need. -/
def rootOf (entropy : Random.Entropy) (source : Option Nat) (visible : Bool) (scope : Scope)
    (sources : List Random.Source) : Scope × List Random.Source :=
  let bindings := if visible then scope.flatten else .empty
  match source with
  | some id => (.rooted bindings id (entropy.shown id), sources)
  | none =>
      if visible ∧ (scope.get? randomName).isSome then (scope, sources)
      else
        (.rooted bindings sources.length (entropy.shown sources.length),
          sources ++ [entropy.source])

/-- What is seen of a text generated from a root. -/
def fromRoot (grammar : Grammar) (limit : Nat) (key : String)
    (root : Scope × List Random.Source) : Outcome Text :=
  Outcome.ofResult (expand grammar limit key (.start root.1 root.2))

theorem ofResult_expandAnew (grammar : Grammar) (limit : Nat) (key : String)
    (entropy : Random.Entropy) (source : Option Nat) (bindings : Frame) (scope : Scope)
    (sources : List Random.Source) :
    Outcome.ofResult (expandAnew grammar limit key entropy source bindings (.start scope sources)) =
      fromRoot grammar limit key
        (match source with
        | some id => (.rooted bindings id (entropy.shown id), sources)
        | none =>
            (.rooted bindings sources.length (entropy.shown sources.length),
              sources ++ [entropy.source])) := by
  cases source with
  | some id => exact ofResult_inScope _ _ _
  | none => exact ofResult_inScope _ _ _

/-- Every text is generated from the root. -/
theorem ofResult_generate (grammar : Grammar) (limit : Nat) (entropy : Random.Entropy)
    (symbol : Option String) (source : Option Nat) (visible : Bool) (scope : Scope)
    (sources : List Random.Source) :
    Outcome.ofResult
        (generate grammar limit entropy symbol source visible (.start scope sources)) =
      match chosen grammar symbol with
      | none => (.error (.bare (.unknownStart none)), sources)
      | some key =>
          if grammar.contains key then
            fromRoot grammar limit key (rootOf entropy source visible scope sources)
          else (.error (.bare (.unknownStart (some key))), sources) := by
  rw [run_generate]
  cases chosen grammar symbol with
  | none => rfl
  | some key =>
      by_cases declared : grammar.contains key = true
      · simp only [declared, if_true]
        cases visible with
        | false =>
            cases source with
            | some id => exact ofResult_expandAnew ..
            | none => exact ofResult_expandAnew ..
        | true =>
            cases source with
            | some id => exact ofResult_expandAnew ..
            | none =>
                simp only [if_true, Option.isSome_none, Bool.false_eq_true, false_or, rootOf,
                  true_and]
                change Outcome.ofResult (if (scope.get? randomName).isNone then _ else _) = _
                cases seen : scope.get? randomName with
                | none => exact ofResult_expandAnew ..
                | some binding => rfl
      · simp only [declared]
        rfl

/-! ## Sources that are not in the root -/

section

variable {entropy : Random.Entropy} {source : Option Nat} {scope : Scope}
  {sources others : List Random.Source} {id : Nat} (visible : Bool)

theorem length_rootOf : sources.length ≤ (rootOf entropy source visible scope sources).2.length := by
  unfold rootOf
  cases source with
  | some id => exact Nat.le_refl _
  | none =>
      dsimp only
      split
      · exact Nat.le_refl _
      · rw [List.length_append]
        exact Nat.le_add_right _ _

/-- A source that is neither given nor in sight is not the root's, and stays in its state. -/
theorem rootOf_other (known : id < sources.length) (given : source ≠ some id)
    (seen : scope.source? ≠ some id) :
    (rootOf entropy source visible scope sources).1.source? ≠ some id ∧
      (rootOf entropy source visible scope sources).2[id]? = sources[id]? := by
  unfold rootOf
  cases source with
  | some used =>
      refine ⟨?_, rfl⟩
      rw [source?_rooted]
      exact given
  | none =>
      dsimp only
      split
      · exact ⟨seen, rfl⟩
      · refine ⟨?_, List.getElem?_append_left known⟩
        rw [source?_rooted]
        exact fun same => Nat.ne_of_gt known (Option.some.inj same)

/--
Two roots with sources in the same state, which show the same, while a certain
source is in the same state too: it is the one in both roots, or in neither.
-/
structure Twins (id : Nat) (root other : Scope × List Random.Source) : Prop where
  rooted : ∃ left right, Environment.Resembles False (fun _ => True) left right root.1.get?
    other.1.get? ∧ root.2[left]? = other.2[right]? ∧ (left = id ∧ right = id ∨
      root.1.source? ≠ some id ∧ other.1.source? ≠ some id)
  same : root.2[id]? = other.2[id]?

/-- Roots with the same bindings, unless it is asked how their sources are shown. -/
theorem resembles_rooted {names : String → Prop} (bindings : Frame) (left right : Nat)
    {shown word : Text} (seen : names randomName → shown = word) :
    Environment.Resembles False names left right (Scope.rooted bindings left shown).get?
      (Scope.rooted bindings right word).get? where
  paired := by
    rw [Scope.get?_rooted, Scope.get?_rooted, if_pos rfl, if_pos rfl]
    exact .source shown word
  shown := by
    intro _ name referred
    rw [Scope.get?_rooted, Scope.get?_rooted]
    split
    · rename_i same
      rw [Option.map_some, Option.map_some, shownBinding?, shownBinding?, seen (same ▸ referred)]
    · rfl

/-- Further sources may have different numbers. -/
theorem twins_rooted (bindings : Frame) (shown : Text) {left right : Nat}
    (state : sources[left]? = others[right]?) (same : sources[id]? = others[id]?)
    (apart : left = id ∧ right = id ∨ left ≠ id ∧ right ≠ id) :
    Twins id (.rooted bindings left shown, sources) (.rooted bindings right shown, others) where
  rooted := by
    refine ⟨left, right, resembles_rooted bindings left right fun _ => rfl, state, ?_⟩
    rw [source?_rooted, source?_rooted]
    exact apart.imp_right fun ⟨first, second⟩ =>
      ⟨fun found => first (Option.some.inj found), fun found => second (Option.some.inj found)⟩
  same := same

/-- One scope is a root of its own in both, if it has no other source in sight. -/
theorem twins_scope (seen : ∀ used ∈ scope.source?, used = id)
    (same : sources[id]? = others[id]?) : Twins id (scope, sources) (scope, others) where
  rooted := by
    refine ⟨id, id, ⟨?_, fun _ _ _ => rfl⟩, same, .inl ⟨rfl, rfl⟩⟩
    cases found : scope.get? randomName with
    | none => exact .none
    | some binding =>
        cases binding with
        | value value => exact .value value value
        | source used shown =>
            rw [seen used (by rw [Scope.source?, found]; rfl)]
            exact .source shown shown
  same := same

theorem twins_rootOf (given : ∀ used ∈ source, used = id) (seen : ∀ used ∈ scope.source?, used = id)
    (known : id < sources.length) (counterpart : id < others.length)
    (shown : entropy.shown sources.length = entropy.shown others.length)
    (same : sources[id]? = others[id]?) :
    Twins id (rootOf entropy source visible scope sources)
      (rootOf entropy source visible scope others) := by
  unfold rootOf
  cases source with
  | some used =>
      obtain rfl := given used rfl
      exact twins_rooted _ _ same same (.inl ⟨rfl, rfl⟩)
  | none =>
      dsimp only
      split
      · exact twins_scope seen same
      · rw [shown]
        apply twins_rooted
        · rw [List.getElem?_append_right (Nat.le_refl _),
            List.getElem?_append_right (Nat.le_refl _), Nat.sub_self, Nat.sub_self]
        · rw [List.getElem?_append_left known, List.getElem?_append_left counterpart, same]
        · exact .inr ⟨Nat.ne_of_gt known, Nat.ne_of_gt counterpart⟩

end

section

variable (grammar : Grammar) (limit : Nat) (key : String) {root other : Scope × List Random.Source}
  {id : Nat}

theorem length_fromRoot : (fromRoot grammar limit key root).2.length = root.2.length := by
  rw [fromRoot, (follows_expand grammar limit key).outcome]
  exact Environment.keeps_evaluate grammar limit key (Environment.hides_length _) _

theorem fromRoot_other (missing : root.1.source? ≠ some id) :
    (fromRoot grammar limit key root).2[id]? = root.2[id]? := by
  rw [fromRoot, (follows_expand grammar limit key).outcome]
  exact Environment.keeps_evaluate grammar limit key (Scope.hides_of_source? missing) _

/-- From twin roots comes the same text or failure, and the source is left in the same state. -/
theorem Twins.fromRoot_eq (twins : Twins id root other) :
    (fromRoot grammar limit key root).1 = (fromRoot grammar limit key other).1 ∧
      (fromRoot grammar limit key root).2[id]? = (fromRoot grammar limit key other).2[id]? := by
  obtain ⟨left, right, resembles, state, apart⟩ := twins.rooted
  have inStep : Outcome.InStep False left right (Environment.Matched False)
      (pieces grammar limit key (.start root.1 root.2))
      (pieces grammar limit key (.start other.1 other.2)) :=
    Environment.inStep_resembling limit (fun _ _ _ _ => trivial) resembles state
  obtain ⟨text, moved⟩ := same_of_inStep inStep
  refine ⟨text, ?_⟩
  rcases apart with ⟨rfl, rfl⟩ | ⟨first, second⟩
  · exact moved
  · rw [fromRoot_other grammar limit key first, fromRoot_other grammar limit key second, twins.same]

/-- How the source of a root is shown makes no difference unless it is asked for. -/
theorem fromRoot_shown (bindings : Frame) (id : Nat) (sources : List Random.Source)
    {shown word : Text} (seen : grammar.ShowsSource key → shown = word) :
    fromRoot grammar limit key (.rooted bindings id shown, sources) =
      fromRoot grammar limit key (.rooted bindings id word, sources) := by
  let names (name : String) : Prop :=
    ∃ leaf, grammar.ReachesLeaf key leaf ∧ leaf.emission = .lookup name
  have resembles : Environment.Resembles False names id id (Scope.rooted bindings id shown).get?
      (Scope.rooted bindings id word).get? := resembles_rooted bindings id id seen
  have inStep : Outcome.InStep False id id (Environment.Matched False)
      (pieces grammar limit key (.start (.rooted bindings id shown) sources))
      (pieces grammar limit key (.start (.rooted bindings id word) sources)) :=
    Environment.inStep_resembling limit (fun leaf name reached refers => ⟨leaf, reached, refers⟩)
      resembles rfl
  obtain ⟨text, moved⟩ := same_of_inStep inStep
  refine Prod.ext text (List.ext_getElem? fun other => ?_)
  by_cases own : other = id
  · subst own
    exact moved
  · have missing (label : Text) : (Scope.rooted bindings id label).source? ≠ some other := by
      rw [source?_rooted]
      exact fun same => own (Option.some.inj same).symm
    rw [fromRoot_other grammar limit key (missing shown),
      fromRoot_other grammar limit key (missing word)]

end

end Expander

end PhraseGrammar
