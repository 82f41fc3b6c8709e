import Mathlib.Data.List.GetD
import PhraseGrammar.Proofs.Expansion.Fresh
import PhraseGrammar.Proofs.Expansion.Simulation

/-!
# Safe expansion

An accepted grammar in which nothing takes the name of the random source can
fail in three ways only: a leaf refers to an unbound name, a range is empty, or
the expansions are nested too deep. The first two need a leaf of that kind in a
rule that the symbol reaches.
-/

namespace PhraseGrammar

/-- A value that has a text: only an integer may be too long for one. -/
def Value.Writable (value : Value) : Prop :=
  value.plain?.isSome = true

instance (value : Value) : Decidable value.Writable :=
  inferInstanceAs (Decidable (_ = true))

namespace Grammar

/-- All default bindings have texts. -/
def WritableDefaults (grammar : Grammar) : Prop :=
  ∀ entry ∈ grammar.table.entries, ∀ binding ∈ entry.2.defaults.entries, binding.2.Writable

instance (grammar : Grammar) : Decidable grammar.WritableDefaults :=
  inferInstanceAs (Decidable (∀ entry ∈ grammar.table.entries, _))

/-- The symbols that an expansion of a symbol may come to. -/
inductive Reaches (grammar : Grammar) (start : String) : String → Prop where
  | refl : Reaches grammar start start
  | step {key next : String} {nonterminal : Nonterminal} {rule : List Node}
      (reached : Reaches grammar start key) (declared : grammar.get? key = some nonterminal)
      (chosen : rule ∈ nonterminal.rules) (member : .symbol next ∈ rule) :
      Reaches grammar start next

/-- The leaf stands in a rule that the symbol reaches. -/
def ReachesLeaf (grammar : Grammar) (start : String) (leaf : Leaf) : Prop :=
  ∃ key nonterminal rule, grammar.Reaches start key ∧ grammar.get? key = some nonterminal ∧
    rule ∈ nonterminal.rules ∧ .leaf leaf ∈ rule

theorem Reaches.trans {grammar : Grammar} {first middle last : String}
    (left : grammar.Reaches first middle) (right : grammar.Reaches middle last) :
    grammar.Reaches first last := by
  induction right with
  | refl => exact left
  | step _ declared chosen member ih => exact .step ih declared chosen member

theorem ReachesLeaf.before {grammar : Grammar} {first second : String} {leaf : Leaf}
    (reaches : grammar.Reaches first second) (reached : grammar.ReachesLeaf second leaf) :
    grammar.ReachesLeaf first leaf := by
  obtain ⟨key, nonterminal, rule, path, found⟩ := reached
  exact ⟨key, nonterminal, rule, reaches.trans path, found⟩

end Grammar

/-- How an expansion of a symbol may fail; a leaf that it reaches is to blame unless it is too deep. -/
inductive RunFailure.Expected (grammar : Grammar) (start : String) : RunFailure → Prop where
  | tooDeep : Expected grammar start .tooDeep
  | unbound {leaf : Leaf} {name : String} (reached : grammar.ReachesLeaf start leaf)
      (refers : leaf.emission = .lookup name) :
      Expected grammar start (.bare (.unboundReference name))
  | empty {leaf : Leaf} {arguments : List Int} {lo hi : Int}
      (reached : grammar.ReachesLeaf start leaf) (draws : leaf.emission = .draw arguments)
      (ends : interval? arguments = some (lo, hi)) (nothing : hi ≤ lo) :
      Expected grammar start (.bare (.rangeEmpty lo hi))

theorem RunFailure.Expected.before {grammar : Grammar} {first second : String}
    {failure : RunFailure} (reaches : grammar.Reaches first second)
    (expected : failure.Expected grammar second) : failure.Expected grammar first := by
  cases expected with
  | tooDeep => exact .tooDeep
  | unbound reached refers => exact .unbound (reached.before reaches) refers
  | empty reached draws ends nothing => exact .empty (reached.before reaches) draws ends nothing

/-- An outcome that keeps the number of sources and fails in allowed ways only. -/
structure Outcome.Ends {α : Type} (allowed : RunFailure → Prop) (count : Nat)
    (outcome : Outcome α) : Prop where
  sources : outcome.2.length = count
  failure {failure : RunFailure} (failed : outcome.1 = .error failure) : allowed failure

namespace Outcome.Ends

variable {α β : Type} {allowed : RunFailure → Prop} {count : Nat}

theorem ok {value : α} {sources : List Random.Source} (same : sources.length = count) :
    Ends allowed count ((.ok value, sources) : Outcome α) :=
  ⟨same, fun failed => nomatch failed⟩

theorem error {failure : RunFailure} {sources : List Random.Source}
    (same : sources.length = count) (expected : allowed failure) :
    Ends allowed count ((.error failure, sources) : Outcome α) :=
  ⟨same, fun failed => by cases failed; exact expected⟩

theorem andThen {first : Outcome α} {second : α → List Random.Source → Outcome β}
    (ends : Ends allowed count first)
    (further : ∀ value sources, first = (.ok value, sources) → sources.length = count →
      Ends allowed count (second value sources)) :
    Ends allowed count (first.andThen second) := by
  obtain ⟨result, sources⟩ := first
  cases result with
  | error failure => exact error ends.sources (ends.failure rfl)
  | ok value => exact further value sources rfl ends.sources

theorem weaken {other : RunFailure → Prop} {outcome : Outcome α}
    (ends : Ends allowed count outcome) (implies : ∀ failure, allowed failure → other failure) :
    Ends other count outcome :=
  ⟨ends.sources, fun failed => implies _ (ends.failure failed)⟩

end Outcome.Ends

/-- An environment that holds one of the sources, and otherwise bindings that have texts. -/
structure Environment.Safe (count : Nat) (environment : Environment) : Prop where
  source : ∃ id shown, environment randomName = some (.source id shown) ∧ id < count
  shown {name : String} {binding : Binding} (bound : environment name = some binding) :
    (Expander.shownBinding? binding).isSome = true

namespace Environment.Safe

variable {count : Nat} {environment : Environment}

theorem set (safe : environment.Safe count) {name : String} (other : name ≠ randomName)
    (text : Text) : (environment.set name (.value (.text text))).Safe count where
  source := by
    obtain ⟨id, shown, held, known⟩ := safe.source
    exact ⟨id, shown, (set_of_ne (Ne.symm other) _).trans held, known⟩
  shown := by
    intro asked binding bound
    unfold Environment.set at bound
    split at bound
    · cases bound
      rfl
    · exact safe.shown bound

theorem override (safe : environment.Safe count) {defaults : Table Value}
    (spares : defaults.contains randomName = false)
    (writable : ∀ binding ∈ defaults.entries, binding.2.Writable) :
    (environment.override defaults).Safe count where
  source := by
    obtain ⟨id, shown, held, known⟩ := safe.source
    exact ⟨id, shown, (override_of_spared spares).trans held, known⟩
  shown := by
    intro name binding bound
    unfold Environment.override at bound
    cases default : defaults.get? name with
    | none =>
        rw [default] at bound
        exact safe.shown bound
    | some value =>
        rw [default] at bound
        cases bound
        exact writable _ (Table.mem_entries_of_get? default)

end Environment.Safe

namespace Environment

variable {allowed : RunFailure → Prop} {environment : Environment}
  {sources : List Random.Source}

/-- A positive draw always gives a number below its bound. -/
theorem Safe.draw_eq (safe : environment.Safe sources.length) {bound : Nat}
    (positive : 0 < bound) :
    ∃ value after, environment.draw bound sources = (.ok value, after) ∧ value < bound ∧
      after.length = sources.length := by
  obtain ⟨id, shown, held, known⟩ := safe.source
  have found : sources[id]? = some sources[id] := List.getElem?_eq_getElem known
  refine ⟨(sources[id].draw bound).1, sources.set id (sources[id].draw bound).2, ?_,
    Random.Source.draw_lt positive _, List.length_set⟩
  simp only [draw, held, Nat.ne_of_gt positive, if_false, found]

theorem ends_write {text? : Option Text} (written : text?.isSome = true) {count : Nat}
    (same : sources.length = count) : (write text? sources).Ends allowed count := by
  obtain ⟨text, rfl⟩ := Option.isSome_iff_exists.mp written
  exact .ok same

theorem ends_lookup (safe : environment.Safe sources.length) (name : String)
    (unbound : allowed (.bare (.unboundReference name))) :
    (environment.lookup name sources).Ends allowed sources.length := by
  unfold lookup
  cases bound : environment name with
  | none => exact .error rfl unbound
  | some binding => exact ends_write (safe.shown bound) rfl

theorem ends_drawBetween (safe : environment.Safe sources.length) {lo hi : Int}
    (left : (Numeral.decimal? lo).isSome = true) (right : (Numeral.decimal? hi).isSome = true)
    (empty : hi ≤ lo → allowed (.bare (.rangeEmpty lo hi))) :
    (environment.drawBetween lo hi sources).Ends allowed sources.length := by
  unfold drawBetween
  by_cases nothing : hi ≤ lo
  · rw [if_pos nothing, if_pos ⟨left, right⟩]
    exact .error rfl (empty nothing)
  · have positive : 0 < (hi - lo).toNat := by omega
    obtain ⟨offset, after, drawn, below, same⟩ := safe.draw_eq positive
    rw [if_neg nothing, drawn]
    refine ends_write ?_ same
    rw [Numeral.isSome_text?]
    exact Numeral.isSome_decimal?_of_between left right (by omega) (by omega)

end Environment

theorem Environment.ends_emit {environment : Environment} {sources : List Random.Source}
    (safe : environment.Safe sources.length) {grammar : Grammar} {start : String} {leaf : Leaf}
    (standard : leaf.Standard) (reached : grammar.ReachesLeaf start leaf) :
    (environment.emit leaf.emission sources).Ends (RunFailure.Expected grammar start)
      sources.length := by
  cases standard with
  | constant name value => exact .ok rfl
  | reference name => exact ends_lookup safe name (.unbound reached rfl)
  | range written count =>
      obtain ⟨lo, hi, ends, left, right⟩ := interval?_of_joinDecimals? written count
      simp only [emit, ends]
      exact ends_drawBetween safe left right fun nothing => .empty reached rfl ends nothing

section

variable {grammar : Grammar} {start owner : String}
  {symbol : String → Environment → List Random.Source → Outcome Text}

/-- The nodes of a rule, if its leaves are reached and its symbols evaluated safely. -/
theorem Environment.ends_nodes {rule : List Node}
    (settled : ∀ node ∈ rule, node.Settled grammar)
    (leaves : ∀ leaf, .leaf leaf ∈ rule → grammar.ReachesLeaf start leaf)
    (symbols : ∀ key, .symbol key ∈ rule → grammar.nameOf key ≠ randomName ∧
      ∀ (environment : Environment) (sources : List Random.Source),
        environment.Safe sources.length →
          (symbol key environment sources).Ends (RunFailure.Expected grammar start) sources.length)
    {environment : Environment} {sources : List Random.Source}
    (safe : environment.Safe sources.length) :
    (Environment.nodes grammar symbol owner rule environment sources).Ends
      (RunFailure.Expected grammar start) sources.length := by
  induction rule generalizing environment sources with
  | nil => exact .ok rfl
  | cons first rest ih =>
      have others := @ih (fun node member => settled node (.tail _ member))
        (fun leaf member => leaves leaf (.tail _ member))
        (fun key member => symbols key (.tail _ member))
      cases settled first List.mem_cons_self with
      | leaf standard =>
          refine (ends_emit safe standard (leaves _ List.mem_cons_self)).andThen ?_
          intro text after _ same
          rw [← same] at safe ⊢
          exact (others safe).andThen fun value last _ kept => .ok kept
      | symbol declared =>
          obtain ⟨spared, expands⟩ := symbols _ List.mem_cons_self
          refine (expands environment sources safe).andThen ?_
          intro text after _ same
          rw [← same] at safe ⊢
          exact (others (safe.set spared text)).andThen fun value last _ kept => .ok kept

end

/-- An accepted grammar that leaves the source alone and binds nothing too long to be written. -/
structure Grammar.Sparing (grammar : Grammar) : Prop where
  ready : grammar.Ready
  spares : grammar.SparesSource
  writable : grammar.WritableDefaults

/-- Evaluation in a safe environment fails in the expected ways only, by induction on the limit. -/
theorem Environment.ends_evaluate {grammar : Grammar} (sparing : grammar.Sparing) (limit : Nat)
    {key : String} (declared : grammar.contains key = true) {environment : Environment}
    {sources : List Random.Source} (safe : environment.Safe sources.length) :
    (evaluate grammar limit key environment sources).Ends (RunFailure.Expected grammar key)
      sources.length := by
  induction limit generalizing key environment sources with
  | zero => exact .error rfl .tooDeep
  | succ limit ih =>
      obtain ⟨nonterminal, found⟩ := Option.isSome_iff_exists.mp declared
      have formed := sparing.ready key nonterminal found
      have entry := Table.mem_entries_of_get? found
      have positive : 0 < nonterminal.rules.length := List.length_pos_of_ne_nil formed.rules_ne
      obtain ⟨index, after, drawn, below, same⟩ := safe.draw_eq positive
      have chosen : nonterminal.rules.getD index [] ∈ nonterminal.rules := by
        rw [List.getD_eq_getElem _ _ below]
        exact List.getElem_mem below
      have inside : (environment.override nonterminal.defaults).Safe after.length := by
        rw [same]
        exact safe.override (sparing.spares.2 _ entry) (sparing.writable _ entry)
      simp only [evaluate, show grammar.get? key = some nonterminal from found, drawn,
        Outcome.andThen]
      rw [← same]
      refine ends_nodes (fun node member => formed.nodes chosen member) ?_ ?_ inside
      · intro leaf member
        exact ⟨key, nonterminal, _, .refl, found, chosen, member⟩
      · intro next member
        cases formed.nodes chosen member with
        | symbol known =>
            refine ⟨Grammar.nameOf_ne sparing.ready sparing.spares known, fun environment sources safe => ?_⟩
            exact (ih known safe).weaken fun failure =>
              .before (.step .refl found chosen member)

/-! ## New contexts -/

theorem Run.safe_fresh {bindings : Frame}
    (shown : ∀ name value, bindings.get? name = some (.value value) → value.Writable)
    (source : Random.Source) (label : Text) :
    Environment.Safe (fresh bindings source label).sources.length
      (fresh bindings source label).scope.get? where
  source := ⟨0, label, by rw [get?_fresh, if_pos rfl], Nat.zero_lt_one⟩
  shown := by
    intro name binding bound
    rw [get?_fresh] at bound
    split at bound
    · cases bound
      rfl
    · cases binding with
      | source id shown => rfl
      | value value => exact shown name value bound

namespace Expander

theorem expected_of_expand {grammar : Grammar} (sparing : grammar.Sparing) {key : String}
    (declared : grammar.contains key = true) {run : Run}
    (safe : Environment.Safe run.sources.length run.scope.get?) {limit : Nat}
    {failure : RunFailure} {after : Run}
    (failed : expand grammar limit key run = .error failure after) :
    failure.Expected grammar key := by
  have outcome := (follows_expand grammar limit key).outcome run
  rw [failed] at outcome
  exact (Environment.ends_evaluate sparing limit declared safe).failure
    (congrArg Prod.fst outcome.symm)

/--
Accepted grammars do not go wrong. From a new context an expansion gives a text
unless it is nested too deep, refers to an unbound name or meets an empty range;
if the symbol reaches no leaf of the latter two kinds, it can only be too deep.
-/
theorem expand_safe {text : String} {grammar : Grammar}
    (accepted : (Grammar.parse Registry.default text).1 = .ok grammar)
    (spares : grammar.SparesSource) (writable : grammar.WritableDefaults) {key : String}
    (declared : grammar.contains key = true) {bindings : Frame}
    (shown : ∀ name value, bindings.get? name = some (.value value) → value.Writable)
    (source : Random.Source) (label : Text) (limit : Nat) :
    (∀ failure after,
      expand grammar limit key (.fresh bindings source label) = .error failure after →
      failure = .tooDeep ∨ (∃ name, failure = .bare (.unboundReference name)) ∨
        ∃ lo hi, hi ≤ lo ∧ failure = .bare (.rangeEmpty lo hi)) ∧
      ((∀ leaf, grammar.ReachesLeaf key leaf → (∀ name, leaf.emission ≠ .lookup name) ∧
          ∀ arguments lo hi, leaf.emission = .draw arguments →
            interval? arguments = some (lo, hi) → lo < hi) →
        ∀ failure after,
          expand grammar limit key (.fresh bindings source label) = .error failure after →
            failure = .tooDeep) := by
  have expected {failure : RunFailure} {after : Run}
      (failed : expand grammar limit key (.fresh bindings source label) = .error failure after) :
      failure.Expected grammar key :=
    expected_of_expand ⟨Grammar.ready_of_parse accepted, spares, writable⟩ declared
      (Run.safe_fresh shown source label) failed
  constructor
  · intro failure after failed
    cases expected failed with
    | tooDeep => exact .inl rfl
    | unbound reached refers => exact .inr (.inl ⟨_, rfl⟩)
    | empty reached draws ends nothing => exact .inr (.inr ⟨_, _, nothing, rfl⟩)
  · intro harmless failure after failed
    cases expected failed with
    | tooDeep => rfl
    | unbound reached refers => exact absurd refers ((harmless _ reached).1 _)
    | empty reached draws ends nothing =>
        have positive := (harmless _ reached).2 _ _ _ draws ends
        omega

/-- A grammar that may be expanded for ever. -/
def nested : Grammar where
  table := ⟨[
    ("S", ⟨"S", [[.leaf ⟨"range", "-1, 3", .draw [-1, 3]⟩, .symbol "T"]],
      Table.empty.set "who" (.text "x"), none⟩),
    ("T", ⟨"T", [[.symbol "S"], [.leaf (.constant "NL" "\n")], []], .empty, some 7⟩)], by decide⟩
  start := some "S"

def nestedText : String :=
  "S : range(-1, 0x3) T . T#7 : S ; | NL ; | . Context. S : who = \"x\" ."

theorem parse_nestedText : (Grammar.parse Registry.default nestedText).1 = .ok nested := by
  decide +kernel

theorem harmless_nested (leaf : Leaf) (reached : nested.ReachesLeaf "S" leaf) :
    (∀ name, leaf.emission ≠ .lookup name) ∧
      ∀ arguments lo hi, leaf.emission = .draw arguments →
        interval? arguments = some (lo, hi) → lo < hi := by
  obtain ⟨key, nonterminal, rule, _, declared, chosen, member⟩ := reached
  have entry := Table.mem_entries_of_get? declared
  simp only [nested, List.mem_cons, List.not_mem_nil, or_false, Prod.mk.injEq] at entry
  rcases entry with ⟨_, rfl⟩ | ⟨_, rfl⟩
  · simp only [List.mem_singleton] at chosen
    subst chosen
    simp only [List.mem_cons, List.not_mem_nil, or_false, Node.leaf.injEq, reduceCtorEq] at member
    subst member
    refine ⟨fun name refers => ?_, fun arguments lo hi draws ends => ?_⟩
    · cases refers
    · cases draws
      cases ends
      decide
  · simp only [List.mem_cons, List.not_mem_nil, or_false] at chosen
    rcases chosen with rfl | rfl | rfl
    · simp at member
    · simp only [List.mem_singleton, Node.leaf.injEq] at member
      subst member
      refine ⟨fun name refers => ?_, fun arguments lo hi draws => ?_⟩
      · cases refers
      · cases draws
    · simp at member

/-- A caller's binding of its own. -/
def callers : Frame :=
  Table.empty.set "n" (.value (.integer 5))

theorem writable_callers (name : String) (value : Value)
    (bound : callers.get? name = some (.value value)) : value.Writable := by
  rw [callers, Table.get?_set] at bound
  split at bound
  · cases bound
    decide +kernel
  · cases bound

theorem expand_safe_nested :
    (Grammar.parse Registry.default nestedText).1 = .ok nested ∧ nested.SparesSource ∧
      nested.WritableDefaults ∧ nested.contains "S" = true ∧
        ∀ source label limit failure after,
          expand nested limit "S" (.fresh callers source label) = .error failure after →
            failure = .tooDeep :=
  have spares : nested.SparesSource := by decide
  have writable : nested.WritableDefaults := by decide +kernel
  ⟨parse_nestedText, spares, writable, rfl, fun source label limit =>
    (expand_safe parse_nestedText spares writable rfl writable_callers source label limit).2
      harmless_nested⟩

end Expander

end PhraseGrammar
