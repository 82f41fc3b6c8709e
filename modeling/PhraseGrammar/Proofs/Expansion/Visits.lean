import PhraseGrammar.Proofs.Expansion.Language

/-!
# The source at every place of an expansion

While a symbol is expanded, the nodes of the rules that are drawn are come to
one after the other. The scope of such a place is the caller's, overlaid with
default bindings and with the texts of symbols. Hence nothing hides the random
source there unless a nonterminal or a default binding takes its name, and the
notation does not keep them from it.
-/

namespace PhraseGrammar

namespace Expander

theorem mem_of_choose {rules : List (List Node)} {rule : List Node} {run drawn : Run}
    (chosen : choose rules run = .ok rule drawn) : rule ∈ rules := by
  have outcome := (follows_choose rules).outcome run
  rw [chosen] at outcome
  obtain ⟨index, between, number, rest⟩ := Outcome.andThen_eq_ok outcome.symm
  cases rest
  rw [List.getD_eq_getElem _ _ (Environment.draw_lt number)]
  exact List.getElem_mem _

/-- A node of the rule that is drawn for a symbol, and the run once the nodes before it are done. -/
inductive Arrives (grammar : Grammar) (limit : Nat) (key : String) (run : Run) (node : Node)
    (reached : Run) : Prop where
  | intro {nonterminal : Nonterminal} {before rest : List Node} {text : Text} {drawn : Run}
      (declared : grammar.get? key = some nonterminal)
      (chosen : choose nonterminal.rules run = .ok (before ++ node :: rest) drawn)
      (ran : nodes grammar (expand grammar limit) nonterminal.name before
        { drawn with scope := drawn.scope.push nonterminal.defaults } = .ok text reached)

/-- The symbol itself, and all nodes that its expansion comes to at any depth. -/
inductive Visits (grammar : Grammar) : Nat → String → Run → Node → Run → Prop where
  | here (limit : Nat) (key : String) (run : Run) : Visits grammar limit key run (.symbol key) run
  | node {limit : Nat} {key : String} {run reached : Run} {node : Node}
      (arrives : Arrives grammar limit key run node reached) :
      Visits grammar (limit + 1) key run node reached
  | inside {limit : Nat} {key next : String} {run reached seen : Run} {node : Node}
      (arrives : Arrives grammar limit key run (.symbol next) reached)
      (visits : Visits grammar limit next reached node seen) :
      Visits grammar (limit + 1) key run node seen

/-- What neither default bindings nor the texts of symbols take away from a scope. -/
structure Lasting (grammar : Grammar) (holds : Scope → Prop) : Prop where
  push {key : String} {nonterminal : Nonterminal} {scope : Scope}
    (declared : grammar.get? key = some nonterminal) (held : holds scope) :
    holds (scope.push nonterminal.defaults)
  bind {key next : String} {nonterminal : Nonterminal} {rule : List Node} {scope : Scope}
    (declared : grammar.get? key = some nonterminal) (chosen : rule ∈ nonterminal.rules)
    (member : .symbol next ∈ rule) (text : Text) (held : holds scope) :
    holds (scope.bind (grammar.nameOf next) (.value (.text text)))

/-- What a step leaves true of the scope and the next step keeps, their sequence leaves true. -/
theorem scope_bind {α β : Type} {holds : Scope → Prop} {first : Expander α}
    {second : α → Expander β} {run : Run} (before : holds (after (first run)).scope)
    (further : ∀ value next, holds next.scope → holds (after (second value next)).scope) :
    holds (after ((first >>= second) run)).scope := by
  rw [run_bind]
  cases ran : first run with
  | ok value next =>
      rw [ran] at before
      exact further value next before
  | error failure next =>
      rw [ran] at before
      exact before

section

variable {grammar : Grammar} {holds : Scope → Prop} {limit : Nat} {owner : String}

/-- A node leaves the scope as it was, or binds the text of its symbol. -/
theorem scope_node {first : Node}
    (binds : ∀ key text scope, first = .symbol key → holds scope →
      holds (scope.bind (grammar.nameOf key) (.value (.text text))))
    {run : Run} (held : holds run.scope) :
    holds (after (node grammar (expand grammar limit) owner first run)).scope := by
  cases first with
  | leaf leaf =>
      have kept := (follows_emit leaf.emission).scope run
      exact kept.symm ▸ held
  | unresolved ref => exact held
  | stray text => exact held
  | symbol key =>
      have kept := (follows_expand grammar limit key).scope run
      apply scope_bind
      · exact kept.symm ▸ held
      · exact fun text next still => binds key text next.scope rfl still

theorem scope_nodes {rule : List Node}
    (binds : ∀ key text scope, .symbol key ∈ rule → holds scope →
      holds (scope.bind (grammar.nameOf key) (.value (.text text))))
    {run : Run} (held : holds run.scope) :
    holds (after (nodes grammar (expand grammar limit) owner rule run)).scope := by
  induction rule generalizing run with
  | nil => exact held
  | cons first rest ih =>
      apply scope_bind
      · exact scope_node
          (fun key text scope same => binds key text scope (same ▸ List.mem_cons_self)) held
      · intro text next still
        apply scope_bind
        · exact ih (fun key text scope member => binds key text scope (.tail _ member)) still
        · exact fun others last ended => ended

theorem Arrives.lasting (lasting : Lasting grammar holds) {key : String} {run reached : Run}
    {node : Node} (arrives : Arrives grammar limit key run node reached) (held : holds run.scope) :
    holds reached.scope := by
  obtain @⟨nonterminal, before, rest, text, drawn, declared, chosen, ran⟩ := arrives
  have same := (follows_choose nonterminal.rules).scope run
  rw [chosen] at same
  have known := mem_of_choose chosen
  have pushed : holds (drawn.scope.push nonterminal.defaults) :=
    lasting.push declared (same.symm ▸ held)
  have stays : holds (after (nodes grammar (expand grammar limit) nonterminal.name before
      { drawn with scope := drawn.scope.push nonterminal.defaults })).scope :=
    scope_nodes (fun next text scope member =>
      lasting.bind declared known (List.mem_append_left _ member) text) pushed
  rw [ran] at stays
  exact stays

/-- What lasts from scope to scope holds at every place of an expansion. -/
theorem Visits.lasting (lasting : Lasting grammar holds) {key : String} {run seen : Run}
    {node : Node} (visits : Visits grammar limit key run node seen) (held : holds run.scope) :
    holds seen.scope := by
  induction visits with
  | here limit key run => exact held
  | node arrives => exact arrives.lasting lasting held
  | inside arrives visits ih => exact ih (arrives.lasting lasting held)

end

/-- The source is in sight, or a plain value hides it. -/
def SeesOrHides (id : Nat) (shown : Text) (scope : Scope) : Prop :=
  scope.get? randomName = some (.source id shown) ∨
    ∃ value, scope.get? randomName = some (.value value)

theorem lasting_seesOrHides (grammar : Grammar) (id : Nat) (shown : Text) :
    Lasting grammar (SeesOrHides id shown) where
  push := by
    intro key nonterminal scope declared held
    rw [SeesOrHides, Scope.get?_push]
    cases nonterminal.defaults.get? randomName with
    | none => exact held
    | some value => exact .inr ⟨value, rfl⟩
  bind := by
    intro key next nonterminal rule scope declared chosen member text held
    rw [SeesOrHides, Scope.get?_bind]
    split
    · exact .inr ⟨.text text, rfl⟩
    · exact held

theorem lasting_source {grammar : Grammar} (ready : grammar.Ready) (spares : grammar.SparesSource)
    (id : Nat) (shown : Text) :
    Lasting grammar fun scope => scope.get? randomName = some (.source id shown) where
  push := by
    intro key nonterminal scope declared held
    have spared := spares.2 _ (Table.mem_entries_of_get? declared)
    rw [Scope.get?_push_eq, Environment.override_of_spared spared, held]
  bind := by
    intro key next nonterminal rule scope declared chosen member text held
    cases (ready key nonterminal declared).nodes chosen member with
    | symbol known =>
        rw [Scope.get?_bind, if_neg (Grammar.nameOf_ne ready spares known).symm, held]

/--
An expansion draws from one source. At every place that it comes to, a choice or
a range draws from the source that the caller sees or fails as a plain value
hides it; and if no nonterminal and no default binding of the accepted grammar
takes the name of the source, the name stands for that source at every place.
-/
theorem visits_source {text : String} {grammar : Grammar}
    (accepted : (Grammar.parse Registry.default text).1 = .ok grammar) {run : Run} {id : Nat}
    {shown : Text} (sees : run.scope.get? randomName = some (.source id shown)) {limit : Nat} {key : String}
    {node : Node} {seen : Run} (visits : Visits grammar limit key run node seen) :
    (sourceId seen = .ok id seen ∨ sourceId seen = .error .notSource seen) ∧
      (grammar.SparesSource → seen.scope.get? randomName = some (.source id shown)) := by
  constructor
  · rw [run_sourceId]
    rcases visits.lasting (lasting_seesOrHides grammar id shown) (.inl sees) with source | ⟨value, hidden⟩
    · rw [source]
      exact .inl rfl
    · rw [hidden]
      exact .inr rfl
  · intro spares
    exact visits.lasting (lasting_source (Grammar.ready_of_parse accepted) spares id shown) sees

def shadowingText : String :=
  "S : B C $B . B : $B \"!\" . C : $B . Context. C : B = \"default\" ."

theorem visits_source_shadowing :
    (Grammar.parse Registry.default shadowingText).1 = .ok shadowing ∧ shadowing.SparesSource ∧
      ∃ seen, Visits shadowing 2 "S" oneFrame (.leaf ⟨"Reference", "B", .lookup "B"⟩) seen ∧
        seen.scope.get? "B" = some (.value (.text "default")) ∧
          seen.scope.get? randomName = some (.source 0 "source") :=
  have accepted : (Grammar.parse Registry.default shadowingText).1 = .ok shadowing := by
    decide +kernel
  have spares : shadowing.SparesSource := by decide
  have sibling : Arrives shadowing 1 "S" oneFrame (.symbol "C") _ :=
    .intro rfl (show choose _ _ = .ok ([.symbol "B"] ++ .symbol "C" :: [.leaf _]) _ from rfl) rfl
  have inner : Arrives shadowing 0 "C" _ (.leaf ⟨"Reference", "B", .lookup "B"⟩) _ :=
    .intro rfl (show choose _ _ = .ok ([] ++ .leaf _ :: []) _ from rfl) rfl
  have visits := Visits.inside sibling (.node inner)
  ⟨accepted, spares, _, visits, rfl, (visits_source accepted rfl visits).2 spares⟩

/-- A nonterminal takes the name of the source, and a sibling is expanded after it. -/
def usurping : Grammar where
  table := ⟨[
    ("S", ⟨"S", [[.symbol "_random", .symbol "T"]], .empty, none⟩),
    ("_random", ⟨"_random", [[.leaf (.constant "String" "x")]], .empty, none⟩),
    ("T", ⟨"T", [[.leaf (.constant "String" "a")]], .empty, none⟩)], by decide⟩
  start := some "S"

def usurpingText : String :=
  "S : _random T . _random : \"x\" . T : \"a\" ."

/-- The notation allows the name: the sibling sees a text in place of the source and fails. -/
theorem hidden_source :
    (Grammar.parse Registry.default usurpingText).1 = .ok usurping ∧
      (∃ seen, Visits usurping 2 "S" (.fresh .empty (.script []) "source") (.symbol "T") seen ∧
        seen.scope.get? randomName = some (.value (.text "x"))) ∧
        ∃ after, expand usurping 2 "S" (.fresh .empty (.script []) "source") = .error .notSource after :=
  have accepted : (Grammar.parse Registry.default usurpingText).1 = .ok usurping := by
    decide +kernel
  have sibling : Arrives usurping 1 "S" (.fresh .empty (.script []) "source") (.symbol "T") _ :=
    .intro rfl (show choose _ _ = .ok ([.symbol "_random"] ++ .symbol "T" :: []) _ from rfl) rfl
  ⟨accepted, ⟨_, .node sibling, rfl⟩, _, rfl⟩

end Expander

end PhraseGrammar
