import PhraseGrammar.Proofs.Expansion.Batches
import PhraseGrammar.Proofs.Rules.Contents

/-!
# What an expansion depends on

The texts and failures of a symbol are decided by the nonterminals that it
reaches: by their rules, as far as the nodes show them, and by their default
bindings, in whatever order these stand. Neither the other definitions nor
their order, neither depth hints nor the start have any influence.
-/

namespace PhraseGrammar

/-- The same rules, nodes being compared by what they show, and the same default bindings. -/
structure Nonterminal.Alike (left right : Nonterminal) : Prop where
  rules : List.Forall₂ (List.Forall₂ fun node other => node.same other = true)
    left.rules right.rules
  defaults (name : String) : left.defaults.get? name = right.defaults.get? name

/-- Whatever a symbol reaches is declared in the other grammar too, and alike. -/
def Grammar.AgreesFrom (first second : Grammar) (symbol : String) : Prop :=
  ∀ key, first.Reaches symbol key → ∃ nonterminal other,
    first.get? key = some nonterminal ∧ second.get? key = some other ∧ nonterminal.Alike other

/-- Lists related part by part are equal if related parts are. -/
theorem eq_of_forall₂ {α : Type} {related : α → α → Prop} {left right : List α}
    (each : List.Forall₂ related left right)
    (equal : ∀ part ∈ left, ∀ other ∈ right, related part other → part = other) : left = right := by
  induction each with
  | nil => rfl
  | @cons part other rest others first further ih =>
      rw [equal part (.head _) other (.head _) first]
      rw [ih fun part member other among => equal part (.tail _ member) other (.tail _ among)]

/-- The leaves in the rules of a nonterminal are legible. -/
def Nonterminal.Legible (nonterminal : Nonterminal) : Prop :=
  ∀ rule ∈ nonterminal.rules, ∀ leaf, .leaf leaf ∈ rule → leaf.Legible

theorem Node.eq_of_same {left right : Node} (same : left.same right = true)
    (first : ∀ leaf, left = .leaf leaf → leaf.Legible)
    (second : ∀ leaf, right = .leaf leaf → leaf.Legible) : left = right := by
  cases left with
  | leaf leaf =>
      cases right with
      | leaf other => rw [(first leaf rfl).eq_of_same (second other rfl) same]
      | symbol key => cases same
      | unresolved ref => cases same
      | stray text => cases same
  | symbol key =>
      cases right with
      | symbol other => rw [of_decide_eq_true same]
      | leaf leaf => cases same
      | unresolved ref => cases same
      | stray text => cases same
  | unresolved ref =>
      cases right with
      | unresolved other => rw [of_decide_eq_true same]
      | leaf leaf => cases same
      | symbol key => cases same
      | stray text => cases same
  | stray text =>
      cases right with
      | stray other => rw [of_decide_eq_true same]
      | leaf leaf => cases same
      | symbol key => cases same
      | unresolved ref => cases same

theorem Nonterminal.Alike.rules_eq {left right : Nonterminal} (alike : left.Alike right)
    (first : left.Legible) (second : right.Legible) : left.rules = right.rules := by
  apply eq_of_forall₂ alike.rules
  intro rule chosen other among each
  apply eq_of_forall₂ each
  intro node member counterpart inside same
  apply Node.eq_of_same same
  · rintro leaf rfl
    exact first rule chosen leaf member
  · rintro leaf rfl
    exact second other among leaf inside

namespace Environment

theorem override_congr {left right : Table Value}
    (same : ∀ name, left.get? name = right.get? name) (environment : Environment) :
    environment.override left = environment.override right := by
  funext name
  rw [override, override, same]

/-- The nodes of a rule look at a grammar through its symbols only. -/
theorem nodes_congr {first second : Grammar}
    {symbol other : String → Environment → List Random.Source → Outcome Text} {owner : String}
    {rule : List Node} (named : ∀ key, .symbol key ∈ rule → first.nameOf key = second.nameOf key)
    (same : ∀ key, .symbol key ∈ rule → symbol key = other key) :
    nodes first symbol owner rule = nodes second other owner rule := by
  induction rule with
  | nil => rfl
  | cons node rest ih =>
      have further := ih (fun key member => named key (.tail _ member))
        fun key member => same key (.tail _ member)
      funext environment sources
      cases node with
      | leaf leaf => rw [nodes, nodes, further]
      | symbol key => rw [nodes, nodes, further, named key (.head _), same key (.head _)]
      | unresolved ref => rfl
      | stray text => rfl

end Environment

namespace Grammar

variable {first second : Grammar} {symbol : String}

/-- What agreement amounts to between accepted grammars. -/
theorem AgreesFrom.declared {firstText secondText : String}
    (accepted : (parse Registry.default firstText).1 = .ok first)
    (other : (parse Registry.default secondText).1 = .ok second)
    (agrees : first.AgreesFrom second symbol) {key : String} (reached : first.Reaches symbol key) :
    ∃ nonterminal counterpart, first.get? key = some nonterminal ∧
      second.get? key = some counterpart ∧ nonterminal.rules = counterpart.rules ∧
      nonterminal.name = key ∧ counterpart.name = key ∧
      ∀ name, nonterminal.defaults.get? name = counterpart.defaults.get? name := by
  obtain ⟨nonterminal, counterpart, here, there, alike⟩ := agrees key reached
  refine ⟨nonterminal, counterpart, here, there, ?_, ?_, ?_, alike.defaults⟩
  · apply alike.rules_eq
    · exact fun rule chosen leaf member => legible_of_parse accepted here chosen member
    · exact fun rule chosen leaf member => legible_of_parse other there chosen member
  · exact (ready_of_parse accepted key nonterminal here).name_eq
  · exact (ready_of_parse other key counterpart there).name_eq

/-- Reached symbols are evaluated alike, by induction on the limit. -/
theorem AgreesFrom.evaluate_eq {firstText secondText : String}
    (accepted : (parse Registry.default firstText).1 = .ok first)
    (other : (parse Registry.default secondText).1 = .ok second)
    (agrees : first.AgreesFrom second symbol) (limit : Nat) {key : String}
    (reached : first.Reaches symbol key) :
    Environment.evaluate first limit key = Environment.evaluate second limit key := by
  induction limit generalizing key with
  | zero => rfl
  | succ limit ih =>
      obtain ⟨nonterminal, counterpart, here, there, rules, own, same, defaults⟩ :=
        agrees.declared accepted other reached
      funext environment sources
      rw [Environment.evaluate, Environment.evaluate, here, there]
      simp only
      rw [rules, own, same, Environment.override_congr defaults]
      congr 1
      funext index after
      have next {inner : String} (member : .symbol inner ∈ counterpart.rules.getD index []) :
          first.Reaches symbol inner := by
        rw [← rules] at member
        exact .step reached here (Environment.mem_rules_of_getD member) member
      rw [Environment.nodes_congr]
      · intro inner member
        obtain ⟨_, _, found, known, _, named, called, _⟩ :=
          agrees.declared accepted other (next member)
        rw [nameOf, nameOf, found, known]
        exact named.trans called.symm
      · exact fun inner member => ih (next member)

end Grammar

/-! ## Runs -/

namespace Expander

/-- A run goes on with the sources that an outcome leaves. -/
def resume {α : Type} (run : Run) : Outcome α → EStateM.Result RunFailure Run α
  | (.ok value, sources) => .ok value { run with sources }
  | (.error failure, sources) => .error failure { run with sources }

/-- Nothing of a run but its sources is touched, and these as the evaluation does it. -/
theorem expand_eq_resume {grammar : Grammar} (plain : grammar.Unobserving) (limit : Nat)
    (key : String) (run : Run) : expand grammar limit key run =
      resume run (Environment.evaluate grammar limit key run.scope.get? run.sources) := by
  have follows := follows_expand grammar limit key
  have recorded := records_expand plain limit key run
  have kept := follows.scope run
  rw [← follows.outcome run]
  cases ran : expand grammar limit key run with
  | ok text next =>
      rw [ran] at recorded kept
      obtain ⟨scope, sources, observed, log⟩ := next
      obtain ⟨rfl, rfl⟩ := Prod.mk.inj recorded
      cases kept
      rfl
  | error failure next =>
      rw [ran] at recorded kept
      obtain ⟨scope, sources, observed, log⟩ := next
      obtain ⟨rfl, rfl⟩ := Prod.mk.inj recorded
      cases kept
      rfl

end Expander

namespace Grammar

open Expander

/-- The leaves of an accepted grammar do not record the bindings in sight. -/
theorem unobserving_of_parse {text : String} {grammar : Grammar}
    (accepted : (parse Registry.default text).1 = .ok grammar) : grammar.Unobserving := by
  intro entry member rule chosen node inside
  cases node with
  | symbol key => rfl
  | unresolved ref => rfl
  | stray text => rfl
  | leaf leaf =>
      have declared : grammar.get? entry.1 = some entry.2 := Table.get?_of_mem_entries member
      cases legible_of_parse accepted declared chosen inside with
      | constant value plain fixed => rfl
      | reference name => rfl
      | range written count => rfl

section

variable {firstText secondText : String} {first second : Grammar}
  (accepted : (parse Registry.default firstText).1 = .ok first)
  (other : (parse Registry.default secondText).1 = .ok second)
  {symbol : String} (agrees : first.AgreesFrom second symbol)

include accepted other agrees

theorem AgreesFrom.expand_eq (limit : Nat) :
    expand first limit symbol = expand second limit symbol := by
  funext run
  rw [expand_eq_resume (unobserving_of_parse accepted),
    expand_eq_resume (unobserving_of_parse other), agrees.evaluate_eq accepted other limit .refl]

omit other in
/-- The symbol is declared, so that its name is not empty and it is chosen. -/
theorem AgreesFrom.ne_empty : symbol ≠ "" := by
  obtain ⟨nonterminal, _, here, _⟩ := agrees symbol .refl
  exact ne_empty_of_parse accepted (Option.isSome_iff_exists.mpr ⟨_, here⟩)

theorem AgreesFrom.generate_eq (limit : Nat) (entropy : Random.Entropy) (source : Option Nat)
    (visible : Bool) : generate first limit entropy (some symbol) source visible =
      generate second limit entropy (some symbol) source visible := by
  obtain ⟨nonterminal, counterpart, here, there, _⟩ := agrees symbol .refl
  have declared : first.contains symbol = true := Option.isSome_iff_exists.mpr ⟨_, here⟩
  have known : second.contains symbol = true := Option.isSome_iff_exists.mpr ⟨_, there⟩
  have named := agrees.ne_empty accepted
  have own : chosen first (some symbol) = some symbol := if_neg named
  have same : chosen second (some symbol) = some symbol := if_neg named
  rw [generate, generate, own, same]
  simp only [declared, known, if_true]
  rw [agrees.expand_eq accepted other limit]

theorem AgreesFrom.attempt_eq (limit source : Nat) (shown : Text) :
    attempt first limit (some symbol) source shown =
      attempt second limit (some symbol) source shown := by
  have named := agrees.ne_empty accepted
  funext run
  rw [attempt, attempt, agrees.generate_eq accepted other, chosen, chosen]
  simp only [named, if_false]

theorem AgreesFrom.batch_eq (limit : Nat) (source count : Nat) (shown : Text) :
    batch first limit (some symbol) source shown count =
      batch second limit (some symbol) source shown count := by
  induction count with
  | zero => rfl
  | succ count ih => rw [batch, batch, agrees.attempt_eq accepted other, ih]

/--
Grammars that agree on all that a symbol reaches have the same texts of it, or
the same failure, and note the same, from every source and up to every limit.
The source may be shown differently in both, unless a leaf that the symbol
reaches asks for that.
-/
theorem generateStrings_eq_of_agreesFrom (limit count : Nat) (source : Random.Source)
    {shown word : Text} (alike : first.ShowsSource symbol → shown = word) :
    first.generateStrings limit (some symbol) count source shown =
      second.generateStrings limit (some symbol) count source word := by
  have named : chosen first (some symbol) = some symbol := if_neg (agrees.ne_empty accepted)
  have asked : ShownAlike first (some symbol) shown word := by
    intro key member
    cases named.symm.trans member
    exact alike
  rw [generateStrings_shown asked, generateStrings, generateStrings,
    agrees.batch_eq accepted other]

end

def terseText : String :=
  "S : T ; | $x S . T : \"a\" range(2) . Context. S : x = 1, y = 2 ."

def terse : Grammar where
  table := ⟨[
    ("S", ⟨"S", [[.symbol "T"], [.leaf (.reference "x"), .symbol "S"]],
      (Table.empty.set "x" (.integer 1)).set "y" (.integer 2), none⟩),
    ("T", ⟨"T", [[.leaf (.constant "String" "a"), .leaf ⟨"range", "2", .draw [2]⟩]],
      .empty, none⟩)], by decide⟩
  start := some "S"

/-- Another start and order, a definition that is replaced, one that is not reached, and a hint. -/
def roomyText : String :=
  "U : T S . T : NL . S#3 : T ; | $x S . T : \"a\" range(0x2) .\n" ++
    "Context. S : y = 2, x = 1 . U : x = 5 ."

def roomy : Grammar where
  table := ⟨[
    ("U", ⟨"U", [[.symbol "T", .symbol "S"]], Table.empty.set "x" (.integer 5), none⟩),
    ("T", ⟨"T", [[.leaf (.constant "String" "a"), .leaf ⟨"range", "2", .draw [2]⟩]],
      .empty, none⟩),
    ("S", ⟨"S", [[.symbol "T"], [.leaf (.reference "x"), .symbol "S"]],
      (Table.empty.set "y" (.integer 2)).set "x" (.integer 1), some 3⟩)], by decide⟩
  start := some "U"

theorem declared_of_reaches_terse {key : String} (reached : terse.Reaches "S" key) :
    key = "S" ∨ key = "T" := by
  induction reached with
  | refl => exact .inl rfl
  | step before declared chosen member ih =>
      rcases ih with rfl | rfl
      · cases declared
        simp only [List.mem_cons, List.not_mem_nil, or_false] at chosen
        rcases chosen with rfl | rfl
        · simp at member
          exact .inr member
        · simp at member
          exact .inl member
      · cases declared
        cases List.mem_singleton.mp chosen
        simp at member

theorem agreesFrom_terse : terse.AgreesFrom roomy "S" := by
  intro key reached
  rcases declared_of_reaches_terse reached with rfl | rfl
  · refine ⟨_, _, rfl, rfl, ?_, ?_⟩
    · exact .cons (.cons rfl .nil) (.cons (.cons rfl (.cons rfl .nil)) .nil)
    · intro name
      simp only [Table.get?_set]
      by_cases first : name = "x"
      · subst first
        rfl
      · simp only [first, if_false]
  · exact ⟨_, _, rfl, rfl, .cons (.cons rfl (.cons rfl .nil)) .nil, fun name => rfl⟩

theorem generateStrings_eq_of_agreesFrom_terse :
    (parse Registry.default terseText).1 = .ok terse ∧
      (parse Registry.default roomyText).1 = .ok roomy ∧ terse.AgreesFrom roomy "S" ∧
      terse.ConcealsSource ∧ ∀ (limit count : Nat) (seed : Random.Seed) (shown word : Text),
        terse.generateStrings limit (some "S") count seed.source shown =
          roomy.generateStrings limit (some "S") count seed.source word := by
  have accepted : (parse Registry.default terseText).1 = .ok terse := by decide +kernel
  have other : (parse Registry.default roomyText).1 = .ok roomy := by decide +kernel
  have conceals : terse.ConcealsSource := by decide
  exact ⟨accepted, other, agreesFrom_terse, conceals, fun limit count seed shown word =>
    generateStrings_eq_of_agreesFrom accepted other agreesFrom_terse limit count seed.source
      fun shows => absurd shows (conceals.not_showsSource "S")⟩

end Grammar

end PhraseGrammar
