import PhraseGrammar.Proofs.Grammar.Linking
import PhraseGrammar.Proofs.Rules.Postcondition
import PhraseGrammar.Rules.GrammarText

/-!
# Accepted grammars

What reading with the default registry and linking establish about a grammar:
every nonterminal is stored under its own name and has a rule, and every node
is a leaf of one of three standard forms or a symbol of the table. The start is
the name declared first.
-/

namespace PhraseGrammar

/-- The leaves that the default registry makes. -/
inductive Leaf.Standard : Leaf → Prop where
  | constant (name : String) (value : Text) : Standard (.constant name value)
  | reference (name : String) : Standard (.reference name)
  | range {arguments : List Int} {shown : String}
      (written : Reader.joinDecimals? arguments = some shown)
      (count : arguments.length = 1 ∨ arguments.length = 2) :
      Standard ⟨"range", shown, .draw arguments⟩

/--
A standard leaf whose name tells how it emits its value: the names of bound
names and of ranges are left to those.
-/
inductive Leaf.Legible : Leaf → Prop where
  | constant {name : String} (value : Text) (plain : name ≠ Registry.referenceName)
      (fixed : name ≠ "range") : Legible (.constant name value)
  | reference (name : String) : Legible (.reference name)
  | range {arguments : List Int} {shown : String}
      (written : Reader.joinDecimals? arguments = some shown)
      (count : arguments.length = 1 ∨ arguments.length = 2) :
      Legible ⟨"range", shown, .draw arguments⟩

theorem Leaf.Legible.standard {leaf : Leaf} (legible : leaf.Legible) : leaf.Standard := by
  cases legible with
  | constant value plain fixed => exact .constant _ value
  | reference name => exact .reference name
  | range written count => exact .range written count

/-- The nodes of a rule before linking. -/
inductive Node.Read : Node → Prop where
  | leaf {leaf : Leaf} (standard : leaf.Standard) : Read (.leaf leaf)
  | unresolved (ref : String) : Read (.unresolved ref)

/-- A node of a rule before linking; a leaf is a legible one. -/
inductive Node.Legible : Node → Prop where
  | leaf {leaf : Leaf} (legible : leaf.Legible) : Legible (.leaf leaf)
  | unresolved (ref : String) : Legible (.unresolved ref)

theorem Node.Legible.read {node : Node} (legible : node.Legible) : node.Read := by
  cases legible with
  | leaf legible => exact .leaf legible.standard
  | unresolved ref => exact .unresolved ref

/-- The nodes of a rule after linking. -/
inductive Node.Settled (grammar : Grammar) : Node → Prop where
  | leaf {leaf : Leaf} (standard : leaf.Standard) : Settled grammar (.leaf leaf)
  | symbol {key : String} (declared : grammar.contains key = true) : Settled grammar (.symbol key)

/-- A nonterminal under its own name, with a rule, all nodes of its rules being of a kind. -/
structure Nonterminal.Formed (kind : Node → Prop) (key : String) (nonterminal : Nonterminal) :
    Prop where
  name_eq : nonterminal.name = key
  rules_ne : nonterminal.rules ≠ []
  nodes {rule : List Node} (chosen : rule ∈ nonterminal.rules) {node : Node}
    (member : node ∈ rule) : kind node

/-- A table all of whose nonterminals are well formed. -/
def Grammar.Formed (kind : Node → Prop) (table : Table Nonterminal) : Prop :=
  ∀ key nonterminal, table.get? key = some nonterminal → nonterminal.Formed kind key

theorem Grammar.Formed.set {kind : Node → Prop} {table : Table Nonterminal}
    (formed : Grammar.Formed kind table) {key : String} {nonterminal : Nonterminal}
    (fits : nonterminal.Formed kind key) : Grammar.Formed kind (table.set key nonterminal) := by
  intro other found declared
  rw [Table.get?_set] at declared
  split at declared
  · rename_i same
    cases declared
    exact same ▸ fits
  · exact formed other found declared

namespace Reader

theorem legible_unquote {name text : String} {leaf : Leaf} (plain : name ≠ Registry.referenceName)
    (fixed : name ≠ "range") (made : (Literal.unquote text).map (Leaf.constant name) = .ok leaf) :
    leaf.Legible := by
  cases decoded : Literal.unquote text with
  | error failure =>
      rw [decoded] at made
      cases made
  | ok value =>
      rw [decoded] at made
      cases made
      exact .constant value plain fixed

theorem legible_literal {kind : Kind} {text : String} {leaf : Leaf}
    {construct : String → Except ParseFailure Leaf}
    (entry : Registry.default.literals.get? kind.name = some construct)
    (made : construct text = .ok leaf) : leaf.Legible := by
  obtain ⟨plain, fixed⟩ : kind.name ≠ Registry.referenceName ∧ kind.name ≠ "range" := by
    cases kind <;> decide
  rcases Registry.literal_made entry with ⟨_, rfl⟩ | ⟨_, rfl⟩
  · exact legible_unquote plain fixed made
  · cases made
    exact .constant text plain fixed

theorem legible_terminal {name : String} {leaf : Leaf}
    (member : (name, leaf) ∈ Registry.defaultTerminals) : leaf.Legible := by
  have constants : ∀ entry ∈ Registry.defaultTerminals,
      entry.2 = .constant entry.2.name entry.2.value ∧
        entry.2.name ≠ Registry.referenceName ∧ entry.2.name ≠ "range" := by decide
  obtain ⟨same, plain, fixed⟩ := constants _ member
  exact (congrArg Leaf.Legible same).mpr (.constant leaf.value plain fixed)

theorem builtin_eq_range {text : String} {reader : Reader Leaf}
    (entry : Registry.default.builtins.get? text = some reader) : reader = range := by
  have member : (text, reader) ∈ [("range", range)] := Table.mem_entries_of_get? entry
  cases List.mem_singleton.mp member
  rfl

theorem ensures_range : range.Ensures Leaf.Legible := by
  apply Ensures.seq
  intro arguments
  split
  · rename_i count
    split
    · exact .fail _ _
    · rename_i shown written
      exact .pure (.range written count)
  · exact .reject _ _

theorem ensures_leaf {result : Except ParseFailure Leaf}
    (legible : ∀ leaf, result = .ok leaf → leaf.Legible) :
    (ofExcept (result.map Node.leaf)).Ensures Node.Legible := by
  apply Ensures.ofExcept
  intro node made
  cases result with
  | error failure => cases made
  | ok leaf =>
      cases made
      exact .leaf (legible leaf rfl)

theorem ensures_node (token : Token) : (node Registry.default token).Ensures Node.Legible := by
  unfold node
  split
  · rename_i construct entry
    exact ensures_leaf fun leaf made => legible_literal entry made
  · split
    · rename_i made entry
      obtain ⟨leaf, rfl, member⟩ := Registry.terminal_made entry
      exact .pure (.leaf (legible_terminal member))
    · split
      · rename_i reader entry
        rw [builtin_eq_range entry]
        exact ensures_range.bind fun leaf legible => .pure (.leaf legible)
      · split
        · apply Ensures.seq
          intro name
          split
          · exact .reject _ _
          · split
            · exact .reject _ _
            · rename_i construct entry
              cases entry
              apply ensures_leaf
              intro leaf made
              cases made
              exact .reference name.text
        · exact .pure (.unresolved token.text)

theorem ensures_nodes :
    (nodes Registry.default).Ensures fun result => ∀ node ∈ result.1, node.Legible := by
  refine Ensures.eachToken (fun nodes : Array Node => ∀ node ∈ nodes.toList, node.Legible) ?_ ?_ ?_
  · exact fun nodes read => .pure read
  · intro nodes token read
    unfold nodesTurn
    split
    · exact .pure read
    · split
      · exact .pure read
      · refine (ensures_node token).orAtPlace.bind fun node fits => .pure ?_
        intro other member
        rw [Array.toList_push, List.mem_append, List.mem_singleton] at member
        rcases member with earlier | rfl
        · exact read other earlier
        · exact fits
  · simp

/-- There is at least one rule, since the loop ends only behind one. -/
theorem ensures_rules (name : String) :
    (rules Registry.default name).Ensures fun rules =>
      rules ≠ [] ∧ ∀ rule ∈ rules, ∀ node ∈ rule, node.Legible := by
  refine Ensures.eachToken (fun rules : Array (List Node) =>
    ∀ rule ∈ rules.toList, ∀ node ∈ rule, node.Legible) ?_ ?_ ?_
  · exact fun rules read => .reject _ _
  · intro rules token read
    unfold rulesTurn
    split
    · refine ensures_nodes.bind fun result fits => ?_
      obtain ⟨rule, more⟩ := result
      have extended : ∀ other ∈ (rules.push rule).toList, ∀ node ∈ other, node.Legible := by
        intro other member
        rw [Array.toList_push, List.mem_append, List.mem_singleton] at member
        rcases member with earlier | rfl
        · exact read other earlier
        · exact fits
      dsimp only
      split
      · exact .pure extended
      · exact .pure ⟨by simp, extended⟩
    · exact .reject _ _
  · simp

/--
What stays true of a grammar while it is read: a definition enters rules under a
name, and default bindings change a nonterminal in nothing else.
-/
structure Invariant (holds : Grammar → Prop) : Prop where
  begins : holds ⟨.empty, none⟩
  defines {grammar : Grammar} {rules : List (List Node)} (name : String) (hint : Option Int)
    (before : holds grammar) (some_rule : rules ≠ [])
    (read : ∀ rule ∈ rules, ∀ node ∈ rule, node.Legible) :
    holds ⟨grammar.table.set name ⟨name, rules, .empty, hint⟩, grammar.start <|> some name⟩
  binds {grammar : Grammar} {key : String} {nonterminal : Nonterminal} (defaults : Table Value)
    (before : holds grammar) (declared : grammar.table.get? key = some nonterminal) :
    holds ⟨grammar.table.set key { nonterminal with defaults }, grammar.start⟩

theorem Invariant.ensures_context {holds : Grammar → Prop} (invariant : Invariant holds)
    {table : Table Nonterminal} {start : Option String} (before : holds ⟨table, start⟩) :
    (context table).Ensures fun table => holds ⟨table, start⟩ := by
  refine .seq fun _ => ?_
  refine Ensures.eachToken (fun table : Table Nonterminal => holds ⟨table, start⟩) ?_ ?_ before
  · exact fun table kept => .pure kept
  · intro table token kept
    unfold contextTurn
    split
    · exact .reject _ _
    · refine .seq fun _ => ?_
      split
      · exact .reject _ _
      · rename_i nonterminal declared
        exact .seq fun defaults => .pure (invariant.binds defaults kept declared)

theorem ensures_define (grammar : Grammar) (nonterminal : Nonterminal) :
    (define grammar nonterminal).Ensures fun defined => defined =
      ⟨grammar.table.set nonterminal.name nonterminal, grammar.start <|> some nonterminal.name⟩ := by
  unfold define
  split
  · exact .seq fun _ => .seq fun _ => .pure rfl
  · exact .seq fun _ => .pure rfl

theorem Invariant.ensures_definitions {holds : Grammar → Prop} (invariant : Invariant holds) :
    (definitions Registry.default).Ensures holds := by
  refine Ensures.eachToken holds ?_ ?_ invariant.begins
  · exact fun grammar kept => .pure kept
  · intro grammar token kept
    unfold definitionsTurn
    split
    · exact .pure kept
    · split
      · exact .reject _ _
      · refine .seq fun hint => ?_
        split
        · exact (invariant.ensures_context kept).bind fun table bound => .pure bound
        · refine (ensures_rules token.text).bind fun rules fits => ?_
          refine (ensures_define grammar _).bind fun defined same => .pure ?_
          rw [same]
          exact invariant.defines token.text hint kept fits.1 fits.2

/-- A grammar that is read has the invariant, and at least one nonterminal. -/
theorem Invariant.ensures_grammar {holds : Grammar → Prop} (invariant : Invariant holds) :
    (grammar Registry.default).Ensures fun grammar =>
      holds grammar ∧ grammar.table.isEmpty = false := by
  refine invariant.ensures_definitions.bind fun grammar kept => ?_
  split
  · exact .reject _ _
  · rename_i filled
    exact .pure ⟨kept, Bool.eq_false_iff.mpr filled⟩

/-- What legible nodes have in common is true of all nodes of a grammar that is read. -/
theorem invariant_formed {property : Node → Prop}
    (implies : ∀ node : Node, node.Legible → property node) :
    Invariant fun grammar => Grammar.Formed property grammar.table where
  begins := by
    intro key nonterminal declared
    cases declared
  defines name hint before some_rule read :=
    before.set ⟨rfl, some_rule, fun chosen _ member => implies _ (read _ chosen _ member)⟩
  binds defaults before declared :=
    have fits := before _ _ declared
    before.set ⟨fits.name_eq, fits.rules_ne, fits.nodes⟩

/-- The start is the name that was declared first. -/
theorem invariant_start : Invariant fun grammar => grammar.start = grammar.table.keys.head? where
  begins := rfl
  defines := by
    intro grammar rules name hint before some_rule read
    rw [Table.keys_set]
    cases names : grammar.table.keys with
    | nil =>
        rw [names] at before
        simp [before]
    | cons first others =>
        rw [names] at before
        split <;> simp [before]
  binds := by
    intro grammar key nonterminal defaults before declared
    have known := (Table.contains_iff_mem_keys grammar.table key).mp (by simp [Table.contains, declared])
    rw [Table.keys_set, if_pos known]
    exact before

end Reader

/-! ## Linked grammars -/

theorem Node.settled_link {grammar : Grammar} {node : Node} (read : node.Read) {owner : String}
    (complete : (node.link grammar.table.keys owner).failure = none)
    {linked : Grammar} (same : linked.table.keys = grammar.table.keys) :
    (node.link grammar.table.keys owner).result.Settled linked := by
  cases read with
  | leaf standard => exact .leaf standard
  | unresolved ref =>
      simp only [Node.link] at complete ⊢
      split at complete
      · rename_i known
        rw [if_pos known]
        exact .symbol ((Table.contains_iff_mem_keys _ _).mpr (same ▸ known))
      · cases complete

/-- A grammar that can be expanded: linked, and its leaves of the standard forms. -/
def Grammar.Ready (grammar : Grammar) : Prop :=
  Grammar.Formed (Node.Settled grammar) grammar.table

theorem Grammar.ready_link {grammar : Grammar} (formed : Formed Node.Read grammar.table)
    (complete : grammar.link.failure = none) : grammar.link.result.Ready := by
  intro key linked declared
  have found := get?_link complete key
  rw [show grammar.link.result.get? key = some linked from declared] at found
  cases source : grammar.get? key with
  | none =>
      rw [source] at found
      cases found
  | some nonterminal =>
      rw [source] at found
      have whole := failure_nonterminal complete source
      have fits := formed key nonterminal source
      cases found
      change Nonterminal.Formed _ key (nonterminal.link grammar.table.keys).result
      rw [Nonterminal.result_link whole]
      refine ⟨fits.name_eq, ?_, ?_⟩
      · simpa using fits.rules_ne
      · intro rule chosen node member
        obtain ⟨before, known, rfl⟩ := List.mem_map.mp chosen
        obtain ⟨old, inside, rfl⟩ := List.mem_map.mp member
        exact Node.settled_link (fits.nodes known inside)
          (Nonterminal.failure_node whole known inside) (keys_link grammar)

theorem Grammar.parse_eq_ok {registry : Registry} {text : String} {grammar : Grammar}
    (accepted : (parse registry text).1 = .ok grammar) :
    ∃ raw : Grammar, (read registry text).1 = .ok raw ∧ raw.link.failure = none ∧
      raw.link.result = grammar := by
  unfold parse linkNoting at accepted
  cases found : read registry text with
  | mk result log =>
      rw [found] at accepted
      cases result with
      | error failure => cases accepted
      | ok raw =>
          refine ⟨raw, rfl, ?_⟩
          cases failed : raw.link.failure with
          | some cause => simp [failed] at accepted
          | none => simpa [failed] using accepted

/-- A text is accepted if it is read and its links are complete. -/
theorem Grammar.parse_of_read {registry : Registry} {text : String} {raw : Grammar}
    (accepted : (read registry text).1 = .ok raw) (complete : raw.link.failure = none) :
    (parse registry text).1 = .ok raw.link.result := by
  unfold parse linkNoting
  cases found : read registry text with
  | mk result log =>
      rw [found] at accepted
      cases accepted
      simp [complete]

theorem Grammar.invariant_of_read {holds : Grammar → Prop} (invariant : Reader.Invariant holds)
    {text : String} {grammar : Grammar} (accepted : (read Registry.default text).1 = .ok grammar) :
    holds grammar ∧ grammar.table.isEmpty = false :=
  invariant.ensures_grammar (.ofText text) grammar _ (Prod.ext accepted rfl)

/-- Every accepted grammar can be expanded. -/
theorem Grammar.ready_of_parse {text : String} {grammar : Grammar}
    (accepted : (parse Registry.default text).1 = .ok grammar) : grammar.Ready := by
  obtain ⟨raw, read, complete, rfl⟩ := parse_eq_ok accepted
  have formed := invariant_of_read (Reader.invariant_formed fun _ legible => legible.read) read
  exact ready_link formed.1 complete

/-- The start of a grammar that is read is the name declared first; there is one. -/
theorem Grammar.start_of_read {text : String} {grammar : Grammar}
    (accepted : (read Registry.default text).1 = .ok grammar) :
    ∃ first, grammar.table.keys.head? = some first ∧ grammar.start = some first := by
  obtain ⟨started, filled⟩ := invariant_of_read Reader.invariant_start accepted
  have names : grammar.table.keys ≠ [] := by
    intro none
    rw [(Table.isEmpty_iff_keys_eq_nil _).mpr none] at filled
    cases filled
  obtain ⟨first, others, whole⟩ := List.exists_cons_of_ne_nil names
  have head : grammar.table.keys.head? = some first := by rw [whole, List.head?_cons]
  exact ⟨first, head, started.trans head⟩

theorem Grammar.start_of_parse {text : String} {grammar : Grammar}
    (accepted : (parse Registry.default text).1 = .ok grammar) :
    ∃ first, grammar.table.keys.head? = some first ∧ grammar.start = some first ∧
      grammar.contains first = true := by
  obtain ⟨raw, read, _, rfl⟩ := parse_eq_ok accepted
  obtain ⟨first, head, start⟩ := start_of_read read
  have linked : raw.link.result.table.keys.head? = some first := by rwa [keys_link]
  exact ⟨first, linked, start,
    (Table.contains_iff_mem_keys _ _).mpr (List.mem_of_mem_head? linked)⟩

end PhraseGrammar
