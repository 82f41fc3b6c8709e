import PhraseGrammar.Proofs.Rules.RangeRecognition

/-!
# The recognition of rules

The readers of nodes and rules recognize these notions of the syntax.
-/

namespace PhraseGrammar.Reader

open Syntax

variable {ending : Ending}

theorem isLiteral_of_entry {token : Token} {construct : String → Except ParseFailure Leaf}
    (entry : Registry.default.literals.get? token.kind.name = some construct) :
    token.IsLiteral := by
  rcases Registry.literal_made entry with ⟨quoted, _⟩ | ⟨number, _⟩
  · exact quoted.imp_right .inl
  · exact .inr (.inr number)

/-- A literal in quotes is a node if it decodes. -/
theorem quoted_eq_ok_iff {kind text : String} {node : Node} :
    ((Literal.unquote text).map (Leaf.constant kind)).map Node.leaf = .ok node ↔
      ∃ value, Literal.unquote text = .ok value ∧ node = .leaf (.constant kind value) := by
  cases Literal.unquote text with
  | error failure => simp [Except.map]
  | ok value => simp [Except.map, eq_comm]

/-- A literal is a node by itself, and nothing else begins with one. -/
theorem spellsNode_literal {lexeme : Lexeme} {front : List Lexeme} {node : Node}
    {construct : String → Except ParseFailure Leaf}
    (entry : Registry.default.literals.get? lexeme.token.kind.name = some construct) :
    SpellsNode (lexeme :: front) node ↔
      front = [] ∧ (construct lexeme.token.text).map Node.leaf = .ok node := by
  have literal := isLiteral_of_entry entry
  constructor
  · intro spells
    cases spells with
    | string kind decodes =>
        rw [kind] at entry
        cases entry
        exact ⟨rfl, quoted_eq_ok_iff.mpr ⟨_, decodes, rfl⟩⟩
    | char kind decodes =>
        rw [kind] at entry
        cases entry
        exact ⟨rfl, quoted_eq_ok_iff.mpr ⟨_, decodes, rfl⟩⟩
    | int kind =>
        rw [kind] at entry
        cases entry
        exact ⟨rfl, rfl⟩
    | float kind =>
        rw [kind] at entry
        cases entry
        exact ⟨rfl, rfl⟩
    | terminal plain registered => exact absurd literal plain
    | range plain called bounds => exact absurd literal plain
    | reference sign kind =>
        rw [sign] at entry
        cases entry
    | bare plain unregistered other free inner => exact absurd literal plain
  · rintro ⟨rfl, made⟩
    rcases literal with kind | kind | kind | kind
    · rw [kind] at entry
      cases entry
      obtain ⟨value, decodes, rfl⟩ := quoted_eq_ok_iff.mp made
      exact .string kind decodes
    · rw [kind] at entry
      cases entry
      obtain ⟨value, decodes, rfl⟩ := quoted_eq_ok_iff.mp made
      exact .char kind decodes
    · rw [kind] at entry
      cases entry
      cases made
      exact .int kind
    · rw [kind] at entry
      cases entry
      cases made
      exact .float kind

theorem not_isLiteral_of_entry {token : Token}
    (entry : Registry.default.literals.get? token.kind.name = none) : ¬token.IsLiteral := by
  rintro (kind | kind | kind | kind)
  all_goals
    rw [kind] at entry
    cases entry

theorem builtins_get? (text : String) :
    Registry.default.builtins.get? text = if text = "range" then some range else none := by
  show (Table.empty.set "range" range).get? text = _
  rw [Table.get?_set, Table.get?_empty]

/-- What the tokens without a literal spell, by the meaning that comes first. -/
theorem spellsNode_plain {lexeme : Lexeme} {front : List Lexeme} {node : Node}
    (plain : ¬lexeme.token.IsLiteral) : SpellsNode (lexeme :: front) node ↔
      (∃ leaf, Registry.default.terminals.get? lexeme.token.text = some (.ok leaf) ∧ front = [] ∧
        node = .leaf leaf) ∨
      (lexeme.token.text = "range" ∧ ∃ leaf, SpellsRange front leaf ∧ node = .leaf leaf) ∨
      (lexeme.token = .punct "$" ∧ ∃ name, front = [name] ∧ name.token.kind = .ident ∧
        node = .leaf (.reference name.token.text)) ∨
      (Registry.default.terminals.get? lexeme.token.text = none ∧ lexeme.token.text ≠ "range" ∧
        lexeme.token ≠ .punct "$" ∧ (lexeme.token ≠ .punct "." ∧ lexeme.token ≠ .punct ";") ∧
        front = [] ∧ node = .unresolved lexeme.token.text) := by
  constructor
  · intro spells
    cases spells with
    | string kind decodes => exact absurd (.inl kind) plain
    | char kind decodes => exact absurd (.inr (.inl kind)) plain
    | int kind => exact absurd (.inr (.inr (.inl kind))) plain
    | float kind => exact absurd (.inr (.inr (.inr kind))) plain
    | terminal plain registered => exact .inl ⟨_, registered, rfl, rfl⟩
    | range plain called bounds => exact .inr (.inl ⟨called, _, bounds, rfl⟩)
    | reference sign kind => exact .inr (.inr (.inl ⟨sign, _, rfl, kind, rfl⟩))
    | bare plain unregistered other free inner =>
        exact .inr (.inr (.inr ⟨unregistered, other, free, inner, rfl, rfl⟩))
  · rintro (⟨leaf, registered, rfl, rfl⟩ | ⟨called, leaf, bounds, rfl⟩ |
      ⟨sign, name, rfl, kind, rfl⟩ | ⟨unregistered, other, free, inner, rfl, rfl⟩)
    · exact .terminal plain registered
    · exact .range plain called bounds
    · exact .reference sign kind
    · exact .bare plain unregistered other free inner

theorem recognizes_reference : Recognizes (do
      let name ← next
      if name.kind ≠ .ident then reject (.expectedReference name)
      else
        match Registry.default.literals.get? Registry.referenceName with
        | none => reject .noReferenceLiteral
        | some construct => ofExcept ((construct name.text).map Node.leaf)) ending Ordered
    fun front node _ => ∃ name, front = [name] ∧ name.token.kind = .ident ∧
      node = .leaf (.reference name.token.text) := by
  refine (Recognizes.seq .next fun name => .ite (fun _ => .reject _) fun _ =>
    .still (.ok (Node.leaf (.reference name.text)))).congr ?_
  intro reading front node rest ordered pending
  constructor
  · rintro ⟨_, _, _, rfl, ⟨name, rfl, rfl⟩ | ⟨_, _, rfl, _⟩, ⟨_, none⟩ | ⟨kind, rfl, made⟩⟩
    · exact none.elim
    · cases made
      exact ⟨name, rfl, not_not.mp kind, rfl⟩
    · exact none.elim
    · exact absurd (show Token.eof.kind ≠ .ident by decide) kind
  · rintro ⟨name, rfl, kind, rfl⟩
    exact ⟨name.token, [name], [], rfl, .inl ⟨name, rfl, rfl⟩, .inr ⟨not_not.mpr kind, rfl, rfl⟩⟩

theorem recognizes_node (lexeme : Lexeme)
    (inner : lexeme.token ≠ .punct "." ∧ lexeme.token ≠ .punct ";") :
    (node Registry.default lexeme.token).Recognizes ending (Behind lexeme) fun front node _ =>
      SpellsNode (lexeme :: front) node := by
  unfold node
  split
  · rename_i construct entry
    refine (Recognizes.still _).congr fun _ front node rest _ _ => ?_
    exact (spellsNode_literal entry).symm
  · rename_i entry
    have plain := not_isLiteral_of_entry entry
    split
    · rename_i made registered
      obtain ⟨leaf, rfl, _⟩ := Registry.terminal_made registered
      refine (Recognizes.pure _).congr fun _ front node rest _ _ => ?_
      rw [spellsNode_plain plain]
      constructor
      · rintro ⟨rfl, rfl⟩
        exact .inl ⟨leaf, registered, rfl, rfl⟩
      · rintro (⟨other, known, rfl, rfl⟩ | ⟨called, _⟩ | ⟨sign, _⟩ | ⟨unregistered, _⟩)
        · cases registered.symm.trans known
          exact ⟨rfl, rfl⟩
        · rw [called] at registered
          cases registered
        · rw [sign] at registered
          cases registered
        · cases registered.symm.trans unregistered
    · rename_i unregistered
      rw [builtins_get?]
      by_cases called : lexeme.token.text = "range"
      · rw [if_pos called]
        refine (Recognizes.of_ordered (recognizes_range.seq fun leaf => .pure _) lexeme).congr ?_
        intro reading front node rest behind pending
        rw [spellsNode_plain plain]
        constructor
        · rintro ⟨leaf, ahead, _, rfl, bounds, rfl, rfl⟩
          exact .inr (.inl ⟨called, leaf, by simpa using bounds, rfl⟩)
        · rintro (⟨leaf, registered, _⟩ | ⟨_, leaf, bounds, rfl⟩ | ⟨sign, _⟩ | ⟨_, other, _⟩)
          · cases unregistered.symm.trans registered
          · exact ⟨leaf, front, [], by simp, bounds, rfl, rfl⟩
          · rw [sign] at called
            exact absurd called (by decide)
          · exact absurd called other
      · rw [if_neg called]
        refine (Recognizes.ite (fun _ => .of_ordered recognizes_reference lexeme)
          fun _ => .pure _).congr ?_
        intro reading front node rest behind pending
        rw [spellsNode_plain plain]
        constructor
        · rintro (⟨sign, spells⟩ | ⟨free, rfl, rfl⟩)
          · exact .inr (.inr (.inl ⟨sign, spells⟩))
          · exact .inr (.inr (.inr ⟨unregistered, called, free, inner, rfl, rfl⟩))
        · rintro (⟨leaf, registered, _⟩ | ⟨same, _⟩ | spells | ⟨_, _, free, _, rfl, rfl⟩)
          · cases unregistered.symm.trans registered
          · exact absurd same called
          · exact .inl spells
          · exact .inr ⟨free, rfl, rfl⟩

/-! ## Rules -/

theorem spellsNode_cons {front : List Lexeme} {node : Node} (spells : SpellsNode front node) :
    ∃ lexeme tail, front = lexeme :: tail ∧ lexeme.token ≠ .punct "." ∧
      lexeme.token ≠ .punct ";" := by
  have literal {lexeme : Lexeme} (kind : lexeme.token.kind ≠ .punct) :
      lexeme.token ≠ .punct "." ∧ lexeme.token ≠ .punct ";" :=
    ⟨fun same => kind (congrArg Token.kind same), fun same => kind (congrArg Token.kind same)⟩
  cases spells with
  | string kind decodes => exact ⟨_, [], rfl, literal (by simp [kind])⟩
  | char kind decodes => exact ⟨_, [], rfl, literal (by simp [kind])⟩
  | int kind => exact ⟨_, [], rfl, literal (by simp [kind])⟩
  | float kind => exact ⟨_, [], rfl, literal (by simp [kind])⟩
  | terminal plain registered =>
      refine ⟨_, [], rfl, fun same => ?_, fun same => ?_⟩
      · rw [same] at registered
        cases registered
      · rw [same] at registered
        cases registered
  | range plain called bounds =>
      refine ⟨_, _, rfl, fun same => ?_, fun same => ?_⟩
      · exact absurd (called.symm.trans (congrArg Token.text same)) (by decide)
      · exact absurd (called.symm.trans (congrArg Token.text same)) (by decide)
  | reference sign kind =>
      exact ⟨_, _, rfl, by rw [sign]; decide, by rw [sign]; decide⟩
  | bare plain unregistered other free inner => exact ⟨_, [], rfl, inner⟩

theorem spellsNode_inner {lexeme : Lexeme} {front : List Lexeme} {node : Node}
    (spells : SpellsNode (lexeme :: front) node) :
    lexeme.token ≠ .punct "." ∧ lexeme.token ≠ .punct ";" := by
  obtain ⟨_, _, same, inner⟩ := spellsNode_cons spells
  obtain ⟨rfl, _⟩ := List.cons.inj same
  exact inner

theorem recognizes_nodesTurn (nodes : Array Node) (lexeme : Lexeme) :
    (nodesTurn Registry.default nodes lexeme.token).Recognizes ending (Behind lexeme)
      fun front turn _ =>
        (lexeme.token = .punct "." ∧ front = [] ∧ turn = .done (nodes.toList, false)) ∨
        (lexeme.token = .punct ";" ∧ front = [] ∧ turn = .done (nodes.toList, true)) ∨
        ∃ node, SpellsNode (lexeme :: front) node ∧ turn = .again (nodes.push node) := by
  unfold nodesTurn
  by_cases period : lexeme.token = .punct "."
  · rw [if_pos period]
    refine (Recognizes.pure _).congr fun _ front turn rest _ _ => ⟨fun ended => ?_, ?_⟩
    · exact .inl ⟨period, ended⟩
    · rintro (⟨_, ended⟩ | ⟨semicolon, _⟩ | ⟨node, spells, _⟩)
      · exact ended
      · exact absurd (period.symm.trans semicolon) (by decide)
      · exact absurd period (spellsNode_inner spells).1
  · rw [if_neg period]
    by_cases semicolon : lexeme.token = .punct ";"
    · rw [if_pos semicolon]
      refine (Recognizes.pure _).congr fun _ front turn rest _ _ => ⟨fun ended => ?_, ?_⟩
      · exact .inr (.inl ⟨semicolon, ended⟩)
      · rintro (⟨same, _⟩ | ⟨_, ended⟩ | ⟨node, spells, _⟩)
        · exact absurd same period
        · exact ended
        · exact absurd semicolon (spellsNode_inner spells).2
    · rw [if_neg semicolon]
      refine (((recognizes_node lexeme ⟨period, semicolon⟩).orAtPlace).bind (fun node => .pure _)
        fun _ behind => behind.ordered).congr fun _ front turn rest _ _ => ⟨?_, ?_⟩
      · rintro ⟨node, ahead, _, rfl, spells, rfl, rfl⟩
        exact .inr (.inr ⟨node, by simpa using spells, rfl⟩)
      · rintro (⟨same, _⟩ | ⟨same, _⟩ | ⟨node, spells, rfl⟩)
        · exact absurd same period
        · exact absurd same semicolon
        · exact ⟨node, front, [], by simp, spells, rfl, rfl⟩

/-- A rule with its end: a semicolon before another rule, else a period or the end of the text. -/
def SpellsRuleEnd (ending : Ending) (rule : List Node) (more : Bool) (front rest : List Lexeme) :
    Prop :=
  (∃ inner stop, front = inner ++ [stop] ∧ SpellsRule inner rule ∧
    ((stop.token = .punct "." ∧ more = false) ∨ (stop.token = .punct ";" ∧ more = true))) ∨
  (rest = [] ∧ ending.Closed ∧ SpellsRule front rule ∧ more = false)

theorem spellsRule_nil {rule : List Node} (spells : SpellsRule [] rule) : rule = [] := by
  generalize empty : ([] : List Lexeme) = front at spells
  cases spells with
  | nil => rfl
  | cons first others =>
      obtain ⟨_, _, rfl, _⟩ := spellsNode_cons first
      cases empty

theorem spellsRule_cons {lexeme : Lexeme} {tail : List Lexeme} {rule : List Node} :
    SpellsRule (lexeme :: tail) rule ↔ ∃ node nodes left right, tail = left ++ right ∧
      SpellsNode (lexeme :: left) node ∧ SpellsRule right nodes ∧ rule = node :: nodes := by
  constructor
  · intro spells
    generalize whole : lexeme :: tail = front at spells
    cases spells with
    | nil => cases whole
    | @cons _ rest node nodes first others =>
        obtain ⟨_, left, rfl, _⟩ := spellsNode_cons first
        obtain ⟨rfl, rfl⟩ := List.cons.inj whole
        exact ⟨node, nodes, left, rest, rfl, first, others, rfl⟩
  · rintro ⟨node, nodes, left, right, rfl, first, others, rfl⟩
    exact .cons first others

theorem spellsRuleEnd_cons {lexeme : Lexeme} {tail rest : List Lexeme} {rule : List Node}
    {more : Bool} : SpellsRuleEnd ending rule more (lexeme :: tail) rest ↔
      (rule = [] ∧ tail = [] ∧ ((lexeme.token = .punct "." ∧ more = false) ∨
        (lexeme.token = .punct ";" ∧ more = true))) ∨
      ∃ node nodes left right, tail = left ++ right ∧ SpellsNode (lexeme :: left) node ∧
        rule = node :: nodes ∧ SpellsRuleEnd ending nodes more right rest := by
  constructor
  · rintro (⟨inner, stop, whole, spells, stops⟩ | ⟨ended, closed, spells, last⟩)
    · cases inner with
      | nil =>
          obtain ⟨rfl, rfl⟩ := List.cons.inj whole
          exact .inl ⟨spellsRule_nil spells, rfl, stops⟩
      | cons first inner =>
          obtain ⟨rfl, rfl⟩ := List.cons.inj whole
          obtain ⟨node, nodes, left, right, rfl, begins, others, rfl⟩ := spellsRule_cons.mp spells
          exact .inr ⟨node, nodes, left, right ++ [stop], by simp, begins, rfl,
            .inl ⟨right, stop, rfl, others, stops⟩⟩
    · obtain ⟨node, nodes, left, right, rfl, begins, others, rfl⟩ := spellsRule_cons.mp spells
      exact .inr ⟨node, nodes, left, right, rfl, begins, rfl, .inr ⟨ended, closed, others, last⟩⟩
  · rintro (⟨rfl, rfl, stops⟩ | ⟨node, nodes, left, right, rfl, begins, rfl, ended⟩)
    · exact .inl ⟨[], lexeme, rfl, .nil, stops⟩
    · rcases ended with ⟨inner, stop, rfl, spells, stops⟩ | ⟨ended, closed, spells, last⟩
      · exact .inl ⟨lexeme :: left ++ inner, stop, by simp, .cons begins spells, stops⟩
      · exact .inr ⟨ended, closed, .cons begins spells, last⟩

theorem recognizes_nodes : (nodes Registry.default).Recognizes ending Ordered
    fun front result rest => SpellsRuleEnd ending result.1 result.2 front rest := by
  have loop : ∀ nodes : Array Node, Recognizes (eachToken (fun nodes => pure (nodes.toList, false))
      (nodesTurn Registry.default) nodes) ending Ordered fun front result rest =>
        ∃ rule, result.1 = nodes.toList ++ rule ∧
          SpellsRuleEnd ending rule result.2 front rest := by
    refine Recognizes.eachToken (fun _ => run_pure_iff _) recognizes_nodesTurn ?_ ?_
    · intro nodes result rest
      constructor
      · rintro ⟨rule, same, ⟨inner, stop, none, _⟩ | ⟨ended, closed, spells, last⟩⟩
        · exact absurd none (by simp)
        · obtain rfl := spellsRule_nil spells
          exact ⟨ended, closed, Prod.ext (by simpa using same) last⟩
      · rintro ⟨ended, closed, rfl⟩
        exact ⟨[], (List.append_nil _).symm, .inr ⟨ended, closed, .nil, rfl⟩⟩
    · intro nodes lexeme tail result rest
      constructor
      · rintro ⟨rule, same, ended⟩
        rcases spellsRuleEnd_cons.mp ended with ⟨rfl, rfl, stops⟩ |
          ⟨node, others, left, right, rfl, begins, rfl, further⟩
        · rw [List.append_nil] at same
          rcases stops with ⟨period, last⟩ | ⟨semicolon, more⟩
          · exact .inl (.inl ⟨period, rfl, congrArg Turn.done (Prod.ext same last)⟩)
          · exact .inl (.inr (.inl ⟨semicolon, rfl, congrArg Turn.done (Prod.ext same more)⟩))
        · exact .inr ⟨nodes.push node, left, right, rfl, .inr (.inr ⟨node, begins, rfl⟩),
            others, by simp [same], further⟩
      · rintro ((⟨period, rfl, done⟩ | ⟨semicolon, rfl, done⟩ | ⟨_, _, other⟩) |
          ⟨further, left, right, rfl, ⟨_, _, other⟩ | ⟨_, _, other⟩ | ⟨node, begins, again⟩,
            others, same, ended⟩)
        · cases done
          exact ⟨[], by simp, spellsRuleEnd_cons.mpr (.inl ⟨rfl, rfl, .inl ⟨period, rfl⟩⟩)⟩
        · cases done
          exact ⟨[], by simp, spellsRuleEnd_cons.mpr (.inl ⟨rfl, rfl, .inr ⟨semicolon, rfl⟩⟩)⟩
        · cases other
        · cases other
        · cases other
        · cases again
          exact ⟨node :: others, by simp [same], spellsRuleEnd_cons.mpr
            (.inr ⟨node, others, left, right, rfl, begins, rfl, ended⟩)⟩
  refine (loop #[]).congr fun _ front result rest _ _ => ?_
  simp

/-- Rules with their end: a period or the end of the text. -/
def SpellsRulesEnd (ending : Ending) (rules : List (List Node)) (front rest : List Lexeme) :
    Prop :=
  (∃ inner period, front = inner ++ [period] ∧ SpellsRules inner rules ∧
    period.token = .punct ".") ∨
  (rest = [] ∧ ending.Closed ∧ SpellsRules front rules)

theorem spellsRulesEnd_iff {rules : List (List Node)} {front rest : List Lexeme} :
    SpellsRulesEnd ending rules front rest ↔
      (∃ rule, SpellsRuleEnd ending rule false front rest ∧ rules = [rule]) ∨
      ∃ rule others left bar right, front = left ++ bar :: right ∧
        SpellsRuleEnd ending rule true left (bar :: right ++ rest) ∧ bar.token = .punct "|" ∧
          SpellsRulesEnd ending others right rest ∧ rules = rule :: others := by
  constructor
  · rintro (⟨inner, period, rfl, spells, ends⟩ | ⟨ended, closed, spells⟩)
    · cases spells with
      | @last _ rule first =>
          exact .inl ⟨rule, .inl ⟨inner, period, rfl, first, .inl ⟨ends, rfl⟩⟩, rfl⟩
      | @more left right semicolon bar rule others first stops begins later =>
          exact .inr ⟨rule, others, left ++ [semicolon], bar, right ++ [period], by simp,
            .inl ⟨left, semicolon, rfl, first, .inr ⟨stops, rfl⟩⟩, begins,
            .inl ⟨right, period, rfl, later, ends⟩, rfl⟩
    · cases spells with
      | @last _ rule first => exact .inl ⟨rule, .inr ⟨ended, closed, first, rfl⟩, rfl⟩
      | @more left right semicolon bar rule others first stops begins later =>
          exact .inr ⟨rule, others, left ++ [semicolon], bar, right, by simp,
            .inl ⟨left, semicolon, rfl, first, .inr ⟨stops, rfl⟩⟩, begins,
            .inr ⟨ended, closed, later⟩, rfl⟩
  · rintro (⟨rule, ⟨inner, period, rfl, first, ⟨ends, _⟩ | ⟨_, other⟩⟩ |
        ⟨ended, closed, first, _⟩, rfl⟩ |
      ⟨rule, others, _, bar, right, rfl, ⟨left, semicolon, rfl, first, ⟨_, other⟩ | ⟨stops, _⟩⟩ |
        ⟨_, _, _, other⟩, begins, later, rfl⟩)
    · exact .inl ⟨inner, period, rfl, .last first, ends⟩
    · cases other
    · exact .inr ⟨ended, closed, .last first⟩
    · cases other
    · rcases later with ⟨inner, period, rfl, spells, ends⟩ | ⟨ended, closed, spells⟩
      · exact .inl ⟨left ++ semicolon :: bar :: inner, period, by simp,
          .more first stops begins spells, ends⟩
      · refine .inr ⟨ended, closed, ?_⟩
        rw [List.append_assoc]
        exact .more first stops begins spells
    · cases other

theorem recognizes_rulesTurn (name : String) (rules : Array (List Node)) (lexeme : Lexeme) :
    (rulesTurn Registry.default name rules lexeme.token).Recognizes ending (Behind lexeme)
      fun front turn rest => lexeme.token = .punct (ruleMark rules) ∧
        ∃ rule more, SpellsRuleEnd ending rule more front rest ∧
          turn = if more then .again (rules.push rule) else .done (rules.push rule).toList := by
  refine (Recognizes.ite (fun _ => .of_ordered (recognizes_nodes.seq fun result =>
    .ite (fun _ => .pure _) fun _ => .pure _) lexeme) fun _ => .reject _).congr ?_
  intro reading front turn rest behind pending
  constructor
  · rintro (⟨begins, ⟨rule, more⟩, ahead, _, rfl, ended, ⟨again, rfl, rfl⟩ | ⟨done, rfl, rfl⟩⟩ |
      ⟨_, none⟩)
    · exact ⟨begins, rule, more, by simpa using ended, (if_pos again).symm⟩
    · exact ⟨begins, rule, more, by simpa using ended, (if_neg done).symm⟩
    · exact none.elim
  · rintro ⟨begins, rule, more, ended, rfl⟩
    refine .inl ⟨begins, (rule, more), front, [], by simp, ended, ?_⟩
    cases more with
    | false => exact .inr ⟨Bool.false_ne_true, rfl, rfl⟩
    | true => exact .inl ⟨rfl, rfl, rfl⟩

theorem ruleMark_push (rules : Array (List Node)) (rule : List Node) :
    ruleMark (rules.push rule) = "|" := by
  simp [ruleMark]

theorem recognizes_rules (name : String) : (rules Registry.default name).Recognizes ending Ordered
    fun front result rest => ∃ colon inner, front = colon :: inner ∧ colon.token = .punct ":" ∧
      SpellsRulesEnd ending result inner rest := by
  have loop : ∀ rules : Array (List Node), Recognizes (eachToken (fun rules => noRule name rules .eof)
      (rulesTurn Registry.default name) rules) ending Ordered fun front result rest =>
        ∃ mark inner others, front = mark :: inner ∧ mark.token = .punct (ruleMark rules) ∧
          SpellsRulesEnd ending others inner rest ∧ result = rules.toList ++ others := by
    refine Recognizes.eachToken (fun _ => run_reject_iff _) (recognizes_rulesTurn name) ?_ ?_
    · intro rules result rest
      simp
    · intro rules lexeme tail result rest
      constructor
      · rintro ⟨mark, inner, others, whole, begins, ended, rfl⟩
        obtain ⟨rfl, rfl⟩ := List.cons.inj whole
        rcases spellsRulesEnd_iff.mp ended with ⟨rule, single, rfl⟩ |
          ⟨rule, others, left, bar, right, rfl, first, bars, later, rfl⟩
        · exact .inl ⟨begins, rule, false, single, by simp⟩
        · exact .inr ⟨rules.push rule, left, bar :: right, rfl, ⟨begins, rule, true, first, rfl⟩,
            bar, right, others, rfl, bars.trans (by rw [ruleMark_push]), later, by simp⟩
      · rintro (⟨begins, rule, more, ended, done⟩ | ⟨further, left, _, rfl,
          ⟨begins, rule, more, ended, again⟩, bar, right, others, rfl, bars, later, rfl⟩)
        · cases more with
          | false =>
              cases done
              exact ⟨lexeme, tail, [rule], rfl, begins,
                spellsRulesEnd_iff.mpr (.inl ⟨rule, ended, rfl⟩), by simp⟩
          | true => cases done
        · cases more with
          | false => cases again
          | true =>
              cases again
              rw [ruleMark_push] at bars
              exact ⟨lexeme, left ++ bar :: right, rule :: others, rfl, begins,
                spellsRulesEnd_iff.mpr
                  (.inr ⟨rule, others, left, bar, right, rfl, ended, bars, later, rfl⟩), by simp⟩
  refine (loop #[]).congr fun _ front result rest _ _ => ⟨?_, ?_⟩
  · rintro ⟨colon, inner, others, rfl, begins, ended, rfl⟩
    exact ⟨colon, inner, rfl, begins, by simpa using ended⟩
  · rintro ⟨colon, inner, rfl, begins, ended⟩
    exact ⟨colon, inner, result, rfl, begins, ended, by simp⟩

end PhraseGrammar.Reader
