import PhraseGrammar.Proofs.Rules.ContextRecognition
import PhraseGrammar.Proofs.Rules.RuleRecognition
import PhraseGrammar.Rules.GrammarText

/-!
# The recognition of sources

A text is read as a grammar exactly if its lexemes spell a proper source, and
the grammar is the one that the source stands for.
-/

namespace PhraseGrammar.Reader

open Syntax

variable {ending : Ending}

/-- A marker follows the lexeme immediately. -/
def Marked (lexeme : Lexeme) : Prop :=
  lexeme.follow = some '!' ∨ lexeme.follow = some '#'

theorem Behind.marked {lexeme : Lexeme} {reading : Reading} (behind : Behind lexeme reading)
    (marked : Marked lexeme) :
    ∃ marker others, reading.pending = marker :: others ∧ marker.Marks lexeme := by
  cases behind.2 with
  | cons regular adjacent others => exact adjacent marked

/-- What comes next is no marker, so that none follows immediately. -/
theorem Behind.not_marked {lexeme : Lexeme} {reading : Reading} (behind : Behind lexeme reading)
    (plain : ∀ next others, reading.pending = next :: others →
      next.token ≠ .punct "!" ∧ next.token ≠ .punct "#") : ¬Marked lexeme := by
  intro marked
  obtain ⟨marker, others, same, ⟨_, mark⟩ | ⟨_, mark⟩⟩ := behind.marked marked
  · exact (plain marker others same).1 mark
  · exact (plain marker others same).2 mark

/-- A depth behind a name is read whenever a marker follows the name. -/
theorem recognizes_depthHint (lexeme : Lexeme) :
    (depthHint lexeme.token.text).Recognizes ending (Behind lexeme) fun front depth _ =>
      SpellsHint lexeme front depth ∧ (front = [] → ¬Marked lexeme) := by
  refine ((Recognizes.follow lexeme).bind (fun value => .ite (fun _ => .seq .next fun marker =>
    .seq .next fun token => .ite (fun _ => .reject _) fun _ => .seq (.still _) fun hint => .pure _)
      fun _ => .pure _) fun _ behind => behind.ordered).congr ?_
  intro reading front depth rest behind pending
  constructor
  · rintro ⟨_, _, _, rfl, ⟨rfl, rfl⟩, ⟨marked, _, _, _, rfl, first, _, _, _, rfl, second, ended⟩ |
      ⟨unmarked, rfl, rfl⟩⟩
    · rcases ended with ⟨_, none⟩ | ⟨kind, _, _, _, rfl, ⟨rfl, made⟩, rfl, rfl⟩
      · exact none.elim
      · rcases second with ⟨numeral, rfl, rfl⟩ | ⟨_, _, rfl, _⟩
        · rcases first with ⟨marker, rfl, rfl⟩ | ⟨_, none, _⟩
          · obtain ⟨_, _, same, marks⟩ := behind.marked marked
            obtain ⟨rfl, _⟩ := List.cons.inj (pending.symm.trans same)
            have regular := behind.ordered.regular pending (.tail _ (.head _))
            rw [(regular.integer (not_not.mp kind)).1] at made
            cases made
            exact ⟨.some marks (not_not.mp kind), nofun⟩
          · cases none
        · exact absurd (show Token.eof.kind ≠ .int by decide) kind
    · exact ⟨.none, fun _ => unmarked⟩
  · rintro ⟨spells, unmarked⟩
    cases spells with
    | none => exact ⟨lexeme.follow, [], [], rfl, ⟨rfl, rfl⟩, .inr ⟨unmarked rfl, rfl, rfl⟩⟩
    | @some marker numeral marks kind =>
        have regular := behind.ordered.regular pending (.tail _ (.head _))
        have marked : Marked lexeme := marks.imp And.left And.left
        refine ⟨lexeme.follow, [], _, rfl, ⟨rfl, rfl⟩, .inl ⟨marked, marker.token, [marker],
          [numeral], rfl, .inl ⟨marker, rfl, rfl⟩, numeral.token, [numeral], [], rfl,
          .inl ⟨numeral, rfl, rfl⟩, .inr ⟨not_not.mpr kind, numeral.token.integer, [], [], rfl,
            ⟨rfl, ?_⟩, rfl, rfl⟩⟩⟩
        rw [(regular.integer kind).1]
        rfl

/-- The grammar with one more definition. -/
def defined (grammar : Grammar) (nonterminal : Nonterminal) : Grammar where
  table := grammar.table.set nonterminal.name nonterminal
  start := grammar.start <|> some nonterminal.name

theorem recognizes_define (grammar : Grammar) (nonterminal : Nonterminal) :
    (define grammar nonterminal).Recognizes ending Ordered fun front result _ =>
      front = [] ∧ result = defined grammar nonterminal := by
  refine (Recognizes.ite (fun _ => .seq (.note _) fun _ => .seq (.note _) fun _ => .pure _)
    fun _ => .seq (.note _) fun _ => .pure _).congr ?_
  intro reading front result rest ordered pending
  constructor
  · rintro (⟨_, _, _, _, rfl, rfl, _, _, _, rfl, rfl, rfl, rfl⟩ |
      ⟨_, _, _, _, rfl, rfl, rfl, rfl⟩)
    · exact ⟨rfl, rfl⟩
    · exact ⟨rfl, rfl⟩
  · rintro ⟨rfl, rfl⟩
    by_cases known : grammar.contains nonterminal.name = true
    · exact .inl ⟨known, (), [], [], rfl, rfl, (), [], [], rfl, rfl, rfl, rfl⟩
    · exact .inr ⟨known, (), [], [], rfl, rfl, rfl, rfl⟩

/-- A definition with its end: a period or the end of the text. -/
def SpellsDefinitionEnd (ending : Ending) (nonterminal : Nonterminal) (front rest : List Lexeme) :
    Prop :=
  (∃ inner period, front = inner ++ [period] ∧ SpellsDefinition inner nonterminal ∧
    period.token = .punct ".") ∨
  (rest = [] ∧ ending.Closed ∧ SpellsDefinition front nonterminal)

theorem spellsDefinitionEnd_cons {nonterminal : Nonterminal} {lexeme : Lexeme}
    {front rest : List Lexeme} :
    SpellsDefinitionEnd ending nonterminal (lexeme :: front) rest ↔
      ∃ hint depth colon body rules, front = hint ++ colon :: body ∧
        lexeme.token.kind = .ident ∧ lexeme.token.text ≠ contextName ∧
          SpellsHint lexeme hint depth ∧ colon.token = .punct ":" ∧
            SpellsRulesEnd ending rules body rest ∧
              nonterminal = ⟨lexeme.token.text, rules, .empty, depth⟩ := by
  constructor
  · rintro (⟨inner, period, whole, spells, ends⟩ | ⟨ended, closed, spells⟩)
    · cases spells with
      | @mk name colon hint body depth rules kind other hinted begins ruled =>
          obtain ⟨rfl, rfl⟩ := List.cons.inj whole
          exact ⟨hint, depth, colon, body ++ [period], rules, by simp, kind, other, hinted, begins,
            .inl ⟨body, period, rfl, ruled, ends⟩, rfl⟩
    · cases spells with
      | @mk name colon hint body depth rules kind other hinted begins ruled =>
          exact ⟨hint, depth, colon, body, rules, rfl, kind, other, hinted, begins,
            .inr ⟨ended, closed, ruled⟩, rfl⟩
  · rintro ⟨hint, depth, colon, body, rules, rfl, kind, other, hinted, begins, ruled, rfl⟩
    rcases ruled with ⟨inner, period, rfl, ruled, ends⟩ | ⟨ended, closed, ruled⟩
    · exact .inl ⟨lexeme :: (hint ++ colon :: inner), period, by simp,
        .mk kind other hinted begins ruled, ends⟩
    · exact .inr ⟨ended, closed, .mk kind other hinted begins ruled⟩

/-- A token that cannot follow a name as a marker. -/
theorem not_marker_of_ident {token : Token} (kind : token.kind = .ident) :
    token ≠ .punct "!" ∧ token ≠ .punct "#" := by
  constructor
  · rintro rfl
    cases kind
  · rintro rfl
    cases kind

/-- The block of bindings, taken apart as it is read. -/
theorem spellsContext_cons {lexeme : Lexeme} {front : List Lexeme} {entries : List Entry} :
    SpellsContext (lexeme :: front) entries ↔ ∃ hint depth body, front = hint ++ body ∧
      lexeme.token.kind = .ident ∧ lexeme.token.text = contextName ∧
        SpellsHint lexeme hint depth ∧ (SpellsEntries body entries ∨
          ∃ period inner, body = period :: inner ∧ period.token = .punct "." ∧
            SpellsEntries inner entries) := by
  constructor
  · intro spells
    cases spells with
    | plain kind called hinted spells =>
        exact ⟨_, _, _, rfl, kind, called, hinted, .inl spells⟩
    | period kind called hinted ends spells =>
        exact ⟨_, _, _, rfl, kind, called, hinted, .inr ⟨_, _, rfl, ends, spells⟩⟩
  · rintro ⟨hint, depth, body, rfl, kind, called, hinted,
      spells | ⟨period, inner, rfl, ends, spells⟩⟩
    · exact .plain kind called hinted spells
    · exact .period kind called hinted ends spells

/-- Neither bindings nor the period before them begin with a marker. -/
theorem not_marker_of_entries {body : List Lexeme} {entries : List Entry}
    (listed : SpellsEntries body entries ∨ ∃ period inner, body = period :: inner ∧
      period.token = .punct "." ∧ SpellsEntries inner entries) {next : Lexeme}
    {others : List Lexeme} (first : body = next :: others) :
    next.token ≠ .punct "!" ∧ next.token ≠ .punct "#" := by
  rcases listed with listed | ⟨period, inner, rfl, ends, _⟩
  · subst first
    cases listed with
    | cons kind => exact not_marker_of_ident kind
  · obtain ⟨rfl, _⟩ := List.cons.inj first
    rw [ends]
    decide

theorem recognizes_definitionsTurn (grammar : Grammar) (lexeme : Lexeme) :
    (definitionsTurn Registry.default grammar lexeme.token).Recognizes ending (Behind lexeme)
      fun front turn rest =>
        (lexeme.token = .punct ";" ∧ front = [] ∧ turn = .again grammar) ∨
        (∃ nonterminal, SpellsDefinitionEnd ending nonterminal (lexeme :: front) rest ∧
          turn = .again (defined grammar nonterminal)) ∨
        (rest = [] ∧ ending.Closed ∧ ∃ entries table, SpellsContext (lexeme :: front) entries ∧
          bindEntries? grammar.table entries = some table ∧
            turn = .done { grammar with table }) := by
  refine (Recognizes.ite (fun _ => .pure _) fun _ => .ite (fun _ => .reject _) fun _ =>
    (recognizes_depthHint lexeme).bind (fun hint => .ite
      (fun _ => (recognizes_context _).seq fun table => .pure _)
      fun _ => (recognizes_rules _).seq fun rules => (recognizes_define _ _).seq fun grammar =>
        .pure _) fun _ behind => behind.ordered).congr ?_
  intro reading front turn rest behind pending
  constructor
  · rintro (⟨semicolon, rfl, rfl⟩ | ⟨_, ⟨_, none⟩ | ⟨kind, depth, hint, _, rfl, ⟨hinted, _⟩,
      ⟨called, table, body, _, rfl, ⟨rest_eq, closed, entries, spells, bound⟩, rfl, rfl⟩ |
      ⟨other, rules, body, _, rfl, ⟨colon, inner, rfl, begins, ended⟩, _, _, _, rfl,
        ⟨rfl, rfl⟩, rfl, rfl⟩⟩⟩)
    · exact .inl ⟨semicolon, rfl, rfl⟩
    · exact none.elim
    · rw [List.append_nil]
      exact .inr (.inr ⟨rest_eq, closed, entries, table,
        spellsContext_cons.mpr ⟨hint, depth, body, rfl, not_not.mp kind, called, hinted, spells⟩,
        bound, rfl⟩)
    · refine .inr (.inl ⟨_, spellsDefinitionEnd_cons.mpr ⟨hint, depth, colon, inner, rules,
        by simp, not_not.mp kind, other, hinted, begins, ended, rfl⟩, rfl⟩)
  · have plain (kind : lexeme.token.kind = .ident) : lexeme.token ≠ .punct ";" := by
      intro semicolon
      rw [semicolon] at kind
      cases kind
    rintro (⟨semicolon, rfl, rfl⟩ | ⟨nonterminal, ended, rfl⟩ |
      ⟨rfl, closed, entries, table, spells, bound, rfl⟩)
    · exact .inl ⟨semicolon, rfl, rfl⟩
    · obtain ⟨hint, depth, colon, body, rules, rfl, kind, other, hinted, begins, ruled, rfl⟩ :=
        spellsDefinitionEnd_cons.mp ended
      have unmarked : hint = [] → ¬Marked lexeme := by
        rintro rfl
        refine behind.not_marked fun next others same => ?_
        obtain ⟨rfl, _⟩ := List.cons.inj (pending.symm.trans same)
        rw [begins]
        decide
      exact .inr ⟨plain kind, .inr ⟨not_not.mpr kind, depth, hint, colon :: body, rfl,
        ⟨hinted, unmarked⟩, .inr ⟨other, rules, colon :: body, [], by simp,
          ⟨colon, body, rfl, begins, ruled⟩, _, [], [], rfl, ⟨rfl, rfl⟩, rfl, rfl⟩⟩⟩
    · obtain ⟨hint, depth, body, rfl, kind, called, hinted, listed⟩ := spellsContext_cons.mp spells
      have unmarked : hint = [] → ¬Marked lexeme := by
        rintro rfl
        refine behind.not_marked fun next others same => ?_
        exact not_marker_of_entries listed (by simpa using pending.symm.trans same)
      exact .inr ⟨plain kind, .inr ⟨not_not.mpr kind, depth, hint, body, rfl, ⟨hinted, unmarked⟩,
        .inl ⟨called, table, body, [], by simp, ⟨rfl, closed, entries, listed, bound⟩, rfl, rfl⟩⟩⟩

/-- The grammar with the definitions and then the bindings of a source. -/
def extended? (grammar : Grammar) (source : Source) : Option Grammar :=
  let whole := source.definitions.foldl defined grammar
  (bindEntries? whole.table source.entries).map fun table => { whole with table }

theorem spellsSource_nil {source : Source} (spells : SpellsSource [] source) :
    source = ⟨[], []⟩ := by
  generalize empty : ([] : List Lexeme) = front at spells
  cases spells with
  | nil => rfl
  | semicolon stray others => cases empty
  | definition spells ends others => simp at empty
  | last spells =>
      cases spells
      cases empty
  | context spells => cases spells <;> cases empty

theorem spellsSource_cons {lexeme : Lexeme} {tail : List Lexeme} {source : Source}
    (closed : ending.Closed) : SpellsSource (lexeme :: tail) source ↔
      (lexeme.token = .punct ";" ∧ SpellsSource tail source) ∨
      (∃ nonterminal left right others, tail = left ++ right ∧
        SpellsDefinitionEnd ending nonterminal (lexeme :: left) right ∧
          SpellsSource right others ∧
            source = ⟨nonterminal :: others.definitions, others.entries⟩) ∨
      ∃ entries, SpellsContext (lexeme :: tail) entries ∧ source = ⟨[], entries⟩ := by
  constructor
  · intro spells
    generalize whole : lexeme :: tail = front at spells
    cases spells with
    | nil => cases whole
    | semicolon stray others =>
        obtain ⟨rfl, rfl⟩ := List.cons.inj whole
        exact .inl ⟨stray, others⟩
    | @definition inner rest period nonterminal others spells ends later =>
        refine .inr (.inl ⟨nonterminal, ?_⟩)
        cases spells with
        | mk kind other hinted begins ruled =>
            obtain ⟨rfl, rfl⟩ := List.cons.inj whole
            exact ⟨_ ++ [period], rest, others, by simp, .inl ⟨_, period, rfl,
              .mk kind other hinted begins ruled, ends⟩, later, rfl⟩
    | @last inner nonterminal spells =>
        subst whole
        exact .inr (.inl ⟨nonterminal, tail, [], ⟨[], []⟩, by simp, .inr ⟨rfl, closed, spells⟩,
          .nil, rfl⟩)
    | @context inner entries spells =>
        subst whole
        exact .inr (.inr ⟨entries, spells, rfl⟩)
  · rintro (⟨stray, others⟩ | ⟨nonterminal, left, right, others, rfl, ended, later, rfl⟩ |
      ⟨entries, spells, rfl⟩)
    · exact .semicolon stray others
    · rcases ended with ⟨inner, period, whole, spells, ends⟩ | ⟨rfl, _, spells⟩
      · rw [← List.cons_append, whole, List.append_assoc]
        exact .definition spells ends later
      · obtain rfl := spellsSource_nil later
        rw [List.append_nil]
        exact .last spells
    · exact .context spells

theorem recognizes_definitions : (definitions Registry.default).Recognizes ending Ordered
    fun front result rest => rest = [] ∧ ending.Closed ∧ ∃ source, SpellsSource front source ∧
      extended? ⟨.empty, none⟩ source = some result := by
  have loop : ∀ grammar : Grammar, Recognizes
      (eachToken pure (definitionsTurn Registry.default) grammar) ending Ordered
      fun front result rest => rest = [] ∧ ending.Closed ∧ ∃ source, SpellsSource front source ∧
        extended? grammar source = some result := by
    refine Recognizes.eachToken run_pure_iff recognizes_definitionsTurn ?_ ?_
    · intro grammar result rest
      constructor
      · rintro ⟨ended, closed, source, spells, whole⟩
        obtain rfl := spellsSource_nil spells
        cases whole
        exact ⟨ended, closed, rfl⟩
      · rintro ⟨ended, closed, rfl⟩
        exact ⟨ended, closed, ⟨[], []⟩, .nil, rfl⟩
    · intro grammar lexeme tail result rest
      constructor
      · rintro ⟨rfl, closed, source, spells, whole⟩
        rcases (spellsSource_cons closed).mp spells with ⟨semicolon, others⟩ |
          ⟨nonterminal, left, right, others, rfl, ended, later, rfl⟩ | ⟨entries, block, rfl⟩
        · exact .inr ⟨grammar, [], tail, rfl, .inl ⟨semicolon, rfl, rfl⟩, rfl, closed, source,
            others, whole⟩
        · exact .inr ⟨_, left, right, rfl, .inr (.inl ⟨nonterminal, by simpa using ended, rfl⟩),
            rfl, closed, others, later, whole⟩
        · obtain ⟨table, bound, rfl⟩ := Option.map_eq_some_iff.mp whole
          exact .inl (.inr (.inr ⟨rfl, closed, entries, table, block, bound, rfl⟩))
      · rintro ((⟨_, _, other⟩ | ⟨_, _, other⟩ |
            ⟨rfl, closed, entries, table, block, bound, done⟩) |
          ⟨further, left, right, rfl, turned, rfl, closed, source, spells, whole⟩)
        · cases other
        · cases other
        · cases done
          refine ⟨rfl, closed, ⟨[], entries⟩, .context block, ?_⟩
          exact Option.map_eq_some_iff.mpr ⟨table, bound, rfl⟩
        · rcases turned with ⟨semicolon, rfl, again⟩ | ⟨nonterminal, ended, again⟩ |
            ⟨_, _, _, _, _, _, other⟩
          · cases again
            exact ⟨rfl, closed, source, .semicolon semicolon spells, whole⟩
          · cases again
            exact ⟨rfl, closed, ⟨nonterminal :: source.definitions, source.entries⟩,
              (spellsSource_cons closed).mpr (.inr (.inl ⟨nonterminal, left, right, source, rfl,
                by simpa using ended, spells, rfl⟩)), whole⟩
          · cases other
  exact loop ⟨.empty, none⟩

/-! ## The grammar of a source -/

theorem setAll_append {α : Type} (table : Table α) (first second : List (String × α)) :
    setAll table (first ++ second) = setAll (setAll table first) second :=
  List.foldl_append

theorem table_foldl_defined (definitions : List Nonterminal) (grammar : Grammar) :
    (definitions.foldl defined grammar).table = setAll grammar.table
      (definitions.map fun nonterminal => (nonterminal.name, nonterminal)) := by
  induction definitions generalizing grammar with
  | nil => rfl
  | cons nonterminal rest ih => exact ih (defined grammar nonterminal)

theorem start_foldl_defined (definitions : List Nonterminal) (grammar : Grammar) :
    (definitions.foldl defined grammar).start =
      (grammar.start <|> definitions.head?.map Nonterminal.name) := by
  induction definitions generalizing grammar with
  | nil => cases h : grammar.start <;> simp [h]
  | cons nonterminal rest ih =>
      rw [List.foldl_cons, ih]
      cases h : grammar.start <;> simp [defined, h]

/-- Every nonterminal of the table is stored under its own name. -/
def Named (table : Table Nonterminal) : Prop :=
  ∀ key nonterminal, table.get? key = some nonterminal → nonterminal.name = key

theorem Named.set {table : Table Nonterminal} (named : Named table) (nonterminal : Nonterminal) :
    Named (table.set nonterminal.name nonterminal) := by
  intro key other found
  rw [Table.get?_set] at found
  split at found
  · cases found
    exact Eq.symm ‹_›
  · exact named key other found

theorem named_setAll {definitions : List Nonterminal} {table : Table Nonterminal}
    (named : Named table) :
    Named (setAll table (definitions.map fun nonterminal => (nonterminal.name, nonterminal))) := by
  induction definitions generalizing table with
  | nil => exact named
  | cons nonterminal rest ih => exact ih (named.set nonterminal)

theorem contains_set {α : Type} (table : Table α) (name other : String) (value : α) :
    (table.set name value).contains other = true ↔ other = name ∨ table.contains other = true := by
  unfold Table.contains
  rw [Table.get?_set]
  split <;> simp_all

theorem contains_setAll (definitions : List Nonterminal) (table : Table Nonterminal)
    (name : String) :
    (setAll table (definitions.map fun nonterminal => (nonterminal.name, nonterminal))).contains
      name = true ↔ table.contains name = true ∨
        ∃ nonterminal ∈ definitions, nonterminal.name = name := by
  induction definitions generalizing table with
  | nil => simp [setAll]
  | cons nonterminal rest ih =>
      refine (ih (table.set nonterminal.name nonterminal)).trans ?_
      rw [contains_set]
      simp only [List.mem_cons, exists_eq_or_imp]
      rw [@eq_comm _ nonterminal.name, or_assoc, or_left_comm]

/-- The table with all bindings that the entries give to its nonterminals. -/
def bound (table : Table Nonterminal) (entries : List Entry) : Table Nonterminal :=
  table.map fun nonterminal => { nonterminal with
    defaults := setAll nonterminal.defaults (bindingsOf entries nonterminal.name) }

theorem bound_nil (table : Table Nonterminal) : bound table [] = table := by
  refine Table.ext_get? (Table.keys_map _ _) fun name => ?_
  rw [bound, Table.get?_map]
  exact Option.map_id'

theorem bindingsOf_cons (name other : String) (bindings : List (String × Value))
    (entries : List Entry) : bindingsOf ((name, bindings) :: entries) other =
      if name = other then bindings ++ bindingsOf entries other else bindingsOf entries other := by
  by_cases same : name = other
  · simp [bindingsOf, same]
  · simp [bindingsOf, same]

/-- Bindings may be added to a nonterminal at once or in two steps. -/
theorem bound_set {table : Table Nonterminal} (named : Named table) {nonterminal : Nonterminal}
    (found : table.get? nonterminal.name = some nonterminal) (bindings : List (String × Value))
    (entries : List Entry) :
    bound (table.set nonterminal.name
        { nonterminal with defaults := setAll nonterminal.defaults bindings }) entries =
      bound table ((nonterminal.name, bindings) :: entries) := by
  have known : nonterminal.name ∈ table.keys :=
    (table.contains_iff_mem_keys _).mp (Option.isSome_iff_exists.mpr ⟨_, found⟩)
  refine Table.ext_get? ?_ fun name => ?_
  · rw [bound, bound, Table.keys_map, Table.keys_map, Table.keys_set, if_pos known]
  · rw [bound, bound, Table.get?_map, Table.get?_map, Table.get?_set]
    by_cases same : name = nonterminal.name
    · rw [if_pos same, same, found]
      simp [bindingsOf_cons, setAll_append]
    · rw [if_neg same]
      cases other : table.get? name with
      | none => rfl
      | some value =>
          have apart : nonterminal.name ≠ value.name := by
            rw [named name value other]
            exact Ne.symm same
          simp [bindingsOf_cons, apart]

theorem bindEntries?_eq_some_iff {table result : Table Nonterminal} {entries : List Entry}
    (named : Named table) : bindEntries? table entries = some result ↔
      (∀ entry ∈ entries, table.contains entry.1 = true) ∧ bound table entries = result := by
  induction entries generalizing table with
  | nil => simp [bindEntries?, bound_nil]
  | cons entry rest ih =>
      obtain ⟨name, bindings⟩ := entry
      cases found : table.get? name with
      | none => simp [bindEntries?, found, Table.contains]
      | some nonterminal =>
          obtain rfl := named name nonterminal found
          have known : table.contains nonterminal.name = true := by
            rw [Table.contains, found]
            rfl
          have kept (other : String) : (table.set nonterminal.name
              { nonterminal with defaults := setAll nonterminal.defaults bindings }).contains
                other = true ↔ table.contains other = true := by
            rw [contains_set]
            exact ⟨fun either => either.elim (fun same => same ▸ known) id, .inr⟩
          have further : bindEntries? (table.set nonterminal.name
              { nonterminal with defaults := setAll nonterminal.defaults bindings }) rest =
                some result ↔ _ :=
            ih (named.set { nonterminal with defaults := setAll nonterminal.defaults bindings })
          rw [bound_set named found] at further
          rw [bindEntries?, found, Option.bind_some]
          refine further.trans ?_
          simp [kept, known]

theorem isEmpty_of_contains {α : Type} {table : Table α} {name : String}
    (known : table.contains name = true) : table.isEmpty = false := by
  have member := (table.contains_iff_mem_keys name).mp known
  refine Bool.eq_false_iff.mpr fun empty => ?_
  rw [(Table.isEmpty_iff_keys_eq_nil table).mp empty] at member
  cases member

theorem grammar_eq (source : Source) : source.grammar =
    { source.definitions.foldl defined ⟨.empty, none⟩ with
      table := bound (source.definitions.foldl defined ⟨.empty, none⟩).table source.entries } := by
  show source.grammar = ⟨_, (source.definitions.foldl defined ⟨.empty, none⟩).start⟩
  rw [table_foldl_defined, start_foldl_defined]
  rfl

/-- Reading on from the empty grammar gives the grammar of a source, if the source is proper. -/
theorem extended?_eq_some_iff (source : Source) (result : Grammar) :
    (extended? ⟨.empty, none⟩ source = some result ∧ result.table.isEmpty = false) ↔
      source.Proper ∧ source.grammar = result := by
  have named : Named (source.definitions.foldl defined ⟨.empty, none⟩).table := by
    rw [table_foldl_defined]
    exact named_setAll nofun
  have known (name : String) :
      (source.definitions.foldl defined ⟨.empty, none⟩).table.contains name = true ↔
        ∃ nonterminal ∈ source.definitions, nonterminal.name = name := by
    rw [table_foldl_defined, contains_setAll]
    simp [Table.contains]
  constructor
  · rintro ⟨whole, filled⟩
    obtain ⟨table, added, rfl⟩ := Option.map_eq_some_iff.mp whole
    obtain ⟨declared, rfl⟩ := (bindEntries?_eq_some_iff named).mp added
    refine ⟨⟨fun none => ?_, fun entry member => (known _).mp (declared entry member)⟩,
      grammar_eq source⟩
    rw [none] at filled
    cases filled
  · rintro ⟨⟨nonempty, declared⟩, rfl⟩
    have added := (bindEntries?_eq_some_iff named).mpr
      ⟨fun entry member => (known _).mpr (declared entry member), rfl⟩
    refine ⟨?_, ?_⟩
    · rw [grammar_eq]
      exact Option.map_eq_some_iff.mpr ⟨_, added, rfl⟩
    · obtain ⟨first, others, whole⟩ := List.exists_cons_of_ne_nil nonempty
      have entered := (known first.name).mpr ⟨first, whole ▸ List.mem_cons_self, rfl⟩
      rw [grammar_eq]
      refine @isEmpty_of_contains _ (bound _ _) first.name ?_
      rw [bound, Table.contains, Table.get?_map, Option.isSome_map]
      exact entered

theorem recognizes_grammar : (grammar Registry.default).Recognizes ending Ordered
    fun front result rest => rest = [] ∧ ending.Closed ∧ ∃ source, SpellsSource front source ∧
      source.Proper ∧ source.grammar = result := by
  refine (recognizes_definitions.seq fun grammar => .ite (fun _ => .reject _)
    fun _ => .pure _).congr fun _ front result rest _ _ => ⟨?_, ?_⟩
  · rintro ⟨_, _, _, rfl, ⟨ended, closed, source, spells, whole⟩, ⟨_, none⟩ | ⟨filled, rfl, rfl⟩⟩
    · exact none.elim
    · have proper := (extended?_eq_some_iff source result).mp ⟨whole, by simpa using filled⟩
      exact ⟨ended, closed, source, by simpa using spells, proper⟩
  · rintro ⟨rfl, closed, source, spells, proper⟩
    obtain ⟨whole, filled⟩ := (extended?_eq_some_iff source result).mpr proper
    exact ⟨result, front, [], (List.append_nil _).symm, ⟨rfl, closed, source, spells, whole⟩,
      .inr ⟨by simp [filled], rfl, rfl⟩⟩

end PhraseGrammar.Reader

namespace PhraseGrammar.Grammar

open Syntax

/-- A text whose lexemes spell a proper source is read as the grammar it stands for. -/
theorem read_of_spells {text : String} (short : ∀ lexeme ∈ (lexemes text).1, lexeme.token.Short)
    (closed : (lexemes text).2.Closed) {source : Source}
    (spells : SpellsSource (lexemes text).1 source) (proper : source.Proper) :
    (read Registry.default text).1 = .ok source.grammar := by
  have sees : (Reading.ofText text).Sees ((lexemes text).1 ++ []) (lexemes text).2 :=
    ⟨(List.append_nil _).symm, rfl⟩
  obtain ⟨after, ran, _⟩ := Reader.recognizes_grammar.complete sees (orderly_lexemes short)
    ⟨rfl, closed, source, spells, proper, rfl⟩
  exact congrArg Prod.fst ran

/--
A text whose integers are short is read as a grammar exactly if nothing in it is
left open and its lexemes spell a proper source that stands for the grammar.
-/
theorem read_eq_ok_iff {text : String} (short : ∀ lexeme ∈ (lexemes text).1, lexeme.token.Short)
    (grammar : Grammar) : (read Registry.default text).1 = .ok grammar ↔
      (lexemes text).2.Closed ∧ ∃ source, SpellsSource (lexemes text).1 source ∧
        source.Proper ∧ source.grammar = grammar := by
  constructor
  · intro read
    have sees : (Reading.ofText text).Sees (lexemes text).1 (lexemes text).2 := ⟨rfl, rfl⟩
    have ordered : Reader.Ordered (.ofText text) := orderly_lexemes short
    obtain ⟨front, rest, whole, _, rfl, closed, spelled⟩ :=
      Reader.recognizes_grammar.sound sees ordered (Prod.ext read rfl)
    rw [whole, List.append_nil]
    exact ⟨closed, spelled⟩
  · rintro ⟨closed, source, spells, proper, rfl⟩
    exact read_of_spells short closed spells proper

/-- A name defined twice, with a depth, a range and default bindings, and one with a surrogate. -/
def various : Grammar where
  table := ⟨[
    ("S", ⟨"S", [[.leaf (.range [-1, 3]), .leaf (.reference "n"), .unresolved "T"], []],
      (Table.empty.set "n" (.integer (-2))).set "c" (.integer 120), some 2⟩),
    ("T", ⟨"T", [[.leaf (.constant "NL" "\n"), .leaf (.constant "String" "a\tb"),
      .leaf (.constant "Char" ⟨[⟨0xdfff, by decide⟩]⟩)]], .empty, none⟩)],
    by decide⟩
  start := some "S"

def variousText : String :=
  ";S : T . T : NL \"a\\tb\" '\\udfff' . ; S#0x2 : range(-1, 3) $n T ; | . " ++
    "Context. S : n = -2, c = 'x' ."

theorem read_eq_ok_iff_various :
    (∀ lexeme ∈ (lexemes variousText).1, lexeme.token.Short) ∧
      (read Registry.default variousText).1 = .ok various ∧
        ∃ source, SpellsSource (lexemes variousText).1 source ∧ source.Proper ∧
          source.grammar = various :=
  have short : ∀ lexeme ∈ (lexemes variousText).1, lexeme.token.Short := by decide +kernel
  have accepted : (read Registry.default variousText).1 = .ok various := by decide +kernel
  ⟨short, accepted, ((read_eq_ok_iff short various).mp accepted).2⟩

end PhraseGrammar.Grammar
