import PhraseGrammar.Proofs.Rules.Recognition
import PhraseGrammar.Proofs.Rules.Syntax

/-!
# The recognition of default bindings

The readers of values, bindings and the block of default bindings recognize
these notions of the syntax. The block has an effect on the table only if all
its names are declared.
-/

namespace PhraseGrammar.Reader

open Syntax

variable {ending : Ending}

/-- What a number token gives, with a minus in front or without. -/
def NumberValue (negative : Bool) (token : Token) (value : Value) : Prop :=
  (token.kind = .int ∧ ∃ size, Numeral.readInteger? token.text = some size ∧
    value = .integer (if negative then -size else size)) ∨
  (token.kind = .float ∧ ∃ size, Binary64.read? token.text = some size ∧
    value = .real (if negative then size.neg else size))

theorem numberValue_iff {token : Token} (regular : token.Regular) (negative : Bool)
    (value : Value) : NumberValue negative token value ↔
      (token.kind = .int ∧ value = .integer (if negative then -token.integer else token.integer)) ∨
      (token.kind = .float ∧ value = .real (if negative then token.size.neg else token.size)) := by
  constructor
  · rintro (⟨kind, size, read, rfl⟩ | ⟨kind, size, read, rfl⟩)
    · obtain rfl := Option.some.inj (read.symm.trans (regular.integer kind).1)
      exact .inl ⟨kind, rfl⟩
    · obtain rfl := Option.some.inj (read.symm.trans (regular.float kind))
      exact .inr ⟨kind, rfl⟩
  · rintro (⟨kind, rfl⟩ | ⟨kind, rfl⟩)
    · exact .inl ⟨kind, _, (regular.integer kind).1, rfl⟩
    · exact .inr ⟨kind, _, regular.float kind, rfl⟩

theorem recognizes_signedNumber (negative : Bool) (token : Token) :
    (signedNumber negative token).Recognizes ending Ordered fun front value _ =>
      front = [] ∧ NumberValue negative token value := by
  unfold signedNumber NumberValue
  split
  · rename_i kind
    refine (Recognizes.seq (.still _) fun size => .pure _).congr fun _ front value rest _ _ => ?_
    cases Numeral.readInteger? token.text with
    | none => simp [kind]
    | some size => simp [kind]
  · rename_i kind
    cases Binary64.read? token.text with
    | none => exact (Recognizes.fail _).congr fun _ front value rest _ _ => by simp [kind]
    | some size => exact (Recognizes.pure _).congr fun _ front value rest _ _ => by simp [kind]
  · rename_i whole fractional
    refine (Recognizes.reject _).congr fun _ front value rest _ _ => ⟨False.elim, ?_⟩
    rintro ⟨_, ⟨kind, _⟩ | ⟨kind, _⟩⟩
    · exact whole kind
    · exact fractional kind

/-- What a token gives that is no minus. -/
def TokenValue (token : Token) (value : Value) : Prop :=
  (token.kind = .string ∧ ∃ text, Literal.unquote token.text = .ok text ∧ value = .text text) ∨
  (token.kind = .char ∧ ∃ text, Literal.unquote token.text = .ok text ∧
    codePoint text = .ok value) ∨
  NumberValue false token value

theorem recognizes_tokenValue (token : Token) : Recognizes
    (match token.kind with
      | .string => (ofExcept ((Literal.unquote token.text).map Value.text)).orAtPlace
      | .char => (ofExcept ((Literal.unquote token.text).bind codePoint)).orAtPlace
      | .int | .float => signedNumber false token
      | _ => reject (.invalidContextValue token)) ending Ordered
    fun front value _ => front = [] ∧ TokenValue token value := by
  unfold TokenValue
  have other (sort : Kind) (kind : token.kind = sort) (plain : sort ≠ .int ∧ sort ≠ .float)
      (value : Value) : ¬NumberValue false token value := by
    rintro (⟨same, _⟩ | ⟨same, _⟩)
    · exact plain.1 (kind.symm.trans same)
    · exact plain.2 (kind.symm.trans same)
  cases kind : token.kind with
  | string =>
      refine (Recognizes.still _).orAtPlace.congr fun _ front value rest _ _ => ?_
      cases Literal.unquote token.text with
      | error failure => simp [Except.map, other _ kind]
      | ok text => simp [Except.map, other _ kind, eq_comm]
  | char =>
      refine (Recognizes.still _).orAtPlace.congr fun _ front value rest _ _ => ?_
      cases Literal.unquote token.text with
      | error failure => simp [Except.bind, other _ kind]
      | ok text => simp [Except.bind, other _ kind]
  | int =>
      exact (recognizes_signedNumber false token).congr fun _ front value rest _ _ => by simp
  | float =>
      exact (recognizes_signedNumber false token).congr fun _ front value rest _ _ => by simp
  | ident =>
      exact (Recognizes.reject _).congr fun _ front value rest _ _ => by simp [other _ kind]
  | punct =>
      exact (Recognizes.reject _).congr fun _ front value rest _ _ => by simp [other _ kind]
  | eof =>
      exact (Recognizes.reject _).congr fun _ front value rest _ _ => by simp [other _ kind]

theorem not_numberValue_eof (negative : Bool) (value : Value) :
    ¬NumberValue negative .eof value := by
  rintro (⟨kind, _⟩ | ⟨kind, _⟩) <;> cases kind

theorem not_tokenValue_eof (value : Value) : ¬TokenValue .eof value := by
  rintro (⟨kind, _⟩ | ⟨kind, _⟩ | numeric)
  · cases kind
  · cases kind
  · exact not_numberValue_eof false value numeric

/-- One token, or a number behind a minus. -/
theorem recognizes_signedValue : contextValue.Recognizes ending Ordered fun front value _ =>
    (∃ sign number, front = [sign, number] ∧ sign.token = .punct "-" ∧
      NumberValue true number.token value) ∨
    ∃ lexeme, front = [lexeme] ∧ lexeme.token ≠ .punct "-" ∧ TokenValue lexeme.token value := by
  refine (Recognizes.seq .next fun token => .ite
    (fun _ => .seq .next fun number => recognizes_signedNumber true number)
    fun _ => recognizes_tokenValue token).congr fun _ front value rest _ _ => ⟨?_, ?_⟩
  · rintro ⟨_, _, _, rfl, ⟨lexeme, rfl, rfl⟩ | ⟨_, _, rfl, _⟩, ended⟩
    · rcases ended with ⟨minus, _, _, _, rfl, ⟨number, rfl, rfl⟩ | ⟨_, _, rfl, _⟩, rfl, numeric⟩ |
        ⟨unsigned, rfl, known⟩
      · exact .inl ⟨lexeme, number, rfl, minus, numeric⟩
      · exact absurd numeric (not_numberValue_eof true value)
      · exact .inr ⟨lexeme, rfl, unsigned, known⟩
    · rcases ended with ⟨minus, _⟩ | ⟨_, _, known⟩
      · cases minus
      · exact absurd known (not_tokenValue_eof value)
  · rintro (⟨sign, number, rfl, minus, numeric⟩ | ⟨lexeme, rfl, unsigned, known⟩)
    · exact ⟨sign.token, [sign], [number], rfl, .inl ⟨sign, rfl, rfl⟩, .inl ⟨minus, number.token,
        [number], [], rfl, .inl ⟨number, rfl, rfl⟩, rfl, numeric⟩⟩
    · exact ⟨lexeme.token, [lexeme], [], rfl, .inl ⟨lexeme, rfl, rfl⟩, .inr ⟨unsigned, rfl, known⟩⟩

theorem recognizes_contextValue : contextValue.Recognizes ending Ordered fun front value _ =>
    SpellsValue front value := by
  refine recognizes_signedValue.congr fun reading front value rest ordered pending => ?_
  have regular (lexeme : Lexeme) (member : lexeme ∈ front) := ordered.regular pending member
  have unsigned {token : Token} {kind : Kind} (same : token.kind = kind) (other : kind ≠ .punct) :
      token ≠ .punct "-" := by
    rintro rfl
    exact other same.symm
  constructor
  · rintro (⟨sign, number, rfl, minus, numeric⟩ | ⟨lexeme, rfl, _, known⟩)
    · have second := regular number (.tail _ (.head _))
      rcases (numberValue_iff second true value).mp numeric with ⟨kind, rfl⟩ | ⟨kind, rfl⟩
      · exact .integer (.minus minus kind)
      · exact .minus minus kind
    · have first := regular lexeme (.head _)
      rcases known with ⟨kind, text, decodes, rfl⟩ | ⟨kind, text, decodes, coded⟩ | numeric
      · exact .text kind decodes
      · obtain ⟨code, single⟩ := first.char kind decodes
        cases text
        cases single
        cases coded
        exact .char kind decodes
      · rcases (numberValue_iff first false value).mp numeric with ⟨kind, rfl⟩ | ⟨kind, rfl⟩
        · exact .integer (.plain kind)
        · exact .real kind
  · intro spells
    cases spells with
    | text kind decodes =>
        exact .inr ⟨_, rfl, unsigned kind (by decide), .inl ⟨kind, _, decodes, rfl⟩⟩
    | char kind decodes =>
        exact .inr ⟨_, rfl, unsigned kind (by decide), .inr (.inl ⟨kind, _, decodes, rfl⟩)⟩
    | integer spells =>
        cases spells with
        | plain kind =>
            exact .inr ⟨_, rfl, unsigned kind (by decide), .inr (.inr
              ((numberValue_iff (regular _ (.head _)) false _).mpr (.inl ⟨kind, rfl⟩)))⟩
        | minus signed kind =>
            exact .inl ⟨_, _, rfl, signed,
              (numberValue_iff (regular _ (.tail _ (.head _))) true _).mpr (.inl ⟨kind, rfl⟩)⟩
    | real kind =>
        exact .inr ⟨_, rfl, unsigned kind (by decide), .inr (.inr
          ((numberValue_iff (regular _ (.head _)) false _).mpr (.inr ⟨kind, rfl⟩)))⟩
    | minus signed kind =>
        exact .inl ⟨_, _, rfl, signed,
          (numberValue_iff (regular _ (.tail _ (.head _))) true _).mpr (.inr ⟨kind, rfl⟩)⟩

theorem recognizes_bindingsTurn (name : String) (defaults : Table Value) (lexeme : Lexeme) :
    (bindingsTurn name defaults lexeme.token).Recognizes ending (Behind lexeme)
      fun front turn _ => lexeme.token.kind = .ident ∧ ∃ equals inner mark value,
        front = equals :: (inner ++ [mark]) ∧ equals.token = .punct "=" ∧
          SpellsValue inner value ∧
            ((mark.token = .punct "." ∧ turn = .done (defaults.set lexeme.token.text value)) ∨
              (mark.token = .punct "," ∧ turn = .again (defaults.set lexeme.token.text value))) := by
  refine (Recognizes.ite (fun _ => .reject _) fun _ => .of_ordered (.seq (.expect "=") fun _ =>
    recognizes_contextValue.seq fun value => .seq .next fun mark => .ite (fun _ => .pure _)
      fun _ => .ite (fun _ => .pure _) fun _ => .reject _) lexeme).congr ?_
  intro reading front turn rest behind pending
  constructor
  · rintro (⟨_, none⟩ | ⟨kind, _, _, _, rfl, ⟨equals, rfl, binds⟩, value, inner, _, rfl, spells, _,
      _, _, rfl, read, ended⟩)
    · exact none.elim
    · rcases read with ⟨mark, rfl, rfl⟩ | ⟨_, _, rfl, _⟩
      · rcases ended with ⟨period, rfl, rfl⟩ | ⟨_, ⟨comma, rfl, rfl⟩ | ⟨_, none⟩⟩
        · exact ⟨not_not.mp kind, equals, inner, mark, value, by simp, binds, spells,
            .inl ⟨period, rfl⟩⟩
        · exact ⟨not_not.mp kind, equals, inner, mark, value, by simp, binds, spells,
            .inr ⟨comma, rfl⟩⟩
        · exact none.elim
      · rcases ended with ⟨period, _⟩ | ⟨_, ⟨comma, _⟩ | ⟨_, none⟩⟩
        · cases period
        · cases comma
        · exact none.elim
  · rintro ⟨kind, equals, inner, mark, value, rfl, binds, spells, ended⟩
    refine .inr ⟨not_not.mpr kind, (), [equals], inner ++ [mark], rfl, ⟨equals, rfl, binds⟩, value,
      inner, [mark], rfl, spells, mark.token, [mark], [], rfl, .inl ⟨mark, rfl, rfl⟩, ?_⟩
    rcases ended with ⟨period, rfl⟩ | ⟨comma, rfl⟩
    · exact .inl ⟨period, rfl, rfl⟩
    · exact .inr ⟨by rw [comma]; decide, .inl ⟨comma, rfl, rfl⟩⟩

theorem recognizes_bindings (name : String) (defaults : Table Value) :
    (bindings name defaults).Recognizes ending Ordered fun front result _ =>
      ∃ inner period pairs, front = inner ++ [period] ∧ SpellsBindings inner pairs ∧
        period.token = .punct "." ∧ result = setAll defaults pairs := by
  revert defaults
  refine Recognizes.eachToken (fun _ => run_reject_iff _) (recognizes_bindingsTurn name) ?_ ?_
  · intro defaults result rest
    simp
  · intro defaults lexeme tail result rest
    constructor
    · rintro ⟨inner, period, pairs, whole, spells, ends, rfl⟩
      cases spells with
      | last kind binds spells =>
          obtain ⟨rfl, rfl⟩ := List.cons.inj whole
          exact .inl ⟨kind, _, _, period, _, rfl, binds, spells, .inl ⟨ends, rfl⟩⟩
      | @more _ equals comma front rest value pairs kind binds spells parts others =>
          obtain ⟨rfl, rfl⟩ := List.cons.inj whole
          exact .inr ⟨_, equals :: (front ++ [comma]), rest ++ [period], by simp,
            ⟨kind, equals, front, comma, value, rfl, binds, spells, .inr ⟨parts, rfl⟩⟩,
            rest, period, pairs, rfl, others, ends, rfl⟩
    · rintro (⟨kind, equals, inner, mark, value, rfl, binds, spells, ⟨ends, done⟩ | ⟨_, other⟩⟩ |
        ⟨further, _, _, rfl, ⟨kind, equals, inner, mark, value, rfl, binds, spells,
          ⟨_, other⟩ | ⟨parts, again⟩⟩, later, period, pairs, rfl, others, ends, rfl⟩)
      · cases done
        exact ⟨lexeme :: equals :: inner, mark, _, rfl, .last kind binds spells, ends, rfl⟩
      · cases other
      · cases other
      · cases again
        exact ⟨lexeme :: equals :: (inner ++ mark :: later), period, _, by simp,
          .more kind binds spells parts others, ends, rfl⟩

/-! ## The block -/

/-- Bindings added to the nonterminals they are given to, all of which have to be there. -/
def bindEntries? (table : Table Nonterminal) : List Entry → Option (Table Nonterminal)
  | [] => some table
  | (name, bindings) :: rest =>
      (table.get? name).bind fun nonterminal =>
        let defaults := setAll nonterminal.defaults bindings
        bindEntries? (table.set name { nonterminal with defaults }) rest

/-- The bindings of a nonterminal, entered into the table. -/
theorem recognizes_declared (table : Table Nonterminal) (name : String) : Recognizes
    (match table.get? name with
      | none => reject (.undeclaredContext name)
      | some nonterminal => do
          let defaults ← bindings name nonterminal.defaults
          return (Turn.again (table.set name { nonterminal with defaults }) :
            Turn (Table Nonterminal) (Table Nonterminal))) ending Ordered
    fun front turn _ => ∃ inner period pairs nonterminal, front = inner ++ [period] ∧
      SpellsBindings inner pairs ∧ period.token = .punct "." ∧
        table.get? name = some nonterminal ∧ turn = .again (table.set name
          { nonterminal with defaults := setAll nonterminal.defaults pairs }) := by
  cases table.get? name with
  | none => exact (Recognizes.reject _).congr fun _ front turn rest _ _ => by simp
  | some nonterminal =>
      refine ((recognizes_bindings name nonterminal.defaults).seq fun defaults =>
        .pure _).congr fun _ front turn rest _ _ => ⟨?_, ?_⟩
      · rintro ⟨_, _, _, rfl, ⟨inner, period, pairs, rfl, spells, ends, rfl⟩, rfl, rfl⟩
        exact ⟨inner, period, pairs, nonterminal, by simp, spells, ends, rfl, rfl⟩
      · rintro ⟨inner, period, pairs, _, rfl, spells, ends, same, rfl⟩
        cases same
        exact ⟨_, _, [], (List.append_nil _).symm, ⟨inner, period, pairs, rfl, spells, ends, rfl⟩,
          rfl, rfl⟩

theorem recognizes_contextTurn (table : Table Nonterminal) (lexeme : Lexeme) :
    (contextTurn table lexeme.token).Recognizes ending (Behind lexeme)
      fun front turn _ => lexeme.token.kind = .ident ∧ ∃ colon inner period pairs nonterminal,
        front = colon :: (inner ++ [period]) ∧ colon.token = .punct ":" ∧
          SpellsBindings inner pairs ∧ period.token = .punct "." ∧
            table.get? lexeme.token.text = some nonterminal ∧
              turn = .again (table.set lexeme.token.text
                { nonterminal with defaults := setAll nonterminal.defaults pairs }) := by
  refine (Recognizes.ite (fun _ => .reject _) fun _ => .of_ordered (.seq (.expect ":") fun _ =>
    recognizes_declared table lexeme.token.text) lexeme).congr ?_
  intro reading front turn rest behind pending
  constructor
  · rintro (⟨_, none⟩ | ⟨kind, _, _, _, rfl, ⟨colon, rfl, begins⟩, inner, period, pairs,
      nonterminal, rfl, known⟩)
    · exact none.elim
    · exact ⟨not_not.mp kind, colon, inner, period, pairs, nonterminal, rfl, begins, known⟩
  · rintro ⟨kind, colon, inner, period, pairs, nonterminal, rfl, begins, known⟩
    exact .inr ⟨not_not.mpr kind, (), [colon], inner ++ [period], rfl, ⟨colon, rfl, begins⟩,
      inner, period, pairs, nonterminal, rfl, known⟩

theorem recognizes_entries (table : Table Nonterminal) :
    (eachToken pure contextTurn table).Recognizes ending Ordered fun front result rest =>
      rest = [] ∧ ending.Closed ∧ ∃ entries, SpellsEntries front entries ∧
        bindEntries? table entries = some result := by
  revert table
  refine Recognizes.eachToken run_pure_iff recognizes_contextTurn ?_ ?_
  · intro table result rest
    constructor
    · rintro ⟨ended, closed, entries, spells, bound⟩
      cases spells
      cases bound
      exact ⟨ended, closed, rfl⟩
    · rintro ⟨ended, closed, rfl⟩
      exact ⟨ended, closed, [], .nil, rfl⟩
  · intro table lexeme tail result rest
    constructor
    · rintro ⟨rfl, closed, entries, spells, bound⟩
      cases spells with
      | @cons _ colon period front later pairs entries kind begins spells ends others =>
          obtain ⟨nonterminal, found, further⟩ := Option.bind_eq_some_iff.mp bound
          exact .inr ⟨_, colon :: (front ++ [period]), later, by simp, ⟨kind, colon, front, period,
            pairs, nonterminal, rfl, begins, spells, ends, found, rfl⟩, rfl, closed, entries,
            others, further⟩
    · rintro (⟨_, _, _, _, _, _, _, _, _, _, _, other⟩ | ⟨further, _, later, rfl,
        ⟨kind, colon, inner, period, pairs, nonterminal, rfl, begins, spells, ends, found, again⟩,
          rfl, closed, entries, others, bound⟩)
      · cases other
      · cases again
        refine ⟨rfl, closed, (lexeme.token.text, pairs) :: entries, ?_, ?_⟩
        · rw [List.cons_append, List.append_assoc]
          exact .cons kind begins spells ends others
        · rw [bindEntries?, found]
          exact bound

theorem recognizes_skipPeriod : skipPeriod.Recognizes ending Ordered fun front _ rest =>
    (∃ period, front = [period] ∧ period.token = .punct ".") ∨
      (front = [] ∧ ((∃ lexeme others, rest = lexeme :: others ∧ lexeme.token ≠ .punct ".") ∨
        (rest = [] ∧ ending.Closed))) := by
  refine (Recognizes.seq .peek fun mark => .ite (fun _ => .seq .next fun _ => .pure _)
    fun _ => .pure _).congr fun _ front value rest _ _ => ⟨?_, ?_⟩
  · rintro ⟨mark, _, behind, rfl, ⟨rfl, seen⟩, ended⟩
    rcases ended with ⟨period, _, _, _, rfl, read, rfl, _⟩ | ⟨other, rfl, _⟩
    · rcases read with ⟨lexeme, rfl, _⟩ | ⟨rfl, ended, _⟩
      · rcases seen with ⟨_, _, same, rfl⟩ | ⟨none, _⟩
        · obtain ⟨rfl, _⟩ := List.cons.inj same
          exact .inl ⟨lexeme, rfl, period⟩
        · cases none
      · rcases seen with ⟨_, _, same, _⟩ | ⟨_, rfl, _⟩
        · have empty : rest = [] := ended
          rw [empty] at same
          cases same
        · cases period
    · refine .inr ⟨rfl, ?_⟩
      rcases seen with ⟨lexeme, others, same, rfl⟩ | ⟨ended, _, closed⟩
      · exact .inl ⟨lexeme, others, same, other⟩
      · exact .inr ⟨ended, closed⟩
  · rintro (⟨period, rfl, ends⟩ | ⟨rfl, ⟨lexeme, others, rfl, other⟩ | ⟨rfl, closed⟩⟩)
    · exact ⟨period.token, [], [period], rfl, ⟨rfl, .inl ⟨period, rest, rfl, rfl⟩⟩,
        .inl ⟨ends, period.token, [period], [], rfl, .inl ⟨period, rfl, rfl⟩, rfl, rfl⟩⟩
    · exact ⟨lexeme.token, [], [], rfl, ⟨rfl, .inl ⟨lexeme, others, rfl, rfl⟩⟩,
        .inr ⟨other, rfl, rfl⟩⟩
    · exact ⟨.eof, [], [], rfl, ⟨rfl, .inr ⟨rfl, rfl, closed⟩⟩, .inr ⟨by decide, rfl, rfl⟩⟩

/-- The first token of the entries is no period. -/
theorem spellsEntries_head {front : List Lexeme} {entries : List Entry}
    (spells : SpellsEntries front entries) : front = [] ∨
      ∃ lexeme others, front = lexeme :: others ∧ lexeme.token ≠ .punct "." := by
  cases spells with
  | nil => exact .inl rfl
  | cons kind begins spells ends others =>
      refine .inr ⟨_, _, rfl, fun period => ?_⟩
      rw [period] at kind
      cases kind

theorem recognizes_context (table : Table Nonterminal) :
    (context table).Recognizes ending Ordered fun front result rest =>
      rest = [] ∧ ending.Closed ∧ ∃ entries, (SpellsEntries front entries ∨
        ∃ period inner, front = period :: inner ∧ period.token = .punct "." ∧
          SpellsEntries inner entries) ∧ bindEntries? table entries = some result := by
  refine (recognizes_skipPeriod.seq fun _ => recognizes_entries table).congr ?_
  intro reading front result rest ordered pending
  constructor
  · rintro ⟨_, _, behind, rfl, skipped, rfl, closed, entries, spells, bound⟩
    rcases skipped with ⟨period, rfl, ends⟩ | ⟨rfl, _⟩
    · exact ⟨rfl, closed, entries, .inr ⟨period, behind, rfl, ends, spells⟩, bound⟩
    · exact ⟨rfl, closed, entries, .inl spells, bound⟩
  · rintro ⟨rfl, closed, entries, spells | ⟨period, inner, rfl, ends, spells⟩, bound⟩
    · refine ⟨(), [], front, rfl, .inr ⟨rfl, ?_⟩, rfl, closed, entries, spells, bound⟩
      rcases spellsEntries_head spells with rfl | ⟨lexeme, others, rfl, other⟩
      · exact .inr ⟨rfl, closed⟩
      · exact .inl ⟨lexeme, others, List.append_nil _, other⟩
    · exact ⟨(), [period], inner, rfl, .inl ⟨period, rfl, ends⟩, rfl, closed, entries, spells,
        bound⟩

end PhraseGrammar.Reader
