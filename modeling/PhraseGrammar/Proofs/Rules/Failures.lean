import PhraseGrammar.Proofs.Grammar.Linking
import PhraseGrammar.Proofs.Rules.Accepted
import PhraseGrammar.Proofs.Rules.Postcondition
import PhraseGrammar.Proofs.Rules.RuleRecognition
import PhraseGrammar.Proofs.Token.Decoding
import PhraseGrammar.Proofs.Token.Tiling

/-!
# How reading fails

Reading a text fails with an error of the grammar's text or of its use, unless
the text has an integer beyond the length limit or an escape beyond all code
points: only these two end it in another way. A reader is confined to such
failures if its parts are. The integers that it keeps as depth hints and default
bindings can be written, unless the text has a hexadecimal numeral that has no
decimal one within the limit.
-/

namespace PhraseGrammar

/-- The depth hint and the default bindings hold only integers of some kind. -/
structure Nonterminal.Keeps (holds : Int → Prop) (nonterminal : Nonterminal) : Prop where
  hint : ∀ hint, nonterminal.depthHint = some hint → holds hint
  defaults : ∀ entry ∈ nonterminal.defaults.entries, ∀ size, entry.2 = .integer size → holds size

/-- All integers that a grammar keeps are of some kind. -/
def Grammar.Keeps (holds : Int → Prop) (grammar : Grammar) : Prop :=
  ∀ entry ∈ grammar.table.entries, entry.2.Keeps holds

/-- What holds of all entries of a table holds with one more that it is true of. -/
theorem Table.forall_mem_entries_set {α : Type} {holds : α → Prop} {table : Table α} {name : String}
    {value : α} (fits : holds value) (all : ∀ entry ∈ table.entries, holds entry.2) :
    ∀ entry ∈ (table.set name value).entries, holds entry.2 := by
  intro entry member
  have found := get?_of_mem_entries member
  rw [get?_set] at found
  split at found
  · exact Option.some.inj found ▸ fits
  · exact all _ (mem_entries_of_get? found)

/-- A hexadecimal numeral has a decimal one within the length limit. -/
def Token.Decimal (token : Token) : Prop :=
  token.kind = .int → token.hexadecimal = true → (Numeral.decimal? token.integer).isSome = true

theorem Token.Short.decimal {token : Token} (short : token.Short) : token.Decimal := by
  intro kind marked
  simpa [marked] using short kind

/-- Whatever an integer token is read as, it can be written: decimal notation is limited. -/
theorem Token.Decimal.isSome_decimal? {token : Token} (decimal : token.Decimal)
    (kind : token.kind = .int) {size : Int} (read : Numeral.readInteger? token.text = some size) :
    (Numeral.decimal? size).isSome = true := by
  have own : token.integer = size := by rw [Token.integer, read, Option.getD_some]
  cases marked : token.hexadecimal with
  | true => exact own ▸ decimal kind marked
  | false =>
      unfold Numeral.readInteger? at read
      unfold Token.hexadecimal at marked
      split at read
      · simp_all
      · simp_all
      · exact Numeral.isSome_decimal?_of_readDecimal? read

theorem Numeral.isSome_decimal?_codePoint (code : CodePoint) :
    (Numeral.decimal? code.toNat).isSome = true := by
  have within (limit : Nat) (enough : 7 ≤ limit) : code.toNat < Nat.pow 10 limit :=
    calc code.toNat < 0x110000 := code.below
      _ ≤ 10 ^ 7 := by decide
      _ ≤ Nat.pow 10 limit := Nat.pow_le_pow_right (by decide) enough
  rw [isSome_decimal?, Int.natAbs_natCast]
  unfold decimalBound
  exact within digitLimit (by decide)

/-! ## Foreseen failures -/

/-- A literal with an escape that is too large. -/
def Token.Overflows (token : Token) : Prop :=
  ∃ mark body, (mark = '"' ∨ mark = '\'') ∧ token.text = String.ofList (mark :: (body ++ [mark])) ∧
    Literal.Overflows mark body

/-- The failures that reading can end in where a text has the given tokens. -/
inductive ParseFailure.Foreseen (tokens : List Token) : ParseFailure → Prop where
  | grammar {error : GrammarError} (kind : error.kind = .parse ∨ error.kind = .usage) :
      Foreseen tokens (.grammar error)
  | numeral {token : Token} (member : token ∈ tokens) (long : ¬token.Short) :
      Foreseen tokens .numeral
  | codePointTooLarge {token : Token} (member : token ∈ tokens) (large : token.Overflows) :
      Foreseen tokens .codePointTooLarge

/-- What the characters of a token make sure of, whatever its length. -/
structure Token.Sound (token : Token) : Prop where
  regular (short : token.Short) : token.Regular
  literal (kind : token.kind = .string ∨ token.kind = .char) : ∃ mark body,
    (mark = '"' ∨ mark = '\'') ∧ Literal.Items mark body ∧
      token.text = String.ofList (mark :: (body ++ [mark]))

theorem Lexical.Spells.literal {rest piece : List Char} {kind : Kind} (spells : Spells rest kind piece)
    (quoted : kind = .string ∨ kind = .char) : ∃ mark body,
      (mark = '"' ∨ mark = '\'') ∧ Literal.Items mark body ∧ piece = mark :: (body ++ [mark]) := by
  cases spells with
  | string items => exact ⟨_, _, .inl rfl, items, rfl⟩
  | char one => exact ⟨_, _, .inr rfl, by simpa using Literal.Items.cons one .nil, rfl⟩
  | _ => rcases quoted with other | other <;> cases other

theorem Lexeme.sound_of_mem {text : List Char} {skip : Nat} {place : Position} {lexeme : Lexeme}
    (member : lexeme ∈ (scan text skip place).1) : lexeme.token.Sound where
  regular := regular_of_mem member
  literal kind := by
    obtain ⟨piece, rest, spells, written⟩ := exists_spells member
    obtain ⟨mark, body, quote, items, rfl⟩ := spells.literal kind
    exact ⟨mark, body, quote, items, written⟩

/-- A literal of the text denotes something, or fails in a foreseen way. -/
theorem Token.foreseen_unquote {tokens : List Token} {token : Token} (member : token ∈ tokens)
    (sound : token.Sound) (kind : token.kind = .string ∨ token.kind = .char)
    {failure : ParseFailure} (failed : Literal.unquote token.text = .error failure) :
    failure.Foreseen tokens := by
  obtain ⟨mark, body, quote, items, written⟩ := sound.literal kind
  have verdict := Literal.verdict_decode quote items
  rw [written, Literal.unquote_eq quote] at failed
  cases decoded : Literal.decode body 0 with
  | ok values =>
      rw [decoded] at failed
      cases failed
  | error reason =>
      rw [decoded] at failed verdict
      cases reason with
      | unknown escape =>
          cases failed
          exact .grammar (.inl rfl)
      | codePointTooLarge =>
          cases failed
          exact .codePointTooLarge member ⟨mark, body, quote, written, verdict⟩

theorem ParseFailure.Foreseen.orAt {tokens : List Token} {failure : ParseFailure}
    (foreseen : failure.Foreseen tokens) (place : Position) :
    (failure.orAt place).Foreseen tokens := by
  cases foreseen with
  | @grammar error kind =>
      refine .grammar ?_
      unfold GrammarError.orAt
      split <;> exact kind
  | numeral member long => exact .numeral member long
  | codePointTooLarge member large => exact .codePointTooLarge member large

namespace Reader

variable {α β σ : Type}

/-! ## Confined readers -/

/-- The tokens still to come are among the given ones. -/
def Within (tokens : List Token) (reading : Reading) : Prop :=
  ∀ lexeme ∈ reading.pending, lexeme.token ∈ tokens

/-- What holds of a reader's outcome that stays within some tokens. -/
def Bounded (tokens : List Token) (property : α → Prop) : Except ParseFailure α × Reading → Prop
  | (.ok value, after) => Within tokens after ∧ property value
  | (.error failure, _) => failure.Foreseen tokens

/-- The reader fails in foreseen ways only, and its results have the property. -/
def Confined (tokens : List Token) (reader : Reader α) (property : α → Prop) : Prop :=
  ∀ reading, Within tokens reading → Bounded tokens property (reader.run reading)

namespace Confined

variable {tokens : List Token} {property : α → Prop}

/-- What a reader ensures it ensures within the tokens as well. -/
theorem ensuring {reader : Reader α} {further : α → Prop} (confined : Confined tokens reader property)
    (ensured : reader.Ensures further) :
    Confined tokens reader fun value => property value ∧ further value := by
  intro reading within
  have bounded := confined reading within
  rcases ran : reader.run reading with ⟨failure | value, after⟩
  · rw [ran] at bounded
    exact bounded
  · rw [ran] at bounded
    exact ⟨bounded.1, bounded.2, ensured reading value after ran⟩

theorem pure {value : α} (holds : property value) : Confined tokens (pure value) property :=
  fun _ within => ⟨within, holds⟩

theorem fail {failure : ParseFailure} (foreseen : failure.Foreseen tokens) :
    Confined tokens (fail failure) property :=
  fun _ _ => foreseen

theorem reject {cause : Cause} (kind : cause.kind = .parse ∨ cause.kind = .usage) :
    Confined tokens (reject cause) property :=
  fun _ _ => .grammar kind

theorem ofExcept {result : Except ParseFailure α} (holds : ∀ value, result = .ok value → property value)
    (foreseen : ∀ failure, result = .error failure → failure.Foreseen tokens) :
    Confined tokens (ofExcept result) property := by
  intro reading within
  cases result with
  | ok value => exact ⟨within, holds value rfl⟩
  | error failure => exact foreseen failure rfl

theorem next : Confined tokens next fun token => token = .eof ∨ token ∈ tokens := by
  intro reading within
  rw [run_next, Reading.next]
  cases pending : reading.pending with
  | cons lexeme rest =>
      rw [Within, pending] at within
      exact ⟨fun other later => within other (.tail _ later), .inr (within lexeme (.head _))⟩
  | nil =>
      cases reading.ending with
      | eof place => exact ⟨fun _ member => absurd member List.not_mem_nil, .inl rfl⟩
      | unterminated form place => exact .grammar (.inl rfl)

theorem peek : Confined tokens peek fun token => token = .eof ∨ token ∈ tokens := by
  intro reading within
  have bounded := next reading within
  rw [run_next] at bounded
  rw [run_peek, Reading.upcoming]
  rcases ran : reading.next with ⟨failure | token, after⟩
  · rw [ran] at bounded
    exact bounded
  · rw [ran] at bounded
    exact ⟨within, bounded.2⟩

theorem follow : Confined tokens follow fun _ => True :=
  fun _ within => ⟨within, trivial⟩

theorem note (event : Event) : Confined tokens (note event) fun _ => True :=
  fun _ within => ⟨within, trivial⟩

theorem bind {first : Reader α} {second : α → Reader β} {result : β → Prop}
    (before : Confined tokens first property)
    (further : ∀ value, property value → Confined tokens (second value) result) :
    Confined tokens (first >>= second) result := by
  intro reading within
  have bounded := before reading within
  rw [run_bind]
  rcases ran : first.run reading with ⟨failure | value, after⟩
  · rw [ran] at bounded
    exact bounded
  · rw [ran] at bounded
    exact further value bounded.2 after bounded.1

theorem orAtPlace {reader : Reader α} (confined : Confined tokens reader property) :
    Confined tokens reader.orAtPlace property := by
  intro reading within
  have bounded := confined reading within
  rcases ran : reader.run reading with ⟨failure | value, after⟩
  · rw [ran] at bounded
    simp only [Reader.orAtPlace, ran]
    exact bounded.orAt after.place
  · rw [ran] at bounded
    simp only [Reader.orAtPlace, ran]
    exact bounded

theorem expect (text : String) : Confined tokens (expect text) fun _ => True := by
  refine next.bind fun token _ => ?_
  split
  · exact pure trivial
  · exact reject (.inl rfl)

/-- A loop is confined if every turn is, which sees a token of the text, and keeps an invariant. -/
theorem eachToken {finish : σ → Reader β} {turn : σ → Token → Reader (Turn σ β)}
    (invariant : σ → Prop) {result : β → Prop}
    (ends : ∀ state, invariant state → Confined tokens (finish state) result)
    (turns : ∀ state token, invariant state → token ∈ tokens →
      Confined tokens (turn state token) (Ensures.Round invariant result))
    {state : σ} (begins : invariant state) :
    Confined tokens (eachToken finish turn state) result := by
  have turned (state : σ) (reading : Reading) (lexeme : Lexeme) (rest : List Lexeme)
      (pending : reading.pending = lexeme :: rest) (within : Within tokens reading)
      (keeps : invariant state) : Bounded tokens (Ensures.Round invariant result)
        ((turn state lexeme.token).run (reading.pass lexeme rest)) := by
    rw [Within, pending] at within
    exact turns state lexeme.token keeps (within lexeme (.head _)) _
      fun other later => within other (.tail _ later)
  intro reading within
  rw [run_eachToken]
  fun_induction loop finish turn state reading with
  | case1 state reading ended =>
      exact next.bind (fun _ _ => ends state begins) reading within
  | case2 state reading lexeme rest pending failure after ran =>
      have bounded := turned state reading lexeme rest pending within begins
      rw [ran] at bounded
      exact bounded
  | case3 state reading lexeme rest pending result after ran =>
      have bounded := turned state reading lexeme rest pending within begins
      rw [ran] at bounded
      exact bounded
  | case4 state reading lexeme rest pending further after ran shorter ih =>
      have bounded := turned state reading lexeme rest pending within begins
      rw [ran] at bounded
      exact ih bounded.2 bounded.1

end Confined

section Readers

variable {tokens : List Token} (sound : ∀ token ∈ tokens, token.Sound)

/-- An integer can be written, unless there is a hexadecimal numeral that is too long in decimal. -/
def WithinLimit (tokens : List Token) (size : Int) : Prop :=
  (∀ token ∈ tokens, token.Decimal) → (Numeral.decimal? size).isSome = true

/-- The value is within the limit if it is an integer. -/
def Limited (tokens : List Token) (value : Value) : Prop :=
  ∀ size, value = .integer size → WithinLimit tokens size

/-- A token of some kind of its own is not the end. -/
theorem mem_of_kind {token : Token} (given : token = .eof ∨ token ∈ tokens) (kind : token.kind ≠ .eof) :
    token ∈ tokens := by
  rcases given with rfl | member
  · exact absurd rfl kind
  · exact member

theorem withinLimit_neg {size : Int} (limited : WithinLimit tokens size) :
    WithinLimit tokens (-size) :=
  fun decimal => Numeral.isSome_decimal?_neg (limited decimal)

include sound

theorem confined_integer {token : Token} (given : token = .eof ∨ token ∈ tokens)
    (kind : token.kind = .int) : Confined tokens (integer token) (WithinLimit tokens) := by
  have member := mem_of_kind given (by rw [kind]; decide)
  refine .ofExcept (fun value given decimal => ?_) fun failure failed => ?_
  · cases found : Numeral.readInteger? token.text with
    | none =>
        rw [found] at given
        cases given
    | some size =>
        rw [found] at given
        cases given
        exact (decimal token member).isSome_decimal? kind found
  · by_cases short : token.Short
    · rw [(((sound token member).regular short).integer kind).1] at failed
      cases failed
    · cases found : Numeral.readInteger? token.text with
      | none =>
          rw [found] at failed
          cases failed
          exact .numeral member short
      | some value =>
          rw [found] at failed
          cases failed

/-- What is made of the text of a literal fails in a foreseen way if making it does not fail. -/
theorem confined_unquote {token : Token} (given : token = .eof ∨ token ∈ tokens)
    (kind : token.kind = .string ∨ token.kind = .char) {convert : Text → Except ParseFailure α}
    {property : α → Prop} (converts : ∀ value, Literal.unquote token.text = .ok value →
      ∃ result, convert value = .ok result ∧ property result) :
    Confined tokens (ofExcept (Literal.unquote token.text >>= convert)) property := by
  have member := mem_of_kind given (by rcases kind with kind | kind <;> rw [kind] <;> decide)
  cases decoded : Literal.unquote token.text with
  | ok value =>
      obtain ⟨result, made, holds⟩ := converts value decoded
      change Confined tokens (ofExcept (convert value)) property
      rw [made]
      exact .pure holds
  | error reason =>
      exact .fail (Token.foreseen_unquote member (sound token member) kind decoded)

theorem confined_argument {token : Token} (given : token = .eof ∨ token ∈ tokens) :
    Confined tokens (argument token) (WithinLimit tokens) := by
  have signed (negative : Bool) (numeral : Token) (known : numeral = .eof ∨ numeral ∈ tokens) :
      Confined tokens (signedInteger negative numeral) (WithinLimit tokens) := by
    unfold signedInteger
    split
    · exact .reject (.inl rfl)
    · rename_i kind
      refine (confined_integer sound known (not_not.mp kind)).bind fun size limited => ?_
      cases negative with
      | true => exact .pure (withinLimit_neg limited)
      | false => exact .pure limited
  unfold argument
  split
  · exact Confined.next.bind fun numeral known => signed true numeral known
  · exact signed false token given

theorem confined_rangeArguments :
    Confined tokens rangeArguments fun arguments => ∀ size ∈ arguments, WithinLimit tokens size := by
  refine (Confined.expect "(").bind fun _ _ => Confined.peek.bind fun token _ => ?_
  split
  · exact Confined.next.bind fun _ _ => .pure nofun
  · refine Confined.eachToken
      (fun arguments : Array Int => ∀ size ∈ arguments.toList, WithinLimit tokens size) ?_ ?_ nofun
    · exact fun _ _ => .reject (.inl rfl)
    · intro arguments token limited member
      rw [rangeTurn_eq]
      refine (confined_argument sound (.inr member)).bind fun size fits => ?_
      have extended : ∀ other ∈ (arguments.push size).toList, WithinLimit tokens other := by
        intro other inside
        rw [Array.toList_push, List.mem_append, List.mem_singleton] at inside
        rcases inside with earlier | rfl
        · exact limited other earlier
        · exact fits
      refine Confined.next.bind fun mark _ => ?_
      split
      · exact .pure extended
      · split
        · exact .pure extended
        · exact .reject (.inl rfl)

theorem confined_range : Confined tokens range fun _ => True := by
  refine (confined_rangeArguments sound).bind fun arguments limited => ?_
  split
  · split
    · rename_i unwritten
      by_cases short : ∀ token ∈ tokens, token.Short
      · have decimal : ∀ token ∈ tokens, token.Decimal :=
          fun token inside => (short token inside).decimal
        rw [joinDecimals?_eq fun size member => limited size member decimal] at unwritten
        cases unwritten
      · obtain ⟨token, member, long⟩ := not_forall₂.mp short
        exact .fail (.numeral member long)
    · exact .pure trivial
  · exact .reject (.inr rfl)

theorem confined_literal {token : Token} (member : token ∈ tokens)
    {construct : String → Except ParseFailure Leaf}
    (entry : Registry.default.literals.get? token.kind.name = some construct) :
    Confined tokens (ofExcept ((construct token.text).map Node.leaf)) fun _ => True := by
  rcases Registry.literal_made entry with ⟨quoted, rfl⟩ | ⟨_, rfl⟩
  · have made (value : Text) :
        ∃ node : Node, (Except.ok (.leaf (.constant token.kind.name value)) :
          Except ParseFailure Node) = .ok node ∧ True := ⟨_, rfl, trivial⟩
    have confined := confined_unquote sound (.inr member) quoted fun value _ => made value
    cases decoded : Literal.unquote token.text with
    | ok value =>
        simp only [decoded]
        exact .pure trivial
    | error failure =>
        rw [decoded] at confined
        simp only [decoded]
        exact confined
  · exact .pure trivial

theorem confined_node {token : Token} (member : token ∈ tokens) :
    Confined tokens (node Registry.default token) fun _ => True := by
  unfold node
  split
  · rename_i construct entry
    exact confined_literal sound member entry
  · split
    · rename_i made entry
      obtain ⟨leaf, rfl, _⟩ := Registry.terminal_made entry
      exact .pure trivial
    · split
      · rename_i reader entry
        rw [builtin_eq_range entry]
        exact (confined_range sound).bind fun _ _ => .pure trivial
      · split
        · refine Confined.next.bind fun name _ => ?_
          split
          · exact .reject (.inl rfl)
          · split
            · exact .reject (.inl rfl)
            · rename_i construct entry
              cases entry
              exact .pure trivial
        · exact .pure trivial

theorem confined_nodes : Confined tokens (nodes Registry.default) fun _ => True := by
  refine Confined.eachToken (fun _ => True) (fun _ _ => .pure trivial) ?_ trivial
  intro nodes token _ member
  unfold nodesTurn
  split
  · exact .pure trivial
  · split
    · exact .pure trivial
    · exact (confined_node sound member).orAtPlace.bind fun _ _ => .pure trivial

theorem confined_rules (name : String) : Confined tokens (rules Registry.default name) fun _ => True := by
  refine Confined.eachToken (fun _ => True) (fun _ _ => .reject (.inl rfl)) ?_ trivial
  intro rules token _ _
  unfold rulesTurn
  split
  · refine (confined_nodes sound).bind fun result _ => ?_
    dsimp only
    split <;> exact .pure trivial
  · exact .reject (.inl rfl)

theorem confined_signedNumber (negative : Bool) {token : Token} (given : token = .eof ∨ token ∈ tokens) :
    Confined tokens (signedNumber negative token) (Limited tokens) := by
  unfold signedNumber
  split
  · rename_i kind
    refine (confined_integer sound given kind).bind fun size limited => .pure ?_
    rintro _ ⟨⟩
    split
    · exact withinLimit_neg limited
    · exact limited
  · rename_i kind
    have member := mem_of_kind given (by rw [kind]; decide)
    have short : token.Short := fun int => nomatch kind.symm.trans int
    rw [((sound token member).regular short).float kind]
    exact .pure fun _ => nofun
  · exact .reject (.inl rfl)

theorem confined_contextValue : Confined tokens contextValue (Limited tokens) := by
  refine Confined.next.bind fun token given => ?_
  split
  · exact Confined.next.bind fun number known => confined_signedNumber sound true known
  · split
    · rename_i kind
      have made (value : Text) : ∃ result : Value, (Except.ok (.text value) :
          Except ParseFailure Value) = .ok result ∧ Limited tokens result := ⟨_, rfl, fun _ => nofun⟩
      have confined := confined_unquote sound given (.inl kind) fun value _ => made value
      refine Confined.orAtPlace ?_
      cases decoded : Literal.unquote token.text with
      | ok value => exact .pure fun _ => nofun
      | error failure => rwa [decoded] at confined
    · rename_i kind
      refine (confined_unquote sound given (.inr kind) fun value decodes => ?_).orAtPlace
      have member := mem_of_kind given (by rw [kind]; decide)
      have short : token.Short := fun int => nomatch kind.symm.trans int
      obtain ⟨c, same⟩ := ((sound token member).regular short).char kind decodes
      refine ⟨.integer c.toNat, by rw [codePoint, same], ?_⟩
      rintro _ ⟨⟩ _
      exact Numeral.isSome_decimal?_codePoint c
    · exact confined_signedNumber sound false given
    · exact confined_signedNumber sound false given
    · exact .reject (.inl rfl)

theorem confined_bindings (name : String) {defaults : Table Value}
    (before : ∀ entry ∈ defaults.entries, Limited tokens entry.2) :
    Confined tokens (bindings name defaults) fun defaults =>
      ∀ entry ∈ defaults.entries, Limited tokens entry.2 := by
  refine Confined.eachToken (fun defaults : Table Value =>
    ∀ entry ∈ defaults.entries, Limited tokens entry.2) (fun _ _ => .reject (.inl rfl)) ?_ before
  intro defaults token limited _
  unfold bindingsTurn
  split
  · exact .reject (.inl rfl)
  · refine (Confined.expect "=").bind fun _ _ => (confined_contextValue sound).bind fun value fits =>
      Confined.next.bind fun mark _ => ?_
    have extended : ∀ entry ∈ (defaults.set token.text value).entries, Limited tokens entry.2 :=
      Table.forall_mem_entries_set fits limited
    split
    · exact .pure extended
    · split
      · exact .pure extended
      · exact .reject (.inl rfl)

theorem confined_context {table : Table Nonterminal}
    (before : ∀ entry ∈ table.entries, entry.2.Keeps (WithinLimit tokens)) :
    Confined tokens (context table) fun table =>
      ∀ entry ∈ table.entries, entry.2.Keeps (WithinLimit tokens) := by
  have skips : Confined tokens skipPeriod fun _ => True := by
    refine Confined.peek.bind fun mark _ => ?_
    split
    · exact Confined.next.bind fun _ _ => .pure trivial
    · exact .pure trivial
  refine skips.bind fun _ _ => Confined.eachToken (fun table : Table Nonterminal =>
    ∀ entry ∈ table.entries, entry.2.Keeps (WithinLimit tokens)) (fun _ kept => .pure kept) ?_ before
  intro table token kept _
  unfold contextTurn
  split
  · exact .reject (.inl rfl)
  · refine (Confined.expect ":").bind fun _ _ => ?_
    split
    · exact .reject (.inl rfl)
    · rename_i nonterminal declared
      have keeps := kept _ (Table.mem_entries_of_get? declared)
      refine (confined_bindings sound _ keeps.defaults).bind fun defaults limited => .pure ?_
      exact Table.forall_mem_entries_set ⟨keeps.hint, limited⟩ kept

theorem confined_depthHint (name : String) :
    Confined tokens (depthHint name) fun hint? => ∀ hint, hint? = some hint → WithinLimit tokens hint := by
  refine Confined.follow.bind fun mark _ => ?_
  split
  · refine Confined.next.bind fun marker _ => Confined.next.bind fun token given => ?_
    split
    · exact .reject (.inl rfl)
    · rename_i kind
      refine (confined_integer sound given (not_not.mp kind)).bind fun size limited => .pure ?_
      rintro _ ⟨⟩
      exact limited
  · exact .pure fun _ => nofun

omit sound in
/-- The block of default bindings declares nothing. -/
theorem ensures_keys (table : Table Nonterminal) :
    (context table).Ensures fun bound => bound.keys = table.keys := by
  refine .seq fun _ => ?_
  refine Ensures.eachToken (fun bound : Table Nonterminal => bound.keys = table.keys) ?_ ?_ rfl
  · exact fun bound same => .pure same
  · intro bound token same
    unfold contextTurn
    split
    · exact .reject _ _
    · refine .seq fun _ => ?_
      split
      · exact .reject _ _
      · rename_i nonterminal declared
        refine .seq fun defaults => .pure ?_
        have known := (Table.contains_iff_mem_keys bound token.text).mp
          (Option.isSome_iff_exists.mpr ⟨_, declared⟩)
        change (bound.set _ _).keys = _
        rw [Table.keys_set, if_pos known, same]

omit sound in
theorem confined_define (grammar : Grammar) (nonterminal : Nonterminal) :
    Confined tokens (define grammar nonterminal) fun _ => True := by
  unfold define
  split
  · exact (Confined.note _).bind fun _ _ => (Confined.note _).bind fun _ _ => .pure trivial
  · exact (Confined.note _).bind fun _ _ => .pure trivial

/-- The names of a table are among the tokens. -/
def NamedAmong (tokens : List Token) (grammar : Grammar) : Prop :=
  ∀ key ∈ grammar.table.keys, ⟨.ident, key⟩ ∈ tokens

/-- A grammar is named and limited by the tokens that it is read from. -/
structure DrawnFrom (tokens : List Token) (grammar : Grammar) : Prop where
  named : NamedAmong tokens grammar
  kept : grammar.Keeps (WithinLimit tokens)

theorem confined_definitionsTurn {grammar : Grammar} {token : Token} (drawn : DrawnFrom tokens grammar)
    (member : token ∈ tokens) : Confined tokens (definitionsTurn Registry.default grammar token)
      (Ensures.Round (DrawnFrom tokens) (DrawnFrom tokens)) := by
  unfold definitionsTurn
  split
  · exact .pure drawn
  · split
    · exact .reject (.inl rfl)
    · rename_i kind
      refine (confined_depthHint sound token.text).bind fun hint limited => ?_
      split
      · refine ((confined_context sound drawn.kept).ensuring (ensures_keys _)).bind ?_
        rintro table ⟨kept, same⟩
        exact .pure ⟨fun key known => drawn.named key (same ▸ known), kept⟩
      · refine (confined_rules sound token.text).bind fun rules _ => ?_
        refine ((confined_define grammar _).ensuring (ensures_define _ _)).bind ?_
        rintro defined ⟨_, rfl⟩
        refine .pure ⟨fun key known => ?_, ?_⟩
        · rw [Table.keys_set] at known
          have own : (⟨.ident, token.text⟩ : Token) = token := by rw [← not_not.mp kind]
          split at known
          · exact drawn.named key known
          · rcases List.mem_append.mp known with earlier | last
            · exact drawn.named key earlier
            · rw [List.mem_singleton.mp last, own]
              exact member
        · exact Table.forall_mem_entries_set ⟨limited, nofun⟩ drawn.kept

theorem confined_grammar : Confined tokens (grammar Registry.default) (DrawnFrom tokens) := by
  have definitions : Confined tokens (definitions Registry.default) (DrawnFrom tokens) := by
    refine Confined.eachToken (DrawnFrom tokens) (fun _ drawn => .pure drawn) ?_ ⟨nofun, nofun⟩
    exact fun grammar token drawn member => confined_definitionsTurn sound drawn member
  refine definitions.bind fun grammar drawn => ?_
  split
  · exact .reject (.inl rfl)
  · exact .pure drawn

end Readers

end Reader

theorem Grammar.bounded_read (text : String) :
    Reader.Bounded ((lexemes text).1.map Lexeme.token)
      (Reader.DrawnFrom ((lexemes text).1.map Lexeme.token))
      ((Reader.grammar Registry.default).run (.ofText text)) := by
  apply Reader.confined_grammar
  · intro token member
    obtain ⟨lexeme, inside, rfl⟩ := List.mem_map.mp member
    exact Lexeme.sound_of_mem inside
  · exact fun lexeme pending => List.mem_map_of_mem pending

/-- The names and the integers of a grammar come from the tokens of its text. -/
theorem Grammar.drawn_of_read {text : String} {grammar : Grammar}
    (accepted : (read Registry.default text).1 = .ok grammar) :
    Reader.DrawnFrom ((lexemes text).1.map Lexeme.token) grammar := by
  have bounded := bounded_read text
  rcases ran : (Reader.grammar Registry.default).run (.ofText text) with ⟨refused | raw, after⟩
  · simp only [read, ran] at accepted
    cases accepted
  · simp only [read, ran] at accepted
    cases accepted
    rw [ran] at bounded
    exact bounded.2

/-- A text that cannot be parsed is refused by an error, but for numerals and escapes too large. -/
theorem Grammar.foreseen_of_parse {text : String} {failure : ParseFailure}
    (failed : (parse Registry.default text).1 = .error failure) :
    failure.Foreseen ((lexemes text).1.map Lexeme.token) := by
  have bounded := bounded_read text
  rcases ran : (Reader.grammar Registry.default).run (.ofText text) with ⟨refused | grammar, after⟩
  · rw [ran] at bounded
    simp only [parse, read, ran] at failed
    cases failed
    exact bounded
  · simp only [parse, read, ran, linkNoting] at failed
    cases linked : grammar.link.failure with
    | none =>
        simp only [linked] at failed
        cases failed
    | some cause =>
        simp only [linked] at failed
        obtain ⟨ref, name, rfl⟩ := unknownReference_of_link linked
        cases failed
        exact .grammar (.inl rfl)

end PhraseGrammar
