import PhraseGrammar.Proofs.Grammar.Unknown
import PhraseGrammar.Proofs.Rules.Accepted
import PhraseGrammar.Proofs.Rules.RangeRecognition
import PhraseGrammar.Proofs.Token.Places

/-!
# Where errors point

An error of a grammar's text is about a place in the text: that of the token
consumed last, which may be the end of the text, or that of the opening of what
is never closed. Literals that denote nothing are refused without a place, and
get one where they are read. So an error has no place only if it comes from
linking, that is from a bare name which the table of a well read grammar does
not hold.
-/

namespace PhraseGrammar

open Lexical

/-- A reading that has consumed as many tokens of the text as it has asked for. -/
structure Reading.Of (text : String) (reading : Reading) : Prop where
  pending : reading.pending = (lexemes text).1.drop reading.reads
  ending : reading.ending = (lexemes text).2

/--
The last of so many consumed tokens begins at the place. The end of the text is
a token that can be consumed again and again.
-/
def LastAt (text : String) (reads : Nat) (place : Position) : Prop :=
  ∃ count token offset, reads = count + 1 ∧
    Begins text.toList (tokensBefore text count) token offset ∧
      place = .ofOffset text.toList offset

/-- A reading that has consumed a token and knows the place of the last one. -/
structure Reading.Along (text : String) (reading : Reading) : Prop extends
    Reading.Of text reading where
  last : LastAt text reading.reads reading.place

/-- Any cause but that something stays open. -/
def Cause.Closed (cause : Cause) : Prop :=
  ∀ form, cause ≠ .unterminated form

/-- An error points at the last token consumed, or at what stays open. -/
inductive GrammarError.Points (text : String) (reads : Nat) : GrammarError → Prop where
  | last {cause : Cause} {place : Position} (closed : cause.Closed)
      (last : LastAt text reads place) : Points text reads (.located cause place)
  | opening {form : Unclosed} {offset : Nat}
      (opens : Opens text.toList (tokensBefore text reads) form offset) :
      Points text reads (.located (.unterminated form) (.ofOffset text.toList offset))

/-- An error that has no place yet. -/
structure GrammarError.Placeless (error : GrammarError) : Prop where
  closed : error.cause.Closed
  line : error.line = none

theorem Reading.of_ofText (text : String) : (Reading.ofText text).Of text :=
  ⟨rfl, rfl⟩

namespace Reader

variable {α β σ : Type} {text : String} {loose : Prop}

/-- A failure that is an error points into the text. A loose one may also be without a place. -/
def Refused (text : String) (loose : Prop) (after : Reading) : ParseFailure → Prop
  | .grammar error => after.Of text ∧
      (error.Points text after.reads ∨ loose ∧ error.Placeless ∧ after.Along text)
  | _ => True

/-- What holds of an outcome whose errors point into the text. -/
def Pointed (text : String) (loose : Prop) : Except ParseFailure α × Reading → Prop
  | (.ok _, after) => after.Along text
  | (.error failure, after) => Refused text loose after failure

/-- Errors of the reader point into the text, whatever has been read of it. -/
def Points (text : String) (loose : Prop) (reader : Reader α) : Prop :=
  ∀ reading : Reading, reading.Along text → Pointed text loose (reader.run reading)

namespace Points

theorem pure (value : α) : Points text loose (pure value) :=
  fun _ along => along

theorem fail (failure : ParseFailure) (other : ∀ error, failure ≠ .grammar error) :
    Points text loose (fail failure : Reader α) := by
  intro reading along
  cases failure with
  | grammar error => exact absurd rfl (other error)
  | _ => trivial

theorem reject {cause : Cause} (closed : cause.Closed) :
    Points text loose (reject cause : Reader α) :=
  fun _ along => ⟨along.toOf, .inl (.last closed along.last)⟩

theorem ofExcept {result : Except ParseFailure α}
    (placeless : ∀ error, result = .error (.grammar error) → loose ∧ error.Placeless) :
    Points text loose (ofExcept result) := by
  intro reading along
  rcases result with failure | value
  · cases failure with
    | grammar error =>
        obtain ⟨allowed, missing⟩ := placeless error rfl
        exact ⟨along.toOf, .inr ⟨allowed, missing, along⟩⟩
    | _ => trivial
  · exact along

theorem follow : Points text loose follow :=
  fun _ along => along

theorem note (event : Event) : Points text loose (note event) :=
  fun _ along => ⟨⟨along.pending, along.ending⟩, along.last⟩

/-- The reading behind its first lexeme is at the token of the lexeme. -/
theorem along_pass {reading : Reading} (of : reading.Of text) {lexeme : Lexeme} {rest : List Lexeme}
    (pending : reading.pending = lexeme :: rest) : (reading.pass lexeme rest).Along text := by
  have behind : (lexemes text).1.drop reading.reads = lexeme :: rest := of.pending.symm.trans pending
  have here : (lexemes text).1[reading.reads]? = some lexeme := by
    rw [← Nat.add_zero reading.reads, ← List.getElem?_drop, behind]
    rfl
  have further : rest = (lexemes text).1.drop (reading.reads + 1) := by
    rw [← List.drop_drop, behind]
    rfl
  obtain ⟨offset, begins, place⟩ := begins_of_lexeme here
  exact ⟨⟨further, of.ending⟩, reading.reads, lexeme.token, offset, rfl, begins, place⟩

/-- The first token of a text is consumed like any other. -/
theorem pointed_next {reading : Reading} (of : reading.Of text) :
    Pointed text loose (next.run reading) := by
  rw [run_next, Reading.next]
  cases pending : reading.pending with
  | cons lexeme rest => exact along_pass of pending
  | nil =>
      have behind : (lexemes text).1.length ≤ reading.reads :=
        List.drop_eq_nil_iff.mp (of.pending.symm.trans pending)
      have none : [] = (lexemes text).1.drop (reading.reads + 1) :=
        (List.drop_eq_nil_of_le (Nat.le_succ_of_le behind)).symm
      have same := of.ending
      cases ending : reading.ending with
      | eof place =>
          rw [ending] at same
          obtain ⟨begins, here⟩ := begins_eof same.symm behind
          exact ⟨⟨none, same⟩, reading.reads, .eof, _, rfl, begins, here⟩
      | unterminated form place =>
          rw [ending] at same
          obtain ⟨offset, opens, rfl⟩ := opens_of_unterminated same.symm (Nat.le_succ_of_le behind)
          exact ⟨⟨none, same⟩, .inl (.opening opens)⟩

theorem next : Points text loose next :=
  fun _ along => pointed_next along.toOf

/-- A look ahead fails at what stays open, with nothing consumed. -/
theorem peek : Points text loose peek := by
  intro reading along
  rw [run_peek, Reading.upcoming, Reading.next]
  cases pending : reading.pending with
  | cons lexeme rest => exact along
  | nil =>
      have behind : (lexemes text).1.length ≤ reading.reads :=
        List.drop_eq_nil_iff.mp (along.pending.symm.trans pending)
      cases ending : reading.ending with
      | eof place => exact along
      | unterminated form place =>
          obtain ⟨offset, opens, rfl⟩ :=
            opens_of_unterminated (along.ending.symm.trans ending) behind
          exact ⟨along.toOf, .inl (.opening opens)⟩

theorem pointed_bind {first : Reader α} {second : α → Reader β} {reading : Reading}
    (before : Pointed text loose (first.run reading))
    (further : ∀ value, Points text loose (second value)) :
    Pointed text loose ((first >>= second).run reading) := by
  rw [run_bind]
  rcases ran : first.run reading with ⟨failure | value, after⟩
  · rw [ran] at before
    exact before
  · rw [ran] at before
    exact further value after before

theorem bind {first : Reader α} {second : α → Reader β} (before : Points text loose first)
    (further : ∀ value, Points text loose (second value)) : Points text loose (first >>= second) :=
  fun reading along => pointed_bind (before reading along) further

/-- Where errors get the place of the last token, all of them point into the text. -/
theorem orAtPlace {reader : Reader α} (points : Points text True reader) :
    Points text loose reader.orAtPlace := by
  intro reading along
  have pointed := points reading along
  simp only [Reader.orAtPlace]
  rcases ran : reader.run reading with ⟨failure | value, after⟩
  · rw [ran] at pointed
    cases failure with
    | grammar error =>
        refine ⟨pointed.1, .inl ?_⟩
        rcases pointed.2 with points | ⟨_, placeless, along⟩
        · cases points with
          | last closed last => exact .last closed last
          | opening opens => exact .opening opens
        · rw [GrammarError.orAt, placeless.line]
          exact .last placeless.closed along.last
    | _ => trivial
  · rwa [ran] at pointed

theorem expect (mark : String) : Points text loose (expect mark) := by
  refine next.bind fun token => ?_
  split
  · exact pure _
  · exact reject nofun

/-- A loop asks for a token before anything else, so it may come first of all. -/
theorem pointed_eachToken {finish : σ → Reader β} {turn : σ → Token → Reader (Turn σ β)}
    (ends : ∀ state, Points text loose (finish state))
    (turns : ∀ state token, Points text loose (turn state token)) (state : σ) {reading : Reading}
    (of : reading.Of text) : Pointed text loose ((eachToken finish turn state).run reading) := by
  rw [run_eachToken]
  fun_induction loop finish turn state reading with
  | case1 state reading ended => exact pointed_bind (pointed_next of) fun _ => ends state
  | case2 state reading lexeme rest pending failure after ran =>
      have pointed := turns state lexeme.token _ (along_pass of pending)
      rw [ran] at pointed
      exact pointed
  | case3 state reading lexeme rest pending result after ran =>
      have pointed := turns state lexeme.token _ (along_pass of pending)
      rw [ran] at pointed
      exact pointed
  | case4 state reading lexeme rest pending further after ran shorter ih =>
      have pointed := turns state lexeme.token _ (along_pass of pending)
      rw [ran] at pointed
      exact ih pointed.toOf

theorem eachToken {finish : σ → Reader β} {turn : σ → Token → Reader (Turn σ β)}
    (ends : ∀ state, Points text loose (finish state))
    (turns : ∀ state token, Points text loose (turn state token)) (state : σ) :
    Points text loose (eachToken finish turn state) :=
  fun _ along => pointed_eachToken ends turns state along.toOf

end Points

/-! ## The readers of a grammar -/

theorem points_integer (token : Token) : Points text loose (integer token) := by
  refine .ofExcept fun error failed => ?_
  cases found : Numeral.readInteger? token.text with
  | none =>
      rw [found] at failed
      cases failed
  | some value =>
      rw [found] at failed
      cases failed

theorem points_argument (token : Token) : Points text loose (argument token) := by
  have signed (negative : Bool) (numeral : Token) :
      Points text loose (signedInteger negative numeral) := by
    unfold signedInteger
    split
    · exact .reject nofun
    · exact (points_integer numeral).bind fun _ => .pure _
  unfold argument
  split
  · exact Points.next.bind fun numeral => signed true numeral
  · exact signed false token

theorem points_rangeArguments : Points text loose rangeArguments := by
  refine (Points.expect "(").bind fun _ => Points.peek.bind fun token => ?_
  split
  · exact Points.next.bind fun _ => .pure _
  · refine .eachToken (fun _ => .reject (by nofun)) (fun arguments token => ?_) _
    rw [rangeTurn_eq]
    refine (points_argument token).bind fun size => Points.next.bind fun mark => ?_
    split
    · exact .pure _
    · split
      · exact .pure _
      · exact .reject nofun

theorem points_range : Points text loose range := by
  refine points_rangeArguments.bind fun arguments => ?_
  split
  · split
    · exact .fail _ nofun
    · exact .pure _
  · exact .reject nofun

/-- A literal that denotes nothing is refused without a place. -/
theorem placeless_unquote {literal : String} {error : GrammarError}
    (failed : Literal.unquote literal = .error (.grammar error)) : error.Placeless := by
  unfold Literal.unquote at failed
  split at failed
  · cases failed
    exact ⟨nofun, rfl⟩
  · split at failed
    · cases failed
    · cases failed
      exact ⟨nofun, rfl⟩
    · cases failed

theorem placeless_map_unquote {literal : String} {convert : Text → α} {error : GrammarError}
    (failed : (Literal.unquote literal).map convert = .error (.grammar error)) : error.Placeless := by
  cases decoded : Literal.unquote literal with
  | ok value =>
      rw [decoded] at failed
      cases failed
  | error failure =>
      rw [decoded] at failed
      cases failed
      exact placeless_unquote decoded

theorem placeless_literal {kind : Kind} {written : String} {error : GrammarError}
    {construct : String → Except ParseFailure Leaf}
    (entry : Registry.default.literals.get? kind.name = some construct)
    (failed : construct written = .error (.grammar error)) : error.Placeless := by
  rcases Registry.literal_made entry with ⟨_, rfl⟩ | ⟨_, rfl⟩
  · exact placeless_map_unquote failed
  · cases failed

theorem points_node (token : Token) : Points text True (node Registry.default token) := by
  unfold node
  split
  · rename_i construct entry
    refine .ofExcept fun error failed => ⟨trivial, ?_⟩
    cases made : construct token.text with
    | ok leaf =>
        rw [made] at failed
        cases failed
    | error failure =>
        rw [made] at failed
        cases failed
        exact placeless_literal entry made
  · split
    · rename_i made entry
      obtain ⟨leaf, rfl, _⟩ := Registry.terminal_made entry
      exact .pure _
    · split
      · rename_i reader entry
        rw [builtin_eq_range entry]
        exact points_range.bind fun _ => .pure _
      · split
        · refine Points.next.bind fun name => ?_
          split
          · exact .reject nofun
          · split
            · exact .reject nofun
            · rename_i construct entry
              cases entry
              exact .pure _
        · exact .pure _

theorem points_nodes : Points text loose (nodes Registry.default) := by
  refine .eachToken (fun _ => .pure _) (fun nodes token => ?_) _
  unfold nodesTurn
  split
  · exact .pure _
  · split
    · exact .pure _
    · exact (points_node token).orAtPlace.bind fun _ => .pure _

theorem points_rules (name : String) : Points text loose (rules Registry.default name) := by
  refine .eachToken (fun _ => .reject (by nofun)) (fun rules token => ?_) _
  unfold rulesTurn
  split
  · refine points_nodes.bind fun result => ?_
    dsimp only
    split <;> exact .pure _
  · exact .reject nofun

theorem points_signedNumber (negative : Bool) (token : Token) :
    Points text loose (signedNumber negative token) := by
  unfold signedNumber
  split
  · exact (points_integer token).bind fun _ => .pure _
  · split
    · exact .pure _
    · exact .fail _ nofun
  · exact .reject nofun

theorem placeless_codePoint {literal : String} {error : GrammarError}
    (failed : (Literal.unquote literal).bind codePoint = .error (.grammar error)) :
    error.Placeless := by
  cases decoded : Literal.unquote literal with
  | ok value =>
      rw [decoded] at failed
      change codePoint value = _ at failed
      unfold codePoint at failed
      split at failed <;> cases failed
  | error failure =>
      rw [decoded] at failed
      cases failed
      exact placeless_unquote decoded

theorem points_contextValue : Points text loose contextValue := by
  refine Points.next.bind fun token => ?_
  split
  · exact Points.next.bind fun number => points_signedNumber true number
  · split
    · exact .orAtPlace (.ofExcept fun _ failed => ⟨trivial, placeless_map_unquote failed⟩)
    · exact .orAtPlace (.ofExcept fun _ failed => ⟨trivial, placeless_codePoint failed⟩)
    · exact points_signedNumber false token
    · exact points_signedNumber false token
    · exact .reject nofun

theorem points_bindings (name : String) (defaults : Table Value) :
    Points text loose (bindings name defaults) := by
  refine .eachToken (fun _ => .reject (by nofun)) (fun defaults token => ?_) _
  unfold bindingsTurn
  split
  · exact .reject nofun
  · refine (Points.expect "=").bind fun _ => points_contextValue.bind fun value =>
      Points.next.bind fun mark => ?_
    split
    · exact .pure _
    · split
      · exact .pure _
      · exact .reject nofun

theorem points_context (table : Table Nonterminal) : Points text loose (context table) := by
  have skips : Points text loose skipPeriod := by
    refine Points.peek.bind fun mark => ?_
    split
    · exact Points.next.bind fun _ => .pure _
    · exact .pure _
  refine skips.bind fun _ => .eachToken (fun _ => .pure _) (fun table token => ?_) _
  unfold contextTurn
  split
  · exact .reject nofun
  · refine (Points.expect ":").bind fun _ => ?_
    split
    · exact .reject nofun
    · exact (points_bindings _ _).bind fun _ => .pure _

theorem points_depthHint (name : String) : Points text loose (depthHint name) := by
  refine Points.follow.bind fun mark => ?_
  split
  · refine Points.next.bind fun marker => Points.next.bind fun token => ?_
    split
    · exact .reject nofun
    · exact (points_integer token).bind fun _ => .pure _
  · exact .pure _

theorem points_define (grammar : Grammar) (nonterminal : Nonterminal) :
    Points text loose (define grammar nonterminal) := by
  unfold define
  split
  · exact (Points.note _).bind fun _ => (Points.note _).bind fun _ => .pure _
  · exact (Points.note _).bind fun _ => .pure _

theorem points_definitionsTurn (grammar : Grammar) (token : Token) :
    Points text loose (definitionsTurn Registry.default grammar token) := by
  unfold definitionsTurn
  split
  · exact .pure _
  · split
    · exact .reject nofun
    · refine (points_depthHint token.text).bind fun hint => ?_
      split
      · exact (points_context grammar.table).bind fun _ => .pure _
      · exact (points_rules token.text).bind fun rules => (points_define grammar _).bind fun _ =>
          .pure _

theorem pointed_grammar (text : String) :
    Pointed text False ((grammar Registry.default).run (.ofText text)) := by
  refine Points.pointed_bind ?_ fun grammar => ?_
  · exact Points.pointed_eachToken (fun _ => .pure _) points_definitionsTurn _
      (Reading.of_ofText text)
  · split
    · exact .reject nofun
    · exact .pure _

end Reader

/-! ## Whole texts -/

namespace Grammar

theorem line_of_read {text : String} {error : GrammarError}
    (failed : (read Registry.default text).1 = .error (.grammar error)) : error.line ≠ none := by
  have pointed := Reader.pointed_grammar text
  rcases ran : (Reader.grammar Registry.default).run (.ofText text) with ⟨failure | raw, after⟩
  · simp only [read, ran] at failed
    cases failed
    rw [ran] at pointed
    rcases pointed.2 with points | ⟨none, _⟩
    · cases points <;> nofun
    · exact none.elim
  · simp only [read, ran] at failed
    cases failed

/-- An error of parsing has no line exactly if the text is read and a bare name dangles. -/
theorem line_of_parse_eq_none_iff {text : String} :
    (∃ error, (parse Registry.default text).1 = .error (.grammar error) ∧ error.line = none) ↔
      ∃ grammar, (read Registry.default text).1 = .ok grammar ∧ ∃ ref, grammar.Dangles ref := by
  rcases outcome : read Registry.default text with ⟨failure | raw, log⟩
  · simp only [parse, outcome]
    constructor
    · rintro ⟨error, failed, placeless⟩
      cases failed
      exact absurd placeless (line_of_read (congrArg Prod.fst outcome))
    · rintro ⟨grammar, accepted, _⟩
      cases accepted
  · simp only [parse, outcome, linkNoting]
    cases linked : raw.link.failure with
    | none =>
        simp only [linked]
        have known := failure_link_eq_none_iff.mp linked
        constructor
        · rintro ⟨error, failed, _⟩
          cases failed
        · rintro ⟨grammar, accepted, ref, dangles⟩
          cases accepted
          exact absurd dangles (known ref)
    | some cause =>
        simp only [linked]
        refine ⟨fun _ => ⟨raw, rfl, ?_⟩, fun _ => ⟨.bare cause, rfl, rfl⟩⟩
        by_contra none
        have complete := failure_link_eq_none_iff.mpr (not_exists.mp none)
        cases linked.symm.trans complete

/--
An error of reading a text has a line and a column. They are the place of the
token consumed last, be it the end of the text, or of the opening of what is
never closed. So parsing fails without a line exactly if the text is read and
the table does not hold a bare name in its rules.
-/
theorem errors_point (text : String) :
    (∀ error after, (Reader.grammar Registry.default).run (.ofText text) =
        (.error (.grammar error), after) →
      after.pending = (lexemes text).1.drop after.reads ∧
        ∃ place : Position, error.line = some (place.line : Int) ∧
          error.column = some (place.column : Int) ∧
            (error.cause.Closed ∧ LastAt text after.reads place ∨
              ∃ form offset, error.cause = .unterminated form ∧
                Opens text.toList (tokensBefore text after.reads) form offset ∧
                  place = .ofOffset text.toList offset)) ∧
      ((∃ error, (parse Registry.default text).1 = .error (.grammar error) ∧ error.line = none) ↔
        ∃ grammar, (read Registry.default text).1 = .ok grammar ∧ ∃ ref, grammar.Dangles ref) := by
  refine ⟨fun error after ran => ?_, line_of_parse_eq_none_iff⟩
  have pointed := Reader.pointed_grammar text
  rw [ran] at pointed
  obtain ⟨of, points | ⟨none, _⟩⟩ := pointed
  · refine ⟨of.pending, ?_⟩
    cases points with
    | last closed last => exact ⟨_, rfl, rfl, .inl ⟨closed, last⟩⟩
    | opening opens => exact ⟨_, rfl, rfl, .inr ⟨_, _, rfl, opens, rfl⟩⟩
  · exact none.elim

/-- An argument that is no integer, on the second line. -/
def misplacedText : String := "S : \"a\" ;\n  | range(x) ."

theorem errors_point_misplaced :
    ((Reader.grammar Registry.default).run (.ofText misplacedText)).1 =
        .error (.located (.expectedArgument ⟨.ident, "x"⟩) ⟨2, 11⟩) ∧
      (∃ place : Position, some (2 : Int) = some (place.line : Int) ∧
        some (11 : Int) = some (place.column : Int) ∧ LastAt misplacedText 8 place) ∧
      (parse Registry.default "S : T .").1 = .error (.bare (.unknownReference "T" "S")) ∧
      ∃ grammar, (read Registry.default "S : T .").1 = .ok grammar ∧ ∃ ref, grammar.Dangles ref := by
  have refused : ((Reader.grammar Registry.default).run (.ofText misplacedText)).1 =
      .error (.located (.expectedArgument ⟨.ident, "x"⟩) ⟨2, 11⟩) := by decide +kernel
  have consumed : ((Reader.grammar Registry.default).run (.ofText misplacedText)).2.reads = 8 := by
    decide +kernel
  have dangling : (parse Registry.default "S : T .").1 = .error (.bare (.unknownReference "T" "S")) := by
    decide +kernel
  refine ⟨refused, ?_, dangling, (errors_point "S : T .").2.mp ⟨_, dangling, rfl⟩⟩
  obtain ⟨_, place, line, column, last | ⟨form, _, other, _⟩⟩ :=
    (errors_point misplacedText).1 _ _ (Prod.ext refused rfl)
  · rw [consumed] at last
    exact ⟨place, line, column, last.2⟩
  · cases other

end Grammar

end PhraseGrammar
