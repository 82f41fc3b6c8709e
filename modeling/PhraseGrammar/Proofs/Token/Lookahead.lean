import PhraseGrammar.Proofs.Token.Tiling

/-!
# Looking ahead

A lexer is asked for its next token, for a look at it, or for the character
behind the last consumed token, in any order and also after failures. How far
it stands in the text depends on the number of tokens asked for alone: looks
and failures leave no trace. At the end of the text the end is given out for
ever, before an open literal or comment the same error.
-/

namespace PhraseGrammar

open Lexical

/--
The token of a text behind that many: one of its lexemes, or else what the
lexemes end with, again and again.
-/
def tokenAt (text : String) (count : Nat) : Except GrammarError Token :=
  match (lexemes text).1[count]?, (lexemes text).2 with
  | some lexeme, _ => .ok lexeme.token
  | none, .eof _ => .ok .eof
  | none, .unterminated form place => .error (.located (.unterminated form) place)

/-- With that many tokens the end of the text has been consumed as well. -/
def EndConsumed (text : String) (count : Nat) : Prop :=
  (lexemes text).1.length < count ∧ ∃ place, (lexemes text).2 = .eof place

/--
Where one stands in a text behind the last of that many tokens: what is read
and what follows, and the place where that last token begins.
-/
inductive Stands (text : String) (count : Nat) : List Char → List Char → Position → Prop where
  | start {rest : List Char} (first : (lexemes text).1.take count = [])
      (unended : ¬EndConsumed text count) (whole : text.toList = rest) :
      Stands text count [] rest .start
  | token {gap piece rest : List Char} {lexeme : Lexeme}
      (last : ((lexemes text).1.take count).getLast? = some lexeme)
      (unended : ¬EndConsumed text count) (whole : text.toList = gap ++ piece ++ rest)
      (spelled : lexeme.token.text = String.ofList piece)
      (begins : lexeme.place = Position.start.after gap) :
      Stands text count (gap ++ piece) rest lexeme.place
  | eof {place : Position} (ended : EndConsumed text count)
      (reached : (lexemes text).2 = .eof place) : Stands text count text.toList [] place

theorem Stands.whole {text : String} {count : Nat} {read rest : List Char} {last : Position}
    (stands : Stands text count read rest last) : text.toList = read ++ rest := by
  cases stands with
  | start _ _ whole => exact whole
  | token _ _ whole _ _ => exact whole
  | eof _ _ => exact (List.append_nil _).symm

namespace Found

/-- A token that is found is cut out of the text, with layout before it. -/
theorem of_search_eq_token {text rest : List Char} {place behind : Position} {lexeme : Lexeme}
    (found : search text 0 place = .token lexeme rest behind) :
    ∃ gap piece, text = gap ++ piece ++ rest ∧ lexeme.token.text = String.ofList piece ∧
      lexeme.place = place.after gap ∧ behind = place.after (gap ++ piece) := by
  obtain ⟨consumed, remainder, tokens, stop, rfl, tiling, halts⟩ := exists_tiling text
  cases tiling with
  | layout layout =>
      rw [search_layout layout, search_halts halts] at found
      cases found
  | @token gap piece others kind tokens layout spells further =>
      rw [List.append_assoc, List.append_assoc, search_layout layout, search_spells spells] at found
      cases found
      refine ⟨gap, piece, ?_, rfl, rfl, (Position.after_append _ _ _).symm⟩
      simp only [List.append_assoc]

/-- A search that ends the text has passed over all of it. -/
theorem of_search_eq_eof {text : List Char} {place final : Position}
    (found : search text 0 place = .ended (.eof final)) : final = place.after text := by
  obtain ⟨consumed, remainder, tokens, stop, rfl, tiling, halts⟩ := exists_tiling text
  cases tiling with
  | layout layout =>
      rw [search_layout layout, search_halts halts] at found
      cases halts with
      | eof =>
          cases found
          rw [List.append_nil]
      | unterminated opened => cases found
  | @token gap piece others kind tokens layout spells further =>
      rw [List.append_assoc, List.append_assoc, search_layout layout, search_spells spells] at found
      cases found

end Found

namespace Lexer

/-- What a lexer can be asked for. -/
inductive Call where
  | next
  | peek
  | peekChar
  deriving DecidableEq, Repr

/-- The lexer after it was asked. -/
def asked (lexer : Lexer) : Call → Lexer
  | .next => lexer.next.2
  | .peek => lexer.peek.2
  | .peekChar => lexer

/-- The lexer after a sequence of calls. -/
def after (lexer : Lexer) (calls : List Call) : Lexer :=
  calls.foldl asked lexer

/-- What the calls for the next token among others come to, in their order. -/
def given (lexer : Lexer) : List Call → List (Except GrammarError Token)
  | [] => []
  | .next :: calls => lexer.next.1 :: given lexer.next.2 calls
  | call :: calls => given (lexer.asked call) calls

/--
The state of a lexer that was asked for that many tokens of a text. What it has
seen ahead, if anything, is what a search from where it stands would find.
-/
structure Consumed (text : String) (count : Nat) (lexer : Lexer) : Prop where
  remaining : Lexeme.scan lexer.rest 0 lexer.place =
    ((lexemes text).1.drop count, (lexemes text).2)
  seen : lexer.ahead = none ∨ lexer.ahead = some (Found.search lexer.rest 0 lexer.place)
  stands : ∃ read, Stands text count read lexer.rest lexer.last ∧
    lexer.place = Position.start.after read

theorem consumed_ofText (text : String) : Consumed text 0 (ofText text) where
  remaining := rfl
  seen := .inl rfl
  stands := ⟨[], .start rfl (fun ended => Nat.not_lt_zero _ ended.1) rfl, rfl⟩

namespace Consumed

variable {text : String} {count : Nat} {lexer : Lexer}

theorem upcoming_eq (consumed : Consumed text count lexer) :
    lexer.upcoming = Found.search lexer.rest 0 lexer.place := by
  rw [upcoming]
  rcases consumed.seen with unseen | seen
  · rw [unseen, Option.getD_none]
  · rw [seen, Option.getD_some]

/-- The answer to a call for the next token. -/
theorem next_eq (consumed : Consumed text count lexer) : lexer.next.1 = tokenAt text count := by
  have remaining := consumed.remaining
  rw [Lexeme.scan_eq_search] at remaining
  rw [next, tokenAt, ← List.head?_drop, consumed.upcoming_eq]
  cases found : Found.search lexer.rest 0 lexer.place with
  | token lexeme rest behind =>
      rw [found] at remaining
      rw [← (Prod.mk.inj remaining).1, List.head?_cons]
      rfl
  | ended ending =>
      rw [found] at remaining
      rw [← (Prod.mk.inj remaining).1, ← (Prod.mk.inj remaining).2, List.head?_nil]
      cases ending <;> rfl

/-- A token is consumed. -/
theorem pass_token (consumed : Consumed text count lexer) {lexeme : Lexeme} {rest : List Char}
    {behind : Position}
    (found : Found.search lexer.rest 0 lexer.place = .token lexeme rest behind) :
    Consumed text (count + 1) (lexer.pass (.token lexeme rest behind)) := by
  have remaining := consumed.remaining
  rw [Lexeme.scan_eq_search, found] at remaining
  obtain ⟨dropped, ended⟩ := Prod.mk.inj remaining
  have within : count < (lexemes text).1.length := by
    apply Nat.lt_of_not_le
    intro beyond
    rw [List.drop_eq_nil_of_le beyond] at dropped
    cases dropped
  have here : (lexemes text).1[count]? = some lexeme := by
    rw [← List.head?_drop, ← dropped, List.head?_cons]
  obtain ⟨read, stands, place⟩ := consumed.stands
  obtain ⟨gap, piece, cut, spelled, begins, reached⟩ := Found.of_search_eq_token found
  refine ⟨?_, .inl rfl, read ++ gap ++ piece, .token ?_ ?_ ?_ spelled ?_, ?_⟩
  · change Lexeme.scan rest 0 behind = _
    rw [← List.tail_drop, ← dropped, List.tail_cons, ← ended]
  · rw [List.take_add_one, here, Option.toList_some, List.getLast?_append, List.getLast?_singleton]
    rfl
  · exact fun ended => absurd ended.1 (by omega)
  · rw [stands.whole, cut]
    simp only [pass, List.append_assoc]
  · rw [begins, place, Position.after_append]
  · change behind = _
    rw [reached, place, ← Position.after_append, List.append_assoc]

/-- The end of the text is consumed, for the first time or again. -/
theorem pass_eof (consumed : Consumed text count lexer) {place : Position}
    (found : Found.search lexer.rest 0 lexer.place = .ended (.eof place)) :
    Consumed text (count + 1) (lexer.pass (.ended (.eof place))) := by
  have remaining := consumed.remaining
  rw [Lexeme.scan_eq_search, found] at remaining
  obtain ⟨dropped, ended⟩ := Prod.mk.inj remaining
  have beyond : (lexemes text).1.length ≤ count := List.drop_eq_nil_iff.mp dropped.symm
  obtain ⟨read, stands, reached⟩ := consumed.stands
  refine ⟨?_, .inl rfl, text.toList, ?_, ?_⟩
  · rw [List.drop_eq_nil_of_le (Nat.le_succ_of_le beyond), ← ended]
    rfl
  · exact .eof ⟨Nat.lt_succ_of_le beyond, place, ended.symm⟩ ended.symm
  · rw [stands.whole, Position.after_append, ← reached]
    exact Found.of_search_eq_eof found

/-- Where the text stays open, nothing is consumed. -/
theorem pass_unterminated (consumed : Consumed text count lexer) {form : Unclosed}
    {place : Position}
    (found : Found.search lexer.rest 0 lexer.place = .ended (.unterminated form place)) :
    Consumed text (count + 1) lexer := by
  have remaining := consumed.remaining
  rw [Lexeme.scan_eq_search, found] at remaining
  obtain ⟨dropped, ended⟩ := Prod.mk.inj remaining
  have beyond : (lexemes text).1.length ≤ count := List.drop_eq_nil_iff.mp dropped.symm
  have same : (lexemes text).1.take (count + 1) = (lexemes text).1.take count := by
    rw [List.take_of_length_le beyond, List.take_of_length_le (Nat.le_succ_of_le beyond)]
  have unended (number : Nat) : ¬EndConsumed text number := by
    rintro ⟨_, other, reached⟩
    rw [← ended] at reached
    cases reached
  refine ⟨?_, consumed.seen, ?_⟩
  · rw [Lexeme.scan_eq_search, found, List.drop_eq_nil_of_le (Nat.le_succ_of_le beyond), ← ended]
  · obtain ⟨read, stands, reached⟩ := consumed.stands
    refine ⟨read, ?_, reached⟩
    revert stands
    generalize lexer.rest = rest, lexer.last = last
    intro stands
    cases stands with
    | start first _ whole => exact .start (same ▸ first) (unended _) whole
    | token last _ whole spelled begins => exact .token (same ▸ last) (unended _) whole spelled begins
    | eof closed _ => exact absurd closed (unended count)

/-- A call for the next token counts, whether it fails or not. -/
theorem next (consumed : Consumed text count lexer) : Consumed text (count + 1) lexer.next.2 := by
  change Consumed text (count + 1) (lexer.pass lexer.upcoming)
  rw [consumed.upcoming_eq]
  cases found : Found.search lexer.rest 0 lexer.place with
  | token lexeme rest behind => exact consumed.pass_token found
  | ended ending =>
      cases ending with
      | eof place => exact consumed.pass_eof found
      | unterminated form place => exact consumed.pass_unterminated found

/-- A look ahead does not count. -/
theorem peek (consumed : Consumed text count lexer) : Consumed text count lexer.peek.2 := by
  rw [Lexer.peek]
  split
  · exact ⟨consumed.remaining, .inr (congrArg some consumed.upcoming_eq), consumed.stands⟩
  · exact consumed

/-- One call. -/
theorem asked (consumed : Consumed text count lexer) (call : Call) :
    Consumed text (count + [call].count .next) (lexer.asked call) := by
  cases call with
  | next => exact consumed.next
  | peek => exact consumed.peek
  | peekChar => exact consumed

/-- Any sequence of calls. -/
theorem after (consumed : Consumed text count lexer) (calls : List Call) :
    Consumed text (count + calls.count .next) (lexer.after calls) := by
  induction calls generalizing count lexer with
  | nil => exact consumed
  | cons call calls ih =>
      have stepped := ih (consumed.asked call)
      rwa [Nat.add_assoc, ← List.count_append] at stepped

theorem given_eq (consumed : Consumed text count lexer) (calls : List Call) :
    lexer.given calls = (List.range' count (calls.count .next)).map (tokenAt text) := by
  induction calls generalizing count lexer with
  | nil => rfl
  | cons call calls ih =>
      cases call with
      | next =>
          rw [given, List.count_cons_self, List.range'_succ, List.map_cons, consumed.next_eq,
            ih consumed.next]
      | peek => exact ih consumed.peek
      | peekChar => exact ih consumed

end Consumed

theorem peek_eq_next (lexer : Lexer) : lexer.peek.1 = lexer.next.1 := by
  rw [peek, next]
  simp only
  split
  · rename_i token found
    exact found.symm
  · rename_i error found
    exact found.symm

/-- A call for the next token that fails leaves the lexer as it was. -/
theorem next_of_error {lexer : Lexer} {error : GrammarError} (fails : lexer.next.1 = .error error) :
    lexer.next.2 = lexer := by
  change lexer.upcoming.token? = _ at fails
  change lexer.pass lexer.upcoming = lexer
  cases found : lexer.upcoming with
  | token lexeme rest behind =>
      rw [found] at fails
      cases fails
  | ended ending =>
      cases ending with
      | eof place =>
          rw [found] at fails
          cases fails
      | unterminated form place => rfl

/-- So does a look ahead that fails. -/
theorem peek_of_error {lexer : Lexer} {error : GrammarError} (fails : lexer.peek.1 = .error error) :
    lexer.peek.2 = lexer := by
  rw [peek_eq_next] at fails
  change lexer.upcoming.token? = _ at fails
  rw [peek]
  simp only [fails]

/--
Looking ahead is transparent. The tokens given out are those of the text in
their order, as without any look; a look shows what the next call for a token
will come to, whatever other looks are taken before it; the character asked for
is the one right behind the last consumed token; and a call that fails changes
neither the place in the text nor the place of the last token.
-/
theorem lookahead_transparent (text : String) (calls : List Call) :
    (ofText text).given calls = (List.range (calls.count .next)).map (tokenAt text) ∧
      (ofText text).given calls =
        (ofText text).given (List.replicate (calls.count .next) .next) ∧
      (∀ looks : List Call, .next ∉ looks →
        (((ofText text).after calls).after looks).next.1 = ((ofText text).after calls).peek.1) ∧
      (∃ read rest, Stands text (calls.count .next) read rest ((ofText text).after calls).last ∧
        ((ofText text).after calls).peekChar = rest.head?) ∧
      (∀ error, ((ofText text).after calls).next.1 = .error error →
        ((ofText text).after calls).next.2 = (ofText text).after calls) ∧
      (∀ error, ((ofText text).after calls).peek.1 = .error error →
        ((ofText text).after calls).peek.2 = (ofText text).after calls) := by
  have initial := consumed_ofText text
  have reached := initial.after calls
  rw [Nat.zero_add] at reached
  have listed : (ofText text).given calls =
      (List.range (calls.count .next)).map (tokenAt text) := by
    rw [initial.given_eq, List.range_eq_range']
  refine ⟨listed, ?_, ?_, ?_, fun error => next_of_error, fun error => peek_of_error⟩
  · rw [listed, initial.given_eq, List.count_replicate_self, List.range_eq_range']
  · intro looks none
    have looked := reached.after looks
    rw [List.count_eq_zero_of_not_mem none, Nat.add_zero] at looked
    rw [peek_eq_next, looked.next_eq, reached.next_eq]
  · obtain ⟨read, stands, _⟩ := reached.stands
    exact ⟨read, _, stands, rfl⟩

/-- Behind a name a string is open: the call for it fails however often, and stays at the name. -/
theorem lookahead_transparent_open :
    ((ofText "a \"b").after [.peek, .next, .peek]).next.1 =
        .error (.located (.unterminated .literal) ⟨1, 3⟩) ∧
      ((ofText "a \"b").after [.peek, .next, .peek]).next.2 =
        (ofText "a \"b").after [.peek, .next, .peek] ∧
      ((ofText "a \"b").after [.peek, .next, .peek]).peekChar = some ' ' := by
  have fails : ((ofText "a \"b").after [.peek, .next, .peek]).next.1 =
      .error (.located (.unterminated .literal) ⟨1, 3⟩) := by rfl
  obtain ⟨_, _, _, _, unmoved, _⟩ := lookahead_transparent "a \"b" [.peek, .next, .peek]
  exact ⟨fails, unmoved _ fails, by rfl⟩

end Lexer

end PhraseGrammar
