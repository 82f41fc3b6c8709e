import PhraseGrammar.Proofs.Token.Lookahead
import PhraseGrammar.Proofs.Token.Places

/-!
# Places told from a moving mark

A cursor knows offsets in a text. It tells places from a mark, up to which it
has counted the lines: the mark is moved on to the offset that a place is asked
for, over what lies between, and looks ahead do not move it but where they
fail. Since no offset is asked for that lies before the mark, the places are
those that a count from the start of the text gives, in whatever order the
cursor is asked for tokens, looks and characters.
-/

namespace PhraseGrammar

/-- An offset up to which lines are counted, the number of its line, and where this line begins. -/
structure Mark where
  offset : Nat
  line : Nat
  lineStart : Nat
  deriving DecidableEq, Repr

namespace Mark

def start : Mark := ⟨0, 1, 0⟩

/-- The mark moved on to an offset, over the line feeds between. It does not move back. -/
def moveTo (text : List Char) (mark : Mark) (offset : Nat) : Mark :=
  if mark.offset < offset then
    let feeds := ((text.take offset).drop mark.offset).count '\n'
    if feeds = 0 then { mark with offset }
    else ⟨offset, mark.line + feeds, (lastLineFeed? text mark.offset offset).elim 0 (· + 1)⟩
  else mark

/-- The column of an offset in the line of the mark. -/
def column (mark : Mark) (offset : Nat) : Int :=
  offset - mark.lineStart + 1

end Mark

/-- A token, or the end of the text, with the offsets where it begins and ends. -/
structure Sighting where
  token : Token
  first : Nat
  stop : Nat
  deriving DecidableEq, Repr

/-- The first token of what stands at an offset, or what is open there and where it opens. -/
def Sighting.search : List Char → Nat → Nat → Except (Unclosed × Nat) Sighting
  | [], _, offset => .ok ⟨.eof, offset, offset⟩
  | _ :: rest, skip + 1, offset => search rest skip (offset + 1)
  | c :: rest, 0, offset =>
      match Front.ofText c rest with
      | .layout more => search rest more (offset + 1)
      | .token kind more =>
          let piece := c :: rest.take more
          .ok ⟨⟨kind, String.ofList piece⟩, offset, offset + piece.length⟩
      | .unterminated form => .error (form, offset)

/--
Where a cursor stands: the offset behind the last consumed token, what it has
seen ahead, the place of the last consumed token, and the mark.
-/
structure Cursor where
  offset : Nat
  ahead : Option Sighting
  line : Nat
  column : Int
  mark : Mark
  deriving DecidableEq, Repr

namespace Cursor

def start : Cursor := ⟨0, none, 1, 1, .start⟩

variable (text : List Char) (cursor : Cursor)

def upcoming : Except (Unclosed × Nat) Sighting :=
  cursor.ahead.elim (Sighting.search (text.drop cursor.offset) 0 cursor.offset) .ok

/-- The cursor behind a token. -/
def pass (seen : Sighting) : Cursor :=
  let mark := cursor.mark.moveTo text seen.first
  ⟨seen.stop, none, mark.line, mark.column seen.first, mark⟩

/-- A failure at an offset moves the mark, and nothing else. -/
def fail (form : Unclosed) (offset : Nat) : Except GrammarError Token × Cursor :=
  let mark := cursor.mark.moveTo text offset
  (.error ⟨.unterminated form, some mark.line, some (mark.column offset)⟩, { cursor with mark })

def next : Except GrammarError Token × Cursor :=
  match cursor.upcoming text with
  | .ok seen => (.ok seen.token, cursor.pass text seen)
  | .error (form, offset) => cursor.fail text form offset

def peek : Except GrammarError Token × Cursor :=
  match cursor.upcoming text with
  | .ok seen => (.ok seen.token, { cursor with ahead := some seen })
  | .error (form, offset) => cursor.fail text form offset

def peekChar : Option Char :=
  text[cursor.offset]?

def asked : Lexer.Call → Cursor
  | .next => (cursor.next text).2
  | .peek => (cursor.peek text).2
  | .peekChar => cursor

/-- The cursor after a sequence of calls. -/
def after (calls : List Lexer.Call) : Cursor :=
  calls.foldl (asked text) cursor

end Cursor

variable {text : List Char}

theorem lastLineFeed?_eq_none_iff {low high : Nat} :
    lastLineFeed? text low high = none ↔
      ∀ offset, low ≤ offset → offset < high → text[offset]? ≠ some '\n' := by
  induction high with
  | zero => exact ⟨fun _ offset _ below => absurd below (Nat.not_lt_zero _), fun _ => rfl⟩
  | succ high ih =>
      rw [lastLineFeed?_succ]
      split
      · rename_i here
        exact ⟨nofun, fun clear => absurd here.2 (clear high here.1 (Nat.lt_succ_self _))⟩
      · rename_i other
        rw [ih]
        constructor
        · intro clear offset above below
          rcases Nat.lt_succ_iff_lt_or_eq.mp below with before | rfl
          · exact clear offset above before
          · exact fun feed => other ⟨above, feed⟩
        · exact fun clear offset above below => clear offset above (Nat.lt_succ_of_lt below)

/-- The last line feed before an offset stands behind a lower one, or is the last before that. -/
theorem lastLineFeed?_zero (text : List Char) {low high : Nat} (ordered : low ≤ high) :
    lastLineFeed? text 0 high =
      (lastLineFeed? text low high).or (lastLineFeed? text 0 low) := by
  induction high with
  | zero =>
      cases Nat.le_zero.mp ordered
      rfl
  | succ high ih =>
      rcases Nat.le_succ_iff.mp ordered with below | rfl
      · rw [lastLineFeed?_succ, lastLineFeed?_succ, ih below]
        by_cases feed : text[high]? = some '\n'
        · rw [if_pos ⟨Nat.zero_le _, feed⟩, if_pos ⟨below, feed⟩]
          rfl
        · rw [if_neg fun found => feed found.2, if_neg fun found => feed found.2]
      · have clear : lastLineFeed? text (high + 1) (high + 1) = none :=
          lastLineFeed?_eq_none_iff.mpr fun offset above below =>
            absurd above (Nat.not_le_of_lt below)
        rw [clear, Option.none_or]

/-- What lies between two offsets has a line feed where one is found. -/
theorem count_between_eq_zero_iff {low high : Nat} :
    ((text.take high).drop low).count '\n' = 0 ↔ lastLineFeed? text low high = none := by
  rw [List.count_eq_zero, lastLineFeed?_eq_none_iff, List.mem_iff_getElem?]
  constructor
  · rintro none offset above below feed
    refine none ⟨offset - low, ?_⟩
    rw [List.getElem?_drop, Nat.add_sub_cancel' above, List.getElem?_take_of_lt below, feed]
  · rintro clear ⟨number, found⟩
    rw [List.getElem?_drop, List.getElem?_take] at found
    split at found
    · rename_i below
      exact clear _ (Nat.le_add_right _ _) below found
    · cases found

theorem count_take_add (text : List Char) {low high : Nat} (ordered : low ≤ high) :
    (text.take high).count '\n' =
      (text.take low).count '\n' + ((text.take high).drop low).count '\n' := by
  conv => lhs; rw [← List.take_append_drop low (text.take high), List.count_append]
  rw [List.take_take, Nat.min_eq_left ordered]

namespace Mark

/-- The line of the mark and its beginning are those of its offset. -/
structure Exact (text : List Char) (mark : Mark) : Prop where
  line : mark.line = (Position.ofOffset text mark.offset).line
  lineStart : mark.lineStart = PhraseGrammar.lineStart text mark.offset

theorem exact_start (text : List Char) : start.Exact text := ⟨rfl, rfl⟩

/-- A mark that is moved on counts what a count from the start of the text gives. -/
theorem Exact.moveTo {mark : Mark} (exact : mark.Exact text) {offset : Nat}
    (ahead : mark.offset ≤ offset) :
    (mark.moveTo text offset).Exact text ∧ (mark.moveTo text offset).offset = offset := by
  obtain ⟨line, lineStart⟩ := exact
  unfold Mark.moveTo
  split
  · have feeds := count_take_add text ahead
    have last := lastLineFeed?_zero text ahead
    dsimp only
    split
    · rename_i none
      rw [none] at feeds
      rw [count_between_eq_zero_iff.mp none, Option.none_or] at last
      refine ⟨⟨?_, ?_⟩, rfl⟩
      · rw [line, Position.ofOffset, Position.ofOffset, feeds]
        rfl
      · rw [lineStart, PhraseGrammar.lineStart, PhraseGrammar.lineStart, last]
    · rename_i some
      refine ⟨⟨?_, ?_⟩, rfl⟩
      · rw [line, Position.ofOffset, Position.ofOffset, feeds, Nat.add_assoc]
      · cases found : lastLineFeed? text mark.offset offset with
        | none => exact absurd (count_between_eq_zero_iff.mpr found) some
        | some feed =>
            rw [PhraseGrammar.lineStart, last, found, Option.some_or]
  · rename_i reached
    exact ⟨⟨line, lineStart⟩, Nat.le_antisymm ahead (Nat.not_lt.mp reached)⟩

theorem Exact.column_eq {mark : Mark} (exact : mark.Exact text) :
    mark.column mark.offset = (Position.ofOffset text mark.offset).column := by
  have bound := lineStart_le text mark.offset
  change _ = ((mark.offset - PhraseGrammar.lineStart text mark.offset + 1 : Nat) : Int)
  rw [column, exact.lineStart]
  omega

end Mark

/--
What is sighted from an offset on is what a lexer finds, places being told by
offsets.
-/
inductive Sighting.Sees (text : List Char) (low : Nat) :
    Except (Unclosed × Nat) Sighting → Found → Prop where
  | token {lexeme : Lexeme} {rest : List Char} {first stop : Nat} {behind : Position}
      (above : low ≤ first) (forward : first ≤ stop) (within : stop ≤ text.length)
      (begins : lexeme.place = .ofOffset text first) (remains : rest = text.drop stop)
      (ends : behind = .ofOffset text stop) :
      Sees text low (.ok ⟨lexeme.token, first, stop⟩) (.token lexeme rest behind)
  | eof {place : Position} (above : low ≤ text.length)
      (ends : place = .ofOffset text text.length) :
      Sees text low (.ok ⟨.eof, text.length, text.length⟩) (.ended (.eof place))
  | unterminated {form : Unclosed} {first : Nat} {place : Position} (above : low ≤ first)
      (begins : place = .ofOffset text first) :
      Sees text low (.error (form, first)) (.ended (.unterminated form place))

namespace Sighting

theorem Sees.weaken {low lower : Nat} {seen : Except (Unclosed × Nat) Sighting} {found : Found}
    (sees : Sees text low seen found) (less : lower ≤ low) : Sees text lower seen found := by
  cases sees with
  | token above forward within begins remains ends =>
      exact .token (Nat.le_trans less above) forward within begins remains ends
  | eof above ends => exact .eof (Nat.le_trans less above) ends
  | unterminated above begins => exact .unterminated (Nat.le_trans less above) begins

/-- The token that is sighted, or the error about what is open. -/
def answer (text : List Char) : Except (Unclosed × Nat) Sighting → Except GrammarError Token
  | .ok seen => .ok seen.token
  | .error (form, offset) => .error (.located (.unterminated form) (.ofOffset text offset))

theorem Sees.token?_eq {low : Nat} {seen : Except (Unclosed × Nat) Sighting} {found : Found}
    (sees : Sees text low seen found) : found.token? = answer text seen := by
  cases sees with
  | token => rfl
  | eof => rfl
  | unterminated _ begins =>
      subst begins
      rfl

/-- Both searches go through a text alike, by induction on what is left of it. -/
theorem sees_search {read rest : List Char} (whole : text = read ++ rest) (skip : Nat) :
    Sees text read.length (search rest skip read.length)
      (Found.search rest skip (Position.start.after read)) := by
  induction rest generalizing read skip with
  | nil =>
      rw [List.append_nil] at whole
      subst whole
      exact .eof (Nat.le_refl _) (Position.after_eq_ofOffset (List.append_nil _).symm)
  | cons c rest ih =>
      have further (skip : Nat) : Sees text read.length (search rest skip (read.length + 1))
          (Found.search rest skip ((Position.start.after read).advance c)) := by
        have inner := @ih (read ++ [c]) (by rw [whole, List.append_assoc]; rfl) skip
        rw [Position.after_append, List.length_append] at inner
        exact inner.weaken (Nat.le_add_right _ _)
      cases skip with
      | succ skip => exact further skip
      | zero =>
          rw [search, Found.search]
          cases Front.ofText c rest with
          | layout more => exact further more
          | unterminated form =>
              exact .unterminated (Nat.le_refl _) (Position.after_eq_ofOffset whole)
          | token kind more =>
              have cut : text = (read ++ c :: rest.take more) ++ rest.drop more := by
                rw [whole, List.append_assoc, List.cons_append, List.take_append_drop]
              have behind := Position.after_eq_ofOffset cut
              rw [Position.after_append, List.length_append] at behind
              have begins : (Lexeme.cut kind more c rest (Position.start.after read)).place =
                  .ofOffset text read.length := Position.after_eq_ofOffset whole
              refine .token (Nat.le_refl _) (Nat.le_add_right _ _) ?_ begins ?_ behind
              · rw [cut, List.length_append, List.length_append]
                exact Nat.le_add_right _ _
              · rw [cut, List.drop_left' List.length_append]

end Sighting

/-! ## A cursor beside a lexer -/

namespace Cursor

/-- The offset where what is sighted begins. -/
def firstOf : Except (Unclosed × Nat) Sighting → Nat
  | .ok seen => seen.first
  | .error (_, offset) => offset

/--
A cursor stands where a lexer does. Its mark is exact and not behind what comes
next, so that it never has to be moved back.
-/
structure Beside (text : List Char) (cursor : Cursor) (lexer : Lexer) : Prop where
  within : cursor.offset ≤ text.length
  rest : lexer.rest = text.drop cursor.offset
  place : lexer.place = .ofOffset text cursor.offset
  line : cursor.line = lexer.last.line
  column : cursor.column = lexer.last.column
  kept : cursor.upcoming text = Sighting.search (text.drop cursor.offset) 0 cursor.offset
  found : lexer.upcoming = Found.search lexer.rest 0 lexer.place
  exact : cursor.mark.Exact text
  behind : cursor.mark.offset ≤ firstOf (cursor.upcoming text)

theorem le_firstOf {low : Nat} {seen : Except (Unclosed × Nat) Sighting} {found : Found}
    (sees : Sighting.Sees text low seen found) : low ≤ firstOf seen := by
  cases sees with
  | token above => exact above
  | eof above => exact above
  | unterminated above => exact above

theorem sees_search {offset : Nat} (within : offset ≤ text.length) :
    Sighting.Sees text offset (Sighting.search (text.drop offset) 0 offset)
      (Found.search (text.drop offset) 0 (.ofOffset text offset)) := by
  have sees := Sighting.sees_search (List.take_append_drop offset text).symm 0
  rwa [List.length_take_of_le within, Position.after_take within] at sees

theorem beside_start (text : String) : Beside text.toList start (.ofText text) where
  within := Nat.zero_le _
  rest := rfl
  place := rfl
  line := rfl
  column := rfl
  kept := rfl
  found := rfl
  exact := Mark.exact_start _
  behind := Nat.zero_le _

namespace Beside

variable {cursor : Cursor} {lexer : Lexer}

theorem sees (beside : Beside text cursor lexer) :
    Sighting.Sees text cursor.offset (cursor.upcoming text) lexer.upcoming := by
  rw [beside.kept, beside.found, beside.rest, beside.place]
  exact sees_search beside.within

/-- Behind a token the mark is where the token begins, which is before all that follows. -/
theorem pass (beside : Beside text cursor lexer) (token : Token) {first stop : Nat}
    (behind : cursor.mark.offset ≤ first) (forward : first ≤ stop) (within : stop ≤ text.length) :
    Beside text (cursor.pass text ⟨token, first, stop⟩)
      ⟨text.drop stop, .ofOffset text stop, .ofOffset text first, none⟩ := by
  obtain ⟨exact, reached⟩ := beside.exact.moveTo behind
  have line := exact.line
  have column := exact.column_eq
  rw [reached] at line column
  refine ⟨within, rfl, rfl, line, column, rfl, rfl, exact, ?_⟩
  calc (cursor.mark.moveTo text first).offset
    _ = first := reached
    _ ≤ stop := forward
    _ ≤ firstOf (Sighting.search (text.drop stop) 0 stop) := le_firstOf (sees_search within)

/-- Where something stays open, the mark is moved there, and the cursor is told of by its place. -/
theorem fail (beside : Beside text cursor lexer) {form : Unclosed} {first : Nat}
    (opens : cursor.upcoming text = .error (form, first)) :
    (cursor.fail text form first).1 =
        .error (.located (.unterminated form) (.ofOffset text first)) ∧
      Beside text (cursor.fail text form first).2 lexer := by
  have behind := beside.behind
  rw [opens] at behind
  change cursor.mark.offset ≤ first at behind
  obtain ⟨exact, reached⟩ := beside.exact.moveTo behind
  have line := exact.line
  have column := exact.column_eq
  rw [reached] at line column
  refine ⟨?_, beside.within, beside.rest, beside.place, beside.line, beside.column, beside.kept,
    beside.found, exact, ?_⟩
  · rw [Cursor.fail, line, column]
    rfl
  · change (cursor.mark.moveTo text first).offset ≤ firstOf (cursor.upcoming text)
    rw [opens, reached]
    exact Nat.le_refl _

theorem next (beside : Beside text cursor lexer) :
    (cursor.next text).1 = lexer.next.1 ∧ Beside text (cursor.next text).2 lexer.next.2 := by
  have sees := beside.sees
  have behind := beside.behind
  unfold Cursor.next Lexer.next
  cases seen : cursor.upcoming text with
  | error opened =>
      obtain ⟨form, first⟩ := opened
      obtain ⟨failed, still⟩ := beside.fail seen
      rw [seen] at sees
      cases found : lexer.upcoming with
      | token lexeme rest place =>
          rw [found] at sees
          cases sees
      | ended ending =>
          rw [found] at sees
          cases sees with
          | unterminated above begins =>
              subst begins
              exact ⟨failed, still⟩
  | ok sighting =>
      rw [seen] at sees behind
      cases found : lexer.upcoming with
      | token lexeme rest place =>
          rw [found] at sees
          cases sees with
          | @token _ _ first stop _ above forward within begins remains ends =>
              subst remains ends
              have passed : Beside text (cursor.pass text ⟨lexeme.token, first, stop⟩) _ :=
                beside.pass lexeme.token behind forward within
              rw [← begins] at passed
              exact ⟨rfl, passed⟩
      | ended ending =>
          rw [found] at sees
          cases sees with
          | eof above ends =>
              subst ends
              have passed : Beside text (cursor.pass text ⟨.eof, text.length, text.length⟩)
                  ⟨text.drop text.length, .ofOffset text text.length,
                    .ofOffset text text.length, none⟩ :=
                beside.pass .eof behind (Nat.le_refl _) (Nat.le_refl _)
              rw [List.drop_length] at passed
              exact ⟨rfl, passed⟩

theorem peek (beside : Beside text cursor lexer) :
    (cursor.peek text).1 = lexer.peek.1 ∧ Beside text (cursor.peek text).2 lexer.peek.2 := by
  have told := beside.sees.token?_eq
  unfold Cursor.peek Lexer.peek
  cases seen : cursor.upcoming text with
  | error opened =>
      obtain ⟨form, first⟩ := opened
      rw [seen] at told
      simp only [told, Sighting.answer]
      exact beside.fail seen
  | ok sighting =>
      rw [seen] at told
      simp only [told, Sighting.answer]
      refine ⟨trivial, beside.within, beside.rest, beside.place, beside.line, beside.column, ?_,
        beside.found, beside.exact, ?_⟩
      · exact seen.symm.trans beside.kept
      · have behind := beside.behind
        rwa [seen] at behind

/-- One call. -/
theorem asked (beside : Beside text cursor lexer) (call : Lexer.Call) :
    Beside text (cursor.asked text call) (lexer.asked call) := by
  cases call with
  | next => exact beside.next.2
  | peek => exact beside.peek.2
  | peekChar => exact beside

/-- Any sequence of calls. -/
theorem after (beside : Beside text cursor lexer) (calls : List Lexer.Call) :
    Beside text (cursor.after text calls) (lexer.after calls) := by
  induction calls generalizing cursor lexer with
  | nil => exact beside
  | cons call calls ih => exact ih (beside.asked call)

theorem peekChar (beside : Beside text cursor lexer) : cursor.peekChar text = lexer.peekChar := by
  rw [Cursor.peekChar, Lexer.peekChar, beside.rest, List.head?_drop]

end Beside

end Cursor

/-! ## The places of tokens and of failures -/

namespace Stands

variable {text : String} {count : Nat} {read rest : List Char} {last : Position}

/-- Behind a lexeme the place of the last token is that of the lexeme. -/
theorem last_of_lexeme (stands : Stands text (count + 1) read rest last) {lexeme : Lexeme}
    (here : (lexemes text).1[count]? = some lexeme) : last = lexeme.place := by
  have within := (List.getElem?_eq_some_iff.mp here).1
  have taken : (lexemes text).1.take (count + 1) = (lexemes text).1.take count ++ [lexeme] := by
    rw [List.take_add_one, here, Option.toList_some]
  cases stands with
  | start first _ _ =>
      rw [taken] at first
      exact absurd first (List.append_ne_nil_of_right_ne_nil _ (List.cons_ne_nil _ _))
  | token latest _ _ _ _ =>
      rw [taken, List.getLast?_concat] at latest
      rw [Option.some.inj latest]
  | eof ended _ => exact absurd ended.1 (Nat.not_lt_of_le within)

theorem last_of_ended (stands : Stands text count read rest last) (ended : EndConsumed text count)
    {place : Position} (reached : (lexemes text).2 = .eof place) : last = place := by
  cases stands with
  | start _ unended _ => exact absurd ended unended
  | token _ unended _ _ _ => exact absurd ended unended
  | eof _ same =>
      rw [same] at reached
      cases reached
      rfl

end Stands

namespace Lexer

open Lexical

variable {text : String} {count : Nat} {lexer : Lexer}

/-- Behind a token the place is that of the offset where it begins. -/
theorem Consumed.last_eq (consumed : Consumed text (count + 1) lexer) {token : Token}
    (given : tokenAt text count = .ok token) :
    ∃ offset, Begins text.toList (tokensBefore text count) token offset ∧
      lexer.last = .ofOffset text.toList offset := by
  obtain ⟨read, stands, _⟩ := consumed.stands
  unfold tokenAt at given
  cases here : (lexemes text).1[count]? with
  | some lexeme =>
      rw [here] at given
      cases given
      obtain ⟨offset, begins, place⟩ := begins_of_lexeme here
      exact ⟨offset, begins, (stands.last_of_lexeme here).trans place⟩
  | none =>
      have behind := List.getElem?_eq_none_iff.mp here
      cases ended : (lexemes text).2 with
      | unterminated form place =>
          rw [here, ended] at given
          cases given
      | eof place =>
          rw [here, ended] at given
          cases given
          obtain ⟨begins, same⟩ := begins_eof ended behind
          have consumes : EndConsumed text (count + 1) := ⟨Nat.lt_succ_of_le behind, place, ended⟩
          exact ⟨_, begins, (stands.last_of_ended consumes ended).trans same⟩

end Lexer

/-- An error in place of a token carries the place of what is open. -/
theorem opens_of_tokenAt {text : String} {count : Nat} {error : GrammarError}
    (fails : tokenAt text count = .error error) :
    ∃ form offset, Lexical.Opens text.toList (tokensBefore text count) form offset ∧
      error = .located (.unterminated form) (.ofOffset text.toList offset) := by
  unfold tokenAt at fails
  cases here : (lexemes text).1[count]? with
  | some lexeme =>
      rw [here] at fails
      cases fails
  | none =>
      cases ended : (lexemes text).2 with
      | eof place =>
          rw [here, ended] at fails
          cases fails
      | unterminated form place =>
          rw [here, ended] at fails
          cases fails
          obtain ⟨offset, opens, same⟩ :=
            opens_of_unterminated ended (List.getElem?_eq_none_iff.mp here)
          exact ⟨form, offset, opens, by rw [same]⟩

namespace Cursor

open Lexical

/--
Places told from the moving mark are exact. Whatever a cursor was asked for
before, behind a token its place is that of the offset where the token begins,
the tokens before it being those that the calls have consumed; and an error of
a call or of a look carries the place of the offset where something is open.
The cursor gives the answers of the lexer, and has the place of its last token.
-/
theorem places_exact (text : String) (calls : List Lexer.Call) :
    (∀ token, ((start.after text.toList calls).next text.toList).1 = .ok token →
      (∃ offset, Begins text.toList (tokensBefore text (calls.count .next)) token offset) ∧
        ∀ offset, Begins text.toList (tokensBefore text (calls.count .next)) token offset →
          ((start.after text.toList calls).next text.toList).2.line =
              (Position.ofOffset text.toList offset).line ∧
            ((start.after text.toList calls).next text.toList).2.column =
              (Position.ofOffset text.toList offset).column) ∧
      (∀ error, ((start.after text.toList calls).next text.toList).1 = .error error ∨
          ((start.after text.toList calls).peek text.toList).1 = .error error →
        (∃ form offset, Opens text.toList (tokensBefore text (calls.count .next)) form offset) ∧
          ∀ form offset, Opens text.toList (tokensBefore text (calls.count .next)) form offset →
            error = .located (.unterminated form) (.ofOffset text.toList offset)) ∧
      ((start.after text.toList calls).next text.toList).1 =
        ((Lexer.ofText text).after calls).next.1 ∧
      ((start.after text.toList calls).peek text.toList).1 =
        ((Lexer.ofText text).after calls).peek.1 ∧
      (start.after text.toList calls).peekChar text.toList =
        ((Lexer.ofText text).after calls).peekChar ∧
      (start.after text.toList calls).line = ((Lexer.ofText text).after calls).last.line ∧
      (start.after text.toList calls).column = ((Lexer.ofText text).after calls).last.column := by
  have beside := (beside_start text).after calls
  have consumed := (Lexer.consumed_ofText text).after calls
  rw [Nat.zero_add] at consumed
  obtain ⟨same, behind⟩ := beside.next
  have looked := beside.peek.1
  refine ⟨?_, ?_, same, looked, beside.peekChar, beside.line, beside.column⟩
  · intro token given
    rw [same, consumed.next_eq] at given
    obtain ⟨offset, begins, last⟩ := consumed.next.last_eq given
    refine ⟨⟨offset, begins⟩, fun other again => ?_⟩
    obtain rfl := begins.unique again
    exact ⟨last ▸ behind.line, last ▸ behind.column⟩
  · intro error fails
    rw [same, looked, Lexer.peek_eq_next, or_self, consumed.next_eq] at fails
    obtain ⟨form, offset, opens, rfl⟩ := opens_of_tokenAt fails
    refine ⟨⟨form, offset, opens⟩, fun other place again => ?_⟩
    obtain ⟨rfl, rfl⟩ := opens.unique again
    rfl

/-- A comment that spans lines, a name behind it, and a string on the last line that stays open. -/
def spreadText : String := "a /*\n*/ b\n \"c"

theorem places_exact_spread :
    ((start.after spreadText.toList [.peek, .next, .peek]).next spreadText.toList).1 =
        .ok ⟨.ident, "b"⟩ ∧
      (∃ offset, Begins spreadText.toList (tokensBefore spreadText 1) ⟨.ident, "b"⟩ offset ∧
        2 = (Position.ofOffset spreadText.toList offset).line ∧
        (4 : Int) = (Position.ofOffset spreadText.toList offset).column) ∧
      ((start.after spreadText.toList [.next, .peek, .next]).peek spreadText.toList).1 =
        .error (.located (.unterminated .literal) ⟨3, 2⟩) ∧
      ∃ form offset, Opens spreadText.toList (tokensBefore spreadText 2) form offset ∧
        GrammarError.located (.unterminated .literal) ⟨3, 2⟩ =
          .located (.unterminated form) (.ofOffset spreadText.toList offset) := by
  have given : ((start.after spreadText.toList [.peek, .next, .peek]).next spreadText.toList).1 =
      .ok ⟨.ident, "b"⟩ := by rfl
  have fails : ((start.after spreadText.toList [.next, .peek, .next]).peek spreadText.toList).1 =
      .error (.located (.unterminated .literal) ⟨3, 2⟩) := by rfl
  obtain ⟨⟨offset, begins⟩, placed⟩ := (places_exact spreadText [.peek, .next, .peek]).1 _ given
  obtain ⟨⟨form, opening, opens⟩, located⟩ :=
    (places_exact spreadText [.next, .peek, .next]).2.1 _ (.inr fails)
  exact ⟨given, ⟨offset, begins, placed offset begins⟩, fails, form, opening, opens,
    located form opening opens⟩

end Cursor

end PhraseGrammar
