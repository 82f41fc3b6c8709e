import PhraseGrammar.Proofs.Token.Tiling

/-!
# Places and offsets

A place in a text is told from an offset: the line from the number of line
feeds before it, the column from where the last of them stands. The place of a
lexeme is that of the offset where its token begins, and the text before this
offset is tiled by the tokens before it.
-/

namespace PhraseGrammar

/-- The offset of the last line feed that is not before `low`, and is before the given offset. -/
def lastLineFeed? (text : List Char) (low : Nat) : Nat → Option Nat
  | 0 => none
  | high + 1 =>
      if low ≤ high ∧ text[high]? = some '\n' then some high else lastLineFeed? text low high

/-- Where the line of an offset begins: right behind the last line feed before it. -/
def lineStart (text : List Char) (offset : Nat) : Nat :=
  (lastLineFeed? text 0 offset).elim 0 (· + 1)

/-- The place of an offset. -/
def Position.ofOffset (text : List Char) (offset : Nat) : Position where
  line := 1 + (text.take offset).count '\n'
  column := offset - lineStart text offset + 1

theorem lastLineFeed?_succ (text : List Char) (low high : Nat) :
    lastLineFeed? text low (high + 1) =
      if low ≤ high ∧ text[high]? = some '\n' then some high else lastLineFeed? text low high := rfl

/-- A line feed that is found stands within the bounds. -/
theorem bounds_of_lastLineFeed? {text : List Char} {low high offset : Nat}
    (found : lastLineFeed? text low high = some offset) :
    low ≤ offset ∧ offset < high ∧ text[offset]? = some '\n' := by
  induction high with
  | zero => cases found
  | succ high ih =>
      rw [lastLineFeed?_succ] at found
      split at found
      · rename_i here
        cases found
        exact ⟨here.1, Nat.lt_succ_self _, here.2⟩
      · obtain ⟨above, below, feed⟩ := ih found
        exact ⟨above, Nat.lt_succ_of_lt below, feed⟩

theorem lineStart_le (text : List Char) (offset : Nat) : lineStart text offset ≤ offset := by
  unfold lineStart
  cases found : lastLineFeed? text 0 offset with
  | none => exact Nat.zero_le _
  | some feed => exact (bounds_of_lastLineFeed? found).2.1

theorem lineStart_succ (text : List Char) (offset : Nat) :
    lineStart text (offset + 1) =
      if text[offset]? = some '\n' then offset + 1 else lineStart text offset := by
  rw [lineStart, lastLineFeed?_succ]
  by_cases feed : text[offset]? = some '\n'
  · rw [if_pos ⟨Nat.zero_le _, feed⟩, if_pos feed]
    rfl
  · rw [if_neg fun found => feed found.2, if_neg feed]
    rfl

namespace Position

/-- The place behind a piece of text is that of the offset where the piece ends. -/
theorem after_take {text : List Char} {offset : Nat} (within : offset ≤ text.length) :
    start.after (text.take offset) = ofOffset text offset := by
  induction offset with
  | zero => rfl
  | succ offset ih =>
      have inside : offset < text.length := within
      have bound := lineStart_le text offset
      have here := List.getElem?_eq_getElem inside
      rw [List.take_succ_eq_append_getElem inside, after_append, ih (Nat.le_of_lt inside),
        after_cons, after_nil, advance, ofOffset, ofOffset, lineStart_succ,
        List.take_succ_eq_append_getElem inside, List.count_append]
      by_cases feed : text[offset] = '\n'
      · rw [if_pos feed, if_pos (here.trans (congrArg some feed)), feed,
          List.count_singleton_self]
        simp only [mk.injEq]
        omega
      · rw [if_neg feed, if_neg fun found => feed (Option.some.inj (here.symm.trans found)),
          List.count_singleton, if_neg fun same => feed (eq_of_beq same)]
        simp only [mk.injEq]
        omega

theorem after_eq_ofOffset {text read rest : List Char} (whole : text = read ++ rest) :
    start.after read = ofOffset text read.length := by
  subst whole
  rw [← after_take (List.length_append ▸ Nat.le_add_right _ _), List.take_left]

end Position

namespace Lexical

/--
A token begins at an offset, the given ones being all that is before it. The
end of the text counts as a token, which begins behind everything.
-/
inductive Begins (text : List Char) (before : List Token) : Token → Nat → Prop where
  | token {read piece rest : List Char} {kind : Kind} (whole : text = read ++ (piece ++ rest))
      (tiling : Tiling (piece ++ rest) read before) (spells : Spells rest kind piece) :
      Begins text before ⟨kind, String.ofList piece⟩ read.length
  | eof (tiling : Tiling [] text before) : Begins text before .eof text.length

/-- Something that is never closed opens at an offset, the given tokens being before it. -/
inductive Opens (text : List Char) (before : List Token) : Unclosed → Nat → Prop where
  | unterminated {read remainder : List Char} {form : Unclosed} (whole : text = read ++ remainder)
      (tiling : Tiling remainder read before) (opened : Open form remainder) :
      Opens text before form read.length

/-- Each lexeme of a tiled text begins behind the tokens before it. -/
theorem Tiling.begins {remainder consumed : List Char} {tokens : List Token} {stop : Option Unclosed}
    (tiling : Tiling remainder consumed tokens) (halts : Halts remainder stop) {place : Position}
    {count : Nat} {lexeme : Lexeme}
    (here : (Lexeme.scan (consumed ++ remainder) 0 place).1[count]? = some lexeme) :
    ∃ read piece rest, consumed ++ remainder = read ++ (piece ++ rest) ∧
      Tiling (piece ++ rest) read (tokens.take count) ∧ Spells rest lexeme.token.kind piece ∧
      lexeme.token.text = String.ofList piece ∧ lexeme.place = place.after read := by
  induction tiling generalizing place count with
  | layout layout =>
      rw [Lexeme.scan_eq_search, Found.search_layout layout, Found.search_halts halts] at here
      cases here
  | @token gap piece others kind tokens layout spells further ih =>
      rw [List.append_assoc, List.append_assoc, Lexeme.scan_eq_search, Found.search_layout layout,
        Found.search_spells spells] at here
      cases count with
      | zero =>
          cases here
          exact ⟨gap, piece, others ++ remainder, by simp only [List.append_assoc], .layout layout,
            spells, rfl, rfl⟩
      | succ count =>
          obtain ⟨read, inner, rest, whole, tiled, spelled, written, begins⟩ := ih here
          rw [whole] at layout spells
          refine ⟨gap ++ (piece ++ read), inner, rest, ?_, .token layout spells tiled, spelled,
            written, ?_⟩
          · rw [List.append_assoc, List.append_assoc, whole]
            simp only [List.append_assoc]
          · rw [begins, Position.after_append, Position.after_append]

/-! ## There is one such offset -/

/-- A text that does not begin with whitespace or a complete comment. -/
def Unspaced (text : List Char) : Prop :=
  ∀ c rest more, text = c :: rest → Front.ofText c rest ≠ .layout more

theorem Spells.unspaced {piece rest : List Char} {kind : Kind} (spells : Spells rest kind piece) :
    Unspaced (piece ++ rest) := by
  obtain ⟨first, others, rfl⟩ := List.exists_cons_of_ne_nil spells.ne_nil
  rintro c tail more whole layout
  obtain ⟨rfl, rfl⟩ := List.cons.inj whole
  cases (Front.ofText_of_spells spells).symm.trans layout

theorem Open.unspaced {form : Unclosed} {text : List Char} (opened : Open form text) :
    Unspaced text := by
  rintro c tail more rfl layout
  cases (Front.ofText_of_open opened).symm.trans layout

/-- What is open at the start of a text is one form. -/
theorem Open.unique {form other : Unclosed} {text : List Char} (opened : Open form text)
    (again : Open other text) : form = other := by
  cases text with
  | nil => cases opened
  | cons c rest =>
      cases (Front.ofText_of_open opened).symm.trans (Front.ofText_of_open again)
      rfl

theorem Unspaced.not_blank {text rest front others : List Char} (unspaced : Unspaced text)
    (whole : text = front ++ others ++ rest) : ¬Blank (others ++ rest) front := by
  intro blank
  obtain ⟨c, piece, rfl⟩ := List.exists_cons_of_ne_nil blank.ne_nil
  exact unspaced c _ _ (whole.trans (List.append_assoc _ _ _)) (Front.ofText_of_blank blank)

/-- Layout ends where something else begins. -/
theorem Layout.unique {first second gap other : List Char} (layout : Layout first gap)
    (again : Layout second other) (unspaced : Unspaced first) (further : Unspaced second)
    (same : gap ++ first = other ++ second) : gap = other ∧ first = second := by
  induction layout generalizing other with
  | nil =>
      cases again with
      | nil => exact ⟨rfl, same⟩
      | cons blank rest => exact absurd blank (unspaced.not_blank same)
  | @cons front others blank rest ih =>
      cases again with
      | nil => exact absurd blank (further.not_blank same.symm)
      | @cons front' others' blank' rest' =>
          obtain ⟨c, piece, rfl⟩ := List.exists_cons_of_ne_nil blank.ne_nil
          obtain ⟨c', piece', rfl⟩ := List.exists_cons_of_ne_nil blank'.ne_nil
          rw [List.append_assoc, List.append_assoc] at same
          obtain ⟨rfl, tails⟩ := List.cons.inj same
          have ahead : piece ++ (others ++ first) = piece' ++ (others' ++ second) := tails
          have here := Front.ofText_of_blank blank
          rw [ahead, Front.ofText_of_blank blank'] at here
          obtain ⟨rfl, behind⟩ := List.append_inj ahead (Front.layout.inj here).symm
          obtain ⟨rfl, rfl⟩ := ih rest' behind
          exact ⟨rfl, rfl⟩

/-- The tokens before it tell how far into a text a tiling goes. -/
theorem Tiling.unique {remainder other read another : List Char} {tokens : List Token}
    (tiling : Tiling remainder read tokens) (again : Tiling other another tokens)
    (unspaced : Unspaced remainder) (further : Unspaced other)
    (same : read ++ remainder = another ++ other) : read = another ∧ remainder = other := by
  induction tiling generalizing another with
  | layout layout =>
      cases again with
      | layout layout' => exact layout.unique layout' unspaced further same
  | @token gap piece consumed kind tokens layout spells tiling ih =>
      generalize listed : (⟨kind, String.ofList piece⟩ :: tokens : List Token) = all at again
      cases again with
      | layout => cases listed
      | @token gap' piece' consumed' kind' tokens' layout' spells' tiling' =>
          obtain ⟨written, rfl⟩ := List.cons.inj listed
          obtain ⟨rfl, letters⟩ := Token.mk.inj written
          obtain rfl := String.ofList_injective letters
          simp only [List.append_assoc] at same
          obtain ⟨rfl, behind⟩ := layout.unique layout' spells.unspaced spells'.unspaced same
          obtain ⟨rfl, rfl⟩ := ih tiling' (List.append_cancel_left behind)
          exact ⟨rfl, rfl⟩

theorem Begins.unique {text : List Char} {before : List Token} {token : Token} {offset other : Nat}
    (begins : Begins text before token offset) (again : Begins text before token other) :
    offset = other := by
  generalize same : token = given at again
  cases begins with
  | token whole tiling spells =>
      cases again with
      | token whole' tiling' spells' =>
          obtain ⟨rfl, _⟩ :=
            tiling.unique tiling' spells.unspaced spells'.unspaced (whole.symm.trans whole')
          rfl
      | eof => exact absurd (congrArg Token.kind same) (Lexer.kind_ne_eof_of_spells spells)
  | eof tiling =>
      cases again with
      | token whole tiling' spells =>
          exact absurd (congrArg Token.kind same).symm (Lexer.kind_ne_eof_of_spells spells)
      | eof => rfl

theorem Opens.unique {text : List Char} {before : List Token} {form another : Unclosed}
    {offset other : Nat} (opens : Opens text before form offset)
    (again : Opens text before another other) : form = another ∧ offset = other := by
  obtain ⟨whole, tiling, opened⟩ := opens
  obtain ⟨whole', tiling', opened'⟩ := again
  obtain ⟨rfl, rfl⟩ := tiling.unique tiling' opened.unspaced opened'.unspaced (whole.symm.trans whole')
  exact ⟨opened.unique opened', rfl⟩

end Lexical

open Lexical

/-- The tokens of a text before the one behind that many. -/
def tokensBefore (text : String) (count : Nat) : List Token :=
  ((lexemes text).1.take count).map Lexeme.token

theorem begins_of_lexeme {text : String} {count : Nat} {lexeme : Lexeme}
    (here : (lexemes text).1[count]? = some lexeme) :
    ∃ offset, Begins text.toList (tokensBefore text count) lexeme.token offset ∧
      lexeme.place = .ofOffset text.toList offset := by
  obtain ⟨consumed, remainder, tokens, stop, whole, tiling, halts⟩ := exists_tiling text.toList
  have listed := (Lexeme.scan_tiling tiling halts .start).1
  rw [← whole] at listed
  rw [lexemes, whole] at here
  obtain ⟨read, piece, rest, cut, tiled, spells, written, begins⟩ := tiling.begins halts here
  rw [← whole] at cut
  obtain ⟨⟨kind, characters⟩, place, follow⟩ := lexeme
  cases written
  rw [← listed, ← List.map_take] at tiled
  exact ⟨read.length, .token cut tiled spells, begins.trans (Position.after_eq_ofOffset cut)⟩

/-- Behind all lexemes the text ends, or something opens that is never closed. -/
theorem ending_cases {text : String} {count : Nat} (behind : (lexemes text).1.length ≤ count) :
    (Begins text.toList (tokensBefore text count) .eof text.toList.length ∧
        (lexemes text).2 = .eof (.ofOffset text.toList text.toList.length)) ∨
      ∃ form offset, Opens text.toList (tokensBefore text count) form offset ∧
        (lexemes text).2 = .unterminated form (.ofOffset text.toList offset) := by
  obtain ⟨consumed, remainder, tokens, stop, whole, tiling, halts⟩ := exists_tiling text.toList
  obtain ⟨listed, reached⟩ := Lexeme.scan_tiling tiling halts .start
  rw [← whole] at listed reached
  have all : tokensBefore text count = tokens := by
    rw [tokensBefore, List.take_of_length_le behind]
    exact listed
  rw [all, lexemes, reached, Position.after_eq_ofOffset whole]
  cases halts with
  | eof =>
      rw [List.append_nil] at whole
      subst whole
      exact .inl ⟨.eof tiling, rfl⟩
  | unterminated opened => exact .inr ⟨_, _, .unterminated whole tiling opened, rfl⟩

theorem begins_eof {text : String} {place : Position} (ended : (lexemes text).2 = .eof place)
    {count : Nat} (behind : (lexemes text).1.length ≤ count) :
    Begins text.toList (tokensBefore text count) .eof text.toList.length ∧
      place = .ofOffset text.toList text.toList.length := by
  rcases ending_cases behind with ⟨begins, here⟩ | ⟨form, offset, _, stays⟩
  · cases ended.symm.trans here
    exact ⟨begins, rfl⟩
  · cases ended.symm.trans stays

theorem opens_of_unterminated {text : String} {form : Unclosed} {place : Position}
    (stays : (lexemes text).2 = .unterminated form place) {count : Nat}
    (behind : (lexemes text).1.length ≤ count) :
    ∃ offset, Opens text.toList (tokensBefore text count) form offset ∧
      place = .ofOffset text.toList offset := by
  rcases ending_cases behind with ⟨_, here⟩ | ⟨form', offset, opens, there⟩
  · cases stays.symm.trans here
  · cases stays.symm.trans there
    exact ⟨offset, opens, rfl⟩

end PhraseGrammar
