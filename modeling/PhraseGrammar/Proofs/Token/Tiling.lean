import PhraseGrammar.Proofs.Token.FrontForms
import PhraseGrammar.Token.Lexer

/-!
# Tokens tile the text

The tokens that a lexer gives out, one after the other, are pieces of the text
in their order, with layout before, between and behind them, and nothing else
of the text is left over: either all of it is covered, or what remains opens
with something that is never closed, and there the lexer fails. Since each piece
has the form of its kind, with what may follow it, a text is tiled in one way
only.
-/

namespace PhraseGrammar

namespace Lexical

/-- A text cut into layout and tokens, `remainder` being what follows it. -/
inductive Tiling (remainder : List Char) : List Char → List Token → Prop where
  | layout {gap : List Char} (layout : Layout remainder gap) : Tiling remainder gap []
  | token {gap piece others : List Char} {kind : Kind} {tokens : List Token}
      (layout : Layout (piece ++ (others ++ remainder)) gap)
      (spells : Spells (others ++ remainder) kind piece) (further : Tiling remainder others tokens) :
      Tiling remainder (gap ++ (piece ++ others)) (⟨kind, String.ofList piece⟩ :: tokens)

/-- What remains where tokens end: nothing, or something that is never closed. -/
inductive Halts : List Char → Option Unclosed → Prop where
  | eof : Halts [] none
  | unterminated {form : Unclosed} {text : List Char} (opened : Open form text) :
      Halts text (some form)

theorem Tiling.blank {remainder front consumed : List Char} {tokens : List Token}
    (first : Blank (consumed ++ remainder) front) (tiling : Tiling remainder consumed tokens) :
    Tiling remainder (front ++ consumed) tokens := by
  cases tiling with
  | layout layout => exact .layout (.cons first layout)
  | @token gap piece others kind tokens layout spells further =>
      rw [List.append_assoc, List.append_assoc] at first
      rw [← List.append_assoc]
      exact .token (.cons first layout) spells further

theorem Tiling.next {remainder piece others : List Char} {kind : Kind} {tokens : List Token}
    (spells : Spells (others ++ remainder) kind piece) (further : Tiling remainder others tokens) :
    Tiling remainder (piece ++ others) (⟨kind, String.ofList piece⟩ :: tokens) :=
  .token .nil spells further

theorem exists_tiling (text : List Char) : ∃ consumed remainder tokens stop,
    text = consumed ++ remainder ∧ Tiling remainder consumed tokens ∧ Halts remainder stop := by
  induction measured : text.length using Nat.strong_induction_on generalizing text with
  | h size ih =>
      cases text with
      | nil => exact ⟨[], [], [], none, rfl, .layout .nil, .eof⟩
      | cons c rest =>
          have described := Front.describes_ofText c rest
          have shorter (more : Nat) : (rest.drop more).length < size := by
            rw [← measured, List.length_drop, List.length_cons]
            omega
          cases found : Front.ofText c rest with
          | layout more =>
              rw [found, Front.Describes] at described
              obtain ⟨consumed, remainder, tokens, stop, behind, tiling, halts⟩ :=
                ih _ (shorter more) _ rfl
              refine ⟨c :: rest.take more ++ consumed, remainder, tokens, stop, ?_,
                tiling.blank (behind ▸ described), halts⟩
              rw [List.append_assoc, ← behind, List.cons_append, List.take_append_drop]
          | token kind more =>
              rw [found, Front.Describes] at described
              obtain ⟨consumed, remainder, tokens, stop, behind, tiling, halts⟩ :=
                ih _ (shorter more) _ rfl
              refine ⟨c :: rest.take more ++ consumed, remainder, _, stop, ?_,
                .next (behind ▸ described) tiling, halts⟩
              rw [List.append_assoc, ← behind, List.cons_append, List.take_append_drop]
          | unterminated form =>
              rw [found] at described
              exact ⟨[], c :: rest, [], some form, rfl, .layout .nil, .unterminated described⟩

end Lexical

open Lexical

namespace Found

theorem search_skip (text : List Char) (skip : Nat) (place : Position) :
    search text skip place = search (text.drop skip) 0 (place.after (text.take skip)) := by
  induction text generalizing skip place with
  | nil => simp [search]
  | cons c rest ih =>
      cases skip with
      | zero => rfl
      | succ skip => exact ih skip (place.advance c)

/-- Layout is passed over. -/
theorem search_layout {gap rest : List Char} (layout : Layout rest gap) (place : Position) :
    search (gap ++ rest) 0 place = search rest 0 (place.after gap) := by
  induction layout generalizing place with
  | nil => rfl
  | @cons front others first further ih =>
      obtain ⟨c, piece, rfl⟩ := List.exists_cons_of_ne_nil first.ne_nil
      rw [List.append_assoc, List.cons_append, search, Front.ofText_of_blank first]
      simp only
      rw [search_skip, List.drop_left, List.take_left, ih, ← Position.after_cons,
        ← Position.after_append]

theorem search_spells {piece rest : List Char} {kind : Kind} (spells : Spells rest kind piece)
    (place : Position) : search (piece ++ rest) 0 place =
      .token ⟨⟨kind, String.ofList piece⟩, place, rest.head?⟩ rest (place.after piece) := by
  obtain ⟨c, more, rfl⟩ := List.exists_cons_of_ne_nil spells.ne_nil
  rw [List.cons_append, search, Front.ofText_of_spells spells]
  simp only
  rw [List.drop_left, List.take_left, Lexeme.cut, List.take_left, List.drop_left]

/-- Where nothing is left, or something stays open, no token is found. -/
theorem search_halts {text : List Char} {stop : Option Unclosed} (halts : Halts text stop)
    (place : Position) : search text 0 place =
      .ended (match stop with
        | none => .eof place
        | some form => .unterminated form place) := by
  cases halts with
  | eof => rfl
  | unterminated opened =>
      cases text with
      | nil => cases opened
      | cons c rest => rw [search, Front.ofText_of_open opened]

end Found

namespace Lexeme

/-- The lexemes of a text are what one search after the other finds. -/
theorem scan_eq_search (text : List Char) (skip : Nat) (place : Position) :
    scan text skip place =
      match Found.search text skip place with
      | .token lexeme rest behind => (lexeme :: (scan rest 0 behind).1, (scan rest 0 behind).2)
      | .ended ending => ([], ending) := by
  induction text generalizing skip place with
  | nil => rfl
  | cons c rest ih =>
      cases skip with
      | succ skip => exact ih skip (place.advance c)
      | zero =>
          rw [scan, Found.search]
          cases Front.ofText c rest with
          | layout more => exact ih more (place.advance c)
          | token kind more =>
              simp only
              rw [scan_skip, Position.after_cons]
          | unterminated form => rfl

/-- Every lexeme is spelled by its characters. -/
theorem exists_spells {text : List Char} {skip : Nat} {place : Position} {lexeme : Lexeme}
    (member : lexeme ∈ (scan text skip place).1) : ∃ piece rest,
      Spells rest lexeme.token.kind piece ∧ lexeme.token.text = String.ofList piece := by
  obtain ⟨kind, more, c, rest, place, found, rfl⟩ := exists_cut member
  have described := Front.describes_ofText c rest
  rw [found] at described
  exact ⟨_, _, described, rfl⟩

/-- The lexemes carry the tokens of a tiling, and end where it halts. -/
theorem scan_tiling {remainder consumed : List Char} {tokens : List Token} {stop : Option Unclosed}
    (tiling : Tiling remainder consumed tokens) (halts : Halts remainder stop) (place : Position) :
    (scan (consumed ++ remainder) 0 place).1.map token = tokens ∧
      (scan (consumed ++ remainder) 0 place).2 =
        match stop with
        | none => .eof (place.after consumed)
        | some form => .unterminated form (place.after consumed) := by
  induction tiling generalizing place with
  | layout layout =>
      rw [scan_eq_search, Found.search_layout layout, Found.search_halts halts]
      cases stop <;> exact ⟨rfl, rfl⟩
  | @token gap piece others kind tokens layout spells further ih =>
      rw [List.append_assoc, List.append_assoc, scan_eq_search, Found.search_layout layout,
        Found.search_spells spells, Position.after_append, Position.after_append]
      obtain ⟨listed, ended⟩ := ih ((place.after gap).after piece)
      exact ⟨congrArg (_ :: ·) listed, ended⟩

end Lexeme

/-! ## One token after the other -/

namespace Lexer

theorem kind_ne_eof_of_spells {rest piece : List Char} {kind : Kind} (spells : Spells rest kind piece) :
    kind ≠ .eof := by
  cases spells <;> exact nofun

/-- A step takes the layout and the token behind it from the front of the text. -/
theorem next_token {gap piece others : List Char} {kind : Kind} {place last : Position}
    (layout : Layout (piece ++ others) gap) (spells : Spells others kind piece) :
    next ⟨gap ++ (piece ++ others), place, last, none⟩ =
      (.ok ⟨kind, String.ofList piece⟩,
        ⟨others, place.after (gap ++ piece), place.after gap, none⟩) := by
  rw [next, upcoming, Option.getD_none]
  simp only
  rw [Found.search_layout layout, Found.search_spells spells, Position.after_append]
  rfl

theorem next_halts {gap remainder : List Char} {stop : Option Unclosed} {place last : Position}
    (layout : Layout remainder gap) (halts : Halts remainder stop) :
    (next ⟨gap ++ remainder, place, last, none⟩).1 =
      match stop with
      | none => .ok .eof
      | some form => .error (.located (.unterminated form) (place.after gap)) := by
  rw [next, upcoming, Option.getD_none]
  simp only
  rw [Found.search_layout layout, Found.search_halts halts]
  cases stop <;> rfl

/-- Where a text has a tiling, its tokens are given out, and then what halts them. -/
theorem drain_tiling {remainder consumed : List Char} {tokens : List Token} {stop : Option Unclosed}
    (tiling : Tiling remainder consumed tokens) (halts : Halts remainder stop) {allowance : Nat}
    (enough : consumed.length < allowance) (place last : Position) :
    ∃ final, drain allowance ⟨consumed ++ remainder, place, last, none⟩ =
      (tokens, stop.map fun form => .located (.unterminated form) (place.after consumed), final) := by
  obtain ⟨allowance, rfl⟩ := Nat.exists_eq_succ_of_ne_zero (Nat.ne_zero_of_lt enough)
  induction tiling generalizing allowance place last with
  | @layout gap layout =>
      have stops := @next_halts gap remainder stop place last layout halts
      rw [drain]
      generalize next ⟨gap ++ remainder, place, last, none⟩ = step at stops
      obtain ⟨result, final⟩ := step
      cases stop with
      | none =>
          cases stops
          exact ⟨final, rfl⟩
      | some form =>
          cases stops
          exact ⟨final, rfl⟩
  | @token gap piece others kind tokens layout spells further ih =>
      have some := List.length_pos_of_ne_nil spells.ne_nil
      rw [List.length_append, List.length_append] at enough
      obtain ⟨allowance, rfl⟩ := Nat.exists_eq_succ_of_ne_zero (n := allowance) (by omega)
      obtain ⟨final, given⟩ := ih (place.after (gap ++ piece)) (place.after gap) allowance (by omega)
      refine ⟨final, ?_⟩
      rw [drain, List.append_assoc, List.append_assoc, next_token layout spells]
      simp only [kind_ne_eof_of_spells spells, if_false]
      rw [given, ← Position.after_append, List.append_assoc]

/-- What a text gives out when it is cut into a tiling and what halts it. -/
theorem toEnd_of_halts {text : String} {consumed remainder : List Char} {tokens : List Token}
    {stop : Option Unclosed} (whole : text.toList = consumed ++ remainder)
    (tiling : Tiling remainder consumed tokens) (halts : Halts remainder stop) :
    ∃ final, (ofText text).toEnd = (tokens,
      stop.map fun form => .located (.unterminated form) (Position.start.after consumed), final) := by
  have enough : consumed.length < text.toList.length + 1 := by
    rw [whole, List.length_append]
    omega
  obtain ⟨final, drained⟩ := drain_tiling tiling halts enough .start .start
  refine ⟨final, ?_⟩
  rw [← drained, ← whole]
  rfl

/-- A lexer gives out the tokens of the lexemes. -/
theorem tokens_toEnd (text : String) :
    (ofText text).toEnd.1 = (lexemes text).1.map Lexeme.token := by
  obtain ⟨consumed, remainder, tokens, stop, whole, tiling, halts⟩ := exists_tiling text.toList
  obtain ⟨final, ended⟩ := toEnd_of_halts whole tiling halts
  rw [ended, lexemes, whole, (Lexeme.scan_tiling tiling halts .start).1]

/--
The tokens of a text and the error behind them, if there is one, are those of a
tiling of the text up to its end or up to something that is never closed.
-/
theorem toEnd_ofText_iff {text : String} {tokens : List Token} {error : Option GrammarError} :
    (∃ final, (ofText text).toEnd = (tokens, error, final)) ↔
      ∃ consumed remainder stop, text.toList = consumed ++ remainder ∧
        Tiling remainder consumed tokens ∧ Halts remainder stop ∧
        error = stop.map fun form =>
          .located (.unterminated form) (Position.start.after consumed) := by
  constructor
  · rintro ⟨final, ended⟩
    obtain ⟨consumed, remainder, tiled, stop, whole, tiling, halts⟩ := exists_tiling text.toList
    obtain ⟨other, same⟩ := toEnd_of_halts whole tiling halts
    obtain ⟨rfl, rest⟩ := Prod.mk.inj (ended.symm.trans same)
    exact ⟨consumed, remainder, stop, whole, tiling, halts, (Prod.mk.inj rest).1⟩
  · rintro ⟨consumed, remainder, stop, whole, tiling, halts, rfl⟩
    exact toEnd_of_halts whole tiling halts

end Lexer

end PhraseGrammar
