import PhraseGrammar.Proofs.Rules.Literals

/-!
# Ranges from the text to the output

A range is written with one bound or with two. Each is a numeral in decimal or,
after `0x`, in hexadecimal, and may have a minus before it; between the tokens
there may be any layout. The text gives one leaf, which draws once and emits an
integer between the bounds, and each of them for some draw. If there is none it
fails without drawing. The leaf shows its bounds in such a way that they can be
read again.
-/

namespace PhraseGrammar

open Lexical

namespace Numeral

/-- The characters of a numeral within the length limit of decimal notation, and its value. -/
inductive Writes : List Char → Nat → Prop where
  | decimal {digits : List Char} (filled : Filled Unicode.isDigit digits)
      (short : digits.length ≤ digitLimit) : Writes digits (decimalValue digits)
  | hexadecimal {mark : Char} {digits : List Char} (marked : mark = 'x' ∨ mark = 'X')
      (filled : Filled Unicode.isHexDigit digits)
      (short : (decimal? (hexadecimalValue digits)).isSome = true) :
      Writes ('0' :: mark :: digits) (hexadecimalValue digits)

namespace Writes

variable {digits : List Char} {size : Nat}

theorem spells (writes : Writes digits size) : Spells [] .int digits := by
  cases writes with
  | decimal filled short => exact .decimal filled nofun ⟨nofun, nofun⟩ fun _ => nofun
  | hexadecimal marked filled short => exact .hexadecimal marked filled nofun

theorem solid (writes : Writes digits size) : digits ≠ ['/'] := by
  rintro rfl
  cases writes with
  | decimal filled short => exact absurd (filled.all '/' List.mem_cons_self) (by decide)

theorem integer_eq (writes : Writes digits size) :
    (⟨.int, String.ofList digits⟩ : Token).integer = size := by
  cases writes with
  | decimal filled short =>
      rw [Token.integer, readInteger?_decimal filled.nonempty filled.all short]
      rfl
  | hexadecimal marked filled short =>
      rw [Token.integer, readInteger?_hexadecimal marked filled.nonempty filled.all]
      rfl

theorem writable (writes : Writes digits size) : (decimal? size).isSome = true := by
  cases writes with
  | decimal filled short => exact isSome_decimal?_decimalValue filled.all short
  | hexadecimal marked filled short => exact short

theorem short (writes : Writes digits size) : (⟨.int, String.ofList digits⟩ : Token).Short := by
  have denotes := writes.integer_eq
  intro _
  cases writes with
  | decimal filled short =>
      rw [Token.hexadecimal_eq_false String.toList_ofList filled.all,
        if_neg Bool.false_ne_true, ← String.length_toList, String.toList_ofList]
      exact short
  | @hexadecimal mark digits marked filled short =>
      have known : (⟨.int, String.ofList ('0' :: mark :: digits)⟩ : Token).hexadecimal = true := by
        rw [Token.hexadecimal, String.toList_ofList]
        rcases marked with rfl | rfl <;> rfl
      rw [if_pos known, denotes]
      exact short

end Writes

theorem digit?_of_isDigit {c : Char} (ascii : c.isDigit = true) :
    Unicode.digit? c = some (c.toNat - 0x30) := by
  obtain ⟨above, below⟩ : 0x30 ≤ c.toNat ∧ c.toNat ≤ 0x39 := by
    simpa [Char.isDigit, UInt32.le_iff_toNat_le] using ascii
  exact Unicode.digit?_of_ascii above below

/-- In ASCII the value of digits is the usual one. -/
theorem decimalValue_eq {digits : List Char} (ascii : ∀ c ∈ digits, c.isDigit = true) :
    decimalValue digits = Nat.ofDigitChars 10 digits 0 := by
  have folded (value : Nat) :
      (digits.map fun c => (Unicode.digit? c).getD 0).foldl
          (fun value digit => value * 10 + digit) value =
        Nat.ofDigitChars 10 digits value := by
    rw [Nat.ofDigitChars_eq_foldl]
    induction digits generalizing value with
    | nil => rfl
    | cons c rest ih =>
        rw [List.map_cons, List.foldl_cons, List.foldl_cons,
          digit?_of_isDigit (ascii c List.mem_cons_self), Option.getD_some, Nat.mul_comm value]
        exact ih (fun other member => ascii other (.tail _ member)) _
  exact folded 0

/-- What is written in decimal is a numeral again. -/
theorem writes_repr {size : Nat} (writable : (decimal? size).isSome = true) :
    Writes (Nat.repr size).toList size := by
  have ascii : ∀ c ∈ Nat.toDigits 10 size, c.isDigit = true :=
    fun c member => Nat.isDigit_of_mem_toDigits (by decide) (by decide) member
  have filled : Filled Unicode.isDigit (Nat.toDigits 10 size) := by
    refine ⟨Nat.toDigits_ne_nil, fun c member => ?_⟩
    rw [Unicode.isDigit, digit?_of_isDigit (ascii c member)]
    rfl
  have short (limit : Nat) (positive : 0 < limit) (bound : size < Nat.pow 10 limit) :
      (Nat.toDigits 10 size).length ≤ limit :=
    (Nat.length_toDigits_le_iff (by decide) positive).mpr bound
  have value : decimalValue (Nat.toDigits 10 size) = size := by
    rw [decimalValue_eq ascii, Nat.ofDigitChars_toDigits (by decide) (by decide)]
  rw [isSome_decimal?, Int.natAbs_natCast] at writable
  unfold decimalBound at writable
  rw [Nat.repr_eq_ofList_toDigits, String.toList_ofList]
  have writes := Writes.decimal filled (short digitLimit (by decide) writable)
  rwa [value] at writes

end Numeral

namespace Lexical

/-- The tokens of an integer: a numeral, which may have a minus before it. -/
inductive WritesInteger : List Token → Int → Prop where
  | plain {digits : List Char} {size : Nat} (writes : Numeral.Writes digits size) :
      WritesInteger [⟨.int, String.ofList digits⟩] size
  | minus {digits : List Char} {size : Nat} (writes : Numeral.Writes digits size) :
      WritesInteger [.punct "-", ⟨.int, String.ofList digits⟩] (-size)

/-- The tokens of integers with commas between them. -/
inductive WritesIntegers : List Token → List Int → Prop where
  | last {tokens : List Token} {size : Int} (writes : WritesInteger tokens size) :
      WritesIntegers tokens [size]
  | more {front rest : List Token} {size : Int} {sizes : List Int}
      (writes : WritesInteger front size) (others : WritesIntegers rest sizes) :
      WritesIntegers (front ++ .punct "," :: rest) (size :: sizes)

/-- The tokens of any number of integers. -/
inductive WritesArguments : List Token → List Int → Prop where
  | none : WritesArguments [] []
  | some {tokens : List Token} {sizes : List Int} (writes : WritesIntegers tokens sizes) :
      WritesArguments tokens sizes

section Tokens

variable {tokens : List Token} {size : Int} {sizes : List Int}

theorem WritesInteger.short (writes : WritesInteger tokens size) :
    ∀ token ∈ tokens, token.Short := by
  have sign : (Token.punct "-").Short := Token.short_of_kind nofun
  cases writes with
  | plain writes => simpa using writes.short
  | minus writes => simpa using ⟨sign, writes.short⟩

theorem WritesIntegers.short (writes : WritesIntegers tokens sizes) :
    ∀ token ∈ tokens, token.Short := by
  have comma : (Token.punct ",").Short := Token.short_of_kind nofun
  induction writes with
  | last writes => exact writes.short
  | more writes others ih =>
      simp only [List.mem_append, List.mem_cons]
      rintro token (front | rfl | later)
      · exact writes.short token front
      · exact comma
      · exact ih token later

theorem WritesArguments.short (writes : WritesArguments tokens sizes) :
    ∀ token ∈ tokens, token.Short := by
  cases writes with
  | none => exact nofun
  | some writes => exact writes.short

theorem WritesInteger.writable (writes : WritesInteger tokens size) :
    (Numeral.decimal? size).isSome = true := by
  cases writes with
  | plain writes => exact writes.writable
  | minus writes => exact Numeral.isSome_decimal?_neg writes.writable

theorem WritesIntegers.writable (writes : WritesIntegers tokens sizes) :
    ∀ size ∈ sizes, (Numeral.decimal? size).isSome = true := by
  induction writes with
  | last writes => simpa using writes.writable
  | more writes others ih => simpa using ⟨writes.writable, ih⟩

variable {c : Char} {others : List Token} (mark : Delimiter c) (ends : c ≠ '.')
  (further : Punctuated (.punct (String.ofList [c]) :: others))

include mark ends further

theorem WritesInteger.punctuated (writes : WritesInteger tokens size) :
    Punctuated (tokens ++ .punct (String.ofList [c]) :: others) := by
  cases writes with
  | plain writes => exact .word writes.spells writes.solid mark ends further
  | minus writes =>
      have sign : Delimiter '-' := by decide
      exact .mark sign (.word writes.spells writes.solid mark ends further)

theorem WritesIntegers.punctuated (writes : WritesIntegers tokens sizes) :
    Punctuated (tokens ++ .punct (String.ofList [c]) :: others) := by
  have comma : Delimiter ',' := by decide
  induction writes with
  | last writes => exact writes.punctuated mark ends further
  | more writes others ih =>
      rw [List.append_assoc]
      exact writes.punctuated comma (by decide) (.mark comma ih)

theorem WritesArguments.punctuated (writes : WritesArguments tokens sizes) :
    Punctuated (tokens ++ .punct (String.ofList [c]) :: others) := by
  cases writes with
  | none => exact further
  | some writes => exact writes.punctuated mark ends further

end Tokens

end Lexical

namespace Syntax

open Reader

theorem spellsInteger_of_writes {tokens : List Token} {size : Int}
    (writes : WritesInteger tokens size) {front : List Lexeme}
    (carried : front.map Lexeme.token = tokens) : SpellsInteger front size := by
  cases writes with
  | plain writes =>
      simp only [List.map_eq_cons_iff, List.map_eq_nil_iff] at carried
      obtain ⟨numeral, _, rfl, same, rfl⟩ := carried
      rw [← writes.integer_eq, ← same]
      exact .plain (by rw [same])
  | minus writes =>
      simp only [List.map_eq_cons_iff, List.map_eq_nil_iff] at carried
      obtain ⟨sign, _, rfl, signed, numeral, _, rfl, same, rfl⟩ := carried
      rw [← writes.integer_eq, ← same]
      exact .minus signed (by rw [same])

theorem spellsIntegers_of_writes {tokens : List Token} {sizes : List Int}
    (writes : WritesIntegers tokens sizes) {front : List Lexeme}
    (carried : front.map Lexeme.token = tokens) : SpellsIntegers front sizes := by
  induction writes generalizing front with
  | last writes => exact .last (spellsInteger_of_writes writes carried)
  | more writes others ih =>
      simp only [List.map_eq_append_iff, List.map_eq_cons_iff] at carried
      obtain ⟨first, _, rfl, head, comma, rest, rfl, parts, tail⟩ := carried
      exact .more (spellsInteger_of_writes writes head) parts (ih tail)

end Syntax

/-! ## Texts -/

/-- Arguments in their parentheses. -/
def enclosed (arguments : List Token) : List Token :=
  .punct "(" :: (arguments ++ [.punct ")"])

theorem exists_enclosed {arguments : List Token} {front : List Lexeme}
    (carried : front.map Lexeme.token = enclosed arguments) :
    ∃ opening inner closing, front = opening :: (inner ++ [closing]) ∧
      opening.token = .punct "(" ∧ inner.map Lexeme.token = arguments ∧
        closing.token = .punct ")" := by
  simp only [enclosed, List.map_eq_cons_iff, List.map_eq_append_iff, List.map_eq_nil_iff] at carried
  obtain ⟨opening, _, rfl, opens, inner, _, rfl, listed, closing, _, rfl, closes, rfl⟩ := carried
  exact ⟨opening, inner, closing, rfl, opens, listed, closes⟩

/-- The tokens of a grammar with one rule, which is a range. -/
def rangeRule (symbol : List Char) (arguments : List Token) : List Token :=
  ⟨.ident, String.ofList symbol⟩ :: .punct ":" :: ⟨.ident, "range"⟩ ::
    (enclosed arguments ++ [.punct "."])

/-- A grammar with one rule, which is a leaf. -/
def Grammar.ofLeaf (symbol : String) (leaf : Leaf) : Grammar where
  table := Table.empty.set symbol ⟨symbol, [[.leaf leaf]], .empty, none⟩
  start := some symbol

theorem Literal.grammar_oneLeaf (symbol : String) (leaf : Leaf) :
    (oneLeaf symbol leaf []).grammar = .ofLeaf symbol leaf :=
  rfl

section Texts

variable {symbol : List Char} {arguments : List Token} {sizes : List Int} {text : String}
  (writes : WritesArguments arguments sizes)

include writes

theorem punctuated_rangeRule (named : Name symbol) :
    Punctuated (rangeRule symbol arguments) := by
  have range : Name "range".toList := .mk rfl rfl (List.all_eq_true.mp rfl)
  have closing : Punctuated [.punct ")", .punct "."] :=
    .mark (c := ')') (by decide) (.mark (c := '.') (by decide) .nil)
  have inner := writes.punctuated (c := ')') (by decide) (by decide) closing
  have opening : Delimiter '(' ∧ '(' ≠ '.' := by decide
  have colon : Delimiter ':' ∧ ':' ≠ '.' := by decide
  rw [rangeRule, enclosed, List.cons_append, List.append_assoc]
  exact .word (named.spells nofun) named.solid colon.1 colon.2 (.mark colon.1
    (.word (range.spells nofun) range.solid opening.1 opening.2 (.mark opening.1 inner)))

theorem short_rangeRule : ∀ token ∈ rangeRule symbol arguments, token.Short := by
  intro token member
  by_cases inside : token ∈ arguments
  · exact writes.short token inside
  · refine Token.short_of_kind ?_
    simp only [rangeRule, enclosed, List.cons_append, List.mem_cons, List.mem_append, inside,
      false_or, List.not_mem_nil, or_false] at member
    rcases member with rfl | rfl | rfl | rfl | rfl | rfl <;> exact nofun

/-- The lexemes of a text that spreads the tokens of a range. -/
theorem lexemes_rangeRule (named : Name symbol)
    (spread : Spread (rangeRule symbol arguments) text.toList) :
    (∀ lexeme ∈ (lexemes text).1, lexeme.token.Short) ∧ (lexemes text).2.Closed ∧
      ∃ head colon name front period,
        (lexemes text).1 = head :: colon :: name :: (front ++ [period]) ∧
          head.token = ⟨.ident, String.ofList symbol⟩ ∧ colon.token = .punct ":" ∧
            name.token = ⟨.ident, "range"⟩ ∧ front.map Lexeme.token = enclosed arguments ∧
              period.token = .punct "." := by
  obtain ⟨carried, closed⟩ := lexemes_tiling (spread.tiling (punctuated_rangeRule writes named))
  refine ⟨short_of_tokens carried (short_rangeRule writes), closed, ?_⟩
  simp only [rangeRule, List.map_eq_cons_iff, List.map_eq_append_iff, List.map_eq_nil_iff]
    at carried
  obtain ⟨head, _, whole, headed, colon, _, rfl, begins, name, _, rfl, called, front, _, rfl,
    listed, period, _, rfl, ends, rfl⟩ := carried
  exact ⟨head, colon, name, front, period, whole, headed, begins, called, listed, ends⟩

end Texts

theorem length_of_interval? {sizes : List Int} {ends : Int × Int}
    (interval : interval? sizes = some ends) : sizes.length = 1 ∨ sizes.length = 2 := by
  unfold interval? at interval
  split at interval
  · exact .inl rfl
  · exact .inr rfl
  · cases interval

section Accepted

open Syntax

variable {arguments : List Token} {sizes : List Int} (writes : WritesIntegers arguments sizes)
  (count : sizes.length = 1 ∨ sizes.length = 2)

include writes count

theorem spellsRange_of_writes {front : List Lexeme}
    (carried : front.map Lexeme.token = enclosed arguments) :
    SpellsRange front (.range sizes) := by
  obtain ⟨opening, inner, closing, rfl, opens, listed, closes⟩ := exists_enclosed carried
  exact Reader.spellsRange_iff.mpr ⟨opening, inner, closing, sizes, rfl, opens, closes,
    spellsIntegers_of_writes writes listed, count, rfl⟩

theorem parse_rangeRule {symbol : List Char} (named : Name symbol)
    (other : String.ofList symbol ≠ Reader.contextName) {text : String}
    (spread : Spread (rangeRule symbol arguments) text.toList) :
    (Grammar.parse Registry.default text).1 =
      .ok (.ofLeaf (String.ofList symbol) (.range sizes)) := by
  obtain ⟨short, closed, head, colon, name, front, period, whole, headed, begins, called, listed,
    ends⟩ := lexemes_rangeRule (.some writes) named spread
  have node : SpellsNode (name :: front) (.leaf (.range sizes)) :=
    .range (by rw [called]; simp [Token.IsLiteral]) (by rw [called])
      (spellsRange_of_writes writes count listed)
  have definition : SpellsDefinition (head :: ([] ++ colon :: (name :: front ++ [])))
      ⟨head.token.text, [[.leaf (.range sizes)]], .empty, none⟩ :=
    .mk (by rw [headed]) (by rwa [headed]) .none begins (.last (.cons node .nil))
  have source : SpellsSource (lexemes text).1
      (Literal.oneLeaf (String.ofList symbol) (.range sizes) []) := by
    rw [headed] at definition
    simpa [whole, Literal.oneLeaf] using SpellsSource.definition definition ends .nil
  rw [← Literal.grammar_oneLeaf]
  exact Literal.parse_of_spells short closed source fun _ member => absurd member List.not_mem_nil

end Accepted

section Refused

variable {arguments : List Token} {sizes : List Int} (writes : WritesArguments arguments sizes)
  (count : ¬(sizes.length = 1 ∨ sizes.length = 2))

include writes count

theorem refuses_range {reading : Reading} {front rest : List Lexeme} {ending : Ending}
    (sees : reading.Sees (front ++ rest) ending) (ordered : Reader.Ordered reading)
    (carried : front.map Lexeme.token = enclosed arguments) :
    Reader.range.Refuses reading (.rangeArity sizes.length) := by
  obtain ⟨opening, inner, closing, rfl, opens, listed, closes⟩ := exists_enclosed carried
  have given : Reader.rangeArguments.Gives reading sizes rest ending := by
    refine Reader.recognizes_rangeArguments.complete sees ordered
      ⟨opening, inner, closing, rfl, opens, closes, ?_⟩
    cases writes with
    | none => exact .inl ⟨List.map_eq_nil_iff.mp listed, rfl⟩
    | some writes => exact .inr (Syntax.spellsIntegers_of_writes writes listed)
  refine .after given fun between _ => ⟨between.place, ?_⟩
  rw [if_neg count]
  rfl

theorem refused_rangeRule {symbol : List Char} (named : Name symbol)
    (other : String.ofList symbol ≠ Reader.contextName) {text : String}
    (spread : Spread (rangeRule symbol arguments) text.toList) :
    Literal.Refused text (.rangeArity sizes.length) := by
  obtain ⟨short, -, head, colon, name, front, period, whole, headed, begins, called, listed, -⟩ :=
    lexemes_rangeRule writes named spread
  have orderly := orderly_lexemes short
  rw [whole] at orderly
  -- the first node of the only rule is refused, with its arguments still to come
  refine Literal.refused_of_refuses (Reader.refuses_definition begins (fun between seen => ?_)
    ⟨whole, rfl⟩ orderly (by rw [headed]) (by rwa [headed]) _)
  have behind : Orderly (front ++ [period]) :=
    Orderly.of_append (show Orderly ([head, colon, name] ++ (front ++ [period])) from orderly)
  have ordered : Reader.Ordered between := by rwa [Reader.Ordered, seen.pending_eq]
  have node : Reader.node Registry.default name.token =
      Reader.range >>= fun leaf => pure (.leaf leaf) := by
    rw [called]
    rfl
  have kind : name.token.kind ≠ .punct := by
    rw [called]
    decide
  rw [Reader.nodesTurn_of_kind kind, node]
  exact .bind (.orAtPlace (.bind (refuses_range writes count seen ordered listed) _)) _

end Refused

/-! ## Draws -/

open Expander in
/-- A leaf that draws an integer from an interval, and fails without a draw if there is none. -/
structure Leaf.DrawsBetween (leaf : Leaf) (lo hi : Int) : Prop where
  /-- One draw of the source in sight gives an integer of the interval; nothing else changes. -/
  draws : lo < hi → ∀ {run : Run} {id : Nat} {shown : Text} {source : Random.Source},
    run.scope.get? randomName = some (.source id shown) → run.sources[id]? = some source →
      ∃ value, lo ≤ value ∧ value < hi ∧ value = lo + (source.draw (hi - lo).toNat).1 ∧
        emit leaf.emission run = .ok (toString value)
          { run with sources := run.sources.set id (source.draw (hi - lo).toNat).2 }
  /-- Each integer of the interval is emitted if its distance from the lower end is drawn. -/
  reaches : ∀ {value : Int}, lo ≤ value → value < hi →
    ∀ {run : Run} {id : Nat} {shown : Text} {rest : List Nat},
      run.scope.get? randomName = some (.source id shown) →
        run.sources[id]? = some (.script ((value - lo).toNat :: rest)) →
          emit leaf.emission run = .ok (toString value)
            { run with sources := run.sources.set id (.script rest) }
  /-- Whatever is in scope, the run is as it was. -/
  empty : hi ≤ lo → ∀ run, emit leaf.emission run = .error (.bare (.rangeEmpty lo hi)) run

namespace Expander

theorem drawRange_eq {arguments : List Int} {lo hi : Int}
    (interval : interval? arguments = some (lo, hi)) :
    drawRange arguments = drawRange.between lo hi := by
  unfold interval? at interval
  split at interval <;> cases interval <;> rfl

theorem run_between {lo hi : Int} (room : lo < hi) {run : Run} {id : Nat} {shown : Text}
    {source : Random.Source} (sees : run.scope.get? randomName = some (.source id shown))
    (held : run.sources[id]? = some source) :
    drawRange.between lo hi run = .ok (lo + (source.draw (hi - lo).toNat).1)
      { run with sources := run.sources.set id (source.draw (hi - lo).toNat).2 } := by
  rw [drawRange.between, if_neg (Int.not_le.mpr room), run_bind, run_sourceId, sees]
  dsimp only
  rw [run_bind, run_drawFrom, held]
  rfl

theorem run_between_empty {lo hi : Int} (nothing : hi ≤ lo)
    (lower : (Numeral.decimal? lo).isSome = true) (upper : (Numeral.decimal? hi).isSome = true)
    (run : Run) : drawRange.between lo hi run = .error (.bare (.rangeEmpty lo hi)) run := by
  rw [drawRange.between, if_pos nothing, if_pos ⟨lower, upper⟩]
  rfl

end Expander

section Leaves

variable {sizes : List Int} {lo hi : Int} (interval : interval? sizes = some (lo, hi))
  (writable : ∀ size ∈ sizes, (Numeral.decimal? size).isSome = true)

include interval

theorem Expander.emit_range : emit (Leaf.range sizes).emission =
    drawRange.between lo hi >>= fun value => written (Numeral.text? value) := by
  rw [Leaf.range, emit, drawRange_eq interval]

include writable

theorem writable_ends :
    (Numeral.decimal? lo).isSome = true ∧ (Numeral.decimal? hi).isSome = true := by
  obtain ⟨first, last, ends, lower, upper⟩ :=
    interval?_of_joinDecimals? (Reader.joinDecimals?_eq writable) (length_of_interval? interval)
  obtain ⟨rfl, rfl⟩ := Prod.mk.inj (Option.some.inj (interval.symm.trans ends))
  exact ⟨lower, upper⟩

theorem Expander.run_emit_range (room : lo < hi) {run : Run} {id : Nat} {shown : Text}
    {source : Random.Source} (sees : run.scope.get? randomName = some (.source id shown))
    (held : run.sources[id]? = some source) :
    emit (Leaf.range sizes).emission run =
      .ok (toString (lo + (source.draw (hi - lo).toNat).1))
        { run with sources := run.sources.set id (source.draw (hi - lo).toNat).2 } := by
  obtain ⟨lower, upper⟩ := writable_ends interval writable
  have below := source.draw_lt (show 0 < (hi - lo).toNat by omega)
  have short := Numeral.isSome_decimal?_of_between lower upper
    (show lo ≤ lo + (source.draw (hi - lo).toNat).1 by omega) (by omega)
  rw [emit_range interval, run_bind, run_between room sees held]
  dsimp only
  rw [Numeral.text?_eq_toString short]
  rfl

theorem drawsBetween_range : (Leaf.range sizes).DrawsBetween lo hi where
  draws room {_ _ _ source} sees held := by
    have below := source.draw_lt (show 0 < (hi - lo).toNat by omega)
    exact ⟨_, by omega, by omega, rfl,
      Expander.run_emit_range interval writable room sees held⟩
  reaches {value} above under {run id shown rest} sees held := by
    have emitted := Expander.run_emit_range interval writable
      (Int.lt_of_le_of_lt above under) sees held
    have offset : lo + ((value - lo).toNat : Int) = value := by omega
    rwa [Random.Source.exists_draw (by omega), offset] at emitted
  empty nothing run := by
    obtain ⟨lower, upper⟩ := writable_ends interval writable
    rw [Expander.emit_range interval, Expander.run_bind,
      Expander.run_between_empty nothing lower upper]

end Leaves

namespace Lexical

theorem exists_writesInteger {size : Int} (writable : (Numeral.decimal? size).isSome = true) :
    ∃ tokens, WritesInteger tokens size ∧ Spreads tokens (toString size).toList := by
  have numeral (digits : List Char) : Spreads [⟨.int, String.ofList digits⟩] digits := by
    simpa using Spreads.token ⟨.int, String.ofList digits⟩
  cases size with
  | ofNat size => exact ⟨_, .plain (Numeral.writes_repr writable), numeral _⟩
  | negSucc size =>
      have positive : (Numeral.decimal? (size + 1 : Nat)).isSome = true := by
        rwa [Numeral.isSome_decimal?] at writable ⊢
      have signed : (toString (Int.negSucc size)).toList = '-' :: (Nat.repr (size + 1)).toList :=
        String.toList_append
      rw [signed]
      exact ⟨_, .minus (Numeral.writes_repr positive), (Spreads.mark '-').append (numeral _)⟩

theorem exists_writesIntegers {sizes : List Int} (some : sizes ≠ [])
    (writable : ∀ size ∈ sizes, (Numeral.decimal? size).isSome = true) :
    ∃ tokens, WritesIntegers tokens sizes ∧
      Spreads tokens (", ".intercalate (sizes.map toString)).toList := by
  rw [String.toList_intercalate, List.map_map]
  induction sizes with
  | nil => exact absurd rfl some
  | cons size rest ih =>
      obtain ⟨tokens, writes, shown⟩ := exists_writesInteger (writable size List.mem_cons_self)
      cases rest with
      | nil =>
          rw [List.map_singleton, List.intercalate_singleton]
          exact ⟨tokens, .last writes, shown⟩
      | cons next rest =>
          obtain ⟨others, further, behind⟩ :=
            ih nofun fun size member => writable size (.tail _ member)
          rw [List.map_cons, List.map_cons, List.intercalate_cons_cons, List.append_assoc]
          exact ⟨_, .more writes further,
            shown.append ((Spreads.mark ',').append ((Spreads.space (by decide)).append behind))⟩

end Lexical

/-- A grammar with one rule, which is a range of what is shown. -/
def rangeText (symbol shown : String) : String :=
  symbol ++ ":range(" ++ shown ++ ")."

theorem spread_rangeText (symbol shown : String) {arguments : List Token}
    (spreads : Spreads arguments shown.toList) :
    Spread (rangeRule symbol.toList arguments) (rangeText symbol shown).toList := by
  have name : Spreads [⟨.ident, String.ofList symbol.toList⟩] symbol.toList := by
    simpa using Spreads.token ⟨.ident, String.ofList symbol.toList⟩
  have whole := name.append ((Spreads.mark ':').append ((Spreads.token ⟨.ident, "range"⟩).append
    ((Spreads.mark '(').append (spreads.append ((Spreads.mark ')').append (Spreads.mark '.'))))))
  simpa [rangeRule, enclosed, rangeText] using whole.spread

theorem exists_writes_rangeText (symbol : List Char) {sizes : List Int} (some : sizes ≠ [])
    (writable : ∀ size ∈ sizes, (Numeral.decimal? size).isSome = true) :
    ∃ arguments, WritesIntegers arguments sizes ∧ Spread (rangeRule symbol arguments)
      (rangeText (String.ofList symbol) (", ".intercalate (sizes.map toString))).toList := by
  obtain ⟨arguments, writes, spreads⟩ := exists_writesIntegers some writable
  have spread := spread_rangeText (String.ofList symbol) _ spreads
  rw [String.toList_ofList] at spread
  exact ⟨arguments, writes, spread⟩

/--
One or two integers, written in decimal or in hexadecimal with any layout
between the tokens, are the arguments of one leaf, in a rule of their own and
wherever else a range is read. It draws once from the interval, or fails without
a draw if that is empty, and what it shows is read as the same leaf again. All
integers that can be written in decimal can be such arguments. With no argument,
or with more than two, neither the text nor the range is accepted.
-/
theorem range_exact {symbol : List Char} (named : Name symbol)
    (other : String.ofList symbol ≠ Reader.contextName) :
    (∀ arguments sizes lo hi, WritesIntegers arguments sizes → interval? sizes = some (lo, hi) →
      (∀ text : String, Spread (rangeRule symbol arguments) text.toList →
        (Grammar.parse Registry.default text).1 =
          .ok (.ofLeaf (String.ofList symbol) (.range sizes))) ∧
      (∀ reading front rest ending, reading.Sees (front ++ rest) ending →
        Reader.Ordered reading → front.map Lexeme.token = enclosed arguments →
          Reader.range.Gives reading (.range sizes) rest ending) ∧
      (Leaf.range sizes).DrawsBetween lo hi ∧
      ∃ shown : String, (Leaf.range sizes).value = shown ∧
        (Grammar.parse Registry.default (rangeText (String.ofList symbol) shown)).1 =
          .ok (.ofLeaf (String.ofList symbol) (.range sizes))) ∧
    (∀ sizes : List Int, sizes ≠ [] → (∀ size ∈ sizes, (Numeral.decimal? size).isSome = true) →
      ∃ arguments, WritesIntegers arguments sizes ∧ Spread (rangeRule symbol arguments)
        (rangeText (String.ofList symbol) (", ".intercalate (sizes.map toString))).toList) ∧
    (∀ arguments sizes, WritesArguments arguments sizes → ¬(sizes.length = 1 ∨ sizes.length = 2) →
      (∀ text : String, Spread (rangeRule symbol arguments) text.toList →
        Literal.Refused text (.rangeArity sizes.length)) ∧
      ∀ reading front rest ending, reading.Sees (front ++ rest) ending →
        Reader.Ordered reading → front.map Lexeme.token = enclosed arguments →
          Reader.range.Refuses reading (.rangeArity sizes.length)) ∧
    (∀ lo hi, (Cause.rangeEmpty lo hi).kind = .usage) ∧
      ∀ count, (Cause.rangeArity count).kind = .usage := by
  refine ⟨fun arguments sizes lo hi writes interval => ?_,
    fun sizes => exists_writes_rangeText symbol,
    fun arguments sizes writes count => ⟨fun text => refused_rangeRule writes count named other,
      fun _ _ _ _ => refuses_range writes count⟩,
    fun lo hi => rfl, fun count => rfl⟩
  have count := length_of_interval? interval
  have filled : sizes ≠ [] := by
    rintro rfl
    exact absurd count (by decide)
  obtain ⟨tokens, again, spread⟩ := exists_writes_rangeText symbol filled writes.writable
  refine ⟨fun text => parse_rangeRule writes count named other, ?_,
    drawsBetween_range interval writes.writable, _, rfl,
    parse_rangeRule again count named other spread⟩
  intro reading front rest ending sees ordered carried
  exact Reader.recognizes_range.complete sees ordered (spellsRange_of_writes writes count carried)

/-- The range from -31 to 5 with blanks and comments between its tokens. -/
def commentedRange : String :=
  "S:range/* . */(- 0x1F,// )\n5)."

theorem writes_commentedRange :
    WritesIntegers [.punct "-", ⟨.int, "0x1F"⟩, .punct ",", ⟨.int, "5"⟩] [-31, 5] := by
  have lower : Numeral.Writes "0x1F".toList 31 :=
    .hexadecimal (.inl rfl) ⟨by decide, List.all_eq_true.mp rfl⟩ (by decide +kernel)
  have upper : Numeral.Writes "5".toList 5 :=
    .decimal ⟨by decide, List.all_eq_true.mp rfl⟩ (by decide)
  exact .more (.minus lower) (.last (.plain upper))

theorem spread_commentedRange : Spread (rangeRule ['S']
    [.punct "-", ⟨.int, "0x1F"⟩, .punct ",", ⟨.int, "5"⟩]) commentedRange.toList := by
  have comment : Spacer ('/' :: '*' :: (" . ".toList ++ ['*', '/'])) := .block (by decide)
  have remark : Spacer ('/' :: '/' :: (" )".toList ++ ['\n'])) := .line (by decide)
  have block := Spreads.spacing (.cons comment .nil)
  have line := Spreads.spacing (.cons remark .nil)
  have blank : Spreads [] [' '] := .space (by decide)
  have front := (Spreads.token ⟨.ident, "S"⟩).append ((Spreads.mark ':').append
    ((Spreads.token ⟨.ident, "range"⟩).append (block.append (.mark '('))))
  have lower := (Spreads.mark '-').append (blank.append (.token ⟨.int, "0x1F"⟩))
  have upper := line.append (.token ⟨.int, "5"⟩)
  have behind := (Spreads.mark ')').append (.mark '.')
  exact (front.append (lower.append ((Spreads.mark ',').append (upper.append behind)))).spread

theorem range_exact_commented :
    (Grammar.parse Registry.default commentedRange).1 = .ok (.ofLeaf "S" (.range [-31, 5])) ∧
      (Leaf.range [-31, 5]).DrawsBetween (-31) 5 ∧
      Expander.emit (Leaf.range [-31, 5]).emission (.fresh .empty (.script [3, 7]) "here") =
        .ok "-28" { Run.fresh .empty (.script [3, 7]) "here" with sources := [.script [7]] } ∧
      (Grammar.parse Registry.default "S:range(-31, 5).").1 =
        .ok (.ofLeaf "S" (.range [-31, 5])) ∧
      Literal.Refused "S:range()." (.rangeArity 0) := by
  have named : Name ['S'] := .mk rfl rfl nofun
  have nothing : Spread (rangeRule ['S'] []) "S:range().".toList :=
    spread_rangeText "S" "" fun _ _ spread => spread
  have whole := range_exact named (by decide)
  have given := whole.1 _ _ _ _ writes_commentedRange rfl
  have sees : (Run.fresh .empty (.script [3, 7]) "here").scope.get? randomName =
      some (.source 0 "here") := by
    rw [Run.get?_fresh, if_pos rfl]
  have drawn := given.2.2.1.reaches (show (-31 : Int) ≤ -28 by decide) (by decide) sees rfl
  obtain ⟨shown, same, again⟩ := given.2.2.2
  obtain rfl : ", ".intercalate ([-31, 5].map toString) = shown := Text.ofString_injective same
  exact ⟨given.1 _ spread_commentedRange, given.2.2.1, drawn, again,
    (whole.2.2.1 _ _ .none (by decide)).1 _ nothing⟩

end PhraseGrammar
