import PhraseGrammar.Proofs.Token.Tiling

/-!
# Tokens kept apart

Where a token is followed by nothing that could go on with it, it is recognized
again, whatever text it was cut out of. Whitespace goes on with no token. So the
tokens of a text may be written one after the other with separators between them
that begin with whitespace, and the text that this makes has the same tokens. With
single spaces between them they are the normal form of the text. Next to a mark a
separator may be missing.
-/

namespace PhraseGrammar

namespace Unicode

/-- A hexadecimal digit may stand anywhere in a word. -/
theorem isWord_of_isHexDigit {c : Char} (digit : isHexDigit c = true) : isWord c = true := by
  rcases range_of_isHexDigit digit with decimal | letter
  · have found : isDigit c = true := by rw [isDigit, digit?_of_ascii decimal.1 decimal.2]; rfl
    rw [isWord, found, Bool.or_true]
  · have alphabetic : c.isAlpha = true := by
      refine (Bool.or_eq_true _ _).mpr ?_
      rcases letter with lower | upper
      · have under : c.val ≤ 122 := Nat.le_trans lower.2 (by decide)
        exact .inr ((Bool.and_eq_true _ _).mpr
          ⟨decide_eq_true (show c.val ≥ 97 from lower.1), decide_eq_true under⟩)
      · have under : c.val ≤ 90 := Nat.le_trans upper.2 (by decide)
        exact .inl (decide_eq_true ⟨show c.val ≥ 65 from upper.1, under⟩)
    have starts : isNameStart c = true := by
      rw [isNameStart, if_pos (by omega), alphabetic]
      rfl
    rw [isWord, starts, Bool.true_or]

end Unicode

namespace Lexical

/-- Nothing follows, or a character that goes on with no name and no number. -/
def Parts (rest : List Char) : Prop :=
  ∀ c ∈ rest.head?, Unicode.isWord c = false ∧ c ≠ '.'

namespace Parts

variable {rest : List Char}

theorem stops (parts : Parts rest) {holds : Char → Bool}
    (word : ∀ c, holds c = true → Unicode.isWord c = true) : Stops holds rest := by
  intro c first
  apply Bool.eq_false_iff.mpr
  intro goesOn
  exact Bool.false_ne_true ((parts c first).1.symm.trans (word c goesOn))

theorem stops_digits (parts : Parts rest) : Stops Unicode.isDigit rest :=
  parts.stops fun c digit => by rw [Unicode.isWord, digit, Bool.or_true]

theorem not_opensFraction (parts : Parts rest) : ¬OpensFraction rest :=
  fun opens => (parts '.' opens.head?_eq).2 rfl

theorem not_opensExponent (parts : Parts rest) : ¬OpensExponent rest := by
  rintro ⟨marked, _, _⟩
  have other := (parts _ rfl).1
  rcases marked with rfl | rfl <;> exact absurd other (by decide)

theorem not_opensHexadecimal (parts : Parts rest) : ¬OpensHexadecimal rest := by
  rintro ⟨marked, _⟩
  have other := (parts _ rfl).1
  rcases marked with rfl | rfl <;> exact absurd other (by decide)

end Parts

theorem parts_of_isSpace {c : Char} (blank : Unicode.isSpace c = true) :
    Unicode.isWord c = false ∧ c ≠ '.' := by
  refine ⟨Bool.eq_false_iff.mpr fun word => ?_, ?_⟩
  · exact Bool.false_ne_true ((Unicode.isSpace_eq_false_of_isWord word).symm.trans blank)
  · rintro rfl
    exact absurd blank (by decide)

/-- A token keeps its form before whatever does not go on with it. -/
theorem Spells.beside {rest other piece : List Char} {kind : Kind} (spells : Spells rest kind piece)
    (parts : Parts other)
    (plain : piece = ['/'] → other.head? ≠ some '/' ∧ other.head? ≠ some '*') :
    Spells other kind piece := by
  cases spells with
  | ident word starts all ends => exact .ident word starts all (parts.stops fun _ known => known)
  | decimal filled ends whole decimal =>
      exact .decimal filled parts.stops_digits ⟨parts.not_opensFraction, parts.not_opensExponent⟩
        fun _ => parts.not_opensHexadecimal
  | hexadecimal marked filled ends =>
      exact .hexadecimal marked filled (parts.stops fun _ => Unicode.isWord_of_isHexDigit)
  | float filled fraction exponent either ends closed =>
      exact .float filled fraction exponent either parts.stops_digits
        fun _ => parts.not_opensExponent
  | string items => exact .string items
  | char one => exact .char one
  | punct visible other unquoted _ =>
      exact .punct visible other unquoted fun slash => plain (congrArg ([·]) slash)

/-- Every token of a tiling has the form of its kind. -/
theorem Tiling.spelled {remainder consumed : List Char} {tokens : List Token}
    (tiling : Tiling remainder consumed tokens) :
    ∀ token ∈ tokens, ∃ rest, Spells rest token.kind token.text.toList := by
  induction tiling with
  | layout layout => exact nofun
  | token layout spells further ih =>
      intro token member
      rcases List.mem_cons.mp member with rfl | later
      · rw [String.toList_ofList]
        exact ⟨_, spells⟩
      · exact ih token later

theorem Tiling.behind {remainder gap consumed : List Char} {tokens : List Token}
    (layout : Layout (consumed ++ remainder) gap) (tiling : Tiling remainder consumed tokens) :
    Tiling remainder (gap ++ consumed) tokens := by
  induction layout with
  | nil => exact tiling
  | cons first further ih =>
      rw [List.append_assoc]
      exact ih.blank (List.append_assoc _ _ _ ▸ first)

/-- One whitespace character, a complete block comment, or a line comment with its line feed. -/
inductive Spacer : List Char → Prop where
  | space {c : Char} (blank : Unicode.isSpace c = true) : Spacer [c]
  | block {body : List Char} (first : ¬['*', '/'] <:+: body) :
      Spacer ('/' :: '*' :: (body ++ ['*', '/']))
  | line {body : List Char} (inline : '\n' ∉ body) : Spacer ('/' :: '/' :: (body ++ ['\n']))

/-- Spacers one after the other. -/
inductive Spacing : List Char → Prop where
  | nil : Spacing []
  | cons {front others : List Char} (first : Spacer front) (further : Spacing others) :
      Spacing (front ++ others)

/-- Spacing is layout before anything. -/
theorem Spacing.layout {gap : List Char} (spacing : Spacing gap) (rest : List Char) :
    Layout rest gap := by
  induction spacing with
  | nil => exact .nil
  | cons first further ih =>
      cases first with
      | space blank => exact .cons (.space blank) ih
      | block unclosed => exact .cons (.block unclosed) ih
      | line inline =>
          -- the line feed is a blank of its own, behind the comment that it ends
          rw [← List.cons_append, ← List.cons_append, List.append_assoc]
          exact .cons (.line inline (.inr rfl)) (.cons (.space (by decide)) ih)

theorem Layout.append {rest gap others : List Char} (first : Layout (others ++ rest) gap)
    (further : Layout rest others) : Layout rest (gap ++ others) := by
  induction first with
  | nil => exact further
  | cons blank _ ih =>
      rw [List.append_assoc]
      exact .cons (by rwa [List.append_assoc]) ih

/-! ## Layout between tokens -/

/-- Tokens in their order, with layout before, between and behind them, if there is any. -/
inductive Spread : List Token → List Char → Prop where
  | nil {gap : List Char} (layout : Layout [] gap) : Spread [] gap
  | cons {gap rest : List Char} {tokens : List Token} (token : Token)
      (layout : Layout (token.text.toList ++ rest) gap) (further : Spread tokens rest) :
      Spread (token :: tokens) (gap ++ (token.text.toList ++ rest))

/-- A character that is a token of its own wherever it stands. -/
def Delimiter (c : Char) : Prop :=
  Unicode.isSpace c = false ∧ Unicode.isWord c = false ∧ (c ≠ '"' ∧ c ≠ '\'') ∧ c ≠ '/'

instance (c : Char) : Decidable (Delimiter c) :=
  inferInstanceAs (Decidable (_ ∧ _))

theorem Delimiter.spells {c : Char} (mark : Delimiter c) (rest : List Char) : Spells rest .punct [c] :=
  .punct mark.1 mark.2.1 mark.2.2.1 fun slash => absurd slash mark.2.2.2

/-- Marks and words, where each word has a mark behind it that does not go on with it. -/
inductive Punctuated : List Token → Prop where
  | nil : Punctuated []
  | mark {c : Char} {tokens : List Token} (mark : Delimiter c) (further : Punctuated tokens) :
      Punctuated (.punct (String.ofList [c]) :: tokens)
  | word {c : Char} {word : List Char} {kind : Kind} {tokens : List Token}
      (spells : Spells [] kind word) (solid : word ≠ ['/']) (mark : Delimiter c) (ends : c ≠ '.')
      (further : Punctuated (.punct (String.ofList [c]) :: tokens)) :
      Punctuated (⟨kind, String.ofList word⟩ :: .punct (String.ofList [c]) :: tokens)

/-- Layout begins with whitespace or a slash. -/
theorem Layout.parts {rest gap : List Char} (layout : Layout rest gap) (ends : Parts rest) :
    Parts (gap ++ rest) := by
  cases layout with
  | nil => exact ends
  | cons first further =>
      intro c head
      cases first with
      | space blank =>
          obtain rfl := Option.some.inj head
          exact parts_of_isSpace blank
      | line inline closes =>
          obtain rfl := Option.some.inj head
          decide
      | block unclosed =>
          obtain rfl := Option.some.inj head
          decide

theorem Spread.parts {c : Char} {tokens : List Token} {text : List Char} (mark : Delimiter c)
    (ends : c ≠ '.') (spread : Spread (.punct (String.ofList [c]) :: tokens) text) :
    Parts text := by
  cases spread with
  | @cons gap rest tokens token layout further =>
      refine layout.parts fun d first => ?_
      rw [Token.punct, String.toList_ofList] at first
      obtain rfl := Option.some.inj first
      exact ⟨mark.2.1, ends⟩

/-- Where no word touches another one, layout may be anywhere or missing. -/
theorem Spread.tiling {tokens : List Token} (punctuated : Punctuated tokens) {text : List Char}
    (spread : Spread tokens text) : Tiling [] text tokens := by
  induction punctuated generalizing text with
  | nil =>
      cases spread with
      | nil layout => exact .layout layout
  | @mark c tokens mark punctuated ih =>
      cases spread with
      | @cons gap rest tokens token layout further =>
          have inner : Tiling [] ([c] ++ rest) _ := .next (mark.spells _) (ih further)
          simp only [Token.punct, String.toList_ofList] at layout ⊢
          exact inner.behind (by rwa [List.append_nil])
  | @word c word kind tokens spells solid mark ends punctuated ih =>
      cases spread with
      | @cons gap rest tokens token layout further =>
          have apart : Spells (rest ++ []) kind word :=
            spells.beside (by rw [List.append_nil]; exact further.parts mark ends)
              fun slash => absurd slash solid
          have inner : Tiling [] (word ++ rest) _ := .next apart (ih further)
          simp only [String.toList_ofList] at layout ⊢
          exact inner.behind (by rwa [List.append_nil])

/-- In front of any text that spreads further tokens, the characters spread these tokens. -/
def Spreads (tokens : List Token) (text : List Char) : Prop :=
  ∀ others rest, Spread others rest → Spread (tokens ++ others) (text ++ rest)

namespace Spreads

variable {tokens others : List Token} {text further : List Char}

theorem token (token : Token) : Spreads [token] token.text.toList :=
  fun _ _ => .cons token .nil

theorem mark (c : Char) : Spreads [.punct (String.ofList [c])] [c] := by
  simpa [Token.punct] using token (.punct (String.ofList [c]))

theorem spacing {gap : List Char} (spacing : Spacing gap) : Spreads [] gap := by
  intro others rest spread
  cases spread with
  | nil layout => exact .nil ((spacing.layout _).append layout)
  | cons token layout further =>
      rw [← List.append_assoc]
      exact .cons token ((spacing.layout _).append layout) further

theorem space {c : Char} (blank : Unicode.isSpace c = true) : Spreads [] [c] :=
  spacing (.cons (.space blank) .nil)

theorem append (first : Spreads tokens text) (second : Spreads others further) :
    Spreads (tokens ++ others) (text ++ further) := by
  intro behind rest spread
  rw [List.append_assoc, List.append_assoc]
  exact first _ _ (second _ _ spread)

theorem spread (spreads : Spreads tokens text) : Spread tokens text := by
  simpa using spreads [] [] (.nil .nil)

end Spreads

/-! ## Separators -/

/-- What is put between two tokens begins with whitespace. -/
inductive Separator : List Char → Prop where
  | mk {c : Char} {others : List Char} (blank : Unicode.isSpace c = true)
      (further : Spacing others) : Separator (c :: others)

theorem Separator.layout {gap : List Char} (separator : Separator gap) (rest : List Char) :
    Layout rest gap := by
  cases separator with
  | mk blank further => exact .cons (.space blank) (further.layout rest)

/-- Whitespace goes on with no token. -/
theorem Spells.before_separator {rest piece gap : List Char} {kind : Kind}
    (spells : Spells rest kind piece) (separator : Separator gap) (further : List Char) :
    Spells (gap ++ further) kind piece := by
  cases separator with
  | @mk c others blank spacing =>
      refine spells.beside (fun d first => ?_) fun _ => ?_
      · obtain rfl := Option.some.inj first
        exact parts_of_isSpace blank
      · refine ⟨fun first => ?_, fun first => ?_⟩
        all_goals
          cases Option.some.inj first
          exact absurd blank (by decide)

/-- The texts of tokens in their order, with a separator between each token and the next. -/
inductive Separated : List Token → List Char → Prop where
  | nil : Separated [] []
  | single (token : Token) : Separated [token] token.text.toList
  | cons {next : Token} {tokens : List Token} {gap rest : List Char} (token : Token)
      (separator : Separator gap) (further : Separated (next :: tokens) rest) :
      Separated (token :: next :: tokens) (token.text.toList ++ (gap ++ rest))

/-- Tokens that have their forms anywhere at all are those of every text that separates them. -/
theorem Separated.tiling {tokens : List Token} {joined : List Char}
    (separated : Separated tokens joined)
    (spelled : ∀ token ∈ tokens, ∃ rest, Spells rest token.kind token.text.toList) :
    Tiling [] joined tokens := by
  have whole (token : Token) : (⟨token.kind, String.ofList token.text.toList⟩ : Token) = token := by
    rw [String.ofList_toList]
  induction separated with
  | nil => exact .layout .nil
  | single token =>
      obtain ⟨rest, spells⟩ := spelled token List.mem_cons_self
      have alone : Spells [] token.kind token.text.toList :=
        spells.beside nofun fun _ => ⟨nofun, nofun⟩
      have tiling : Tiling [] (token.text.toList ++ []) _ := .next alone (.layout .nil)
      rwa [List.append_nil, whole] at tiling
  | @cons next tokens gap rest token separator further ih =>
      obtain ⟨_, spells⟩ := spelled token List.mem_cons_self
      have inner := ih fun token member => spelled token (.tail _ member)
      have tiling : Tiling [] (token.text.toList ++ (gap ++ rest)) _ :=
        .next (List.append_assoc _ _ _ ▸ spells.before_separator separator (rest ++ []))
          (inner.behind (separator.layout _))
      rwa [whole] at tiling

end Lexical

open Lexical

namespace Lexer

/-- Tokens joined by single spaces. -/
def spaced (tokens : List Token) : String :=
  " ".intercalate (tokens.map Token.text)

/-- The tokens of a text joined by single spaces. -/
def normalForm (text : String) : String :=
  spaced (ofText text).toEnd.1

theorem separated_spaced (tokens : List Token) : Separated tokens (spaced tokens).toList := by
  rw [spaced, String.toList_intercalate, List.map_map]
  induction tokens with
  | nil => exact .nil
  | cons token tokens ih =>
      cases tokens with
      | nil =>
          rw [List.map_singleton, List.intercalate_singleton]
          exact .single token
      | cons next tokens =>
          rw [List.map_cons, List.map_cons, List.intercalate_cons_cons, List.append_assoc]
          exact .cons token (.mk (by decide) .nil) ih

/-- The tokens of a text in which nothing is left open. -/
theorem tiling_of_closed {text : String} (closed : (ofText text).toEnd.2.1 = none) :
    Tiling [] text.toList (ofText text).toEnd.1 := by
  obtain ⟨consumed, remainder, tokens, stop, whole, tiling, halts⟩ := exists_tiling text.toList
  obtain ⟨final, ended⟩ := toEnd_of_halts whole tiling halts
  rw [ended] at closed ⊢
  cases halts with
  | eof => rwa [whole, List.append_nil]
  | unterminated opened => cases closed

theorem toEnd_of_tiling {text : String} {tokens : List Token}
    (tiling : Tiling [] text.toList tokens) :
    (ofText text).toEnd.1 = tokens ∧ (ofText text).toEnd.2.1 = none := by
  obtain ⟨final, ended⟩ := toEnd_of_halts (List.append_nil _).symm tiling .eof
  rw [ended]
  exact ⟨rfl, rfl⟩

/--
The tokens of a text in which nothing is left open are recognized again under
any separation. In particular single spaces give a normal form, of which the
normal form is the text itself.
-/
theorem toEnd_of_separated {text : String} (closed : (ofText text).toEnd.2.1 = none) :
    (∀ joined : String, Separated (ofText text).toEnd.1 joined.toList →
      (ofText joined).toEnd.1 = (ofText text).toEnd.1 ∧ (ofText joined).toEnd.2.1 = none) ∧
    Separated (ofText text).toEnd.1 (normalForm text).toList ∧
      normalForm (normalForm text) = normalForm text := by
  have again (joined : String) (separated : Separated (ofText text).toEnd.1 joined.toList) :=
    toEnd_of_tiling (separated.tiling (tiling_of_closed closed).spelled)
  have spaces := separated_spaced (ofText text).toEnd.1
  exact ⟨again, spaces, congrArg spaced (again (normalForm text) spaces).1⟩

/-- Tokens that stand close to each other, before a line comment that ends with the text. -/
def denseText : String :=
  "5.6/.0x1Fg// 7"

/-- The same tokens with whitespace and comments between them. -/
def looseText : String :=
  "5.6 /* . *//\t// 7\n.\u30000x1F g"

theorem separated_loose : Separated (ofText denseText).toEnd.1 looseText.toList := by
  have tokens : (ofText denseText).toEnd.1 =
      [⟨.float, "5.6"⟩, .punct "/", .punct ".", ⟨.int, "0x1F"⟩, ⟨.ident, "g"⟩] := by
    decide +kernel
  have block : Spacer ('/' :: '*' :: (" . ".toList ++ ['*', '/'])) := .block (by decide)
  have line : Spacer ('/' :: '/' :: (" 7".toList ++ ['\n'])) := .line (by decide)
  have comment : Separator (' ' :: ('/' :: '*' :: (" . ".toList ++ ['*', '/']) ++ [])) :=
    .mk (by decide) (.cons block .nil)
  have remark : Separator ('\t' :: ('/' :: '/' :: (" 7".toList ++ ['\n']) ++ [])) :=
    .mk (by decide) (.cons line .nil)
  have wide : Separator ['\u3000'] := .mk (by decide) .nil
  have narrow : Separator [' '] := .mk (by decide) .nil
  rw [tokens]
  exact .cons _ comment (.cons _ remark (.cons _ wide (.cons _ narrow (.single _))))

theorem toEnd_of_separated_loose :
    (ofText denseText).toEnd.2.1 = none ∧
      (ofText looseText).toEnd.1 = (ofText denseText).toEnd.1 ∧
        normalForm denseText = "5.6 / . 0x1F g" ∧
          normalForm (normalForm denseText) = normalForm denseText :=
  have closed : (ofText denseText).toEnd.2.1 = none := by decide +kernel
  ⟨closed, ((toEnd_of_separated closed).1 looseText separated_loose).1, by decide +kernel,
    (toEnd_of_separated closed).2.2⟩

end Lexer

end PhraseGrammar
