import PhraseGrammar.Literal
import PhraseGrammar.Proofs.Token.Numerals
import PhraseGrammar.Token.Lexeme

/-!
# The lexemes of a text

The first character of a token tells its kind, and the rest has the form of
that kind. So numbers have values, a character literal stands for one character
if for anything, and a sign is never anything but a punctuation character. Such
a character that follows a token immediately is the next token.
-/

namespace PhraseGrammar

namespace Token

/-- The integer that an integer token denotes. -/
def integer (token : Token) : Int :=
  (Numeral.readInteger? token.text).getD 0

/-- The double that a float token denotes. -/
def size (token : Token) : Binary64 :=
  (Binary64.read? token.text).getD .nan

/-- Hexadecimal notation begins with a zero and an `x`. -/
def hexadecimal (token : Token) : Bool :=
  match token.text.toList with
  | '0' :: mark :: _ => mark = 'x' || mark = 'X'
  | _ => false

/--
An integer within the length limit of decimal notation: one in decimal has no
more digits, and one in hexadecimal has a decimal numeral of no more digits.
-/
def Short (token : Token) : Prop :=
  token.kind = .int →
    if token.hexadecimal then (Numeral.decimal? token.integer).isSome = true
    else token.text.length ≤ Numeral.digitLimit

instance (token : Token) : Decidable token.Short :=
  inferInstanceAs (Decidable (_ → _))

end Token

namespace Front

/-- The kind of a token and its length after the first character. -/
inductive Opens (c : Char) (rest : List Char) : Kind → Nat → Prop where
  | number {kind : Kind} {more : Nat} (digit : Unicode.isDigit c = true)
      (reads : number c rest = .token kind more) : Opens c rest kind more
  | name (starts : Unicode.isNameStart c = true) :
      Opens c rest .ident (run Unicode.isWord rest)
  | string {more : Nat} (quote : c = '"') (closes : stringBody? rest = some more) :
      Opens c rest .string more
  | char {more : Nat} (quote : c = '\'') (closes : charBody? rest = some more) :
      Opens c rest .char more
  | punct : Opens c rest .punct 0

theorem closes_of_literal {kind opened : Kind} {more? : Option Nat} {more : Nat}
    (found : literal kind more? = .token opened more) : opened = kind ∧ more? = some more := by
  cases more? with
  | none => cases found
  | some more =>
      cases found
      exact ⟨rfl, rfl⟩

theorem opens_of_ofText {c : Char} {rest : List Char} {kind : Kind} {more : Nat}
    (found : ofText c rest = .token kind more) : Opens c rest kind more := by
  unfold ofText at found
  split at found
  · cases found
  · split at found
    · exact .number ‹_› found
    · split at found
      · cases found
        exact .name ‹_›
      · split at found
        · obtain ⟨rfl, closes⟩ := closes_of_literal found
          exact .string ‹_› closes
        · split at found
          · obtain ⟨rfl, closes⟩ := closes_of_literal found
            exact .char ‹_› closes
          · split at found
            · cases found
            · split at found <;> cases found
            · cases found
              exact .punct

end Front

/-! ## Character literals -/

namespace Escape

theorem opensWith_take (count : Nat) (holds : Char → Bool) (text : List Char) :
    opensWith count holds (text.take count) = opensWith count holds text := by
  simp [opensWith, List.take_take]

theorem opensWith_of_length {count : Nat} {holds : Char → Bool} {text : List Char}
    (short : text.length < count) : opensWith count holds text = false := by
  have cut : (text.take count).length ≠ count := by
    rw [List.length_take]
    omega
  rw [opensWith, decide_eq_false cut]
  rfl

theorem longForm?_singleton (c : Char) : longForm? [c] = none := by
  unfold longForm?
  split
  all_goals
    rw [opensWith_of_length (by simp_all)]
    rfl

/-- A long form is found in its own characters. -/
theorem longForm?_take {text : List Char} {length : Nat} (found : longForm? text = some length) :
    longForm? (text.take length) = some length := by
  unfold longForm? at found
  split at found
  · split at found
    · cases found
      simp_all [longForm?, opensWith_take]
    · cases found
  · split at found
    · cases found
      simp_all [longForm?, opensWith_take]
    · cases found
  · split at found
    · cases found
      simp_all [longForm?, opensWith_take]
    · cases found
  · rename_i byte unicode wide
    split at found
    · rename_i octal
      cases found
      -- The characters after the first are of no account for which form it is.
      cases text with
      | nil => cases octal
      | cons c rest =>
          unfold longForm?
          split
          · rename_i same
            exact (byte rest (List.cons_eq_cons.mpr ⟨(List.cons.inj same).1, rfl⟩)).elim
          · rename_i same
            exact (unicode rest (List.cons_eq_cons.mpr ⟨(List.cons.inj same).1, rfl⟩)).elim
          · rename_i same
            exact (wide rest (List.cons_eq_cons.mpr ⟨(List.cons.inj same).1, rfl⟩)).elim
          · rw [opensWith_take, if_pos octal]
    · cases found

/-- What follows an escape has no part in how long it is. -/
theorem extent_take {c : Char} {rest : List Char} :
    extent ((c :: rest).take (extent (c :: rest))) = extent (c :: rest) := by
  unfold extent
  cases found : longForm? (c :: rest) with
  | none =>
      rw [Option.getD_none, List.take_succ_cons, List.take_zero, longForm?_singleton]
      rfl
  | some length =>
      rw [Option.getD_some, longForm?_take found]
      rfl

theorem extent_pos (text : List Char) : 0 < extent text := by
  unfold extent longForm?
  split
  all_goals
    split <;> decide

end Escape

namespace Literal

theorem decode_of_length_le {text : List Char} {skip : Nat} (past : text.length ≤ skip) :
    decode text skip = .ok [] := by
  induction text generalizing skip with
  | nil => rfl
  | cons c rest ih =>
      cases skip with
      | zero => cases past
      | succ skip => exact ih (Nat.le_of_succ_le_succ past)

/-- One escape stands for one code point. -/
theorem decode_escape {rest : List Char} (nonempty : rest ≠ [])
    (whole : rest.length = Escape.extent rest) {decoded : List CodePoint}
    (decodes : decode ('\\' :: rest) 0 = .ok decoded) : ∃ code, decoded = [code] := by
  simp only [decode, nonempty, ne_eq, not_false_eq_true, and_self, if_true,
    decode_of_length_le (Nat.le_of_eq whole)] at decodes
  split at decodes
  · cases decodes
  · rename_i code _
    cases decodes
    exact ⟨code, rfl⟩

theorem decode_plain {c : Char} {decoded : List CodePoint}
    (decodes : decode [c] 0 = .ok decoded) : decoded = [.ofChar c] := by
  simp [decode, Except.map] at decodes
  exact decodes.symm

theorem unquote_eq_ok {mark : Char} {body : List Char} {value : Text}
    (decodes : unquote (String.ofList (mark :: (body ++ [mark]))) = .ok value) :
    decode body 0 = .ok value.codes := by
  unfold unquote at decodes
  split at decodes
  · cases decodes
  · rename_i found
    rw [String.toList_ofList] at found
    simp only [body?, List.getLast?_append, List.getLast?_singleton, Option.some_or, and_true,
      List.dropLast_concat] at found
    split at found
    · cases found
      split at decodes
      · rename_i decoded read
        cases decodes
        exact read
      · cases decodes
      · cases decodes
    · cases found

/-- A character literal that stands for anything stands for one code point. -/
theorem codes_unquote_char {rest : List Char} {more : Nat} {value : Text}
    (closes : Front.charBody? rest = some more)
    (decodes : unquote (String.ofList ('\'' :: rest.take more)) = .ok value) :
    ∃ code, value.codes = [code] := by
  unfold Front.charBody? at closes
  split at closes
  · rename_i rest
    split at closes
    · rename_i closed
      cases closes
      have long := (List.getElem?_eq_some_iff.mp closed).1
      have cut : ('\\' :: rest).take (Escape.extent rest + 2) =
          '\\' :: rest.take (Escape.extent rest) ++ ['\''] := by
        rw [List.take_succ_cons, List.take_add_one, closed]
        rfl
      rw [cut] at decodes
      have counted : (rest.take (Escape.extent rest)).length = Escape.extent rest := by
        rw [List.length_take]
        omega
      refine decode_escape ?_ ?_ (unquote_eq_ok decodes)
      · intro none
        rw [none] at counted
        exact Nat.ne_of_lt (Escape.extent_pos rest) counted
      · rw [counted]
        cases rest with
        | nil => cases long
        | cons c rest => exact Escape.extent_take.symm
    · cases closes
  · cases closes
  · cases closes
  · rename_i c rest _ _ _
    cases closes
    exact ⟨c, decode_plain (@unquote_eq_ok '\'' [c] value decodes)⟩
  · cases closes

end Literal

/-- What the form of a token's kind makes sure of. -/
structure Token.Regular (token : Token) : Prop where
  integer (kind : token.kind = .int) : Numeral.readInteger? token.text = some token.integer ∧
    (Numeral.decimal? token.integer).isSome = true
  float (kind : token.kind = .float) : Binary64.read? token.text = some token.size
  char (kind : token.kind = .char) {value : Text}
    (decodes : Literal.unquote token.text = .ok value) : ∃ code, value.codes = [code]
  sign {text : String} (known : text = "-" ∨ text = "," ∨ text = ")")
    (same : token.text = text) : token = .punct text

namespace Token

theorem integer_eq {token : Token} (known : (Numeral.readInteger? token.text).isSome = true) :
    Numeral.readInteger? token.text = some token.integer := by
  obtain ⟨value, read⟩ := Option.isSome_iff_exists.mp known
  rw [integer, read]
  rfl

theorem size_eq {token : Token} (known : (Binary64.read? token.text).isSome = true) :
    Binary64.read? token.text = some token.size := by
  obtain ⟨value, read⟩ := Option.isSome_iff_exists.mp known
  rw [size, read]
  rfl

theorem integer_hexadecimal {token : Token} {mark : Char} {digits : List Char}
    (marked : mark = 'x' ∨ mark = 'X') (written : token.text.toList = '0' :: mark :: digits)
    (nonempty : digits ≠ []) (all : ∀ d ∈ digits, Unicode.isHexDigit d = true)
    (kind : token.kind = .int) (short : token.Short) :
    Numeral.readInteger? token.text = some token.integer ∧
      (Numeral.decimal? token.integer).isSome = true := by
  have read := Numeral.readInteger?_hexadecimal marked nonempty all
  rw [← written, String.ofList_toList] at read
  have bound := short kind
  refine ⟨integer_eq (by rw [read]; rfl), ?_⟩
  rcases marked with rfl | rfl <;> simpa [hexadecimal, written] using bound

/-- Decimal notation is not hexadecimal. -/
theorem hexadecimal_eq_false {token : Token} {digits : List Char}
    (written : token.text.toList = digits) (all : ∀ d ∈ digits, Unicode.isDigit d = true) :
    token.hexadecimal = false := by
  subst written
  unfold hexadecimal
  split
  · rename_i mark others same
    rw [same] at all
    simp [Numeral.unmarked_of_isDigit all]
  · rfl

theorem integer_decimal {token : Token} {c : Char} {rest : List Char}
    (written : token.text.toList = c :: rest)
    (all : ∀ d ∈ c :: rest, Unicode.isDigit d = true)
    (kind : token.kind = .int) (short : token.Short) :
    Numeral.readInteger? token.text = some token.integer ∧
      (Numeral.decimal? token.integer).isSome = true := by
  have bound := short kind
  rw [hexadecimal_eq_false written all, if_neg Bool.false_ne_true, ← String.length_toList, written]
    at bound
  have read := Numeral.readInteger?_decimal (List.cons_ne_nil c rest) all bound
  rw [← written, String.ofList_toList] at read
  refine ⟨integer_eq (by rw [read]; rfl), ?_⟩
  rw [integer, read, Option.getD_some, written]
  exact Numeral.isSome_decimal?_decimalValue all bound

end Token

namespace Front

theorem number_kind {c : Char} {rest : List Char} {kind : Kind} {more : Nat}
    (reads : number c rest = .token kind more) : kind = .float ∨ kind = .int := by
  unfold number at reads
  dsimp only at reads
  split at reads
  · cases reads
    exact .inl rfl
  · split at reads
    · cases reads
      exact .inr rfl
    · cases reads
      exact .inr rfl

/-- The sign characters open nothing but themselves. -/
theorem Opens.punct_of_sign {c : Char} {rest : List Char} {kind : Kind} {more : Nat}
    (opens : Opens c rest kind more) (known : c = '-' ∨ c = ',' ∨ c = ')') :
    kind = .punct ∧ more = 0 := by
  cases opens with
  | number digit reads =>
      rcases known with rfl | rfl | rfl
      all_goals exact absurd digit (by decide)
  | name starts =>
      rcases known with rfl | rfl | rfl
      all_goals exact absurd starts (by decide)
  | string quote closes => exact absurd quote (by rcases known with rfl | rfl | rfl <;> decide)
  | char quote closes => exact absurd quote (by rcases known with rfl | rfl | rfl <;> decide)
  | punct => exact ⟨rfl, rfl⟩

/-- The token of an opening, within the length limit if it is an integer. -/
theorem Opens.regular {c : Char} {rest : List Char} {kind : Kind} {more : Nat}
    (opens : Opens c rest kind more) {place : Position}
    (short : (Lexeme.cut kind more c rest place).token.Short) :
    (Lexeme.cut kind more c rest place).token.Regular where
  integer same := by
    cases opens with
    | number digit reads =>
        cases same
        rcases number_int digit reads with ⟨mark, digits, marked, whole, nonempty, all⟩ | all
        · refine Token.integer_hexadecimal marked ?_ nonempty all rfl short
          exact String.toList_ofList.trans whole
        · exact Token.integer_decimal String.toList_ofList all rfl short
    | name starts => cases same
    | string quote closes => cases same
    | char quote closes => cases same
    | punct => cases same
  float same := by
    cases opens with
    | number digit reads =>
        cases same
        obtain ⟨whole, point, power, written, nonempty, all, fraction, exponent⟩ :=
          number_float digit reads
        refine Token.size_eq ?_
        rw [show (Lexeme.cut .float more c rest place).token.text =
          String.ofList (c :: rest.take more) from rfl, written]
        exact Binary64.isSome_read? nonempty all fraction exponent
    | name starts => cases same
    | string quote closes => cases same
    | char quote closes => cases same
    | punct => cases same
  char same := by
    intro value decodes
    cases opens with
    | number digit reads =>
        cases same
        rcases number_kind reads with other | other <;> cases other
    | name starts => cases same
    | string quote closes => cases same
    | char quote closes =>
        cases quote
        exact Literal.codes_unquote_char closes decodes
    | punct => cases same
  sign := by
    intro text known same
    have written : c :: rest.take more = text.toList := by
      rw [← same]
      exact String.toList_ofList.symm
    have sign : (c = '-' ∨ c = ',' ∨ c = ')') ∧ text = String.ofList [c] := by
      rcases known with rfl | rfl | rfl
      all_goals
        obtain ⟨rfl, -⟩ := List.cons.inj written
        exact ⟨by decide, rfl⟩
    obtain ⟨rfl, rfl⟩ := opens.punct_of_sign sign.1
    rw [sign.2]
    rfl

end Front

/-! ## Sequences of lexemes -/

/-- The marker stands immediately behind the name. -/
def Lexeme.Marks (marker name : Lexeme) : Prop :=
  (name.follow = some '!' ∧ marker.token = .punct "!") ∨
    (name.follow = some '#' ∧ marker.token = .punct "#")

/-- A token that a marker follows has the marker after it. -/
inductive Adjoining : List Lexeme → Prop where
  | nil : Adjoining []
  | cons {lexeme : Lexeme} {rest : List Lexeme}
      (adjacent : lexeme.follow = some '!' ∨ lexeme.follow = some '#' →
        ∃ marker others, rest = marker :: others ∧ marker.Marks lexeme)
      (others : Adjoining rest) : Adjoining (lexeme :: rest)

theorem Adjoining.of_append {front rest : List Lexeme} (adjoining : Adjoining (front ++ rest)) :
    Adjoining rest := by
  induction front with
  | nil => exact adjoining
  | cons lexeme front ih =>
      cases adjoining with
      | cons adjacent others => exact ih others

/-- All tokens are regular, and one that a marker follows has the marker after it. -/
inductive Orderly : List Lexeme → Prop where
  | nil : Orderly []
  | cons {lexeme : Lexeme} {rest : List Lexeme} (regular : lexeme.token.Regular)
      (adjacent : lexeme.follow = some '!' ∨ lexeme.follow = some '#' →
        ∃ marker others, rest = marker :: others ∧ marker.Marks lexeme)
      (others : Orderly rest) : Orderly (lexeme :: rest)

theorem Orderly.of_append {front rest : List Lexeme} (orderly : Orderly (front ++ rest)) :
    Orderly rest := by
  induction front with
  | nil => exact orderly
  | cons lexeme front ih =>
      cases orderly with
      | cons regular adjacent others => exact ih others

theorem Orderly.regular {lexemes : List Lexeme} (orderly : Orderly lexemes) {lexeme : Lexeme}
    (member : lexeme ∈ lexemes) : lexeme.token.Regular := by
  induction orderly with
  | nil => cases member
  | cons regular adjacent others ih =>
      rcases List.mem_cons.mp member with rfl | inside
      · exact regular
      · exact ih inside

theorem Adjoining.orderly {lexemes : List Lexeme} (adjoining : Adjoining lexemes)
    (regular : ∀ lexeme ∈ lexemes, lexeme.token.Regular) : Orderly lexemes := by
  induction adjoining with
  | nil => exact .nil
  | cons adjacent others ih =>
      exact .cons (regular _ List.mem_cons_self) adjacent
        (ih fun lexeme member => regular lexeme (.tail _ member))

namespace Lexeme

/-- A marker that comes next in the text is the next token. -/
theorem scan_marker {c : Char} (known : c = '!' ∨ c = '#') {text : List Char}
    (first : text.head? = some c) (place : Position) :
    ∃ marker others, (scan text 0 place).1 = marker :: others ∧
      marker.token = .punct (String.ofList [c]) := by
  obtain ⟨rest, rfl⟩ := List.head?_eq_some_iff.mp first
  have opened : Front.ofText c rest = .token .punct 0 := by
    rcases known with rfl | rfl <;> rfl
  refine ⟨cut .punct 0 c rest place, (scan rest 0 (place.advance c)).1, ?_, rfl⟩
  rw [scan, opened]

theorem adjoining_scan (text : List Char) (skip : Nat) (place : Position) :
    Adjoining (scan text skip place).1 := by
  fun_induction scan text skip place with
  | case1 skip place => exact .nil
  | case2 c rest skip place ih => exact ih
  | case3 c rest place more found ih => exact ih
  | case4 c rest place kind more found lexemes ending scanned ih =>
      rw [scanned] at ih
      refine .cons (fun marked => ?_) ih
      have behind : lexemes = (scan rest more (place.advance c)).1 := by rw [scanned]
      rw [behind, scan_skip]
      rcases marked with follows | follows
      · obtain ⟨marker, others, next, same⟩ := scan_marker (.inl rfl) follows _
        exact ⟨marker, others, next, .inl ⟨follows, same⟩⟩
      · obtain ⟨marker, others, next, same⟩ := scan_marker (.inr rfl) follows _
        exact ⟨marker, others, next, .inr ⟨follows, same⟩⟩
  | case5 c rest place form found => exact .nil

/-- Every lexeme is cut where a token opens the text that is left. -/
theorem exists_cut {text : List Char} {skip : Nat} {place : Position} {lexeme : Lexeme}
    (member : lexeme ∈ (scan text skip place).1) : ∃ kind more c rest place,
      Front.ofText c rest = .token kind more ∧ lexeme = cut kind more c rest place := by
  fun_induction scan text skip place with
  | case1 skip place => cases member
  | case2 c rest skip place ih => exact ih member
  | case3 c rest place more found ih => exact ih member
  | case4 c rest place kind more found lexemes ending scanned ih =>
      rw [scanned] at ih
      rcases List.mem_cons.mp member with same | later
      · exact ⟨kind, more, c, rest, place, found, same⟩
      · exact ih later
  | case5 c rest place form found => cases member

theorem regular_of_mem {text : List Char} {skip : Nat} {place : Position} {lexeme : Lexeme}
    (member : lexeme ∈ (scan text skip place).1) (short : lexeme.token.Short) :
    lexeme.token.Regular := by
  obtain ⟨kind, more, c, rest, place, found, rfl⟩ := exists_cut member
  exact (Front.opens_of_ofText found).regular short

end Lexeme

/-- The lexemes of a text whose integers are short are in order. -/
theorem orderly_lexemes {text : String}
    (short : ∀ lexeme ∈ (lexemes text).1, lexeme.token.Short) : Orderly (lexemes text).1 :=
  (Lexeme.adjoining_scan text.toList 0 .start).orderly fun lexeme member =>
    Lexeme.regular_of_mem member (short lexeme member)

end PhraseGrammar
