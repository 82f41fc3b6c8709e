import PhraseGrammar.Proofs.Token.Decoding
import PhraseGrammar.Proofs.Token.Tiling
import PhraseGrammar.Rules.Context

/-!
# Literals and numbers are readable

What a lexer gives out as a literal or a number can be read as one. The quotes
of a literal are always found, so that only an escape can be at fault, because
it stands for nothing or is too large; a character literal denotes one code
point. An integer has the value of its digits in their base, unless its
decimal notation is too long. A float always has a value.
-/

namespace PhraseGrammar

open Lexical

namespace Numeral

/-- The number that digits write in a base, the most significant one first. -/
def positional (base : Nat) (value? : Char → Option Nat) (digits : List Char) : Nat :=
  Nat.ofDigits base (digits.reverse.map fun digit => (value? digit).getD 0)

/-- How an integer may be written, and what is then read. -/
inductive Reads : List Char → Option Int → Prop where
  | decimal {digits : List Char} (filled : Filled Unicode.isDigit digits)
      (short : digits.length ≤ digitLimit) : Reads digits (some (positional 10 Unicode.digit? digits))
  | long {digits : List Char} (filled : Filled Unicode.isDigit digits)
      (long : digitLimit < digits.length) : Reads digits none
  | hexadecimal {mark : Char} {digits : List Char} (marked : mark = 'x' ∨ mark = 'X')
      (filled : Filled Unicode.isHexDigit digits) :
      Reads ('0' :: mark :: digits) (some (positional 16 Unicode.hexDigit? digits))

theorem decimalValue_eq_positional (digits : List Char) :
    decimalValue digits = positional 10 Unicode.digit? digits := by
  rw [decimalValue, positional, ofDigits_eq, List.map_reverse]

theorem hexadecimalValue_eq_positional (digits : List Char) :
    hexadecimalValue digits = positional 16 Unicode.hexDigit? digits := by
  rw [hexadecimalValue, positional, ofDigits_eq, List.map_reverse]

end Numeral

theorem Lexical.Spells.reads_integer {rest piece : List Char} (spells : Spells rest .int piece) :
    Numeral.Reads piece (Numeral.readInteger? (String.ofList piece)) := by
  cases spells with
  | decimal filled =>
      rw [Numeral.readInteger?_digits filled.nonempty filled.all]
      split
      · rename_i short
        rw [Numeral.decimalValue_eq_positional]
        exact .decimal filled short
      · rename_i long
        exact .long filled (Nat.lt_of_not_le long)
  | hexadecimal marked filled =>
      rw [Numeral.readInteger?_hexadecimal marked filled.nonempty filled.all,
        Numeral.hexadecimalValue_eq_positional]
      exact .hexadecimal marked filled

namespace Literal

/-- What a literal between quotes may hold, and what it then comes to. -/
inductive Reads (mark : Char) (body : List Char) : Except ParseFailure Text → Prop where
  | value {values : List CodePoint} (writes : Writes mark body values) :
      Reads mark body (.ok ⟨values⟩)
  | unknown {escape : String} (malformed : ∀ values, ¬Writes mark body values) :
      Reads mark body
        (.error (.bare (.unknownEscape escape (String.ofList (mark :: (body ++ [mark]))))))
  | tooLarge (overflows : Overflows mark body) : Reads mark body (.error .codePointTooLarge)

theorem reads_unquote {mark : Char} {body : List Char} (quote : mark = '"' ∨ mark = '\'')
    (items : Items mark body) :
    Reads mark body (unquote (String.ofList (mark :: (body ++ [mark])))) := by
  have verdict := verdict_decode quote items
  rw [unquote_eq quote]
  cases decoded : decode body 0 with
  | ok values =>
      rw [decoded] at verdict
      exact .value verdict
  | error failure =>
      rw [decoded] at verdict
      cases failure with
      | unknown escape =>
          refine .unknown fun values writes => ?_
          cases decoded.symm.trans (decode_of_writes writes)
      | codePointTooLarge => exact .tooLarge verdict

end Literal

namespace Token

/-- What is written between the quotes of a literal, and that it is read. -/
def ReadsQuoted (token : Token) (mark : Char) : Prop :=
  ∃ body, Literal.body? token.text.toList = some body ∧
    Literal.Reads mark body (Literal.unquote token.text)

/-- What can be read of a token of a kind that has a value. -/
structure Readable (token : Token) : Prop where
  string (kind : token.kind = .string) : token.ReadsQuoted '"'
  char (kind : token.kind = .char) : token.ReadsQuoted '\'' ∧
    ∀ value, Literal.unquote token.text = .ok value →
      ∃ code, value.codes = [code] ∧ Reader.codePoint value = .ok (.integer code.toNat)
  integer (kind : token.kind = .int) :
    Numeral.Reads token.text.toList (Numeral.readInteger? token.text)
  float (kind : token.kind = .float) : ∃ value, Binary64.read? token.text = some value

theorem readsQuoted_of_items {kind : Kind} {mark : Char} {body : List Char}
    (quote : mark = '"' ∨ mark = '\'') (items : Literal.Items mark body) :
    ReadsQuoted ⟨kind, String.ofList (mark :: (body ++ [mark]))⟩ mark :=
  ⟨body, by rw [String.toList_ofList, Literal.body?_eq quote], Literal.reads_unquote quote items⟩

end Token

/-- Every lexeme of a text is readable. -/
theorem Lexeme.readable_token {text : List Char} {skip : Nat} {place : Position} {lexeme : Lexeme}
    (member : lexeme ∈ (scan text skip place).1) : lexeme.token.Readable := by
  have regular (other : lexeme.token.kind ≠ .int) : lexeme.token.Regular :=
    regular_of_mem member fun same => absurd same other
  obtain ⟨piece, rest, spells, written⟩ := exists_spells member
  obtain ⟨⟨kind, text⟩, place, follow⟩ := lexeme
  subst written
  exact {
    string := by
      rintro rfl
      cases spells with
      | string items => exact Token.readsQuoted_of_items (.inl rfl) items
    char := by
      rintro rfl
      refine ⟨?_, fun value decodes => ?_⟩
      · cases spells with
        | @char item one =>
            have items : Literal.Items '\'' (item ++ []) := .cons one .nil
            rw [List.append_nil] at items
            exact Token.readsQuoted_of_items (.inr rfl) items
      · obtain ⟨c, single⟩ := (regular nofun).char rfl decodes
        exact ⟨c, single, by rw [Reader.codePoint, single]⟩
    integer := by
      rintro rfl
      rw [String.toList_ofList]
      exact spells.reads_integer
    float := by
      rintro rfl
      exact ⟨_, (regular nofun).float rfl⟩ }

namespace Lexer

/--
Whatever a lexer gives out of a text is readable: literals are decoded or hold
an escape that stands for nothing or is too large, a character literal is one
code point, integers have their positional value unless they are too long, and
floats have a value.
-/
theorem tokens_readable {text : String} {token : Token} (given : token ∈ (ofText text).toEnd.1) :
    token.Readable := by
  rw [tokens_toEnd] at given
  obtain ⟨lexeme, member, rfl⟩ := List.mem_map.mp given
  exact Lexeme.readable_token member

/-- Digits of two scripts, marks in either case, a surrogate, and escapes that stand for nothing. -/
def scriptsText : String :=
  "0X00fF 1\u0662 \u0663.5E-3 '\\x41' '\\ud800' '\\x' \"\\U80000000\""

theorem tokens_readable_scripts :
    (Token.Readable ⟨.int, "0X00fF"⟩ ∧ Numeral.readInteger? "0X00fF" = some 255) ∧
    (Token.Readable ⟨.int, "1\u0662"⟩ ∧ Numeral.readInteger? "1\u0662" = some 12) ∧
    Token.Readable ⟨.float, "\u0663.5E-3"⟩ ∧
    (Token.Readable ⟨.char, "'\\x41'"⟩ ∧ Literal.unquote "'\\x41'" = .ok "A") ∧
    (Token.Readable ⟨.char, "'\\ud800'"⟩ ∧
      (Literal.unquote "'\\ud800'").bind Reader.codePoint = .ok (.integer 0xD800)) ∧
    (Token.Readable ⟨.char, "'\\x'"⟩ ∧
      Literal.unquote "'\\x'" = .error (.bare (.unknownEscape "x" "'\\x'"))) ∧
    (Token.Readable ⟨.string, "\"\\U80000000\""⟩ ∧
      Literal.unquote "\"\\U80000000\"" = .error .codePointTooLarge) := by
  have given : (ofText scriptsText).toEnd.1 = [⟨.int, "0X00fF"⟩, ⟨.int, "1\u0662"⟩,
      ⟨.float, "\u0663.5E-3"⟩, ⟨.char, "'\\x41'"⟩, ⟨.char, "'\\ud800'"⟩,
      ⟨.char, "'\\x'"⟩, ⟨.string, "\"\\U80000000\""⟩] := by
    decide +kernel
  have readable (token : Token) (listed : token ∈ (ofText scriptsText).toEnd.1) : token.Readable :=
    tokens_readable listed
  rw [given] at readable
  exact ⟨⟨readable _ (by decide), by decide +kernel⟩, ⟨readable _ (by decide), by decide +kernel⟩,
    readable _ (by decide), ⟨readable _ (by decide), by decide +kernel⟩,
    ⟨readable _ (by decide), by decide +kernel⟩, ⟨readable _ (by decide), by decide +kernel⟩,
    ⟨readable _ (by decide), by decide +kernel⟩⟩

end Lexer

end PhraseGrammar
