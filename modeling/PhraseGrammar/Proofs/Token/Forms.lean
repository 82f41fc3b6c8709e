import Mathlib.Data.List.Infix
import PhraseGrammar.Proofs.Token.Lexemes

/-!
# The forms of tokens and of layout

Each kind of token has a form, which says what its characters are and what may
not follow them, so that no longer token could have been cut there. Layout is
made of whitespace and of comments that are complete. What stands at the front
of a text is recognized exactly by these forms.
-/

namespace PhraseGrammar

/-- The number of hexadecimal digits that an escape has behind its mark. -/
def Escape.width? : Char → Option Nat
  | 'x' => some 2
  | 'u' => some 4
  | 'U' => some 8
  | _ => none

/-- The characters of an escape, the backslash left out: digits, or any one character. -/
inductive Escape.Form : List Char → Prop where
  | hexadecimal {mark : Char} {digits : List Char} (size : width? mark = some digits.length)
      (all : ∀ d ∈ digits, Unicode.isHexDigit d = true) : Form (mark :: digits)
  | octal {digits : List Char} (size : digits.length = 3)
      (all : ∀ d ∈ digits, Unicode.isOctalDigit d = true) : Form digits
  | single (c : Char) : Form [c]

/-- One character of a literal between quotes `mark`, plain or escaped. -/
inductive Literal.Item (mark : Char) : List Char → Prop where
  | plain {c : Char} (inner : c ≠ mark) (unescaped : c ≠ '\\') (inline : c ≠ '\n') : Item mark [c]
  | escape {escape : List Char} (form : Escape.Form escape) : Item mark ('\\' :: escape)

/-- Characters of a literal one after the other. -/
inductive Literal.Items (mark : Char) : List Char → Prop where
  | nil : Items mark []
  | cons {front rest : List Char} (first : Item mark front) (others : Items mark rest) :
      Items mark (front ++ rest)

namespace Lexical

/-- No character of the class comes next. -/
def Stops (holds : Char → Bool) (rest : List Char) : Prop :=
  ∀ c ∈ rest.head?, holds c = false

/-- At least one character, and all of them of the class. -/
structure Filled (holds : Char → Bool) (text : List Char) : Prop where
  nonempty : text ≠ []
  all : ∀ c ∈ text, holds c = true

/-- A point with a digit comes next. -/
inductive OpensFraction : List Char → Prop where
  | point {digit : Char} {rest : List Char} (starts : Unicode.isDigit digit = true) :
      OpensFraction ('.' :: digit :: rest)

/-- `e` with a sign, which may be missing, and a digit comes next. -/
inductive OpensExponent : List Char → Prop where
  | mark {mark digit : Char} {sign rest : List Char} (marked : mark = 'e' ∨ mark = 'E')
      (signed : sign = [] ∨ sign = ['+'] ∨ sign = ['-'])
      (starts : Unicode.isDigit digit = true) : OpensExponent (mark :: (sign ++ digit :: rest))

/-- `x` with a hexadecimal digit comes next. -/
inductive OpensHexadecimal : List Char → Prop where
  | mark {mark digit : Char} {rest : List Char} (marked : mark = 'x' ∨ mark = 'X')
      (starts : Unicode.isHexDigit digit = true) : OpensHexadecimal (mark :: digit :: rest)

/-- The characters of a token, `rest` being what follows it. -/
inductive Spells (rest : List Char) : Kind → List Char → Prop where
  | ident {c : Char} {more : List Char} (word : Unicode.isWord c = true)
      (starts : Unicode.isDigit c = false) (all : ∀ d ∈ more, Unicode.isWord d = true)
      (ends : Stops Unicode.isWord rest) : Spells rest .ident (c :: more)
  | decimal {digits : List Char} (filled : Filled Unicode.isDigit digits)
      (ends : Stops Unicode.isDigit rest)
      (whole : ¬OpensFraction rest ∧ ¬OpensExponent rest)
      (decimal : digits = ['0'] → ¬OpensHexadecimal rest) : Spells rest .int digits
  | hexadecimal {mark : Char} {digits : List Char} (marked : mark = 'x' ∨ mark = 'X')
      (filled : Filled Unicode.isHexDigit digits) (ends : Stops Unicode.isHexDigit rest) :
      Spells rest .int ('0' :: mark :: digits)
  | float {whole point power : List Char} (filled : Filled Unicode.isDigit whole)
      (fraction : Front.Fraction point) (exponent : Front.Power power)
      (either : point ≠ [] ∨ power ≠ []) (ends : Stops Unicode.isDigit rest)
      (closed : power = [] → ¬OpensExponent rest) : Spells rest .float (whole ++ (point ++ power))
  | string {body : List Char} (items : Literal.Items '"' body) :
      Spells rest .string ('"' :: (body ++ ['"']))
  | char {item : List Char} (one : Literal.Item '\'' item) :
      Spells rest .char ('\'' :: (item ++ ['\'']))
  | punct {c : Char} (visible : Unicode.isSpace c = false) (other : Unicode.isWord c = false)
      (unquoted : c ≠ '"' ∧ c ≠ '\'')
      (plain : c = '/' → rest.head? ≠ some '/' ∧ rest.head? ≠ some '*') : Spells rest .punct [c]

/-- One whitespace character or one complete comment, `rest` being what follows it. -/
inductive Blank (rest : List Char) : List Char → Prop where
  | space {c : Char} (blank : Unicode.isSpace c = true) : Blank rest [c]
  | line {body : List Char} (inline : '\n' ∉ body) (ends : rest = [] ∨ rest.head? = some '\n') :
      Blank rest ('/' :: '/' :: body)
  | block {body : List Char} (first : ¬['*', '/'] <:+: body) :
      Blank rest ('/' :: '*' :: (body ++ ['*', '/']))

/-- Whitespace and complete comments one after the other, `rest` being what follows them. -/
inductive Layout (rest : List Char) : List Char → Prop where
  | nil : Layout rest []
  | cons {front others : List Char} (first : Blank (others ++ rest) front)
      (further : Layout rest others) : Layout rest (front ++ others)

/-- A text opens with a quote that no literal starts with, or with a comment that never closes. -/
inductive Open : Unclosed → List Char → Prop where
  | string {tail : List Char} (never : ∀ body rest, Literal.Items '"' body → tail ≠ body ++ '"' :: rest) :
      Open .literal ('"' :: tail)
  | char {tail : List Char} (never : ∀ item rest, Literal.Item '\'' item → tail ≠ item ++ '\'' :: rest) :
      Open .literal ('\'' :: tail)
  | comment {tail : List Char} (never : ¬['*', '/'] <:+: tail) : Open .comment ('/' :: '*' :: tail)

theorem OpensFraction.head?_eq {text : List Char} (opens : OpensFraction text) :
    text.head? = some '.' := by
  cases opens
  rfl

theorem Spells.ne_nil {rest piece : List Char} {kind : Kind} (spells : Spells rest kind piece) :
    piece ≠ [] := by
  cases spells with
  | decimal filled => exact filled.nonempty
  | float filled => simp [filled.nonempty]
  | _ => exact List.cons_ne_nil _ _

theorem Blank.ne_nil {rest piece : List Char} (blank : Blank rest piece) : piece ≠ [] := by
  cases blank <;> exact List.cons_ne_nil _ _

end Lexical

namespace Literal

open Unicode

theorem Items.append {mark : Char} {front rest : List Char} (left : Items mark front)
    (right : Items mark rest) : Items mark (front ++ rest) := by
  induction left with
  | nil => exact right
  | cons first others ih =>
      rw [List.append_assoc]
      exact .cons first ih

/-- A character that is no backslash stands for itself, so that what follows it goes on. -/
theorem Items.of_cons {mark c : Char} {rest : List Char} (items : Items mark (c :: rest))
    (unescaped : c ≠ '\\') : c ≠ mark ∧ c ≠ '\n' ∧ Items mark rest := by
  generalize whole : c :: rest = text at items
  cases items with
  | nil => cases whole
  | cons first others =>
      cases first with
      | plain inner _ inline =>
          obtain ⟨rfl, rfl⟩ := List.cons.inj whole
          exact ⟨inner, inline, others⟩
      | escape form => exact absurd (List.cons.inj whole).1 unescaped

/-- Behind its first character an escape has only digits. -/
theorem plain_of_form {mark : Char} (quote : mark = '"' ∨ mark = '\'') {c : Char}
    {digits : List Char} (form : Escape.Form (c :: digits)) :
    ∀ d ∈ digits, d ≠ mark ∧ d ≠ '\\' ∧ d ≠ '\n' := by
  intro d member
  have plain (digit : isHexDigit d = true ∨ isOctalDigit d = true) :
      d ≠ mark ∧ d ≠ '\\' ∧ d ≠ '\n' := by
    rcases quote with rfl | rfl
    all_goals
      refine ⟨?_, ?_, ?_⟩
      all_goals
        rintro rfl
        revert digit
        decide
  generalize whole : c :: digits = text at form
  cases form with
  | hexadecimal size all =>
      obtain ⟨rfl, rfl⟩ := List.cons.inj whole
      exact plain (.inl (all d member))
  | octal size all =>
      subst whole
      exact plain (.inr (all d (.tail _ member)))
  | single c =>
      obtain ⟨rfl, rfl⟩ := List.cons.inj whole
      cases member

end Literal

end PhraseGrammar
