import Mathlib.Data.Nat.Digits.Defs
import PhraseGrammar.Proofs.Token.FrontForms

/-!
# What literals denote

A well-formed escape stands for one code point, and a literal whose escapes are
all well-formed for one text. The decoder finds that text, since it cuts the
literal as the forms do; otherwise it stops at an escape that stands for
nothing.
-/

namespace PhraseGrammar

namespace Escape

open Unicode

/-- The escapes of one character, each with what it stands for. -/
def letters : List (Char × Char) :=
  [('a', '\x07'), ('b', '\x08'), ('f', '\x0c'), ('n', '\n'), ('r', '\r'), ('t', '\t'),
    ('v', '\x0b'), ('\\', '\\'), ('\'', '\''), ('"', '"')]

/-- The number that digits write in a base. -/
def code (base : Nat) (digits : List Char) : Nat :=
  Nat.ofDigits base (digits.reverse.map fun digit => (hexDigit? digit).getD 0)

/-- A well-formed escape, the backslash left out, and the code point that it stands for. -/
inductive Denotes : List Char → CodePoint → Prop where
  | letter {mark value : Char} (known : (mark, value) ∈ letters) : Denotes [mark] value
  | octal {digits : List Char} {value : CodePoint} (size : digits.length = 3)
      (all : ∀ d ∈ digits, isOctalDigit d = true) (numbered : value.toNat = code 8 digits) :
      Denotes digits value
  | hexadecimal {mark : Char} {digits : List Char} {value : CodePoint}
      (size : width? mark = some digits.length) (all : ∀ d ∈ digits, isHexDigit d = true)
      (numbered : value.toNat = code 16 digits) : Denotes (mark :: digits) value

theorem Denotes.form {escape : List Char} {value : CodePoint} (denotes : Denotes escape value) :
    Form escape := by
  cases denotes with
  | letter known => exact .single _
  | octal size all numbered => exact .octal size all
  | hexadecimal size all numbered => exact .hexadecimal size all

/-- What follows a well-formed escape does not make it longer. -/
theorem Denotes.extent_append {escape : List Char} {value : CodePoint}
    (denotes : Denotes escape value) (rest : List Char) : extent (escape ++ rest) = escape.length := by
  cases denotes with
  | @letter mark value known =>
      have plain : ∀ entry ∈ letters, width? entry.1 = none ∧ isOctalDigit entry.1 = false := by
        decide
      obtain ⟨short, other⟩ := plain _ known
      have closed : opensWith 3 isOctalDigit (mark :: rest) = false :=
        @opensWith_eq_false 3 isOctalDigit [] mark (Nat.succ_pos 2) other rest
      rw [extent, List.singleton_append, longForm?_cons, short]
      simp [closed]
  | octal size all numbered => exact extent_octal size all rest
  | hexadecimal size all numbered => exact extent_hexadecimal size all rest

end Escape

namespace Literal

open Unicode

theorem short?_eq_some_iff {mark value : Char} :
    short? mark = some value ↔ (mark, value) ∈ Escape.letters := by
  constructor
  · intro known
    unfold short? at known
    split at known
    all_goals
      cases known
      try decide
  · intro known
    have table : ∀ entry ∈ Escape.letters, short? entry.1 = some entry.2 := by decide
    exact table _ known

theorem number_eq_code (base : Nat) (digits : List Char) :
    number base digits = Escape.code base digits := by
  rw [Escape.code, List.map_reverse, ← Numeral.ofDigits_eq, Numeral.ofDigits, List.foldl_map]
  rfl

/-- The outcome for an escape in digits, once its number is known. -/
def numbered (escape : List Char) (code : Nat) : Except EscapeFailure CodePoint :=
  if 0x80000000 ≤ code then .error .codePointTooLarge
  else (CodePoint.ofNat? code).elim (.error (.unknown escape)) .ok

theorem value_hexadecimal {mark : Char} {digits : List Char}
    (size : Escape.width? mark = some digits.length) :
    value (mark :: digits) = numbered (mark :: digits) (Escape.code 16 digits) := by
  have marked : mark = 'x' ∨ mark = 'u' ∨ mark = 'U' := by
    unfold Escape.width? at size
    split at size
    · exact .inl rfl
    · exact .inr (.inl rfl)
    · exact .inr (.inr rfl)
    · cases size
  cases digits with
  | nil => exact absurd (Escape.width?_pos size) (Nat.lt_irrefl 0)
  | cons d digits => simp [value, marked, number_eq_code, numbered]

theorem value_octal {digits : List Char} (size : digits.length = 3)
    (all : ∀ d ∈ digits, isOctalDigit d = true) :
    value digits = numbered digits (Escape.code 8 digits) := by
  obtain ⟨first, second, third, rfl⟩ := List.length_eq_three.mp size
  have octal := all first (by simp)
  have unmarked : ¬(first = 'x' ∨ first = 'u' ∨ first = 'U') := by
    rintro (rfl | rfl | rfl) <;> cases octal
  simp [value, unmarked, number_eq_code, numbered]

theorem numbered_eq_ok_iff {escape : List Char} {code : Nat} {value : CodePoint} :
    numbered escape code = .ok value ↔ value.toNat = code := by
  unfold numbered
  constructor
  · intro found
    split at found
    · cases found
    · cases known : CodePoint.ofNat? code with
      | none => simp [known] at found
      | some other =>
          simp only [known, Option.elim_some, Except.ok.injEq] at found
          subst found
          exact CodePoint.ofNat?_eq_some_iff.mp known
  · intro same
    have small := value.below
    rw [if_neg (by omega), CodePoint.ofNat?_eq_some_iff.mpr same]
    rfl

/-- An escape stands for what it denotes, and for nothing if it denotes nothing. -/
theorem value_eq_ok_iff {escape : List Char} (form : Escape.Form escape) {code : CodePoint} :
    value escape = .ok code ↔ Escape.Denotes escape code := by
  constructor
  · intro found
    cases form with
    | hexadecimal size all =>
        rw [value_hexadecimal size, numbered_eq_ok_iff] at found
        exact .hexadecimal size all found
    | octal size all =>
        rw [value_octal size all, numbered_eq_ok_iff] at found
        exact .octal size all found
    | single mark =>
        cases known : short? mark with
        | none => simp [value, known] at found
        | some c =>
            simp only [value, known, Option.elim_some, Except.ok.injEq] at found
            exact found ▸ .letter (short?_eq_some_iff.mp known)
  · intro denotes
    cases denotes with
    | letter known => simp [value, short?_eq_some_iff.mpr known]
    | octal size all same => rw [value_octal size all, numbered_eq_ok_iff, same]
    | hexadecimal size all same => rw [value_hexadecimal size, numbered_eq_ok_iff, same]

theorem getD_hexDigit?_lt (c : Char) : (hexDigit? c).getD 0 < 16 := by
  unfold hexDigit?
  split
  · rename_i range
    have below : c.toNat ≤ 0x39 := range.2
    show c.toNat - 0x30 < 16
    omega
  · split
    · rename_i range
      have below : c.toNat ≤ 0x66 := range.2
      show c.toNat - 0x61 + 10 < 16
      omega
    · split
      · rename_i range
        have below : c.toNat ≤ 0x46 := range.2
        show c.toNat - 0x41 + 10 < 16
        omega
      · decide

/-- Only an escape of eight digits can write a number that is too large. -/
theorem value_eq_codePointTooLarge {escape : List Char} (form : Escape.Form escape)
    (found : value escape = .error .codePointTooLarge) : ∃ digits, escape = 'U' :: digits ∧
      digits.length = 8 ∧ (∀ d ∈ digits, isHexDigit d = true) ∧
        0x80000000 ≤ Escape.code 16 digits := by
  have large {escape : List Char} {code : Nat}
      (found : numbered escape code = .error .codePointTooLarge) : 0x80000000 ≤ code := by
    unfold numbered at found
    split at found
    · assumption
    · cases known : CodePoint.ofNat? code <;> simp [known] at found
  cases form with
  | single mark => cases known : short? mark <;> simp [value, known] at found
  | @octal digits size all =>
      rw [value_octal size all] at found
      have above := large found
      obtain ⟨first, second, third, rfl⟩ := List.length_eq_three.mp size
      have units := getD_hexDigit?_lt third
      have eights := getD_hexDigit?_lt second
      have squares := getD_hexDigit?_lt first
      simp [Escape.code, Nat.ofDigits_cons] at above
      omega
  | @hexadecimal mark digits size all =>
      rw [value_hexadecimal size] at found
      have above := large found
      have below : Escape.code 16 digits < 16 ^ digits.length := by
        rw [Escape.code, ← List.length_reverse, ← List.length_map]
        refine Nat.ofDigits_lt_base_pow_length (by decide) fun digit member => ?_
        obtain ⟨d, inside, rfl⟩ := List.mem_map.mp member
        exact getD_hexDigit?_lt d
      unfold Escape.width? at size
      split at size
      · rw [← Option.some.inj size] at below
        omega
      · rw [← Option.some.inj size] at below
        omega
      · exact ⟨digits, rfl, (Option.some.inj size).symm, all, above⟩
      · cases size

/-- A body between quotes `mark` whose escapes are all well-formed, and what it stands for. -/
inductive Writes (mark : Char) : List Char → List CodePoint → Prop where
  | nil : Writes mark [] []
  | plain {c : Char} {body : List Char} {values : List CodePoint} (inner : c ≠ mark)
      (unescaped : c ≠ '\\') (inline : c ≠ '\n') (others : Writes mark body values) :
      Writes mark (c :: body) (.ofChar c :: values)
  | escape {escape body : List Char} {value : CodePoint} {values : List CodePoint}
      (denotes : Escape.Denotes escape value) (others : Writes mark body values) :
      Writes mark ('\\' :: (escape ++ body)) (value :: values)

/-- A body with an escape `\U` that writes a number of 80000000 or more in hexadecimal. -/
def Overflows (mark : Char) (body : List Char) : Prop :=
  ∃ front digits back, body = front ++ '\\' :: 'U' :: (digits ++ back) ∧ Items mark front ∧
    digits.length = 8 ∧ (∀ d ∈ digits, isHexDigit d = true) ∧ 0x80000000 ≤ Escape.code 16 digits

theorem Writes.items {mark : Char} {body : List Char} {values : List CodePoint}
    (writes : Writes mark body values) : Items mark body := by
  induction writes with
  | nil => exact .nil
  | plain inner unescaped inline others ih => exact .cons (.plain inner unescaped inline) ih
  | escape denotes others ih => exact .cons (.escape denotes.form) ih

/-- Every number of so many hexadecimal digits can be written in them. -/
theorem exists_hexadecimal (width : Nat) {number : Nat} (below : number < 16 ^ width) :
    ∃ digits, digits.length = width ∧ (∀ d ∈ digits, isHexDigit d = true) ∧
      Escape.code 16 digits = number := by
  induction width generalizing number with
  | zero => exact ⟨[], rfl, by simp, (Nat.lt_one_iff.mp below).symm⟩
  | succ width ih =>
      obtain ⟨front, size, all, same⟩ := @ih (number / 16) (by omega)
      have single : ∀ digit < 16, isHexDigit (Nat.digitChar digit) = true ∧
          hexDigit? (Nat.digitChar digit) = some digit := by decide
      obtain ⟨hex, read⟩ := single (number % 16) (Nat.mod_lt _ (by decide))
      refine ⟨front ++ [Nat.digitChar (number % 16)], by simp [size], ?_, ?_⟩
      · simpa [or_imp, forall_and, hex] using all
      · rw [Escape.code] at same ⊢
        rw [List.reverse_append, List.reverse_singleton, List.singleton_append, List.map_cons, read,
          Nat.ofDigits_cons, same, Option.getD_some]
        omega

/-- Every text can be written, be it by long escapes alone. -/
theorem exists_writes (values : List CodePoint) : ∃ body, Writes '"' body values := by
  induction values with
  | nil => exact ⟨[], .nil⟩
  | cons value values ih =>
      obtain ⟨body, writes⟩ := ih
      obtain ⟨digits, size, all, same⟩ :=
        exists_hexadecimal 8 (Nat.lt_trans value.below (by decide))
      have long : Escape.width? 'U' = some digits.length := by rw [size]; rfl
      exact ⟨_, .escape (.hexadecimal long all same.symm) writes⟩

theorem Overflows.append {mark : Char} {front rest : List Char} (items : Items mark front)
    (overflows : Overflows mark rest) : Overflows mark (front ++ rest) := by
  obtain ⟨before, digits, back, rfl, others, size, all, large⟩ := overflows
  exact ⟨front ++ before, digits, back, by simp, items.append others, size, all, large⟩

/-! ## Decoding -/

theorem decode_skip (text : List Char) (skip : Nat) :
    decode text skip = decode (text.drop skip) 0 := by
  induction text generalizing skip with
  | nil => simp [decode]
  | cons c rest ih =>
      cases skip with
      | zero => rfl
      | succ skip => exact ih skip

theorem decode_plain_cons {c : Char} (unescaped : c ≠ '\\') (rest : List Char) :
    decode (c :: rest) 0 = (decode rest 0).map (.ofChar c :: ·) := by
  simp [decode, unescaped]

theorem decode_escape_append {escape rest : List Char} (nonempty : escape ≠ [])
    (whole : Escape.extent (escape ++ rest) = escape.length) :
    decode ('\\' :: (escape ++ rest)) 0 =
      match value escape with
      | .error failure => .error failure
      | .ok code => (decode rest 0).map (code :: ·) := by
  rw [decode, if_pos ⟨rfl, by simp [nonempty]⟩, whole]
  dsimp only
  rw [List.take_left]
  cases value escape with
  | error failure => rfl
  | ok code => simp only [decode_skip (escape ++ rest), List.drop_left]

theorem decode_of_writes {mark : Char} {body : List Char} {values : List CodePoint}
    (writes : Writes mark body values) : decode body 0 = .ok values := by
  induction writes with
  | nil => rfl
  | plain inner unescaped inline others ih =>
      rw [decode_plain_cons unescaped, ih]
      rfl
  | @escape escape body value values denotes others ih =>
      have nonempty : escape ≠ [] := by
        rintro rfl
        cases denotes
        contradiction
      rw [decode_escape_append nonempty (denotes.extent_append body),
        (value_eq_ok_iff denotes.form).mpr denotes, ih]
      rfl

/-- What it says of a body that the decoder comes to an outcome. -/
def Verdict (mark : Char) (body : List Char) : Except EscapeFailure (List CodePoint) → Prop
  | .ok values => Writes mark body values
  | .error (.unknown _) => True
  | .error .codePointTooLarge => Overflows mark body

theorem Verdict.cons {front rest : List Char} {code : CodePoint}
    {outcome : Except EscapeFailure (List CodePoint)} (verdict : Verdict mark rest outcome)
    (first : Item mark front)
    (writing : ∀ values, Writes mark rest values → Writes mark (front ++ rest) (code :: values)) :
    Verdict mark (front ++ rest) (outcome.map (code :: ·)) := by
  cases outcome with
  | ok values => exact writing values verdict
  | error failure =>
      cases failure with
      | unknown escape => trivial
      | codePointTooLarge =>
          have items : Items mark (front ++ []) := .cons first .nil
          rw [List.append_nil] at items
          exact verdict.append items

section Items

variable {mark : Char}

theorem Items.of_plain_append {front rest : List Char} (plain : ∀ d ∈ front, d ≠ '\\')
    (items : Items mark (front ++ rest)) : Items mark rest := by
  induction front with
  | nil => exact items
  | cons c front ih =>
      exact ih (fun d member => plain d (.tail _ member)) (items.of_cons (plain c (.head _))).2.2

theorem Items.plain_append {front rest : List Char}
    (plain : ∀ d ∈ front, d ≠ mark ∧ d ≠ '\\' ∧ d ≠ '\n') (items : Items mark rest) :
    Items mark (front ++ rest) := by
  induction front with
  | nil => exact items
  | cons c front ih =>
      obtain ⟨inner, unescaped, inline⟩ := plain c (.head _)
      have first : Item mark [c] := .plain inner unescaped inline
      show Items mark ([c] ++ (front ++ rest))
      exact .cons first (ih fun d member => plain d (.tail _ member))

variable (quote : mark = '"' ∨ mark = '\'')

include quote

/-- Wherever an escape is taken to end, what follows its first character goes on. -/
theorem Items.of_escape {rest : List Char} (items : Items mark ('\\' :: rest)) :
    ∃ c tail, rest = c :: tail ∧ Items mark tail := by
  generalize whole : '\\' :: rest = text at items
  cases items with
  | nil => cases whole
  | cons first others =>
      cases first with
      | plain _ unescaped _ => exact absurd (List.cons.inj whole).1.symm unescaped
      | @escape escape form =>
          obtain ⟨-, rfl⟩ := List.cons.inj whole
          cases escape with
          | nil => cases form; contradiction
          | cons c digits => exact ⟨c, _, rfl, others.plain_append (plain_of_form quote form)⟩

/-- The escape that the decoder takes, with what follows it. -/
theorem Items.cut_escape {rest : List Char} (items : Items mark ('\\' :: rest)) :
    ∃ escape others, rest = escape ++ others ∧ escape ≠ [] ∧ Escape.Form escape ∧
      Escape.extent (escape ++ others) = escape.length ∧ Items mark others := by
  obtain ⟨c, tail, rfl, further⟩ := items.of_escape quote
  obtain ⟨extra, counted⟩ := Nat.exists_eq_succ_of_ne_zero
    (Nat.ne_of_gt (Escape.extent_pos (c :: tail)))
  have form := @Escape.form_take_extent c tail
  have short := @Escape.extent_le_length c tail
  rw [counted, List.take_succ_cons] at form
  rw [counted, List.length_cons] at short
  have cut : (c :: tail.take extra) ++ tail.drop extra = c :: tail := by
    rw [List.cons_append, List.take_append_drop]
  refine ⟨c :: tail.take extra, tail.drop extra, cut.symm, List.cons_ne_nil _ _, form, ?_, ?_⟩
  · rw [cut, counted, List.length_cons, List.length_take]
    omega
  · rw [← List.take_append_drop extra tail] at further
    exact further.of_plain_append fun d member => (plain_of_form quote form d member).2.1

theorem verdict_decode {body : List Char} (items : Items mark body) :
    Verdict mark body (decode body 0) := by
  -- The decoder takes as much for an escape as it can, so that the induction is on the length.
  induction measured : body.length using Nat.strong_induction_on generalizing body with
  | h size ih =>
      cases body with
      | nil => exact .nil
      | cons c rest =>
          rw [List.length_cons] at measured
          by_cases backslash : c = '\\'
          · subst backslash
            obtain ⟨escape, others, rfl, nonempty, form, extent, further⟩ := items.cut_escape quote
            rw [List.length_append] at measured
            have verdict := ih others.length (by omega) further rfl
            rw [decode_escape_append nonempty extent]
            cases found : value escape with
            | ok code =>
                exact Verdict.cons verdict (.escape form) fun values writes =>
                  .escape ((value_eq_ok_iff form).mp found) writes
            | error failure =>
                cases failure with
                | unknown escape => trivial
                | codePointTooLarge =>
                    obtain ⟨digits, rfl, size, all, large⟩ := value_eq_codePointTooLarge form found
                    exact ⟨[], digits, others, rfl, .nil, size, all, large⟩
          · obtain ⟨inner, inline, others⟩ := items.of_cons backslash
            rw [decode_plain_cons backslash]
            have verdict := ih rest.length (by omega) others rfl
            exact Verdict.cons verdict (.plain inner backslash inline) fun values writes =>
              .plain inner backslash inline writes

/-- Between its quotes the body of a literal is found. -/
theorem body?_eq (body : List Char) : body? (mark :: (body ++ [mark])) = some body := by
  simp [body?, quote]

/-- A literal stands for what its body decodes to. -/
theorem unquote_eq (body : List Char) : unquote (String.ofList (mark :: (body ++ [mark]))) =
    match decode body 0 with
    | .ok values => .ok ⟨values⟩
    | .error (.unknown escape) => .error (.bare (.unknownEscape (String.ofList escape)
        (String.ofList (mark :: (body ++ [mark])))))
    | .error .codePointTooLarge => .error .codePointTooLarge := by
  have inner := body?_eq quote body
  cases decoded : decode body 0 with
  | ok values => simp only [unquote, String.toList_ofList, inner, decoded]
  | error failure =>
      cases failure <;> simp only [unquote, String.toList_ofList, inner, decoded]

end Items

/-- Characters between the quotes of a string literal. -/
def delimited (body : List Char) : List Char :=
  '"' :: (body ++ ['"'])

/-- The string literal with the given characters between its quotes. -/
def quoted (body : List Char) : String :=
  String.ofList (delimited body)

theorem unquote_of_writes {body : List Char} {values : List CodePoint}
    (writes : Writes '"' body values) : unquote (quoted body) = .ok ⟨values⟩ := by
  rw [quoted, delimited, unquote_eq (.inl rfl), decode_of_writes writes]

/-- A literal that writes nothing holds an unknown escape, unless it holds one that is too large. -/
theorem exists_unknownEscape {body : List Char} (items : Items '"' body)
    (malformed : ∀ values, ¬Writes '"' body values) (small : ¬Overflows '"' body) :
    ∃ escape, unquote (quoted body) = .error (.bare (.unknownEscape escape (quoted body))) := by
  have verdict := verdict_decode (.inl rfl) items
  rw [quoted, delimited, unquote_eq (.inl rfl)]
  cases decoded : decode body 0 with
  | ok values =>
      rw [decoded] at verdict
      exact absurd verdict (malformed values)
  | error failure =>
      rw [decoded] at verdict
      cases failure with
      | unknown escape => exact ⟨_, rfl⟩
      | codePointTooLarge => exact absurd verdict small

end Literal

end PhraseGrammar
