import Mathlib.Data.List.TakeWhile
import PhraseGrammar.Proofs.Token.Forms

/-!
# The front of a text and the forms

What is found at the front of a text has the form of what it is found to be,
and whatever has such a form is found. So the forms leave no choice: a text
opens with layout, with one token of one kind, or with something left open.
-/

namespace PhraseGrammar

namespace Unicode

/-- Nothing that may open or continue a word is whitespace. -/
theorem isSpace_eq_false_of_isWord {c : Char} (word : isWord c = true) : isSpace c = false := by
  rcases Bool.or_eq_true_iff.mp word with starts | digit
  · apply Bool.eq_false_iff.mpr
    intro blank
    obtain ⟨range, member, above, below⟩ := Ranges.contains_iff.mp blank
    unfold isNameStart at starts
    split at starts
    · have letter : 0x41 ≤ c.toNat ∧ c.toNat ≤ 0x7A := by
        rcases Bool.or_eq_true_iff.mp starts with alphabetic | mark
        · rcases Bool.or_eq_true_iff.mp alphabetic with upper | lower
          · have range : 0x41 ≤ c.toNat ∧ c.toNat ≤ 0x5A := of_decide_eq_true upper
            omega
          · obtain ⟨above, below⟩ := Bool.and_eq_true_iff.mp lower
            have range : 0x61 ≤ c.toNat ∧ c.toNat ≤ 0x7A :=
              ⟨of_decide_eq_true above, of_decide_eq_true below⟩
            omega
        · rw [of_decide_eq_true mark]
          decide
      have apart : ∀ range ∈ spaceRanges, range.2 < 0x41 ∨ 0x7A < range.1 := by decide
      have := apart range member
      omega
    · obtain ⟨other, known, left, right⟩ := Ranges.contains_iff.mp starts
      have apart : ∀ range ∈ spaceRanges, ∀ other ∈ nameRanges,
          range.2 < other.1 ∨ other.2 < range.1 := by decide +kernel
      have := apart range member other known
      omega
  · exact isSpace_eq_false_of_isDigit digit

end Unicode

namespace Escape

open Unicode

theorem opensWith_iff {count : Nat} {holds : Char → Bool} {text : List Char} :
    opensWith count holds text = true ↔
      (text.take count).length = count ∧ ∀ d ∈ text.take count, holds d = true := by
  simp [opensWith]

theorem opensWith_append {holds : Char → Bool} {digits : List Char}
    (all : ∀ d ∈ digits, holds d = true) (rest : List Char) :
    opensWith digits.length holds (digits ++ rest) = true := by
  rw [opensWith_iff, List.take_left]
  exact ⟨rfl, all⟩

/-- The mark decides which digits an escape may have. -/
theorem longForm?_cons (mark : Char) (rest : List Char) : longForm? (mark :: rest) =
    match width? mark with
    | some width => if opensWith width isHexDigit rest then some (width + 1) else none
    | none => if opensWith 3 isOctalDigit (mark :: rest) then some 3 else none := by
  by_cases byte : mark = 'x'
  · subst byte
    rfl
  · by_cases unicode : mark = 'u'
    · subst unicode
      rfl
    · by_cases wide : mark = 'U'
      · subst wide
        rfl
      · simp [longForm?, width?, byte, unicode, wide]

theorem width?_of_isOctalDigit {c : Char} (octal : isOctalDigit c = true) : width? c = none := by
  unfold width?
  split
  · cases octal
  · cases octal
  · cases octal
  · rfl

theorem extent_hexadecimal {mark : Char} {digits : List Char}
    (size : width? mark = some digits.length) (all : ∀ d ∈ digits, isHexDigit d = true)
    (rest : List Char) : extent (mark :: (digits ++ rest)) = digits.length + 1 := by
  simp [extent, longForm?_cons, size, opensWith_append all rest]

theorem extent_octal {digits : List Char} (size : digits.length = 3)
    (all : ∀ d ∈ digits, isOctalDigit d = true) (rest : List Char) :
    extent (digits ++ rest) = digits.length := by
  cases digits with
  | nil => cases size
  | cons c digits =>
      have opens := opensWith_append all rest
      rw [size, List.cons_append] at opens
      rw [size, extent, List.cons_append, longForm?_cons,
        width?_of_isOctalDigit (all c List.mem_cons_self)]
      simp [opens]

/-- An escape takes a hexadecimal or an octal form that the text opens with, or one character. -/
theorem extent_cases (c : Char) (rest : List Char) :
    (∃ width, width? c = some width ∧ opensWith width isHexDigit rest = true ∧
      extent (c :: rest) = width + 1) ∨
    (opensWith 3 isOctalDigit (c :: rest) = true ∧ extent (c :: rest) = 3) ∨
    extent (c :: rest) = 1 := by
  unfold extent
  rw [longForm?_cons]
  cases size : width? c with
  | some width =>
      by_cases opens : opensWith width isHexDigit rest = true
      · exact .inl ⟨width, rfl, opens, by simp only [if_pos opens, Option.getD_some]⟩
      · exact .inr (.inr (by simp only [if_neg opens, Option.getD_none]))
  | none =>
      by_cases opens : opensWith 3 isOctalDigit (c :: rest) = true
      · exact .inr (.inl ⟨opens, by simp only [if_pos opens, Option.getD_some]⟩)
      · exact .inr (.inr (by simp only [if_neg opens, Option.getD_none]))

/-- What an escape takes has one of the forms. -/
theorem form_take_extent {c : Char} {rest : List Char} :
    Form ((c :: rest).take (extent (c :: rest))) := by
  rcases extent_cases c rest with ⟨width, size, opens, taken⟩ | ⟨opens, taken⟩ | taken
  · obtain ⟨count, all⟩ := opensWith_iff.mp opens
    rw [taken, List.take_succ_cons]
    exact .hexadecimal (count.symm ▸ size) all
  · obtain ⟨count, all⟩ := opensWith_iff.mp opens
    rw [taken]
    exact .octal count all
  · rw [taken]
    exact .single c

/-- An escape ends within the text. -/
theorem extent_le_length {c : Char} {rest : List Char} :
    extent (c :: rest) ≤ (c :: rest).length := by
  rcases extent_cases c rest with ⟨width, size, opens, taken⟩ | ⟨opens, taken⟩ | taken
  · have count := (opensWith_iff.mp opens).1
    rw [List.length_take] at count
    rw [taken, List.length_cons]
    omega
  · have count := (opensWith_iff.mp opens).1
    rw [List.length_take] at count
    omega
  · simp [taken]

theorem opensWith_eq_false {count : Nat} {holds : Char → Bool} {front : List Char} {d : Char}
    (short : front.length < count) (other : holds d = false) (rest : List Char) :
    opensWith count holds (front ++ d :: rest) = false := by
  apply Bool.eq_false_iff.mpr
  intro opens
  refine Bool.false_ne_true (other.symm.trans ((opensWith_iff.mp opens).2 d ?_))
  rw [List.take_append, List.mem_append]
  right
  obtain ⟨more, same⟩ := Nat.exists_eq_succ_of_ne_zero (Nat.sub_ne_zero_of_lt short)
  rw [same, List.take_succ_cons]
  exact List.mem_cons_self

theorem width?_pos {mark : Char} {width : Nat} (size : width? mark = some width) : 0 < width := by
  unfold width? at size
  split at size <;> cases size <;> decide

/-- Before a quote every escape has come to its end. -/
theorem extent_quoted {escape : List Char} (form : Form escape) (rest : List Char) :
    extent (escape ++ '\'' :: rest) = escape.length := by
  cases form with
  | hexadecimal size all => exact extent_hexadecimal size all _
  | octal size all => exact extent_octal size all _
  | single c =>
      rw [extent, List.singleton_append, longForm?_cons]
      cases size : width? c with
      | some width =>
          have closed : opensWith width isHexDigit ('\'' :: rest) = false :=
            @opensWith_eq_false width isHexDigit [] '\'' (width?_pos size) (by decide) rest
          simp [closed]
      | none =>
          have closed : opensWith 3 isOctalDigit (c :: '\'' :: rest) = false :=
            @opensWith_eq_false 3 isOctalDigit [c] '\'' (Nat.lt_of_sub_eq_succ rfl) (by decide) rest
          simp [closed]

end Escape

namespace Front

open Unicode Lexical Literal

theorem run_append {holds : Char → Bool} {piece rest : List Char}
    (all : ∀ c ∈ piece, holds c = true) (ends : Stops holds rest) :
    run holds (piece ++ rest) = piece.length := by
  rw [run, List.takeWhile_append_of_pos all]
  cases rest with
  | nil => simp
  | cons c rest => simp [ends c rfl]

theorem stops_drop_run (holds : Char → Bool) (text : List Char) :
    Stops holds (text.drop (run holds text)) := by
  induction text with
  | nil => exact nofun
  | cons c rest ih =>
      cases known : holds c with
      | true => simpa [run, known] using ih
      | false =>
          intro other first
          simp_all [run]

theorem run_eq_zero_iff {holds : Char → Bool} {text : List Char} :
    run holds text = 0 ↔ Stops holds text := by
  constructor
  · intro none
    have stops := stops_drop_run holds text
    rwa [none] at stops
  · intro stops
    exact @run_append holds [] text nofun stops

/-! ## Numbers -/

theorem fraction_eq_zero_iff {text : List Char} : fraction text = 0 ↔ ¬OpensFraction text := by
  constructor
  · rintro none ⟨starts⟩
    simp [fraction, run, starts] at none
  · intro closed
    unfold fraction
    split
    · rename_i rest
      have stops : run isDigit rest = 0 := by
        refine run_eq_zero_iff.mpr fun digit first => Bool.eq_false_iff.mpr fun starts => ?_
        obtain ⟨others, rfl⟩ := List.head?_eq_some_iff.mp first
        exact closed (.point starts)
      simp [stops]
    · rfl

theorem sign_append {mark rest : List Char} (signed : mark = [] ∨ mark = ['+'] ∨ mark = ['-'])
    (plain : ∀ c ∈ rest.head?, c ≠ '+' ∧ c ≠ '-') : sign (mark ++ rest) = mark.length := by
  rcases signed with rfl | rfl | rfl
  · unfold sign
    split
    · exact absurd rfl (plain '+' (by simp_all)).1
    · exact absurd rfl (plain '-' (by simp_all)).2
    · rfl
  · rfl
  · rfl

theorem not_sign_of_isDigit {text : List Char} (digits : ∀ c ∈ text.head?, isDigit c = true) :
    ∀ c ∈ text.head?, c ≠ '+' ∧ c ≠ '-' :=
  fun c first => ⟨ne_of_isDigit (digits c first) (by decide), ne_of_isDigit (digits c first) (by decide)⟩

theorem exponent_eq_zero_iff {text : List Char} : exponent text = 0 ↔ ¬OpensExponent text := by
  constructor
  · rintro none ⟨marked, signed, starts⟩
    rename_i mark digit before rest
    have starting : ∀ c ∈ (digit :: rest).head?, isDigit c = true := by simp [starts]
    have counted := sign_append signed (not_sign_of_isDigit starting)
    simp [exponent, marked, counted, run, starts] at none
  · intro closed
    cases text with
    | nil => rfl
    | cons mark rest =>
        rw [exponent, if_neg]
        rintro ⟨marked, some⟩
        apply some
        refine run_eq_zero_iff.mpr fun digit first => Bool.eq_false_iff.mpr fun starts => ?_
        obtain ⟨others, behind⟩ := List.head?_eq_some_iff.mp first
        apply closed
        rw [← List.take_append_drop (sign rest) rest, behind]
        exact .mark marked (sign_take rest) starts

theorem hexadecimal_eq_zero_iff {text : List Char} :
    hexadecimal '0' text = 0 ↔ ¬OpensHexadecimal text := by
  constructor
  · rintro none ⟨marked, starts⟩
    simp [hexadecimal, marked, run, starts] at none
  · intro closed
    cases text with
    | nil => rfl
    | cons mark rest =>
        rw [hexadecimal, if_neg]
        rintro ⟨-, marked, some⟩
        apply some
        refine run_eq_zero_iff.mpr fun digit first => Bool.eq_false_iff.mpr fun starts => ?_
        obtain ⟨others, rfl⟩ := List.head?_eq_some_iff.mp first
        exact closed (.mark marked starts)

theorem hexadecimal_of_ne {c : Char} (other : c ≠ '0') (text : List Char) :
    hexadecimal c text = 0 := by
  cases text with
  | nil => rfl
  | cons mark rest => simp [hexadecimal, other]

theorem fraction_append {point rest : List Char} (shape : Fraction point)
    (ends : Stops isDigit rest) (closed : point = [] → ¬OpensFraction rest) :
    fraction (point ++ rest) = point.length := by
  cases shape with
  | none => exact fraction_eq_zero_iff.mpr (closed rfl)
  | point nonempty all =>
      have counted := run_append all ends
      simp [fraction, counted, nonempty]

theorem exponent_append {power rest : List Char} (shape : Power power)
    (ends : Stops isDigit rest) (closed : power = [] → ¬OpensExponent rest) :
    exponent (power ++ rest) = power.length := by
  cases shape with
  | none => exact exponent_eq_zero_iff.mpr (closed rfl)
  | @mark mark before digits marked signed nonempty all =>
      have counted := run_append all ends
      have starts : ∀ c ∈ (digits ++ rest).head?, isDigit c = true := by
        cases digits with
        | nil => exact absurd rfl nonempty
        | cons c digits => simp [all c]
      have behind := sign_append signed (not_sign_of_isDigit starts)
      simp [exponent, marked, behind, counted, nonempty, Nat.add_assoc]

theorem stops_append {point rest : List Char} (first : ∀ c ∈ point.head?, isDigit c = false)
    (ends : Stops isDigit rest) : Stops isDigit (point ++ rest) := by
  cases point with
  | nil => exact ends
  | cons c point => exact first

theorem Fraction.stops {point : List Char} (shape : Fraction point) :
    ∀ c ∈ point.head?, isDigit c = false := by
  intro c first
  cases shape with
  | none => cases first
  | point nonempty all =>
      cases first
      decide

theorem Power.stops {power : List Char} (shape : Power power) :
    ∀ c ∈ power.head?, isDigit c = false :=
  fun c first => (Binary64.stops_power shape c first).1

/-- An exponent is no fraction. -/
theorem Power.not_opensFraction {power rest : List Char} (shape : Power power) (some : power ≠ []) :
    ¬OpensFraction (power ++ rest) := by
  intro opens
  cases shape with
  | none => exact some rfl
  | mark marked signed nonempty all =>
      have first := Option.some.inj opens.head?_eq
      rcases marked with rfl | rfl <;> cases first

/-- The parts of a number, each as long as it can be, are told apart. -/
theorem number_append {c : Char} {more point power rest : List Char}
    (all : ∀ d ∈ more, isDigit d = true) (fraction : Fraction point) (exponent : Power power)
    (ends : Stops isDigit rest) (whole : point = [] → power = [] → ¬OpensFraction rest)
    (closed : power = [] → ¬OpensExponent rest) :
    number c (more ++ (point ++ (power ++ rest))) =
      if point.length + power.length ≠ 0 then
        .token .float (more.length + point.length + power.length)
      else if hexadecimal c (more ++ rest) ≠ 0 then .token .int (hexadecimal c (more ++ rest))
      else .token .int more.length := by
  have behind := stops_append exponent.stops ends
  have first := run_append all (stops_append fraction.stops behind)
  have second := fraction_append fraction behind fun none => by
    by_cases empty : power = []
    · rw [empty]
      exact whole none empty
    · exact exponent.not_opensFraction empty
  have third := exponent_append exponent ends closed
  unfold number
  simp only [first, List.drop_left, second, third]
  split
  · rfl
  · rename_i neither
    have none : point = [] ∧ power = [] := by
      simp only [ne_eq, Nat.add_eq_zero_iff, List.length_eq_zero_iff, not_not] at neither
      exact neither
    rw [none.1, none.2]
    rfl

theorem number_hexadecimal {mark : Char} {digits rest : List Char} (marked : mark = 'x' ∨ mark = 'X')
    (filled : Filled isHexDigit digits) (ends : Stops isHexDigit rest) :
    number '0' (mark :: (digits ++ rest)) = .token .int (digits.length + 1) := by
  have plain : mark ≠ '.' ∧ mark ≠ 'e' ∧ mark ≠ 'E' ∧ isDigit mark = false := by
    rcases marked with rfl | rfl <;> decide
  have digitless : run isDigit (mark :: (digits ++ rest)) = 0 := by
    refine run_eq_zero_iff.mpr fun c first => ?_
    cases first
    exact plain.2.2.2
  have pointless : fraction (mark :: (digits ++ rest)) = 0 :=
    fraction_eq_zero_iff.mpr fun opens => plain.1 (Option.some.inj opens.head?_eq)
  have powerless : exponent (mark :: (digits ++ rest)) = 0 := by
    simp [exponent, plain]
  have counted := run_append filled.all ends
  simp [number, digitless, pointless, powerless, hexadecimal, marked, counted, filled.nonempty]

theorem take_fraction_eq_nil_iff {text : List Char} :
    text.take (fraction text) = [] ↔ fraction text = 0 := by
  rw [List.take_eq_nil_iff]
  refine or_iff_left_of_imp ?_
  rintro rfl
  rfl

theorem take_exponent_eq_nil_iff {text : List Char} :
    text.take (exponent text) = [] ↔ exponent text = 0 := by
  rw [List.take_eq_nil_iff]
  refine or_iff_left_of_imp ?_
  rintro rfl
  rfl

theorem stops_drop_fraction {text : List Char} (ends : Stops isDigit text) :
    Stops isDigit (text.drop (fraction text)) := by
  unfold fraction
  split
  · dsimp only
    split
    · exact ends
    · exact stops_drop_run _ _
  · exact ends

theorem stops_drop_exponent {text : List Char} (ends : Stops isDigit text) :
    Stops isDigit (text.drop (exponent text)) := by
  cases text with
  | nil => exact ends
  | cons mark rest =>
      rw [exponent]
      split
      · rw [List.drop_succ_cons, ← List.drop_drop]
        exact stops_drop_run _ _
      · exact ends

/-- A number at the front of a text is of its form, with what follows it. -/
theorem filled_whole {c : Char} (digit : isDigit c = true) (rest : List Char) :
    Filled isDigit (c :: rest.take (run isDigit rest)) := by
  refine ⟨List.cons_ne_nil _ _, fun d member => ?_⟩
  rw [take_run] at member
  rcases List.mem_cons.mp member with rfl | inside
  · exact digit
  · exact List.mem_takeWhile_imp inside

/-- A whole part with a point or a power behind it, `text` being what follows the whole part. -/
theorem spells_float {c : Char} {rest text : List Char} {size : Nat}
    (filled : Filled isDigit (c :: rest.take size)) (behind : rest.drop size = text)
    (ends : Stops isDigit text) (some : fraction text + exponent (text.drop (fraction text)) ≠ 0) :
    Spells (rest.drop (size + fraction text + exponent (text.drop (fraction text)))) .float
      (c :: rest.take (size + fraction text + exponent (text.drop (fraction text)))) := by
  have cut : c :: rest.take (size + fraction text + exponent (text.drop (fraction text))) =
      (c :: rest.take size) ++ (text.take (fraction text) ++
        (text.drop (fraction text)).take (exponent (text.drop (fraction text)))) := by
    rw [Nat.add_assoc, List.take_add, behind, List.take_add]
    rfl
  have remains : rest.drop (size + fraction text + exponent (text.drop (fraction text))) =
      (text.drop (fraction text)).drop (exponent (text.drop (fraction text))) := by
    rw [← List.drop_drop, ← List.drop_drop, behind]
  rw [cut, remains]
  refine .float filled (fraction_take text) (power_take _) ?_
    (stops_drop_exponent (stops_drop_fraction ends)) fun none => ?_
  · rw [Ne, Ne, take_fraction_eq_nil_iff, take_exponent_eq_nil_iff]
    omega
  · have zero := take_exponent_eq_nil_iff.mp none
    rw [zero]
    exact exponent_eq_zero_iff.mp zero

theorem spells_hexadecimal {c : Char} {rest : List Char} (hex : hexadecimal c rest ≠ 0) :
    Spells (rest.drop (hexadecimal c rest)) .int (c :: rest.take (hexadecimal c rest)) := by
  have zero : c = '0' := by
    by_contra other
    exact hex (hexadecimal_of_ne other rest)
  subst zero
  cases rest with
  | nil => exact absurd rfl hex
  | cons mark rest =>
      simp only [hexadecimal] at hex ⊢
      split at hex
      · rename_i holds
        rw [if_pos holds, List.take_succ_cons, List.drop_succ_cons, take_run]
        exact .hexadecimal holds.2.1 ⟨takeWhile_ne_nil holds.2.2,
          fun d member => List.mem_takeWhile_imp member⟩ (stops_drop_run _ _)
      · exact absurd rfl hex

theorem spells_of_number {c : Char} {rest : List Char} {kind : Kind} {more : Nat}
    (digit : isDigit c = true) (reads : number c rest = .token kind more) :
    Spells (rest.drop more) kind (c :: rest.take more) := by
  have filled := filled_whole digit rest
  have ends := stops_drop_run isDigit rest
  unfold number at reads
  dsimp only at reads
  generalize whole : run isDigit rest = size at reads filled ends
  generalize behind : rest.drop size = text at reads ends
  split at reads
  · rename_i some
    obtain ⟨rfl, rfl⟩ := Front.token.inj reads
    exact spells_float filled behind ends some
  · rename_i neither
    have none : fraction text = 0 ∧ exponent text = 0 := by
      have zero : fraction text = 0 := by omega
      rw [zero, List.drop_zero] at neither
      omega
    have closed := And.intro (fraction_eq_zero_iff.mp none.1) (exponent_eq_zero_iff.mp none.2)
    split at reads
    · rename_i hex
      obtain ⟨rfl, rfl⟩ := Front.token.inj reads
      exact spells_hexadecimal hex
    · rename_i plain
      obtain ⟨rfl, rfl⟩ := Front.token.inj reads
      rw [behind]
      refine .decimal filled ends closed fun single => ?_
      obtain ⟨rfl, short⟩ := List.cons.inj single
      rw [← behind]
      rcases List.take_eq_nil_iff.mp short with rfl | rfl
      · exact hexadecimal_eq_zero_iff.mp (not_not.mp plain)
      · rw [List.drop_nil]
        intro opens
        cases opens

theorem stringBody?_cons {c : Char} (inner : c ≠ '"') (unescaped : c ≠ '\\') (inline : c ≠ '\n')
    (rest : List Char) : stringBody? (c :: rest) = (stringBody? rest).map (· + 1) := by
  rw [stringBody?]
  · exact inner
  · exact inline
  · exact fun _ _ same => absurd same unescaped

theorem stringBody?_plain {text : List Char} (plain : ∀ d ∈ text, d ≠ '"' ∧ d ≠ '\\' ∧ d ≠ '\n')
    (rest : List Char) : stringBody? (text ++ rest) = (stringBody? rest).map (· + text.length) := by
  induction text with
  | nil => simp
  | cons c text ih =>
      obtain ⟨inner, unescaped, inline⟩ := plain c List.mem_cons_self
      rw [List.cons_append, stringBody?_cons inner unescaped inline,
        ih fun d member => plain d (.tail _ member)]
      simp [Function.comp_def, Nat.add_assoc]

theorem stringBody?_item {item : List Char} (one : Item '"' item) (rest : List Char) :
    stringBody? (item ++ rest) = (stringBody? rest).map (· + item.length) := by
  cases one with
  | plain inner unescaped inline => exact stringBody?_cons inner unescaped inline rest
  | @escape escape form =>
      cases escape with
      | nil => cases form; simp_all
      | cons c digits =>
          rw [List.cons_append, List.cons_append, stringBody?, stringBody?_plain (plain_of_form (.inl rfl) form)]
          simp [Function.comp_def, Nat.add_assoc]

theorem stringBody?_items {body : List Char} (items : Items '"' body) (rest : List Char) :
    stringBody? (body ++ '"' :: rest) = some (body.length + 1) := by
  induction items with
  | nil => rfl
  | cons first others ih =>
      rw [List.append_assoc, stringBody?_item first, ih]
      simp [Nat.add_assoc, Nat.add_comm]

theorem items_of_stringBody? {text : List Char} {more : Nat} (closes : stringBody? text = some more) :
    ∃ body rest, Items '"' body ∧ text = body ++ '"' :: rest ∧ more = body.length + 1 := by
  fun_induction stringBody? text generalizing more with
  | case1 => cases closes
  | case2 rest =>
      cases closes
      exact ⟨[], rest, .nil, rfl, rfl⟩
  | case3 => cases closes
  | case4 c rest ih =>
      obtain ⟨size, found, rfl⟩ := Option.map_eq_some_iff.mp closes
      obtain ⟨body, others, items, rfl, rfl⟩ := ih found
      exact ⟨'\\' :: c :: body, others, .cons (.escape (.single c)) items, rfl, rfl⟩
  | case5 c rest inner inline unescaped ih =>
      obtain ⟨size, found, rfl⟩ := Option.map_eq_some_iff.mp closes
      obtain ⟨body, others, items, rfl, rfl⟩ := ih found
      refine ⟨c :: body, others, .cons (.plain inner (fun same => ?_) inline) items, rfl, rfl⟩
      cases body with
      | nil => exact unescaped _ _ same rfl
      | cons d body => exact unescaped _ _ same rfl

theorem charBody?_item {item : List Char} (one : Item '\'' item) (rest : List Char) :
    charBody? (item ++ '\'' :: rest) = some (item.length + 1) := by
  cases one with
  | plain inner unescaped inline =>
      rw [List.singleton_append, charBody?]
      · rfl
      all_goals simp_all
  | @escape escape form =>
      rw [List.cons_append, charBody?, Escape.extent_quoted form]
      simp

theorem item_of_charBody? {text : List Char} {more : Nat} (closes : charBody? text = some more) :
    ∃ item rest, Item '\'' item ∧ text = item ++ '\'' :: rest ∧ more = item.length + 1 := by
  unfold charBody? at closes
  split at closes
  · rename_i rest
    split at closes
    · rename_i closed
      cases closes
      obtain ⟨long, found⟩ := List.getElem?_eq_some_iff.mp closed
      refine ⟨'\\' :: rest.take (Escape.extent rest), rest.drop (Escape.extent rest + 1), ?_, ?_, ?_⟩
      · cases rest with
        | nil => cases long
        | cons c rest => exact .escape Escape.form_take_extent
      · rw [List.cons_append, ← found, List.getElem_cons_drop, List.take_append_drop]
      · rw [List.length_cons, List.length_take, Nat.min_eq_left (Nat.le_of_lt long)]
    · cases closes
  · cases closes
  · cases closes
  · rename_i c rest unescaped inner inline
    cases closes
    exact ⟨[c], rest, .plain inner unescaped inline, rfl, rfl⟩
  · cases closes

theorem commentBody?_append {body : List Char} (first : ¬['*', '/'] <:+: body) (rest : List Char) :
    commentBody? (body ++ '*' :: '/' :: rest) = some (body.length + 2) := by
  induction body with
  | nil => rfl
  | cons c body ih =>
      have others := ih fun inside => first (List.infix_cons inside)
      rw [List.cons_append, commentBody?, others]
      · rfl
      · intro tail star slash
        subst star
        cases body with
        | nil => cases slash
        | cons d body =>
            obtain ⟨rfl, _⟩ := List.cons.inj slash
            exact first ⟨[], body, rfl⟩

theorem body_of_commentBody? {text : List Char} {more : Nat} (closes : commentBody? text = some more) :
    ∃ body rest, ¬['*', '/'] <:+: body ∧ text = body ++ '*' :: '/' :: rest ∧
      more = body.length + 2 := by
  fun_induction commentBody? text generalizing more with
  | case1 => cases closes
  | case2 rest =>
      cases closes
      exact ⟨[], rest, by simp, rfl, rfl⟩
  | case3 c rest ends ih =>
      obtain ⟨size, found, rfl⟩ := Option.map_eq_some_iff.mp closes
      obtain ⟨body, others, first, rfl, rfl⟩ := ih found
      refine ⟨c :: body, others, fun inside => ?_, rfl, rfl⟩
      rcases List.infix_cons_iff.mp inside with ⟨tail, starts⟩ | later
      · obtain ⟨rfl, rfl⟩ := List.cons.inj starts
        exact ends _ rfl rfl
      · exact first later

theorem commentBody?_eq_none_iff {text : List Char} :
    commentBody? text = none ↔ ¬['*', '/'] <:+: text := by
  constructor
  · intro never
    fun_induction commentBody? text with
    | case1 => simp
    | case2 rest => cases never
    | case3 c rest ends ih =>
        intro inside
        rcases List.infix_cons_iff.mp inside with ⟨tail, starts⟩ | later
        · obtain ⟨rfl, behind⟩ := List.cons.inj starts
          exact ends tail rfl behind.symm
        · exact ih (Option.map_eq_none_iff.mp never) later
  · intro never
    cases closes : commentBody? text with
    | none => rfl
    | some more =>
        obtain ⟨body, rest, first, rfl, rfl⟩ := body_of_commentBody? closes
        exact absurd ⟨body, rest, by simp⟩ never

/-! ## Fronts -/

/-- What the front of a text says of the text. -/
def Describes (c : Char) (rest : List Char) : Front → Prop
  | .layout more => Blank (rest.drop more) (c :: rest.take more)
  | .token kind more => Spells (rest.drop more) kind (c :: rest.take more)
  | .unterminated form => Open form (c :: rest)

theorem number_eq_token (c : Char) (rest : List Char) :
    ∃ kind more, number c rest = .token kind more := by
  unfold number
  dsimp only
  split
  · exact ⟨_, _, rfl⟩
  · split
    · exact ⟨_, _, rfl⟩
    · exact ⟨_, _, rfl⟩

theorem describes_string (rest : List Char) :
    (literal .string (stringBody? rest)).Describes '"' rest := by
  cases closes : stringBody? rest with
  | none =>
      refine .string fun body others items same => ?_
      rw [same, stringBody?_items items] at closes
      cases closes
  | some more =>
      obtain ⟨body, others, items, rfl, rfl⟩ := items_of_stringBody? closes
      show Spells _ _ _
      rw [List.take_length_add_append]
      exact .string items

theorem describes_char (rest : List Char) :
    (literal .char (charBody? rest)).Describes '\'' rest := by
  cases closes : charBody? rest with
  | none =>
      refine .char fun item others one same => ?_
      rw [same, charBody?_item one] at closes
      cases closes
  | some more =>
      obtain ⟨item, others, one, rfl, rfl⟩ := item_of_charBody? closes
      show Spells _ _ _
      rw [List.take_length_add_append]
      exact .char one

theorem stops_line {text : List Char} (stops : Stops (· ≠ '\n') text) :
    text = [] ∨ text.head? = some '\n' := by
  cases text with
  | nil => exact .inl rfl
  | cons c text =>
      have ends := stops c rfl
      simp only [ne_eq, decide_not, Bool.not_eq_false', decide_eq_true_eq] at ends
      exact .inr (congrArg some ends)

theorem describes_block {tail : List Char} {more : Nat} (closes : commentBody? tail = some more) :
    (Front.layout (more + 1)).Describes '/' ('*' :: tail) := by
  obtain ⟨body, others, first, rfl, rfl⟩ := body_of_commentBody? closes
  show Blank _ _
  have cut : ('*' :: (body ++ '*' :: '/' :: others)).take (body.length + 2 + 1) =
      '*' :: (body ++ ['*', '/']) := by
    simp [List.take_append]
  rw [cut]
  exact .block first

/-- What is found at the front of a text has its form. -/
theorem describes_ofText (c : Char) (rest : List Char) : (ofText c rest).Describes c rest := by
  unfold ofText
  split
  · exact .space ‹_›
  · rename_i visible
    split
    · rename_i digit
      obtain ⟨kind, more, reads⟩ := number_eq_token c rest
      rw [reads]
      exact spells_of_number digit reads
    · rename_i plain
      split
      · rename_i starts
        show Spells _ _ _
        rw [take_run]
        refine .ident ?_ (Bool.eq_false_iff.mpr plain) (fun d member => List.mem_takeWhile_imp member)
          (stops_drop_run isWord rest)
        rw [isWord, starts, Bool.true_or]
      · rename_i nameless
        split
        · rename_i quote
          subst quote
          exact describes_string rest
        · split
          · rename_i quote
            subst quote
            exact describes_char rest
          · rename_i double single
            split
            · rename_i tail
              show Blank _ _
              rw [List.take_succ_cons, take_run, List.drop_succ_cons]
              refine .line (fun member => ?_) ?_
              · simpa using List.mem_takeWhile_imp member
              · exact stops_line (stops_drop_run _ tail)
            · rename_i tail
              split
              · rename_i more closes
                exact describes_block closes
              · rename_i never
                exact .comment (commentBody?_eq_none_iff.mp never)
            · rename_i line block
              show Spells _ _ _
              refine .punct (Bool.eq_false_iff.mpr visible) ?_ ⟨double, single⟩ ?_
              · simp [isWord, nameless, plain]
              · rintro rfl
                constructor
                · intro first
                  obtain ⟨tail, rfl⟩ := List.head?_eq_some_iff.mp first
                  exact line tail rfl rfl
                · intro first
                  obtain ⟨tail, rfl⟩ := List.head?_eq_some_iff.mp first
                  exact block tail rfl rfl

theorem ofText_of_digit {c : Char} (digit : isDigit c = true) (rest : List Char) :
    ofText c rest = number c rest := by
  unfold ofText
  rw [isSpace_eq_false_of_isDigit digit, if_neg Bool.false_ne_true, if_pos digit]

theorem ofText_of_ident {c : Char} {more rest : List Char} (word : isWord c = true)
    (starts : isDigit c = false) (all : ∀ d ∈ more, isWord d = true) (ends : Stops isWord rest) :
    ofText c (more ++ rest) = .token .ident more.length := by
  have name : isNameStart c = true := by simpa [isWord, starts] using word
  simp [ofText, isSpace_eq_false_of_isWord word, starts, name, run_append all ends]

theorem ofText_of_decimal {c : Char} {more rest : List Char}
    (filled : Filled isDigit (c :: more)) (ends : Stops isDigit rest)
    (whole : ¬OpensFraction rest ∧ ¬OpensExponent rest)
    (decimal : c :: more = ['0'] → ¬OpensHexadecimal rest) :
    ofText c (more ++ rest) = .token .int more.length := by
  have plain : hexadecimal c (more ++ rest) = 0 := by
    by_cases zero : c = '0'
    · subst zero
      cases more with
      | nil => exact hexadecimal_eq_zero_iff.mpr (decimal rfl)
      | cons d more =>
          have digit := filled.all d (by simp)
          have unmarked : d ≠ 'x' ∧ d ≠ 'X' :=
            ⟨ne_of_isDigit digit (by decide), ne_of_isDigit digit (by decide)⟩
          simp [hexadecimal, unmarked]
    · exact hexadecimal_of_ne zero _
  have reads := @number_append c more [] [] rest (fun d member => filled.all d (.tail _ member))
    .none .none ends (fun _ _ => whole.1) fun _ => whole.2
  rw [ofText_of_digit (filled.all c List.mem_cons_self)]
  simpa [plain] using reads

theorem ofText_of_float {c : Char} {more point power rest : List Char}
    (filled : Filled isDigit (c :: more)) (fraction : Fraction point) (exponent : Power power)
    (either : point ≠ [] ∨ power ≠ []) (ends : Stops isDigit rest)
    (closed : power = [] → ¬OpensExponent rest) :
    ofText c (more ++ (point ++ (power ++ rest))) =
      .token .float (more.length + point.length + power.length) := by
  have some : point.length + power.length ≠ 0 := by
    simp only [ne_eq, Nat.add_eq_zero_iff, List.length_eq_zero_iff]
    exact not_and_or.mpr either
  rw [ofText_of_digit (filled.all c List.mem_cons_self),
    number_append (fun d member => filled.all d (.tail _ member)) fraction exponent ends
      (fun none empty => absurd either (by simp [none, empty])) closed, if_pos some]

theorem ofText_of_punct {c : Char} {rest : List Char} (visible : isSpace c = false)
    (other : isWord c = false) (unquoted : c ≠ '"' ∧ c ≠ '\'')
    (plain : c = '/' → rest.head? ≠ some '/' ∧ rest.head? ≠ some '*') :
    ofText c rest = .token .punct 0 := by
  obtain ⟨nameless, digitless⟩ := Bool.or_eq_false_iff.mp other
  simp only [ofText, visible, digitless, nameless, unquoted, Bool.false_eq_true, if_false]
  split
  · exact absurd rfl (plain rfl).1
  · exact absurd rfl (plain rfl).2
  · rfl

/-- Whatever has the form of a token is found to be that token. -/
theorem ofText_of_spells {c : Char} {piece rest : List Char} {kind : Kind}
    (spells : Spells rest kind (c :: piece)) :
    ofText c (piece ++ rest) = .token kind piece.length := by
  generalize whole : c :: piece = text at spells
  cases spells with
  | ident word starts all ends =>
      obtain ⟨rfl, rfl⟩ := List.cons.inj whole
      exact ofText_of_ident word starts all ends
  | decimal filled ends whole decimal =>
      subst text
      exact ofText_of_decimal filled ends whole decimal
  | hexadecimal marked filled ends =>
      obtain ⟨rfl, rfl⟩ := List.cons.inj whole
      exact (ofText_of_digit (by decide) _).trans (number_hexadecimal marked filled ends)
  | @float digits point power filled fraction exponent either ends closed =>
      cases digits with
      | nil => exact absurd rfl filled.nonempty
      | cons d more =>
          obtain ⟨rfl, rfl⟩ := List.cons.inj whole
          have found := ofText_of_float filled fraction exponent either ends closed
          simpa [Nat.add_assoc] using found
  | string items =>
      obtain ⟨rfl, rfl⟩ := List.cons.inj whole
      have closes := stringBody?_items items rest
      rw [List.append_assoc, List.singleton_append, List.length_append]
      exact congrArg (literal .string) closes
  | char one =>
      obtain ⟨rfl, rfl⟩ := List.cons.inj whole
      have closes := charBody?_item one rest
      rw [List.append_assoc, List.singleton_append, List.length_append]
      exact congrArg (literal .char) closes
  | punct visible other unquoted plain =>
      obtain ⟨rfl, rfl⟩ := List.cons.inj whole
      exact ofText_of_punct visible other unquoted plain

/-- Whatever has the form of layout is found to be layout. -/
theorem ofText_of_blank {c : Char} {piece rest : List Char} (blank : Blank rest (c :: piece)) :
    ofText c (piece ++ rest) = .layout piece.length := by
  generalize whole : c :: piece = text at blank
  cases blank with
  | space blank =>
      obtain ⟨rfl, rfl⟩ := List.cons.inj whole
      exact if_pos blank
  | @line body inline ends =>
      obtain ⟨rfl, rfl⟩ := List.cons.inj whole
      have stops : Stops (· ≠ '\n') rest := by
        rcases ends with rfl | first
        · exact nofun
        · intro d same
          cases first.symm.trans same
          rfl
      have counted := @run_append (· ≠ '\n') body rest
        (fun d member => decide_eq_true (fun same => inline (same ▸ member))) stops
      exact congrArg (fun size => Front.layout (size + 1)) counted
  | @block body first =>
      obtain ⟨rfl, rfl⟩ := List.cons.inj whole
      have closes := commentBody?_append first rest
      simp [ofText, closes, show isSpace '/' = false from rfl, show isDigit '/' = false from rfl,
        show isNameStart '/' = false from rfl]

/-- Where something stays open, that is found. -/
theorem ofText_of_open {c : Char} {rest : List Char} {form : Unclosed} (opened : Open form (c :: rest)) :
    ofText c rest = .unterminated form := by
  cases opened with
  | string never =>
      have unclosed : stringBody? rest = none := by
        cases closes : stringBody? rest with
        | none => rfl
        | some more =>
            obtain ⟨body, others, items, same, -⟩ := items_of_stringBody? closes
            exact absurd same (never body others items)
      exact congrArg (literal .string) unclosed
  | char never =>
      have unclosed : charBody? rest = none := by
        cases closes : charBody? rest with
        | none => rfl
        | some more =>
            obtain ⟨item, others, one, same, -⟩ := item_of_charBody? closes
            exact absurd same (never item others one)
      exact congrArg (literal .char) unclosed
  | comment never =>
      have unclosed := commentBody?_eq_none_iff.mpr never
      simp [ofText, unclosed, show isSpace '/' = false from rfl, show isDigit '/' = false from rfl,
        show isNameStart '/' = false from rfl]

end Front

end PhraseGrammar
