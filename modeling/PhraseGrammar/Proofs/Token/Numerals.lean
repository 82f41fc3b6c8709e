import Mathlib.Data.List.TakeDrop
import Mathlib.Data.List.TakeWhile
import Mathlib.Data.Nat.Digits.Defs
import Mathlib.Tactic.Ring
import PhraseGrammar.Binary64.Text
import PhraseGrammar.Token.Front

/-!
# The numbers of a text

Every number that stands at the front of a text denotes a value: a float
always, an integer if its notation is hexadecimal or short enough. A short
integer can be written in decimal again.
-/

namespace PhraseGrammar

namespace Unicode

theorem isSpace_eq_false_of_isDigit {c : Char} (digit : isDigit c = true) : isSpace c = false := by
  have apart : ∀ start ∈ zeros, ∀ range ∈ spaceRanges, range.2 < start ∨ start + 10 ≤ range.1 := by
    decide
  obtain ⟨value, found⟩ := Option.isSome_iff_exists.mp digit
  obtain ⟨start, known, holds⟩ := List.exists_of_findSome?_eq_some found
  split at holds
  · rename_i within
    apply Bool.eq_false_iff.mpr
    intro blank
    obtain ⟨range, member, above, below⟩ := Ranges.contains_iff.mp blank
    have := apart start known range member
    omega
  · cases holds

theorem ne_of_isDigit {c other : Char} (digit : isDigit c = true)
    (plain : isDigit other = false) : c ≠ other := by
  rintro rfl
  exact Bool.false_ne_true (plain.symm.trans digit)

/-- The ASCII characters that are hexadecimal digits. -/
theorem range_of_isHexDigit {c : Char} (digit : isHexDigit c = true) :
    (0x30 ≤ c.toNat ∧ c.toNat ≤ 0x39) ∨ (0x61 ≤ c.toNat ∧ c.toNat ≤ 0x66) ∨
      (0x41 ≤ c.toNat ∧ c.toNat ≤ 0x46) := by
  unfold isHexDigit hexDigit? at digit
  split at digit
  · exact .inl ‹_›
  · split at digit
    · exact .inr (.inl ‹_›)
    · split at digit
      · exact .inr (.inr ‹_›)
      · cases digit

theorem digit?_of_ascii {c : Char} (above : 0x30 ≤ c.toNat) (below : c.toNat ≤ 0x39) :
    digit? c = some (c.toNat - 0x30) := by
  have inside : 0x30 ≤ c.toNat ∧ c.toNat < 0x30 + 10 := by omega
  rw [digit?, zeros, List.findSome?_cons, if_pos inside]

/-- The decimal digits of all other scripts lie beyond the letters. -/
theorem digit?_of_isHexDigit {c : Char} (digit : isHexDigit c = true) :
    (digit? c <|> hexDigit? c) = hexDigit? c := by
  rcases range_of_isHexDigit digit with decimal | letter
  · have first : '0' ≤ c ∧ c ≤ '9' := decimal
    rw [digit?_of_ascii decimal.1 decimal.2, hexDigit?, if_pos first]
    rfl
  · have beyond : ∀ start ∈ zeros, start + 10 ≤ 0x41 ∨ 0x66 < start := by decide
    have none : digit? c = none := by
      refine List.findSome?_eq_none_iff.mpr fun start known => if_neg ?_
      have := beyond start known
      omega
    rw [none]
    rfl

end Unicode

namespace Numeral

theorem isSpace_of_isMargin {c : Char} (margin : isMargin c = true) : Unicode.isSpace c = true := by
  unfold isMargin at margin
  split at margin
  · simp only [Bool.or_eq_true, decide_eq_true_eq, Bool.and_eq_true] at margin
    rcases margin with rfl | within
    · decide
    · exact Unicode.Ranges.contains_iff.mpr ⟨(0x9, 0xD), by decide, within⟩
  · exact margin

theorem isMargin_of_isDigit {c : Char} (digit : Unicode.isDigit c = true) : isMargin c = false :=
  Bool.eq_false_iff.mpr fun margin =>
    Bool.false_ne_true
      ((Unicode.isSpace_eq_false_of_isDigit digit).symm.trans (isSpace_of_isMargin margin))

theorem isMargin_of_isHexDigit {c : Char} (digit : Unicode.isHexDigit c = true) :
    isMargin c = false := by
  have range := Unicode.range_of_isHexDigit digit
  have ascii : c.toNat < 0x80 := by omega
  have blank : c ≠ ' ' := by
    rintro rfl
    revert range
    decide
  simp only [isMargin, ascii, if_true, blank, decide_false, Bool.false_or, Bool.and_eq_false_iff,
    decide_eq_false_iff_not]
  omega

theorem dropTrailingMargin_eq {text : List Char} (solid : ∀ c ∈ text, isMargin c = false) :
    dropTrailingMargin text = text := by
  have kept : text.reverse.dropWhile isMargin = text.reverse := by
    cases turned : text.reverse with
    | nil => rfl
    | cons c rest =>
        have member : c ∈ text := by
          rw [← List.mem_reverse, turned]
          exact List.mem_cons_self
        rw [List.dropWhile_cons, solid c member]
        rfl
  rw [dropTrailingMargin, kept, List.reverse_reverse]

theorem dropMargins_eq {text : List Char} (solid : ∀ c ∈ text, isMargin c = false) :
    dropMargins text = text := by
  have kept : text.dropWhile isMargin = text := by
    cases text with
    | nil => rfl
    | cons c rest =>
        rw [List.dropWhile_cons, solid c List.mem_cons_self]
        rfl
  rw [dropMargins, kept, dropTrailingMargin_eq solid]

/-- Digits that nothing separates denote their values one by one. -/
theorem grouped?_eq_map {value? : Char → Option Nat} {text : List Char} (nonempty : text ≠ [])
    (digits : ∀ c ∈ text, (value? c).isSome = true) (joined : '_' ∉ text) :
    grouped? value? text = some (text.map fun c => (value? c).getD 0) := by
  induction text with
  | nil => exact absurd rfl nonempty
  | cons c rest ih =>
      obtain ⟨value, found⟩ := Option.isSome_iff_exists.mp (digits c List.mem_cons_self)
      cases rest with
      | nil => simp [grouped?, found]
      | cons next rest =>
          have other : next ≠ '_' := by
            rintro rfl
            exact joined (.tail _ (.head _))
          have others := ih (List.cons_ne_nil _ _) (fun c member => digits c (.tail _ member))
            (fun member => joined (.tail _ member))
          rw [grouped?, found, others]
          · simp [found]
          · exact fun same => other same

/-- The most significant digit comes first. -/
theorem ofDigits_eq (base : Nat) (digits : List Nat) :
    ofDigits base digits = Nat.ofDigits base digits.reverse := by
  rw [Nat.ofDigits_eq_foldr, List.foldr_reverse, ofDigits]
  congr 1
  funext value digit
  rw [Nat.cast_id, Nat.add_comm, Nat.mul_comm]

theorem foldl_lt {base : Nat} {digits : List Nat} (small : ∀ digit ∈ digits, digit < base)
    (value : Nat) :
    digits.foldl (fun value digit => value * base + digit) value <
      (value + 1) * base ^ digits.length := by
  induction digits generalizing value with
  | nil => simp
  | cons digit rest ih =>
      have below := small digit List.mem_cons_self
      have others := ih (fun digit member => small digit (.tail _ member)) (value * base + digit)
      have carry : value * base + digit + 1 ≤ (value + 1) * base := by
        rw [Nat.succ_mul]
        omega
      calc
        _ < (value * base + digit + 1) * base ^ rest.length := others
        _ ≤ ((value + 1) * base) * base ^ rest.length := Nat.mul_le_mul_right _ carry
        _ = (value + 1) * base ^ (rest.length + 1) := by rw [Nat.pow_succ']; ring

theorem ofDigits_lt {base : Nat} {digits : List Nat} (small : ∀ digit ∈ digits, digit < base) :
    ofDigits base digits < base ^ digits.length := by
  have bound := foldl_lt small 0
  rwa [Nat.zero_add, Nat.one_mul] at bound

/-! ## Integers -/

theorem splitSign_eq {c : Char} {rest : List Char} (digit : Unicode.isDigit c = true) :
    splitSign (c :: rest) = (false, c :: rest) := by
  unfold splitSign
  split
  · rename_i same
    cases same
    exact absurd rfl (Unicode.ne_of_isDigit digit (by decide))
  · rename_i same
    cases same
    exact absurd rfl (Unicode.ne_of_isDigit digit (by decide))
  · rfl

/-- A digit is never an underscore, so that groups of digits are single. -/
theorem not_mem_of_isDigit {text : List Char} (digits : ∀ c ∈ text, Unicode.isDigit c = true) :
    '_' ∉ text :=
  fun member => Unicode.ne_of_isDigit (digits _ member) (by decide) rfl

/-- The number that decimal digits denote. -/
def decimalValue (digits : List Char) : Nat :=
  ofDigits 10 (digits.map fun c => (Unicode.digit? c).getD 0)

/-- The number that hexadecimal digits denote. -/
def hexadecimalValue (digits : List Char) : Nat :=
  ofDigits 16 (digits.map fun c => (Unicode.hexDigit? c).getD 0)

/-- Digits are read unless they are too many. -/
theorem readDecimal?_eq {text : List Char} (nonempty : text ≠ [])
    (digits : ∀ c ∈ text, Unicode.isDigit c = true) :
    readDecimal? text =
      if text.length ≤ digitLimit then some (decimalValue text : Int) else none := by
  have solid : dropMargins text = text :=
    dropMargins_eq fun c member => isMargin_of_isDigit (digits c member)
  have grouped := grouped?_eq_map nonempty digits (not_mem_of_isDigit digits)
  cases text with
  | nil => exact absurd rfl nonempty
  | cons c rest =>
      simp only [readDecimal?, solid, splitSign_eq (digits c List.mem_cons_self), grouped,
        List.length_map]
      rfl

theorem isSome_decimal?_ofDigits {digits : List Nat} (small : ∀ digit ∈ digits, digit < 10)
    (short : digits.length ≤ digitLimit) : (decimal? (ofDigits 10 digits)).isSome = true := by
  have within (limit : Nat) (enough : digits.length ≤ limit) :
      ofDigits 10 digits < Nat.pow 10 limit :=
    Nat.lt_of_lt_of_le (ofDigits_lt small) (Nat.pow_le_pow_right (by decide) enough)
  rw [isSome_decimal?, Int.natAbs_natCast]
  unfold decimalBound
  exact within digitLimit short

theorem isSome_decimal?_decimalValue {text : List Char}
    (digits : ∀ c ∈ text, Unicode.isDigit c = true) (short : text.length ≤ digitLimit) :
    (decimal? (decimalValue text)).isSome = true := by
  refine isSome_decimal?_ofDigits ?_ (by rwa [List.length_map])
  intro digit member
  obtain ⟨c, inside, rfl⟩ := List.mem_map.mp member
  obtain ⟨value, found⟩ := Option.isSome_iff_exists.mp (digits c inside)
  rw [found]
  exact Unicode.digit?_lt found

theorem isSome_decimal?_neg {value : Int} (written : (decimal? value).isSome = true) :
    (decimal? (-value)).isSome = true := by
  rw [isSome_decimal?] at written ⊢
  rwa [Int.natAbs_neg]

theorem lt_of_grouped? {value? : Char → Option Nat} {bound : Nat}
    (small : ∀ c digit, value? c = some digit → digit < bound) {text : List Char}
    {values : List Nat} (grouped : grouped? value? text = some values) :
    ∀ digit ∈ values, digit < bound := by
  fun_induction grouped? value? text generalizing values with
  | case1 => cases grouped
  | case2 c =>
      obtain ⟨digit, found, rfl⟩ := Option.map_eq_some_iff.mp grouped
      exact List.forall_mem_singleton.mpr (small c digit found)
  | case3 c rest digit others later here ih =>
      cases grouped
      exact List.forall_mem_cons.mpr ⟨small c digit here, ih later⟩
  | case4 => cases grouped
  | case5 c next rest single digit others later here ih =>
      cases grouped
      exact List.forall_mem_cons.mpr ⟨small c digit here, ih later⟩
  | case6 => cases grouped

/-- What is read in decimal notation can be written in it. -/
theorem isSome_decimal?_of_readDecimal? {text : List Char} {value : Int}
    (read : readDecimal? text = some value) : (decimal? value).isSome = true := by
  unfold readDecimal? at read
  dsimp only at read
  split at read
  · cases read
  · rename_i digits grouped
    split at read
    · rename_i short
      have written := isSome_decimal?_ofDigits
        (lt_of_grouped? (fun _ _ found => Unicode.digit?_lt found) grouped) short
      cases read
      split
      · exact isSome_decimal?_neg written
      · exact written
    · cases read

/-- A text of digits only has no mark of hexadecimal notation. -/
theorem unmarked_of_isDigit {c mark : Char} {others : List Char}
    (digits : ∀ d ∈ c :: mark :: others, Unicode.isDigit d = true) : mark ≠ 'x' ∧ mark ≠ 'X' := by
  have digit := digits mark (.tail _ (.head _))
  exact ⟨Unicode.ne_of_isDigit digit (by decide), Unicode.ne_of_isDigit digit (by decide)⟩

theorem readInteger?_digits {digits : List Char} (nonempty : digits ≠ [])
    (all : ∀ c ∈ digits, Unicode.isDigit c = true) :
    readInteger? (String.ofList digits) =
      if digits.length ≤ digitLimit then some (decimalValue digits : Int) else none := by
  rw [readInteger?, String.toList_ofList]
  split
  · exact absurd rfl (unmarked_of_isDigit all).1
  · exact absurd rfl (unmarked_of_isDigit all).2
  · exact readDecimal?_eq nonempty all

theorem readInteger?_decimal {digits : List Char} (nonempty : digits ≠ [])
    (all : ∀ c ∈ digits, Unicode.isDigit c = true) (short : digits.length ≤ digitLimit) :
    readInteger? (String.ofList digits) = some (decimalValue digits : Int) := by
  rw [readInteger?_digits nonempty all, if_pos short]

theorem readHexadecimal?_eq {text : List Char} (nonempty : text ≠ [])
    (digits : ∀ c ∈ text, Unicode.isHexDigit c = true) :
    readHexadecimal? text = some (hexadecimalValue text : Int) := by
  have solid : dropTrailingMargin text = text :=
    dropTrailingMargin_eq fun c member => isMargin_of_isHexDigit (digits c member)
  have joined : '_' ∉ text := fun member => Bool.false_ne_true (digits '_' member)
  have same : ∀ c ∈ text, hexadecimal? c = Unicode.hexDigit? c :=
    fun c member => Unicode.digit?_of_isHexDigit (digits c member)
  have known : ∀ c ∈ text, (hexadecimal? c).isSome = true :=
    fun c member => same c member ▸ digits c member
  have grouped := grouped?_eq_map nonempty known joined
  have values : (text.map fun c => (hexadecimal? c).getD 0) =
      text.map fun c => (Unicode.hexDigit? c).getD 0 :=
    List.map_congr_left fun c member => by rw [same c member]
  simp only [readHexadecimal?, solid]
  split
  · exact absurd List.mem_cons_self joined
  · rw [grouped, values]
    rfl

theorem readInteger?_hexadecimal {mark : Char} {digits : List Char}
    (marked : mark = 'x' ∨ mark = 'X') (nonempty : digits ≠ [])
    (all : ∀ c ∈ digits, Unicode.isHexDigit c = true) :
    readInteger? (String.ofList ('0' :: mark :: digits)) = some (hexadecimalValue digits : Int) := by
  rw [readInteger?, String.toList_ofList]
  rcases marked with rfl | rfl <;> exact readHexadecimal?_eq nonempty all

end Numeral

namespace Front

theorem take_run (holds : Char → Bool) (text : List Char) :
    text.take (run holds text) = text.takeWhile holds := by
  rw [run]
  exact (List.prefix_iff_eq_take.mp (List.takeWhile_prefix holds)).symm

theorem takeWhile_ne_nil {holds : Char → Bool} {text : List Char} (some : run holds text ≠ 0) :
    text.takeWhile holds ≠ [] :=
  fun none => some (by rw [run, none]; rfl)

/-- An integer is hexadecimal behind a zero and an `x`, or has nothing but digits. -/
theorem number_int {c : Char} {rest : List Char} {more : Nat} (digit : Unicode.isDigit c = true)
    (reads : number c rest = .token .int more) :
    (∃ mark digits, (mark = 'x' ∨ mark = 'X') ∧ c :: rest.take more = '0' :: mark :: digits ∧
        digits ≠ [] ∧ ∀ d ∈ digits, Unicode.isHexDigit d = true) ∨
      ∀ d ∈ c :: rest.take more, Unicode.isDigit d = true := by
  unfold number at reads
  dsimp only at reads
  split at reads
  · cases reads
  · split at reads
    · rename_i hex
      obtain ⟨-, rfl⟩ := Front.token.inj reads
      left
      cases rest with
      | nil => exact absurd rfl hex
      | cons mark rest =>
          simp only [hexadecimal] at hex ⊢
          split at hex
          · rename_i holds
            obtain ⟨rfl, marked, some⟩ := holds
            rw [if_pos ⟨rfl, marked, some⟩]
            refine ⟨mark, rest.takeWhile Unicode.isHexDigit, marked, ?_, ?_, ?_⟩
            · rw [List.take_succ_cons, take_run]
            · exact takeWhile_ne_nil some
            · exact fun d member => List.mem_takeWhile_imp member
          · exact absurd rfl hex
    · obtain ⟨-, rfl⟩ := Front.token.inj reads
      right
      intro d member
      rw [take_run] at member
      rcases List.mem_cons.mp member with rfl | inside
      · exact digit
      · exact List.mem_takeWhile_imp inside

/-! ## Floats -/

/-- Nothing, or a point with digits. -/
inductive Fraction : List Char → Prop where
  | none : Fraction []
  | point {digits : List Char} (nonempty : digits ≠ [])
      (all : ∀ c ∈ digits, Unicode.isDigit c = true) : Fraction ('.' :: digits)

/-- Nothing, or `e` with a sign, which may be missing, and digits. -/
inductive Power : List Char → Prop where
  | none : Power []
  | mark {mark : Char} {sign digits : List Char} (marked : mark = 'e' ∨ mark = 'E')
      (signed : sign = [] ∨ sign = ['+'] ∨ sign = ['-']) (nonempty : digits ≠ [])
      (all : ∀ c ∈ digits, Unicode.isDigit c = true) : Power (mark :: (sign ++ digits))

theorem fraction_take (text : List Char) : Fraction (text.take (fraction text)) := by
  unfold fraction
  split
  · rename_i rest
    dsimp only
    split
    · exact .none
    · rename_i some
      rw [List.take_succ_cons, take_run]
      exact .point (takeWhile_ne_nil some) fun c member => List.mem_takeWhile_imp member
  · exact .none

theorem sign_take (text : List Char) :
    text.take (sign text) = [] ∨ text.take (sign text) = ['+'] ∨ text.take (sign text) = ['-'] := by
  unfold sign
  split
  · exact .inr (.inl rfl)
  · exact .inr (.inr rfl)
  · exact .inl rfl

theorem power_take (text : List Char) : Power (text.take (exponent text)) := by
  cases text with
  | nil => exact .none
  | cons mark rest =>
      simp only [exponent]
      split
      · rename_i holds
        rw [List.take_succ_cons, List.take_add, take_run]
        exact .mark holds.1 (sign_take rest) (takeWhile_ne_nil holds.2)
          fun c member => List.mem_takeWhile_imp member
      · exact .none

theorem number_float {c : Char} {rest : List Char} {more : Nat}
    (digit : Unicode.isDigit c = true) (reads : number c rest = .token .float more) :
    ∃ whole point power, c :: rest.take more = whole ++ (point ++ power) ∧ whole ≠ [] ∧
      (∀ d ∈ whole, Unicode.isDigit d = true) ∧ Fraction point ∧ Power power := by
  unfold number at reads
  dsimp only at reads
  split at reads
  · obtain ⟨-, rfl⟩ := Front.token.inj reads
    refine ⟨c :: rest.takeWhile Unicode.isDigit, _, _, ?_, List.cons_ne_nil _ _, ?_,
      fraction_take (rest.drop (run Unicode.isDigit rest)),
      power_take ((rest.drop (run Unicode.isDigit rest)).drop
        (fraction (rest.drop (run Unicode.isDigit rest))))⟩
    · rw [List.take_add, List.take_add, take_run, List.drop_drop, List.append_assoc]
      rfl
    · intro d member
      rcases List.mem_cons.mp member with rfl | inside
      · exact digit
      · exact List.mem_takeWhile_imp inside
  · split at reads <;> cases reads

end Front

namespace Binary64

open Front Numeral

theorem spanGroup_append {digits rest : List Char}
    (all : ∀ c ∈ digits, Unicode.isDigit c = true)
    (stops : ∀ c ∈ rest.head?, Unicode.isDigit c = false ∧ c ≠ '_') :
    spanGroup (digits ++ rest) = (digits, rest) := by
  have inside : ∀ c ∈ digits, (Unicode.isDigit c || decide (c = '_')) = true := by
    intro c member
    rw [all c member]
    rfl
  rw [spanGroup, List.span_eq_takeWhile_dropWhile, List.takeWhile_append_of_pos inside,
    List.dropWhile_append_of_pos inside]
  cases rest with
  | nil => rw [List.takeWhile_nil, List.dropWhile_nil, List.append_nil]
  | cons c rest =>
      obtain ⟨plain, other⟩ := stops c rfl
      simp [plain, other]

theorem stops_power {power : List Char} (shape : Power power) :
    ∀ c ∈ power.head?, Unicode.isDigit c = false ∧ c ≠ '_' := by
  intro c first
  cases shape with
  | none => cases first
  | mark marked signed nonempty all =>
      cases first
      rcases marked with rfl | rfl <;> decide

theorem groupDigits?_eq_some {group : List Char}
    (all : ∀ c ∈ group, Unicode.isDigit c = true) :
    ∃ digits, groupDigits? group = some digits ∧ (group ≠ [] → digits ≠ []) := by
  unfold groupDigits?
  split
  · rename_i empty
    exact ⟨[], rfl, fun nonempty => absurd empty nonempty⟩
  · rename_i nonempty
    refine ⟨_, grouped?_eq_map nonempty all (not_mem_of_isDigit all), fun _ none => ?_⟩
    exact nonempty (List.map_eq_nil_iff.mp none)

theorem isSome_readExponent? {power : List Char} (shape : Power power) :
    (readExponent? power).isSome = true := by
  cases shape with
  | none => rfl
  | @mark mark sign digits marked signed nonempty all =>
      have grouped := grouped?_eq_map nonempty all (not_mem_of_isDigit all)
      have signless : (splitSign (sign ++ digits)).2 = digits := by
        rcases signed with rfl | rfl | rfl
        · cases digits with
          | nil => rfl
          | cons c rest => rw [List.nil_append, splitSign_eq (all c List.mem_cons_self)]
        · rfl
        · rfl
      simp only [readExponent?, marked, if_true, signless, grouped, Option.isSome_map]
      rfl

theorem isSome_readDecimal? {whole point power : List Char} (nonempty : whole ≠ [])
    (all : ∀ c ∈ whole, Unicode.isDigit c = true) (fraction : Fraction point)
    (exponent : Power power) :
    (readDecimal? false (whole ++ (point ++ power))).isSome = true := by
  obtain ⟨left, readLeft, counted⟩ := groupDigits?_eq_some all
  obtain ⟨size, readPower⟩ := Option.isSome_iff_exists.mp (isSome_readExponent? exponent)
  cases fraction with
  | none =>
      have apart := spanGroup_append all (stops_power exponent)
      have empty : groupDigits? [] = some [] := rfl
      rw [List.nil_append]
      cases exponent with
      | none =>
          rw [List.append_nil] at apart ⊢
          simp [readDecimal?, apart, readLeft, empty, readPower, counted nonempty]
      | mark marked =>
          rcases marked with rfl | rfl
          · simp [readDecimal?, apart, readLeft, empty, readPower, counted nonempty]
          · simp [readDecimal?, apart, readLeft, empty, readPower, counted nonempty]
  | @point digits filled digital =>
      have apart : spanGroup (whole ++ '.' :: (digits ++ power)) =
          (whole, '.' :: (digits ++ power)) := by
        refine spanGroup_append all fun c first => ?_
        cases first
        decide
      have further := spanGroup_append digital (stops_power exponent)
      obtain ⟨right, readRight, _⟩ := groupDigits?_eq_some digital
      simp [readDecimal?, apart, further, readLeft, readRight, readPower, counted nonempty]

theorem solid_fraction {point : List Char} (fraction : Fraction point) :
    ∀ c ∈ point, isMargin c = false := by
  intro c member
  cases fraction with
  | none => cases member
  | point nonempty all =>
      rcases List.mem_cons.mp member with rfl | inside
      · decide
      · exact isMargin_of_isDigit (all c inside)

theorem solid_power {power : List Char} (exponent : Power power) :
    ∀ c ∈ power, isMargin c = false := by
  intro c member
  cases exponent with
  | none => cases member
  | mark marked signed nonempty all =>
      rcases List.mem_cons.mp member with rfl | inside
      · rcases marked with rfl | rfl <;> decide
      · rcases List.mem_append.mp inside with before | digit
        · rcases signed with rfl | rfl | rfl
          · cases before
          · cases List.mem_singleton.mp before
            decide
          · cases List.mem_singleton.mp before
            decide
        · exact isMargin_of_isDigit (all c digit)

/-- Every float has a value. -/
theorem isSome_read? {whole point power : List Char} (nonempty : whole ≠ [])
    (all : ∀ c ∈ whole, Unicode.isDigit c = true) (fraction : Fraction point)
    (exponent : Power power) :
    (read? (String.ofList (whole ++ (point ++ power)))).isSome = true := by
  have solid : dropMargins (whole ++ (point ++ power)) = whole ++ (point ++ power) := by
    refine dropMargins_eq fun c member => ?_
    rcases List.mem_append.mp member with digit | rest
    · exact isMargin_of_isDigit (all c digit)
    · rcases List.mem_append.mp rest with inside | behind
      · exact solid_fraction fraction c inside
      · exact solid_power exponent c behind
  have unsigned : splitSign (whole ++ (point ++ power)) = (false, whole ++ (point ++ power)) := by
    cases whole with
    | nil => exact absurd rfl nonempty
    | cons c rest => exact splitSign_eq (all c List.mem_cons_self)
  have readable := isSome_readDecimal? nonempty all fraction exponent
  simp only [read?, String.toList_ofList, solid, unsigned]
  cases readName? false (whole ++ (point ++ power)) with
  | none => exact readable
  | some value => rfl

end Binary64

end PhraseGrammar
