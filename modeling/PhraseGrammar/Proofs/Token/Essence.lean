import PhraseGrammar.Proofs.Token.FrontForms

/-!
# Essences

The essence of a text is what it is apart from its layout: its tokens, of every
identifier whether a depth marker stands right behind it, and what is left open
at the end. A line feed ends what stands before it, unless that is an open
comment or literal. So where nothing is left open, the essence of two texts with
a line feed between them is that of the one followed by that of the other.
-/

namespace PhraseGrammar

/-- The character opens a recursion depth if it stands right behind a name. -/
def OpensHint (follow : Option Char) : Prop :=
  follow = some '!' ∨ follow = some '#'

instance (follow : Option Char) : Decidable (OpensHint follow) :=
  inferInstanceAs (Decidable (_ ∨ _))

/-- A token, and of an identifier whether a depth marker stands right behind it. -/
def Lexeme.essence (lexeme : Lexeme) : Token × Bool :=
  (lexeme.token, decide (lexeme.token.kind = .ident ∧ OpensHint lexeme.follow))

/-- Lexemes of one essence begin with the same token, a marker behind it in both or in neither. -/
theorem Lexeme.of_map_essence {lexeme : Lexeme} {rest lexemes : List Lexeme}
    (same : lexemes.map essence = (lexeme :: rest).map essence) :
    ∃ other others, lexemes = other :: others ∧ other.token = lexeme.token ∧
      (lexeme.token.kind = .ident → (OpensHint lexeme.follow ↔ OpensHint other.follow)) ∧
        others.map essence = rest.map essence := by
  rw [List.map_cons, List.map_eq_cons_iff] at same
  obtain ⟨other, others, split, head, tail⟩ := same
  obtain ⟨token, marked⟩ := Prod.mk.inj head
  refine ⟨other, others, split, token, fun ident => ?_, tail⟩
  rw [token, decide_eq_decide] at marked
  exact ⟨fun marks => (marked.mpr ⟨ident, marks⟩).2,
    fun marks => (marked.mp ⟨ident, marks⟩).2⟩

/-- What is left open at the end, wherever it begins. -/
def Ending.unclosed? : Ending → Option Unclosed
  | .eof _ => none
  | .unterminated form _ => some form

/-- What a text is apart from its layout. -/
def essence (text : String) : List (Token × Bool) × Option Unclosed :=
  ((lexemes text).1.map Lexeme.essence, (lexemes text).2.unclosed?)

namespace Lexical

variable {rest more : List Char}

theorem Stops.append_newline {holds : Char → Bool} (stops : Stops holds rest)
    (outside : holds '\n' = false) : Stops holds (rest ++ '\n' :: more) := by
  intro c first
  cases rest with
  | nil => exact Option.some.inj first ▸ outside
  | cons d rest => exact stops c first

/-- A front without a line feed ends before the first one. -/
theorem exists_append_of_newline (front : List Char) {tail : List Char}
    (same : rest ++ '\n' :: more = front ++ tail) (inline : '\n' ∉ front) :
    ∃ others, rest = front ++ others := by
  rcases List.append_eq_append_iff.mp same with ⟨left, split, newline⟩ | ⟨others, split, _⟩
  · cases left with
    | nil => exact ⟨[], by rw [split, List.append_nil, List.append_nil]⟩
    | cons c left =>
        obtain ⟨rfl, _⟩ := List.cons.inj newline
        exact absurd (split ▸ List.mem_append_right rest List.mem_cons_self) inline
  · exact ⟨others, split⟩

theorem ne_newline_of_isDigit {c : Char} (digit : Unicode.isDigit c = true) : '\n' ≠ c := by
  rintro rfl
  revert digit
  decide

theorem ne_newline_of_isHexDigit {c : Char} (digit : Unicode.isHexDigit c = true) : '\n' ≠ c := by
  rintro rfl
  revert digit
  decide

theorem OpensFraction.of_append_newline (opens : OpensFraction (rest ++ '\n' :: more)) :
    OpensFraction rest := by
  generalize whole : rest ++ '\n' :: more = text at opens
  cases opens with
  | @point digit tail starts =>
      have inline : '\n' ∉ ['.', digit] := by simp [ne_newline_of_isDigit starts]
      obtain ⟨others, rfl⟩ := exists_append_of_newline ['.', digit] whole inline
      exact .point starts

theorem OpensExponent.of_append_newline (opens : OpensExponent (rest ++ '\n' :: more)) :
    OpensExponent rest := by
  generalize whole : rest ++ '\n' :: more = text at opens
  cases opens with
  | @mark mark digit sign tail marked signed starts =>
      have inline : '\n' ∉ mark :: (sign ++ [digit]) := by
        rcases marked with rfl | rfl <;> rcases signed with rfl | rfl | rfl <;>
          simp [ne_newline_of_isDigit starts]
      have split : rest ++ '\n' :: more = mark :: (sign ++ [digit]) ++ tail := by simpa using whole
      obtain ⟨others, rfl⟩ := exists_append_of_newline _ split inline
      rw [List.cons_append, List.append_assoc]
      exact .mark marked signed starts

theorem OpensHexadecimal.of_append_newline (opens : OpensHexadecimal (rest ++ '\n' :: more)) :
    OpensHexadecimal rest := by
  generalize whole : rest ++ '\n' :: more = text at opens
  cases opens with
  | @mark mark digit tail marked starts =>
      have inline : '\n' ∉ [mark, digit] := by
        rcases marked with rfl | rfl <;> simp [ne_newline_of_isHexDigit starts]
      obtain ⟨others, rfl⟩ := exists_append_of_newline [mark, digit] whole inline
      exact .mark marked starts

theorem Spells.append_newline {kind : Kind} {piece : List Char} (spells : Spells rest kind piece)
    (more : List Char) : Spells (rest ++ '\n' :: more) kind piece := by
  cases spells with
  | ident word starts all ends => exact .ident word starts all (ends.append_newline (by decide))
  | decimal filled ends whole decimal =>
      exact .decimal filled (ends.append_newline (by decide))
        ⟨mt OpensFraction.of_append_newline whole.1, mt OpensExponent.of_append_newline whole.2⟩
        (fun zero => mt OpensHexadecimal.of_append_newline (decimal zero))
  | hexadecimal marked filled ends =>
      exact .hexadecimal marked filled (ends.append_newline (by decide))
  | float filled fraction exponent either ends closed =>
      exact .float filled fraction exponent either (ends.append_newline (by decide))
        (fun plain => mt OpensExponent.of_append_newline (closed plain))
  | string items => exact .string items
  | char one => exact .char one
  | punct visible other unquoted plain =>
      refine .punct visible other unquoted fun slash => ?_
      cases rest with
      | nil => exact ⟨by simp, by simp⟩
      | cons c rest => exact plain slash

theorem Blank.append_newline {piece : List Char} (blank : Blank rest piece) (more : List Char) :
    Blank (rest ++ '\n' :: more) piece := by
  cases blank with
  | space blank => exact .space blank
  | line inline ends =>
      refine .line inline (.inr ?_)
      rcases ends with rfl | newline
      · rfl
      · rw [List.head?_append, newline]
        rfl
  | block first => exact .block first

end Lexical

namespace Front

variable {c : Char} {rest : List Char}

/-- A piece of layout lies inside the text. -/
theorem le_length_of_layout {size : Nat} (found : ofText c rest = .layout size) :
    size ≤ rest.length := by
  have described := describes_ofText c rest
  rw [found, Describes] at described
  have alone := ofText_of_blank described
  rw [List.take_append_drop, found] at alone
  exact Front.layout.inj alone ▸ List.length_take_le' size rest

/-- So does a token. -/
theorem le_length_of_token {kind : Kind} {size : Nat} (found : ofText c rest = .token kind size) :
    size ≤ rest.length := by
  have described := describes_ofText c rest
  rw [found, Describes] at described
  have alone := ofText_of_spells described
  rw [List.take_append_drop, found] at alone
  exact (Front.token.inj alone).2 ▸ List.length_take_le' size rest

/-- What stands at the front of a text is decided before the next line feed. -/
theorem ofText_append_newline (c : Char) (rest more : List Char)
    (closed : ∀ form, ofText c rest ≠ .unterminated form) :
    ofText c (rest ++ '\n' :: more) = ofText c rest := by
  have described := describes_ofText c rest
  cases found : ofText c rest with
  | layout size =>
      rw [found, Describes] at described
      have joined := ofText_of_blank (described.append_newline more)
      rwa [← List.append_assoc, List.take_append_drop,
        List.length_take_of_le (le_length_of_layout found)] at joined
  | token kind size =>
      rw [found, Describes] at described
      have joined := ofText_of_spells (described.append_newline more)
      rwa [← List.append_assoc, List.take_append_drop,
        List.length_take_of_le (le_length_of_token found)] at joined
  | unterminated form => exact absurd found (closed form)

end Front

/-! ## Two texts with a line feed between them -/

namespace Lexeme

/-- What lexemes and their ending are apart from layout. -/
def essences (scanned : List Lexeme × Ending) : List (Token × Bool) × Option Unclosed :=
  (scanned.1.map Lexeme.essence, scanned.2.unclosed?)

/-- Where a text begins is layout. -/
theorem essences_scan_place (text : List Char) (skip : Nat) (place other : Position) :
    essences (scan text skip place) = essences (scan text skip other) := by
  fun_induction scan text skip place generalizing other with
  | case1 skip place => rfl
  | case2 c rest skip place ih => exact ih _
  | case3 c rest place more found ih =>
      rw [ih (other.advance c), scan, found]
  | case4 c rest place kind more found lexemes ending scanned ih =>
      have same := ih (other.advance c)
      rw [scanned] at same
      obtain ⟨listed, ended⟩ := Prod.mk.inj same
      rw [scan, found]
      exact Prod.ext (congrArg (_ :: ·) listed) ended
  | case5 c rest place form found => rw [scan, found]; rfl

/-- Whether a marker stands behind a token does not depend on what a line feed puts further on. -/
theorem essence_cut_append {kind : Kind} {size : Nat} {c : Char} {rest : List Char}
    (inside : size ≤ rest.length) (more : List Char) (place : Position) :
    (cut kind size c (rest ++ '\n' :: more) place).essence =
      (cut kind size c rest place).essence := by
  have token : (cut kind size c (rest ++ '\n' :: more) place).token =
      (cut kind size c rest place).token := by
    rw [cut, cut, List.take_append_of_le_length inside]
  have hints : OpensHint (cut kind size c (rest ++ '\n' :: more) place).follow ↔
      OpensHint (cut kind size c rest place).follow := by
    rw [cut, cut, List.drop_append_of_le_length inside]
    cases rest.drop size with
    | nil => simp [OpensHint]
    | cons d others => rfl
  rw [essence, essence, token]
  simp only [hints]

theorem essences_scan_append (front back : List Char) (skip : Nat) (place : Position)
    (inside : skip ≤ front.length) (closed : (scan front skip place).2.unclosed? = none) :
    essences (scan (front ++ '\n' :: back) skip place) =
      ((essences (scan front skip place)).1 ++ (essences (scan back 0 .start)).1,
        (essences (scan back 0 .start)).2) := by
  fun_induction scan front skip place with
  | case1 skip place =>
      obtain rfl := Nat.le_zero.mp inside
      have newline : Front.ofText '\n' back = .layout 0 := rfl
      rw [List.nil_append, scan, newline]
      exact essences_scan_place back 0 _ .start
  | case2 c rest skip place ih => exact ih (Nat.le_of_succ_le_succ inside) closed
  | case3 c rest place more found ih =>
      have same := Front.ofText_append_newline c rest back (by simp [found])
      rw [List.cons_append, scan, same, found]
      exact ih (Front.le_length_of_layout found) closed
  | case4 c rest place kind more found lexemes ending scanned ih =>
      have same := Front.ofText_append_newline c rest back (by simp [found])
      have inside := Front.le_length_of_token found
      rw [scanned] at ih
      have further := ih inside closed
      obtain ⟨listed, ended⟩ := Prod.mk.inj further
      rw [List.cons_append, scan, same, found]
      refine Prod.ext ?_ ended
      exact congrArg₂ List.cons (essence_cut_append inside back place) listed
  | case5 c rest place form found => cases closed

end Lexeme

/--
Where the first text leaves nothing open, a line feed keeps the two apart, even
if the first ends in a line comment.
-/
theorem essence_append {first : String} (second : String) (closed : (essence first).2 = none) :
    essence (first ++ "\n" ++ second) =
      ((essence first).1 ++ (essence second).1, (essence second).2) := by
  have joined :=
    Lexeme.essences_scan_append first.toList second.toList 0 .start (Nat.zero_le _) closed
  have text : (first ++ "\n" ++ second).toList = first.toList ++ '\n' :: second.toList := by
    simp
  rw [← text] at joined
  exact joined

end PhraseGrammar
