import PhraseGrammar.Proofs.Rules.Recognition
import PhraseGrammar.Proofs.Rules.Syntax

/-!
# The recognition of ranges

The reader of a range recognizes the notion of the syntax: one or two integers,
each with a sign or without, in parentheses.
-/

namespace PhraseGrammar.Reader

open Syntax

variable {ending : Ending}

/-- The value of an argument's numeral. -/
def signedInteger (negative : Bool) (numeral : Token) : Reader Int :=
  if numeral.kind ≠ .int then reject (.expectedArgument numeral)
  else do
    let size ← integer numeral
    return if negative then -size else size

/-- An argument of a range, its sign in front. -/
def argument (token : Token) : Reader Int :=
  if token.text = "-" then next >>= signedInteger true else signedInteger false token

/-- The mark behind an argument. -/
def argumentEnd (arguments : Array Int) : Reader (Turn (Array Int) (List Int)) := do
  let mark ← next
  if mark.text = ")" then return .done arguments.toList
  else if mark.text = "," then return .again arguments
  else reject (.expectedArgumentEnd mark)

theorem rangeTurn_eq (arguments : Array Int) (token : Token) :
    rangeTurn arguments token =
      argument token >>= fun size => argumentEnd (arguments.push size) := by
  unfold rangeTurn argument
  by_cases negative : token.text = "-"
  · simp only [negative, if_true, bind_assoc]
    refine congrArg (next >>= ·) (funext fun numeral => ?_)
    unfold signedInteger
    split
    · rfl
    · simp only [bind_assoc, pure_bind]
      rfl
  · simp only [negative, if_false, pure_bind]
    unfold signedInteger
    split
    · rfl
    · simp only [bind_assoc, pure_bind]
      rfl

theorem recognizes_signedInteger (negative : Bool) (numeral : Token) :
    (signedInteger negative numeral).Recognizes ending Ordered fun front size _ =>
      numeral.kind = .int ∧ front = [] ∧ ∃ value, Numeral.readInteger? numeral.text = some value ∧
        size = if negative then -value else value := by
  refine (Recognizes.ite (fun _ => .reject _) fun _ =>
    .seq (.still _) fun size => .pure _).congr ?_
  intro _ front size rest _ _
  cases Numeral.readInteger? numeral.text with
  | none => simp
  | some value => simp

theorem recognizes_argument (lexeme : Lexeme) :
    (argument lexeme.token).Recognizes ending (Behind lexeme) fun front size _ =>
      SpellsInteger (lexeme :: front) size := by
  refine (Recognizes.ite (fun _ => .of_ordered (.seq .next (recognizes_signedInteger true)) lexeme)
    fun _ => .of_ordered (recognizes_signedInteger false _) lexeme).congr ?_
  intro reading front size rest behind pending
  constructor
  · rintro (⟨signed, numeral, ahead, tail, rfl, read, kind, rfl, value, known, rfl⟩ |
      ⟨unsigned, kind, rfl, value, known, rfl⟩)
    · rcases read with ⟨second, rfl, rfl⟩ | ⟨_, _, rfl, _⟩
      · have regular := behind.ordered.regular pending (.head _)
        have minus := behind.regular.sign (.inl rfl) signed
        obtain rfl := Option.some.inj (known.symm.trans (regular.integer kind).1)
        exact .minus minus kind
      · cases kind
    · obtain rfl := Option.some.inj (known.symm.trans (behind.regular.integer kind).1)
      exact .plain kind
  · intro spells
    cases spells with
    | plain kind =>
        refine .inr ⟨fun signed => ?_, kind, rfl, _, (behind.regular.integer kind).1, rfl⟩
        rw [behind.regular.sign (.inl rfl) signed] at kind
        cases kind
    | @minus _ second signed kind =>
        have regular := behind.ordered.regular pending (.head _)
        refine .inl ⟨congrArg Token.text signed, second.token, [second], [], rfl,
          .inl ⟨second, rfl, rfl⟩, kind, rfl, _, (regular.integer kind).1, rfl⟩

theorem recognizes_argumentEnd (arguments : Array Int) :
    (argumentEnd arguments).Recognizes ending Ordered fun front turn _ =>
      ∃ mark, front = [mark] ∧ ((mark.token = .punct ")" ∧ turn = .done arguments.toList) ∨
        (mark.token = .punct "," ∧ turn = .again arguments)) := by
  refine (Recognizes.seq .next fun mark => .ite (fun _ => .pure _) fun _ =>
    .ite (fun _ => .pure _) fun _ => .reject _).congr ?_
  intro reading front turn rest ordered pending
  constructor
  · rintro ⟨mark, ahead, behind, rfl, ⟨lexeme, rfl, rfl⟩ | ⟨_, _, rfl, _⟩, ended⟩
    · have regular := ordered.regular pending (.head _)
      rcases ended with ⟨closing, rfl, rfl⟩ | ⟨_, ⟨comma, rfl, rfl⟩ | ⟨_, none⟩⟩
      · exact ⟨lexeme, rfl, .inl ⟨regular.sign (.inr (.inr rfl)) closing, rfl⟩⟩
      · exact ⟨lexeme, rfl, .inr ⟨regular.sign (.inr (.inl rfl)) comma, rfl⟩⟩
      · exact none.elim
    · exact absurd ended (by simp [Token.eof])
  · rintro ⟨mark, rfl, ⟨closing, rfl⟩ | ⟨comma, rfl⟩⟩
    · exact ⟨mark.token, [mark], [], rfl, .inl ⟨mark, rfl, rfl⟩,
        .inl ⟨congrArg Token.text closing, rfl, rfl⟩⟩
    · refine ⟨mark.token, [mark], [], rfl, .inl ⟨mark, rfl, rfl⟩,
        .inr ⟨?_, .inl ⟨congrArg Token.text comma, rfl, rfl⟩⟩⟩
      rw [comma]
      decide

theorem recognizes_rangeTurn (arguments : Array Int) (lexeme : Lexeme) :
    (rangeTurn arguments lexeme.token).Recognizes ending (Behind lexeme) fun front turn _ =>
      ∃ size tail mark, front = tail ++ [mark] ∧ SpellsInteger (lexeme :: tail) size ∧
        ((mark.token = .punct ")" ∧ turn = .done (arguments.push size).toList) ∨
          (mark.token = .punct "," ∧ turn = .again (arguments.push size))) := by
  rw [rangeTurn_eq]
  refine ((recognizes_argument lexeme).bind (fun size => recognizes_argumentEnd _)
    fun _ behind => behind.ordered).congr ?_
  intro reading front turn rest behind pending
  constructor
  · rintro ⟨size, tail, _, rfl, spells, mark, rfl, ended⟩
    exact ⟨size, tail, mark, rfl, spells, ended⟩
  · rintro ⟨size, tail, mark, rfl, spells, ended⟩
    exact ⟨size, tail, [mark], rfl, spells, mark, rfl, ended⟩

/-- Integers with commas between them. -/
inductive SpellsIntegers : List Lexeme → List Int → Prop where
  | last {front : List Lexeme} {size : Int} (spells : SpellsInteger front size) :
      SpellsIntegers front [size]
  | more {front rest : List Lexeme} {comma : Lexeme} {size : Int} {sizes : List Int}
      (spells : SpellsInteger front size) (parts : comma.token = .punct ",")
      (others : SpellsIntegers rest sizes) : SpellsIntegers (front ++ comma :: rest) (size :: sizes)

theorem spellsInteger_cons {front : List Lexeme} {size : Int} (spells : SpellsInteger front size) :
    ∃ lexeme tail, front = lexeme :: tail ∧
      (lexeme.token.kind = .int ∨ lexeme.token = .punct "-") := by
  cases spells with
  | plain kind => exact ⟨_, _, rfl, .inl kind⟩
  | minus signed kind => exact ⟨_, _, rfl, .inr signed⟩

theorem recognizes_rangeTurns (arguments : Array Int) :
    (eachToken (fun _ => reject (.expectedArgument .eof)) rangeTurn arguments).Recognizes ending
      Ordered fun front sizes _ => ∃ inner closing others, front = inner ++ [closing] ∧
        SpellsIntegers inner others ∧ closing.token = .punct ")" ∧
          sizes = arguments.toList ++ others := by
  revert arguments
  refine Recognizes.eachToken (fun _ => run_reject_iff _) recognizes_rangeTurn ?_ ?_
  · intro state sizes rest
    simp
  · intro state lexeme tail sizes rest
    constructor
    · rintro ⟨inner, closing, others, whole, spells, closes, rfl⟩
      cases spells with
      | last spells =>
          obtain ⟨first, more, rfl, _⟩ := spellsInteger_cons spells
          obtain ⟨rfl, rfl⟩ := List.cons.inj whole
          exact .inl ⟨_, more, closing, rfl, spells, .inl ⟨closes, by simp⟩⟩
      | @more _ later comma _ sizes spells parts others =>
          obtain ⟨first, more, rfl, _⟩ := spellsInteger_cons spells
          obtain ⟨rfl, rfl⟩ := List.cons.inj whole
          exact .inr ⟨_, more ++ [comma], later ++ [closing], by simp,
            ⟨_, more, comma, rfl, spells, .inr ⟨parts, rfl⟩⟩,
            later, closing, sizes, rfl, others, closes, by simp⟩
    · rintro (⟨size, inner, mark, rfl, spells, ⟨closes, last⟩ | ⟨_, other⟩⟩ |
        ⟨further, _, _, rfl, ⟨size, inner, mark, rfl, spells, ⟨_, other⟩ | ⟨parts, again⟩⟩,
          later, closing, others, rfl, more, closes, rfl⟩)
      · cases last
        exact ⟨lexeme :: inner, mark, [size], rfl, .last spells, closes, by simp⟩
      · cases other
      · cases other
      · cases again
        exact ⟨lexeme :: inner ++ mark :: later, closing, size :: others, by simp,
          .more spells parts more, closes, by simp⟩

theorem spellsIntegers_cons {front : List Lexeme} {sizes : List Int}
    (spells : SpellsIntegers front sizes) : ∃ lexeme tail, front = lexeme :: tail ∧
      (lexeme.token.kind = .int ∨ lexeme.token = .punct "-") := by
  cases spells with
  | last spells => exact spellsInteger_cons spells
  | more spells parts others =>
      obtain ⟨lexeme, tail, rfl, opens⟩ := spellsInteger_cons spells
      exact ⟨lexeme, _, rfl, opens⟩

theorem recognizes_rangeArguments : rangeArguments.Recognizes ending Ordered fun front sizes _ =>
    ∃ opening inner closing, front = opening :: (inner ++ [closing]) ∧
      opening.token = .punct "(" ∧ closing.token = .punct ")" ∧
        ((inner = [] ∧ sizes = []) ∨ SpellsIntegers inner sizes) := by
  refine (Recognizes.seq (.expect "(") fun _ => .seq .peek fun token => .ite
    (fun _ => .seq .next fun _ => .pure _) fun _ => recognizes_rangeTurns #[]).congr ?_
  intro reading front sizes rest ordered pending
  constructor
  · rintro ⟨_, _, _, rfl, ⟨opening, rfl, opens⟩, token, _, behind, rfl, ⟨rfl, seen⟩, ended⟩
    rcases ended with ⟨closes, _, _, _, rfl, read, rfl, rfl⟩ |
      ⟨_, inner, closing, others, rfl, spells, closes, rfl⟩
    · rcases read with ⟨closing, rfl, rfl⟩ | ⟨rfl, none, rfl, _⟩
      · have regular := ordered.regular pending (List.mem_cons_of_mem _ (.head _))
        obtain ⟨_, _, same, rfl⟩ | ⟨same, _⟩ := seen
        · obtain ⟨rfl, _⟩ := List.cons.inj same
          exact ⟨opening, [], closing, rfl, opens, regular.sign (.inr (.inr rfl)) closes,
            .inl ⟨rfl, rfl⟩⟩
        · cases same
      · obtain ⟨_, _, same, _⟩ | ⟨_, rfl, _⟩ := seen
        · have ended : rest = [] := none
          rw [ended] at same
          cases same
        · exact absurd closes (by decide)
    · exact ⟨opening, inner, closing, rfl, opens, closes, .inr (by simpa using spells)⟩
  · rintro ⟨opening, inner, closing, rfl, opens, closes, ⟨rfl, rfl⟩ | spells⟩
    · exact ⟨(), [opening], [closing], rfl, ⟨opening, rfl, opens⟩, closing.token, [], [closing],
        rfl, ⟨rfl, .inl ⟨closing, rest, rfl, rfl⟩⟩, .inl ⟨congrArg Token.text closes,
          closing.token, [closing], [], rfl, .inl ⟨closing, rfl, rfl⟩, rfl, rfl⟩⟩
    · obtain ⟨first, tail, rfl, begins⟩ := spellsIntegers_cons spells
      have regular := ordered.regular pending (List.mem_cons_of_mem _ (.head _))
      have inside : first.token.text ≠ ")" := by
        intro same
        have mark := regular.sign (.inr (.inr rfl)) same
        rcases begins with kind | minus
        · rw [mark] at kind
          cases kind
        · exact absurd (minus.symm.trans mark) (by decide)
      exact ⟨(), [opening], first :: tail ++ [closing], rfl, ⟨opening, rfl, opens⟩, first.token, [],
        _, rfl, ⟨rfl, .inl ⟨first, _, rfl, rfl⟩⟩,
        .inr ⟨inside, first :: tail, closing, sizes, rfl, spells, closes, by simp⟩⟩

theorem writable_of_spells {front : List Lexeme} {size : Int} (spells : SpellsInteger front size)
    (regular : ∀ lexeme ∈ front, lexeme.token.Regular) : (Numeral.decimal? size).isSome = true := by
  cases spells with
  | plain kind => exact ((regular _ (.head _)).integer kind).2
  | minus signed kind =>
      exact Numeral.isSome_decimal?_neg ((regular _ (.tail _ (.head _))).integer kind).2

theorem joinDecimals?_eq {sizes : List Int}
    (writable : ∀ size ∈ sizes, (Numeral.decimal? size).isSome = true) :
    joinDecimals? sizes = some (", ".intercalate (sizes.map toString)) := by
  have written : sizes.mapM Numeral.decimal? = some (sizes.map toString) := by
    induction sizes with
    | nil => rfl
    | cons size rest ih =>
        rw [List.mapM_cons, Numeral.decimal?_eq_toString (writable size List.mem_cons_self),
          ih fun size member => writable size (.tail _ member)]
        rfl
  rw [joinDecimals?, written]
  rfl

theorem writable_of_spellsIntegers {front : List Lexeme} {sizes : List Int}
    (spells : SpellsIntegers front sizes) (regular : ∀ lexeme ∈ front, lexeme.token.Regular) :
    ∀ size ∈ sizes, (Numeral.decimal? size).isSome = true := by
  induction spells with
  | last spells =>
      intro size member
      rw [List.mem_singleton.mp member]
      exact writable_of_spells spells regular
  | more spells parts others ih =>
      intro size member
      rcases List.mem_cons.mp member with rfl | later
      · exact writable_of_spells spells fun lexeme inside =>
          regular lexeme (List.mem_append_left _ inside)
      · exact ih (fun lexeme inside => regular lexeme (by simp [inside])) size later

theorem spellsRange_iff {front : List Lexeme} {leaf : Leaf} : SpellsRange front leaf ↔
    ∃ opening inner closing sizes, front = opening :: (inner ++ [closing]) ∧
      opening.token = .punct "(" ∧ closing.token = .punct ")" ∧ SpellsIntegers inner sizes ∧
        (sizes.length = 1 ∨ sizes.length = 2) ∧ leaf = .range sizes := by
  constructor
  · intro spells
    cases spells with
    | @one opening closing bound hi opens upper closes =>
        exact ⟨opening, bound, closing, [hi], rfl, opens, closes, .last upper, .inl rfl, rfl⟩
    | @two opening comma closing first second lo hi opens lower parts upper closes =>
        exact ⟨opening, first ++ comma :: second, closing, [lo, hi], by simp, opens, closes,
          .more lower parts (.last upper), .inr rfl, rfl⟩
  · rintro ⟨opening, inner, closing, sizes, rfl, opens, closes, spells, count, rfl⟩
    cases spells with
    | last upper => exact .one opens upper closes
    | more lower parts others =>
        cases others with
        | last upper =>
            rw [List.append_assoc, List.cons_append]
            exact .two opens lower parts upper closes
        | more middle other later =>
            cases later <;> simp at count

/-- The leaf of a range is made if its arguments can be written. -/
theorem recognizes_rangeLeaf (sizes : List Int) : Recognizes
    (match joinDecimals? sizes with
      | none => fail .numeral
      | some shown => pure (⟨"range", shown, .draw sizes⟩ : Leaf)) ending Ordered
    fun front leaf _ => front = [] ∧ ∃ shown, joinDecimals? sizes = some shown ∧
      leaf = ⟨"range", shown, .draw sizes⟩ := by
  cases joinDecimals? sizes with
  | none => exact (Recognizes.fail _).congr fun _ front leaf rest _ _ => by simp
  | some shown => exact (Recognizes.pure _).congr fun _ front leaf rest _ _ => by simp

theorem recognizes_range : range.Recognizes ending Ordered fun front leaf _ =>
    SpellsRange front leaf := by
  refine (recognizes_rangeArguments.seq fun sizes => .ite (fun _ => recognizes_rangeLeaf sizes)
    fun _ => .reject _).congr ?_
  intro reading front leaf rest ordered pending
  have regular (lexeme : Lexeme) (member : lexeme ∈ front) := ordered.regular pending member
  rw [spellsRange_iff]
  constructor
  · rintro ⟨sizes, _, _, rfl, ⟨opening, inner, closing, rfl, opens, closes, ⟨_, rfl⟩ | spells⟩,
      ⟨count, rfl, shown, written, rfl⟩ | ⟨_, none⟩⟩
    · exact absurd count (by decide)
    · exact none.elim
    · have writable := writable_of_spellsIntegers spells fun lexeme inside =>
        regular lexeme (by simp [inside])
      obtain rfl := Option.some.inj (written.symm.trans (joinDecimals?_eq writable))
      exact ⟨opening, inner, closing, sizes, by simp, opens, closes, spells, count, rfl⟩
    · exact none.elim
  · rintro ⟨opening, inner, closing, sizes, rfl, opens, closes, spells, count, rfl⟩
    have writable := writable_of_spellsIntegers spells fun lexeme inside =>
      regular lexeme (by simp [inside])
    exact ⟨sizes, _, [], (List.append_nil _).symm, ⟨opening, inner, closing, rfl, opens, closes,
      .inr spells⟩, .inl ⟨count, rfl, _, joinDecimals?_eq writable, rfl⟩⟩

end PhraseGrammar.Reader
