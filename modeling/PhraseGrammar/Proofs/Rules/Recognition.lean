import PhraseGrammar.Proofs.Token.Lexemes
import PhraseGrammar.Rules.Reader

/-!
# Recognition

A reader recognizes a notion if it succeeds exactly on the lexemes that the
notion allows, with the result and the remaining lexemes that it says. A loop
recognizes what its turns add up to.
-/

namespace PhraseGrammar

/-- The lexemes that a reading has before it, and how the text ends. -/
structure Reading.Sees (reading : Reading) (pending : List Lexeme) (ending : Ending) : Prop where
  pending_eq : reading.pending = pending
  ending_eq : reading.ending = ending

/-- The text ends with no literal or comment left open. -/
def Ending.Closed (ending : Ending) : Prop :=
  ∃ place, ending = .eof place

namespace Reading.Sees

variable {reading : Reading} {lexeme : Lexeme} {rest : List Lexeme} {ending : Ending}

theorem pass (sees : reading.Sees (lexeme :: rest) ending) :
    (reading.pass lexeme rest).Sees rest ending :=
  ⟨rfl, sees.ending_eq⟩

theorem next_eq (sees : reading.Sees (lexeme :: rest) ending) :
    reading.next = (.ok lexeme.token, reading.pass lexeme rest) := by
  rw [Reading.next, sees.pending_eq]

theorem upcoming_eq (sees : reading.Sees (lexeme :: rest) ending) :
    reading.upcoming = .ok lexeme.token := by
  rw [upcoming, sees.next_eq]

/-- The end of the text can be read if nothing is left open, and it remains the end. -/
theorem next_of_nil (sees : reading.Sees [] ending) {token : Token} {after : Reading}
    (read : reading.next = (.ok token, after)) :
    token = .eof ∧ after.Sees [] ending ∧ ending.Closed := by
  rw [Reading.next, sees.pending_eq] at read
  cases ended : reading.ending with
  | eof place =>
      simp only [ended, Prod.mk.injEq, Except.ok.injEq] at read
      obtain ⟨rfl, rfl⟩ := read
      have same := ended.symm.trans sees.ending_eq
      exact ⟨rfl, ⟨rfl, same⟩, place, same.symm⟩
  | unterminated form place => simp [ended] at read

theorem exists_next_of_nil (sees : reading.Sees [] ending) (closed : ending.Closed) :
    ∃ after, reading.next = (.ok .eof, after) ∧ after.Sees [] ending := by
  obtain ⟨place, rfl⟩ := closed
  rw [Reading.next, sees.pending_eq]
  simp only [sees.ending_eq]
  exact ⟨_, rfl, rfl, rfl⟩

end Reading.Sees

namespace Reader

variable {α β σ : Type}

/-- The reader gives the result and leaves the remaining lexemes. -/
def Gives (reader : Reader α) (reading : Reading) (value : α) (rest : List Lexeme)
    (ending : Ending) : Prop :=
  ∃ after, reader.run reading = (.ok value, after) ∧ after.Sees rest ending

theorem run_bind_eq_ok {first : Reader α} {second : α → Reader β} {reading after : Reading}
    {result : β} (ran : (first >>= second).run reading = (.ok result, after)) :
    ∃ value between, first.run reading = (.ok value, between) ∧
      (second value).run between = (.ok result, after) := by
  rw [run_bind] at ran
  cases started : first.run reading with
  | mk outcome between =>
      rw [started] at ran
      cases outcome with
      | error failure => cases ran
      | ok value => exact ⟨value, between, rfl, ran⟩

theorem run_bind_of_ok {first : Reader α} {second : α → Reader β} {reading between : Reading}
    {value : α} (ran : first.run reading = (.ok value, between)) :
    (first >>= second).run reading = (second value).run between := by
  rw [run_bind, ran]

/--
From readings of a kind the reader consumes some lexemes, which together with
its result and the remaining ones are as the form says; whatever is of that
form it accepts.
-/
structure Recognizes (reader : Reader α) (ending : Ending) (start : Reading → Prop)
    (form : List Lexeme → α → List Lexeme → Prop) : Prop where
  sound {reading after : Reading} {pending : List Lexeme} {value : α}
    (sees : reading.Sees pending ending) (starts : start reading)
    (ran : reader.run reading = (.ok value, after)) :
    ∃ front rest, pending = front ++ rest ∧ after.Sees rest ending ∧ form front value rest
  complete {reading : Reading} {front rest : List Lexeme} {value : α}
    (sees : reading.Sees (front ++ rest) ending) (starts : start reading)
    (fits : form front value rest) : reader.Gives reading value rest ending

/-- A reading whose lexemes are in order. -/
def Ordered (reading : Reading) : Prop :=
  Orderly reading.pending

/-- A reading immediately behind a lexeme. -/
def Behind (lexeme : Lexeme) (reading : Reading) : Prop :=
  reading.follow = lexeme.follow ∧ Orderly (lexeme :: reading.pending)

theorem Behind.ordered {lexeme : Lexeme} {reading : Reading} (behind : Behind lexeme reading) :
    Ordered reading := by
  cases behind.2 with
  | cons regular adjacent others => exact others

theorem Behind.regular {lexeme : Lexeme} {reading : Reading} (behind : Behind lexeme reading) :
    lexeme.token.Regular :=
  behind.2.regular List.mem_cons_self

theorem Ordered.regular {reading : Reading} (ordered : Ordered reading)
    {front rest : List Lexeme} (pending : reading.pending = front ++ rest) {lexeme : Lexeme}
    (member : lexeme ∈ front) : lexeme.token.Regular := by
  refine Orderly.regular ordered ?_
  rw [pending]
  exact List.mem_append_left rest member

theorem Ordered.behind {lexeme : Lexeme} {rest : List Lexeme} {reading : Reading}
    (ordered : Ordered reading) (pending : reading.pending = lexeme :: rest) :
    Behind lexeme (reading.pass lexeme rest) := by
  refine ⟨rfl, ?_⟩
  rw [Ordered, pending] at ordered
  exact ordered

theorem Ordered.of_sees {reading after : Reading} {front rest : List Lexeme} {ending : Ending}
    (ordered : Ordered reading) (sees : reading.Sees (front ++ rest) ending)
    (left : after.Sees rest ending) : Ordered after := by
  rw [Ordered, sees.pending_eq] at ordered
  rw [Ordered, left.pending_eq]
  exact ordered.of_append

/-! ## Elementary readers and their combinations -/

namespace Recognizes

variable {ending : Ending} {start : Reading → Prop}

/-- Forms that say the same of the lexemes of a reading are recognized alike. -/
theorem congr {reader : Reader α} {form other : List Lexeme → α → List Lexeme → Prop}
    (recognizes : reader.Recognizes ending start form)
    (same : ∀ reading front value rest, start reading → reading.pending = front ++ rest →
      (form front value rest ↔ other front value rest)) :
    reader.Recognizes ending start other where
  sound := by
    intro reading after pending value sees starts ran
    obtain ⟨front, rest, whole, left, fits⟩ := recognizes.sound sees starts ran
    have equal := same reading front value rest starts (sees.pending_eq.trans whole)
    exact ⟨front, rest, whole, left, equal.mp fits⟩
  complete := by
    intro reading front rest value sees starts fits
    exact recognizes.complete sees starts
      ((same reading front value rest starts sees.pending_eq).mpr fits)

theorem of_ordered {reader : Reader α} {form : List Lexeme → α → List Lexeme → Prop}
    (recognizes : reader.Recognizes ending Ordered form) (lexeme : Lexeme) :
    reader.Recognizes ending (Behind lexeme) form :=
  ⟨fun sees behind => recognizes.sound sees behind.ordered,
    fun sees behind => recognizes.complete sees behind.ordered⟩

theorem still (result : Except ParseFailure α) :
    (ofExcept result).Recognizes ending start fun front value _ =>
      front = [] ∧ result = .ok value where
  sound := by
    intro reading after pending value sees starts ran
    cases ran
    exact ⟨[], pending, rfl, sees, rfl, rfl⟩
  complete := by
    rintro reading front rest value sees starts ⟨rfl, rfl⟩
    exact ⟨reading, rfl, sees⟩

theorem pure (result : α) : (pure result : Reader α).Recognizes ending start
    fun front value _ => front = [] ∧ value = result :=
  (still (.ok result)).congr fun _ front value rest _ _ => by simp [eq_comm]

/-- A reader that gives nothing recognizes nothing. -/
theorem of_fails {reader : Reader α}
    (fails : ∀ reading value after, reader.run reading ≠ (.ok value, after)) :
    reader.Recognizes ending start fun _ _ _ => False where
  sound := by
    intro reading after pending value sees starts ran
    exact absurd ran (fails reading value after)
  complete := by
    intro reading front rest value sees starts fits
    exact fits.elim

theorem reject (cause : Cause) :
    (reject cause : Reader α).Recognizes ending start fun _ _ _ => False :=
  of_fails fun _ _ _ => nofun

theorem fail (failure : ParseFailure) :
    (fail failure : Reader α).Recognizes ending start fun _ _ _ => False :=
  of_fails fun _ _ _ => nofun

/-- A token, or the end of a text without anything left open. -/
theorem next : next.Recognizes ending start fun front token rest =>
    (∃ lexeme, front = [lexeme] ∧ token = lexeme.token) ∨
      (front = [] ∧ rest = [] ∧ token = .eof ∧ ending.Closed) where
  sound := by
    intro reading after pending token sees starts ran
    cases pending with
    | nil =>
        obtain ⟨rfl, left, closed⟩ := sees.next_of_nil ran
        exact ⟨[], [], rfl, left, .inr ⟨rfl, rfl, rfl, closed⟩⟩
    | cons lexeme rest =>
        cases sees.next_eq.symm.trans ran
        exact ⟨[lexeme], rest, rfl, sees.pass, .inl ⟨lexeme, rfl, rfl⟩⟩
  complete := by
    intro reading front rest token sees starts fits
    rcases fits with ⟨lexeme, rfl, rfl⟩ | ⟨rfl, rfl, rfl, closed⟩
    · exact ⟨_, sees.next_eq, sees.pass⟩
    · exact sees.exists_next_of_nil closed

/-- What comes next, left where it is. -/
theorem peek : peek.Recognizes ending start fun front token rest => front = [] ∧
    ((∃ lexeme others, rest = lexeme :: others ∧ token = lexeme.token) ∨
      (rest = [] ∧ token = .eof ∧ ending.Closed)) where
  sound := by
    intro reading after pending token sees starts ran
    obtain ⟨found, same⟩ := Prod.mk.inj ran
    refine ⟨[], pending, rfl, same ▸ sees, rfl, ?_⟩
    cases pending with
    | nil =>
        have read : reading.next = (.ok token, reading.next.2) := Prod.ext found rfl
        obtain ⟨rfl, _, closed⟩ := sees.next_of_nil read
        exact .inr ⟨rfl, rfl, closed⟩
    | cons lexeme rest =>
        obtain rfl := Except.ok.inj (sees.upcoming_eq.symm.trans found)
        exact .inl ⟨lexeme, rest, rfl, rfl⟩
  complete := by
    rintro reading front rest token sees starts ⟨rfl, ⟨lexeme, others, rfl, rfl⟩ | ⟨rfl, rfl, closed⟩⟩
    · exact ⟨reading, Prod.ext sees.upcoming_eq rfl, sees⟩
    · obtain ⟨after, read, _⟩ := sees.exists_next_of_nil closed
      have seen : reading.upcoming = .ok .eof := congrArg Prod.fst read
      exact ⟨reading, Prod.ext seen rfl, sees⟩

theorem follow (lexeme : Lexeme) : follow.Recognizes ending (Behind lexeme) fun front value _ =>
    front = [] ∧ value = lexeme.follow where
  sound := by
    intro reading after pending value sees behind ran
    cases ran
    exact ⟨[], pending, rfl, sees, rfl, behind.1⟩
  complete := by
    rintro reading front rest value sees behind ⟨rfl, rfl⟩
    exact ⟨reading, Prod.ext (congrArg Except.ok behind.1) rfl, sees⟩

theorem note (event : Event) :
    (note event).Recognizes ending start fun front _ _ => front = [] where
  sound := by
    intro reading after pending value sees starts ran
    cases ran
    exact ⟨[], pending, rfl, ⟨sees.pending_eq, sees.ending_eq⟩, rfl⟩
  complete := by
    rintro reading front rest value sees starts rfl
    exact ⟨_, rfl, sees.pending_eq, sees.ending_eq⟩

theorem ite {condition : Prop} {decision : Decidable condition} {first second : Reader α}
    {yes no : List Lexeme → α → List Lexeme → Prop}
    (holds : condition → first.Recognizes ending start yes)
    (fails : ¬condition → second.Recognizes ending start no) :
    (if condition then first else second).Recognizes ending start fun front value rest =>
      (condition ∧ yes front value rest) ∨ (¬condition ∧ no front value rest) := by
  by_cases known : condition
  · rw [if_pos known]
    exact (holds known).congr fun _ front value rest _ _ => by simp [known]
  · rw [if_neg known]
    exact (fails known).congr fun _ front value rest _ _ => by simp [known]

theorem bind {first : Reader α} {second : α → Reader β}
    {left : List Lexeme → α → List Lexeme → Prop} {right : α → List Lexeme → β → List Lexeme → Prop}
    (before : first.Recognizes ending start left)
    (further : ∀ value, (second value).Recognizes ending Ordered (right value))
    (starts : ∀ reading, start reading → Ordered reading) :
    (first >>= second).Recognizes ending start fun front result rest =>
      ∃ value ahead behind, front = ahead ++ behind ∧ left ahead value (behind ++ rest) ∧
        right value behind result rest where
  sound := by
    intro reading after pending result sees started ran
    obtain ⟨value, between, opened, finished⟩ := run_bind_eq_ok ran
    obtain ⟨ahead, others, rfl, middle, fits⟩ := before.sound sees started opened
    obtain ⟨behind, rest, rfl, last, ends⟩ :=
      (further value).sound middle ((starts _ started).of_sees sees middle) finished
    exact ⟨ahead ++ behind, rest, by simp, last, value, ahead, behind, rfl, fits, ends⟩
  complete := by
    rintro reading front rest result sees started ⟨value, ahead, behind, rfl, fits, ends⟩
    rw [List.append_assoc] at sees
    obtain ⟨between, opened, middle⟩ := before.complete sees started fits
    obtain ⟨after, finished, last⟩ :=
      (further value).complete middle ((starts _ started).of_sees sees middle) ends
    exact ⟨after, (run_bind_of_ok opened).trans finished, last⟩

theorem seq {first : Reader α} {second : α → Reader β}
    {left : List Lexeme → α → List Lexeme → Prop} {right : α → List Lexeme → β → List Lexeme → Prop}
    (before : first.Recognizes ending Ordered left)
    (further : ∀ value, (second value).Recognizes ending Ordered (right value)) :
    (first >>= second).Recognizes ending Ordered fun front result rest =>
      ∃ value ahead behind, front = ahead ++ behind ∧ left ahead value (behind ++ rest) ∧
        right value behind result rest :=
  before.bind further fun _ ordered => ordered

theorem orAtPlace {reader : Reader α} {form : List Lexeme → α → List Lexeme → Prop}
    (recognizes : reader.Recognizes ending start form) :
    reader.orAtPlace.Recognizes ending start form where
  sound := by
    intro reading after pending value sees starts ran
    simp only [Reader.orAtPlace] at ran
    split at ran
    · rename_i found
      cases ran
      exact recognizes.sound sees starts found
    · cases ran
  complete := by
    intro reading front rest value sees starts fits
    obtain ⟨after, ran, left⟩ := recognizes.complete sees starts fits
    refine ⟨after, ?_, left⟩
    simp only [Reader.orAtPlace, ran]

theorem expect (text : String) : (expect text).Recognizes ending Ordered fun front _ _ =>
    ∃ lexeme, front = [lexeme] ∧ lexeme.token = .punct text := by
  refine (next.seq fun token => ite (fun _ => pure ()) fun _ => reject _).congr ?_
  intro _ front value rest _ _
  constructor
  · rintro ⟨token, ahead, behind, rfl, ⟨lexeme, rfl, rfl⟩ | ⟨rfl, _, rfl, _⟩, ended⟩
    · rcases ended with ⟨same, rfl, _⟩ | ⟨_, none⟩
      · exact ⟨lexeme, rfl, same⟩
      · exact none.elim
    · rcases ended with ⟨same, _⟩ | ⟨_, none⟩
      · cases same
      · exact none.elim
  · rintro ⟨lexeme, rfl, same⟩
    exact ⟨lexeme.token, [lexeme], [], rfl, .inl ⟨lexeme, rfl, rfl⟩, .inl ⟨same, rfl, rfl⟩⟩

end Recognizes

/-! ## Loops -/

theorem run_pure_iff (result : β) (reading : Reading) (value : β) (after : Reading) :
    (pure result : Reader β).run reading = (.ok value, after) ↔
      value = result ∧ after = reading := by
  simp [eq_comm]

theorem run_reject_iff (cause : Cause) (reading : Reading) (value : β) (after : Reading) :
    (reject cause : Reader β).run reading = (.ok value, after) ↔ False ∧ after = reading := by
  simp

section Loops

variable {finish : σ → Reader β} {turn : σ → Token → Reader (Turn σ β)} {ending : Ending}
  {final : σ → β → Prop} {turns : σ → Lexeme → List Lexeme → Turn σ β → List Lexeme → Prop}
  {form : σ → List Lexeme → β → List Lexeme → Prop}

variable
  (finishes : ∀ state reading value after,
    (finish state).run reading = (.ok value, after) ↔ final state value ∧ after = reading)
  (turning : ∀ state lexeme,
    (turn state lexeme.token).Recognizes ending (Behind lexeme) (turns state lexeme))
  (nil : ∀ state value rest,
    form state [] value rest ↔ rest = [] ∧ ending.Closed ∧ final state value)
  (cons : ∀ state lexeme tail value rest, form state (lexeme :: tail) value rest ↔
    turns state lexeme tail (.done value) rest ∨
      ∃ further left right, tail = left ++ right ∧
        turns state lexeme left (.again further) (right ++ rest) ∧ form further right value rest)

include finishes turning nil cons

/-- What a loop consumes is of the form, turn by turn. -/
theorem loop_sound {state : σ} {reading after : Reading} {pending : List Lexeme} {value : β}
    (sees : reading.Sees pending ending) (ordered : Ordered reading)
    (ran : loop finish turn state reading = (.ok value, after)) :
    ∃ front rest, pending = front ++ rest ∧ after.Sees rest ending ∧
      form state front value rest := by
  fun_induction loop finish turn state reading generalizing pending with
  | case1 state reading ended =>
      obtain rfl : pending = [] := sees.pending_eq.symm.trans ended
      obtain ⟨token, between, read, finished⟩ := run_bind_eq_ok ran
      obtain ⟨rfl, left, closed⟩ := sees.next_of_nil read
      obtain ⟨done, rfl⟩ := (finishes _ _ _ _).mp finished
      exact ⟨[], [], rfl, left, (nil _ _ _).mpr ⟨rfl, closed, done⟩⟩
  | case2 state reading lexeme rest found failure between turned => cases ran
  | case3 state reading lexeme rest found result between turned =>
      cases ran
      obtain rfl : pending = lexeme :: rest := sees.pending_eq.symm.trans found
      obtain ⟨front, last, rfl, left, fits⟩ :=
        (turning state lexeme).sound sees.pass (ordered.behind found) turned
      exact ⟨lexeme :: front, last, rfl, left, (cons _ _ _ _ _).mpr (.inl fits)⟩
  | case4 state reading lexeme rest found further between turned shorter ih =>
      obtain rfl : pending = lexeme :: rest := sees.pending_eq.symm.trans found
      obtain ⟨front, middle, rfl, left, fits⟩ :=
        (turning state lexeme).sound sees.pass (ordered.behind found) turned
      obtain ⟨others, last, rfl, remaining, whole⟩ :=
        ih left ((ordered.behind found).ordered.of_sees sees.pass left) ran
      refine ⟨lexeme :: (front ++ others), last, by simp, remaining, (cons _ _ _ _ _).mpr ?_⟩
      exact .inr ⟨further, front, others, rfl, fits, whole⟩

/-- A loop consumes whatever is of the form. -/
theorem loop_complete {state : σ} {reading : Reading} {front rest : List Lexeme} {value : β}
    (sees : reading.Sees (front ++ rest) ending) (ordered : Ordered reading)
    (fits : form state front value rest) :
    (Reader.eachToken finish turn state).Gives reading value rest ending := by
  -- The form loses a lexeme at every turn, so that the induction is on its length.
  induction counted : front.length using Nat.strongRecOn generalizing state reading front with
  | ind size ih =>
      cases front with
      | nil =>
          obtain ⟨rfl, closed, done⟩ := (nil _ _ _).mp fits
          obtain ⟨between, read, left⟩ := sees.exists_next_of_nil closed
          refine ⟨between, ?_, left⟩
          rw [run_eachToken, loop_of_nil finish turn state sees.pending_eq,
            run_bind_of_ok (show Reader.next.run reading = _ from read)]
          exact (finishes _ _ _ _).mpr ⟨done, rfl⟩
      | cons lexeme tail =>
          rw [List.cons_append] at sees
          rcases (cons _ _ _ _ _).mp fits with last | ⟨further, left, right, rfl, again, whole⟩
          · obtain ⟨after, ran, remaining⟩ :=
              (turning state lexeme).complete sees.pass (ordered.behind sees.pending_eq) last
            refine ⟨after, ?_, remaining⟩
            rw [run_eachToken, loop_of_cons finish turn state sees.pending_eq]
            simp only [ran]
          · rw [List.append_assoc] at sees
            have behind := ordered.behind sees.pending_eq
            obtain ⟨between, ran, remaining⟩ := (turning state lexeme).complete sees.pass behind again
            have shorter : right.length < size := by
              simp only [List.length_cons, List.length_append] at counted
              omega
            obtain ⟨after, others, last⟩ := ih right.length shorter remaining
              (behind.ordered.of_sees sees.pass remaining) whole rfl
            refine ⟨after, ?_, last⟩
            rw [run_eachToken, loop_of_cons finish turn state sees.pending_eq]
            simp only [ran]
            exact others

/--
A loop recognizes a form that unfolds as the loop does: at the end of the text
it is the final one, and before that a turn's, followed by the form again unless
the turn is the last one.
-/
theorem Recognizes.eachToken (state : σ) :
    (Reader.eachToken finish turn state).Recognizes ending Ordered (form state) where
  sound := by
    intro reading after pending value sees starts ran
    exact loop_sound finishes turning nil cons sees starts ran
  complete := by
    intro reading front rest value sees starts fits
    exact loop_complete finishes turning nil cons sees starts fits

end Loops

end Reader

end PhraseGrammar
