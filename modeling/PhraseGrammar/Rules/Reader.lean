import PhraseGrammar.Error
import PhraseGrammar.Event
import PhraseGrammar.Token.Lexeme

/-!
# Readers

A reader goes through the lexemes of a text and yields a result or a failure.
It never puts lexemes back, so that a loop that consumes a token at every turn
comes to an end.
-/

namespace PhraseGrammar

/-- A pass through the lexemes of a text. -/
structure Reading where
  /-- The lexemes still to come. -/
  pending : List Lexeme
  ending : Ending
  /-- Where the last token read begins. -/
  place : Position
  /-- The character immediately after the last token read. -/
  follow : Option Char
  /-- How often a token has been asked for. -/
  reads : Nat
  log : List Event
  deriving Repr

namespace Reading

def ofText (text : String) : Reading :=
  let (pending, ending) := lexemes text
  ⟨pending, ending, .start, text.toList.head?, 0, []⟩

/-- The reading behind its first lexeme. -/
def pass (reading : Reading) (lexeme : Lexeme) (rest : List Lexeme) : Reading :=
  { reading with
    pending := rest
    place := lexeme.place
    follow := lexeme.follow
    reads := reading.reads + 1 }

/-- The end of the text can be read again and again; what is left open never. -/
def next (reading : Reading) : Except ParseFailure Token × Reading :=
  match reading.pending with
  | lexeme :: rest => (.ok lexeme.token, reading.pass lexeme rest)
  | [] =>
      match reading.ending with
      | .eof place =>
          (.ok .eof, { reading with place := place, follow := none, reads := reading.reads + 1 })
      | .unterminated form place =>
          (.error (.located (.unterminated form) place),
            { reading with reads := reading.reads + 1 })

/-- The next token, not consumed. -/
def upcoming (reading : Reading) : Except ParseFailure Token :=
  reading.next.1

theorem next_suffix (reading : Reading) : reading.next.2.pending <:+ reading.pending := by
  unfold next
  split
  · rename_i lexeme rest pending
    rw [pending]
    exact List.suffix_cons lexeme rest
  · split <;> exact List.suffix_refl _

end Reading

structure Reader (α : Type) where
  run : Reading → Except ParseFailure α × Reading
  forward : ∀ reading, (run reading).2.pending <:+ reading.pending

namespace Reader

variable {α β σ : Type}

/-- A reader that leaves the reading alone. -/
def still (result : Reading → Except ParseFailure α) : Reader α where
  run reading := (result reading, reading)
  forward _ := List.suffix_refl _

/-- One reader after the other; a failure ends both. -/
def andThen (first : Reader α) (second : α → Reader β) : Reader β where
  run reading :=
    match first.run reading with
    | (.ok value, reading) => (second value).run reading
    | (.error failure, reading) => (.error failure, reading)
  forward reading := by
    have before := first.forward reading
    split
    · rename_i value between found
      rw [found] at before
      exact ((second value).forward between).trans before
    · rename_i failure between found
      rwa [found] at before

instance : Monad Reader where
  pure value := still fun _ => .ok value
  bind := andThen

@[simp] theorem run_pure (value : α) (reading : Reading) :
    (pure value : Reader α).run reading = (.ok value, reading) := rfl

theorem run_bind (first : Reader α) (second : α → Reader β) (reading : Reading) :
    (first >>= second).run reading =
      match first.run reading with
      | (.ok value, reading) => (second value).run reading
      | (.error failure, reading) => (.error failure, reading) := rfl

/-- Readers that run alike are equal. -/
theorem ext_run {first second : Reader α}
    (alike : ∀ reading, first.run reading = second.run reading) : first = second := by
  cases first
  cases second
  simp only [mk.injEq]
  exact funext alike

theorem bind_pure_id (first : Reader α) : (first >>= fun value => pure value) = first := by
  apply ext_run
  intro reading
  rw [run_bind]
  split <;> rename_i found <;> exact found.symm

theorem andThen_assoc {γ : Type} (first : Reader α) (second : α → Reader β)
    (third : β → Reader γ) :
    first >>= second >>= third = first >>= fun value => second value >>= third := by
  apply ext_run
  intro reading
  rw [run_bind, run_bind, run_bind]
  rcases first.run reading with ⟨_ | _, _⟩ <;> rfl

instance : LawfulMonad Reader :=
  LawfulMonad.mk' Reader bind_pure_id (fun _ _ => rfl) andThen_assoc

def fail (failure : ParseFailure) : Reader α :=
  still fun _ => .error failure

/-- Fails at the place of the last token read. -/
def reject (cause : Cause) : Reader α :=
  still fun reading => .error (.located cause reading.place)

def ofExcept (result : Except ParseFailure α) : Reader α :=
  still fun _ => result

def next : Reader Token where
  run := Reading.next
  forward := Reading.next_suffix

def peek : Reader Token :=
  still Reading.upcoming

/-- The character immediately after the last token read. -/
def follow : Reader (Option Char) :=
  still fun reading => .ok reading.follow

def note (event : Event) : Reader Unit where
  run reading := (.ok (), { reading with log := reading.log ++ [event] })
  forward _ := List.suffix_refl _

/-- Reads a given punctuation character. -/
def expect (text : String) : Reader Unit := do
  let token ← next
  if token = .punct text then return ()
  else reject (.expected text token)

/-- Failures that know no line get the place of the last token read. -/
def orAtPlace (reader : Reader α) : Reader α where
  run reading :=
    match reader.run reading with
    | (.ok value, reading) => (.ok value, reading)
    | (.error failure, reading) => (.error (failure.orAt reading.place), reading)
  forward reading := by
    have before := reader.forward reading
    split <;> simp_all

@[simp] theorem run_reject (cause : Cause) (reading : Reading) :
    (reject cause : Reader α).run reading = (.error (.located cause reading.place), reading) := rfl

@[simp] theorem run_next (reading : Reading) : next.run reading = reading.next := rfl

@[simp] theorem run_peek (reading : Reading) : peek.run reading = (reading.upcoming, reading) := rfl

@[simp] theorem run_follow (reading : Reading) :
    follow.run reading = (.ok reading.follow, reading) := rfl

/-! ## Loops -/

/-- What a turn of a loop comes to. -/
inductive Turn (σ β : Type) where
  | again (state : σ)
  | done (result : β)

theorem turn_length_lt {first : Reader α} {reading after : Reading} {lexeme : Lexeme}
    {rest : List Lexeme} {outcome : Except ParseFailure α}
    (passed : reading.pending = lexeme :: rest)
    (ran : first.run (reading.pass lexeme rest) = (outcome, after)) :
    after.pending.length < reading.pending.length := by
  have bound := (first.forward (reading.pass lexeme rest)).length_le
  rw [ran] at bound
  rw [passed]
  exact Nat.lt_succ_of_le bound

/-- Consumes one token at every turn, until a turn is the last one or the text has ended. -/
def loop (finish : σ → Reader β) (turn : σ → Token → Reader (Turn σ β)) (state : σ)
    (reading : Reading) : Except ParseFailure β × Reading :=
  match passed : reading.pending with
  | [] => (next >>= fun _ => finish state).run reading
  | lexeme :: rest =>
      match ran : (turn state lexeme.token).run (reading.pass lexeme rest) with
      | (.error failure, after) => (.error failure, after)
      | (.ok (.done result), after) => (.ok result, after)
      | (.ok (.again further), after) =>
          have := turn_length_lt passed ran
          loop finish turn further after
termination_by reading.pending.length

theorem loop_suffix (finish : σ → Reader β) (turn : σ → Token → Reader (Turn σ β)) (state : σ)
    (reading : Reading) : (loop finish turn state reading).2.pending <:+ reading.pending := by
  have behind {state : σ} {reading after : Reading} {lexeme : Lexeme} {rest : List Lexeme}
      {outcome : Except ParseFailure (Turn σ β)} (passed : reading.pending = lexeme :: rest)
      (ran : (turn state lexeme.token).run (reading.pass lexeme rest) = (outcome, after)) :
      after.pending <:+ reading.pending := by
    have further := (turn state lexeme.token).forward (reading.pass lexeme rest)
    rw [ran] at further
    rw [passed]
    exact further.trans (List.suffix_cons lexeme rest)
  fun_induction loop finish turn state reading with
  | case1 state reading passed => exact (next >>= fun _ => finish state).forward reading
  | case2 state reading lexeme rest passed failure after ran => exact behind passed ran
  | case3 state reading lexeme rest passed result after ran => exact behind passed ran
  | case4 state reading lexeme rest passed further after ran shorter ih =>
      exact ih.trans (behind passed ran)

/--
Reads token after token. `turn` sees each token but the end, consumed; `finish`
comes after the end of the text has been read.
-/
def eachToken (finish : σ → Reader β) (turn : σ → Token → Reader (Turn σ β)) (state : σ) :
    Reader β where
  run := loop finish turn state
  forward := loop_suffix finish turn state

@[simp] theorem run_eachToken (finish : σ → Reader β)
    (turn : σ → Token → Reader (Turn σ β)) (state : σ) (reading : Reading) :
    (eachToken finish turn state).run reading = loop finish turn state reading := rfl

/-- After the last lexeme a loop reads the end of the text and finishes. -/
theorem loop_of_nil (finish : σ → Reader β) (turn : σ → Token → Reader (Turn σ β)) (state : σ)
    {reading : Reading} (ended : reading.pending = []) :
    loop finish turn state reading = (next >>= fun _ => finish state).run reading := by
  rw [loop]
  split
  · rfl
  · simp_all

/-- Before that it takes one turn and goes on as the turn says. -/
theorem loop_of_cons (finish : σ → Reader β) (turn : σ → Token → Reader (Turn σ β)) (state : σ)
    {reading : Reading} {lexeme : Lexeme} {rest : List Lexeme}
    (pending : reading.pending = lexeme :: rest) :
    loop finish turn state reading =
      match (turn state lexeme.token).run (reading.pass lexeme rest) with
      | (.error failure, after) => (.error failure, after)
      | (.ok (.done result), after) => (.ok result, after)
      | (.ok (.again further), after) => loop finish turn further after := by
  rw [loop]
  split
  · simp_all
  · rename_i other others same
    obtain ⟨rfl, rfl⟩ := List.cons.inj (pending.symm.trans same)
    split <;> simp_all

end Reader

end PhraseGrammar
