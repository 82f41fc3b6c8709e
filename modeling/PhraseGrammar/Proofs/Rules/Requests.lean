import PhraseGrammar.Proofs.Rules.Accepted
import PhraseGrammar.Proofs.Rules.RangeRecognition

/-!
# How often a reader asks for a token

Whoever asks for a token either consumes one that is still to come or comes to
the end of the text. The end is met at most twice: a rule may leave off there,
and then the next definition is looked for. Everything else that needs a token
and meets the end refuses it. So a whole text is read with at most two requests
more than it has tokens.
-/

namespace PhraseGrammar

/-- The requests made so far together with those that consume the lexemes still to come. -/
def Reading.reach (reading : Reading) : Nat :=
  reading.reads + reading.pending.length

theorem Reading.reach_pass {reading : Reading} {lexeme : Lexeme} {rest : List Lexeme}
    (pending : reading.pending = lexeme :: rest) : (reading.pass lexeme rest).reach = reading.reach := by
  simp only [reach, pass, pending, List.length_cons]
  omega

/-- A request behind the last lexeme is one beyond it. -/
theorem Reading.next_of_nil {reading : Reading} (ended : reading.pending = []) :
    (∀ token, reading.next.1 = .ok token → token = .eof) ∧ reading.next.2.pending = [] ∧
      reading.next.2.reach = reading.reach + 1 := by
  rw [next, ended]
  cases reading.ending with
  | eof place =>
      refine ⟨fun token found => (Except.ok.inj found).symm, rfl, ?_⟩
      rw [reach, reach, ended, Nat.add_right_comm]
  | unterminated form place =>
      refine ⟨fun token found => ?_, rfl, ?_⟩
      · cases found
      · rw [reach, reach, ended, Nat.add_right_comm]

namespace Reader

variable {α β σ : Type} {inside : α → Prop} {inner : β → Prop}

/--
An outcome behind a reading of the given reach. A result with the property came
without a request beyond the last lexeme, any other with one at most, and then
nothing is left.
-/
def Spared (reach : Nat) (inside : α → Prop) : Except ParseFailure α × Reading → Prop
  | (.ok value, after) => after.reach = reach ∨
      ¬inside value ∧ after.pending = [] ∧ after.reach = reach + 1
  | (.error _, after) => after.reach ≤ reach + 2

/-- An outcome where nothing was left to be read: no further request, unless the reader fails. -/
def Rested (reach : Nat) (inside : α → Prop) : Except ParseFailure α × Reading → Prop
  | (.ok value, after) => ¬inside value ∧ after.pending = [] ∧ after.reach = reach
  | (.error _, after) => after.reach ≤ reach + 1

/-- Results with the property come without a request beyond the last lexeme. -/
def Spares (inside : α → Prop) (reader : Reader α) : Prop :=
  ∀ reading, Spared reading.reach inside (reader.run reading)

/-- At the end of the text the reader asks for nothing more, unless it fails. -/
def Rests (inside : α → Prop) (reader : Reader α) : Prop :=
  ∀ reading, reading.pending = [] → Rested reading.reach inside (reader.run reading)

/-- A reader that meets the end only if it fails. -/
abbrev Careful (reader : Reader α) : Prop :=
  Spares (fun _ => True) reader

namespace Rests

theorem pure {value : α} (outside : ¬inside value) : Rests inside (pure value) :=
  fun _ ended => ⟨outside, ended, rfl⟩

theorem reject (cause : Cause) : Rests inside (reject cause) :=
  fun _ _ => Nat.le_succ _

theorem note (event : Event) : Rests (fun _ => False) (note event) :=
  fun _ ended => ⟨id, ended, rfl⟩

theorem seq {first : Reader α} {second : α → Reader β} (before : Rests (fun _ => False) first)
    (further : ∀ value, Rests inner (second value)) : Rests inner (first >>= second) := by
  intro reading ended
  have rested := before reading ended
  rw [run_bind]
  rcases ran : first.run reading with ⟨failure | value, after⟩
  · rw [ran] at rested
    exact rested
  · rw [ran] at rested
    obtain ⟨_, closed, same⟩ := rested
    exact same ▸ further value after closed

/-- A request is refused at the end. -/
theorem asking {second : Token → Reader β} (refused : ∃ cause, second .eof = Reader.reject cause) :
    Rests inner (next >>= second) := by
  intro reading ended
  obtain ⟨cause, refuses⟩ := refused
  obtain ⟨found, _, further⟩ := Reading.next_of_nil ended
  rw [run_bind, run_next]
  rcases ran : reading.next with ⟨failure | token, after⟩
  · rw [ran] at further
    exact Nat.le_of_eq further
  · rw [ran] at found further
    cases found token rfl
    dsimp only
    rw [refuses]
    exact Nat.le_of_eq further

end Rests

namespace Spares

theorem pure (value : α) : Spares inside (pure value) :=
  fun _ => .inl rfl

theorem fail (failure : ParseFailure) : Spares inside (fail failure : Reader α) :=
  fun _ => Nat.le_add_right _ _

theorem reject (cause : Cause) : Spares inside (reject cause : Reader α) :=
  fun _ => Nat.le_add_right _ _

theorem ofExcept (result : Except ParseFailure α) : Spares inside (ofExcept result) := by
  intro reading
  cases result with
  | error failure => exact Nat.le_add_right _ _
  | ok value => exact .inl rfl

theorem follow : Careful follow :=
  fun _ => .inl rfl

theorem note (event : Event) : Careful (note event) :=
  fun _ => .inl rfl

theorem weaken {reader : Reader α} {fewer : α → Prop} (spares : Spares inside reader)
    (implies : ∀ value, fewer value → inside value) : Spares fewer reader := by
  intro reading
  have spared := spares reading
  rcases ran : reader.run reading with ⟨failure | value, after⟩
  · rw [ran] at spared
    exact spared
  · rw [ran] at spared
    exact spared.imp_right fun beyond => ⟨fun member => beyond.1 (implies value member), beyond.2⟩

/-- What comes behind a request beyond the last lexeme makes none itself, unless it fails. -/
theorem bind {first : Reader α} {second : α → Reader β} (before : Spares inside first)
    (further : ∀ value, Spares inner (second value))
    (rests : ∀ value, ¬inside value → Rests inner (second value)) :
    Spares inner (first >>= second) := by
  intro reading
  have spared := before reading
  rw [run_bind]
  rcases ran : first.run reading with ⟨failure | value, after⟩
  · rw [ran] at spared
    exact spared
  · rw [ran] at spared
    rcases spared with same | ⟨outside, ended, beyond⟩
    · exact same ▸ further value after
    · have rested := rests value outside after ended
      rw [beyond] at rested
      dsimp only
      rcases ran : (second value).run after with ⟨failure | result, last⟩
      · rw [ran] at rested
        exact rested
      · rw [ran] at rested
        exact .inr rested

theorem seq {first : Reader α} {second : α → Reader β} (before : Careful first)
    (further : ∀ value, Spares inner (second value)) : Spares inner (first >>= second) :=
  before.bind further fun _ outside => absurd trivial outside

theorem asking {second : Token → Reader β} (further : ∀ token, Spares inner (second token))
    (rests : Rests inner (second .eof)) : Spares inner (next >>= second) := by
  have given : Spares (· ≠ .eof) next := by
    intro reading
    rw [run_next]
    cases pending : reading.pending with
    | cons lexeme rest =>
        rw [Reading.next, pending]
        exact .inl (Reading.reach_pass pending)
    | nil =>
        obtain ⟨found, ended, beyond⟩ := Reading.next_of_nil pending
        rcases ran : reading.next with ⟨failure | token, after⟩
        · rw [ran] at beyond
          exact Nat.le_succ_of_le (Nat.le_of_eq beyond)
        · rw [ran] at found ended beyond
          exact .inr ⟨fun other => other (found token rfl), ended, beyond⟩
  refine given.bind further fun token outside => ?_
  rw [not_not.mp outside]
  exact rests

/-- A request that the end is refused by. -/
theorem demanding {second : Token → Reader β} (further : ∀ token, Spares inner (second token))
    (refused : ∃ cause, second .eof = Reader.reject cause) : Spares inner (next >>= second) := by
  obtain ⟨cause, refuses⟩ := refused
  exact asking further (refuses ▸ .reject cause)

/-- A token that has been seen ahead is consumed without meeting the end. -/
theorem seen {taken other : Reader β} {awaited : Token → Prop} [DecidablePred awaited]
    (some : ¬awaited .eof) (further : Spares inner taken) (otherwise : Spares inner other) :
    Spares inner (peek >>= fun token => if awaited token then next >>= fun _ => taken else other) := by
  intro reading
  rw [run_bind, run_peek, Reading.upcoming]
  rcases ran : reading.next with ⟨failure | token, after⟩
  · exact Nat.le_add_right _ _
  · dsimp only
    split
    · rename_i holds
      cases pending : reading.pending with
      | nil =>
          obtain ⟨found, _⟩ := Reading.next_of_nil pending
          rw [ran] at found
          cases found token rfl
          exact absurd holds some
      | cons lexeme rest =>
          rw [run_bind, run_next, Reading.next, pending]
          exact Reading.reach_pass pending ▸ further (reading.pass lexeme rest)
    · exact otherwise reading

theorem orAtPlace {reader : Reader α} (spares : Spares inside reader) :
    Spares inside reader.orAtPlace := by
  intro reading
  have spared := spares reading
  simp only [Reader.orAtPlace]
  rcases ran : reader.run reading with ⟨failure | value, after⟩
  · rw [ran] at spared
    exact spared
  · rw [ran] at spared
    exact spared

theorem expect (text : String) : Careful (expect text) := by
  refine demanding (fun token => ?_) ⟨_, rfl⟩
  split
  · exact pure ()
  · exact reject _

/-- Turns that go on do so without meeting the end, which comes only where the loop is finished. -/
theorem eachToken {finish : σ → Reader β} {turn : σ → Token → Reader (Turn σ β)}
    (ends : ∀ state, Rests inner (finish state))
    (turns : ∀ state token, Spares (Ensures.Round (fun _ => True) inner) (turn state token))
    (state : σ) : Spares inner (eachToken finish turn state) := by
  intro reading
  rw [run_eachToken]
  have turned (state : σ) {reading : Reading} {lexeme : Lexeme} {rest : List Lexeme}
      (pending : reading.pending = lexeme :: rest) :
      Spared reading.reach (Ensures.Round (fun _ => True) inner)
        ((turn state lexeme.token).run (reading.pass lexeme rest)) :=
    Reading.reach_pass pending ▸ turns state lexeme.token (reading.pass lexeme rest)
  fun_induction loop finish turn state reading with
  | case1 state reading ended =>
      obtain ⟨_, closed, beyond⟩ := Reading.next_of_nil ended
      rw [run_bind, run_next]
      rcases ran : reading.next with ⟨failure | token, after⟩
      · rw [ran] at beyond
        exact Nat.le_succ_of_le (Nat.le_of_eq beyond)
      · rw [ran] at closed beyond
        have rested := ends state after closed
        rw [beyond] at rested
        dsimp only
        rcases ran : (finish state).run after with ⟨failure | result, last⟩
        · rw [ran] at rested
          exact rested
        · rw [ran] at rested
          exact .inr rested
  | case2 state reading lexeme rest pending failure after ran =>
      have spared := turned state pending
      rw [ran] at spared
      exact spared
  | case3 state reading lexeme rest pending result after ran =>
      have spared := turned state pending
      rw [ran] at spared
      exact spared
  | case4 state reading lexeme rest pending further after ran shorter ih =>
      have spared := turned state pending
      rw [ran] at spared
      rcases spared with same | ⟨outside, _⟩
      · exact same ▸ ih
      · exact absurd trivial outside

end Spares

/-! ## The readers of a grammar -/

theorem careful_integer (token : Token) : Careful (integer token) :=
  .ofExcept _

theorem careful_signedInteger (negative : Bool) (numeral : Token) :
    Careful (signedInteger negative numeral) := by
  unfold signedInteger
  split
  · exact .reject _
  · exact (careful_integer numeral).seq fun size => .pure _

theorem careful_argument (token : Token) : Careful (argument token) := by
  unfold argument
  split
  · exact .demanding (careful_signedInteger true) ⟨_, rfl⟩
  · exact careful_signedInteger false token

theorem careful_argumentEnd (arguments : Array Int) : Careful (argumentEnd arguments) := by
  refine .demanding (fun mark => ?_) ⟨_, rfl⟩
  split
  · exact .pure _
  · split
    · exact .pure _
    · exact .reject _

theorem careful_rangeArguments : Careful rangeArguments := by
  refine (Spares.expect "(").seq fun _ => .seen (by decide) (.pure []) ?_
  refine .eachToken (fun _ => .reject _) (fun arguments token => ?_) _
  rw [rangeTurn_eq]
  exact ((careful_argument token).seq fun size => careful_argumentEnd _).weaken fun _ _ => trivial

theorem careful_range : Careful range := by
  refine careful_rangeArguments.seq fun arguments => ?_
  split
  · split
    · exact .fail _
    · exact .pure _
  · exact .reject _

theorem careful_node (token : Token) : Careful (node Registry.default token) := by
  unfold node
  split
  · exact .ofExcept _
  · split
    · exact .ofExcept _
    · split
      · rename_i reader entry
        rw [builtin_eq_range entry]
        exact careful_range.seq fun _ => .pure _
      · split
        · refine .demanding (fun name => ?_) ⟨_, rfl⟩
          split
          · exact .reject _
          · split
            · exact .reject _
            · exact .ofExcept _
        · exact .pure _

/-- The end may stand for the period of a last rule. -/
theorem spares_nodes : Spares (·.2 = true) (nodes Registry.default) := by
  have ends (nodes : Array Node) :
      Rests (·.2 = true) (pure (nodes.toList, false) : Reader (List Node × Bool)) :=
    .pure Bool.false_ne_true
  refine .eachToken ends (fun nodes token => ?_) _
  unfold nodesTurn
  split
  · exact .pure _
  · split
    · exact .pure _
    · exact (careful_node token).orAtPlace.seq fun _ => .pure _

theorem spares_rules (name : String) : Spares (fun _ => False) (rules Registry.default name) := by
  refine .eachToken (fun _ => .reject _) (fun rules token => ?_) _
  unfold rulesTurn
  split
  · refine spares_nodes.bind (fun result => ?_) fun result last => ?_
    · dsimp only
      split <;> exact .pure _
    · dsimp only
      rw [if_neg last]
      exact .pure id
  · exact .reject _

theorem careful_signedNumber (negative : Bool) (token : Token) :
    Careful (signedNumber negative token) := by
  unfold signedNumber
  split
  · exact (careful_integer token).seq fun _ => .pure _
  · split
    · exact .pure _
    · exact .fail _
  · exact .reject _

theorem careful_contextValue : Careful contextValue := by
  refine .demanding (fun token => ?_) ⟨_, rfl⟩
  split
  · exact .demanding (careful_signedNumber true) ⟨_, rfl⟩
  · split
    · exact (Spares.ofExcept _).orAtPlace
    · exact (Spares.ofExcept _).orAtPlace
    · exact careful_signedNumber false token
    · exact careful_signedNumber false token
    · exact .reject _

theorem careful_bindings (name : String) (defaults : Table Value) :
    Careful (bindings name defaults) := by
  refine .eachToken (fun _ => .reject _) (fun defaults token => ?_) _
  unfold bindingsTurn
  split
  · exact .reject _
  · refine (Spares.expect "=").seq fun _ => careful_contextValue.seq fun value => ?_
    refine .demanding (fun mark => ?_) ⟨_, rfl⟩
    split
    · exact .pure _
    · split
      · exact .pure _
      · exact .reject _

theorem careful_contextTurn (table : Table Nonterminal) (token : Token) :
    Careful (contextTurn table token) := by
  unfold contextTurn
  split
  · exact .reject _
  · refine (Spares.expect ":").seq fun _ => ?_
    split
    · exact .reject _
    · exact (careful_bindings _ _).seq fun _ => .pure _

/-- The block of default bindings leaves off at the end. -/
theorem spares_context (table : Table Nonterminal) : Spares (fun _ => False) (context table) := by
  have skips : Careful skipPeriod := .seen (by decide) (.pure ()) (.pure ())
  refine skips.seq fun _ => .eachToken (fun _ => .pure id) (fun table token => ?_) _
  exact (careful_contextTurn table token).weaken fun _ _ => trivial

theorem careful_depthHint (name : String) : Careful (depthHint name) := by
  refine Spares.follow.seq fun mark => ?_
  split
  · have hinted (marker token : Token) : Careful (do
        if token.kind ≠ .int then Reader.reject (.expectedHint name marker.text token)
        else
          let hint ← integer token
          return some hint) := by
      split
      · exact .reject _
      · exact (careful_integer token).seq fun _ => .pure _
    exact .asking (fun marker => .demanding (hinted marker) ⟨_, rfl⟩) (.asking ⟨_, rfl⟩)
  · exact .pure _

theorem rests_define (grammar : Grammar) (nonterminal : Nonterminal) :
    Rests (fun _ => False) (define grammar nonterminal) := by
  unfold define
  split
  · exact (Rests.note _).seq fun _ => (Rests.note _).seq fun _ => .pure id
  · exact (Rests.note _).seq fun _ => .pure id

theorem careful_define (grammar : Grammar) (nonterminal : Nonterminal) :
    Careful (define grammar nonterminal) := by
  unfold define
  split
  · exact (Spares.note _).seq fun _ => (Spares.note _).seq fun _ => .pure _
  · exact (Spares.note _).seq fun _ => .pure _

theorem spares_definitionsTurn (grammar : Grammar) (token : Token) :
    Spares (fun _ => False) (definitionsTurn Registry.default grammar token) := by
  unfold definitionsTurn
  split
  · exact .pure _
  · split
    · exact .reject _
    · refine (careful_depthHint token.text).seq fun hint => ?_
      split
      · exact (spares_context grammar.table).bind (fun table => .pure _) fun table _ => .pure id
      · refine (spares_rules token.text).bind (fun rules => ?_) fun rules _ => ?_
        · exact (careful_define grammar _).seq fun _ => .pure _
        · exact (rests_define grammar _).seq fun _ => .pure id

/-- Where a definition has met the end, the loop of the definitions meets it once more. -/
theorem reach_definitions (reading : Reading) :
    ((definitions Registry.default).run reading).2.reach ≤ reading.reach + 2 := by
  unfold definitions
  rw [run_eachToken]
  generalize (⟨.empty, none⟩ : Grammar) = grammar
  have finished {grammar : Grammar} {reading : Reading} (ended : reading.pending = []) :
      ((next >>= fun _ => (Pure.pure grammar : Reader Grammar)).run reading).2.reach =
        reading.reach + 1 := by
    obtain ⟨_, _, beyond⟩ := Reading.next_of_nil ended
    rw [run_bind, run_next]
    rcases ran : reading.next with ⟨failure | token, after⟩ <;> rwa [ran] at beyond
  have turned {grammar : Grammar} {reading : Reading} {lexeme : Lexeme} {rest : List Lexeme}
      (pending : reading.pending = lexeme :: rest) : Spared reading.reach (fun _ => False)
        ((definitionsTurn Registry.default grammar lexeme.token).run (reading.pass lexeme rest)) :=
    Reading.reach_pass pending ▸ spares_definitionsTurn grammar lexeme.token _
  fun_induction loop pure (definitionsTurn Registry.default) grammar reading with
  | case1 grammar reading ended => exact Nat.le_succ_of_le (Nat.le_of_eq (finished ended))
  | case2 grammar reading lexeme rest pending failure after ran =>
      have spared := @turned grammar _ _ _ pending
      rw [ran] at spared
      exact spared
  | case3 grammar reading lexeme rest pending result after ran =>
      have spared := @turned grammar _ _ _ pending
      rw [ran] at spared
      rcases spared with same | ⟨_, _, beyond⟩
      · exact Nat.le_add_right_of_le (Nat.le_of_eq same)
      · exact Nat.le_succ_of_le (Nat.le_of_eq beyond)
  | case4 grammar reading lexeme rest pending further after ran shorter ih =>
      have spared := @turned grammar _ _ _ pending
      rw [ran] at spared
      rcases spared with same | ⟨_, ended, beyond⟩
      · exact same ▸ ih
      · rw [loop_of_nil _ _ _ ended, finished ended, beyond]

/-- A text is read with at most two requests more than it has tokens. -/
theorem reads_grammar (text : String) :
    ((grammar Registry.default).run (.ofText text)).2.reads ≤ (lexemes text).1.length + 2 := by
  have reached := reach_definitions (.ofText text)
  have initial : (Reading.ofText text).reach = (lexemes text).1.length := Nat.zero_add _
  have unread : ((grammar Registry.default).run (.ofText text)).2.reach =
      ((definitions Registry.default).run (.ofText text)).2.reach := by
    rw [grammar, run_bind]
    rcases (definitions Registry.default).run (.ofText text) with ⟨failure | grammar, after⟩
    · rfl
    · dsimp only
      split <;> rfl
  rw [← unread, initial] at reached
  exact Nat.le_trans (Nat.le_add_right _ _) reached

end Reader

end PhraseGrammar
