import PhraseGrammar.Rules.Reader

/-!
# Postconditions of readers

A reader ensures a property if all its results have it, wherever it starts.
Sequences and loops inherit what their parts ensure.
-/

namespace PhraseGrammar.Reader

variable {α β σ : Type}

/-- Every result of the reader has the property; nothing is said about failures. -/
def Ensures (reader : Reader α) (property : α → Prop) : Prop :=
  ∀ reading value after, reader.run reading = (.ok value, after) → property value

namespace Ensures

theorem anything (reader : Reader α) : reader.Ensures fun _ => True :=
  fun _ _ _ _ => trivial

theorem pure {value : α} {property : α → Prop} (holds : property value) :
    (pure value : Reader α).Ensures property := by
  intro reading result after ran
  cases ran
  exact holds

theorem fail (failure : ParseFailure) (property : α → Prop) :
    (fail failure : Reader α).Ensures property := by
  intro reading value after ran
  cases ran

theorem reject (cause : Cause) (property : α → Prop) :
    (reject cause : Reader α).Ensures property := by
  intro reading value after ran
  cases ran

theorem ofExcept {result : Except ParseFailure α} {property : α → Prop}
    (holds : ∀ value, result = .ok value → property value) :
    (ofExcept result).Ensures property := by
  intro reading value after ran
  exact holds value (congrArg Prod.fst ran)

theorem bind {first : Reader α} {second : α → Reader β} {middle : α → Prop} {property : β → Prop}
    (before : first.Ensures middle) (further : ∀ value, middle value →
      (second value).Ensures property) : (first >>= second).Ensures property := by
  intro reading result last ran
  rw [run_bind] at ran
  cases started : first.run reading with
  | mk outcome after =>
      rw [started] at ran
      cases outcome with
      | error failure => cases ran
      | ok value => exact further value (before reading value after started) after result last ran

/-- What stands before the last reader of a sequence may be left unexamined. -/
theorem seq {first : Reader α} {second : α → Reader β} {property : β → Prop}
    (further : ∀ value, (second value).Ensures property) : (first >>= second).Ensures property :=
  (anything first).bind fun value _ => further value

theorem orAtPlace {reader : Reader α} {property : α → Prop} (ensured : reader.Ensures property) :
    reader.orAtPlace.Ensures property := by
  intro reading value after ran
  simp only [Reader.orAtPlace] at ran
  cases started : reader.run reading with
  | mk outcome next =>
      rw [started] at ran
      cases outcome with
      | error failure => cases ran
      | ok result =>
          cases ran
          exact ensured reading value after started

/-- What a turn of a loop has to keep, and what its last turn has to establish. -/
def Round (invariant : σ → Prop) (property : β → Prop) : Turn σ β → Prop
  | .again state => invariant state
  | .done result => property result

theorem eachToken {finish : σ → Reader β} {turn : σ → Token → Reader (Turn σ β)}
    (invariant : σ → Prop) {property : β → Prop}
    (ends : ∀ state, invariant state → (finish state).Ensures property)
    (turns : ∀ state token, invariant state →
      (turn state token).Ensures (Round invariant property))
    {state : σ} (begins : invariant state) : (eachToken finish turn state).Ensures property := by
  intro reading
  rw [run_eachToken]
  fun_induction loop finish turn state reading with
  | case1 state reading ended =>
      exact (anything next).bind (fun _ _ => ends state begins) reading
  | case2 state reading lexeme rest pending failure after ran =>
      intro value last finished
      cases finished
  | case3 state reading lexeme rest pending result after ran =>
      intro value last finished
      cases finished
      exact turns state lexeme.token begins _ _ _ ran
  | case4 state reading lexeme rest pending further after ran shorter ih =>
      exact ih (turns state lexeme.token begins _ _ _ ran)

end Ensures

end PhraseGrammar.Reader
