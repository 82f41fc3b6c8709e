import PhraseGrammar.Proofs.Rules.Accepted
import PhraseGrammar.Proofs.Rules.Kinship

/-!
# Layout

Two texts with the same tokens, whose identifiers are followed by depth markers
in the same places and which leave the same open at the end, have the same
grammar or fail for the same cause. Readings that differ in places and gaps only
are kindred from their first token to their last, so that not only the readers
of definitions tally on them, but those of default bindings as well.
-/

namespace PhraseGrammar

/-- The same result, or failures that are the same but for their places. -/
inductive SameOutcome {α : Type} : Except ParseFailure α → Except ParseFailure α → Prop where
  | ok (value : α) : SameOutcome (.ok value) (.ok value)
  | error {failure other : ParseFailure} (same : failure.SameButPlace other) :
      SameOutcome (.error failure) (.error other)

/--
Two readings that have the same before them, apart from layout, and if the past
counts also the same behind them.
-/
structure Reading.Alike (past : Prop) (first second : Reading) : Prop where
  pending : first.pending.map Lexeme.essence = second.pending.map Lexeme.essence
  ending : first.ending.unclosed? = second.ending.unclosed?
  reads (counts : past) : first.reads = second.reads
  log (counts : past) : first.log = second.log

namespace Reading.Alike

variable {past : Prop} {first second : Reading}

/-- Alike readings go on with the same token, behind which they are alike again. -/
theorem of_cons (alike : first.Alike past second) {lexeme : Lexeme} {rest : List Lexeme}
    (pending : first.pending = lexeme :: rest) :
    ∃ other others, second.pending = other :: others ∧ other.token = lexeme.token ∧
      (lexeme.token.kind = .ident → (OpensHint lexeme.follow ↔ OpensHint other.follow)) ∧
        (first.pass lexeme rest).Alike past (second.pass other others) := by
  obtain ⟨other, others, split, token, marks, tail⟩ :=
    Lexeme.of_map_essence (alike.pending.symm.trans (congrArg _ pending))
  exact ⟨other, others, split, token, marks, tail.symm, alike.ending,
    fun counts => congrArg (· + 1) (alike.reads counts), alike.log⟩

/-- At the end the same is left open. -/
theorem of_nil (alike : first.Alike past second) (pending : first.pending = []) :
    second.pending = [] ∧
      Reader.Agree (fun _ => Alike past) (Alike past) first.next second.next := by
  have split : second.pending = [] := by
    have same := alike.pending
    rwa [pending, List.map_nil, eq_comm, List.map_eq_nil_iff] at same
  have reads := fun counts => congrArg (· + 1) (alike.reads counts)
  have unclosed := alike.ending
  refine ⟨split, ?_⟩
  cases left : first.ending with
  | eof place =>
      cases right : second.ending with
      | eof further =>
          simp only [Reading.next, pending, split, left, right]
          exact .ok ⟨rfl, rfl, reads, alike.log⟩
      | unterminated form further =>
          rw [left, right] at unclosed
          cases unclosed
  | unterminated form place =>
      cases right : second.ending with
      | eof further =>
          rw [left, right] at unclosed
          cases unclosed
      | unterminated other further =>
          rw [left, right] at unclosed
          cases unclosed
          simp only [Reading.next, pending, split, left, right]
          exact .error (.located _ place further) ⟨rfl, rfl, reads, alike.log⟩

theorem note (alike : first.Alike past second) (event : Event) :
    Alike past { first with log := first.log ++ [event] }
      { second with log := second.log ++ [event] } :=
  ⟨alike.pending, alike.ending, alike.reads,
    fun counts => congrArg (· ++ [event]) (alike.log counts)⟩

end Reading.Alike

/-- Alike readings stay so, in a definition and behind it. -/
def Kinship.layout (past : Prop) : Kinship where
  inner := Reading.Alike past
  outer := Reading.Alike past
  torn := Reading.Alike past
  next_of_cons alike pending := by
    rw [ite_self]
    exact alike.of_cons pending
  next_of_nil alike pending := by
    simp only [and_self]
    exact alike.of_nil pending
  note event alike := alike.note event
  torn_of_inner alike := alike
  torn_of_outer alike := alike

namespace Kinship

variable {past : Prop} {α β σ : Type}

@[simp] theorem behind_layout (token : Token) :
    (layout past).behind token = Reading.Alike past :=
  ite_self _

open Reader

namespace Keeps

theorem pure (value : α) : (layout past).Keeps (pure value : Reader α) :=
  Tallies.pure fun _ _ alike => alike

theorem fail (failure : ParseFailure) : (layout past).Keeps (fail failure : Reader α) :=
  Tallies.fail _ fun _ _ alike => alike

theorem reject (cause : Cause) : (layout past).Keeps (reject cause : Reader α) :=
  Tallies.reject _ fun _ _ alike => alike

theorem ofExcept (result : Except ParseFailure α) : (layout past).Keeps (ofExcept result) :=
  Tallies.ofExcept (fun _ _ _ _ alike => alike) fun _ _ alike => alike

theorem next : (layout past).Keeps next := by
  refine Tallies.next.weaken (fun _ _ alike => alike) fun token _ _ kindred => ?_
  rwa [behind_layout] at kindred

theorem bind {before : Reader α} {further : α → Reader β} (begins : (layout past).Keeps before)
    (goes_on : ∀ value, (layout past).Keeps (further value)) :
    (layout past).Keeps (before >>= further) :=
  Tallies.bind begins goes_on

/-- The turns of a loop stand right behind the tokens that they see. -/
theorem eachToken {finish : σ → Reader α} {turn : σ → Token → Reader (Turn σ α)}
    (ends : ∀ state, (layout past).Keeps (finish state))
    (turns : ∀ state token, (layout past).Tallies
      (fun left right => left.Alike past right ∧
        (token.kind = .ident → (OpensHint left.follow ↔ OpensHint right.follow)))
      (turn state token) fun _ => Reading.Alike past) (state : σ) :
    (layout past).Keeps (eachToken finish turn state) := by
  refine Tallies.eachToken (fun state => ?_) (fun state token => ?_) state
  · exact (ends state).weaken (fun _ _ both => both.1) fun _ _ _ alike => alike
  · rw [behind_layout]
    refine (turns state token).weaken (fun _ _ passed => passed) fun outcome _ _ alike => ?_
    cases outcome <;> exact alike

end Keeps

theorem keeps_signedNumber (negative : Bool) (token : Token) :
    (layout past).Keeps (signedNumber negative token) := by
  unfold signedNumber
  split
  · exact (keeps_integer _ token).bind fun size => .pure _
  · split
    · exact .pure _
    · exact .fail _
  · exact .reject _

theorem keeps_contextValue : (layout past).Keeps contextValue := by
  refine Keeps.next.bind fun token => ?_
  split
  · exact Keeps.next.bind fun number => keeps_signedNumber true number
  · split
    · exact (Keeps.ofExcept _).orAtPlace
    · exact (Keeps.ofExcept _).orAtPlace
    · exact keeps_signedNumber false token
    · exact keeps_signedNumber false token
    · exact .reject _

theorem keeps_bindings (name : String) (defaults : Table Value) :
    (layout past).Keeps (bindings name defaults) := by
  refine Keeps.eachToken (fun _ => .reject _) (fun defaults token => Tallies.turn ?_) _
  unfold bindingsTurn
  split
  · exact Keeps.reject _
  · refine Keeps.bind (Tallies.expect (by decide)) fun _ => keeps_contextValue.bind fun value =>
      Keeps.next.bind fun mark => ?_
    split
    · exact .pure _
    · split
      · exact .pure _
      · exact .reject _

theorem keeps_skipPeriod : (layout past).Keeps skipPeriod := by
  have peeks : (layout past).Keeps peek :=
    Tallies.peek.weaken (fun _ _ alike => alike) fun _ _ _ awaiting => awaiting.1
  refine peeks.bind fun mark => ?_
  split
  · exact Keeps.next.bind fun _ => .pure ()
  · exact .pure ()

theorem keeps_context (table : Table Nonterminal) : (layout past).Keeps (context table) := by
  refine keeps_skipPeriod.bind fun _ =>
    Keeps.eachToken (fun table => .pure table) (fun table token => Tallies.turn ?_) _
  unfold contextTurn
  split
  · exact Keeps.reject _
  · refine Keeps.bind (Tallies.expect (by decide)) fun _ => ?_
    split
    · exact .reject _
    · exact (keeps_bindings _ _).bind fun defaults => .pure _

/-- Alike readings with the same marker behind the name. -/
theorem headed_layout {first second : Reading} (alike : first.Alike past second)
    (marks : OpensHint first.follow ↔ OpensHint second.follow) :
    (layout past).Headed first second where
  inner := alike
  marks := marks
  marker _ _ kindred := by rwa [behind_layout] at kindred

end Kinship

namespace Reader

variable {α : Type}

/-- The reader comes to the same on alike readings. -/
def Ignores (reader : Reader α) : Prop :=
  (Kinship.layout True).Keeps reader

theorem ignores_range : Ignores range :=
  Kinship.keeps_range _

theorem ignores_grammar {registry : Registry}
    (builtins : ∀ text reader, registry.builtins.get? text = some reader → Ignores reader) :
    Ignores (grammar registry) := by
  have definitions : Ignores (definitions registry) := by
    refine Kinship.Keeps.eachToken (fun grammar => .pure grammar) (fun grammar token => ?_) _
    by_cases semicolon : token = .punct ";"
    · rw [definitionsTurn, if_pos semicolon]
      exact Kinship.Tallies.turn (Kinship.Keeps.pure _)
    by_cases ident : token.kind = .ident
    swap
    · rw [definitionsTurn, if_neg semicolon, if_pos ident]
      exact Kinship.Tallies.turn (Kinship.Keeps.reject _)
    by_cases plain : token.text = contextName
    swap
    · exact (Kinship.tallies_definition _ builtins grammar ident plain).weaken
        (fun _ _ passed => Kinship.headed_layout passed.1 (passed.2 ident))
          fun _ _ _ kindred => kindred.2
    rw [definitionsTurn, if_neg semicolon, if_neg (not_not.mpr ident)]
    refine ((Kinship.tallies_depthHint _ token.text).weaken
      (fun _ _ passed => Kinship.headed_layout passed.1 (passed.2 ident))
        fun _ _ _ alike => alike).bind fun hint => ?_
    rw [if_pos plain]
    exact Kinship.Tallies.bind (Kinship.keeps_context grammar.table) fun table =>
      Kinship.Keeps.pure _
  refine Kinship.Tallies.bind definitions fun grammar => ?_
  split
  · exact Kinship.Keeps.reject _
  · exact Kinship.Keeps.pure _

end Reader

/-! ## Whole texts -/

theorem Reading.alike_ofText {first second : String} (same : essence first = essence second) :
    (ofText first).Alike True (ofText second) := by
  obtain ⟨pending, ending⟩ := Prod.mk.inj same
  exact ⟨pending, ending, fun _ => rfl, fun _ => rfl⟩

namespace Grammar

/-- What a registry reads ignores layout if its built-in readers do. -/
theorem sameOutcome_of_builtins {registry : Registry}
    (builtins : ∀ text reader, registry.builtins.get? text = some reader → reader.Ignores)
    {first second : String} (same : essence first = essence second) :
    SameOutcome (parse registry first).1 (parse registry second).1 ∧
      (parse registry first).2 = (parse registry second).2 := by
  have agree := Reader.ignores_grammar builtins _ _ (Reading.alike_ofText same)
  rcases left : (Reader.grammar registry).run (.ofText first) with ⟨outcome, after⟩
  rcases right : (Reader.grammar registry).run (.ofText second) with ⟨other, otherAfter⟩
  rw [left, right] at agree
  cases agree with
  | error differ alike =>
      simp only [parse, read, left, right]
      exact ⟨.error differ, alike.log trivial⟩
  | @ok grammar _ _ alike =>
      simp only [parse, read, left, right, alike.log trivial]
      cases grammar.linkNoting.1.failure with
      | none => exact ⟨.ok _, trivial⟩
      | some cause => exact ⟨.error (.same _), trivial⟩

/--
Layout does not change meaning. Texts of the same tokens, with depth markers
right behind the same names and the same left open at the end, have the same
grammar or are refused for the same cause, which has one class and one wording.
What is noted on the way is the same as well.
-/
theorem sameOutcome_of_essence {first second : String} (same : essence first = essence second) :
    SameOutcome (parse Registry.default first).1 (parse Registry.default second).1 ∧
      (parse Registry.default first).2 = (parse Registry.default second).2 := by
  refine sameOutcome_of_builtins (fun text reader entry => ?_) same
  rw [Reader.builtin_eq_range entry]
  exact Reader.ignores_range

/-- A text with an unknown escape. -/
def crowdedText : String :=
  "S#3:.Context.S:c='\\q'."

/-- The same text with room between its tokens. -/
def spreadText : String :=
  "S#3 /* three */ : .\nContext. // S\nS : c = '\\q' ."

theorem sameOutcome_of_essence_spread :
    essence crowdedText = essence spreadText ∧
      SameOutcome (parse Registry.default crowdedText).1 (parse Registry.default spreadText).1 ∧
        (parse Registry.default crowdedText).1 =
            .error (.located (.unknownEscape "q" "'\\q'") ⟨1, 18⟩) ∧
          (parse Registry.default spreadText).1 =
            .error (.located (.unknownEscape "q" "'\\q'") ⟨3, 9⟩) :=
  have same : essence crowdedText = essence spreadText := by decide +kernel
  ⟨same, (sameOutcome_of_essence same).1, by decide +kernel, by decide +kernel⟩

end Grammar

end PhraseGrammar
