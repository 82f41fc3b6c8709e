import PhraseGrammar.Proofs.Rules.Fuel
import PhraseGrammar.Proofs.Rules.Requests
import PhraseGrammar.Proofs.Rules.RuleRecognition
import PhraseGrammar.Proofs.Token.Lookahead

/-!
# Parsing always ends

A parse on fuel comes to what the reader of the same text comes to and calls
for a token as often as that asks for one. It is never stopped: no loop takes a
turn for nothing, and two units of fuel more than there are tokens suffice.
-/

namespace PhraseGrammar

/-- The character behind a token that is found is the first one of the rest. -/
theorem Found.follow_of_search {text rest : List Char} {skip : Nat} {place behind : Position}
    {lexeme : Lexeme} (found : search text skip place = .token lexeme rest behind) :
    lexeme.follow = rest.head? := by
  fun_induction search text skip place with
  | case1 => cases found
  | case2 c rest skip place ih => exact ih found
  | case3 c rest place more opens ih => exact ih found
  | case4 c rest place kind more opens =>
      cases found
      rfl
  | case5 => cases found

/-- The desk stands where the reading stands. -/
structure Desk.At (desk : Desk) (reading : Reading) : Prop where
  remaining : Lexeme.scan desk.lexer.rest 0 desk.lexer.place = (reading.pending, reading.ending)
  seen : desk.lexer.ahead = none ∨
    desk.lexer.ahead = some (Found.search desk.lexer.rest 0 desk.lexer.place)
  last : desk.lexer.last = reading.place
  follow : desk.lexer.peekChar = reading.follow
  log : desk.log = reading.log

theorem Desk.at_ofText (text : String) : (ofText text).At (.ofText text) :=
  ⟨rfl, .inl rfl, rfl, rfl, rfl⟩

namespace Desk.At

variable {desk : Desk} {reading : Reading}

theorem pending_eq (stands : desk.At reading) : desk.pending = reading.pending :=
  congrArg Prod.fst stands.remaining

/-- The end of a text is none of its lexemes. -/
theorem kind_ne_eof (stands : desk.At reading) {lexeme : Lexeme} {rest : List Lexeme}
    (pending : reading.pending = lexeme :: rest) : lexeme.token.kind ≠ .eof := by
  have member : lexeme ∈ (Lexeme.scan desk.lexer.rest 0 desk.lexer.place).1 := by
    rw [stands.remaining, pending]
    exact List.mem_cons_self
  obtain ⟨piece, rest, spells, _⟩ := Lexeme.exists_spells member
  exact Lexer.kind_ne_eof_of_spells spells

theorem upcoming_eq (stands : desk.At reading) :
    desk.lexer.upcoming = Found.search desk.lexer.rest 0 desk.lexer.place := by
  rw [Lexer.upcoming]
  rcases stands.seen with unseen | seen
  · rw [unseen, Option.getD_none]
  · rw [seen, Option.getD_some]

/-- The lexer and the reading consume the same token, or fail alike. -/
theorem next (stands : desk.At reading) :
    desk.lexer.next.1.mapError .grammar = reading.next.1 ∧
      At { desk with lexer := desk.lexer.next.2 } reading.next.2 := by
  have remaining := stands.remaining
  rw [Lexeme.scan_eq_search] at remaining
  rw [Lexer.next, stands.upcoming_eq, Reading.next]
  cases found : Found.search desk.lexer.rest 0 desk.lexer.place with
  | token lexeme rest behind =>
      rw [found] at remaining
      obtain ⟨pending, ending⟩ := Prod.mk.inj remaining
      rw [← pending]
      refine ⟨rfl, ?_, .inl rfl, rfl, (Found.follow_of_search found).symm, stands.log⟩
      exact Prod.ext rfl ending
  | ended ending =>
      rw [found] at remaining
      obtain ⟨pending, same⟩ := Prod.mk.inj remaining
      rw [← pending, ← same]
      cases ending with
      | eof place => exact ⟨rfl, rfl, .inl rfl, rfl, rfl, stands.log⟩
      | unterminated form place =>
          refine ⟨rfl, stands.remaining.trans ?_, stands.seen, stands.last, stands.follow, stands.log⟩
          rw [← pending, ← same]

/-- A look ahead shows what comes next and consumes nothing. -/
theorem peek (stands : desk.At reading) :
    desk.lexer.peek.1.mapError .grammar = reading.upcoming ∧
      At { desk with lexer := desk.lexer.peek.2 } reading := by
  refine ⟨Lexer.peek_eq_next desk.lexer ▸ stands.next.1, ?_⟩
  rw [Lexer.peek]
  split
  · exact ⟨stands.remaining, .inr (congrArg some stands.upcoming_eq), stands.last, stands.follow,
      stands.log⟩
  · exact stands

end Desk.At

namespace Fueled

open Desk (At)
open Reader (Turn)

variable {α β σ : Type}

/-! ## Parsers and readers -/

/--
With fuel for as many calls as are made from a reading on, and some to spare, a
run comes to the outcome and leaves what was to spare.
-/
def Attains (run : Nat → Except Stall (Except ParseFailure α × Desk × Nat)) (reading : Reading)
    (outcome : Except ParseFailure α × Reading) : Prop :=
  ∃ calls after, outcome.2.reads = reading.reads + calls ∧ after.At outcome.2 ∧
    ∀ spare, run (calls + spare) = .ok (outcome.1, after, spare)

/-- Wherever both stand at the same place the parser attains what the reader comes to. -/
def Matches (parser : Fueled α) (reader : Reader α) : Prop :=
  ∀ desk reading, desk.At reading → Attains (parser.run desk) reading (reader.run reading)

/-- What comes of a call that costs no fuel. -/
theorem Attains.free {run : Nat → Except Stall (Except ParseFailure α × Desk × Nat)}
    {reading after : Reading} {result : Except ParseFailure α} {desk : Desk}
    (asked : after.reads = reading.reads) (stands : desk.At after)
    (runs : ∀ fuel, run fuel = .ok (result, desk, fuel)) : Attains run reading (result, after) := by
  refine ⟨0, desk, asked, stands, fun spare => ?_⟩
  rw [Nat.zero_add, runs]

namespace Matches

theorem pure (value : α) : Matches (pure value) (pure value) :=
  fun _ _ stands => .free rfl stands fun _ => rfl

theorem ofExcept (result : Except ParseFailure α) :
    Matches (ofExcept result) (Reader.ofExcept result) :=
  fun _ _ stands => .free rfl stands fun _ => rfl

theorem reject (cause : Cause) :
    Matches (reject cause : Fueled α) (Reader.reject cause) :=
  fun _ _ stands => .free rfl stands fun _ => by rw [run_reject, stands.last]

theorem note (event : Event) : Matches (note event) (Reader.note event) := by
  intro desk reading stands
  have written : At { desk with log := desk.log ++ [event] }
      { reading with log := reading.log ++ [event] } :=
    ⟨stands.remaining, stands.seen, stands.last, stands.follow, congrArg (· ++ [event]) stands.log⟩
  exact .free rfl written fun _ => rfl

theorem follow : Matches follow Reader.follow :=
  fun _ _ stands => .free rfl stands fun _ => by rw [run_follow, stands.follow]

theorem peek : Matches peek Reader.peek := by
  intro desk reading stands
  obtain ⟨shown, unmoved⟩ := stands.peek
  exact .free rfl unmoved fun _ => by rw [run_peek, shown]

theorem next : Matches next Reader.next := by
  intro desk reading stands
  refine ⟨1, _, ?_, stands.next.2, fun spare => ?_⟩
  · rw [Reader.run_next, Reading.next]
    split
    · rfl
    · split <;> rfl
  · rw [Nat.add_comm, run_next_succ, Reader.run_next, stands.next.1]

theorem attains_bind {first : Fueled α} {second : α → Fueled β} {reader : Reader α}
    {further : α → Reader β} {desk : Desk} {reading : Reading}
    (before : Attains (first.run desk) reading (reader.run reading))
    (behind : ∀ value after, reader.run reading = (.ok value, after) →
      Matches (second value) (further value)) :
    Attains ((first >>= second).run desk) reading ((reader >>= further).run reading) := by
  obtain ⟨calls, between, counted, stands, runs⟩ := before
  rw [Reader.run_bind]
  rcases ran : reader.run reading with ⟨failure | value, after⟩
  · rw [ran] at counted stands runs
    refine ⟨calls, between, counted, stands, fun spare => ?_⟩
    rw [run_bind, runs]
  · rw [ran] at counted stands runs
    obtain ⟨more, last, total, arrived, goes⟩ := behind value after ran between after stands
    refine ⟨calls + more, last, ?_, arrived, fun spare => ?_⟩
    · rw [total, counted, Nat.add_assoc]
    · rw [run_bind, Nat.add_assoc, runs]
      exact goes spare

theorem bind {first : Fueled α} {second : α → Fueled β} {reader : Reader α} {further : α → Reader β}
    (before : Matches first reader) (behind : ∀ value, Matches (second value) (further value)) :
    Matches (first >>= second) (reader >>= further) :=
  fun desk reading stands => attains_bind (before desk reading stands) fun value _ _ => behind value

theorem orAtPlace {parser : Fueled α} {reader : Reader α} (same : Matches parser reader) :
    Matches parser.orAtPlace reader.orAtPlace := by
  intro desk reading stands
  obtain ⟨calls, after, counted, arrived, runs⟩ := same desk reading stands
  simp only [Reader.orAtPlace]
  rcases ran : reader.run reading with ⟨failure | value, behind⟩
  · rw [ran] at counted arrived runs
    refine ⟨calls, after, counted, arrived, fun spare => ?_⟩
    rw [run_orAtPlace, runs]
    simp only [arrived.last]
  · rw [ran] at counted arrived runs
    refine ⟨calls, after, counted, arrived, fun spare => ?_⟩
    rw [run_orAtPlace, runs]

theorem expect (text : String) : Matches (expect text) (Reader.expect text) := by
  refine next.bind fun token => ?_
  split
  · exact pure ()
  · exact reject _

end Matches

theorem run_bind_done (reader : Reader β) (reading : Reading) :
    (reader >>= fun result => (pure (.done result) : Reader (Turn σ β))).run reading =
      ((reader.run reading).1.map .done, (reader.run reading).2) := by
  rw [Reader.run_bind]
  rcases reader.run reading with ⟨failure | result, after⟩ <;> rfl

section Loops

variable {turn : σ → Fueled (Turn σ β)} {state : σ} {desk : Desk} {reading : Reading}

/-- A turn that is the last one, or fails, is all there is of a loop. -/
theorem Attains.last {outcome : Except ParseFailure β × Reading}
    (turned : Attains ((turn state).run desk) reading (outcome.1.map .done, outcome.2)) :
    Attains (loop turn state desk) reading outcome := by
  obtain ⟨calls, after, counted, arrived, runs⟩ := turned
  refine ⟨calls, after, counted, arrived, fun spare => ?_⟩
  rw [loop_eq, runs]
  rcases outcome with ⟨failure | result, behind⟩ <;> rfl

/-- A turn that goes on has consumed a token. -/
theorem Attains.again {further : σ} {after : Reading} {outcome : Except ParseFailure β × Reading}
    (stands : desk.At reading)
    (turned : Attains ((turn state).run desk) reading (.ok (.again further), after))
    (shorter : after.pending.length < reading.pending.length)
    (goes : ∀ desk, desk.At after → Attains (loop turn further desk) after outcome) :
    Attains (loop turn state desk) reading outcome := by
  obtain ⟨calls, between, counted, arrived, runs⟩ := turned
  obtain ⟨more, last, total, reached, further⟩ := goes between arrived
  refine ⟨calls + more, last, ?_, reached, fun spare => ?_⟩
  · rw [total, counted, Nat.add_assoc]
  · have fewer : between.pending.length < desk.pending.length := by
      rwa [arrived.pending_eq, stands.pending_eq]
    rw [loop_eq, Nat.add_assoc, runs]
    exact (if_pos fewer).trans (further spare)

end Loops

/--
The turns of a loop that sees the end do with it what the reader's loop does
when it is finished.
-/
theorem Matches.eachToken {finish : σ → Reader β} {turn : σ → Token → Reader (Turn σ β)}
    {taken : σ → Token → Fueled (Turn σ β)}
    (ends : ∀ state, Matches (taken state .eof) (finish state >>= fun result => Pure.pure (.done result)))
    (turns : ∀ state token, token.kind ≠ .eof → Matches (taken state token) (turn state token))
    (state : σ) : Matches (eachToken taken state) (Reader.eachToken finish turn state) := by
  intro desk reading stands
  rw [Reader.run_eachToken]
  change Attains (loop (fun state => Fueled.next >>= taken state) state desk) reading _
  have turned (state : σ) {desk : Desk} {reading : Reading} {lexeme : Lexeme} {rest : List Lexeme}
      (stands : desk.At reading) (pending : reading.pending = lexeme :: rest) :
      Attains ((Fueled.next >>= taken state).run desk) reading
        ((turn state lexeme.token).run (reading.pass lexeme rest)) := by
    have passed : reading.next = (.ok lexeme.token, reading.pass lexeme rest) := by
      rw [Reading.next, pending]
    have attained : Attains ((Fueled.next >>= taken state).run desk) reading
        ((Reader.next >>= fun _ => turn state lexeme.token).run reading) := by
      refine attains_bind (next desk reading stands) fun token after found => ?_
      cases found.symm.trans passed
      exact turns state lexeme.token (stands.kind_ne_eof pending)
    rwa [Reader.run_bind, Reader.run_next, passed] at attained
  fun_induction Reader.loop finish turn state reading generalizing desk with
  | case1 state reading ended =>
      have attained : Attains ((Fueled.next >>= taken state).run desk) reading
          ((Reader.next >>= fun _ => finish state >>= fun result => Pure.pure (.done result)).run
            reading) := by
        refine attains_bind (next desk reading stands) fun token after found => ?_
        cases (Reading.next_of_nil ended).1 token (congrArg Prod.fst found)
        exact ends state
      rw [← bind_assoc, run_bind_done] at attained
      exact .last attained
  | case2 state reading lexeme rest pending failure after ran =>
      have attained := turned state stands pending
      rw [ran] at attained
      exact .last attained
  | case3 state reading lexeme rest pending result after ran =>
      have attained := turned state stands pending
      rw [ran] at attained
      exact .last attained
  | case4 state reading lexeme rest pending further after ran shorter ih =>
      have attained := turned state stands pending
      rw [ran] at attained
      exact .again stands attained shorter fun desk arrived => ih desk arrived

/-! ## The readers of a grammar -/

theorem matches_integer (token : Token) : Matches (integer token) (Reader.integer token) :=
  .ofExcept _

theorem matches_signedInteger (negative : Bool) (numeral : Token) :
    Matches (signedInteger negative numeral) (Reader.signedInteger negative numeral) := by
  unfold signedInteger Reader.signedInteger
  split
  · exact .reject _
  · exact (matches_integer numeral).bind fun size => .pure _

theorem matches_argument (token : Token) : Matches (argument token) (Reader.argument token) := by
  unfold argument Reader.argument
  split
  · exact Matches.next.bind (matches_signedInteger true)
  · exact matches_signedInteger false token

theorem matches_argumentEnd (arguments : Array Int) :
    Matches (argumentEnd arguments) (Reader.argumentEnd arguments) := by
  refine Matches.next.bind fun mark => ?_
  split
  · exact .pure _
  · split
    · exact .pure _
    · exact .reject _

theorem matches_rangeArguments : Matches rangeArguments Reader.rangeArguments := by
  refine (Matches.expect "(").bind fun _ => Matches.peek.bind fun token => ?_
  split
  · exact Matches.next.bind fun _ => .pure _
  · refine .eachToken (fun arguments => .reject _) (fun arguments token _ => ?_) _
    rw [Reader.rangeTurn_eq]
    exact (matches_argument token).bind fun size => matches_argumentEnd _

theorem matches_range : Matches range Reader.range := by
  refine matches_rangeArguments.bind fun arguments => ?_
  split
  · cases Reader.joinDecimals? arguments with
    | none => exact .ofExcept _
    | some shown => exact .pure _
  · exact .reject _

theorem builtins_get? (text : String) :
    builtins.get? text = if text = "range" then some range else none := by
  show (Table.empty.set "range" range).get? text = _
  rw [Table.get?_set, Table.get?_empty]

theorem matches_node (token : Token) : Matches (node token) (Reader.node Registry.default token) := by
  unfold node Reader.node
  rw [builtins_get?, Reader.builtins_get?]
  cases Registry.default.literals.get? token.kind.name with
  | some construct => exact .ofExcept _
  | none =>
      cases Registry.default.terminals.get? token.text with
      | some made => exact .ofExcept _
      | none =>
          by_cases named : token.text = "range"
          · rw [if_pos named, if_pos named]
            exact matches_range.bind fun leaf => .pure _
          · rw [if_neg named, if_neg named]
            dsimp only
            split
            · refine Matches.next.bind fun name => ?_
              split
              · exact .reject _
              · exact .ofExcept _
            · exact .pure _

theorem matches_nodes : Matches nodes (Reader.nodes Registry.default) := by
  refine .eachToken (fun nodes => .pure _) (fun nodes token inside => ?_) _
  unfold nodesTurn Reader.nodesTurn
  simp only [inside, false_or]
  split
  · exact .pure _
  · split
    · exact .pure _
    · exact (matches_node token).orAtPlace.bind fun _ => .pure _

theorem matches_rules (name : String) : Matches (rules name) (Reader.rules Registry.default name) := by
  refine .eachToken (fun rules => ?_) (fun rules token _ => ?_) _
  · have other : (Token.eof : Token) ≠ .punct (Reader.ruleMark rules) := fun same =>
      nomatch congrArg Token.kind same
    unfold rulesTurn
    rw [if_neg other]
    exact .reject _
  · unfold rulesTurn Reader.rulesTurn
    split
    · refine matches_nodes.bind fun result => ?_
      dsimp only
      split <;> exact .pure _
    · exact .reject _

theorem matches_signedNumber (negative : Bool) (token : Token) :
    Matches (signedNumber negative token) (Reader.signedNumber negative token) := by
  unfold signedNumber Reader.signedNumber
  cases token.kind with
  | int => exact (matches_integer token).bind fun _ => .pure _
  | float =>
      cases Binary64.read? token.text with
      | some size => exact .pure _
      | none => exact .ofExcept _
  | _ => exact .reject _

theorem matches_contextValue : Matches contextValue Reader.contextValue := by
  refine Matches.next.bind fun token => ?_
  split
  · exact Matches.next.bind (matches_signedNumber true)
  · cases token.kind with
    | string | char => exact (Matches.ofExcept _).orAtPlace
    | int | float => exact matches_signedNumber false token
    | _ => exact .reject _

theorem matches_bindings (name : String) (defaults : Table Value) :
    Matches (bindings name defaults) (Reader.bindings name defaults) := by
  refine .eachToken (fun defaults => .reject _) (fun defaults token _ => ?_) _
  unfold bindingsTurn Reader.bindingsTurn
  split
  · exact .reject _
  · refine (Matches.expect "=").bind fun _ => matches_contextValue.bind fun value => ?_
    refine Matches.next.bind fun mark => ?_
    split
    · exact .pure _
    · split
      · exact .pure _
      · exact .reject _

theorem matches_context (table : Table Nonterminal) :
    Matches (context table) (Reader.context table) := by
  have skips : Matches skipPeriod Reader.skipPeriod := by
    refine Matches.peek.bind fun mark => ?_
    split
    · exact Matches.next.bind fun _ => .pure _
    · exact .pure _
  refine skips.bind fun _ => .eachToken (fun table => .pure _) (fun table token inside => ?_) _
  unfold contextTurn Reader.contextTurn
  rw [if_neg inside]
  split
  · exact .reject _
  · refine (Matches.expect ":").bind fun _ => ?_
    cases table.get? token.text with
    | none => exact .reject _
    | some nonterminal => exact (matches_bindings _ _).bind fun _ => .pure _

theorem matches_depthHint (name : String) : Matches (depthHint name) (Reader.depthHint name) := by
  refine Matches.follow.bind fun mark => ?_
  split
  · refine Matches.next.bind fun marker => Matches.next.bind fun token => ?_
    split
    · exact .reject _
    · exact (matches_integer token).bind fun _ => .pure _
  · exact .pure _

theorem matches_define (grammar : Grammar) (nonterminal : Nonterminal) :
    Matches (define grammar nonterminal) (Reader.define grammar nonterminal) := by
  unfold define Reader.define
  split
  · exact (Matches.note _).bind fun _ => (Matches.note _).bind fun _ => .pure _
  · exact (Matches.note _).bind fun _ => .pure _

theorem matches_opened (grammar : Grammar) {token : Token} (inside : token.kind ≠ .eof)
    (other : token ≠ .punct ";") :
    Matches (opened grammar token) (Reader.definitionsTurn Registry.default grammar token) := by
  unfold opened Reader.definitionsTurn
  rw [if_neg inside, if_neg other]
  split
  · exact .reject _
  · refine (matches_depthHint token.text).bind fun hint => ?_
    split
    · exact (matches_context grammar.table).bind fun _ => .pure _
    · exact (matches_rules token.text).bind fun rules => (matches_define grammar _).bind fun _ =>
        .pure _

theorem run_header (desk : Desk) (fuel : Nat) :
    header.run desk fuel =
      match next.run desk fuel with
      | .error stall => .error stall
      | .ok (.error failure, after, left) => .ok (.error failure, after, left)
      | .ok (.ok token, after, left) =>
          if token = .punct ";" then
            if after.pending.length < desk.pending.length then header.run after left
            else .error .idle
          else .ok (.ok token, after, left) := by
  rw [header, eachToken, run_repeated, loop_eq, run_bind]
  rcases next.run desk fuel with stall | ⟨failure | token, after, left⟩
  · rfl
  · rfl
  · by_cases semicolon : token = .punct ";"
    · simp only [run_pure, if_pos semicolon]
      rfl
    · simp only [run_pure, if_neg semicolon]

/--
A loop comes to what another one comes to further on, if its first turn comes
to the same as the other's there and the loops agree from then on.
-/
theorem loop_of_run_eq {turn other : σ → Fueled (Turn σ β)} {state : σ} {desk after : Desk}
    {fuel left : Nat} {outcome : Except ParseFailure β × Desk × Nat}
    (same : (other state).run desk fuel = (turn state).run after left)
    (further : after.pending.length ≤ desk.pending.length)
    (goes : ∀ state behind rest, behind.pending.length < after.pending.length →
      loop turn state behind rest = .ok outcome → loop other state behind rest = .ok outcome)
    (ran : loop turn state after left = .ok outcome) : loop other state desk fuel = .ok outcome := by
  rw [loop_eq] at ran
  rw [loop_eq, same]
  rcases turned : (turn state).run after left with stall | ⟨failure | next | result, behind, rest⟩
  · rw [turned] at ran
    cases ran
  · rwa [turned] at ran
  · rw [turned] at ran
    dsimp only at ran ⊢
    split at ran
    · rename_i shorter
      rw [if_pos (Nat.lt_of_lt_of_le shorter further)]
      exact goes next behind rest shorter ran
    · cases ran
  · rwa [turned] at ran

/-- Semicolons between definitions may be skipped before them or taken as turns of their own. -/
theorem loop_header {opened : σ → Token → Fueled (Turn σ β)} {state : σ} {desk : Desk} {fuel : Nat}
    {outcome : Except ParseFailure β × Desk × Nat}
    (ran : loop (fun state => next >>= fun token =>
      if token = .punct ";" then pure (.again state) else opened state token) state desk fuel =
        .ok outcome) :
    loop (fun state => header >>= opened state) state desk fuel = .ok outcome := by
  -- Either way a turn that goes on leaves less pending, so that the induction is on that.
  induction measured : desk.pending.length using Nat.strong_induction_on
    generalizing state desk fuel with
  | h size ih =>
      subst measured
      by_cases semicolon : ∃ after left, next.run desk fuel = .ok (.ok (.punct ";"), after, left)
      · obtain ⟨after, left, stepped⟩ := semicolon
        rw [loop_eq, run_bind, stepped] at ran
        dsimp only at ran
        rw [if_pos rfl, run_pure] at ran
        dsimp only at ran
        split at ran
        · rename_i fewer
          have skipped : (header >>= opened state).run desk fuel =
              (header >>= opened state).run after left := by
            rw [run_bind, run_header, stepped]
            dsimp only
            rw [if_pos rfl, if_pos fewer, run_bind]
          exact loop_of_run_eq skipped (Nat.le_of_lt fewer) (fun _ _ _ _ => id) (ih _ fewer ran rfl)
        · cases ran
      · refine loop_of_run_eq ?_ (Nat.le_refl _) (fun _ _ _ fewer goes => ih _ fewer goes rfl) ran
        rw [run_bind, run_header, run_bind]
        rcases stepped : next.run desk fuel with stall | ⟨failure | token, after, left⟩
        · rfl
        · rfl
        · have other : token ≠ .punct ";" := by
            rintro rfl
            exact semicolon ⟨after, left, stepped⟩
          simp only [if_neg other]

theorem matches_definitions : Matches definitions (Reader.definitions Registry.default) := by
  intro desk reading stands
  have single : Matches (eachToken (fun grammar token =>
      if token = .punct ";" then pure (.again grammar) else opened grammar token) ⟨.empty, none⟩)
        (Reader.definitions Registry.default) := by
    refine .eachToken (fun grammar => .pure _) (fun grammar token inside => ?_) _
    split
    · rename_i semicolon
      subst semicolon
      exact .pure _
    · rename_i other
      exact matches_opened grammar inside other
  obtain ⟨calls, after, counted, arrived, runs⟩ := single desk reading stands
  exact ⟨calls, after, counted, arrived, fun spare => loop_header (runs spare)⟩

theorem matches_grammar : Matches grammar (Reader.grammar Registry.default) := by
  refine matches_definitions.bind fun grammar => ?_
  split
  · exact .reject _
  · exact .pure _

end Fueled

/--
Parsing a text calls for a token at most twice more than the lexer gives out
tokens, and on fuel for as many calls it comes to what the text is read as. No
loop is found idle on the way: every turn consumes a token that is not the end,
or is the last one.
-/
theorem Grammar.parsing_ends (text : String) : ∃ calls after,
    calls ≤ (Lexer.ofText text).toEnd.1.length + 2 ∧
      ((Reader.grammar Registry.default).run (.ofText text)).2.reads = calls ∧
      after.log = (read Registry.default text).2 ∧
      ∀ spare, Fueled.grammar.run (.ofText text) (calls + spare) =
        .ok ((read Registry.default text).1, after, spare) := by
  obtain ⟨calls, after, counted, arrived, runs⟩ :=
    Fueled.matches_grammar _ _ (Desk.at_ofText text)
  have reads : ((Reader.grammar Registry.default).run (.ofText text)).2.reads = calls :=
    counted.trans (Nat.zero_add calls)
  refine ⟨calls, after, ?_, reads, arrived.log, runs⟩
  rw [Lexer.tokens_toEnd, List.length_map, ← reads]
  exact Reader.reads_grammar text

/-- The end is met twice where a rule leaves off with the text. -/
example : ((Reader.grammar Registry.default).run (.ofText "S :")).2.reads =
    (Lexer.ofText "S :").toEnd.1.length + 2 := by
  decide +kernel

end PhraseGrammar
