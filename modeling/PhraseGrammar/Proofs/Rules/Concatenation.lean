import PhraseGrammar.Proofs.Rules.Layout

/-!
# Concatenation

Two texts of definitions can be put one behind the other on lines of their own.
If each definition of the first ends with its period, and it has no block of
default bindings, the whole has the definitions of both, those of the second
before those of the first where both define a name. The readers see the first
text through up to its last period, as they do without the second; behind it
they go through the second text as they do without the first, with more names
declared.
-/

namespace PhraseGrammar

open Reader

/-- The names of the lower table and then the new ones of the upper one, which has precedence. -/
structure Table.Merges {α : Type} (lower upper merged : Table α) : Prop where
  keys : merged.keys = lower.keys ++ upper.keys.filter (· ∉ lower.keys)
  get? (name : String) : merged.get? name = (upper.get? name).or (lower.get? name)

namespace Table.Merges

variable {α : Type} {lower upper merged : Table α}

theorem empty (table : Table α) : table.Merges .empty table :=
  ⟨(List.append_nil _).symm, fun _ => rfl⟩

theorem mem_keys (merges : lower.Merges upper merged) (name : String) :
    name ∈ merged.keys ↔ name ∈ lower.keys ∨ name ∈ upper.keys := by
  rw [merges.keys, List.mem_append, List.mem_filter, decide_eq_true_eq]
  by_cases known : name ∈ lower.keys <;> simp [known]

/-- What is set above is set in the merged table. -/
theorem set (merges : lower.Merges upper merged) (name : String) (value : α) :
    lower.Merges (upper.set name value) (merged.set name value) where
  keys := by
    rw [keys_set, keys_set, merges.keys]
    by_cases above : name ∈ upper.keys
    · have known := (merges.mem_keys name).mpr (.inr above)
      rw [merges.keys] at known
      rw [if_pos above, if_pos known]
    by_cases below : name ∈ lower.keys
    · have known := (merges.mem_keys name).mpr (.inl below)
      rw [merges.keys] at known
      rw [if_neg above, if_pos known, List.filter_append]
      simp [below]
    · have fresh : name ∉ merged.keys := fun known =>
        ((merges.mem_keys name).mp known).elim below above
      rw [merges.keys] at fresh
      rw [if_neg above, if_neg fresh, List.filter_append, List.append_assoc]
      simp [below]
  get? other := by
    rw [get?_set, get?_set, merges.get? other]
    split <;> rfl

end Table.Merges

/-- The tables are merged, and the start is the first grammar's. -/
structure Grammar.Merges (first second merged : Grammar) : Prop where
  table : first.table.Merges second.table merged.table
  start : merged.start = first.start

/-! ## Definitions that end with a period -/

/--
Definitions that each end with a period, and none of them opens a block of
default bindings. Semicolons may stand between them.
-/
inductive Complete : List Token → Prop where
  | nil : Complete []
  | semicolon {rest : List Token} (others : Complete rest) : Complete (.punct ";" :: rest)
  | definition {name : Token} {body rest : List Token} (ident : name.kind = .ident)
      (plain : name.text ≠ contextName) (inside : .punct "." ∉ body) (others : Complete rest) :
      Complete (name :: (body ++ .punct "." :: rest))

/-- Behind complete definitions stands the name that opens a block of default bindings. -/
def OpensBlock (tokens : List Token) : Prop :=
  ∃ front rest, tokens = front ++ ⟨.ident, contextName⟩ :: rest ∧ Complete front

/-- Complete definitions can be put before others, and before a block. -/
theorem Complete.behind {front rest : List Token} (complete : Complete front)
    (further : Complete rest ∨ OpensBlock rest) :
    Complete (front ++ rest) ∨ OpensBlock (front ++ rest) := by
  have joined {others : List Token} (behind : Complete others) : Complete (front ++ others) := by
    clear further
    induction complete with
    | nil => exact behind
    | semicolon _ ih => exact .semicolon ih
    | definition ident plain inside _ ih =>
        rw [List.cons_append, List.append_assoc]
        exact .definition ident plain inside ih
  rcases further with behind | ⟨others, block, rfl, behind⟩
  · exact .inl (joined behind)
  · exact .inr ⟨front ++ others, block, (List.append_assoc _ _ _).symm, joined behind⟩

/-- The last token, apart from semicolons at the end, is a period. -/
def Closes (tokens : List Token) : Prop :=
  ∃ front marks, tokens = front ++ marks ∧ (∀ mark ∈ marks, mark = .punct ";") ∧
    ∀ last ∈ front.getLast?, last = .punct "."

theorem Closes.of_append {front rest : List Token} (closes : Closes (front ++ rest)) :
    Closes rest := by
  obtain ⟨whole, marks, split, semicolons, period⟩ := closes
  rcases List.append_eq_append_iff.mp split with ⟨behind, rfl, rfl⟩ | ⟨others, rfl, rfl⟩
  · refine ⟨behind, marks, rfl, semicolons, fun last known => period last ?_⟩
    rw [Option.mem_def] at known ⊢
    rw [List.getLast?_append, known, Option.some_or]
  · have behind := fun mark member => semicolons mark (List.mem_append_right others member)
    exact ⟨[], rest, rfl, behind, nofun⟩

/-- A definition is closed by a period of its own. -/
theorem Closes.exists_period {name : Token} {rest : List Token} (closes : Closes (name :: rest))
    (ident : name.kind = .ident) :
    ∃ body others, rest = body ++ .punct "." :: others ∧ .punct "." ∉ body := by
  apply List.eq_append_cons_of_mem
  obtain ⟨whole, marks, split, semicolons, period⟩ := closes
  cases whole with
  | nil =>
      obtain rfl : name :: rest = marks := split
      exact nomatch semicolons name List.mem_cons_self ▸ ident
  | cons first whole =>
      obtain ⟨rfl, rfl⟩ := List.cons.inj split
      cases whole with
      | nil => exact nomatch (period name rfl) ▸ ident
      | cons second whole =>
          have last := period _ (List.getLast?_eq_some_getLast (List.cons_ne_nil name _))
          rw [List.getLast_cons (List.cons_ne_nil second whole)] at last
          exact List.mem_append_left _ (last ▸ List.getLast_mem _)

/-- Lexemes of one essence up to a period, behind which stand `rest` and `more`. -/
inductive UpToPeriod (rest more : List Lexeme) : List Lexeme → List Lexeme → Prop where
  | period {first second : Lexeme} (closes : first.token = .punct ".")
      (same : second.token = first.token) : UpToPeriod rest more (first :: rest) (second :: more)
  | cons {first second : Lexeme} {left right : List Lexeme} (inside : first.token ≠ .punct ".")
      (same : second.token = first.token)
      (marks : first.token.kind = .ident → (OpensHint first.follow ↔ OpensHint second.follow))
      (others : UpToPeriod rest more left right) :
      UpToPeriod rest more (first :: left) (second :: right)

theorem UpToPeriod.of_essence (more : List Lexeme) {body rest twin : List Lexeme}
    {period : Lexeme} (inside : ∀ lexeme ∈ body, lexeme.token ≠ .punct ".")
    (closes : period.token = .punct ".")
    (same : twin.map Lexeme.essence = (body ++ period :: rest).map Lexeme.essence) :
    ∃ others, others.map Lexeme.essence = rest.map Lexeme.essence ∧
      UpToPeriod rest (others ++ more) (body ++ period :: rest) (twin ++ more) := by
  induction body generalizing twin with
  | nil =>
      obtain ⟨other, others, rfl, token, _, tail⟩ := Lexeme.of_map_essence same
      exact ⟨others, tail, .period closes token⟩
  | cons lexeme body ih =>
      obtain ⟨other, twin, rfl, token, marks, tail⟩ := Lexeme.of_map_essence same
      obtain ⟨others, essences, upTo⟩ :=
        ih (fun lexeme member => inside lexeme (.tail _ member)) tail
      exact ⟨others, essences, .cons (inside lexeme List.mem_cons_self) token marks upTo⟩

/-- Readings inside one definition, whatever stands behind its period. -/
def Kinship.upToPeriod (rest more : List Lexeme) (ending : Ending) : Kinship where
  inner first second := UpToPeriod rest more first.pending second.pending ∧ second.ending = ending
  outer first second := first.pending = rest ∧ second.Sees more ending
  torn _ _ := True
  next_of_cons := by
    rintro first second lexeme others ⟨upTo, ended⟩ pending
    rw [pending] at upTo
    cases left : second.pending with
    | nil =>
        rw [left] at upTo
        cases upTo
    | cons other twin =>
        rw [left] at upTo
        cases upTo with
        | period closes same =>
            refine ⟨other, _, rfl, same, fun ident => ?_, ?_⟩
            · rw [closes] at ident
              cases ident
            · rw [if_pos closes]
              exact ⟨rfl, rfl, ended⟩
        | cons inside same marks further =>
            refine ⟨other, _, rfl, same, marks, ?_⟩
            rw [if_neg inside]
            exact ⟨further, ended⟩
  next_of_nil := by
    rintro first second ⟨upTo, ended⟩ pending
    rw [pending] at upTo
    cases upTo
  note _ kindred := ⟨kindred.1, kindred.2.pending_eq, kindred.2.ending_eq⟩
  torn_of_inner _ := trivial
  torn_of_outer _ := trivial

/-- Right behind a name whose marker, if it has one, is the next token. -/
theorem Kinship.headed_upToPeriod {rest more : List Lexeme} {ending : Ending}
    {first second : Reading} {name : Lexeme} (adjoining : Adjoining (name :: first.pending))
    (follows : first.follow = name.follow)
    (upTo : UpToPeriod rest more first.pending second.pending)
    (ended : second.ending = ending) (marks : OpensHint first.follow ↔ OpensHint second.follow) :
    (upToPeriod rest more ending).Headed first second where
  inner := ⟨upTo, ended⟩
  marks := marks
  marker opens comes kindred := by
    cases adjoining with
    | cons adjacent _ =>
        obtain ⟨marker, lexemes, next, known⟩ := adjacent (follows ▸ opens)
        rw [Reading.upcoming, Reading.next, next] at comes
        obtain rfl := Except.ok.inj comes
        refine inner_of_behind kindred ?_
        rcases known with known | known <;> rw [known.2] <;> decide

/-- A turn that succeeds skips a semicolon, reads the block, or reads a definition. -/
theorem definitionsTurn_cases {registry : Registry} {grammar : Grammar} {token : Token}
    {reading after : Reading} {turn : Turn Grammar Grammar}
    (ran : (definitionsTurn registry grammar token).run reading = (.ok turn, after)) :
    (token = .punct ";" ∧ turn = .again grammar ∧ after = reading) ∨
      (token = ⟨.ident, contextName⟩ ∧ ∃ result, turn = .done result) ∨
        (token.kind = .ident ∧ token.text ≠ contextName) := by
  by_cases semicolon : token = .punct ";"
  · rw [definitionsTurn, if_pos semicolon] at ran
    cases ran
    exact .inl ⟨semicolon, rfl, rfl⟩
  rw [definitionsTurn, if_neg semicolon] at ran
  by_cases ident : token.kind = .ident
  swap
  · rw [if_pos ident] at ran
    cases ran
  by_cases block : token.text = contextName
  swap
  · exact .inr (.inr ⟨ident, block⟩)
  rw [if_neg (not_not.mpr ident)] at ran
  obtain ⟨hint, between, _, ran⟩ := run_bind_eq_ok ran
  rw [if_pos block] at ran
  obtain ⟨table, last, _, ran⟩ := run_bind_eq_ok ran
  cases ran
  exact .inr (.inl ⟨by rw [← ident, ← block], _, rfl⟩)

section

variable {registry : Registry} (builtins : ∀ text reader,
  registry.builtins.get? text = some reader → ∀ kin : Kinship, kin.Keeps reader)

include builtins

/-- A definition whose period is in sight is read alike up to it, whatever follows. -/
theorem agree_upToPeriod (grammar : Grammar) {name other : Lexeme} {lexemes twin : List Lexeme}
    {body rest : List Token} (first second : Reading) (more : List Lexeme)
    (ident : name.token.kind = .ident) (plain : name.token.text ≠ contextName)
    (split : lexemes.map Lexeme.token = body ++ .punct "." :: rest) (inside : .punct "." ∉ body)
    (adjoining : Adjoining (name :: lexemes))
    (marks : OpensHint name.follow ↔ OpensHint other.follow)
    (same : twin.map Lexeme.essence = lexemes.map Lexeme.essence) :
    ∃ behind others, behind.map Lexeme.token = rest ∧ Adjoining behind ∧
      others.map Lexeme.essence = behind.map Lexeme.essence ∧
        Agree (fun turn left right => (∃ further, turn = .again further) ∧ left.pending = behind ∧
            right.Sees (others ++ more) second.ending) (fun _ _ => True)
          ((definitionsTurn registry grammar name.token).run (first.pass name lexemes))
          ((definitionsTurn registry grammar name.token).run
            (second.pass other (twin ++ more))) := by
  obtain ⟨inner, closed, rfl, rfl, ends⟩ := List.map_eq_append_iff.mp split
  obtain ⟨period, behind, rfl, closes, listed⟩ := List.map_eq_cons_iff.mp ends
  have plainly : ∀ lexeme ∈ inner, lexeme.token ≠ .punct "." := fun lexeme member period =>
    inside (period ▸ List.mem_map_of_mem member)
  obtain ⟨others, essences, upTo⟩ := UpToPeriod.of_essence more plainly closes same
  have headed : (Kinship.upToPeriod behind (others ++ more) second.ending).Headed
      (first.pass name (inner ++ period :: behind)) (second.pass other (twin ++ more)) :=
    Kinship.headed_upToPeriod adjoining rfl upTo rfl marks
  have further : Adjoining (name :: inner ++ [period] ++ behind) := by simpa using adjoining
  exact ⟨behind, others, listed, further.of_append, essences,
    Kinship.tallies_definition _ (fun text reader entry => builtins text reader entry _) grammar
      ident plain _ _ headed⟩

/-- Behind complete definitions the loop goes on as it would from their grammar. -/
theorem exists_loop_of_complete {tokens : List Token} (complete : Complete tokens)
    {grammar result : Grammar} {first second after : Reading} {twin more : List Lexeme}
    (listed : first.pending.map Lexeme.token = tokens) (adjoining : Adjoining first.pending)
    (same : twin.map Lexeme.essence = first.pending.map Lexeme.essence)
    (pending : second.pending = twin ++ more)
    (ran : loop pure (definitionsTurn registry) grammar first = (.ok result, after)) :
    ∃ between, between.Sees more second.ending ∧
      loop pure (definitionsTurn registry) grammar second =
        loop pure (definitionsTurn registry) result between := by
  -- on the definitions of the first text: where one reading has passed its last one and is at the
  -- end, the other stands before `more`, and both loops have come to the same grammar
  induction complete generalizing grammar first second twin with
  | nil =>
      have ended := List.map_eq_nil_iff.mp listed
      rw [ended, List.map_nil, List.map_eq_nil_iff] at same
      rw [loop_of_nil _ _ _ ended] at ran
      obtain ⟨token, between, _, done⟩ := run_bind_eq_ok ran
      cases done
      exact ⟨second, ⟨by rw [pending, same, List.nil_append], rfl⟩, rfl⟩
  | @semicolon rest others ih =>
      obtain ⟨mark, lexemes, split, semicolon, tail⟩ := List.map_eq_cons_iff.mp listed
      rw [split] at same adjoining
      obtain ⟨other, twin, rfl, token, _, essences⟩ := Lexeme.of_map_essence same
      have turn (reading : Reading) : (definitionsTurn registry grammar (.punct ";")).run reading =
          (.ok (.again grammar), reading) := by
        rw [definitionsTurn, if_pos rfl]
        rfl
      rw [loop_of_cons _ _ _ split, semicolon, turn] at ran
      rw [loop_of_cons _ _ _ pending, token, semicolon, turn]
      cases adjoining with
      | cons _ adjoining =>
          have passed : (second.pass other (twin ++ more)).pending = twin ++ more := rfl
          exact ih tail adjoining essences passed ran
  | @definition name body rest ident plain inside others ih =>
      obtain ⟨head, lexemes, split, rfl, tail⟩ := List.map_eq_cons_iff.mp listed
      rw [split] at same adjoining
      obtain ⟨other, twin, rfl, token, marks, essences⟩ := Lexeme.of_map_essence same
      obtain ⟨behind, others, listed, adjoining, essences, agree⟩ :=
        agree_upToPeriod builtins grammar first second more ident plain tail inside adjoining
          (marks ident) essences
      rw [loop_of_cons _ _ _ split] at ran
      rw [loop_of_cons _ _ _ pending, token]
      generalize (definitionsTurn registry grammar head.token).run (first.pass _ _) = leftEnd
        at agree ran
      generalize (definitionsTurn registry grammar head.token).run (second.pass _ _) = rightEnd
        at agree ⊢
      cases agree with
      | error _ _ => cases ran
      | ok kindred =>
          obtain ⟨⟨further, rfl⟩, rfl, right⟩ := kindred
          obtain ⟨between, sees, same⟩ := ih listed adjoining essences right.pending_eq ran
          exact ⟨between, right.ending_eq ▸ sees, same⟩

/-- Where complete definitions are read to the end, nothing is left open there. -/
theorem unclosed?_of_complete {grammar result : Grammar} {reading after : Reading}
    (complete : Complete (reading.pending.map Lexeme.token)) (adjoining : Adjoining reading.pending)
    (ran : loop pure (definitionsTurn registry) grammar reading = (.ok result, after)) :
    reading.ending.unclosed? = none := by
  obtain ⟨between, sees, same⟩ := exists_loop_of_complete builtins complete rfl adjoining rfl
    (List.append_nil _).symm ran
  rw [same, loop_of_nil _ _ _ sees.pending_eq] at ran
  obtain ⟨token, last, passed, _⟩ := run_bind_eq_ok ran
  obtain ⟨_, _, place, closed⟩ := sees.next_of_nil passed
  rw [closed]
  rfl

/-- A definition that is closed by a period ends there. -/
theorem definition_ends {grammar : Grammar} {name : Lexeme} {rest : List Lexeme}
    {reading after : Reading} {turn : Turn Grammar Grammar}
    (closes : Closes ((name :: rest).map Lexeme.token)) (adjoining : Adjoining (name :: rest))
    (ident : name.token.kind = .ident) (plain : name.token.text ≠ contextName)
    (ran : (definitionsTurn registry grammar name.token).run (reading.pass name rest) =
      (.ok turn, after)) :
    (∃ further, turn = .again further) ∧ ∃ body, .punct "." ∉ body ∧
      rest.map Lexeme.token = body ++ .punct "." :: after.pending.map Lexeme.token ∧
        Adjoining after.pending := by
  obtain ⟨body, others, split, inside⟩ := closes.exists_period ident
  -- the reading is compared with itself, which shows where it is left
  obtain ⟨behind, _, listed, adjoining, _, agree⟩ :=
    agree_upToPeriod builtins grammar reading reading [] ident plain split inside adjoining
      Iff.rfl rfl
  simp only [List.append_nil] at agree
  rw [ran] at agree
  cases agree with
  | ok kindred =>
      obtain ⟨again, rfl, _⟩ := kindred
      exact ⟨again, body, inside, listed ▸ split, adjoining⟩

/-- Where the last definition has its period, all have theirs, up to a block if there is one. -/
theorem complete_or_opensBlock {grammar result : Grammar} {reading after : Reading}
    (closes : Closes (reading.pending.map Lexeme.token)) (adjoining : Adjoining reading.pending)
    (ran : loop pure (definitionsTurn registry) grammar reading = (.ok result, after)) :
    Complete (reading.pending.map Lexeme.token) ∨
      OpensBlock (reading.pending.map Lexeme.token) := by
  fun_induction loop pure (definitionsTurn registry) grammar reading with
  | case1 grammar reading ended =>
      rw [ended]
      exact .inl .nil
  | case2 grammar reading lexeme rest pending failure left turned => cases ran
  | case3 grammar reading lexeme rest pending defined left turned =>
      rw [pending] at closes adjoining ⊢
      rcases definitionsTurn_cases turned with ⟨_, other, _⟩ | ⟨block, _⟩ | ⟨ident, plain⟩
      · cases other
      · exact .inr ⟨[], rest.map Lexeme.token, by rw [List.map_cons, block]; rfl, .nil⟩
      · obtain ⟨⟨further, other⟩, _⟩ :=
          definition_ends builtins closes adjoining ident plain turned
        cases other
  | case4 grammar reading lexeme rest pending further left turned shorter ih =>
      rw [pending] at closes adjoining ⊢
      rcases definitionsTurn_cases turned with ⟨semicolon, _, rfl⟩ | ⟨_, _, other⟩ | ⟨ident, plain⟩
      · cases adjoining with
        | cons _ adjoining =>
            have behind : Closes ([lexeme.token] ++ rest.map Lexeme.token) := closes
            rw [List.map_cons, semicolon]
            exact Complete.behind (.semicolon .nil) (ih behind.of_append adjoining ran)
      · cases other
      · obtain ⟨_, body, inside, split, adjoining⟩ :=
          definition_ends builtins closes adjoining ident plain turned
        have whole : lexeme.token :: rest.map Lexeme.token =
            lexeme.token :: (body ++ [.punct "."]) ++ left.pending.map Lexeme.token := by
          rw [split]
          simp
        rw [List.map_cons, whole] at closes ⊢
        exact Complete.behind (.definition ident plain inside .nil)
          (ih closes.of_append adjoining ran)

end

/-! ## A text that is read behind another -/

namespace Reader

variable {α β γ δ σ τ : Type}

/-- Two turns that both go on, or both end their loops. -/
inductive Turn.Matches (states : σ → τ → Prop) (results : α → β → Prop) :
    Turn σ α → Turn τ β → Prop where
  | again {state : σ} {other : τ} (related : states state other) :
      Matches states results (.again state) (.again other)
  | done {result : α} {other : β} (related : results result other) :
      Matches states results (.done result) (.done other)

/-- If the one reader succeeds, so does the other on an alike reading, with a related result. -/
def Follows (pre : Reading → Reading → Prop) (related : α → β → Prop) (leader : Reader α)
    (follower : Reader β) : Prop :=
  ∀ first second, pre first second → ∀ value after, leader.run first = (.ok value, after) →
    ∃ other further, follower.run second = (.ok other, further) ∧
      after.Alike False further ∧ related value other

namespace Follows

variable {pre : Reading → Reading → Prop} {related : α → β → Prop} {results : γ → δ → Prop}

theorem pure {value : α} {other : β} (holds : related value other)
    (alike : ∀ left right, pre left right → left.Alike False right) :
    Follows pre related (pure value) (pure other) := by
  intro first second kindred _ _ ran
  cases ran
  exact ⟨other, second, rfl, alike first second kindred, holds⟩

theorem reject (cause : Cause) {follower : Reader β} :
    Follows pre related (reject cause) follower := by
  intro first second kindred value after ran
  cases ran

theorem bind {leader : Reader α} {follower : Reader β} {left : α → Reader γ} {right : β → Reader δ}
    (begins : Follows pre related leader follower)
    (goes_on : ∀ value other, related value other →
      Follows (Reading.Alike False) results (left value) (right other)) :
    Follows pre results (leader >>= left) (follower >>= right) := by
  intro first second kindred value after ran
  obtain ⟨result, between, started, ended⟩ := run_bind_eq_ok ran
  obtain ⟨other, passed, also, alike, holds⟩ := begins first second kindred result between started
  rw [run_bind_of_ok also]
  exact goes_on result other holds between passed alike value after ended

/-- Both may begin with a reader that tallies on alike readings. -/
theorem seq {reader : Reader α} {left : α → Reader γ} {right : α → Reader δ}
    (tallies : (Kinship.layout False).Tallies pre reader fun _ => Reading.Alike False)
    (goes_on : ∀ value, Follows (Reading.Alike False) results (left value) (right value)) :
    Follows pre results (reader >>= left) (reader >>= right) := by
  have same : Follows pre Eq reader reader := by
    intro first second kindred value after ran
    have agree := tallies first second kindred
    rw [ran] at agree
    generalize reader.run second = rightEnd at agree ⊢
    cases agree with
    | ok alike => exact ⟨value, _, rfl, alike, rfl⟩
  exact same.bind fun value other equal => equal ▸ goes_on value

theorem eachToken {states : σ → τ → Prop} {finish : σ → Reader α}
    {turn : σ → Token → Reader (Turn σ α)} {other : τ → Reader β}
    {twin : τ → Token → Reader (Turn τ β)}
    (ends : ∀ state shared, states state shared →
      Follows (Reading.Alike False) related (finish state) (other shared))
    (turns : ∀ state shared token, states state shared →
      Follows (fun left right => left.Alike False right ∧
          (token.kind = .ident → (OpensHint left.follow ↔ OpensHint right.follow)))
        (Turn.Matches states related) (turn state token) (twin shared token))
    {state : σ} {shared : τ} (begins : states state shared) :
    Follows (Reading.Alike False) related (Reader.eachToken finish turn state)
      (Reader.eachToken other twin shared) := by
  intro first second alike value after ran
  rw [run_eachToken] at ran ⊢
  fun_induction loop finish turn state first generalizing shared second with
  | case1 state first ended =>
      rw [loop_of_nil _ _ _ (alike.of_nil ended).1]
      have last := Follows.seq Kinship.Keeps.next fun _ => ends state shared begins
      exact last first second alike value after ran
  | case2 state first lexeme rest pending failure after' turned => cases ran
  | case3 state first lexeme rest pending result after' turned =>
      cases ran
      obtain ⟨next, others, split, token, marks, passed⟩ := alike.of_cons pending
      obtain ⟨outcome, further, also, alike, related⟩ :=
        turns state shared lexeme.token begins _ _ ⟨passed, marks⟩ _ _ turned
      cases related with
      | done related =>
          rw [loop_of_cons _ _ _ split, token, also]
          exact ⟨_, further, rfl, alike, related⟩
  | case4 state first lexeme rest pending further after' turned shorter ih =>
      obtain ⟨next, others, split, token, marks, passed⟩ := alike.of_cons pending
      obtain ⟨outcome, reached, also, alike, related⟩ :=
        turns state shared lexeme.token begins _ _ ⟨passed, marks⟩ _ _ turned
      cases related with
      | again begins =>
          rw [loop_of_cons _ _ _ split, token, also]
          exact ih begins _ alike ran

end Follows

/-- Default bindings for names that are declared in the one text are bindings in both. -/
theorem follows_context {lower alone shared : Table Nonterminal}
    (merges : lower.Merges alone shared) :
    Follows (Reading.Alike False) lower.Merges (context alone) (context shared) := by
  refine Follows.seq Kinship.keeps_skipPeriod fun _ => Follows.eachToken ?_ ?_ merges
  · exact fun alone shared merges => .pure merges fun _ _ alike => alike
  · intro alone shared token merges
    unfold contextTurn
    split
    · exact .reject _
    · refine Follows.seq (Kinship.Tallies.turn (Kinship.Tallies.expect (by decide))) fun _ => ?_
      cases declared : alone.get? token.text with
      | none => exact .reject _
      | some nonterminal =>
          have known := merges.get? token.text
          rw [declared, Option.some_or] at known
          rw [known]
          exact Follows.seq (Kinship.keeps_bindings _ _) fun defaults =>
            .pure (.again (merges.set _ _)) fun _ _ alike => alike

/-- A nonterminal is entered into both grammars. The first has a start already. -/
theorem follows_define {first alone shared : Grammar} (begun : first.start ≠ none)
    (merges : first.Merges alone shared) (nonterminal : Nonterminal) :
    Follows (Reading.Alike False) first.Merges (define alone nonterminal)
      (define shared nonterminal) := by
  -- only one of the two may note that the name is defined again
  have noted (grammar : Grammar) (reading : Reading) : ∃ log,
      (define grammar nonterminal).run reading =
        (.ok ⟨grammar.table.set nonterminal.name nonterminal,
          grammar.start <|> some nonterminal.name⟩, { reading with log := log }) := by
    unfold define
    split <;> exact ⟨_, rfl⟩
  intro left right alike value after ran
  obtain ⟨log, defined⟩ := noted alone left
  rw [defined] at ran
  cases ran
  obtain ⟨log, also⟩ := noted shared right
  refine ⟨_, _, also, ⟨alike.pending, alike.ending, nofun, nofun⟩, merges.table.set _ _, ?_⟩
  obtain ⟨start, known⟩ := Option.ne_none_iff_exists'.mp begun
  simp [merges.start, known]

theorem follows_definitionsTurn {first alone shared : Grammar} (begun : first.start ≠ none)
    (merges : first.Merges alone shared) (token : Token) :
    Follows (fun left right => left.Alike False right ∧
        (token.kind = .ident → (OpensHint left.follow ↔ OpensHint right.follow)))
      (Turn.Matches first.Merges first.Merges) (definitionsTurn Registry.default alone token)
      (definitionsTurn Registry.default shared token) := by
  unfold definitionsTurn
  split
  · exact .pure (.again merges) fun _ _ passed => passed.1
  · split
    · exact .reject _
    · rename_i ident
      refine Follows.seq ((Kinship.tallies_depthHint _ token.text).weaken
        (fun _ _ passed => Kinship.headed_layout passed.1 (passed.2 (not_not.mp ident)))
          fun _ _ _ alike => alike) fun hint => ?_
      split
      · exact (follows_context merges.table).bind fun table other tables =>
          .pure (.done ⟨tables, merges.start⟩) fun _ _ alike => alike
      · have builtins (text : String) (reader : Reader Leaf)
            (entry : Registry.default.builtins.get? text = some reader) :
            (Kinship.layout False).Keeps reader := builtin_eq_range entry ▸ Kinship.keeps_range _
        exact Follows.seq (Kinship.tallies_rules builtins token.text) fun rules =>
          (follows_define begun merges _).bind fun defined other grammars =>
            .pure (.again grammars) fun _ _ alike => alike

end Reader

/-! ## Both texts -/

namespace Grammar

theorem read_of_definitions {registry : Registry} {text : String} {grammar : Grammar}
    {after : Reading} (filled : grammar.table.isEmpty = false)
    (ran : (definitions registry).run (.ofText text) = (.ok grammar, after)) :
    (read registry text).1 = .ok grammar := by
  rw [read, Reader.grammar, run_bind_of_ok ran, filled]
  rfl

theorem definitions_of_read {registry : Registry} {text : String} {grammar : Grammar}
    (accepted : (read registry text).1 = .ok grammar) :
    ∃ after, (definitions registry).run (.ofText text) = (.ok grammar, after) := by
  obtain ⟨defined, between, ran, done⟩ := run_bind_eq_ok (Prod.ext accepted rfl)
  split at done
  · cases done
  · cases done
    exact ⟨_, ran⟩

/--
Sources concatenate. If the first text opens no block of default bindings and
its last definition ends with a period, a second text behind it, on a line of
its own, is read as it would be alone, and the grammar is that of the first text
with that of the second set above it.
-/
theorem exists_merges_of_read {first second : String} {left right : Grammar}
    (plain : ¬OpensBlock ((lexemes first).1.map Lexeme.token))
    (closes : Closes ((lexemes first).1.map Lexeme.token))
    (former : (read Registry.default first).1 = .ok left)
    (latter : (read Registry.default second).1 = .ok right) :
    ∃ merged, (read Registry.default (first ++ "\n" ++ second)).1 = .ok merged ∧
      left.Merges right merged := by
  obtain ⟨after, ran⟩ := definitions_of_read former
  obtain ⟨last, also⟩ := definitions_of_read latter
  have builtins (text : String) (reader : Reader Leaf)
      (entry : Registry.default.builtins.get? text = some reader) (kin : Kinship) :
      kin.Keeps reader := builtin_eq_range entry ▸ kin.keeps_range
  have adjoining : Adjoining (lexemes first).1 := Lexeme.adjoining_scan _ _ _
  have complete : Complete ((lexemes first).1.map Lexeme.token) :=
    (complete_or_opensBlock builtins closes adjoining ran).resolve_right plain
  have closed : (essence first).2 = none := unclosed?_of_complete builtins complete adjoining ran
  have joined := essence_append second closed
  obtain ⟨twin, more, split, same, behind⟩ := List.map_eq_append_iff.mp (congrArg Prod.fst joined)
  have pending : (Reading.ofText (first ++ "\n" ++ second)).pending = twin ++ more := split
  obtain ⟨between, sees, goes_on⟩ :=
    exists_loop_of_complete builtins complete rfl adjoining same pending ran
  have alike : (Reading.ofText second).Alike False between :=
    ⟨by rw [sees.pending_eq, behind]; rfl,
      by rw [sees.ending_eq]; exact (congrArg Prod.snd joined).symm, nofun, nofun⟩
  obtain ⟨initial, head, started⟩ := start_of_read former
  have begun : left.start ≠ none := by simp [started]
  -- the second text begins with nothing alone, and with the first text's grammar behind it
  have begins : left.Merges ⟨.empty, none⟩ left := ⟨.empty _, rfl⟩
  obtain ⟨merged, further, reached, _, merges⟩ :=
    Follows.eachToken (fun alone shared merges => .pure merges fun _ _ alike => alike)
      (fun alone shared token merges => follows_definitionsTurn begun merges token) begins
      _ _ alike _ _ also
  have filled : merged.table.isEmpty = false := by
    refine Bool.eq_false_iff.mpr fun empty => ?_
    rw [Table.isEmpty_iff_keys_eq_nil, merges.table.keys, List.append_eq_nil_iff] at empty
    rw [empty.1] at head
    cases head
  exact ⟨merged, read_of_definitions filled (goes_on.trans reached), merges⟩

/-- Two definitions, a stray semicolon and a comment up to the end of the text. -/
def formerText : String :=
  "S : T . T#2 : U . ; // no more"

/-- A stray semicolon, a definition that replaces one, a new one and default bindings. -/
def latterText : String :=
  "; T : S ; | V . V : T . Context. T : n = -1 ."

/-- What the first text defines. -/
def former : Grammar where
  table := .ofList [
    ("S", ⟨"S", [[.unresolved "T"]], .empty, none⟩),
    ("T", ⟨"T", [[.unresolved "U"]], .empty, some 2⟩)]
  start := some "S"

/-- What the second text defines. -/
def latter : Grammar where
  table := .ofList [
    ("T", ⟨"T", [[.unresolved "S"], [.unresolved "V"]], .ofList [("n", .integer (-1))], none⟩),
    ("V", ⟨"V", [[.unresolved "T"]], .empty, none⟩)]
  start := some "T"

theorem exists_merges_of_read_commented :
    (read Registry.default formerText).1 = .ok former ∧
      (read Registry.default latterText).1 = .ok latter ∧
        ∃ merged, (read Registry.default (formerText ++ "\n" ++ latterText)).1 = .ok merged ∧
          former.Merges latter merged := by
  have first : (read Registry.default formerText).1 = .ok former := by decide +kernel
  have second : (read Registry.default latterText).1 = .ok latter := by decide +kernel
  have plain : ¬OpensBlock ((lexemes formerText).1.map Lexeme.token) := by
    rintro ⟨front, rest, split, _⟩
    have member : ⟨.ident, contextName⟩ ∈ (lexemes formerText).1.map Lexeme.token :=
      split ▸ List.mem_append_right front List.mem_cons_self
    revert member
    decide +kernel
  have closes : Closes ((lexemes formerText).1.map Lexeme.token) :=
    ⟨((lexemes formerText).1.map Lexeme.token).dropLast, [.punct ";"], by decide +kernel,
      by decide, by decide +kernel⟩
  exact ⟨first, second, exists_merges_of_read plain closes first second⟩

end Grammar

end PhraseGrammar
