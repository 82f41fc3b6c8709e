import PhraseGrammar.Proofs.Rules.RangeRecognition
import PhraseGrammar.Proofs.Token.Essence
import PhraseGrammar.Rules.Definition

/-!
# Kindred readings

Two readings of different texts may be kindred: they go on with the same tokens
as long as a definition lasts, whatever else the texts hold. A reader tallies on
such readings if it comes to the same result, or to the same failure but for its
place, and leaves them kindred. There is one rule for each way to put readers
together; the readers of definitions are composed from them, for every notion of
kinship.
-/

namespace PhraseGrammar

open Reader

/-- The same failure, or failures for one cause at two places. -/
inductive ParseFailure.SameButPlace : ParseFailure → ParseFailure → Prop where
  | same (failure : ParseFailure) : SameButPlace failure failure
  | located (cause : Cause) (first second : Position) :
      SameButPlace (.located cause first) (.located cause second)

theorem ParseFailure.SameButPlace.orAt {first second : ParseFailure}
    (same : first.SameButPlace second) (left right : Position) :
    (first.orAt left).SameButPlace (second.orAt right) := by
  cases same with
  | located cause first second => exact .located cause first second
  | same =>
      cases first with
      | grammar error =>
          simp only [ParseFailure.orAt, GrammarError.orAt]
          cases error.line with
          | none => exact .located error.cause left right
          | some line => exact .same _
      | numeral => exact .same _
      | codePointTooLarge => exact .same _
      | notOneCharacter => exact .same _

/-- The same result or, but for places, the same failure, and readings left as described. -/
inductive Reader.Agree {α : Type} (post : α → Reading → Reading → Prop)
    (torn : Reading → Reading → Prop) :
    Except ParseFailure α × Reading → Except ParseFailure α × Reading → Prop where
  | ok {value : α} {first second : Reading} (holds : post value first second) :
      Agree post torn (.ok value, first) (.ok value, second)
  | error {failure other : ParseFailure} {first second : Reading}
      (same : failure.SameButPlace other) (left : torn first second) :
      Agree post torn (.error failure, first) (.error other, second)

/-! ## Kinship -/

/--
How two readings may stand to each other inside a definition, behind the period
that ends it, and after a failure. Inside they have the same token before them,
with a depth marker behind it in both or in neither, and it keeps them inside
unless it is a period.
-/
structure Kinship where
  inner : Reading → Reading → Prop
  outer : Reading → Reading → Prop
  torn : Reading → Reading → Prop
  next_of_cons {first second : Reading} {lexeme : Lexeme} {rest : List Lexeme}
    (kindred : inner first second) (pending : first.pending = lexeme :: rest) :
    ∃ other others, second.pending = other :: others ∧ other.token = lexeme.token ∧
      (lexeme.token.kind = .ident → (OpensHint lexeme.follow ↔ OpensHint other.follow)) ∧
        (if lexeme.token = .punct "." then outer else inner) (first.pass lexeme rest)
          (second.pass other others)
  /-- The end of the text may stand for a period. -/
  next_of_nil {first second : Reading} (kindred : inner first second)
    (pending : first.pending = []) : second.pending = [] ∧
      Agree (fun _ left right => inner left right ∧ outer left right) torn first.next second.next
  note {first second : Reading} (event : Event) (kindred : outer first second) :
    outer { first with log := first.log ++ [event] } { second with log := second.log ++ [event] }
  torn_of_inner {first second : Reading} (kindred : inner first second) : torn first second
  torn_of_outer {first second : Reading} (kindred : outer first second) : torn first second

namespace Kinship

variable {α β σ : Type} (kin : Kinship)

/-- How kindred readings stand behind a token. -/
def behind (token : Token) : Reading → Reading → Prop :=
  if token = .punct "." then kin.outer else kin.inner

/-- Inside a definition, the token being the next one. -/
def awaiting (token : Token) (first second : Reading) : Prop :=
  kin.inner first second ∧ first.upcoming = .ok token

/-- Behind a turn of a loop: inside if the loop goes on, and else as its result says. -/
def turned (post : α → Reading → Reading → Prop) : Turn σ α → Reading → Reading → Prop
  | .again _ => kin.inner
  | .done result => post result

/-- From readings that stand as `pre` says the reader goes on alike. -/
def Tallies (pre : Reading → Reading → Prop) (reader : Reader α)
    (post : α → Reading → Reading → Prop) : Prop :=
  ∀ first second, pre first second → Agree post kin.torn (reader.run first) (reader.run second)

/-- The reader stays inside a definition. -/
def Keeps (reader : Reader α) : Prop :=
  kin.Tallies kin.inner reader fun _ => kin.inner

variable {kin} {token : Token} {pre : Reading → Reading → Prop}
  {post : α → Reading → Reading → Prop} {first second : Reading}

theorem inner_of_behind (kindred : kin.behind token first second) (other : token ≠ .punct ".") :
    kin.inner first second := by
  rwa [behind, if_neg other] at kindred

theorem behind_of_ne (other : token ≠ .punct ".") : kin.behind token = kin.inner :=
  if_neg other

theorem behind_of_kind {kind : Kind} (known : token.kind = kind) (other : kind ≠ .punct) :
    kin.behind token = kin.inner :=
  behind_of_ne fun period => other (known.symm.trans (congrArg Token.kind period))

theorem behind_of_text {text : String} (known : token.text = text) (other : text ≠ ".") :
    kin.behind token = kin.inner :=
  behind_of_ne fun period => other (known.symm.trans (congrArg Token.text period))

theorem behind_punct {text : String} (other : text ≠ ".") :
    kin.behind (.punct text) = kin.inner :=
  behind_of_text rfl other

theorem behind_period : kin.behind (.punct ".") = kin.outer :=
  if_pos rfl

theorem torn_of_behind (kindred : kin.behind token first second) : kin.torn first second := by
  rw [behind] at kindred
  split at kindred
  · exact kin.torn_of_outer kindred
  · exact kin.torn_of_inner kindred

/-! ## The readers of a grammar -/

namespace Tallies

theorem pure {value : α} (holds : ∀ left right, pre left right → post value left right) :
    kin.Tallies pre (pure value) post :=
  fun left right kindred => .ok (holds left right kindred)

theorem fail (failure : ParseFailure)
    (fails : ∀ left right, pre left right → kin.torn left right) :
    kin.Tallies pre (fail failure) post :=
  fun left right kindred => .error (.same failure) (fails left right kindred)

/-- Only the place of a refusal depends on the reading. -/
theorem reject (cause : Cause) (fails : ∀ left right, pre left right → kin.torn left right) :
    kin.Tallies pre (reject cause) post :=
  fun left right kindred =>
    .error (.located cause left.place right.place) (fails left right kindred)

theorem ofExcept {result : Except ParseFailure α}
    (holds : ∀ value left right, result = .ok value → pre left right → post value left right)
    (fails : ∀ left right, pre left right → kin.torn left right) :
    kin.Tallies pre (ofExcept result) post := by
  intro left right kindred
  cases result with
  | ok value => exact .ok (holds value left right rfl kindred)
  | error failure => exact .error (.same failure) (fails left right kindred)

theorem bind {before : Reader α} {further : α → Reader β}
    {result : β → Reading → Reading → Prop}
    (begins : kin.Tallies pre before post)
    (goes_on : ∀ value, kin.Tallies (post value) (further value) result) :
    kin.Tallies pre (before >>= further) result := by
  intro left right kindred
  have agree := begins left right kindred
  rw [run_bind, run_bind]
  generalize before.run left = leftEnd at agree ⊢
  generalize before.run right = rightEnd at agree ⊢
  cases agree with
  | ok holds => exact goes_on _ _ _ holds
  | error same torn => exact .error same torn

theorem weaken {reader : Reader α} {strong : Reading → Reading → Prop}
    {weak : α → Reading → Reading → Prop} (tallies : kin.Tallies pre reader post)
    (before : ∀ left right, strong left right → pre left right)
    (after : ∀ value left right, post value left right → weak value left right) :
    kin.Tallies strong reader weak := by
  intro left right kindred
  have agree := tallies left right (before left right kindred)
  generalize reader.run left = leftEnd at agree ⊢
  generalize reader.run right = rightEnd at agree ⊢
  cases agree with
  | ok holds => exact .ok (after _ _ _ holds)
  | error same torn => exact .error same torn

/-- Most turns do not look at the character behind their token. -/
theorem turn {reader : Reader α} {marks : Reading → Reading → Prop}
    (tallies : kin.Tallies pre reader post) :
    kin.Tallies (fun left right => pre left right ∧ marks left right) reader post :=
  tallies.weaken (fun _ _ passed => passed.1) fun _ _ _ kindred => kindred

theorem orAtPlace {reader : Reader α} (tallies : kin.Tallies pre reader post) :
    kin.Tallies pre reader.orAtPlace post := by
  intro left right kindred
  have agree := tallies left right kindred
  simp only [Reader.orAtPlace]
  generalize reader.run left = leftEnd at agree ⊢
  generalize reader.run right = rightEnd at agree ⊢
  cases agree with
  | ok holds => exact .ok holds
  | error same torn => exact .error (same.orAt _ _) torn

theorem next : kin.Tallies kin.inner next kin.behind := by
  intro left right kindred
  simp only [run_next]
  cases pending : left.pending with
  | cons lexeme rest =>
      obtain ⟨other, others, split, token, _, passed⟩ := kin.next_of_cons kindred pending
      simp only [Reading.next, pending, split, token]
      exact .ok passed
  | nil =>
      -- the end is no period, so that what comes behind it counts as inside
      obtain ⟨_, agree⟩ := kin.next_of_nil kindred pending
      have ended : left.next.1 ≠ .ok (.punct ".") := by
        rw [Reading.next, pending]
        cases left.ending <;> simp [Token.eof, Token.punct]
      generalize left.next = leftEnd at agree ended ⊢
      generalize right.next = rightEnd at agree ⊢
      cases agree with
      | ok both =>
          refine .ok ?_
          rw [behind_of_ne fun period => ended (congrArg Except.ok period)]
          exact both.1
      | error same torn => exact .error same torn

theorem peek : kin.Tallies kin.inner peek kin.awaiting := by
  intro left right kindred
  have agree := next left right kindred
  rw [run_next, run_next] at agree
  rw [run_peek, run_peek]
  have seen : left.upcoming = left.next.1 := rfl
  have also : right.upcoming = right.next.1 := rfl
  generalize left.next = leftEnd at agree seen
  generalize right.next = rightEnd at agree also
  cases agree with
  | ok _ =>
      rw [seen, also]
      exact .ok ⟨kindred, seen⟩
  | error same _ =>
      rw [seen, also]
      exact .error same (kin.torn_of_inner kindred)

/-- What has been seen ahead comes next. -/
theorem next_of_awaiting :
    kin.Tallies (kin.awaiting token) Reader.next fun _ => kin.behind token := by
  intro left right awaiting
  have agree := next left right awaiting.1
  have seen : (Reader.next.run left).1 = .ok token := awaiting.2
  generalize Reader.next.run left = leftEnd at agree seen ⊢
  generalize Reader.next.run right = rightEnd at agree ⊢
  cases agree with
  | ok kindred =>
      obtain rfl := Except.ok.inj seen
      exact .ok kindred
  | error same torn => cases seen

theorem expect {text : String} (other : text ≠ ".") : kin.Keeps (expect text) := by
  refine next.bind fun token => ?_
  split
  · rename_i known
    rw [known, behind_punct other]
    exact pure fun _ _ kindred => kindred
  · exact reject _ fun _ _ => torn_of_behind

/-- Where one loop takes a turn, the other takes one that agrees, and goes on as it says. -/
theorem exists_turn (finish : σ → Reader α) {turn : σ → Token → Reader (Turn σ α)}
    (turns : ∀ state token, kin.Tallies
      (fun left right => kin.behind token left right ∧
        (token.kind = .ident → (OpensHint left.follow ↔ OpensHint right.follow)))
      (turn state token) (kin.turned post))
    {state : σ} {left right : Reading} {lexeme : Lexeme} {rest : List Lexeme}
    (kindred : kin.inner left right) (pending : left.pending = lexeme :: rest) :
    ∃ taken, Agree (kin.turned post) kin.torn
        ((turn state lexeme.token).run (left.pass lexeme rest)) taken ∧
      loop finish turn state right =
        match taken with
        | (.error failure, after) => (.error failure, after)
        | (.ok (.done result), after) => (.ok result, after)
        | (.ok (.again further), after) => loop finish turn further after := by
  obtain ⟨other, others, split, token, marks, passed⟩ := kin.next_of_cons kindred pending
  have step := loop_of_cons finish turn state split
  rw [token] at step
  exact ⟨_, turns state lexeme.token _ _ ⟨passed, marks⟩, step⟩

/-- The turns of a loop stand right behind the tokens that they see. -/
theorem eachToken {finish : σ → Reader α} {turn : σ → Token → Reader (Turn σ α)}
    (ends : ∀ state, kin.Tallies (fun left right => kin.inner left right ∧ kin.outer left right)
      (finish state) post)
    (turns : ∀ state token, kin.Tallies
      (fun left right => kin.behind token left right ∧
        (token.kind = .ident → (OpensHint left.follow ↔ OpensHint right.follow)))
      (turn state token) (kin.turned post)) (state : σ) :
    kin.Tallies kin.inner (eachToken finish turn state) post := by
  intro left right kindred
  rw [run_eachToken, run_eachToken]
  fun_induction loop finish turn state left generalizing right with
  | case1 state left ended =>
      obtain ⟨split, agree⟩ := kin.next_of_nil kindred ended
      rw [loop_of_nil _ _ _ split, run_bind, run_bind, run_next, run_next]
      generalize left.next = leftEnd at agree ⊢
      generalize right.next = rightEnd at agree ⊢
      cases agree with
      | ok both => exact ends state _ _ both
      | error same torn => exact .error same torn
  | case2 state left lexeme rest pending failure after ran =>
      obtain ⟨taken, agree, goes_on⟩ := exists_turn finish turns kindred pending
      rw [goes_on]
      rw [ran] at agree
      cases agree with
      | error same torn => exact .error same torn
  | case3 state left lexeme rest pending result after ran =>
      obtain ⟨taken, agree, goes_on⟩ := exists_turn finish turns kindred pending
      rw [goes_on]
      rw [ran] at agree
      cases agree with
      | ok holds => exact .ok holds
  | case4 state left lexeme rest pending further after ran shorter ih =>
      obtain ⟨taken, agree, goes_on⟩ := exists_turn finish turns kindred pending
      rw [goes_on]
      rw [ran] at agree
      cases agree with
      | ok holds => exact ih _ holds

end Tallies

variable (kin)

theorem keeps_integer (token : Token) : kin.Keeps (integer token) :=
  .ofExcept (fun _ _ _ _ kindred => kindred) fun _ _ => kin.torn_of_inner

theorem tallies_signedInteger (negative : Bool) (numeral : Token) :
    kin.Tallies (kin.behind numeral) (signedInteger negative numeral) fun _ => kin.inner := by
  unfold signedInteger
  split
  · exact .reject _ fun _ _ => torn_of_behind
  · rename_i number
    rw [behind_of_kind (not_not.mp number) nofun]
    exact (kin.keeps_integer numeral).bind fun size => .pure fun _ _ kindred => kindred

theorem tallies_argument (token : Token) :
    kin.Tallies (kin.behind token) (argument token) fun _ => kin.inner := by
  unfold argument
  split
  · rename_i minus
    rw [behind_of_text minus (by decide)]
    exact Tallies.next.bind fun numeral => kin.tallies_signedInteger true numeral
  · exact kin.tallies_signedInteger false token

theorem keeps_rangeArguments : kin.Keeps rangeArguments := by
  refine (Tallies.expect (by decide)).bind fun _ => Tallies.peek.bind fun token => ?_
  split
  · rename_i closes
    refine Tallies.next_of_awaiting.bind fun _ => ?_
    rw [behind_of_text closes (by decide)]
    exact .pure fun _ _ kindred => kindred
  · refine Tallies.weaken (.eachToken (fun _ => ?_) (fun arguments token => ?_) _)
      (fun _ _ awaiting => awaiting.1) fun _ _ _ kindred => kindred
    · exact .reject _ fun _ _ both => kin.torn_of_inner both.1
    · rw [rangeTurn_eq]
      refine Tallies.turn ?_
      refine (kin.tallies_argument token).bind fun size => Tallies.next.bind fun mark => ?_
      split
      · rename_i closes
        rw [behind_of_text closes (by decide)]
        exact .pure fun _ _ kindred => kindred
      · split
        · rename_i comma
          rw [behind_of_text comma (by decide)]
          exact .pure fun _ _ kindred => kindred
        · exact .reject _ fun _ _ => torn_of_behind

theorem keeps_range : kin.Keeps range := by
  refine kin.keeps_rangeArguments.bind fun arguments => ?_
  split
  · split
    · exact .fail _ fun _ _ => kin.torn_of_inner
    · exact .pure fun _ _ kindred => kindred
  · exact .reject _ fun _ _ => kin.torn_of_inner

section

variable {kin} {registry : Registry}
  (builtins : ∀ text reader, registry.builtins.get? text = some reader → kin.Keeps reader)

include builtins

theorem keeps_node (token : Token) : kin.Keeps (node registry token) := by
  have leaf (result : Except ParseFailure Node) : kin.Keeps (Reader.ofExcept result) :=
    .ofExcept (fun _ _ _ _ kindred => kindred) fun _ _ => kin.torn_of_inner
  unfold node
  split
  · exact leaf _
  · split
    · exact leaf _
    · split
      · rename_i reader entry
        exact (builtins _ reader entry).bind fun leaf => .pure fun _ _ kindred => kindred
      · split
        · refine Tallies.next.bind fun name => ?_
          split
          · exact .reject _ fun _ _ => torn_of_behind
          · rename_i ident
            rw [behind_of_kind (not_not.mp ident) nofun]
            split
            · exact .reject _ fun _ _ => kin.torn_of_inner
            · exact leaf _
        · exact .pure fun _ _ kindred => kindred

/-- A semicolon stays inside the definition, and a period leaves it. -/
theorem tallies_nodes : kin.Tallies kin.inner (nodes registry) fun result =>
    if result.2 then kin.inner else kin.outer := by
  refine .eachToken (fun nodes => ?_) (fun nodes token => ?_) _
  · exact .pure fun _ _ both => both.2
  unfold nodesTurn
  refine Tallies.turn ?_
  split
  · rename_i period
    rw [period, behind_period]
    exact .pure fun _ _ kindred => kindred
  · rename_i other
    rw [behind_of_ne other]
    split
    · exact .pure fun _ _ kindred => kindred
    · exact (keeps_node builtins token).orAtPlace.bind fun node => .pure fun _ _ kindred => kindred

theorem tallies_rules (name : String) :
    kin.Tallies kin.inner (rules registry name) fun _ => kin.outer := by
  refine .eachToken (fun rules => .reject _ fun _ _ both => kin.torn_of_inner both.1)
    (fun rules token => ?_) _
  unfold rulesTurn
  refine Tallies.turn ?_
  split
  · rename_i mark
    have other : ruleMark rules ≠ "." := by
      unfold ruleMark
      split <;> decide
    rw [mark, behind_punct other]
    refine (tallies_nodes builtins).bind fun result => ?_
    obtain ⟨rule, more⟩ := result
    cases more with
    | true => exact .pure fun _ _ kindred => kindred
    | false => exact .pure fun _ _ kindred => kindred
  · exact .reject _ fun _ _ => torn_of_behind

end

/--
Right behind the name of a definition. A depth marker there stands in both
texts or in neither, and does not leave the definition.
-/
structure Headed (first second : Reading) : Prop where
  inner : kin.inner first second
  marks : OpensHint first.follow ↔ OpensHint second.follow
  marker {token : Token} {left right : Reading} (opens : OpensHint first.follow)
    (comes : first.upcoming = .ok token) (kindred : kin.behind token left right) :
    kin.inner left right

variable {kin} in
theorem Tallies.next_of_headed :
    kin.Tallies (fun left right => kin.Headed left right ∧ OpensHint left.follow) Reader.next
      fun _ => kin.inner := by
  rintro left right ⟨headed, opens⟩
  have agree := Tallies.next left right headed.inner
  have comes : left.upcoming = (Reader.next.run left).1 := rfl
  generalize Reader.next.run left = leftEnd at agree comes ⊢
  generalize Reader.next.run right = rightEnd at agree ⊢
  cases agree with
  | ok kindred => exact .ok (headed.marker opens comes kindred)
  | error same torn => exact .error same torn

/-- The one reader that looks at the character behind the last token, which is an identifier. -/
theorem tallies_depthHint (name : String) :
    kin.Tallies kin.Headed (depthHint name) fun _ => kin.inner := by
  have marked : kin.Tallies (fun left right => kin.Headed left right ∧ OpensHint left.follow)
      (next >>= fun marker => next >>= fun token =>
        if token.kind ≠ .int then reject (.expectedHint name marker.text token)
        else integer token >>= fun hint => pure (some hint)) fun _ => kin.inner := by
    refine Tallies.next_of_headed.bind fun marker => Tallies.next.bind fun token => ?_
    split
    · exact .reject _ fun _ _ => torn_of_behind
    · rename_i number
      rw [behind_of_kind (not_not.mp number) nofun]
      exact (kin.keeps_integer token).bind fun hint => .pure fun _ _ kindred => kindred
  intro first second headed
  unfold depthHint
  rw [run_bind, run_bind, run_follow, run_follow]
  dsimp only
  by_cases left : first.follow = some '!' ∨ first.follow = some '#'
  · have right : second.follow = some '!' ∨ second.follow = some '#' := headed.marks.mp left
    rw [if_pos left, if_pos right]
    exact marked first second ⟨headed, left⟩
  · have right : ¬(second.follow = some '!' ∨ second.follow = some '#') :=
      fun opens => left (headed.marks.mpr opens)
    rw [if_neg left, if_neg right]
    exact .ok headed.inner

theorem tallies_define (grammar : Grammar) (nonterminal : Nonterminal) :
    kin.Tallies kin.outer (define grammar nonterminal) fun _ => kin.outer := by
  have noted (event : Event) : kin.Tallies kin.outer (Reader.note event) fun _ => kin.outer :=
    fun left right kindred => .ok (kin.note event kindred)
  unfold define
  split
  · exact (noted _).bind fun _ => (noted _).bind fun _ => .pure fun _ _ kindred => kindred
  · exact (noted _).bind fun _ => .pure fun _ _ kindred => kindred

/-- A definition, its name already read, is left behind its period. -/
theorem tallies_definition {registry : Registry}
    (builtins : ∀ text reader, registry.builtins.get? text = some reader → kin.Keeps reader)
    (grammar : Grammar) {token : Token} (ident : token.kind = .ident)
    (plain : token.text ≠ contextName) :
    kin.Tallies kin.Headed (definitionsTurn registry grammar token) fun turn left right =>
      (∃ further, turn = .again further) ∧ kin.outer left right := by
  have mark : token ≠ .punct ";" := fun semicolon => nomatch semicolon ▸ ident
  unfold definitionsTurn
  rw [if_neg mark, if_neg (not_not.mpr ident)]
  refine (kin.tallies_depthHint token.text).bind fun hint => ?_
  rw [if_neg plain]
  exact (tallies_rules builtins token.text).bind fun rules =>
    (kin.tallies_define grammar _).bind fun further =>
      .pure fun _ _ kindred => ⟨⟨_, rfl⟩, kindred⟩

end Kinship

end PhraseGrammar
