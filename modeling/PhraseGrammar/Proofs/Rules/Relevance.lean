import PhraseGrammar.Proofs.Rules.Failures

/-!
# What a text asks of a registry

Reading a text asks a registry for the literals of its tokens' kinds, for the
terminals of those texts that have no literal, and for the readers of those that
have neither. Two registries that agree on what is asked give the same grammar
or the same failure, whatever else they hold. Which tokens are looked up depends
on what the readers of the registry consume, but all of them are tokens of the
text, and a reader sees no registry.
-/

namespace PhraseGrammar

namespace Registry

/-- The two registries have the same entries for these tokens, as far as they are asked for. -/
structure AgreeOn (first : Registry) (tokens : List Token) (second : Registry) : Prop where
  literals : ∀ token ∈ tokens,
    first.literals.get? token.kind.name = second.literals.get? token.kind.name
  reference : first.literals.get? referenceName = second.literals.get? referenceName
  /-- A literal hides what else is registered for a token. -/
  terminals : ∀ token ∈ tokens, first.literals.get? token.kind.name = none →
    first.terminals.get? token.text = second.terminals.get? token.text
  /-- And so does a terminal. -/
  builtins : ∀ token ∈ tokens, first.literals.get? token.kind.name = none →
    first.terminals.get? token.text = none →
      first.builtins.get? token.text = second.builtins.get? token.text

variable {tokens : List Token}

theorem AgreeOn.trans {first second third : Registry} (left : first.AgreeOn tokens second)
    (right : second.AgreeOn tokens third) : first.AgreeOn tokens third where
  literals token member := (left.literals token member).trans (right.literals token member)
  reference := left.reference.trans right.reference
  terminals token member unlisted :=
    have also := (left.literals token member).symm.trans unlisted
    (left.terminals token member unlisted).trans (right.terminals token member also)
  builtins token member unlisted plain :=
    have also := (left.literals token member).symm.trans unlisted
    have bare := (left.terminals token member unlisted).symm.trans plain
    (left.builtins token member unlisted plain).trans (right.builtins token member also bare)

variable (registry : Registry) {name : String}

theorem agreeOn_setLiteral (construct : String → Except ParseFailure Leaf)
    (other : name ≠ referenceName) (absent : ∀ token ∈ tokens, token.kind.name ≠ name) :
    registry.AgreeOn tokens (registry.setLiteral name construct) where
  literals token member := by
    rw [setLiteral, Table.get?_set, if_neg (absent token member)]
  reference := by rw [setLiteral, Table.get?_set, if_neg other.symm]
  terminals _ _ _ := rfl
  builtins _ _ _ _ := rfl

theorem agreeOn_setTerminal (made : Except ParseFailure Leaf)
    (hidden : ∀ token ∈ tokens, token.text = name → registry.literals.get? token.kind.name ≠ none) :
    registry.AgreeOn tokens { registry with terminals := registry.terminals.set name made } where
  literals _ _ := rfl
  reference := rfl
  terminals token member unlisted := by
    rw [Table.get?_set, if_neg fun same => hidden token member same unlisted]
  builtins _ _ _ _ := rfl

theorem agreeOn_setBuiltin (reader : Reader Leaf)
    (hidden : ∀ token ∈ tokens, token.text = name →
      registry.literals.get? token.kind.name = none → registry.terminals.get? name ≠ none) :
    registry.AgreeOn tokens (registry.setBuiltin name reader) where
  literals _ _ := rfl
  reference := rfl
  terminals _ _ _ := rfl
  builtins token member unlisted plain := by
    have other : token.text ≠ name := by
      rintro rfl
      exact hidden token member rfl unlisted plain
    rw [setBuiltin, Table.get?_set, if_neg other]

end Registry

namespace Reader

variable {α β σ : Type} {tokens : List Token}

/-- Where none but these tokens are still to come the readers run alike. -/
def AlikeOn (tokens : List Token) (first second : Reader α) : Prop :=
  ∀ reading, Within tokens reading → first.run reading = second.run reading

/-- No reader brings in a token. -/
theorem Within.after {reading : Reading} (within : Within tokens reading) (reader : Reader α) :
    Within tokens (reader.run reading).2 :=
  fun lexeme pending => within lexeme ((reader.forward reading).mem pending)

namespace AlikeOn

theorem refl (reader : Reader α) : AlikeOn tokens reader reader :=
  fun _ _ => rfl

theorem bind {first second : Reader α} {further others : α → Reader β}
    (begins : AlikeOn tokens first second)
    (goes_on : ∀ value, AlikeOn tokens (further value) (others value)) :
    AlikeOn tokens (first >>= further) (second >>= others) := by
  intro reading within
  have inside := within.after first
  rw [run_bind, run_bind, ← begins reading within]
  rcases ran : first.run reading with ⟨failure | value, after⟩
  · rfl
  · rw [ran] at inside
    exact goes_on value after inside

/-- Two loops run alike if they take the same turns at these tokens. -/
theorem eachToken (finish : σ → Reader β) {turn other : σ → Token → Reader (Turn σ β)}
    (turns : ∀ state, ∀ token ∈ tokens, AlikeOn tokens (turn state token) (other state token))
    (state : σ) : AlikeOn tokens (eachToken finish turn state) (eachToken finish other state) := by
  have turned (state : σ) {reading : Reading} {lexeme : Lexeme} {rest : List Lexeme}
      (within : Within tokens reading) (pending : reading.pending = lexeme :: rest) :
      (turn state lexeme.token).run (reading.pass lexeme rest) =
          (other state lexeme.token).run (reading.pass lexeme rest) ∧
        Within tokens ((turn state lexeme.token).run (reading.pass lexeme rest)).2 := by
    rw [Within, pending] at within
    have behind : Within tokens (reading.pass lexeme rest) :=
      fun later member => within later (.tail _ member)
    exact ⟨turns state lexeme.token (within lexeme (.head _)) _ behind, behind.after _⟩
  intro reading within
  rw [run_eachToken, run_eachToken]
  fun_induction loop finish turn state reading with
  | case1 state reading ended => rw [loop_of_nil _ _ _ ended]
  | case2 state reading lexeme rest pending failure after ran =>
      rw [loop_of_cons _ _ _ pending, ← (turned state within pending).1, ran]
  | case3 state reading lexeme rest pending result after ran =>
      rw [loop_of_cons _ _ _ pending, ← (turned state within pending).1, ran]
  | case4 state reading lexeme rest pending further after ran shorter ih =>
      obtain ⟨same, inside⟩ := turned state within pending
      rw [ran] at inside
      rw [loop_of_cons _ _ _ pending, ← same, ran]
      exact ih inside

end AlikeOn

/-! ## Reading with registries that agree -/

variable {first second : Registry} (agree : first.AgreeOn tokens second)

include agree

/-- Each lookup finds the same entry, up to the first one that is found. -/
theorem node_eq {token : Token} (member : token ∈ tokens) : node first token = node second token := by
  unfold node
  rw [← agree.literals token member, ← agree.reference]
  cases listed : first.literals.get? token.kind.name with
  | some construct => rfl
  | none =>
      rw [← agree.terminals token member listed]
      cases registered : first.terminals.get? token.text with
      | some made => rfl
      | none => rw [← agree.builtins token member listed registered]

theorem alike_nodes : AlikeOn tokens (nodes first) (nodes second) := by
  refine .eachToken _ (fun nodes token member => ?_) _
  rw [nodesTurn, nodesTurn, node_eq agree member]
  exact .refl _

theorem alike_rules (name : String) : AlikeOn tokens (rules first name) (rules second name) := by
  refine .eachToken _ (fun rules token _ => ?_) _
  unfold rulesTurn
  split
  · exact (alike_nodes agree).bind fun _ => .refl _
  · exact .refl _

theorem alike_definitions : AlikeOn tokens (definitions first) (definitions second) := by
  refine .eachToken _ (fun grammar token _ => ?_) _
  unfold definitionsTurn
  split
  · exact .refl _
  · split
    · exact .refl _
    · refine (AlikeOn.refl _).bind fun hint => ?_
      split
      -- the block of default bindings asks for no entries
      · exact .refl _
      · exact (alike_rules agree token.text).bind fun _ => .refl _

theorem alike_grammar : AlikeOn tokens (grammar first) (grammar second) :=
  (alike_definitions agree).bind fun _ => .refl _

end Reader

namespace Grammar

/-- The tokens that occur in a text. -/
def tokensOf (text : String) : List Token :=
  (lexemes text).1.map Lexeme.token

theorem parse_eq_of_agreeOn {text : String} {first second : Registry}
    (agree : first.AgreeOn (tokensOf text) second) : parse first text = parse second text := by
  have within : Reader.Within (tokensOf text) (.ofText text) :=
    fun _ pending => List.mem_map_of_mem pending
  rw [parse, parse, read, read, Reader.alike_grammar agree _ within]

/--
Registries that agree on what a text asks of them give the same grammar, or the
same failure at the same place, and note the same on the way. So an entry for
what does not occur in the text has no effect, and neither has an entry that
an earlier table hides.
-/
theorem parse_asks_only (text : String) :
    (∀ first second : Registry, first.AgreeOn (tokensOf text) second →
      parse first text = parse second text) ∧
    ∀ (registry : Registry) (name : String),
      (∀ construct, name ≠ Registry.referenceName →
        (∀ token ∈ tokensOf text, token.kind.name ≠ name) →
          parse (registry.setLiteral name construct) text = parse registry text) ∧
      (∀ made, (∀ token ∈ tokensOf text, token.text = name →
          registry.literals.get? token.kind.name ≠ none) →
        parse { registry with terminals := registry.terminals.set name made } text =
          parse registry text) ∧
      ∀ reader, (∀ token ∈ tokensOf text, token.text = name →
          registry.literals.get? token.kind.name = none → registry.terminals.get? name ≠ none) →
        parse (registry.setBuiltin name reader) text = parse registry text :=
  ⟨fun _ _ => parse_eq_of_agreeOn, fun registry _ =>
    ⟨fun construct other absent =>
      (parse_eq_of_agreeOn (registry.agreeOn_setLiteral construct other absent)).symm,
    fun made hidden => (parse_eq_of_agreeOn (registry.agreeOn_setTerminal made hidden)).symm,
    fun reader hidden => (parse_eq_of_agreeOn (registry.agreeOn_setBuiltin reader hidden)).symm⟩⟩

/-- A reader that consumes a token and gives up. -/
def giveUp : Reader Leaf := do
  let token ← Reader.next
  Reader.fail (.bare (.custom .usage ("cannot quit " ++ token.text)))

def quittingText : String := "a : NL 7 quit x ."

def quitting : Registry :=
  Registry.default.setBuiltin "quit" giveUp

/-- It has more entries: a literal and a reader for what does not occur, and two hidden ones. -/
def cluttered : Registry :=
  let readers := ((quitting.setLiteral "Char" fun _ => .error .numeral).setBuiltin "NL"
    giveUp).setBuiltin "range" giveUp
  { readers with terminals := readers.terminals.set "7" (.error .numeral) }

theorem agreeOn_cluttered : quitting.AgreeOn (tokensOf quittingText) cluttered :=
  (quitting.agreeOn_setLiteral _ (by decide) (by decide +kernel)).trans
    ((Registry.agreeOn_setBuiltin _ giveUp (by decide +kernel)).trans
      ((Registry.agreeOn_setBuiltin _ giveUp (by decide +kernel)).trans
        (Registry.agreeOn_setTerminal _ (.error .numeral) (by decide +kernel))))

theorem parse_asks_only_cluttered :
    quitting.AgreeOn (tokensOf quittingText) cluttered ∧
      parse quitting quittingText = parse cluttered quittingText ∧
        (parse cluttered quittingText).1 =
          .error (.located (.custom .usage "cannot quit x") ⟨1, 15⟩) :=
  have same := (parse_asks_only quittingText).1 quitting cluttered agreeOn_cluttered
  ⟨agreeOn_cluttered, same, by rw [← same]; decide +kernel⟩

end Grammar

end PhraseGrammar
