import PhraseGrammar.Proofs.Expansion.Fresh
import PhraseGrammar.Proofs.Expansion.Language
import PhraseGrammar.Proofs.Rules.SourceRecognition
import PhraseGrammar.Proofs.Token.Decoding
import PhraseGrammar.Proofs.Token.Separation

/-!
# String literals on both paths

A string literal comes into a grammar as a node of a rule or as the value of a
default binding. On both paths it stands for the text that it writes, which is
what is emitted in the end, and on both paths a literal that writes nothing is
refused for the same cause.
-/

namespace PhraseGrammar

namespace Lexical

/-- The characters of a name. -/
inductive Name : List Char → Prop where
  | mk {c : Char} {more : List Char} (word : Unicode.isWord c = true)
      (starts : Unicode.isDigit c = false) (all : ∀ d ∈ more, Unicode.isWord d = true) :
      Name (c :: more)

theorem Name.spells {name rest : List Char} (named : Name name)
    (ends : Stops Unicode.isWord rest) : Spells rest .ident name := by
  cases named with
  | mk word starts all => exact .ident word starts all ends

theorem Name.solid {name : List Char} (named : Name name) : name ≠ ['/'] := by
  rintro rfl
  cases named with
  | mk word starts all => exact absurd word (by decide)

theorem Tiling.mark {c : Char} (mark : Delimiter c) {remainder others : List Char}
    {tokens : List Token} (further : Tiling remainder others tokens) :
    Tiling remainder (c :: others) (⟨.punct, String.ofList [c]⟩ :: tokens) :=
  .next (mark.spells _) further

theorem Tiling.name {name : List Char} (named : Name name) {remainder others : List Char}
    {tokens : List Token} (ends : Stops Unicode.isWord (others ++ remainder))
    (further : Tiling remainder others tokens) :
    Tiling remainder (name ++ others) (⟨.ident, String.ofList name⟩ :: tokens) :=
  .next (named.spells ends) further

end Lexical

open Lexical

theorem lexemes_tiling {text : String} {tokens : List Token}
    (tiling : Tiling [] text.toList tokens) :
    (lexemes text).1.map Lexeme.token = tokens ∧ (lexemes text).2.Closed := by
  have scanned := Lexeme.scan_tiling tiling .eof .start
  rw [List.append_nil] at scanned
  exact ⟨scanned.1, _, scanned.2⟩

theorem short_of_tokens {text : String} {tokens : List Token}
    (carried : (lexemes text).1.map Lexeme.token = tokens)
    (short : ∀ token ∈ tokens, token.Short) : ∀ lexeme ∈ (lexemes text).1, lexeme.token.Short :=
  fun _ member => short _ (carried ▸ List.mem_map_of_mem member)

theorem Token.short_of_kind {token : Token} (other : token.kind ≠ .int) : token.Short :=
  fun int => absurd int other

namespace Literal

/-- A grammar's text with one rule, which is a literal. -/
def inRule (symbol literal : List Char) : String :=
  String.ofList (symbol ++ ':' :: (literal ++ ['.']))

/-- A grammar's text with one rule, which is a variable, and a literal bound to the variable. -/
def inContext (symbol name literal : List Char) : String :=
  String.ofList (symbol ++ ':' :: '$' :: (name ++ '.' :: ("Context".toList ++ ' ' ::
    (symbol ++ ':' :: (name ++ '=' :: (literal ++ ['.']))))))

def ruleTokens (symbol literal : List Char) : List Token :=
  [⟨.ident, String.ofList symbol⟩, .punct ":", ⟨.string, String.ofList literal⟩, .punct "."]

def contextTokens (symbol name literal : List Char) : List Token :=
  [⟨.ident, String.ofList symbol⟩, .punct ":", .punct "$", ⟨.ident, String.ofList name⟩,
    .punct ".", ⟨.ident, "Context"⟩, ⟨.ident, String.ofList symbol⟩, .punct ":",
    ⟨.ident, String.ofList name⟩, .punct "=", ⟨.string, String.ofList literal⟩, .punct "."]

section Tilings

variable {symbol name body : List Char} (items : Items '"' body)

include items

theorem tiling_literal : Tiling [] (delimited body ++ ['.'])
    [⟨.string, String.ofList (delimited body)⟩, .punct "."] :=
  .next (.string items) (.mark (by decide) (.layout .nil))

theorem tiling_inRule (declared : Name symbol) :
    Tiling [] (inRule symbol (delimited body)).toList
      (ruleTokens symbol (delimited body)) := by
  rw [inRule, String.toList_ofList]
  exact .name declared (fun c first => Option.some.inj first ▸ rfl)
    (.mark (by decide) (tiling_literal items))

theorem tiling_inContext (declared : Name symbol) (named : Name name) :
    Tiling [] (inContext symbol name (delimited body)).toList
      (contextTokens symbol name (delimited body)) := by
  have context : Name "Context".toList := .mk rfl rfl (List.all_eq_true.mp rfl)
  have stops {c : Char} {rest : List Char} (other : Unicode.isWord c = false) :
      Stops Unicode.isWord (c :: rest) := fun d first => Option.some.inj first ▸ other
  have assigned : Tiling [] (symbol ++ ':' :: (name ++ '=' :: (delimited body ++ ['.']))) _ :=
    .name declared (stops rfl) (.mark (by decide) (.name named (stops rfl)
      (.mark (by decide) (tiling_literal items))))
  have blank : Blank (symbol ++ ':' :: (name ++ '=' :: (delimited body ++ ['.'])) ++ []) [' '] :=
    .space rfl
  rw [inContext, String.toList_ofList]
  exact .name declared (stops rfl) (.mark (by decide) (.mark (by decide) (.name named (stops rfl)
    (.mark (by decide) (.name context (stops rfl) (.blank blank assigned))))))

end Tilings

/-- A source with one definition, whose only rule is a leaf, and default bindings. -/
def oneLeaf (symbol : String) (leaf : Leaf) (entries : List Syntax.Entry) : Syntax.Source :=
  ⟨[⟨symbol, [[.leaf leaf]], .empty, none⟩], entries⟩

open Syntax in
theorem spellsDefinition_reference {symbol name : String} {head colon sigil asked : Lexeme}
    (headed : head.token = ⟨.ident, symbol⟩) (other : symbol ≠ Reader.contextName)
    (begins : colon.token = .punct ":") (sign : sigil.token = .punct "$")
    (seen : asked.token = ⟨.ident, name⟩) : SpellsDefinition [head, colon, sigil, asked]
      ⟨symbol, [[.leaf (.reference name)]], .empty, none⟩ := by
  have node : SpellsNode [sigil, asked] (.leaf (.reference asked.token.text)) :=
    .reference sign (by rw [seen])
  have definition : SpellsDefinition (head :: ([] ++ colon :: ([sigil, asked] ++ [])))
      ⟨head.token.text, [[.leaf (.reference asked.token.text)]], .empty, none⟩ :=
    .mk (by rw [headed]) (by rwa [headed]) .none begins (.last (.cons node .nil))
  rwa [headed, seen] at definition

section Spellings

open Syntax

variable {symbol name literal : List Char} {value : Text} {lexemes : List Lexeme}
  (other : String.ofList symbol ≠ Reader.contextName)
  (decodes : unquote (String.ofList literal) = .ok value)

include other decodes

theorem spellsSource_inRule (carried : lexemes.map Lexeme.token = ruleTokens symbol literal) :
    SpellsSource lexemes (oneLeaf (String.ofList symbol) (.constant "String" value) []) := by
  simp only [ruleTokens, List.map_eq_cons_iff, List.map_eq_nil_iff] at carried
  obtain ⟨head, _, rfl, headed, colon, _, rfl, begins, written, _, rfl, same, period, _, rfl,
    ends, rfl⟩ := carried
  have node : SpellsNode [written] (.leaf (.constant "String" value)) :=
    .string (by rw [same]) (by rw [same]; exact decodes)
  have definition : SpellsDefinition (head :: ([] ++ colon :: ([written] ++ [])))
      ⟨head.token.text, [[.leaf (.constant "String" value)]], .empty, none⟩ :=
    .mk (by rw [headed]) (by rw [headed]; exact other) .none begins (.last (.cons node .nil))
  rw [headed] at definition
  exact .definition definition ends .nil

theorem spellsSource_inContext
    (carried : lexemes.map Lexeme.token = contextTokens symbol name literal) :
    SpellsSource lexemes (oneLeaf (String.ofList symbol) (.reference (String.ofList name))
      [(String.ofList symbol, [(String.ofList name, .text value)])]) := by
  simp only [contextTokens, List.map_eq_cons_iff, List.map_eq_nil_iff] at carried
  obtain ⟨head, _, rfl, headed, colon, _, rfl, begins, sigil, _, rfl, sign, asked, _, rfl, seen,
    period, _, rfl, ends, context, _, rfl, called, entry, _, rfl, entered, mark, _, rfl, marked,
    target, _, rfl, targeted, equals, _, rfl, binds, written, _, rfl, same, last, _, rfl, closes,
    rfl⟩ := carried
  have definition := spellsDefinition_reference headed other begins sign seen
  have binding : SpellsBindings (target :: equals :: [written])
      [(target.token.text, .text value)] :=
    .last (by rw [targeted]) binds (.text (by rw [same]) (by rw [same]; exact decodes))
  have entries : SpellsEntries (entry :: mark :: ([target, equals, written] ++ last :: []))
      [(entry.token.text, [(target.token.text, .text value)])] :=
    .cons (by rw [entered]) marked binding closes .nil
  rw [entered, targeted] at entries
  exact .definition definition ends
    (.context (.plain (by rw [called]) (by rw [called]; rfl) .none entries))

end Spellings

/-- A text is accepted, and every expansion of a symbol in a new context is the given one. -/
def Emits (text symbol : String) (value : Text) : Prop :=
  ∃ grammar, (Grammar.parse Registry.default text).1 = .ok grammar ∧
    ∀ limit bindings source shown, ∃ after,
      Expander.expand grammar (limit + 1) symbol (.fresh bindings source shown) = .ok value after

/-- A nonterminal whose only rule is a leaf emits what the leaf does. -/
theorem expand_leaf {grammar : Grammar} {symbol : String} {text : Text} {nonterminal : Nonterminal}
    {leaf : Leaf} (declared : grammar.get? symbol = some nonterminal)
    (single : nonterminal.rules = [[.leaf leaf]])
    (emits : ∀ environment sources, (Environment.override environment nonterminal.defaults).emit
      leaf.emission sources = (.ok text, sources)) (limit : Nat) (bindings : Frame)
    (source : Random.Source) (shown : Text) :
    ∃ after,
      Expander.expand grammar (limit + 1) symbol (.fresh bindings source shown) =
        .ok text after := by
  have outcome := (Expander.follows_expand grammar (limit + 1) symbol).outcome
    (.fresh bindings source shown)
  have first : (source.draw 1).1 = 0 := Nat.lt_one_iff.mp (source.draw_lt Nat.one_pos)
  have drawn : Environment.draw (Run.fresh bindings source shown).scope.get?
      nonterminal.rules.length [source] = (.ok 0, [(source.draw 1).2]) := by
    rw [Environment.draw, Run.get?_fresh, if_pos rfl, single]
    simp [first]
  rw [show (Run.fresh bindings source shown).sources = [source] from rfl, Environment.evaluate,
    declared] at outcome
  simp only [drawn] at outcome
  simp only [Outcome.andThen, single, List.getD_cons_zero, Environment.nodes, emits,
    Text.append_empty] at outcome
  cases ran : Expander.expand grammar (limit + 1) symbol (.fresh bindings source shown) with
  | error failure after =>
      rw [ran] at outcome
      cases outcome
  | ok word after =>
      rw [ran] at outcome
      exact ⟨after, Except.ok.inj (congrArg Prod.fst outcome) ▸ rfl⟩

open Syntax in
/-- A text that defines one symbol by one leaf is accepted. -/
theorem parse_of_spells {text symbol : String} {leaf : Leaf} {entries : List Entry}
    (short : ∀ lexeme ∈ (lexemes text).1, lexeme.token.Short) (closed : (lexemes text).2.Closed)
    (spells : SpellsSource (lexemes text).1 (oneLeaf symbol leaf entries))
    (bound : ∀ entry ∈ entries, symbol = entry.1) :
    (Grammar.parse Registry.default text).1 = .ok (oneLeaf symbol leaf entries).grammar := by
  have proper : (oneLeaf symbol leaf entries).Proper :=
    ⟨List.cons_ne_nil _ _, fun entry member => ⟨_, List.mem_singleton_self _, bound entry member⟩⟩
  have read := Grammar.read_of_spells short closed spells proper
  have linked : (oneLeaf symbol leaf entries).grammar.link =
      ⟨(oneLeaf symbol leaf entries).grammar, 0, none⟩ := by
    refine Grammar.link_eq_self fun entry member rule chosen ref inside => ?_
    cases List.mem_singleton.mp member
    cases List.mem_singleton.mp chosen
    cases List.mem_singleton.mp inside
  have accepted := Grammar.parse_of_read read (by rw [linked])
  rwa [linked] at accepted

open Syntax in
/-- A text that defines one symbol by one leaf emits what the leaf does under the bindings given. -/
theorem emits_of_spells {text symbol : String} {value : Text} {tokens : List Token} {leaf : Leaf}
    {entries : List Entry} (carried : (lexemes text).1.map Lexeme.token = tokens)
    (closed : (lexemes text).2.Closed) (plain : ∀ token ∈ tokens, token.kind ≠ .int)
    (spells : SpellsSource (lexemes text).1 (oneLeaf symbol leaf entries))
    (bound : ∀ entry ∈ entries, symbol = entry.1)
    (emits : ∀ environment sources, (Environment.override environment
      (setAll .empty (bindingsOf entries symbol))).emit leaf.emission sources =
        (.ok value, sources)) : Emits text symbol value := by
  have short := short_of_tokens carried fun token member => Token.short_of_kind (plain token member)
  have declared : (oneLeaf symbol leaf entries).grammar.get? symbol =
      some ⟨symbol, [[.leaf leaf]], setAll .empty (bindingsOf entries symbol), none⟩ := by
    simp [oneLeaf, Grammar.get?, Source.grammar, setAll]
  exact ⟨_, parse_of_spells short closed spells bound, expand_leaf declared rfl emits⟩

section Emits

variable {symbol name body : List Char} {values : List CodePoint} (writes : Writes '"' body values)
  (declared : Name symbol) (other : String.ofList symbol ≠ Reader.contextName)

include writes declared other

theorem emits_inRule : Emits (inRule symbol (delimited body)) (String.ofList symbol)
    ⟨values⟩ := by
  obtain ⟨carried, closed⟩ := lexemes_tiling (tiling_inRule writes.items declared)
  exact emits_of_spells carried closed (by simp [ruleTokens, Token.punct])
    (spellsSource_inRule other (unquote_of_writes writes) carried) nofun fun _ _ => rfl

theorem emits_inContext (named : Name name) :
    Emits (inContext symbol name (delimited body)) (String.ofList symbol) ⟨values⟩ := by
  obtain ⟨carried, closed⟩ := lexemes_tiling (tiling_inContext writes.items declared named)
  refine emits_of_spells carried closed (by simp [contextTokens, Token.punct])
    (spellsSource_inContext other (unquote_of_writes writes) carried) (by simp)
    fun environment sources => ?_
  simp [Syntax.bindingsOf, Syntax.setAll, Leaf.reference, Environment.emit, Environment.lookup,
    Environment.override, Expander.shownBinding?, Value.plain?, Environment.write]

end Emits

end Literal

/-! ## Refusals -/

namespace Reader

variable {α β σ : Type} {reading : Reading} {cause : Cause} {ending : Ending}

/-- The reader fails for a cause, at some place. -/
def Refuses (reader : Reader α) (reading : Reading) (cause : Cause) : Prop :=
  ∃ place, (reader.run reading).1 = .error (.located cause place)

namespace Refuses

theorem run_eq {reader : Reader α} (refuses : reader.Refuses reading cause) :
    ∃ place after, reader.run reading = (.error (.located cause place), after) := by
  obtain ⟨place, failed⟩ := refuses
  exact ⟨place, _, Prod.ext failed rfl⟩

theorem bind {first : Reader α} (refuses : first.Refuses reading cause) (second : α → Reader β) :
    (first >>= second).Refuses reading cause := by
  obtain ⟨place, after, ran⟩ := refuses.run_eq
  exact ⟨place, by rw [run_bind, ran]⟩

theorem orAtPlace {reader : Reader α} (refuses : reader.Refuses reading cause) :
    reader.orAtPlace.Refuses reading cause := by
  obtain ⟨place, after, ran⟩ := refuses.run_eq
  refine ⟨place, ?_⟩
  simp only [Reader.orAtPlace, ran]
  rfl

/-- What is read before does not matter, if what follows refuses wherever it starts. -/
theorem after {first : Reader α} {second : α → Reader β} {value : α} {rest : List Lexeme}
    (gives : first.Gives reading value rest ending)
    (refuses : ∀ between : Reading, between.Sees rest ending →
      (second value).Refuses between cause) : (first >>= second).Refuses reading cause := by
  obtain ⟨between, ran, sees⟩ := gives
  obtain ⟨place, failed⟩ := refuses between sees
  exact ⟨place, by rw [run_bind_of_ok ran, failed]⟩

variable {finish : σ → Reader β} {turn : σ → Token → Reader (Turn σ β)} {state : σ}
  {lexeme : Lexeme} {rest : List Lexeme}

theorem first_turn (pending : reading.pending = lexeme :: rest)
    (refuses : (turn state lexeme.token).Refuses (reading.pass lexeme rest) cause) :
    (eachToken finish turn state).Refuses reading cause := by
  obtain ⟨place, after, ran⟩ := refuses.run_eq
  exact ⟨place, by rw [run_eachToken, loop_of_cons finish turn state pending, ran]⟩

theorem later_turn {further : σ} {others : List Lexeme} (pending : reading.pending = lexeme :: rest)
    (gives : (turn state lexeme.token).Gives (reading.pass lexeme rest) (.again further) others ending)
    (refuses : ∀ between : Reading, between.Sees others ending →
      (eachToken finish turn further).Refuses between cause) :
    (eachToken finish turn state).Refuses reading cause := by
  obtain ⟨between, ran, sees⟩ := gives
  obtain ⟨place, failed⟩ := refuses between sees
  refine ⟨place, ?_⟩
  rw [run_eachToken, loop_of_cons finish turn state pending, ran]
  exact failed

end Refuses

/-- A token that is no mark is a node of a rule. -/
theorem nodesTurn_of_kind {token : Token} (kind : token.kind ≠ .punct) (registry : Registry)
    (nodes : Array Node) : nodesTurn registry nodes token =
      (node registry token).orAtPlace >>= fun node => pure (.again (nodes.push node)) := by
  have other (text : String) : token ≠ .punct text := by
    rintro rfl
    exact kind rfl
  rw [nodesTurn, if_neg (other "."), if_neg (other ";")]

/-- A literal in a rule is decoded and becomes a leaf. -/
theorem nodesTurn_string (nodes : Array Node) (literal : String) :
    nodesTurn Registry.default nodes ⟨.string, literal⟩ =
      (ofExcept (((Literal.unquote literal).map (Leaf.constant "String")).map
        Node.leaf)).orAtPlace >>= fun node => pure (.again (nodes.push node)) :=
  nodesTurn_of_kind (show Kind.string ≠ .punct from nofun) Registry.default nodes

theorem run_nodesTurn_string {literal : String} {value : Text}
    (decodes : Literal.unquote literal = .ok value) (nodes : Array Node) (reading : Reading) :
    (nodesTurn Registry.default nodes ⟨.string, literal⟩).run reading =
      (.ok (.again (nodes.push (.leaf (.constant "String" value)))), reading) := by
  rw [nodesTurn_string, decodes]
  rfl

theorem run_nodesTurn_refused {literal : String} {cause : Cause}
    (refused : Literal.unquote literal = .error (.bare cause)) (nodes : Array Node)
    (reading : Reading) : (nodesTurn Registry.default nodes ⟨.string, literal⟩).run reading =
      (.error (.located cause reading.place), reading) := by
  rw [nodesTurn_string, refused]
  rfl

section Values

variable {lexeme : Lexeme} {rest : List Lexeme} {literal : String} {value : Text}
  (pending : reading.pending = lexeme :: rest) (same : lexeme.token = ⟨.string, literal⟩)

include pending same

/-- A literal after an equals sign is decoded. -/
theorem run_contextValue : contextValue.run reading =
    (ofExcept ((Literal.unquote literal).map Value.text)).orAtPlace.run
      (reading.pass lexeme rest) := by
  have passed : next.run reading = (.ok lexeme.token, reading.pass lexeme rest) := by
    rw [run_next, Reading.next, pending]
  rw [contextValue, run_bind_of_ok passed, same, if_neg (by simp [Token.punct])]

theorem run_contextValue_string (decodes : Literal.unquote literal = .ok value) :
    contextValue.run reading = (.ok (.text value), reading.pass lexeme rest) := by
  rw [run_contextValue pending same, decodes]
  rfl

theorem run_contextValue_refused {cause : Cause}
    (refused : Literal.unquote literal = .error (.bare cause)) :
    contextValue.run reading =
      (.error (.located cause lexeme.place), reading.pass lexeme rest) := by
  rw [run_contextValue pending same, refused]
  rfl

end Values

theorem gives_expect {lexeme : Lexeme} {rest : List Lexeme} {text : String}
    (sees : reading.Sees (lexeme :: rest) ending) (same : lexeme.token = .punct text) :
    (expect text).Gives reading () rest ending := by
  refine ⟨reading.pass lexeme rest, ?_, sees.pass⟩
  rw [expect, run_bind_of_ok (show Reader.next.run reading = _ from sees.next_eq), if_pos same]
  rfl

/-- No depth is read behind a name that no marker follows. -/
theorem gives_depthHint {head next : Lexeme} {rest : List Lexeme}
    (sees : reading.Sees (head :: next :: rest) ending) (orderly : Orderly (head :: next :: rest))
    (plain : next.token ≠ .punct "!" ∧ next.token ≠ .punct "#") :
    (depthHint head.token.text).Gives (reading.pass head (next :: rest)) none (next :: rest) ending := by
  have behind : Behind head (reading.pass head (next :: rest)) := ⟨rfl, orderly⟩
  refine (recognizes_depthHint head).complete sees.pass behind ⟨.none, fun _ => ?_⟩
  refine behind.not_marked fun other others same => ?_
  obtain ⟨rfl, -⟩ := List.cons.inj (show next :: rest = other :: others from same)
  exact plain

/-- A definition that is read leaves what follows to be refused. -/
theorem refuses_later {head : Lexeme} {front rest : List Lexeme} {nonterminal : Nonterminal}
    {grammar : Grammar} (sees : reading.Sees (head :: (front ++ rest)) ending)
    (orderly : Orderly (head :: (front ++ rest)))
    (ended : SpellsDefinitionEnd ending nonterminal (head :: front) rest)
    (refuses : ∀ between : Reading, between.Sees rest ending →
      (eachToken pure (definitionsTurn Registry.default) (defined grammar nonterminal)).Refuses
        between cause) :
    (eachToken pure (definitionsTurn Registry.default) grammar).Refuses reading cause :=
  .later_turn sees.pending_eq ((recognizes_definitionsTurn grammar head).complete sees.pass
    ⟨rfl, orderly⟩ (.inr (.inl ⟨nonterminal, ended, rfl⟩))) refuses

section Rules

variable {colon first : Lexeme} {rest : List Lexeme} (begins : colon.token = .punct ":")
  (refuses : ∀ between : Reading, between.Sees rest ending →
    (nodesTurn Registry.default #[] first.token).Refuses between cause)

include begins refuses

/-- Rules are refused with their first node. -/
theorem refuses_rules (sees : reading.Sees (colon :: first :: rest) ending) (name : String) :
    (rules Registry.default name).Refuses reading cause := by
  refine .first_turn sees.pending_eq ?_
  rw [rulesTurn, if_pos (show colon.token = .punct (ruleMark #[]) from begins)]
  exact .bind (.first_turn rfl (refuses _ sees.pass.pass)) _

theorem refuses_definition {head : Lexeme}
    (sees : reading.Sees (head :: colon :: first :: rest) ending)
    (orderly : Orderly (head :: colon :: first :: rest)) (kind : head.token.kind = .ident)
    (other : head.token.text ≠ contextName) (grammar : Grammar) :
    (eachToken pure (definitionsTurn Registry.default) grammar).Refuses reading cause := by
  have plain : head.token ≠ .punct ";" := by
    intro semicolon
    rw [semicolon] at kind
    cases kind
  refine .first_turn sees.pending_eq ?_
  rw [definitionsTurn, if_neg plain, if_neg (not_not.mpr kind)]
  refine .after (gives_depthHint sees orderly (by rw [begins]; decide)) fun between seen => ?_
  rw [if_neg other]
  exact .bind (refuses_rules begins refuses seen _) _

end Rules

section Literals

variable {literal : String} (refused : Literal.unquote literal = .error (.bare cause))

include refused

theorem refuses_bindings {target equals written : Lexeme} {rest : List Lexeme}
    (sees : reading.Sees (target :: equals :: written :: rest) ending)
    (kind : target.token.kind = .ident) (binds : equals.token = .punct "=")
    (same : written.token = ⟨.string, literal⟩) (name : String) (defaults : Table Value) :
    (bindings name defaults).Refuses reading cause := by
  refine .first_turn sees.pending_eq ?_
  rw [bindingsTurn, if_neg (not_not.mpr kind)]
  refine .after (gives_expect sees.pass binds) fun between seen => .bind ?_ _
  exact ⟨written.place, congrArg Prod.fst (run_contextValue_refused seen.pending_eq same refused)⟩

theorem refuses_context {entry colon target equals written : Lexeme} {rest : List Lexeme}
    (sees : reading.Sees (entry :: colon :: target :: equals :: written :: rest) ending)
    (orderly : Orderly (entry :: colon :: target :: equals :: written :: rest))
    (named : entry.token.kind = .ident) (begins : colon.token = .punct ":")
    (kind : target.token.kind = .ident) (binds : equals.token = .punct "=")
    (same : written.token = ⟨.string, literal⟩) {table : Table Nonterminal}
    (declared : table.contains entry.token.text = true) :
    (context table).Refuses reading cause := by
  have plain : entry.token ≠ .punct "." := by
    intro period
    rw [period] at named
    cases named
  have skipped : skipPeriod.Gives reading ()
      (entry :: colon :: target :: equals :: written :: rest) ending :=
    recognizes_skipPeriod.complete sees (by rwa [Ordered, sees.pending_eq])
      (.inr ⟨rfl, .inl ⟨entry, _, rfl, plain⟩⟩)
  refine .after skipped fun between seen => .first_turn seen.pending_eq ?_
  rw [contextTurn, if_neg (not_not.mpr named)]
  refine .after (gives_expect seen.pass begins) fun behind left => ?_
  obtain ⟨nonterminal, found⟩ := Option.isSome_iff_exists.mp declared
  simp only [found]
  exact .bind (refuses_bindings refused left kind binds same _ _) _

theorem refuses_block {opening entry colon target equals written : Lexeme} {rest : List Lexeme}
    (sees : reading.Sees (opening :: entry :: colon :: target :: equals :: written :: rest) ending)
    (orderly : Orderly (opening :: entry :: colon :: target :: equals :: written :: rest))
    (called : opening.token = ⟨.ident, contextName⟩) (named : entry.token.kind = .ident)
    (begins : colon.token = .punct ":") (kind : target.token.kind = .ident)
    (binds : equals.token = .punct "=") (same : written.token = ⟨.string, literal⟩)
    {grammar : Grammar} (declared : grammar.contains entry.token.text = true) :
    (eachToken pure (definitionsTurn Registry.default) grammar).Refuses reading cause := by
  refine .first_turn sees.pending_eq ?_
  rw [definitionsTurn, if_neg (by rw [called]; decide), if_neg (by rw [called]; decide)]
  refine .after (gives_depthHint sees orderly (not_marker_of_ident named)) fun between seen => ?_
  have further : Orderly ([opening] ++ entry :: colon :: target :: equals :: written :: rest) :=
    orderly
  rw [if_pos (by rw [called])]
  exact .bind (refuses_context refused seen further.of_append named begins kind binds same declared) _

end Literals

end Reader

namespace Literal

/-- A text is not accepted for a cause, at some place in the text. -/
def Refused (text : String) (cause : Cause) : Prop :=
  ∃ place, (Grammar.parse Registry.default text).1 = .error (.located cause place)

theorem refused_of_refuses {text : String} {cause : Cause}
    (refuses : (Reader.definitions Registry.default).Refuses (.ofText text) cause) :
    Refused text cause := by
  obtain ⟨place, failed⟩ := Reader.Refuses.bind refuses fun grammar =>
    if grammar.table.isEmpty then Reader.reject .noDefinition else pure grammar
  refine ⟨place, ?_⟩
  have read : (Grammar.read Registry.default text).1 = .error (.located cause place) := failed
  unfold Grammar.parse
  cases found : Grammar.read Registry.default text with
  | mk result log =>
      rw [found] at read
      cases read
      rfl

section Refusals

variable {symbol name body : List Char} {cause : Cause} (items : Items '"' body)
  (refused : unquote (quoted body) = .error (.bare cause)) (declared : Name symbol)
  (other : String.ofList symbol ≠ Reader.contextName)

include items refused declared other

theorem refused_inRule : Refused (inRule symbol (delimited body)) cause := by
  obtain ⟨carried, -⟩ := lexemes_tiling (tiling_inRule items declared)
  have orderly := orderly_lexemes (short_of_tokens carried fun token member =>
    Token.short_of_kind (by revert token; simp [ruleTokens, Token.punct]))
  generalize listed : (lexemes (inRule symbol (delimited body))).1 = all at carried orderly
  simp only [ruleTokens, List.map_eq_cons_iff, List.map_eq_nil_iff] at carried
  obtain ⟨head, _, rfl, headed, colon, _, rfl, begins, written, _, rfl, same, -⟩ := carried
  refine refused_of_refuses (Reader.refuses_definition begins (fun between _ => ?_) ⟨listed, rfl⟩
    orderly (by rw [headed]) (by rw [headed]; exact other) _)
  rw [same]
  exact ⟨between.place, congrArg Prod.fst (Reader.run_nodesTurn_refused refused #[] between)⟩

theorem refused_inContext (named : Name name) :
    Refused (inContext symbol name (delimited body)) cause := by
  obtain ⟨carried, -⟩ := lexemes_tiling (tiling_inContext items declared named)
  have orderly := orderly_lexemes (short_of_tokens carried fun token member =>
    Token.short_of_kind (by revert token; simp [contextTokens, Token.punct]))
  generalize listed : (lexemes (inContext symbol name (delimited body))).1 = all
    at carried orderly
  simp only [contextTokens, List.map_eq_cons_iff, List.map_eq_nil_iff] at carried
  obtain ⟨head, _, rfl, headed, colon, _, rfl, begins, sigil, _, rfl, sign, asked, _, rfl, seen,
    period, _, rfl, ends, context, _, rfl, called, entry, _, rfl, entered, mark, _, rfl, marked,
    target, _, rfl, targeted, equals, _, rfl, binds, written, behind, rfl, same, -⟩ := carried
  have definition := spellsDefinition_reference headed other begins sign seen
  have sees : (Reading.ofText (inContext symbol name (delimited body))).Sees
      (head :: ([colon, sigil, asked, period] ++
        context :: entry :: mark :: target :: equals :: written :: behind)) _ := ⟨listed, rfl⟩
  refine refused_of_refuses (Reader.refuses_later sees orderly
    (.inl ⟨_, period, rfl, definition, ends⟩) fun between left => ?_)
  have further : Orderly ([head, colon, sigil, asked, period] ++
    context :: entry :: mark :: target :: equals :: written :: behind) := orderly
  refine Reader.refuses_block refused left further.of_append called (by rw [entered]) marked
    (by rw [targeted]) binds same ?_
  rw [entered]
  simp [Reader.defined, Grammar.contains, Table.contains]

end Refusals

/-! ## Both paths -/

/--
A literal stands for a text: wherever it comes up in a rule it becomes a leaf
that emits the text, wherever it comes up as a value it is bound to the
variable, whose leaf then emits the text, and so do texts made of it alone.
-/
structure Stands (body : List Char) (value : Text) : Prop where
  node (nodes : Array Node) (reading : Reading) :
    (Reader.nodesTurn Registry.default nodes ⟨.string, quoted body⟩).run reading =
      (.ok (.again (nodes.push (.leaf (.constant "String" value)))), reading)
  emitted (grammar : Grammar) (expand : String → Expander Text) (owner : String) (run : Run) :
    Expander.node grammar expand owner (.leaf (.constant "String" value)) run = .ok value run
  binding {reading : Reading} {lexeme : Lexeme} {rest : List Lexeme}
    (pending : reading.pending = lexeme :: rest) (same : lexeme.token = ⟨.string, quoted body⟩) :
    Reader.contextValue.run reading = (.ok (.text value), reading.pass lexeme rest)
  seen (grammar : Grammar) (expand : String → Expander Text) (owner : String) {run : Run}
    {name : String} (bound : run.scope.get? name = some (.value (.text value))) :
    Expander.node grammar expand owner (.leaf (.reference name)) run = .ok value run
  inRule {symbol : List Char} (declared : Name symbol)
    (other : String.ofList symbol ≠ Reader.contextName) :
    Emits (inRule symbol (delimited body)) (String.ofList symbol) value
  inContext {symbol name : List Char} (declared : Name symbol)
    (other : String.ofList symbol ≠ Reader.contextName) (named : Name name) :
    Emits (inContext symbol name (delimited body)) (String.ofList symbol) value

/-- A literal is refused for a cause wherever it comes up, in a rule or as a value. -/
structure Fails (body : List Char) (cause : Cause) : Prop where
  node (nodes : Array Node) (reading : Reading) :
    (Reader.nodesTurn Registry.default nodes ⟨.string, quoted body⟩).run reading =
      (.error (.located cause reading.place), reading)
  binding {reading : Reading} {lexeme : Lexeme} {rest : List Lexeme}
    (pending : reading.pending = lexeme :: rest) (same : lexeme.token = ⟨.string, quoted body⟩) :
    Reader.contextValue.run reading =
      (.error (.located cause lexeme.place), reading.pass lexeme rest)
  inRule {symbol : List Char} (declared : Name symbol)
    (other : String.ofList symbol ≠ Reader.contextName) :
    Refused (inRule symbol (delimited body)) cause
  inContext {symbol name : List Char} (declared : Name symbol)
    (other : String.ofList symbol ≠ Reader.contextName) (named : Name name) :
    Refused (inContext symbol name (delimited body)) cause

theorem stands_of_writes {body : List Char} {values : List CodePoint}
    (writes : Writes '"' body values) : Stands body ⟨values⟩ where
  node := Reader.run_nodesTurn_string (unquote_of_writes writes)
  emitted _ _ _ _ := rfl
  binding pending same := Reader.run_contextValue_string pending same (unquote_of_writes writes)
  seen grammar expand owner run name bound := by
    change Expander.lookup name run = _
    rw [Expander.run_lookup, bound]
    rfl
  inRule declared other := emits_inRule writes declared other
  inContext declared other named := emits_inContext writes declared other named

theorem fails_of_refused {body : List Char} {cause : Cause} (items : Items '"' body)
    (refused : unquote (quoted body) = .error (.bare cause)) : Fails body cause where
  node := Reader.run_nodesTurn_refused refused
  binding pending same := Reader.run_contextValue_refused pending same refused
  inRule declared other := refused_inRule items refused declared other
  inContext declared other named := refused_inContext items refused declared other named

/-- A string token is a quote, items and a quote. -/
theorem exists_items {text : String} {lexeme : Lexeme} (member : lexeme ∈ (lexemes text).1)
    (kind : lexeme.token.kind = .string) :
    ∃ body, Items '"' body ∧ lexeme.token.text = quoted body := by
  obtain ⟨piece, rest, spells, written⟩ := Lexeme.exists_spells member
  rw [kind] at spells
  cases spells with
  | string items => exact ⟨_, items, written⟩

/--
Characters and well-formed escapes between two quotes are one string token,
whatever follows, which denotes what they write, and that is what is emitted
both from a rule and from a binding; every text is written by some of them. All
string tokens are such but for their escapes, and one whose escapes are not all
well-formed is refused in a rule and as a value for the same cause, unless it
has an escape that is too large. Escapes that stand for surrogates are
well-formed.
-/
theorem string_literals :
    (∀ body values, Writes '"' body values →
      (∀ rest place, Found.search (delimited body ++ rest) 0 place =
        .token ⟨⟨.string, quoted body⟩, place, rest.head?⟩ rest (place.after (delimited body))) ∧
      unquote (quoted body) = .ok ⟨values⟩ ∧ Stands body ⟨values⟩) ∧
    (∀ text : Text, ∃ body, Writes '"' body text.codes) ∧
    ∀ text, ∀ lexeme ∈ (lexemes text).1, lexeme.token.kind = .string →
      ∃ body, Items '"' body ∧ lexeme.token.text = quoted body ∧
        ((∀ values, ¬Writes '"' body values) → ¬Overflows '"' body →
          ∃ cause, cause.kind = .parse ∧ Fails body cause) := by
  refine ⟨fun body values writes => ?_, fun text => exists_writes text.codes, ?_⟩
  · exact ⟨fun rest => Found.search_spells (.string writes.items), unquote_of_writes writes,
      stands_of_writes writes⟩
  · intro text lexeme member kind
    obtain ⟨body, items, written⟩ := exists_items member kind
    refine ⟨body, items, written, fun malformed small => ?_⟩
    obtain ⟨escape, refused⟩ := exists_unknownEscape items malformed small
    exact ⟨.unknownEscape escape (quoted body), rfl, fails_of_refused items refused⟩

theorem string_literals_mixed :
    unquote (quoted "\\x41\\12\\\"b".toList) = .error (.bare (.unknownEscape "1" "\"\\x41\\12\\\"b\"")) ∧
      Stands "\\x41\\123\\\"b".toList "AS\"b" := by
  refine ⟨by decide +kernel, (string_literals.1 _ ['A', 'S', '"', 'b'] ?_).2.2⟩
  have hexadecimal : Escape.Denotes ['x', '4', '1'] 'A' :=
    .hexadecimal rfl (List.all_eq_true.mp rfl) rfl
  have octal : Escape.Denotes ['1', '2', '3'] 'S' := .octal rfl (List.all_eq_true.mp rfl) rfl
  have letter : Escape.Denotes ['"'] '"' := .letter (by decide)
  exact .escape hexadecimal (.escape octal (.escape letter
    (.plain (by decide) (by decide) (by decide) .nil)))

/-- A literal whose only escape stands for a surrogate. -/
def surrogateBody : List Char := "\\ud800".toList

def surrogate : CodePoint := ⟨0xD800, by decide⟩

/-- No character is written by the escape, and yet it stands for a text wherever it comes up. -/
theorem surrogate_stands :
    (lexemes "S:\"\\ud800\".").1.map Lexeme.token =
        [⟨.ident, "S"⟩, .punct ":", ⟨.string, quoted surrogateBody⟩, .punct "."] ∧
      (∀ values : List Char, ¬Writes '"' surrogateBody (values.map .ofChar)) ∧
      ¬Overflows '"' surrogateBody ∧ Stands surrogateBody ⟨[surrogate]⟩ ∧
      ∀ cause, ¬Fails surrogateBody cause := by
  have denotes : Escape.Denotes ['u', 'd', '8', '0', '0'] surrogate :=
    .hexadecimal rfl (List.all_eq_true.mp rfl) rfl
  have writes : Writes '"' surrogateBody [surrogate] := .escape denotes .nil
  have stands := stands_of_writes writes
  refine ⟨by decide +kernel, fun values others => ?_, ?_, stands, fun cause fails => ?_⟩
  · have same := (decode_of_writes others).symm.trans (decode_of_writes writes)
    obtain ⟨c, rest, rfl, first, -⟩ := List.map_eq_cons_iff.mp (Except.ok.inj same)
    have character := CodePoint.char?_ofChar c
    rw [first, show surrogate.char? = none by decide] at character
    cases character
  · rintro ⟨front, digits, back, whole, -⟩
    have long : 'U' ∈ surrogateBody := by simp [whole]
    exact absurd long (by decide)
  · have declared : Name ['S'] := .mk rfl rfl nofun
    obtain ⟨grammar, accepted, -⟩ := stands.inRule declared (by decide)
    obtain ⟨place, refused⟩ := fails.inRule declared (by decide)
    cases accepted.symm.trans refused

end Literal

end PhraseGrammar
