import PhraseGrammar.Proofs.Rules.Showable
import PhraseGrammar.Proofs.Service.History

/-!
# Showing the grammar of a service

A request to show the grammar is answered with the tree of the grammar that was
set last. Its children are the nonterminals that were reported when it was set,
with their depth hints. The request fails only for an integer that is too long
in decimal, which the text has in hexadecimal notation: such a text is accepted.
-/

namespace PhraseGrammar

/-- The names of the nonterminals, each with its depth hint if it has one. -/
def Grammar.titles (grammar : Grammar) : List String :=
  grammar.table.entries.map fun entry => entry.1 ++ entry.2.suffix

namespace Service

/-- The answer reports these nonterminals of a grammar that has been set. -/
def Response.Reports (response : Response) (names : List String) : Prop :=
  ∃ message start, response = .accept [("message", message), ("start", start),
    ("nonterminals", .array (names.map fun name : String => .string name))]

/-- The answer shows a tree whose children have these names. -/
def Response.Shows (response : Response) (names : List String) : Prop :=
  ∃ tree : Outline, response = .accept [("tree", tree.toJson)] ∧
    tree.entries.map Outline.Entry.name = names

theorem reports_of_load {state : State} {grammar : Grammar} {wanted : String}
    (succeeds : (load state grammar wanted).1.Succeeds) :
    (load state grammar wanted).1.Reports grammar.table.keys := by
  unfold load at succeeds ⊢
  split at succeeds
  · exact absurd succeeds (not_succeeds_refuseGrammar _)
  · rename_i accepted
    rw [if_neg accepted]
    exact ⟨_, _, rfl⟩

/-- Setting a grammar reports and keeps what the text of the request gives. -/
theorem exists_of_sets {entropy : Random.Entropy} {state : State} {request : Request}
    {body : Json String}
    (sets : (Step.serve entropy request).Sets state body) :
    ∃ fields text grammar, Submits body fields text ∧
      (Grammar.parse .default text).1 = .ok grammar ∧
        (handle entropy state request).1.Reports grammar.table.keys ∧
          ∃ start, (handle entropy state request).2.loaded = some ⟨grammar, start⟩ := by
  obtain ⟨loaded, installs, kept⟩ := sets.installs
  rw [Step.after] at kept
  cases sets with
  | mk asks sent succeeds =>
      obtain @⟨fields, text, wanted, start, grammar, submits, asked, parsed, _, _⟩ := installs
      have handled : handle entropy state request = load state grammar wanted :=
        (handle_of_setGrammar asks sent entropy state).trans
          (setGrammar_of_parse submits asked parsed state)
      refine ⟨fields, text, grammar, submits, parsed, ?_, some start, kept⟩
      rw [handled] at succeeds ⊢
      exact reports_of_load succeeds

theorem handle_of_grammar {request : Request} (asks : request.Asks .grammar)
    (entropy : Random.Entropy) (state : State) :
    handle entropy state request = (showTree state, state) := by
  rw [handle_of_asks asks]
  cases request.body? <;> rfl

section Showing

variable {state : State} {grammar : Grammar} {start : Option String}
  (kept : state.loaded = some ⟨grammar, start⟩)

include kept

theorem shows_showTree (ready : grammar.Ready) (showable : grammar.Showable) :
    (showTree state).Shows grammar.titles := by
  rcases ready.shown_cases with ⟨_, ⟨tree, shown⟩, _⟩ | ⟨never, _⟩
  · refine ⟨tree, ?_, ready.names_of_outline showable shown⟩
    simp only [showTree, kept, shown]
  · exact absurd showable never

theorem showTree_of_not_showable (ready : grammar.Ready) (long : ¬grammar.Showable) :
    showTree state = .internalError := by
  rcases ready.shown_cases with ⟨showable, _⟩ | ⟨_, failed, _⟩
  · exact absurd showable long
  · simp only [showTree, kept, failed]

end Showing

/--
The grammar of a text has a tree and lines if its depth hints and the integers
among its default bindings can be written in decimal, and neither of them if
not. They can be if every hexadecimal numeral of the text can. As long as no
other grammar is set, a service shows the grammar of the text that was set last
by a tree, whose children are the nonterminals that it reported then, with their
depth hints; if there is no tree, the answer is an internal error.
-/
theorem run_shows (before : List Step) :
    (∀ text grammar, (Grammar.parse .default text).1 = .ok grammar →
      ((∀ lexeme ∈ (lexemes text).1, lexeme.token.Decimal) → grammar.Showable) ∧
      ((grammar.Showable ∧ (∃ tree, grammar.outline = .ok tree) ∧
          ∃ lines, grammar.dump = .ok lines) ∨
        (¬grammar.Showable ∧ grammar.outline = .error .integerTooLong ∧
          grammar.dump = .error .integerTooLong))) ∧
    ∀ entropy request body rest,
      (Step.serve entropy request).Sets (run .initial before) body →
      Quiet (handle entropy (run .initial before) request).2 rest →
      ∃ fields text grammar, Submits body fields text ∧
        (Grammar.parse .default text).1 = .ok grammar ∧
        (handle entropy (run .initial before) request).1.Reports grammar.table.keys ∧
        ∀ another asking, Request.Asks asking .grammar →
          ∃ response, handle another (run .initial (before ++ .serve entropy request :: rest)) asking =
              (response, run .initial (before ++ .serve entropy request :: rest)) ∧
            (grammar.Showable → response.Shows grammar.titles) ∧
            (¬grammar.Showable → response = .internalError) := by
  refine ⟨fun text grammar accepted => ⟨Grammar.showable_of_parse accepted,
    (Grammar.ready_of_parse accepted).shown_cases⟩,
    fun entropy request body rest sets quiet => ?_⟩
  obtain ⟨fields, text, grammar, submits, parsed, reports, start, kept⟩ := exists_of_sets sets
  refine ⟨fields, text, grammar, submits, parsed, reports, fun another asking asks => ?_⟩
  have ready := Grammar.ready_of_parse parsed
  have stays : (run .initial (before ++ .serve entropy request :: rest)).loaded =
      some ⟨grammar, start⟩ := by
    rw [run_append, run, List.foldl_cons, Step.after]
    exact quiet.loaded_run.trans kept
  exact ⟨_, handle_of_grammar asks another _, shows_showTree stays ready,
    showTree_of_not_showable stays ready⟩

/-- Hexadecimal digits of a depth hint that has too many decimal ones. -/
def tooManyDigits : List Char :=
  '1' :: List.replicate 3572 '0'

theorem filled_tooManyDigits : Lexical.Filled Unicode.isHexDigit tooManyDigits := by
  refine ⟨nofun, fun c member => ?_⟩
  rcases List.mem_cons.mp member with rfl | zero
  · rfl
  · rw [List.eq_of_mem_replicate zero]
    rfl

theorem not_showable_tooManyDigits :
    ¬(hinted (Numeral.hexadecimalValue tooManyDigits)).Showable := by
  intro showable
  have written := (showable _ (.head _)).hint _ rfl
  rw [Writable, Numeral.isSome_decimal?] at written
  exact absurd written (by decide +kernel)

/-- A request to show the grammar. -/
def showing : Request := ⟨"GET", "/grammar", some .null⟩

theorem asks_showing : showing.Asks .grammar where
  path := by
    have path : Route.ofPath? (Target.path "/grammar") = some .grammar := by decide +kernel
    exact path
  method := by
    have upper : String.ofList ("GET".toList.flatMap upperCase) = "GET" := by decide +kernel
    exact upper

/-- A grammar that cannot be shown is set all the same, and asking for its tree fails. -/
theorem handle_showing_of_not_showable {text start : String} {grammar : Grammar}
    (parsed : (Grammar.parse .default text).1 = .ok grammar)
    (first : grammar.table.keys.head? = some start) (declared : grammar.contains start = true)
    (long : ¬grammar.Showable) (entropy : Random.Entropy) (state : State) :
    (handle entropy state (requestToSet text)).1.Succeeds ∧
      (handle entropy (handle entropy state (requestToSet text)).2 showing).1 =
        .internalError := by
  obtain ⟨succeeds, kept⟩ := handle_requestToSet parsed first declared entropy state
  refine ⟨succeeds, ?_⟩
  simp only [kept, handle_of_grammar asks_showing]
  exact showTree_of_not_showable rfl (Grammar.ready_of_parse parsed) long

/-- A text is accepted and set, although its grammar has neither a tree nor lines. -/
theorem accepted_not_shown :
    (∃ grammar, (Grammar.parse .default (hintedText tooManyDigits)).1 = .ok grammar ∧
      grammar.outline = .error .integerTooLong ∧ grammar.dump = .error .integerTooLong) ∧
    (handle (.unused "here") .initial (requestToSet (hintedText tooManyDigits))).1.Succeeds ∧
    (handle (.unused "here")
      (handle (.unused "here") .initial (requestToSet (hintedText tooManyDigits))).2 showing).1 =
        .internalError := by
  have parsed := parse_hintedText filled_tooManyDigits
  have long := not_showable_tooManyDigits
  refine ⟨?_, handle_showing_of_not_showable parsed rfl rfl long (.unused "here") .initial⟩
  obtain ⟨failed, unwritten⟩ :=
    ((Grammar.ready_of_parse parsed).shown_cases.resolve_left fun shown => long shown.1).2
  exact ⟨_, parsed, failed, unwritten⟩

/-- A text with a depth hint and a default binding, both hexadecimal. -/
def hexadecimalText : String := "S#0x1F : T . T : . Context. T : v = 0xA ."

def hexadecimalGrammar : Grammar where
  table := .ofList [("S", ⟨"S", [[.symbol "T"]], .empty, some 31⟩),
    ("T", ⟨"T", [[]], .ofList [("v", .integer 10)], none⟩)]
  start := some "S"

theorem run_shows_hexadecimal :
    (∃ tree, hexadecimalGrammar.outline = .ok tree) ∧
    (handle (.unused "here") .initial (requestToSet hexadecimalText)).1.Reports ["S", "T"] ∧
    (handle (.unused "here") (run .initial [.serve (.unused "here") (requestToSet hexadecimalText)])
      showing).1.Shows ["S#31", "T"] := by
  have parsed : (Grammar.parse .default hexadecimalText).1 = .ok hexadecimalGrammar := by
    decide +kernel
  have decimal : ∀ lexeme ∈ (lexemes hexadecimalText).1, lexeme.token.Decimal := by
    unfold Token.Decimal
    decide +kernel
  obtain ⟨texts, histories⟩ := run_shows []
  obtain ⟨fits, shown⟩ := texts _ _ parsed
  have showable := fits decimal
  have tree := (shown.resolve_right fun never => never.1 showable).2.1
  have sets : (Step.serve (.unused "here") (requestToSet hexadecimalText)).Sets (run .initial [])
      (submission hexadecimalText) :=
    .mk (asks_requestToSet _) rfl (handle_requestToSet parsed rfl rfl _ _).1
  obtain ⟨fields, text, grammar, submits, same, reports, answers⟩ :=
    histories _ _ _ [] sets trivial
  cases submits.object
  cases submits.named
  cases parsed.symm.trans same
  obtain ⟨response, answered, shows, _⟩ := answers (.unused "here") showing asks_showing
  refine ⟨tree, reports, ?_⟩
  have titles : hexadecimalGrammar.titles = ["S#31", "T"] := by decide +kernel
  rw [← titles, ← List.nil_append [_], answered]
  exact shows showable

end Service

end PhraseGrammar
