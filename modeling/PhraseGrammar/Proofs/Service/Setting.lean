import PhraseGrammar.Proofs.Rules.Failures
import PhraseGrammar.Proofs.Rules.SourceRecognition
import PhraseGrammar.Service.Routes

/-!
# Requests to set the grammar

Such a request is answered with success exactly if its text can be parsed and
the start that it asks for, if any, is declared in it. Then the grammar is
replaced by the one of the text; in all other cases the state stays as it is.
A text that cannot be parsed is refused by a message, unless parsing it ends in
a failure that is no error of the grammar.
-/

namespace PhraseGrammar

/-- Space alone has no lexemes. -/
theorem Lexeme.scan_of_blank {text : List Char} (blank : ∀ c ∈ text, Unicode.isSpace c = true)
    (place : Position) : (scan text 0 place).1 = [] := by
  induction text generalizing place with
  | nil => rfl
  | cons c rest ih =>
      have layout : Front.ofText c rest = .layout 0 := if_pos (blank c List.mem_cons_self)
      simp only [scan, layout]
      exact ih (fun other later => blank other (.tail _ later)) _

theorem Unicode.isSpace_of_strip {text : String} (blank : strip text = "") :
    ∀ c ∈ text.toList, isSpace c = true := by
  have none : (text.toList.dropWhile isSpace).reverse.dropWhile isSpace = [] := by
    simpa [strip] using congrArg String.toList blank
  have spaces : ∀ c ∈ text.toList.dropWhile isSpace, isSpace c = true :=
    fun c member => List.dropWhile_eq_nil_iff.mp none c (List.mem_reverse.mpr member)
  cases left : text.toList.dropWhile isSpace with
  | nil => exact List.dropWhile_eq_nil_iff.mp left
  | cons c rest =>
      have visible := List.head?_dropWhile_not isSpace text.toList
      simp only [left, List.head?_cons] at visible
      rw [spaces c (by rw [left]; exact List.mem_cons_self)] at visible
      cases visible

theorem lexemes_of_strip {text : String} (blank : Unicode.strip text = "") :
    (lexemes text).1 = [] :=
  Lexeme.scan_of_blank (Unicode.isSpace_of_strip blank) .start

/-- A text of space alone defines nothing, and so is no grammar. -/
theorem Grammar.strip_ne_of_parse {text : String} {grammar : Grammar}
    (parsed : (parse Registry.default text).1 = .ok grammar) : Unicode.strip text ≠ "" := by
  intro blank
  have none := lexemes_of_strip blank
  have sees : (Reading.ofText text).Sees [] (lexemes text).2 := ⟨none, rfl⟩
  have ordered : Reader.Ordered (.ofText text) :=
    orderly_lexemes fun lexeme member => absurd (none ▸ member) List.not_mem_nil
  obtain ⟨raw, read, _, _⟩ := parse_eq_ok parsed
  obtain ⟨front, rest, whole, _, _, _, source, spells, proper, _⟩ :=
    Reader.recognizes_grammar.sound sees ordered (Prod.ext read rfl)
  rw [(List.append_eq_nil_iff.mp whole.symm).1] at spells
  rw [Reader.spellsSource_nil spells] at proper
  exact proper.1 rfl

namespace Service

/-- The request asks for a route, by the method that the route answers. -/
structure Request.Asks (request : Request) (route : Route) : Prop where
  path : Route.ofPath? (Target.path request.url) = some route
  method : String.ofList (request.method.toList.flatMap upperCase) = route.method

/-- By its members a body names a text for the grammar. -/
structure Submits (body fields : Json String) (text : String) : Prop where
  object : fields? body = some fields
  named : fields.get? "grammar" = some (.string text)

/-- The answer reports success. -/
def Response.Succeeds (response : Response) : Prop :=
  response.body.bind (Json.get? · "success") = some (.bool true)

theorem not_succeeds_refuseGrammar (message : String) : ¬(refuseGrammar message).Succeeds := by
  intro succeeds
  cases succeeds

variable {request : Request} {route : Route}

theorem handle_of_asks (asks : request.Asks route) (entropy : Random.Entropy) (state : State) :
    handle entropy state request = answer entropy state route request.body? := by
  have other : route.method ≠ "OPTIONS" := by cases route <;> decide
  have unheaded : request.method ≠ "HEAD" := by
    intro head
    have upper := asks.method
    rw [head] at upper
    cases route <;> exact absurd upper (by decide)
  simp only [handle, asks.path, asks.method, if_neg other, if_neg unheaded, true_or, if_true]

theorem handle_of_setGrammar {body : Json String} (asks : request.Asks .setGrammar)
    (sent : request.body? = some body) (entropy : Random.Entropy) (state : State) :
    handle entropy state request = setGrammar state body := by
  rw [handle_of_asks asks, sent]
  rfl

/-- A body has its text parsed as the grammar to keep, which is expanded from a symbol of its own. -/
inductive Installs (body : Json String) : Loaded → Prop where
  | mk {fields : Json String} {text wanted start : String} {grammar : Grammar}
      (submits : Submits body fields text) (asked : requestedStart? fields = some wanted)
      (parsed : (Grammar.parse .default text).1 = .ok grammar)
      (chosen : if wanted = "" then grammar.table.keys.head? = some start else start = wanted)
      (declared : grammar.contains start = true) : Installs body ⟨grammar, some start⟩

theorem Installs.unique {body : Json String} {first second : Loaded} (left : Installs body first)
    (right : Installs body second) : first = second := by
  obtain ⟨submits, asked, parsed, chosen, _⟩ := left
  obtain ⟨resubmits, reasked, reparsed, rechosen, _⟩ := right
  obtain rfl := Option.some.inj (submits.object.symm.trans resubmits.object)
  obtain rfl := Json.string.inj (Option.some.inj (submits.named.symm.trans resubmits.named))
  obtain rfl := Option.some.inj (asked.symm.trans reasked)
  obtain rfl := Except.ok.inj (parsed.symm.trans reparsed)
  split at chosen
  · rename_i absent
    rw [if_pos absent] at rechosen
    rw [Option.some.inj (chosen.symm.trans rechosen)]
  · rename_i present
    rw [if_neg present] at rechosen
    rw [chosen, rechosen]

theorem load_of_chosen {text wanted start : String} {grammar : Grammar}
    (parsed : (Grammar.parse .default text).1 = .ok grammar)
    (chosen : if wanted = "" then grammar.table.keys.head? = some start else start = wanted)
    (declared : grammar.contains start = true) (state : State) :
    (load state grammar wanted).1.Succeeds ∧
      (load state grammar wanted).2 = { state with loaded := some ⟨grammar, some start⟩ } := by
  by_cases absent : wanted = ""
  · obtain ⟨first, names, begins, _⟩ := Grammar.start_of_parse parsed
    rw [if_pos absent, names] at chosen
    rw [load, if_neg fun refused => refused.1 absent, if_pos absent, begins, chosen]
    exact ⟨rfl, rfl⟩
  · rw [if_neg absent] at chosen
    subst chosen
    rw [load, if_neg fun refused => refused.2 declared, if_neg absent]
    exact ⟨rfl, rfl⟩

theorem setGrammar_of_parse {body fields : Json String} {text wanted : String} {grammar : Grammar}
    (submits : Submits body fields text) (asked : requestedStart? fields = some wanted)
    (parsed : (Grammar.parse .default text).1 = .ok grammar) (state : State) :
    setGrammar state body = load state grammar wanted := by
  simp only [setGrammar, submits.object, submits.named, Option.getD_some,
    if_neg (Grammar.strip_ne_of_parse parsed), asked, parsed]

/-- A body that installs a grammar is not refused. -/
theorem setGrammar_of_installs {body : Json String} {loaded : Loaded} (installs : Installs body loaded)
    (state : State) : (setGrammar state body).1.Succeeds ∧
      (setGrammar state body).2 = { state with loaded := some loaded } := by
  obtain ⟨submits, asked, parsed, chosen, declared⟩ := installs
  rw [setGrammar_of_parse submits asked parsed]
  exact load_of_chosen parsed chosen declared state

/-- A parsed grammar is refused only if the symbol wanted is not declared. -/
theorem load_cases {text : String} {grammar : Grammar}
    (parsed : (Grammar.parse .default text).1 = .ok grammar) (state : State) (wanted : String) :
    (∃ start, (if wanted = "" then grammar.table.keys.head? = some start else start = wanted) ∧
      grammar.contains start = true) ∨
    (¬(load state grammar wanted).1.Succeeds ∧ (load state grammar wanted).2 = state) := by
  by_cases absent : wanted = ""
  · obtain ⟨first, names, _, declared⟩ := Grammar.start_of_parse parsed
    exact .inl ⟨first, by rwa [if_pos absent], declared⟩
  · by_cases declared : grammar.contains wanted = true
    · exact .inl ⟨wanted, by rw [if_neg absent], declared⟩
    · rw [load, if_pos ⟨absent, declared⟩]
      exact .inr ⟨not_succeeds_refuseGrammar _, rfl⟩

/-- The body installs a grammar, or setting it fails and leaves the state alone. -/
theorem setGrammar_cases (state : State) (body : Json String) :
    (∃ loaded, Installs body loaded) ∨
    (¬(setGrammar state body).1.Succeeds ∧ (setGrammar state body).2 = state) := by
  rcases ran : setGrammar state body with ⟨response, after⟩
  unfold setGrammar at ran
  split at ran
  · cases ran
    exact .inr ⟨not_succeeds_refuseGrammar _, rfl⟩
  · rename_i fields object
    split at ran
    · rename_i text given
      split at ran
      · cases ran
        exact .inr ⟨not_succeeds_refuseGrammar _, rfl⟩
      · rename_i visible
        have named : fields.get? "grammar" = some (.string text) := by
          cases found : fields.get? "grammar" with
          | none =>
              rw [found] at given
              cases given
              exact absurd rfl visible
          | some member =>
              rw [found] at given
              exact congrArg some given
        split at ran
        · cases ran
          exact .inr ⟨not_succeeds_refuseGrammar _, rfl⟩
        · rename_i wanted asked
          split at ran
          · rename_i grammar parsed
            rcases load_cases parsed state wanted with ⟨start, chosen, declared⟩ | kept
            · exact .inl ⟨_, .mk ⟨object, named⟩ asked parsed chosen declared⟩
            · rw [ran] at kept
              exact .inr kept
          · cases ran
            exact .inr ⟨not_succeeds_refuseGrammar _, rfl⟩
          · cases ran
            exact .inr ⟨nofun, rfl⟩
    · cases ran
      exact .inr ⟨not_succeeds_refuseGrammar _, rfl⟩

/-! ## Refused texts -/

/--
A text that cannot be parsed is refused by an error of the grammar, except for
an integer that is too long or an escape that is too large. Asked to set it, the
service keeps its state and answers with a message, but for these exceptions
with an internal error.
-/
theorem handle_rejected {text : String} {failure : ParseFailure}
    (rejected : (Grammar.parse .default text).1 = .error failure) :
    failure.Foreseen ((lexemes text).1.map Lexeme.token) ∧
      ∀ request body fields entropy state, Request.Asks request .setGrammar →
        request.body? = some body → Submits body fields text →
        ((∃ error, failure = .grammar error) →
          ∃ message, handle entropy state request = (.refuse message, state)) ∧
        ((∀ error, failure ≠ .grammar error) → (requestedStart? fields).isSome = true →
          handle entropy state request = (.internalError, state)) := by
  have foreseen := Grammar.foreseen_of_parse rejected
  refine ⟨foreseen, fun request body fields entropy state asks sent submits =>
    ⟨?_, fun escapes valid => ?_⟩⟩
  · rintro ⟨error, rfl⟩
    simp only [handle_of_setGrammar asks sent, setGrammar, submits.object, submits.named,
      Option.getD_some, rejected]
    split
    · exact ⟨_, rfl⟩
    · cases requestedStart? fields <;> exact ⟨_, rfl⟩
  · have visible : Unicode.strip text ≠ "" := by
      intro blank
      rw [lexemes_of_strip blank] at foreseen
      cases foreseen with
      | grammar kind => exact escapes _ rfl
      | numeral member => cases member
      | codePointTooLarge member => cases member
    obtain ⟨start, asked⟩ := Option.isSome_iff_exists.mp valid
    cases failure with
    | grammar error => exact absurd rfl (escapes error)
    | _ =>
        simp only [handle_of_setGrammar asks sent, setGrammar, submits.object, submits.named,
          Option.getD_some, rejected, if_neg visible, asked]

/-- A text with an escape beyond all code points. -/
def overflowingText : String := "S : \"\\U80000000\" ."

/-- The members of a request to set the grammar, without a start. -/
def submission (text : String) : Json String := .object [("grammar", .string text)]

def requestToSet (text : String) : Request := ⟨"POST", "/set_grammar", some (submission text)⟩

theorem submits_submission (text : String) : Submits (submission text) (submission text) text :=
  ⟨rfl, rfl⟩

theorem requestedStart?_submission (text : String) :
    requestedStart? (submission text) = some "" := rfl

theorem upperCase_post : String.ofList ("POST".toList.flatMap upperCase) = "POST" := by
  decide +kernel

theorem asks_requestToSet (text : String) : (requestToSet text).Asks .setGrammar where
  path := by
    have path : Route.ofPath? (Target.path "/set_grammar") = some .setGrammar := by decide +kernel
    exact path
  method := upperCase_post

/-- A request without a start keeps the grammar of its text with the symbol declared first. -/
theorem handle_requestToSet {text start : String} {grammar : Grammar}
    (parsed : (Grammar.parse .default text).1 = .ok grammar)
    (first : grammar.table.keys.head? = some start) (declared : grammar.contains start = true)
    (entropy : Random.Entropy) (state : State) :
    (handle entropy state (requestToSet text)).1.Succeeds ∧
      (handle entropy state (requestToSet text)).2 =
        { state with loaded := some ⟨grammar, some start⟩ } := by
  have installs : Installs (submission text) ⟨grammar, some start⟩ :=
    .mk (submits_submission text) (requestedStart?_submission text) parsed (by rwa [if_pos rfl])
      declared
  rw [handle_of_setGrammar (asks_requestToSet text) rfl]
  exact setGrammar_of_installs installs state

theorem parse_overflowingText :
    (Grammar.parse .default overflowingText).1 = .error .codePointTooLarge := by
  decide +kernel

/-- This text is refused neither by an error of the grammar nor by a message. -/
theorem handle_overflowingText :
    (¬∃ error, (Grammar.parse .default overflowingText).1 = .error (.grammar error)) ∧
      (¬∃ grammar, (Grammar.parse .default overflowingText).1 = .ok grammar) ∧
        (handle (.unused "here") .initial (requestToSet overflowingText)).1 = .internalError := by
  have escaped := parse_overflowingText
  have visible : Unicode.strip overflowingText ≠ "" := by decide +kernel
  have submits := submits_submission overflowingText
  refine ⟨?_, ?_, ?_⟩
  · rintro ⟨error, other⟩
    cases escaped.symm.trans other
  · rintro ⟨grammar, other⟩
    cases escaped.symm.trans other
  · rw [handle_of_setGrammar (asks_requestToSet _) rfl]
    simp only [setGrammar, submits.object, submits.named, Option.getD_some, escaped,
      if_neg visible, requestedStart?_submission]

theorem handle_rejected_overflowing :
    ParseFailure.codePointTooLarge.Foreseen ((lexemes overflowingText).1.map Lexeme.token) ∧
      ∀ entropy state,
        handle entropy state (requestToSet overflowingText) = (.internalError, state) :=
  have rejected := handle_rejected parse_overflowingText
  ⟨rejected.1, fun entropy state =>
    (rejected.2 _ _ _ entropy state (asks_requestToSet _) rfl (submits_submission _)).2
      (fun _ => nofun) rfl⟩

end Service

end PhraseGrammar
