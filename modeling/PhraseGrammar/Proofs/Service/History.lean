import PhraseGrammar.Proofs.Service.Generation
import PhraseGrammar.Proofs.Service.Setting

/-!
# Histories of a service

A history is a sequence of requests and of new settings. One step changes the
grammar only if it is a request to set it that is answered with success. A
whole history therefore leaves the grammar of the last such request, and two
histories that agree in it and in their settings are told apart by no answer.
-/

namespace PhraseGrammar.Service

/-- What a service goes through. The entropy takes the place of a null seed. -/
inductive Step where
  | serve (entropy : Random.Entropy) (request : Request)
  | configure (settings : Settings)

/-- The state after a step. -/
def Step.after (state : State) : Step → State
  | .serve entropy request => (handle entropy state request).2
  | .configure settings => { state with settings }

/-- The step is a request with this body to set the grammar, and it is answered with success. -/
inductive Step.Sets (state : State) (body : Json String) : Step → Prop where
  | mk {entropy : Random.Entropy} {request : Request} (asks : request.Asks .setGrammar)
      (sent : request.body? = some body) (succeeds : (handle entropy state request).1.Succeeds) :
      Sets state body (.serve entropy request)

/-- The state after a history. -/
def run (state : State) (steps : List Step) : State :=
  steps.foldl Step.after state

/-- No step of the history sets the grammar. -/
def Quiet : State → List Step → Prop
  | _, [] => True
  | state, step :: rest => (∀ body, ¬step.Sets state body) ∧ Quiet (step.after state) rest

/-- The last step of the history that sets the grammar has this body. -/
def LastSet (state : State) (steps : List Step) (body : Json String) : Prop :=
  ∃ before step rest, steps = before ++ step :: rest ∧ step.Sets (run state before) body ∧
    Quiet (step.after (run state before)) rest

/-- Only setting the grammar may change the state. -/
theorem answer_eq_self {route : Route} (other : route ≠ .setGrammar) (entropy : Random.Entropy)
    (state : State) (body? : Option (Json String)) : (answer entropy state route body?).2 = state := by
  cases route with
  | setGrammar => exact absurd rfl other
  | _ => cases body? <;> rfl

/-- Without setting the grammar no request changes anything. -/
theorem handle_eq_self {entropy : Random.Entropy} {state : State} {request : Request}
    (quiet : ∀ body, ¬(Step.serve entropy request).Sets state body) :
    (handle entropy state request).2 = state := by
  by_cases asks : request.Asks .setGrammar
  · cases sent : request.body? with
    | none =>
        rw [handle_of_asks asks, sent]
        rfl
    | some body =>
        have handled := handle_of_setGrammar asks sent entropy state
        rcases setGrammar_cases state body with ⟨loaded, installs⟩ | ⟨_, kept⟩
        · have succeeds := (setGrammar_of_installs installs state).1
          exact absurd (.mk asks sent (handled ▸ succeeds)) (quiet body)
        · exact handled ▸ kept
  · unfold handle
    split
    · rfl
    · rename_i route path
      dsimp only
      split
      · rfl
      · split
        · rename_i method
          refine answer_eq_self ?_ entropy state request.body?
          rintro rfl
          rcases method with named | ⟨_, shown⟩
          · exact asks ⟨path, named⟩
          · exact absurd shown (by decide)
        · rfl

namespace Step

variable {state : State} {step : Step}

/-- What a step leaves of the grammar: what its body installs, if it sets one. -/
theorem Sets.installs {body : Json String} (sets : step.Sets state body) :
    ∃ loaded, Installs body loaded ∧ (step.after state).loaded = some loaded := by
  cases sets with
  | @mk entropy request asks sent succeeds =>
      have handled := handle_of_setGrammar asks sent entropy state
      rcases setGrammar_cases state body with ⟨loaded, installs⟩ | ⟨fails, _⟩
      · refine ⟨loaded, installs, ?_⟩
        rw [after, handled, (setGrammar_of_installs installs state).2]
      · rw [handled] at succeeds
        exact absurd succeeds fails

theorem loaded_after (quiet : ∀ body, ¬step.Sets state body) :
    (step.after state).loaded = state.loaded := by
  cases step with
  | serve entropy request => rw [after, handle_eq_self quiet]
  | configure settings => rfl

end Step

/-! ## Runs -/

theorem run_append (state : State) (before after : List Step) :
    run state (before ++ after) = run (run state before) after :=
  List.foldl_append

theorem Quiet.loaded_run {state : State} {steps : List Step} (quiet : Quiet state steps) :
    (run state steps).loaded = state.loaded := by
  induction steps generalizing state with
  | nil => rfl
  | cons step rest ih => exact (ih quiet.2).trans (Step.loaded_after quiet.1)

/-- A run keeps what the last set of its history has installed. -/
theorem LastSet.installs {state : State} {steps : List Step} {body : Json String}
    (last : LastSet state steps body) :
    ∃ loaded, Installs body loaded ∧ (run state steps).loaded = some loaded := by
  obtain ⟨before, step, rest, rfl, sets, quiet⟩ := last
  obtain ⟨loaded, installs, kept⟩ := sets.installs
  refine ⟨loaded, installs, ?_⟩
  rw [run_append]
  exact quiet.loaded_run.trans kept

theorem quiet_or_lastSet (state : State) (steps : List Step) :
    Quiet state steps ∨ ∃ body, LastSet state steps body := by
  induction steps generalizing state with
  | nil => exact .inl trivial
  | cons step rest ih =>
      rcases ih (step.after state) with quiet | ⟨body, before, last, later, rfl, sets, quiet⟩
      · by_cases sets : ∃ body, step.Sets state body
        · obtain ⟨body, sets⟩ := sets
          exact .inr ⟨body, [], step, rest, rfl, sets, quiet⟩
        · exact .inl ⟨not_exists.mp sets, quiet⟩
      · exact .inr ⟨body, step :: before, last, later, rfl, sets, quiet⟩

/-- Two histories have the same last set, or none of them has any. -/
def SameLastSet (first second : List Step) : Prop :=
  (Quiet .initial first ∧ Quiet .initial second) ∨
    ∃ body, LastSet .initial first body ∧ LastSet .initial second body

theorem SameLastSet.run_eq {first second : List Step} (same : SameLastSet first second)
    (settings : (run .initial first).settings = (run .initial second).settings) :
    run .initial first = run .initial second := by
  have loaded : (run .initial first).loaded = (run .initial second).loaded := by
    rcases same with ⟨left, right⟩ | ⟨body, left, right⟩
    · rw [left.loaded_run, right.loaded_run]
    · obtain ⟨grammar, installs, kept⟩ := left.installs
      obtain ⟨other, reinstalls, rekept⟩ := right.installs
      rw [kept, rekept, installs.unique reinstalls]
  calc run .initial first
      = ⟨(run .initial first).settings, (run .initial first).loaded⟩ := rfl
    _ = ⟨(run .initial second).settings, (run .initial second).loaded⟩ := by rw [settings, loaded]
    _ = run .initial second := rfl

theorem Installs.startable {body : Json String} {loaded : Loaded} (installs : Installs body loaded) :
    ∃ start, loaded.Startable start := by
  obtain ⟨_, _, parsed, _, declared⟩ := installs
  obtain ⟨first, _, start, known⟩ := Grammar.start_of_parse parsed
  exact ⟨_, rfl, declared, first, start, known⟩

theorem not_callsUnknown_run (steps : List Step) {body : Json String} (omits : OmitsStart body)
    (entropy : Random.Entropy) :
    ¬(expand entropy (run .initial steps) body).CallsUnknown := by
  rcases quiet_or_lastSet .initial steps with quiet | ⟨_, last⟩
  · rw [expand, quiet.loaded_run]
    exact not_callsUnknown_refuse rfl (by decide)
  · obtain ⟨loaded, installs, kept⟩ := last.installs
    obtain ⟨start, startable⟩ := installs.startable
    exact not_callsUnknown_expand kept startable omits entropy

/--
The grammar of a service is the one that was set last, with a start symbol of
its own, and there is none as long as no request has set one. A request whose
text can be parsed and declares its start sets it, and no other step changes it.
Two histories with the same last set and settings give the same answers to every
request, unless it is for texts and has a null seed or a leaf shows the source.
Texts of the stored symbol are never refused because the symbol is unknown.
-/
theorem run_determined (steps : List Step) :
    (Quiet .initial steps → (run .initial steps).loaded = none) ∧
    (∀ body, LastSet .initial steps body →
      ∃ fields text wanted start grammar, Submits body fields text ∧
        requestedStart? fields = some wanted ∧
        (if wanted = "" then grammar.table.keys.head? = some start else start = wanted) ∧
        (Grammar.parse .default text).1 = .ok grammar ∧ grammar.contains start = true ∧
        (run .initial steps).loaded = some ⟨grammar, some start⟩) ∧
    (Quiet .initial steps ∨ ∃ body, LastSet .initial steps body) ∧
    (∀ request body loaded entropy, request.Asks .setGrammar → request.body? = some body →
      Installs body loaded → (Step.serve entropy request).Sets (run .initial steps) body) ∧
    (∀ step : Step, (∀ body, ¬step.Sets (run .initial steps) body) →
      (step.after (run .initial steps)).loaded = (run .initial steps).loaded) ∧
    (∀ others, SameLastSet steps others →
      (run .initial steps).settings = (run .initial others).settings →
      ∀ request entropy another,
        (Route.ofPath? (Target.path request.url) = some .generate →
          request.Settles (run .initial steps) entropy another) →
        (handle entropy (run .initial steps) request).1 =
          (handle another (run .initial others) request).1) ∧
    (∀ request body entropy, request.Asks .generate → request.body? = some body → OmitsStart body →
      ¬(handle entropy (run .initial steps) request).1.CallsUnknown) := by
  refine ⟨Quiet.loaded_run, fun body last => ?_, quiet_or_lastSet _ _,
    fun request body loaded entropy asks sent installs => .mk asks sent ?_,
    fun step quiet => Step.loaded_after quiet,
    fun others same settings request entropy another settles => ?_,
    fun request body entropy asks sent omits => ?_⟩
  · obtain ⟨_, ⟨submits, asked, parsed, chosen, declared⟩, kept⟩ := last.installs
    exact ⟨_, _, _, _, _, submits, asked, chosen, parsed, declared, kept⟩
  · rw [handle_of_setGrammar asks sent]
    exact (setGrammar_of_installs installs _).1
  · rw [← same.run_eq settings, handle_eq settles]
  · rw [handle_of_asks asks, sent]
    exact not_callsUnknown_run steps omits entropy

/-- The grammar of one definition, which the text below gives. -/
def single : Grammar where
  table := ⟨[("S", ⟨"S", [[.leaf (.constant "String" "a")]], .empty, none⟩)], by decide⟩
  start := some "S"

def singleText : String := "S : \"a\" ."

theorem parse_singleText : (Grammar.parse .default singleText).1 = .ok single := by
  decide +kernel

/-- A request for a grammar, and one that asks for texts from a seed of its own. -/
def setting : Step := .serve (.unused "here") (requestToSet singleText)

def seededRequest : Request := ⟨"POST", "/generate", some (.object [("seed", .integer 7)])⟩

/-- A request that fails. -/
def failing : Step := .serve (.unused "here") (requestToSet overflowingText)

theorem sets_setting (state : State) : setting.Sets state (submission singleText) := by
  have visible : Unicode.strip singleText ≠ "" := by decide +kernel
  have submits := submits_submission singleText
  refine .mk (asks_requestToSet _) rfl ?_
  rw [handle_of_setGrammar (asks_requestToSet _) rfl]
  simp only [setGrammar, submits.object, submits.named, Option.getD_some, parse_singleText,
    if_neg visible, requestedStart?_submission]
  rfl

theorem quiet_failing (state : State) (body : Json String) : ¬failing.Sets state body := by
  rintro ⟨asks, sent, succeeds⟩
  have visible : Unicode.strip overflowingText ≠ "" := by decide +kernel
  have submits := submits_submission overflowingText
  rw [handle_of_setGrammar asks rfl] at succeeds
  simp only [setGrammar, submits.object, submits.named, Option.getD_some, parse_overflowingText,
    if_neg visible, requestedStart?_submission] at succeeds
  cases succeeds

theorem asks_seededRequest : seededRequest.Asks .generate where
  path := by
    have path : Route.ofPath? (Target.path "/generate") = some .generate := by decide +kernel
    exact path
  method := upperCase_post

theorem run_determined_failing :
    (run .initial [failing]).loaded = none ∧
      LastSet .initial [setting, failing] (submission singleText) ∧
      (run .initial [setting, failing]).loaded = some ⟨single, some "S"⟩ ∧
      (∀ entropy another, (handle entropy (run .initial [setting, failing]) seededRequest).1 =
        (handle another (run .initial [setting]) seededRequest).1) ∧
      ∀ entropy,
        ¬(handle entropy (run .initial [setting, failing]) seededRequest).1.CallsUnknown := by
  have last : LastSet .initial [setting, failing] (submission singleText) :=
    ⟨[], setting, [failing], rfl, sets_setting _, quiet_failing _, trivial⟩
  have alone : LastSet .initial [setting] (submission singleText) :=
    ⟨[], setting, [], rfl, sets_setting _, trivial⟩
  obtain ⟨_, loads, _, _, _, answers, known⟩ := run_determined [setting, failing]
  refine ⟨(run_determined [failing]).1 ⟨quiet_failing _, trivial⟩, last, ?_,
    fun entropy another => ?_, fun entropy => ?_⟩
  · obtain ⟨fields, text, wanted, start, grammar, submits, asked, chosen, parsed, _, kept⟩ :=
      loads _ last
    cases submits.object
    cases submits.named
    cases asked
    cases parse_singleText.symm.trans parsed
    cases chosen
    exact kept
  · have same : run .initial [setting, failing] = run .initial [setting] :=
      handle_eq_self (quiet_failing _)
    have stored : (run .initial [setting]).loaded = some ⟨single, some "S"⟩ :=
      congrArg State.loaded (handle_requestToSet parse_singleText rfl rfl (.unused "here") .initial).2
    have conceals : single.ConcealsSource := by decide
    refine answers [setting] (.inr ⟨_, last, alone⟩) (by rw [same]) seededRequest entropy another
      fun _ => ⟨nofun, fun loaded kept symbol shows => ?_⟩
    rw [same, stored] at kept
    cases kept
    exact absurd shows (conceals.not_showsSource symbol)
  · refine known seededRequest _ entropy asks_seededRequest rfl ?_
    intro fields start object given
    cases object
    cases given

end PhraseGrammar.Service
