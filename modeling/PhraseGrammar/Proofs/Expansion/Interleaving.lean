import PhraseGrammar.Proofs.Expansion.Memory
import PhraseGrammar.Proofs.Expansion.Roots

/-!
# Interleaved expansions

Two parties expand symbols of one grammar in one memory, each in a context of
its own and with a source of its own, taking turns in any order. What a call
comes to is told from the scope and the source of its party, and a call of the
other party changes neither. Hence a party gets the answers that it would get
alone, and its source is left in the same state.
-/

namespace PhraseGrammar.Memory

/-- A context, which is a chain of dictionaries, and a source with the text it is shown as. -/
structure Party where
  context : List Nat
  source : Nat
  shown : Text

/-- The only source that a context may hold is that of its party. -/
def Party.Owns (party : Party) (scope : Scope) : Prop :=
  ∀ used ∈ scope.source?, used = party.source

/-- A further source for a call, shown as a text of its own wherever it is stored. -/
def Party.entropy (party : Party) (further : Random.Source) (word : Text) : Random.Entropy :=
  ⟨further, fun id => if id = party.source then party.shown else word⟩

/-- A request of a party, by at most `limit` nested expansions. -/
inductive Call where
  /-- The text of a nonterminal in the context. -/
  | expand (limit : Nat) (key : String)
  /--
  The text of a symbol or of the start symbol. The source may be given or not,
  and the context may be visible or not; a further source is at hand.
  -/
  | generate (limit : Nat) (further : Random.Source) (word : Text) (symbol : Option String)
      (given visible : Bool)

namespace Call

def perform (grammar : Grammar) (home : String → Nat) (party : Party) : Call → Action Text
  | .expand limit key => Memory.expand grammar home limit party.context key
  | .generate limit further word symbol given visible =>
      Memory.generate grammar home limit (party.entropy further word) symbol
        (if given then some party.source else none) (if visible then some party.context else none)

/-- What a call comes to in the scope of its party. -/
def result (grammar : Grammar) (party : Party) (scope : Scope) (sources : List Random.Source) :
    Call → Outcome Text
  | .expand limit key =>
      Outcome.ofResult (Expander.expand grammar limit key (.start scope sources))
  | .generate limit further word symbol given visible =>
      Outcome.ofResult (Expander.generate grammar limit (party.entropy further word) symbol
        (if given then some party.source else none) visible (.start scope sources))

end Call

/-- An answer to each call, with a mark for the party that it was given to. -/
abbrev Answered := Except RunFailure Text ⊕ Except RunFailure Text

/-- The answers to the calls of two parties in their order, and the memory behind them. -/
def play (grammar : Grammar) (home : String → Nat) (first second : Party) :
    List (Call ⊕ Call) → Memory → List Answered × Memory
  | [], memory => ([], memory)
  | .inl call :: rest, memory =>
      let performed := call.perform grammar home first memory
      let (answers, last) := play grammar home first second rest (after performed)
      (.inl (outcome performed).1 :: answers, last)
  | .inr call :: rest, memory =>
      let performed := call.perform grammar home second memory
      let (answers, last) := play grammar home first second rest (after performed)
      (.inr (outcome performed).1 :: answers, last)

/-- The answers to the calls of one party alone. -/
def alone (grammar : Grammar) (home : String → Nat) (party : Party) :
    List Call → Memory → List (Except RunFailure Text) × Memory
  | [], memory => ([], memory)
  | call :: rest, memory =>
      let performed := call.perform grammar home party memory
      let (answers, last) := alone grammar home party rest (after performed)
      ((outcome performed).1 :: answers, last)

namespace Call

section

variable {grammar : Grammar} {party : Party} {scope : Scope} {sources others : List Random.Source}
  (call : Call)

theorem length_result : sources.length ≤ (call.result grammar party scope sources).2.length := by
  cases call with
  | expand limit key =>
      have kept := @Expander.length_fromRoot grammar limit key (scope, sources)
      exact Nat.le_of_eq kept.symm
  | generate limit further word symbol given visible =>
      rw [result, Expander.ofResult_generate]
      cases Expander.chosen grammar symbol with
      | none => exact Nat.le_refl _
      | some key =>
          dsimp only
          split
          · rw [Expander.length_fromRoot]
            exact Expander.length_rootOf visible
          · exact Nat.le_refl _

/-- A call leaves every source alone but that of its party. -/
theorem result_other {id : Nat} (owns : party.Owns scope) (known : id < sources.length)
    (other : id ≠ party.source) :
    (call.result grammar party scope sources).2[id]? = sources[id]? := by
  have seen : scope.source? ≠ some id := fun found => other (owns id found)
  cases call with
  | expand limit key =>
      exact @Expander.fromRoot_other grammar limit key (scope, sources) id seen
  | generate limit further word symbol given visible =>
      rw [result, Expander.ofResult_generate]
      cases Expander.chosen grammar symbol with
      | none => rfl
      | some key =>
          dsimp only
          split
          · have given : (if given then some party.source else none) ≠ some id := by
              split
              · exact fun same => other (Option.some.inj same).symm
              · exact nofun
            obtain ⟨missing, kept⟩ := Expander.rootOf_other visible known given seen
            rw [Expander.fromRoot_other grammar limit key missing, kept]
          · rfl

/-- A call comes to the same whatever the other sources are. -/
theorem result_eq (owns : party.Owns scope) (known : party.source < sources.length)
    (counterpart : party.source < others.length)
    (same : sources[party.source]? = others[party.source]?) :
    (call.result grammar party scope sources).1 = (call.result grammar party scope others).1 ∧
      (call.result grammar party scope sources).2[party.source]? =
        (call.result grammar party scope others).2[party.source]? := by
  cases call with
  | expand limit key =>
      exact (Expander.twins_scope owns same).fromRoot_eq grammar limit key
  | generate limit further word symbol given visible =>
      rw [result, result, Expander.ofResult_generate, Expander.ofResult_generate]
      cases Expander.chosen grammar symbol with
      | none => exact ⟨rfl, same⟩
      | some key =>
          dsimp only
          split
          · have given : ∀ used ∈ (if given then some party.source else none),
                used = party.source := by
              intro used member
              split at member
              · exact (Option.some.inj member).symm
              · cases member
            have shown : (party.entropy further word).shown sources.length =
                (party.entropy further word).shown others.length :=
              (if_neg (Nat.ne_of_gt known)).trans (if_neg (Nat.ne_of_gt counterpart)).symm
            have twins := Expander.twins_rootOf visible given owns known counterpart shown same
            exact twins.fromRoot_eq grammar limit key
          · exact ⟨rfl, same⟩

end

variable {grammar : Grammar} {home : String → Nat} {party : Party} {memory : Memory}

/-- In memory a call comes to the same, and no dictionary is changed. -/
theorem answers_perform (stores : memory.Stores grammar home) (held : memory.Holds party.context)
    (call : Call) :
    Answers (call.result grammar party (memory.scope party.context) memory.sources)
      (Kept memory.frames.length memory) (call.perform grammar home party memory) := by
  cases call with
  | expand limit key => exact answers_expand limit key stores held
  | generate limit further word symbol given visible =>
      cases visible with
      | true =>
          have visible : ∀ chain ∈ some party.context, memory.Holds chain :=
            fun chain same => Option.some.inj same ▸ held
          exact answers_generate limit (party.entropy further word) symbol _ stores visible
      | false =>
          have hidden : ∀ chain ∈ (none : Option (List Nat)), memory.Holds chain := nofun
          have answers := answers_generate limit (party.entropy further word) symbol
            (if given then some party.source else none) stores hidden
          -- What cannot be seen makes no difference to the root.
          rw [Option.isSome_none, Expander.ofResult_generate] at answers
          rw [result, Expander.ofResult_generate]
          exact answers

end Call

/-! ## A memory shared and a memory alone -/

/--
The memory that the parties share beside the memory of the first one alone: the
first party finds the same bindings and its source in the same state, and the
second one does not own that source.
-/
structure Beside (grammar : Grammar) (home : String → Nat) (first second : Party)
    (shared own : Memory) : Prop where
  stores : shared.Stores grammar home
  storesOwn : own.Stores grammar home
  held : shared.Holds first.context
  heldOwn : own.Holds first.context
  heldSecond : shared.Holds second.context
  scope : shared.scope first.context = own.scope first.context
  owns : first.Owns (shared.scope first.context)
  ownsSecond : second.Owns (shared.scope second.context)
  known : first.source < shared.sources.length
  knownOwn : first.source < own.sources.length
  source : shared.sources[first.source]? = own.sources[first.source]?

namespace Beside

variable {grammar : Grammar} {home : String → Nat} {first second : Party} {shared own : Memory}

/-- A call of the second party does not show in the memory of the first one. -/
theorem second_call (beside : Beside grammar home first second shared own)
    (distinct : first.source ≠ second.source) (call : Call) :
    Beside grammar home first second (after (call.perform grammar home second shared)) own := by
  obtain ⟨same, kept⟩ := call.answers_perform beside.stores beside.heldSecond
  have sources := congrArg Prod.snd same
  rw [outcome_snd] at sources
  have view := kept.scope_eq beside.held
  refine ⟨kept.stores beside.stores, beside.storesOwn, kept.holds beside.held, beside.heldOwn,
    kept.holds beside.heldSecond, view.trans beside.scope, view ▸ beside.owns,
    kept.scope_eq beside.heldSecond ▸ beside.ownsSecond, ?_, beside.knownOwn, ?_⟩
  · rw [sources]
    exact Nat.lt_of_lt_of_le beside.known call.length_result
  · rw [sources, call.result_other beside.ownsSecond beside.known distinct, beside.source]

/-- A call of the first party has the same answer in both, and they stay beside each other. -/
theorem first_call (beside : Beside grammar home first second shared own) (call : Call) :
    (outcome (call.perform grammar home first shared)).1 =
        (outcome (call.perform grammar home first own)).1 ∧
      Beside grammar home first second (after (call.perform grammar home first shared))
        (after (call.perform grammar home first own)) := by
  obtain ⟨same, kept⟩ := call.answers_perform beside.stores beside.held
  obtain ⟨sameOwn, keptOwn⟩ := call.answers_perform beside.storesOwn beside.heldOwn
  rw [← beside.scope] at sameOwn
  obtain ⟨answer, moved⟩ := call.result_eq beside.owns beside.known beside.knownOwn beside.source
  have sources := congrArg Prod.snd same
  have sourcesOwn := congrArg Prod.snd sameOwn
  rw [outcome_snd] at sources sourcesOwn
  have view := kept.scope_eq beside.held
  refine ⟨by rw [same, sameOwn, answer], kept.stores beside.stores,
    keptOwn.stores beside.storesOwn, kept.holds beside.held, keptOwn.holds beside.heldOwn,
    kept.holds beside.heldSecond, ?_, view ▸ beside.owns,
    kept.scope_eq beside.heldSecond ▸ beside.ownsSecond, ?_, ?_, ?_⟩
  · rw [view, keptOwn.scope_eq beside.heldOwn, beside.scope]
  · rw [sources]
    exact Nat.lt_of_lt_of_le beside.known call.length_result
  · rw [sourcesOwn]
    exact Nat.lt_of_lt_of_le beside.knownOwn call.length_result
  · rw [sources, sourcesOwn, moved]

/-- The whole of a history, by induction on it. -/
theorem play_eq (beside : Beside grammar home first second shared own)
    (distinct : first.source ≠ second.source) (history : List (Call ⊕ Call)) :
    (play grammar home first second history shared).1.filterMap Sum.getLeft? =
        (alone grammar home first (history.filterMap Sum.getLeft?) own).1 ∧
      (play grammar home first second history shared).2.sources[first.source]? =
        (alone grammar home first (history.filterMap Sum.getLeft?) own).2.sources[first.source]? := by
  induction history generalizing shared own with
  | nil => exact ⟨rfl, beside.source⟩
  | cons turn rest ih =>
      cases turn with
      | inl call =>
          obtain ⟨answer, later⟩ := beside.first_call call
          obtain ⟨answers, source⟩ := ih later
          exact ⟨congrArg₂ List.cons answer answers, source⟩
      | inr call => exact ih (beside.second_call distinct call)

end Beside

/--
Interleaved expansions do not disturb each other. Two parties with contexts in
one memory and with different sources make calls in any order. The answers to
the calls of the first one, be they texts or failures, are those to its calls
alone, and so is the state in which its source is left. Each call is answered
as expansion answers it in the scope that the party's context makes up.
-/
theorem play_undisturbed {grammar : Grammar} {home : String → Nat} {memory : Memory}
    {first second : Party} (stores : memory.Stores grammar home)
    (held : memory.Holds first.context) (heldSecond : memory.Holds second.context)
    (owns : first.Owns (memory.scope first.context))
    (ownsSecond : second.Owns (memory.scope second.context))
    (known : first.source < memory.sources.length) (distinct : first.source ≠ second.source)
    (history : List (Call ⊕ Call)) :
    (play grammar home first second history memory).1.filterMap Sum.getLeft? =
        (alone grammar home first (history.filterMap Sum.getLeft?) memory).1 ∧
      (play grammar home first second history memory).2.sources[first.source]? =
        (alone grammar home first (history.filterMap Sum.getLeft?)
          memory).2.sources[first.source]? ∧
      ∀ (shared : Memory) (party : Party), shared.Stores grammar home →
        shared.Holds party.context → ∀ call : Call,
          outcome (call.perform grammar home party shared) =
            call.result grammar party (shared.scope party.context) shared.sources := by
  have beside : Beside grammar home first second memory memory :=
    ⟨stores, stores, held, held, heldSecond, rfl, owns, ownsSecond, known, known, rfl⟩
  obtain ⟨answers, source⟩ := beside.play_eq distinct history
  exact ⟨answers, source, fun shared party stored inside call =>
    (call.answers_perform stored inside).outcome⟩

/-- The memory of one caller, with the context of another one behind it. -/
def shared : Memory :=
  { stored with frames := stored.frames ++ [Table.empty.set "B" (.value (.text "other"))] }

/-- A context with a source in it, and one without. -/
def ann : Party := ⟨[3], 1, "here"⟩

def bob : Party := ⟨[4], 0, "there"⟩

/-- The second party has no source in sight, expands too deep, and asks for an unknown symbol. -/
def turns : List (Call ⊕ Call) :=
  [.inr (.expand 9 "S"), .inl (.expand 2 "S"), .inr (.generate 1 (.script []) "far" none true true),
    .inl (.generate 1 (.script []) "far" (some "C") true true),
    .inr (.generate 9 (.script []) "far" (some "D") false false)]

theorem play_undisturbed_turns :
    shared.Stores Expander.shadowing homes ∧ shared.Holds ann.context ∧
      shared.Holds bob.context ∧ ann.Owns (shared.scope ann.context) ∧
        bob.Owns (shared.scope bob.context) ∧
        (play Expander.shadowing homes ann bob turns shared).1 =
          [.inr (.error .noSource), .inl (.ok "caller!defaultcaller!"), .inr (.error .tooDeep),
            .inl (.ok "default"), .inr (.error (.bare (.unknownStart (some "D"))))] ∧
        (alone Expander.shadowing homes ann (turns.filterMap Sum.getLeft?) shared).1 =
          [.ok "caller!defaultcaller!", .ok "default"] ∧
        (play Expander.shadowing homes ann bob turns shared).2.sources[1]? =
          (alone Expander.shadowing homes ann (turns.filterMap Sum.getLeft?)
            shared).2.sources[1]? := by
  have stores : shared.Stores Expander.shadowing homes :=
    (Kept.allocate stored _).stores stores_stored
  have held : shared.Holds ann.context := by
    intro address member
    cases List.mem_singleton.mp member
    decide
  have heldSecond : shared.Holds bob.context := by
    intro address member
    cases List.mem_singleton.mp member
    decide
  have owns : ann.Owns (shared.scope ann.context) := by
    intro used member
    exact (Option.some.inj member).symm
  have ownsSecond : bob.Owns (shared.scope bob.context) := by
    intro used member
    cases member
  obtain ⟨answers, source, _⟩ :=
    play_undisturbed stores held heldSecond owns ownsSecond (by decide) (by decide) turns
  have given : (play Expander.shadowing homes ann bob turns shared).1 =
      [.inr (.error .noSource), .inl (.ok "caller!defaultcaller!"), .inr (.error .tooDeep),
        .inl (.ok "default"), .inr (.error (.bare (.unknownStart (some "D"))))] := by
    decide +kernel
  rw [given] at answers
  exact ⟨stores, held, heldSecond, owns, ownsSecond, given, answers.symm, source⟩

end PhraseGrammar.Memory
