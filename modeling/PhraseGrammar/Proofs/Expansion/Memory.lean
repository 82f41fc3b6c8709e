import PhraseGrammar.Proofs.Expansion.Effects

/-!
# Expansion in memory

Frames are dictionaries that can be written to, and a scope is a chain of such
dictionaries: the callers' maps and, in front of them, those of the expansions
at work. Here they lie in a memory under addresses, and so do the default
bindings of a grammar. Expansion in memory copies the default bindings into a
new dictionary and writes to such dictionaries only; it gives what expansion in
scopes gives, and all dictionaries that were there before are as they were.
-/

namespace PhraseGrammar

/-- Dictionaries and random sources, each under its position. -/
structure Memory where
  frames : List Frame
  sources : List Random.Source

theorem Outcome.andThen_assoc {α β γ : Type} (first : Outcome α)
    (second : α → List Random.Source → Outcome β) (third : β → List Random.Source → Outcome γ) :
    (first.andThen second).andThen third =
      first.andThen fun value sources => (second value sources).andThen third := by
  rcases first with ⟨failure | value, sources⟩ <;> rfl

namespace Memory

/-- A step in a memory. What it did there stays if it fails. -/
abbrev Action := EStateM RunFailure Memory

/-- The scope that a chain of dictionaries makes up, the innermost one first. -/
def scope (memory : Memory) (chain : List Nat) : Scope :=
  ⟨chain.map fun address => memory.frames.getD address .empty⟩

/-- A step that looks names up in a chain and may draw. -/
def look {α : Type} (chain : List Nat) (step : Expander α) : Action α := fun memory =>
  match step (.start (memory.scope chain) memory.sources) with
  | .ok value run => .ok value { memory with sources := run.sources }
  | .error failure run => .error failure { memory with sources := run.sources }

/-- A new dictionary; its address is returned. -/
def allocate (frame : Frame) : Action Nat := fun memory =>
  .ok memory.frames.length { memory with frames := memory.frames ++ [frame] }

/-- A new dictionary with the bindings of another one. -/
def copy (address : Nat) : Action Nat := fun memory =>
  allocate (memory.frames.getD address .empty) memory

/-- A binding in the dictionary at an address. -/
def write (address : Nat) (name : String) (binding : Binding) : Action Unit := fun memory =>
  .ok () { memory with
    frames := memory.frames.set address ((memory.frames.getD address .empty).set name binding) }

/-- One node of a rule of `owner`, expanded in a dictionary in front of an outer chain. -/
def node (grammar : Grammar) (expand : List Nat → String → Action Text) (owner : String)
    (frame : Nat) (outer : List Nat) : Node → Action Text
  | .leaf leaf => look (frame :: outer) (Expander.emit leaf.emission)
  | .symbol key => do
      let text ← expand (frame :: outer) key
      write frame (grammar.nameOf key) (.value (.text text))
      return text
  | .unresolved ref => throw (.notExpandable (shownRef ref) owner)
  | .stray text => throw (.notExpandable (Text.quote text) owner)

def nodes (grammar : Grammar) (expand : List Nat → String → Action Text) (owner : String)
    (frame : Nat) (outer : List Nat) : List Node → Action Text
  | [] => return ""
  | first :: rest => do
      let text ← node grammar expand owner frame outer first
      let others ← nodes grammar expand owner frame outer rest
      return text ++ others

/-- The text of a nonterminal. Its default bindings are the dictionary at `home key`. -/
def expand (grammar : Grammar) (home : String → Nat) : Nat → List Nat → String → Action Text
  | 0, _, _ => throw .tooDeep
  | limit + 1, chain, key =>
      match grammar.get? key with
      | none => throw (.undeclared key)
      | some nonterminal => do
          let rule ← look chain (Expander.choose nonterminal.rules)
          let frame ← copy (home key)
          nodes grammar (expand grammar home limit) nonterminal.name frame chain rule

/-- A dictionary with a given source, or with a further one. -/
def newRoot (entropy : Random.Entropy) (source : Option Nat) (bindings : Frame) : Action Nat :=
  fun memory =>
    match source with
    | some id => allocate (bindings.set randomName (.source id (entropy.shown id))) memory
    | none =>
        let id := memory.sources.length
        allocate (bindings.set randomName (.source id (entropy.shown id)))
          { memory with sources := memory.sources ++ [entropy.source] }

def expandAnew (grammar : Grammar) (home : String → Nat) (limit : Nat) (key : String)
    (entropy : Random.Entropy) (source : Option Nat) (bindings : Frame) : Action Text := do
  let root ← newRoot entropy source bindings
  expand grammar home limit [root] key

/-- The text of a symbol, or of the start symbol, in a given context or in none. -/
def generate (grammar : Grammar) (home : String → Nat) (limit : Nat) (entropy : Random.Entropy)
    (symbol : Option String) (source : Option Nat) (context? : Option (List Nat)) :
    Action Text := fun memory =>
  match Expander.chosen grammar symbol with
  | none => .error (.bare (.unknownStart none)) memory
  | some key =>
      if grammar.contains key then
        match context? with
        | some chain =>
            let scope := memory.scope chain
            if source.isSome ∨ (scope.get? randomName).isNone then
              expandAnew grammar home limit key entropy source scope.flatten memory
            else expand grammar home limit chain key memory
        | none => expandAnew grammar home limit key entropy source .empty memory
      else .error (.bare (.unknownStart (some key))) memory

/-- The memory after an action, whichever way the action ended. -/
def after {α : Type} : EStateM.Result RunFailure Memory α → Memory
  | .ok _ memory => memory
  | .error _ memory => memory

/-- What is seen of an action apart from the dictionaries. -/
def outcome {α : Type} : EStateM.Result RunFailure Memory α → Outcome α
  | .ok value memory => (.ok value, memory.sources)
  | .error failure memory => (.error failure, memory.sources)

/-- An action ends with an outcome, in a memory with a property. -/
structure Answers {α : Type} (expected : Outcome α) (holds : Memory → Prop)
    (result : EStateM.Result RunFailure Memory α) : Prop where
  outcome : outcome result = expected
  holds : holds (after result)

namespace Answers

variable {α β : Type}

/-- What an action leaves true, the actions after it start from. -/
theorem bind {first : Action α} {second : α → Action β} {memory : Memory} {expected : Outcome α}
    {further : α → List Random.Source → Outcome β} {between last : Memory → Prop}
    (answers : Answers expected between (first memory))
    (fails : ∀ next, between next → last next)
    (continues : ∀ value next, between next →
      Answers (further value next.sources) last (second value next)) :
    Answers (expected.andThen further) last ((first >>= second) memory) := by
  obtain ⟨same, kept⟩ := answers
  change Answers _ _ (EStateM.bind first second memory)
  unfold EStateM.bind
  subst same
  cases ran : first memory with
  | ok value next =>
      rw [ran] at kept
      exact continues value next kept
  | error failure next =>
      rw [ran] at kept
      exact ⟨rfl, fails next kept⟩

theorem weaken {expected : Outcome α} {holds weaker : Memory → Prop}
    {result : EStateM.Result RunFailure Memory α} (answers : Answers expected holds result)
    (implies : ∀ memory, holds memory → weaker memory) : Answers expected weaker result :=
  ⟨answers.outcome, implies _ answers.holds⟩

end Answers

theorem answers_look {α : Type} {step : Expander α}
    {evaluation : Environment → List Random.Source → Outcome α}
    (follows : Expander.Follows step evaluation) (chain : List Nat) (memory : Memory) :
    Answers (evaluation (memory.scope chain).get? memory.sources)
      (fun next => next.frames = memory.frames) (look chain step memory) := by
  have answer := follows.outcome (.start (memory.scope chain) memory.sources)
  unfold look
  cases ran : step (.start (memory.scope chain) memory.sources) with
  | ok value run =>
      rw [ran] at answer
      exact ⟨answer, rfl⟩
  | error failure run =>
      rw [ran] at answer
      exact ⟨answer, rfl⟩

/-- All dictionaries below an address are as they were, and none is gone. -/
structure Kept (count : Nat) (before after : Memory) : Prop where
  same {address : Nat} (below : address < count) :
    after.frames[address]? = before.frames[address]?
  longer : before.frames.length ≤ after.frames.length

namespace Kept

variable {count : Nat} {first second third : Memory}

theorem of_frames (same : second.frames = first.frames) : Kept count first second :=
  ⟨fun _ => by rw [same], Nat.le_of_eq (by rw [same])⟩

theorem trans (left : Kept count first second) (right : Kept count second third) :
    Kept count first third :=
  ⟨fun below => (right.same below).trans (left.same below), Nat.le_trans left.longer right.longer⟩

theorem weaken {fewer : Nat} (kept : Kept count first second) (less : fewer ≤ count) :
    Kept fewer first second :=
  ⟨fun below => kept.same (Nat.lt_of_lt_of_le below less), kept.longer⟩

theorem allocate (memory : Memory) (frame : Frame) :
    Kept memory.frames.length memory { memory with frames := memory.frames ++ [frame] } where
  same below := List.getElem?_append_left below
  longer := by
    rw [List.length_append]
    exact Nat.le_add_right _ _

theorem write (memory : Memory) (address : Nat) (frame : Frame) :
    Kept address memory { memory with frames := memory.frames.set address frame } where
  same below := List.getElem?_set_ne (Nat.ne_of_gt below)
  longer := Nat.le_of_eq List.length_set.symm

theorem scope_eq {chain : List Nat} (kept : Kept count first second)
    (older : ∀ address ∈ chain, address < count) : second.scope chain = first.scope chain := by
  unfold scope
  congr 1
  apply List.map_congr_left
  intro address member
  rw [List.getD_eq_getElem?_getD, List.getD_eq_getElem?_getD, kept.same (older address member)]

end Kept

/-- All dictionaries of a chain are there. -/
def Holds (memory : Memory) (chain : List Nat) : Prop :=
  ∀ address ∈ chain, address < memory.frames.length

/-- The default bindings of every nonterminal lie in the dictionary of its key. -/
def Stores (memory : Memory) (grammar : Grammar) (home : String → Nat) : Prop :=
  ∀ key nonterminal, grammar.get? key = some nonterminal →
    memory.frames[home key]? = some (nonterminal.defaults.map .value)

variable {grammar : Grammar} {home : String → Nat} {memory next : Memory} {frame : Nat}
  {outer chain : List Nat}

theorem Stores.home_lt (stores : memory.Stores grammar home) {key : String}
    {nonterminal : Nonterminal} (found : grammar.get? key = some nonterminal) :
    home key < memory.frames.length :=
  (List.getElem?_eq_some_iff.mp (stores key nonterminal found)).1

theorem Kept.stores (kept : Kept memory.frames.length memory next)
    (stores : memory.Stores grammar home) : next.Stores grammar home :=
  fun key nonterminal found =>
    (kept.same (stores.home_lt found)).trans (stores key nonterminal found)

theorem Kept.holds {count : Nat} (kept : Kept count memory next) (held : memory.Holds chain) :
    next.Holds chain :=
  fun address member => Nat.lt_of_lt_of_le (held address member) kept.longer

/-- A dictionary in front of an outer chain, newer than that and than those of the grammar. -/
structure InFront (memory : Memory) (grammar : Grammar) (home : String → Nat) (frame : Nat)
    (outer : List Nat) : Prop where
  known : frame < memory.frames.length
  older : ∀ address ∈ outer, address < frame
  homes : ∀ key nonterminal, grammar.get? key = some nonterminal → home key < frame
  stores : memory.Stores grammar home

theorem InFront.of_kept (front : memory.InFront grammar home frame outer)
    (kept : Kept frame memory next) : next.InFront grammar home frame outer where
  known := Nat.lt_of_lt_of_le front.known kept.longer
  older := front.older
  homes := front.homes
  stores key nonterminal found :=
    (kept.same (front.homes key nonterminal found)).trans (front.stores key nonterminal found)

theorem InFront.holds (front : memory.InFront grammar home frame outer) :
    memory.Holds (frame :: outer) := by
  intro address member
  cases member with
  | head => exact front.known
  | tail _ inside => exact Nat.lt_trans (front.older address inside) front.known

theorem InFront.kept (front : memory.InFront grammar home frame outer)
    (kept : Kept memory.frames.length memory next) : Kept frame memory next :=
  kept.weaken (Nat.le_of_lt front.known)

/-- A binding in the dictionary in front is one in the innermost frame of the scope. -/
theorem InFront.scope_write (front : memory.InFront grammar home frame outer) (name : String)
    (binding : Binding) :
    scope { memory with
        frames := memory.frames.set frame ((memory.frames.getD frame .empty).set name binding) }
        (frame :: outer) =
      (memory.scope (frame :: outer)).bind name binding := by
  have wrote := Kept.write memory frame ((memory.frames.getD frame .empty).set name binding)
  have rest := wrote.scope_eq front.older
  have others := congrArg Scope.frames rest
  simp only [scope] at others
  simp only [scope, List.map_cons, Scope.bind, others]
  rw [List.getD_eq_getElem?_getD, List.getElem?_set_self front.known]
  rfl

/-- A new dictionary in front of a chain is a new innermost frame. -/
theorem scope_allocate (held : memory.Holds chain) (frame : Frame) :
    scope { memory with frames := memory.frames ++ [frame] } (memory.frames.length :: chain) =
      ⟨frame :: (memory.scope chain).frames⟩ := by
  have others := congrArg Scope.frames ((Kept.allocate memory frame).scope_eq held)
  simp only [scope] at others
  simp only [scope, List.map_cons, others]
  rw [List.getD_append_right _ _ _ _ (Nat.le_refl _), Nat.sub_self]
  rfl

/-- A new dictionary is in front of a chain and of the dictionaries of the grammar. -/
theorem Stores.inFront (stores : memory.Stores grammar home) (held : memory.Holds chain)
    (frame : Frame) :
    InFront { memory with frames := memory.frames ++ [frame] } grammar home memory.frames.length
      chain where
  known := by
    rw [List.length_append]
    exact Nat.lt_succ_self _
  older := held
  homes _ _ found := stores.home_lt found
  stores := (Kept.allocate memory frame).stores stores

/-! ## Expansions -/

/-- Symbols are expanded to what they are evaluated to, and all dictionaries are kept. -/
def Faithful (grammar : Grammar) (home : String → Nat)
    (symbol : String → Environment → List Random.Source → Outcome Text)
    (expand : List Nat → String → Action Text) : Prop :=
  ∀ (key : String) (chain : List Nat) (memory : Memory), memory.Stores grammar home →
    memory.Holds chain →
      Answers (symbol key (memory.scope chain).get? memory.sources)
        (Kept memory.frames.length memory) (expand chain key memory)

section

variable {symbol : String → Environment → List Random.Source → Outcome Text}
  {expand : List Nat → String → Action Text} {owner : String}

theorem answers_nodes (expands : Faithful grammar home symbol expand) (rule : List Node)
     (front : memory.InFront grammar home frame outer) :
    Answers
      (Environment.nodes grammar symbol owner rule (memory.scope (frame :: outer)).get?
        memory.sources)
      (Kept frame memory) (nodes grammar expand owner frame outer rule memory) := by
  -- The dictionary in front differs from node to node; those below its address never do.
  induction rule generalizing memory with
  | nil => exact ⟨rfl, .of_frames rfl⟩
  | cons first rest ih =>
      have joined (text : Text) {next : Memory} (front : next.InFront grammar home frame outer) :
          Answers
            ((Environment.nodes grammar symbol owner rest (next.scope (frame :: outer)).get?
              next.sources).andThen fun others sources => (.ok (text ++ others), sources))
            (Kept frame next)
            ((nodes grammar expand owner frame outer rest >>= fun others =>
              pure (text ++ others)) next) :=
        (ih front).bind (fun last kept => kept) fun others last kept => ⟨rfl, kept⟩
      cases first with
      | unresolved ref => exact ⟨rfl, .of_frames rfl⟩
      | stray text => exact ⟨rfl, .of_frames rfl⟩
      | leaf leaf =>
          have emits := answers_look (Expander.follows_emit leaf.emission) (frame :: outer) memory
          refine emits.bind (fun next same => .of_frames same) fun text next same => ?_
          have kept : Kept memory.frames.length memory next := .of_frames same
          have later := joined text (front.of_kept (front.kept kept))
          rw [kept.scope_eq front.holds] at later
          exact later.weaken fun last further => (front.kept kept).trans further
      | symbol key =>
          simp only [nodes, node, bind_assoc, pure_bind]
          have inner := expands key (frame :: outer) memory front.stores front.holds
          refine inner.bind (fun next kept => front.kept kept) fun text next kept => ?_
          have still := front.of_kept (front.kept kept)
          have wrote := Kept.write next frame
            ((next.frames.getD frame .empty).set (grammar.nameOf key) (.value (.text text)))
          have later := joined text (still.of_kept wrote)
          rw [still.scope_write, Scope.get?_bind_eq, kept.scope_eq front.holds] at later
          exact later.weaken fun last further => (front.kept kept).trans (wrote.trans further)

/-- A rule in a copy of the default bindings, which is written to in their stead. -/
theorem answers_rule (expands : Faithful grammar home symbol expand) (rule : List Node)
    {key : String} {nonterminal : Nonterminal} (found : grammar.get? key = some nonterminal)
    (stores : memory.Stores grammar home) (held : memory.Holds chain) :
    Answers
      (Environment.nodes grammar symbol owner rule
        (Environment.override (memory.scope chain).get? nonterminal.defaults) memory.sources)
      (Kept memory.frames.length memory)
      ((copy (home key) >>= fun frame => nodes grammar expand owner frame chain rule) memory) := by
  -- The copy, and not the dictionary of the grammar, is the one in front.
  have copied : memory.frames.getD (home key) .empty = nonterminal.defaults.map .value := by
    rw [List.getD_eq_getElem?_getD, stores key nonterminal found]
    rfl
  have front := stores.inFront held (nonterminal.defaults.map .value)
  have allocated := Kept.allocate memory (nonterminal.defaults.map .value)
  have answers : Answers _ _
      (nodes grammar expand owner memory.frames.length chain rule
        { memory with frames := memory.frames ++ [nonterminal.defaults.map .value] }) :=
    answers_nodes expands rule front
  rw [scope_allocate held, show Scope.get? ⟨_ :: (memory.scope chain).frames⟩ = _ from
    Scope.get?_push_eq (memory.scope chain) nonterminal.defaults] at answers
  rw [← copied] at answers allocated
  exact answers.weaken fun next kept => allocated.trans kept

end

theorem faithful_expand (grammar : Grammar) (home : String → Nat) (limit : Nat) :
    Faithful grammar home (Environment.evaluate grammar limit) (expand grammar home limit) := by
  induction limit with
  | zero => exact fun key chain memory stores held => ⟨rfl, .of_frames rfl⟩
  | succ limit ih =>
      intro key chain memory stores held
      unfold expand Environment.evaluate
      cases found : grammar.get? key with
      | none => exact ⟨rfl, .of_frames rfl⟩
      | some nonterminal =>
          have chooses := answers_look (Expander.follows_choose nonterminal.rules) chain memory
          have whole : Answers
              (((Environment.draw (memory.scope chain).get? nonterminal.rules.length
                memory.sources).andThen fun index sources =>
                  (.ok (nonterminal.rules.getD index []), sources)).andThen
                    (Environment.nodes grammar (Environment.evaluate grammar limit) nonterminal.name
                      · (Environment.override (memory.scope chain).get? nonterminal.defaults)))
              (Kept memory.frames.length memory)
              ((look chain (Expander.choose nonterminal.rules) >>= fun rule =>
                copy (home key) >>= fun frame =>
                  nodes grammar (expand grammar home limit) nonterminal.name frame chain rule)
                memory) := by
            refine chooses.bind (fun next same => .of_frames same) fun rule next same => ?_
            have kept : Kept memory.frames.length memory next := .of_frames same
            have answers : Answers _ (Kept next.frames.length next)
                ((copy (home key) >>= fun frame =>
                  nodes grammar (expand grammar home limit) nonterminal.name frame chain rule)
                  next) :=
              answers_rule ih rule found (kept.stores stores) (kept.holds held)
            rw [kept.scope_eq held, same] at answers
            exact answers.weaken fun last further => kept.trans further
          rw [Outcome.andThen_assoc] at whole
          exact whole

theorem answers_expand (limit : Nat) (key : String) (stores : memory.Stores grammar home)
    (held : memory.Holds chain) :
    Answers
      (Outcome.ofResult (Expander.expand grammar limit key
        (.start (memory.scope chain) memory.sources)))
      (Kept memory.frames.length memory) (expand grammar home limit chain key memory) := by
  rw [(Expander.follows_expand grammar limit key).outcome]
  exact faithful_expand grammar home limit key chain memory stores held

/-- An expansion in a new dictionary alone. -/
theorem answers_root (limit : Nat) (key : String) (root : Frame)
    (stores : memory.Stores grammar home) :
    Answers (Environment.evaluate grammar limit key (Scope.get? ⟨[root]⟩) memory.sources)
      (Kept memory.frames.length memory)
      (expand grammar home limit [memory.frames.length] key
        { memory with frames := memory.frames ++ [root] }) := by
  have allocated := Kept.allocate memory root
  have held : Holds { memory with frames := memory.frames ++ [root] } [memory.frames.length] := by
    intro address member
    rw [List.mem_singleton.mp member, List.length_append]
    exact Nat.lt_succ_self _
  have answers := faithful_expand grammar home limit key _ _ (allocated.stores stores) held
  rw [scope_allocate (fun _ member => absurd member List.not_mem_nil) root] at answers
  refine answers.weaken fun next kept => allocated.trans (kept.weaken ?_)
  exact allocated.longer

theorem answers_expandAnew (limit : Nat) (key : String) (entropy : Random.Entropy)
    (source : Option Nat) (bindings : Frame) (scope : Scope)
    (stores : memory.Stores grammar home) :
    Answers
      (Outcome.ofResult (Expander.expandAnew grammar limit key entropy source bindings
        (.start scope memory.sources)))
      (Kept memory.frames.length memory)
      (expandAnew grammar home limit key entropy source bindings memory) := by
  have follows := Expander.follows_expand grammar limit key
  cases source with
  | some id =>
      change Answers (Outcome.ofResult (Expander.inScope _ _ _)) _ _
      rw [Expander.ofResult_inScope, follows.outcome]
      exact answers_root limit key _ stores
  | none =>
      change Answers (Outcome.ofResult (Expander.inScope _ _ _)) _ _
      rw [Expander.ofResult_inScope, follows.outcome]
      have answers : Answers _ _ (expandAnew grammar home limit key entropy none bindings memory) :=
        @answers_root _ _ { memory with sources := memory.sources ++ [entropy.source] } limit key _ stores
      exact answers.weaken fun next kept => ⟨kept.same, kept.longer⟩

theorem answers_generate (limit : Nat) (entropy : Random.Entropy) (symbol : Option String)
    (source : Option Nat) {context? : Option (List Nat)} (stores : memory.Stores grammar home)
    (held : ∀ chain ∈ context?, memory.Holds chain) :
    Answers
      (Outcome.ofResult (Expander.generate grammar limit entropy symbol source context?.isSome
        (.start (memory.scope (context?.getD [])) memory.sources)))
      (Kept memory.frames.length memory)
      (generate grammar home limit entropy symbol source context? memory) := by
  rw [Expander.run_generate]
  unfold generate
  cases Expander.chosen grammar symbol with
  | none => exact ⟨rfl, .of_frames rfl⟩
  | some key =>
      by_cases declared : grammar.contains key = true
      · simp only [declared, if_true]
        cases context? with
        | none => exact answers_expandAnew limit key entropy source .empty _ stores
        | some chain =>
            change Answers (Outcome.ofResult (if source.isSome ∨
              ((memory.scope chain).get? randomName).isNone then _ else _)) _
                (if source.isSome ∨ ((memory.scope chain).get? randomName).isNone then _ else _)
            by_cases own : source.isSome ∨ ((memory.scope chain).get? randomName).isNone
            · rw [if_pos own, if_pos own]
              exact answers_expandAnew limit key entropy source _ _ stores
            · rw [if_neg own, if_neg own]
              exact answers_expand limit key stores (held chain rfl)
      · simp only [declared]
        exact ⟨rfl, .of_frames rfl⟩

/-! ## No traces -/

/-- Two memories that differ in the state of one source at most, and in what is further in them. -/
structure Untouched (used : Option Nat) (before after : Memory) : Prop where
  frame {address : Nat} (known : address < before.frames.length) :
    after.frames[address]? = before.frames[address]?
  source {id : Nat} (known : id < before.sources.length) (other : used ≠ some id) :
    after.sources[id]? = before.sources[id]?

theorem outcome_snd {α : Type} (result : EStateM.Result RunFailure Memory α) :
    (outcome result).2 = (after result).sources := by
  cases result <;> rfl

/-- The sources move as they do in the run that is answered for. -/
theorem Answers.untouched {used : Option Nat} {scope : Scope}
    {ran : EStateM.Result RunFailure Run Text} {result : EStateM.Result RunFailure Memory Text}
    (answers : Answers (Outcome.ofResult ran) (Kept memory.frames.length memory) result)
    (untouched : (Run.start scope memory.sources).Untouched used (Expander.after ran)) :
    memory.Untouched used (after result) where
  frame := answers.holds.same
  source := by
    intro id known other
    have moved := untouched.source known other
    rw [← Expander.sources_after, ← answers.outcome, outcome_snd] at moved
    exact moved

/--
Expansion leaves no trace, however it ends. A run has the scope and the records
that it had, and only the source that was given, or else the one in sight, may
have moved. In memory this is so of dictionaries that are written to: it gives
the same text or failure, and every dictionary that was there, be it the
caller's or one of the grammar's default bindings, holds what it held.
-/
theorem untouched_by_expansion {grammar : Grammar} (plain : grammar.Unobserving) (limit : Nat) :
    (∀ key run, Run.Untouched run.scope.source? run
      (Expander.after (Expander.expand grammar limit key run))) ∧
      (∀ entropy symbol source visible run,
        Run.Untouched (Expander.usedSource? source (if visible then some run.scope else none)) run
          (Expander.after
            (Expander.generate grammar limit entropy symbol source visible run))) ∧
      ∀ (home : String → Nat) (memory : Memory), memory.Stores grammar home →
        (∀ key chain, memory.Holds chain →
          outcome (expand grammar home limit chain key memory) =
              Outcome.ofResult (Expander.expand grammar limit key
                (.start (memory.scope chain) memory.sources)) ∧
            memory.Untouched (memory.scope chain).source?
              (after (expand grammar home limit chain key memory))) ∧
          ∀ entropy symbol source context?, (∀ chain ∈ context?, memory.Holds chain) →
            outcome (generate grammar home limit entropy symbol source context? memory) =
                Outcome.ofResult (Expander.generate grammar limit entropy symbol source
                  context?.isSome (.start (memory.scope (context?.getD [])) memory.sources)) ∧
              memory.Untouched (Expander.usedSource? source (context?.map memory.scope))
                (after (generate grammar home limit entropy symbol source context? memory)) := by
  refine ⟨Expander.untouched_expand plain limit, Expander.untouched_generate plain limit,
    fun home memory stores => ⟨?_, ?_⟩⟩
  · intro key chain held
    have answers := answers_expand limit key stores held
    have run := Expander.untouched_expand plain limit key
      (.start (memory.scope chain) memory.sources)
    exact ⟨answers.outcome, answers.untouched run⟩
  · intro entropy symbol source context? held
    have answers := answers_generate limit entropy symbol source stores held
    have run := Expander.untouched_generate plain limit entropy symbol source context?.isSome
      (.start (memory.scope (context?.getD [])) memory.sources)
    refine ⟨answers.outcome, ?_⟩
    cases context? <;> exact answers.untouched run

/-- The dictionaries of `shadowing`, a caller's context behind them, and two sources. -/
def stored : Memory where
  frames := [.empty, .empty, Table.empty.set "B" (.value (.text "default")),
    (Table.empty.set randomName (.source 1 "here")).set "B" (.value (.text "caller"))]
  sources := [.script [3], .script [5, 7, 9, 11]]

def homes (key : String) : Nat :=
  if key = "S" then 0 else if key = "B" then 1 else 2

theorem stores_stored : stored.Stores Expander.shadowing homes := by
  intro key nonterminal found
  have entry := Table.mem_entries_of_get? found
  simp only [Expander.shadowing, List.mem_cons, List.not_mem_nil, or_false, Prod.mk.injEq] at entry
  rcases entry with ⟨rfl, rfl⟩ | ⟨rfl, rfl⟩ | ⟨rfl, rfl⟩ <;> rfl

theorem untouched_by_expansion_stored :
    Expander.shadowing.Unobserving ∧ stored.Stores Expander.shadowing homes ∧
      stored.Holds [3] ∧
        outcome (expand Expander.shadowing homes 2 [3] "S" stored) =
          (.ok "caller!defaultcaller!", [.script [3], .script [11]]) ∧
        stored.Untouched (some 1) (after (expand Expander.shadowing homes 2 [3] "S" stored)) ∧
          stored.Untouched (some 0) (after
            (generate Expander.shadowing homes 2 (.unused "here") none (some 0) (some [3])
              stored)) :=
  have plain : Expander.shadowing.Unobserving := by decide
  have held : stored.Holds [3] := by
    intro address member
    cases List.mem_singleton.mp member
    decide
  have inMemory := (untouched_by_expansion plain 2).2.2 homes stored stores_stored
  have ⟨same, kept⟩ := inMemory.1 "S" [3] held
  ⟨plain, stores_stored, held, same.trans (by rfl), kept,
    (inMemory.2 (.unused "here") none (some 0) (some [3]) fun chain same =>
      Option.some.inj same ▸ held).2⟩

end Memory

end PhraseGrammar
