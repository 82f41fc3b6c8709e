import Mathlib.Data.List.Nodup
import Mathlib.Logic.Equiv.Basic
import PhraseGrammar.Proofs.Expansion.Effects

/-!
# Other names

Names are told apart and have no meaning of their own, but for that of the
random source. So if all names are changed, different ones into different ones,
in a grammar, in the bindings and in what is asked for, every expansion goes on
as it did and gives the same text, or it fails in the same way about the changed
name. Only the empty name cannot be asked for, since it stands for none.
-/

namespace PhraseGrammar

/-- New names for all names. Different names stay different, and the source keeps its own. -/
structure Renaming where
  rename : String → String
  injective : Function.Injective rename
  source : rename randomName = randomName

variable (names : Renaming)

namespace Table

variable {α β : Type}

/-- The same values in the same order under their new names. -/
def rename (table : Table α) : Table α where
  entries := table.entries.map fun entry => (names.rename entry.1, entry.2)
  nodup := by
    have distinct := List.Nodup.map names.injective table.nodup
    rwa [List.map_map] at distinct ⊢

theorem findEntry_rename (name : String) (entries : List (String × α)) :
    findEntry (names.rename name)
        (entries.map fun entry => (names.rename entry.1, entry.2)) =
      findEntry name entries := by
  induction entries with
  | nil => rfl
  | cons entry rest ih =>
      simp only [List.map_cons, findEntry, names.injective.eq_iff, ih]

@[simp] theorem get?_rename (table : Table α) (name : String) :
    (table.rename names).get? (names.rename name) = table.get? name :=
  findEntry_rename names name table.entries

theorem setEntry_rename (name : String) (value : α) (entries : List (String × α)) :
    setEntry (names.rename name) value
        (entries.map fun entry => (names.rename entry.1, entry.2)) =
      (setEntry name value entries).map fun entry => (names.rename entry.1, entry.2) := by
  induction entries with
  | nil => rfl
  | cons entry rest ih =>
      simp only [List.map_cons, setEntry, names.injective.eq_iff, ih]
      split <;> rfl

theorem rename_set (table : Table α) (name : String) (value : α) :
    (table.set name value).rename names =
      (table.rename names).set (names.rename name) value :=
  ext_entries (setEntry_rename names name value table.entries).symm

theorem rename_map (change : α → β) (table : Table α) :
    (table.map change).rename names = (table.rename names).map change :=
  ext_entries (by simp [rename, map])

theorem rename_union (lower upper : Table α) :
    (lower.union upper).rename names = (lower.rename names).union (upper.rename names) := by
  have folded (entries : List (String × α)) (table : Table α) :
      (entries.foldl (fun table entry => table.set entry.1 entry.2) table).rename names =
        (entries.map fun entry => (names.rename entry.1, entry.2)).foldl
          (fun table entry => table.set entry.1 entry.2) (table.rename names) := by
    induction entries generalizing table with
    | nil => rfl
    | cons entry rest ih => rw [List.foldl_cons, ih, rename_set, List.map_cons, List.foldl_cons]
  exact folded upper.entries lower

end Table

namespace Scope

def rename (scope : Scope) : Scope :=
  ⟨scope.frames.map (Table.rename names)⟩

@[simp] theorem get?_rename (scope : Scope) (name : String) :
    (scope.rename names).get? (names.rename name) = scope.get? name := by
  simp [get?, rename, List.findSome?_map, Function.comp_def]

/-- The source is found under its own name. -/
@[simp] theorem get?_randomName_rename (scope : Scope) :
    (scope.rename names).get? randomName = scope.get? randomName := by
  rw [← get?_rename names scope randomName, names.source]

theorem rename_push (scope : Scope) (defaults : Table Value) :
    (scope.push defaults).rename names =
      (scope.rename names).push (defaults.rename names) := by
  simp [push, rename, Table.rename_map]

theorem rename_pop (scope : Scope) :
    scope.pop.rename names = (scope.rename names).pop := by
  simp [pop, rename]

theorem rename_bind (scope : Scope) (name : String) (binding : Binding) :
    (scope.bind name binding).rename names =
      (scope.rename names).bind (names.rename name) binding := by
  obtain ⟨frames⟩ := scope
  cases frames with
  | nil => rfl
  | cons frame rest => simp [bind, rename, Table.rename_set]

theorem rename_flatten (scope : Scope) :
    scope.flatten.rename names = (scope.rename names).flatten := by
  obtain ⟨frames⟩ := scope
  induction frames with
  | nil => rfl
  | cons frame rest ih =>
      simp only [flatten, rename, List.map_cons, List.foldr_cons] at ih ⊢
      rw [Table.rename_union, ih]

end Scope

def Emission.rename : Emission → Emission
  | .lookup name => .lookup (names.rename name)
  | other => other

/-- A leaf that looks a name up shows the new name. -/
def Leaf.rename (leaf : Leaf) : Leaf where
  name := leaf.name
  value := match leaf.emission with
    | .lookup name => names.rename name
    | _ => leaf.value
  emission := leaf.emission.rename names

def Node.rename : Node → Node
  | .leaf terminal => .leaf (terminal.rename names)
  | .symbol key => .symbol (names.rename key)
  | .unresolved ref => .unresolved (names.rename ref)
  | .stray text => .stray text

def Nonterminal.rename (nonterminal : Nonterminal) : Nonterminal where
  name := names.rename nonterminal.name
  rules := nonterminal.rules.map (List.map (Node.rename names))
  defaults := nonterminal.defaults.rename names
  depthHint := nonterminal.depthHint

/-- The nodes of a grammar in which no name is left to be linked. -/
inductive Node.Resolved : Node → Prop where
  | leaf (leaf : Leaf) : Resolved (.leaf leaf)
  | symbol (key : String) : Resolved (.symbol key)

instance : DecidablePred Node.Resolved
  | .leaf leaf => .isTrue (.leaf leaf)
  | .symbol key => .isTrue (.symbol key)
  | .unresolved _ => .isFalse nofun
  | .stray _ => .isFalse nofun

namespace Grammar

def rename (grammar : Grammar) : Grammar where
  table := (grammar.table.rename names).map (Nonterminal.rename names)
  start := grammar.start.map names.rename

def Resolved (grammar : Grammar) : Prop :=
  ∀ key nonterminal, grammar.get? key = some nonterminal →
    ∀ rule ∈ nonterminal.rules, ∀ node ∈ rule, node.Resolved

theorem resolved_iff {grammar : Grammar} : grammar.Resolved ↔
    ∀ entry ∈ grammar.table.entries, ∀ rule ∈ entry.2.rules, ∀ node ∈ rule, node.Resolved :=
  ⟨fun resolved entry member => resolved entry.1 entry.2 (Table.get?_of_mem_entries member),
    fun entries key nonterminal found =>
      entries (key, nonterminal) (Table.mem_entries_of_get? found)⟩

instance (grammar : Grammar) : Decidable grammar.Resolved :=
  decidable_of_iff _ resolved_iff.symm

@[simp] theorem get?_rename (grammar : Grammar) (key : String) :
    (grammar.rename names).get? (names.rename key) =
      (grammar.get? key).map (Nonterminal.rename names) := by
  simp [get?, rename]

@[simp] theorem contains_rename (grammar : Grammar) (key : String) :
    (grammar.rename names).contains (names.rename key) = grammar.contains key := by
  simp [contains, rename, Table.contains]

@[simp] theorem nameOf_rename (grammar : Grammar) (key : String) :
    (grammar.rename names).nameOf (names.rename key) =
      names.rename (grammar.nameOf key) := by
  rw [nameOf, get?_rename, nameOf]
  cases grammar.get? key <;> rfl

end Grammar

/-- The bindings under their new names; sources and notes have none. -/
def Run.rename (run : Run) : Run where
  scope := run.scope.rename names
  sources := run.sources
  observed := run.observed.map (Table.rename names)
  log := run.log

/-- The names that an expansion can fail about. -/
def Cause.rename : Cause → Cause
  | .unboundReference name => .unboundReference (names.rename name)
  | .unknownStart symbol => .unknownStart (symbol.map names.rename)
  | other => other

@[simp] theorem Cause.kind_rename (cause : Cause) : (cause.rename names).kind = cause.kind := by
  cases cause <;> rfl

def RunFailure.rename : RunFailure → RunFailure
  | .grammar error => .grammar { error with cause := error.cause.rename names }
  | .notExpandable node owner => .notExpandable node (names.rename owner)
  | .undeclared key => .undeclared (names.rename key)
  | other => other

namespace Expander

variable {α β γ δ : Type}

/-- The same way to end, with the value changed as given. -/
def renamed (change : α → β) :
    EStateM.Result RunFailure Run α → EStateM.Result RunFailure Run β
  | .ok value run => .ok (change value) (run.rename names)
  | .error failure run => .error (failure.rename names) (run.rename names)

/-- From a run with new names the second step ends as the first one does, with new names. -/
def Mirrors (change : α → β) (step : Expander α) (other : Expander β) : Prop :=
  ∀ run : Run, other (run.rename names) = renamed names change (step run)

namespace Mirrors

variable {names} {change : α → β}

theorem pure (value : α) : Mirrors names change (pure value) (pure (change value)) :=
  fun _ => rfl

theorem throw (failure : RunFailure) :
    Mirrors names change (throw failure) (throw (failure.rename names)) :=
  fun _ => rfl

/-- The further step has to be looked at for the values only that the first one can give. -/
theorem bind {first : Expander α} {other : Expander β} {result : γ → δ}
    {further : α → Expander γ} {others : β → Expander δ}
    (begins : Mirrors names change first other)
    (goes_on : ∀ value, (∃ run after, first run = .ok value after) →
      Mirrors names result (further value) (others (change value))) :
    Mirrors names result (first >>= further) (other >>= others) := by
  intro run
  rw [run_bind, run_bind, begins run]
  cases ran : first run with
  | ok value after => exact goes_on value ⟨run, after, ran⟩ after
  | error failure after => rfl

theorem within {step : Expander α} {other : Expander β} (defaults : Table Value)
    (mirrors : Mirrors names change step other) :
    Mirrors names change (within defaults step)
      (within (defaults.rename names) other) := by
  intro run
  have inside := mirrors { run with scope := run.scope.push defaults }
  simp only [Run.rename, Scope.rename_push] at inside
  simp only [Expander.within, Run.rename, inside]
  cases step { run with scope := run.scope.push defaults } <;>
    simp [renamed, Run.rename, Scope.rename_pop]

theorem inScope {step : Expander α} {other : Expander β} (scope : Scope)
    (mirrors : Mirrors names change step other) :
    Mirrors names change (inScope scope step) (inScope (scope.rename names) other) := by
  intro run
  have inside := mirrors { run with scope }
  simp only [Run.rename] at inside
  simp only [Expander.inScope, Run.rename, inside]
  cases step { run with scope } <;> rfl

end Mirrors

theorem mirrors_sourceId : Mirrors names id sourceId sourceId := by
  intro run
  rw [run_sourceId, run_sourceId]
  simp only [Run.rename, Scope.get?_randomName_rename]
  rcases run.scope.get? randomName with _ | _ | _ <;> rfl

theorem mirrors_drawFrom (number bound : Nat) :
    Mirrors names id (drawFrom number bound) (drawFrom number bound) := by
  intro run
  rw [run_drawFrom, run_drawFrom]
  simp only [Run.rename]
  cases run.sources[number]? <;> rfl

theorem mirrors_written (text? : Option Text) :
    Mirrors names id (written text?) (written text?) := by
  cases text? with
  | none => exact .throw .integerTooLong
  | some text => exact .pure text

theorem mirrors_between (lo hi : Int) :
    Mirrors names id (drawRange.between lo hi) (drawRange.between lo hi) := by
  unfold drawRange.between
  split
  · split
    · exact .throw (.bare (.rangeEmpty lo hi))
    · exact .throw .integerTooLong
  · exact (mirrors_sourceId names).bind fun number _ =>
      (mirrors_drawFrom names number _).bind fun offset _ => .pure (lo + offset)

theorem mirrors_drawRange (arguments : List Int) :
    Mirrors names id (drawRange arguments) (drawRange arguments) := by
  unfold drawRange
  split
  · exact mirrors_between names _ _
  · exact mirrors_between names _ _
  · exact .throw (.bare (.rangeArity arguments.length))

theorem mirrors_lookup (name : String) :
    Mirrors names id (lookup name) (lookup (names.rename name)) := by
  intro run
  rw [run_lookup, run_lookup]
  simp only [Run.rename, Scope.get?_rename]
  cases run.scope.get? name with
  | none => rfl
  | some binding => exact mirrors_written names (shownBinding? binding) run

theorem mirrors_emit (emission : Emission) :
    Mirrors names id (emit emission) (emit (emission.rename names)) := by
  cases emission with
  | text value => exact .pure value
  | lookup name => exact mirrors_lookup names name
  | draw arguments =>
      exact (mirrors_drawRange names arguments).bind fun value _ =>
        mirrors_written names (Numeral.text? value)
  | observe =>
      intro run
      show EStateM.Result.ok _ _ = EStateM.Result.ok _ _
      simp [Run.rename, Scope.rename_flatten]

/-! ## Expansions -/

theorem mirrors_choose (rules : List (List Node)) :
    Mirrors names (List.map (Node.rename names)) (choose rules)
      (choose (rules.map (List.map (Node.rename names)))) := by
  refine (mirrors_sourceId names).bind fun number _ => ?_
  rw [List.isEmpty_map, List.length_map]
  split
  · exact .throw .noRule
  · refine (mirrors_drawFrom names number _).bind fun index _ => ?_
    have same : (rules.map (List.map (Node.rename names))).getD index [] =
        (rules.getD index []).map (Node.rename names) :=
      List.getD_map rules [] (List.map (Node.rename names))
    rw [id_eq, same]
    exact .pure _

theorem mirrors_bind (name : String) (binding : Binding) :
    Mirrors names id (Expander.bind name binding)
      (Expander.bind (names.rename name) binding) := by
  intro run
  show EStateM.Result.ok _ _ = EStateM.Result.ok _ _
  simp [Run.rename, Scope.rename_bind]

section

variable {grammar : Grammar} {inner outer : String → Expander Text}
  (expands : ∀ key, Mirrors names id (inner key) (outer (names.rename key))) (owner : String)

include expands

theorem mirrors_node {part : Node} (resolved : part.Resolved) :
    Mirrors names id (node grammar inner owner part)
      (node (grammar.rename names) outer (names.rename owner)
        (part.rename names)) := by
  cases resolved with
  | leaf leaf => exact mirrors_emit names leaf.emission
  | symbol key =>
      refine (expands key).bind fun text _ => ?_
      rw [Grammar.nameOf_rename]
      exact (mirrors_bind names _ _).bind fun _ _ => .pure text

theorem mirrors_nodes {rule : List Node} (resolved : ∀ node ∈ rule, node.Resolved) :
    Mirrors names id (nodes grammar inner owner rule)
      (nodes (grammar.rename names) outer (names.rename owner)
        (rule.map (Node.rename names))) := by
  induction rule with
  | nil => exact .pure _
  | cons first rest ih =>
      have others := ih fun node later => resolved node (.tail _ later)
      exact (mirrors_node names expands owner (resolved first (.head _))).bind fun text _ =>
        others.bind fun further _ => .pure (text ++ further)

end

theorem mirrors_expand {grammar : Grammar} (resolved : grammar.Resolved) (limit : Nat) (key : String) :
    Mirrors names id (expand grammar limit key)
      (expand (grammar.rename names) limit (names.rename key)) := by
  induction limit generalizing key with
  | zero => exact .throw .tooDeep
  | succ limit ih =>
      unfold expand
      rw [Grammar.get?_rename]
      cases found : grammar.get? key with
      | none => exact .throw (.undeclared key)
      | some nonterminal =>
          refine (mirrors_choose names nonterminal.rules).bind fun rule chosen => ?_
          obtain ⟨run, drawn, chosen⟩ := chosen
          refine .within nonterminal.defaults (mirrors_nodes names ih nonterminal.name ?_)
          exact resolved key nonterminal found rule (mem_of_choose chosen)

theorem mirrors_newRoot (entropy : Random.Entropy) (source : Option Nat) (bindings : Frame) :
    Mirrors names (Scope.rename names) (newRoot entropy source bindings)
      (newRoot entropy source (bindings.rename names)) := by
  have taken : Mirrors names id (source.elim (addSource entropy.source) pure : Expander Nat)
      (source.elim (addSource entropy.source) pure) := by
    cases source with
    | none => exact fun _ => rfl
    | some number => exact .pure number
  refine taken.bind fun number _ => ?_
  have root (shown : Text) :
      Scope.rename names ⟨[bindings.set randomName (.source number shown)]⟩ =
        ⟨[(bindings.rename names).set randomName (.source number shown)]⟩ := by
    simp [Scope.rename, Table.rename_set, names.source]
  rw [id_eq, ← root]
  exact .pure _

theorem mirrors_expandAnew {grammar : Grammar} (resolved : grammar.Resolved) (limit : Nat)
    (key : String) (entropy : Random.Entropy) (source : Option Nat) (bindings : Frame) :
    Mirrors names id (expandAnew grammar limit key entropy source bindings)
      (expandAnew (grammar.rename names) limit (names.rename key) entropy source
        (bindings.rename names)) :=
  (mirrors_newRoot names entropy source bindings).bind fun root _ =>
    .inScope root (mirrors_expand names resolved limit key)

/-- The new name of what is asked for is not taken for none, unless the old one is. -/
def AsksAlike (symbol : Option String) : Prop :=
  ∀ name, symbol = some name → (names.rename name = "" ↔ name = "")

theorem chosen_rename (grammar : Grammar) {symbol : Option String}
    (alike : AsksAlike names symbol) :
    chosen (grammar.rename names) (symbol.map names.rename) =
      (chosen grammar symbol).map names.rename := by
  cases symbol with
  | none => rfl
  | some name =>
      simp only [Option.map_some, chosen, alike name rfl]
      split <;> rfl

theorem mirrors_generate {grammar : Grammar} (resolved : grammar.Resolved) (limit : Nat)
    (entropy : Random.Entropy) {symbol : Option String} (alike : AsksAlike names symbol)
    (source : Option Nat) (visible : Bool) :
    Mirrors names id (generate grammar limit entropy symbol source visible)
      (generate (grammar.rename names) limit entropy (symbol.map names.rename) source
        visible) := by
  intro run
  rw [run_generate, run_generate, chosen_rename names grammar alike]
  cases chosen grammar symbol with
  | none => rfl
  | some key =>
      have anew (bindings : Frame) :=
        mirrors_expandAnew names resolved limit key entropy source bindings run
      simp only [Option.map_some, Grammar.contains_rename]
      split
      · split
        · simp only [Run.rename, Scope.get?_randomName_rename] at anew ⊢
          split
          · rw [← Scope.rename_flatten]
            exact anew run.scope.flatten
          · exact mirrors_expand names resolved limit key run
        · exact anew .empty
      · rfl

/--
With new names everywhere an expansion of a resolved grammar gives the same text
and leaves the sources alike, or fails in the same way about the new name, with
all bindings under their new names. So does the generation of a text, as long as
the new name of the symbol asked for is not taken for none. An error of a
grammar stays one of its kind.
-/
theorem expansion_renamed {grammar : Grammar} (resolved : grammar.Resolved) :
    (∀ limit key run, expand (grammar.rename names) limit (names.rename key) (run.rename names) =
      renamed names id (expand grammar limit key run)) ∧
    (∀ limit entropy symbol source visible run, AsksAlike names symbol →
      generate (grammar.rename names) limit entropy (symbol.map names.rename) source visible
          (run.rename names) =
        renamed names id (generate grammar limit entropy symbol source visible run)) ∧
    ∀ cause : Cause, (cause.rename names).kind = cause.kind :=
  ⟨fun limit key run => mirrors_expand names resolved limit key run,
    fun limit entropy _ source visible run alike =>
      mirrors_generate names resolved limit entropy alike source visible run,
    Cause.kind_rename names⟩

end Expander

/-- Two names exchanged. -/
def Renaming.exchange (first second : String)
    (others : randomName ≠ first ∧ randomName ≠ second) : Renaming where
  rename := Equiv.swap first second
  injective := (Equiv.swap first second).injective
  source := Equiv.swap_apply_of_ne_of_ne others.1 others.2

namespace Expander

/-- The text of a nonterminal and the value of a variable, which is in sight in both rules. -/
def mixedGrammar : Grammar where
  table := .ofList [
    ("S", ⟨"S", [[.symbol "A", .leaf (.reference "A"), .leaf (.reference "x")]], .empty, none⟩),
    ("A", ⟨"A", [[.leaf ⟨"range", "0, 3", .draw [0, 3]⟩, .leaf (.reference "x")]], .empty, none⟩)]
  start := some "S"

/-- A caller's source and bindings. -/
def callerRun (bindings : List (String × Binding)) : Run :=
  .start ⟨[.ofList ((randomName, .source 0 "source") :: bindings)]⟩ [.script [0, 0, 2]]

/-- The nonterminal and the variable exchange their names. -/
def crossed : Renaming :=
  .exchange "A" "x" (by decide)

theorem expansion_renamed_crossed :
    mixedGrammar.Resolved ∧ AsksAlike crossed (some "S") ∧
    (Outcome.ofResult (generate mixedGrammar 2 (.unused "source") (some "S") none true
        (callerRun [("x", .value (.text "v"))]))).1 = .ok "2v2vv" ∧
    generate (mixedGrammar.rename crossed) 2 (.unused "source") (some "S") none true
        (callerRun [("A", .value (.text "v"))]) =
      renamed crossed id (generate mixedGrammar 2 (.unused "source") (some "S") none true
        (callerRun [("x", .value (.text "v"))])) ∧
    (Outcome.ofResult (expand mixedGrammar 2 "S" (callerRun []))).1 =
      .error (.bare (.unboundReference "x")) ∧
    expand (mixedGrammar.rename crossed) 2 "S" (callerRun []) =
      renamed crossed id (expand mixedGrammar 2 "S" (callerRun [])) := by
  have resolved : mixedGrammar.Resolved := by decide
  have asked : AsksAlike crossed (some "S") := by
    rintro name ⟨⟩
    decide
  have mirrored := expansion_renamed crossed resolved
  have bound := mirrored.2.1 2 (.unused "source") (some "S") none true
    (callerRun [("x", .value (.text "v"))]) asked
  exact ⟨resolved, asked, by decide +kernel, bound, by decide +kernel,
    mirrored.1 2 "S" (callerRun [])⟩

/-- Two nonterminals, of which the first is the start. -/
def letters : Grammar where
  table := .ofList [("A", ⟨"A", [[.leaf (.constant "String" "a")]], .empty, none⟩),
    ("S", ⟨"S", [[.leaf (.constant "String" "s")]], .empty, none⟩)]
  start := some "A"

/-- A renaming under which a nonterminal gets the empty name. -/
def emptied : Renaming :=
  .exchange "S" "" (by decide)

/-- The nonterminal with the empty name cannot be asked for, since the start is generated then. -/
theorem generate_renamed_emptied :
    letters.Resolved ∧
    (Outcome.ofResult (generate letters 1 (.unused "source") (some "S") (some 0) false
      (callerRun []))).1 = .ok "s" ∧
    (Outcome.ofResult (generate (letters.rename emptied) 1 (.unused "source")
      (some (emptied.rename "S")) (some 0) false ((callerRun []).rename emptied))).1 = .ok "a" ∧
    generate (letters.rename emptied) 1 (.unused "source") (some (emptied.rename "S")) (some 0) false
        ((callerRun []).rename emptied) ≠
      renamed emptied id
        (generate letters 1 (.unused "source") (some "S") (some 0) false (callerRun [])) := by
  refine ⟨by decide, by decide +kernel, by decide +kernel, fun same => ?_⟩
  have texts := congrArg (fun result => (Outcome.ofResult result).1) same
  exact absurd texts (by decide +kernel)

end Expander

end PhraseGrammar
