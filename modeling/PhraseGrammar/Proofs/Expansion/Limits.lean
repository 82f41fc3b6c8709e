import PhraseGrammar.Proofs.Expansion.Batches

/-!
# The limit of nested expansions

The limit only cuts: whatever is not too deep for it comes to the same under a
greater one, with the same draws and the same bindings on the way. A batch that
skips nothing is therefore the same batch under every greater limit.
-/

namespace PhraseGrammar

namespace Expander

variable {α β : Type}

/-- Expansions were nested beyond the limit. -/
def TooDeep (result : EStateM.Result RunFailure Run α) : Prop :=
  ∃ run, result = .error .tooDeep run

/-- Unless the first step is cut off by the limit, the second one does the same. -/
def Outlasts (cut whole : Expander α) : Prop :=
  ∀ run, ¬TooDeep (cut run) → whole run = cut run

namespace Outlasts

theorem refl (step : Expander α) : Outlasts step step :=
  fun _ _ => rfl

theorem throw (whole : Expander α) : Outlasts (throw .tooDeep) whole :=
  fun run shallow => absurd ⟨run, rfl⟩ shallow

/-- A sequence is cut off where its first or its second step is. -/
theorem bind {first whole : Expander α} {second further : α → Expander β}
    (outlasts : Outlasts first whole) (outlast : ∀ value, Outlasts (second value) (further value)) :
    Outlasts (first >>= second) (whole >>= further) := by
  intro run shallow
  rw [run_bind] at shallow ⊢
  have same : whole run = first run := by
    refine outlasts run fun deep => shallow ?_
    obtain ⟨next, ran⟩ := deep
    exact ⟨next, by rw [ran]⟩
  rw [run_bind, same]
  cases ran : first run with
  | ok value next =>
      rw [ran] at shallow
      exact outlast value next shallow
  | error failure next => rfl

theorem within (defaults : Table Value) {cut whole : Expander α} (outlasts : Outlasts cut whole) :
    Outlasts (within defaults cut) (within defaults whole) := by
  intro run shallow
  unfold Expander.within at shallow ⊢
  rw [outlasts]
  rintro ⟨next, ran⟩
  exact shallow ⟨{ next with scope := next.scope.pop }, by rw [ran]⟩

theorem inScope (scope : Scope) {cut whole : Expander α} (outlasts : Outlasts cut whole) :
    Outlasts (inScope scope cut) (inScope scope whole) := by
  intro run shallow
  unfold Expander.inScope at shallow ⊢
  rw [outlasts]
  rintro ⟨next, ran⟩
  exact shallow ⟨{ next with scope := run.scope }, by rw [ran]⟩

end Outlasts

section

variable (grammar : Grammar) {inner outer : String → Expander Text}
  (outlast : ∀ key, Outlasts (inner key) (outer key)) (owner : String)

include outlast

theorem outlasts_node (part : Node) :
    Outlasts (node grammar inner owner part) (node grammar outer owner part) := by
  cases part with
  | symbol key => exact (outlast key).bind fun text => .refl _
  | leaf leaf => exact .refl _
  | unresolved ref => exact .refl _
  | stray text => exact .refl _

theorem outlasts_nodes (rule : List Node) :
    Outlasts (nodes grammar inner owner rule) (nodes grammar outer owner rule) := by
  induction rule with
  | nil => exact .refl _
  | cons first rest ih =>
      exact (outlasts_node grammar outlast owner first).bind fun text => ih.bind fun others => .refl _

end

/-- One expansion more may be nested under the greater limit, by induction on the smaller one. -/
theorem outlasts_expand (grammar : Grammar) {limit more : Nat} (less : limit ≤ more) (key : String) :
    Outlasts (expand grammar limit key) (expand grammar more key) := by
  induction limit generalizing more key with
  | zero => exact .throw _
  | succ limit ih =>
      obtain ⟨more, rfl⟩ := Nat.exists_eq_succ_of_ne_zero (Nat.ne_zero_of_lt less)
      unfold expand
      cases grammar.get? key with
      | none => exact .refl _
      | some nonterminal =>
          refine (Outlasts.refl (choose nonterminal.rules)).bind fun rule => ?_
          exact .within _ (outlasts_nodes grammar (ih (Nat.le_of_succ_le_succ less)) _ rule)

theorem outlasts_expandAnew (grammar : Grammar) {limit more : Nat} (less : limit ≤ more)
    (key : String) (entropy : Random.Entropy) (source : Option Nat) (bindings : Frame) :
    Outlasts (expandAnew grammar limit key entropy source bindings)
      (expandAnew grammar more key entropy source bindings) :=
  (Outlasts.refl (newRoot entropy source bindings)).bind fun root =>
    .inScope root (outlasts_expand grammar less key)

theorem outlasts_generate (grammar : Grammar) {limit more : Nat} (less : limit ≤ more)
    (entropy : Random.Entropy) (symbol : Option String) (source : Option Nat) (visible : Bool) :
    Outlasts (generate grammar limit entropy symbol source visible)
      (generate grammar more entropy symbol source visible) := by
  intro run shallow
  rw [run_generate] at shallow ⊢
  rw [run_generate]
  cases named : chosen grammar symbol with
  | none => rfl
  | some key =>
      have anew := outlasts_expandAnew grammar less key entropy source
      rw [named] at shallow
      by_cases declared : grammar.contains key = true
      · simp only [declared, if_true] at shallow ⊢
        cases visible with
        | false => exact anew .empty run shallow
        | true =>
            by_cases own : source.isSome ∨ (run.scope.get? randomName).isNone
            · simp only [own, if_true] at shallow ⊢
              exact anew run.scope.flatten run shallow
            · simp only [own, if_true, if_false] at shallow ⊢
              exact outlasts_expand grammar less key run shallow
      · simp only [declared]
        rfl

/-! ## Batches -/

/-- An expansion has been skipped. -/
def Skips (log : List Event) : Prop :=
  ∃ name, .skipped name ∈ log

theorem Skips.longer {log further : List Event} (skips : Skips log) (grows : log <+: further) :
    Skips further :=
  skips.imp fun _ member => grows.mem member

section

variable (grammar : Grammar) (limit : Nat) (symbol : Option String) (source : Nat) (shown : Text)

theorem log_attempt (run : Run) :
    run.log <+: (after (attempt grammar limit symbol source shown run)).log := by
  have noted := log_generate grammar limit symbol (.unused shown) source run
  unfold attempt
  cases ran : generate grammar limit (.unused shown) symbol (some source) false run with
  | ok text next =>
      rw [ran] at noted
      exact noted ▸ List.prefix_refl _
  | error failure next =>
      rw [ran] at noted
      cases failure with
      | tooDeep =>
          change next.log = run.log at noted
          exact noted ▸ List.prefix_append next.log _
      | _ => exact noted ▸ List.prefix_refl _

theorem log_batch (count : Nat) (run : Run) :
    run.log <+: (after (batch grammar limit symbol source shown count run)).log := by
  induction count generalizing run with
  | zero => exact List.prefix_refl _
  | succ count ih =>
      have first := log_attempt grammar limit symbol source shown run
      rw [batch, run_bind]
      cases tried : attempt grammar limit symbol source shown run with
      | error failure next =>
          rw [tried] at first
          exact first
      | ok text next =>
          rw [tried] at first
          have others := ih next
          dsimp only
          rw [run_bind]
          cases ran : batch grammar limit symbol source shown count next <;> rw [ran] at others <;>
            exact first.trans others

end

variable {grammar : Grammar} {limit more : Nat} {symbol : Option String} {source : Nat}
  {shown : Text}

/-- An attempt that is not skipped is the same under a greater limit. -/
theorem attempt_eq_of_le (less : limit ≤ more) {run : Run}
    (unskipped : ¬Skips (after (attempt grammar limit symbol source shown run)).log) :
    attempt grammar more symbol source shown run =
      attempt grammar limit symbol source shown run := by
  have shallow :
      ¬TooDeep (generate grammar limit (.unused shown) symbol (some source) false run) := by
    rintro ⟨next, ran⟩
    unfold attempt at unskipped
    rw [ran] at unskipped
    exact unskipped ⟨_, List.mem_append_right _ (.head _)⟩
  unfold attempt
  rw [outlasts_generate grammar less (.unused shown) symbol (some source) false run shallow]

/-- What one attempt skips is in the log of the batch, so that no attempt of it is cut off. -/
theorem batch_eq_of_le (less : limit ≤ more) (count : Nat) {run : Run}
    (unskipped : ¬Skips (after (batch grammar limit symbol source shown count run)).log) :
    batch grammar more symbol source shown count run =
      batch grammar limit symbol source shown count run := by
  induction count generalizing run with
  | zero => rfl
  | succ count ih =>
      rw [batch, run_bind] at unskipped ⊢
      rw [batch, run_bind]
      cases tried : attempt grammar limit symbol source shown run with
      | error failure next =>
          rw [tried] at unskipped
          rw [attempt_eq_of_le less (by rwa [tried]), tried]
      | ok text next =>
          rw [tried] at unskipped
          dsimp only at unskipped
          have others : ¬Skips (after (batch grammar limit symbol source shown count next)).log := by
            rw [run_bind] at unskipped
            cases ran : batch grammar limit symbol source shown count next <;>
              rw [ran] at unskipped <;> exact unskipped
          have first : ¬Skips (after (attempt grammar limit symbol source shown run)).log := by
            rw [tried]
            exact fun skips =>
              others (skips.longer (log_batch grammar limit symbol source shown count next))
          rw [attempt_eq_of_le less first, tried]
          dsimp only
          rw [run_bind, run_bind, ih others]

end Expander

namespace Grammar

open Expander

theorem generateStrings_eq_of_le {grammar : Grammar} {limit more : Nat} (less : limit ≤ more)
    {symbol : Option String} {count : Nat} {source : Random.Source} {shown : Text}
    (unskipped : ¬Skips (grammar.generateStrings limit symbol count source shown).2) :
    grammar.generateStrings more symbol count source shown =
      grammar.generateStrings limit symbol count source shown := by
  have noted : (grammar.generateStrings limit symbol count source shown).2 =
      (after (batch grammar limit symbol 0 shown count (.start ⟨[]⟩ [source]))).log := by
    unfold generateStrings
    cases batch grammar limit symbol 0 shown count (.start ⟨[]⟩ [source]) <;> rfl
  rw [noted] at unskipped
  rw [generateStrings, generateStrings, batch_eq_of_le less count unskipped]

/--
Whatever an expansion comes to under a limit, unless it is too deep, it comes to
under every greater one: the same text or failure, with the same draws and
bindings. So does the generation of a text. A batch that skips nothing gives the
same texts, or fails in the same way; its source may be shown in another way,
unless a leaf asks for that.
-/
theorem limit_only_cuts (grammar : Grammar) {limit more : Nat} (less : limit ≤ more) :
    (∀ key run, (∀ next, expand grammar limit key run ≠ .error .tooDeep next) →
      expand grammar more key run = expand grammar limit key run) ∧
    (∀ entropy symbol source visible run,
      (∀ next, generate grammar limit entropy symbol source visible run ≠ .error .tooDeep next) →
        generate grammar more entropy symbol source visible run =
          generate grammar limit entropy symbol source visible run) ∧
    ∀ symbol count source shown word, ShownAlike grammar symbol shown word →
      (∀ name, .skipped name ∉ (grammar.generateStrings limit symbol count source shown).2) →
        grammar.generateStrings more symbol count source word =
          grammar.generateStrings limit symbol count source shown :=
  ⟨fun key run shallow => outlasts_expand grammar less key run fun ⟨next, ran⟩ => shallow next ran,
    fun entropy symbol source visible run shallow =>
      outlasts_generate grammar less entropy symbol source visible run
        fun ⟨next, ran⟩ => shallow next ran,
    fun _ count source _ _ alike unskipped =>
      (generateStrings_shown alike count source).symm.trans
        (generateStrings_eq_of_le less fun ⟨name, noted⟩ => unskipped name noted)⟩

/-- A symbol that is expanded once more behind each number, until it ends or asks for a name. -/
def countdown : Grammar where
  table := .ofList [
    ("S", ⟨"S", [[.symbol "T", .symbol "S"], [.leaf (.constant "String" ".")],
      [.leaf (.reference "x")]], .empty, none⟩),
    ("T", ⟨"T", [[.leaf ⟨"range", "0, 9", .draw [0, 9]⟩]], .empty, none⟩)]
  start := some "S"

/-- Draws for a number and the end, and for these once more and a name that is not bound. -/
def countdownSource : Random.Source :=
  .script [0, 0, 5, 1, 0, 0, 7, 2]

theorem limit_only_cuts_countdown :
    (Outcome.ofResult
      (expand countdown 2 "S" (.start (.rooted .empty 0 "here") [countdownSource]))).1 = .ok "5." ∧
    expand countdown 9 "S" (.start (.rooted .empty 0 "here") [countdownSource]) =
      expand countdown 2 "S" (.start (.rooted .empty 0 "here") [countdownSource]) ∧
    generate countdown 9 (.unused "here") none (some 0) false (.start ⟨[]⟩ [countdownSource]) =
      generate countdown 2 (.unused "here") none (some 0) false (.start ⟨[]⟩ [countdownSource]) ∧
    countdown.generateStrings 2 none 2 countdownSource "here" =
      (.error (.bare (.unboundReference "x")), []) ∧
    countdown.generateStrings 9 none 2 countdownSource "there" =
      (.error (.bare (.unboundReference "x")), []) ∧
    countdown.generateStrings 1 none 2 countdownSource "here" =
      (.ok [], [.skipped "S", .skipped "S"]) := by
  have text : (Outcome.ofResult
      (expand countdown 2 "S" (.start (.rooted .empty 0 "here") [countdownSource]))).1 =
        .ok "5." := by
    decide +kernel
  have given : (Outcome.ofResult (generate countdown 2 (.unused "here") none (some 0) false
      (.start ⟨[]⟩ [countdownSource]))).1 = .ok "5." := by
    decide +kernel
  have failed : countdown.generateStrings 2 none 2 countdownSource "here" =
      (.error (.bare (.unboundReference "x")), []) := by
    decide +kernel
  have conceals : countdown.ConcealsSource := by decide
  have alike : ShownAlike countdown none "here" "there" :=
    fun key _ shows => absurd shows (conceals.not_showsSource key)
  obtain ⟨expands, generates, batches⟩ := limit_only_cuts countdown (show 2 ≤ 9 by decide)
  refine ⟨text, expands _ _ fun next deep => ?_, generates _ _ _ _ _ fun next deep => ?_, failed,
    (batches none 2 countdownSource _ _ alike fun name skipped => ?_).trans failed,
    by decide +kernel⟩
  · rw [deep] at text
    cases text
  · rw [deep] at given
    cases given
  · rw [failed] at skipped
    cases skipped

end Grammar

end PhraseGrammar
