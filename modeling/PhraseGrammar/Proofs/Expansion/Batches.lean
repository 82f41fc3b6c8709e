import PhraseGrammar.Proofs.Expansion.Roots

/-!
# Batches

The attempts of a batch share one source: each starts from the state that the
attempt before left it in, whether that gave a text or was skipped. So what an
attempt comes to depends on its number, and not on the length of the batch. A
longer batch extends a shorter one, ends at the same failure if there is one,
and otherwise every attempt is a text or is noted as skipped.
-/

namespace PhraseGrammar

namespace Grammar

variable (grammar : Grammar) (limit : Nat) (symbol : Option String) (shown : Text)

/-- A text in a context of its own with a source, and the source afterwards. -/
def attemptFrom (source : Random.Source) : Except RunFailure Text × Random.Source :=
  let outcome := Outcome.ofResult
    (Expander.generate grammar limit (.unused shown) symbol (some 0) false (.start ⟨[]⟩ [source]))
  (outcome.1, outcome.2.getD 0 source)

/-- The source behind that many attempts, each from what the one before it left. -/
def sourceBehind (source : Random.Source) : Nat → Random.Source
  | 0 => source
  | count + 1 => (grammar.attemptFrom limit symbol shown (sourceBehind source count)).2

/-- What the attempt behind that many others comes to. -/
def attemptAt (source : Random.Source) (index : Nat) : Except RunFailure Text :=
  (grammar.attemptFrom limit symbol shown (grammar.sourceBehind limit symbol shown source index)).1

/-- What a batch notes of an expansion beyond the limit. -/
def skipNote : Event :=
  .skipped ((Expander.chosen grammar symbol).getD "")

end Grammar

/-- An attempt that a batch goes on after: there is a text, or it was too deep. -/
def Passes (result : Except RunFailure Text) : Prop :=
  ∀ failure, result = .error failure → failure = .tooDeep

namespace Grammar

variable {grammar : Grammar} {limit : Nat} {symbol : Option String} {shown : Text}
  {source : Random.Source}

/-- The first attempt may be left off, if the source is then the one that it leaves. -/
theorem sourceBehind_succ (index : Nat) :
    grammar.sourceBehind limit symbol shown source (index + 1) =
      grammar.sourceBehind limit symbol shown
        (grammar.attemptFrom limit symbol shown source).2 index := by
  induction index with
  | zero => rfl
  | succ index ih => rw [sourceBehind, ih, ← sourceBehind]

theorem attemptAt_succ (index : Nat) :
    grammar.attemptAt limit symbol shown source (index + 1) =
      grammar.attemptAt limit symbol shown
        (grammar.attemptFrom limit symbol shown source).2 index := by
  rw [attemptAt, attemptAt, sourceBehind_succ]

end Grammar

namespace Expander

open Grammar

variable {grammar : Grammar} {limit : Nat} {symbol : Option String} {shown : Text}

/-! ## Attempts -/

/-- How the source is shown is not asked for, or is the same in both. -/
def ShownAlike (grammar : Grammar) (symbol : Option String) (shown word : Text) : Prop :=
  ∀ key ∈ chosen grammar symbol, grammar.ShowsSource key → shown = word

/-- In a context of its own nothing of a run matters but its sources. -/
theorem ofResult_generate_congr (limit : Nat) {entropy another : Random.Entropy} {id : Nat}
    (alike : ShownAlike grammar symbol (entropy.shown id) (another.shown id)) {run other : Run}
    (same : run.sources = other.sources) :
    Outcome.ofResult (generate grammar limit entropy symbol (some id) false run) =
      Outcome.ofResult (generate grammar limit another symbol (some id) false other) := by
  rw [run_generate, run_generate]
  cases asked : chosen grammar symbol with
  | none => exact Prod.ext rfl same
  | some key =>
      by_cases declared : grammar.contains key = true
      · simp only [declared, if_true, Bool.false_eq_true, if_false]
        change Outcome.ofResult (inScope _ _ run) = Outcome.ofResult (inScope _ _ other)
        have follows := follows_expand grammar limit key
        have root := fromRoot_shown grammar limit key .empty id other.sources (alike key asked)
        rw [fromRoot, fromRoot, follows.outcome, follows.outcome] at root
        rw [ofResult_inScope, ofResult_inScope, follows.outcome, follows.outcome, same]
        exact root
      · simp only [declared]
        exact Prod.ext rfl same

theorem log_generate (grammar : Grammar) (limit : Nat) (symbol : Option String)
    (entropy : Random.Entropy) (id : Nat) (run : Run) :
    (after (generate grammar limit entropy symbol (some id) false run)).log = run.log := by
  rw [run_generate]
  cases chosen grammar symbol with
  | none => rfl
  | some key =>
      by_cases declared : grammar.contains key = true
      · simp only [declared, if_true, Bool.false_eq_true, if_false]
        let root := Scope.rooted .empty id (entropy.shown id)
        have noted := log_expand grammar limit key { run with scope := root }
        change (after (inScope root _ run)).log = _
        unfold inScope
        cases ran : expand grammar limit key { run with scope := root } <;> rw [ran] at noted <;>
          exact noted
      · simp only [declared]
        rfl

theorem length_generate (grammar : Grammar) (limit : Nat) (symbol : Option String)
    (entropy : Random.Entropy) (id : Nat) (sources : List Random.Source) :
    (Outcome.ofResult (generate grammar limit entropy symbol (some id) false
      (.start ⟨[]⟩ sources))).2.length = sources.length := by
  rw [ofResult_generate]
  cases chosen grammar symbol with
  | none => rfl
  | some key =>
      by_cases declared : grammar.contains key = true
      · simp only [declared, if_true]
        exact length_fromRoot grammar limit key
      · simp only [declared]
        rfl

/-- Two steps end alike: only the scopes and what observing leaves saw may differ. -/
inductive EndsAlike {α : Type} :
    EStateM.Result RunFailure Run α → EStateM.Result RunFailure Run α → Prop where
  | ok (value : α) {next last : Run} (same : next.sources = last.sources)
      (noted : next.log = last.log) : EndsAlike (.ok value next) (.ok value last)
  | error (failure : RunFailure) {next last : Run} (same : next.sources = last.sources)
      (noted : next.log = last.log) : EndsAlike (.error failure next) (.error failure last)

theorem EndsAlike.of_outcome {α : Type} {first second : EStateM.Result RunFailure Run α}
    (outcome : Outcome.ofResult first = Outcome.ofResult second)
    (noted : (after first).log = (after second).log) : EndsAlike first second := by
  cases first with
  | ok value next =>
      cases second with
      | ok word last =>
          obtain ⟨result, same⟩ := Prod.mk.inj outcome
          cases result
          exact .ok value same noted
      | error failure last => cases (Prod.mk.inj outcome).1
  | error failure next =>
      cases second with
      | ok word last => cases (Prod.mk.inj outcome).1
      | error other last =>
          obtain ⟨result, same⟩ := Prod.mk.inj outcome
          cases result
          exact .error failure same noted

/-- What goes on alike from the same value, sources and log ends alike. -/
theorem EndsAlike.bind {α β : Type} {first second : Expander α}
    {further another : α → Expander β} {run other : Run} (ends : EndsAlike (first run) (second other))
    (continues : ∀ value next last, next.sources = last.sources → next.log = last.log →
      EndsAlike (further value next) (another value last)) :
    EndsAlike ((first >>= further) run) ((second >>= another) other) := by
  rw [run_bind, run_bind]
  generalize first run = left at ends ⊢
  generalize second other = right at ends ⊢
  cases ends with
  | ok value same noted => exact continues value _ _ same noted
  | error failure same noted => exact .error failure same noted

section

variable {word : Text} (alike : ShownAlike grammar symbol shown word)

include alike

theorem endsAlike_attempt (source : Nat) {run other : Run} (same : run.sources = other.sources)
    (noted : run.log = other.log) :
    EndsAlike (attempt grammar limit symbol source shown run)
      (attempt grammar limit symbol source word other) := by
  have log (text : Text) (run : Run) :=
    log_generate grammar limit symbol (.unused text) source run
  have ends := EndsAlike.of_outcome (ofResult_generate_congr limit alike same)
    (((log shown run).trans noted).trans (log word other).symm)
  unfold attempt
  generalize generate grammar limit (.unused shown) symbol (some source) false run = left at ends ⊢
  generalize
    generate grammar limit (.unused word) symbol (some source) false other = right at ends ⊢
  cases ends with
  | ok text same noted => exact .ok (some text) same noted
  | error failure same noted =>
      cases failure with
      | tooDeep => exact .ok none same (congrArg (· ++ _) noted)
      | _ => exact .error _ same noted

theorem endsAlike_batch (source count : Nat) {run other : Run}
    (same : run.sources = other.sources) (noted : run.log = other.log) :
    EndsAlike (batch grammar limit symbol source shown count run)
      (batch grammar limit symbol source word count other) := by
  induction count generalizing run other with
  | zero => exact .ok [] same noted
  | succ count ih =>
      refine (endsAlike_attempt alike source same noted).bind fun first next last same noted => ?_
      exact (ih same noted).bind fun others next last same noted => .ok _ same noted

/-- A batch is the same however its source is shown, unless that is asked for. -/
theorem generateStrings_shown (count : Nat) (source : Random.Source) :
    grammar.generateStrings limit symbol count source shown =
      grammar.generateStrings limit symbol count source word := by
  have ends : EndsAlike (batch grammar limit symbol 0 shown count (.start ⟨[]⟩ [source]))
      (batch grammar limit symbol 0 word count (.start ⟨[]⟩ [source])) :=
    endsAlike_batch alike 0 count rfl rfl
  unfold generateStrings
  generalize batch grammar limit symbol 0 shown count (.start ⟨[]⟩ [source]) = left at ends ⊢
  generalize batch grammar limit symbol 0 word count (.start ⟨[]⟩ [source]) = right at ends ⊢
  cases ends with
  | ok texts same noted => exact Prod.ext rfl noted
  | error failure same noted => exact Prod.ext rfl noted

end

/-- What is seen of an attempt that has its source alone. -/
theorem ofResult_generate_alone (grammar : Grammar) (limit : Nat) (symbol : Option String)
    (shown : Text) {source : Random.Source} {run : Run} (alone : run.sources = [source]) :
    Outcome.ofResult (generate grammar limit (.unused shown) symbol (some 0) false run) =
      ((grammar.attemptFrom limit symbol shown source).1,
        [(grammar.attemptFrom limit symbol shown source).2]) := by
  have same : run.sources = (Run.start ⟨[]⟩ [source]).sources := alone
  have single := length_generate grammar limit symbol (.unused shown) 0 [source]
  rw [ofResult_generate_congr limit (fun _ _ _ => rfl) same, attemptFrom]
  obtain ⟨last, only⟩ := List.length_eq_one_iff.mp single
  exact Prod.ext rfl (by rw [only]; rfl)

/-- What a batch takes from an attempt that passes: its text, or the note that it is skipped. -/
inductive Takes (grammar : Grammar) (symbol : Option String) :
    Except RunFailure Text → Option Text → List Event → Prop where
  | text (text : Text) : Takes grammar symbol (.ok text) (some text) []
  | skip : Takes grammar symbol (.error .tooDeep) none [grammar.skipNote symbol]

theorem Takes.passes {result : Except RunFailure Text} {first : Option Text} {noted : List Event}
    (takes : Takes grammar symbol result first noted) : Passes result := by
  intro failure failed
  cases takes with
  | text text => cases failed
  | skip =>
      cases failed
      rfl

/-- An attempt passes and the batch takes from it, or it fails; the source moves on. -/
theorem attempt_cases {source next : Random.Source} {result : Except RunFailure Text}
    (tried : grammar.attemptFrom limit symbol shown source = (result, next)) {run : Run}
    (alone : run.sources = [source]) :
    (∃ first noted after, Takes grammar symbol result first noted ∧
        attempt grammar limit symbol 0 shown run = .ok first after ∧ after.sources = [next] ∧
          after.log = run.log ++ noted) ∨
      ∃ failure after, result = .error failure ∧ failure ≠ .tooDeep ∧
        attempt grammar limit symbol 0 shown run = .error failure after := by
  have seen := ofResult_generate_alone grammar limit symbol shown alone
  have noted := log_generate grammar limit symbol (.unused shown) 0 run
  rw [tried] at seen
  unfold attempt
  cases ran : generate grammar limit (.unused shown) symbol (some 0) false run with
  | ok text after =>
      rw [ran] at seen noted
      obtain ⟨rfl, sources⟩ := Prod.mk.inj seen
      exact .inl ⟨some text, [], after, .text text, rfl, sources, noted.trans (List.append_nil _).symm⟩
  | error failure after =>
      rw [ran] at seen noted
      obtain ⟨rfl, sources⟩ := Prod.mk.inj seen
      by_cases deep : failure = .tooDeep
      · subst deep
        exact .inl ⟨none, _, _, .skip, rfl, sources, congrArg (· ++ _) noted⟩
      · refine .inr ⟨failure, after, rfl, deep, ?_⟩
        cases failure with
        | tooDeep => exact absurd rfl deep
        | _ => rfl

/-- What a batch gives if all its attempts pass: texts and notes, as many as there are attempts. -/
structure Complete (grammar : Grammar) (limit : Nat) (symbol : Option String) (shown : Text)
    (count : Nat) (source : Random.Source) (texts : List Text) (notes : List Event) : Prop where
  passes (index : Nat) (within : index < count) :
    Passes (grammar.attemptAt limit symbol shown source index)
  listed : texts = (List.range count).filterMap fun index =>
    (grammar.attemptAt limit symbol shown source index).toOption
  noted : ∃ skips, texts.length + skips = count ∧ notes = List.replicate skips (grammar.skipNote symbol)

/-- One of the attempts fails, and all before it pass. -/
structure Stopped (grammar : Grammar) (limit : Nat) (symbol : Option String) (shown : Text)
    (count : Nat) (source : Random.Source) (failure : RunFailure) : Prop where
  deep : failure ≠ .tooDeep
  first : ∃ index < count, grammar.attemptAt limit symbol shown source index = .error failure ∧
    ∀ earlier < index, Passes (grammar.attemptAt limit symbol shown source earlier)

section

variable {source next : Random.Source} {result : Except RunFailure Text}
  (tried : grammar.attemptFrom limit symbol shown source = (result, next)) {count : Nat}

include tried

theorem attemptAt_of_tried :
    grammar.attemptAt limit symbol shown source 0 = result ∧ ∀ index,
      grammar.attemptAt limit symbol shown source (index + 1) =
        grammar.attemptAt limit symbol shown next index := by
  refine ⟨congrArg Prod.fst tried, fun index => ?_⟩
  rw [attemptAt_succ, tried]

/-- The attempts pass if the first one does and those after it do. -/
theorem passes_succ {bound : Nat} (first : Passes result)
    (others : ∀ index < bound, Passes (grammar.attemptAt limit symbol shown next index)) :
    ∀ index < bound + 1, Passes (grammar.attemptAt limit symbol shown source index) := by
  obtain ⟨here, later⟩ := attemptAt_of_tried tried
  intro index within
  cases index with
  | zero => exact here ▸ first
  | succ index => exact later index ▸ others index (Nat.lt_of_succ_lt_succ within)

theorem Complete.cons {first : Option Text} {noted : List Event}
    (takes : Takes grammar symbol result first noted) {texts : List Text} {notes : List Event}
    (further : Complete grammar limit symbol shown count next texts notes) :
    Complete grammar limit symbol shown (count + 1) source (first.toList ++ texts)
      (noted ++ notes) := by
  obtain ⟨here, later⟩ := attemptAt_of_tried tried
  obtain ⟨passes, listed, skips, total, replicated⟩ := further
  have range : (List.range (count + 1)).filterMap
      (fun index => (grammar.attemptAt limit symbol shown source index).toOption) =
        result.toOption.toList ++ texts := by
    rw [List.range_succ_eq_map, listed]
    simp only [List.filterMap_cons, List.filterMap_map, Function.comp_def, here, later]
    cases result.toOption <;> rfl
  have all := passes_succ tried takes.passes passes
  cases takes with
  | text text =>
      refine ⟨all, range.symm, skips, ?_, replicated⟩
      change texts.length + 1 + skips = _
      omega
  | skip =>
      refine ⟨all, range.symm, skips + 1, congrArg (· + 1) total, ?_⟩
      rw [replicated]
      rfl

theorem Stopped.cons {failure : RunFailure} (first : Passes result)
    (further : Stopped grammar limit symbol shown count next failure) :
    Stopped grammar limit symbol shown (count + 1) source failure := by
  obtain ⟨deep, index, within, found, earlier⟩ := further
  refine ⟨deep, index + 1, Nat.succ_lt_succ within, ?_, passes_succ tried first earlier⟩
  rw [(attemptAt_of_tried tried).2, found]

end

/-- A batch has all its texts, or it ends at the first attempt that fails. -/
theorem batch_cases (grammar : Grammar) (limit : Nat) (symbol : Option String) (count : Nat)
    {source : Random.Source} {run : Run} (alone : run.sources = [source]) :
    (∃ texts notes after, batch grammar limit symbol 0 shown count run = .ok texts after ∧
        after.log = run.log ++ notes ∧ Complete grammar limit symbol shown count source texts notes) ∨
      ∃ failure after, batch grammar limit symbol 0 shown count run = .error failure after ∧
        Stopped grammar limit symbol shown count source failure := by
  induction count generalizing source run with
  | zero => exact .inl ⟨[], [], run, rfl, (List.append_nil _).symm, nofun, rfl, 0, rfl, rfl⟩
  | succ count ih =>
      rcases tried : grammar.attemptFrom limit symbol shown source with ⟨result, next⟩
      rcases attempt_cases tried alone with ⟨first, noted, after, takes, ran, left, log⟩ |
        ⟨failure, after, rfl, deep, ran⟩
      · rw [batch, run_bind, ran]
        dsimp only
        rw [run_bind]
        rcases ih left with ⟨texts, notes, last, done, logged, complete⟩ |
          ⟨failure, last, failed, stopped⟩
        · rw [done]
          refine .inl ⟨_, noted ++ notes, last, rfl, ?_, complete.cons tried takes⟩
          rw [logged, log, List.append_assoc]
        · rw [failed]
          exact .inr ⟨failure, last, rfl, stopped.cons tried takes.passes⟩
      · refine .inr ⟨failure, after, ?_, deep, 0, Nat.succ_pos _, (attemptAt_of_tried tried).1, nofun⟩
        rw [batch, run_bind, ran]

/-- An attempt that stops a batch stops every longer one. -/
theorem Stopped.longer {fewer more : Nat} {source : Random.Source} {failure : RunFailure}
    (stopped : Stopped grammar limit symbol shown fewer source failure) (less : fewer ≤ more) :
    Stopped grammar limit symbol shown more source failure := by
  obtain ⟨deep, index, within, found, earlier⟩ := stopped
  exact ⟨deep, index, Nat.lt_of_lt_of_le within less, found, earlier⟩

/-- No batch has all its texts and ends at a failure. -/
theorem Complete.not_stopped {count : Nat} {source : Random.Source} {texts : List Text}
    {notes : List Event} {failure : RunFailure}
    (complete : Complete grammar limit symbol shown count source texts notes) :
    ¬Stopped grammar limit symbol shown count source failure := by
  rintro ⟨deep, index, within, found, _⟩
  exact deep (complete.passes index within failure found)

/-- There is one first attempt that fails. -/
theorem Stopped.unique {count : Nat} {source : Random.Source} {failure other : RunFailure}
    (stopped : Stopped grammar limit symbol shown count source failure)
    (again : Stopped grammar limit symbol shown count source other) : failure = other := by
  obtain ⟨deep, index, _, found, earlier⟩ := stopped
  obtain ⟨deep', index', _, found', earlier'⟩ := again
  rcases Nat.lt_trichotomy index index' with before | rfl | behind
  · exact absurd (earlier' index before failure found) deep
  · cases found.symm.trans found'
    rfl
  · exact absurd (earlier index' behind other found') deep'

end Expander

/-! ## Batches of texts -/

namespace Grammar

open Expander

variable {grammar : Grammar} {limit : Nat} {symbol : Option String} {shown : Text}

theorem generateStrings_cases (grammar : Grammar) (limit : Nat) (symbol : Option String)
    (count : Nat) (source : Random.Source) (shown : Text) :
    (∃ texts, (grammar.generateStrings limit symbol count source shown).1 = .ok texts ∧
        Complete grammar limit symbol shown count source texts
          (grammar.generateStrings limit symbol count source shown).2) ∨
      ∃ failure, (grammar.generateStrings limit symbol count source shown).1 = .error failure ∧
        Stopped grammar limit symbol shown count source failure := by
  unfold generateStrings
  have alone : (Run.start ⟨[]⟩ [source]).sources = [source] := rfl
  rcases batch_cases grammar limit symbol count alone with
    ⟨texts, notes, after, ran, logged, complete⟩ | ⟨failure, after, ran, stopped⟩
  · rw [ran]
    obtain rfl : after.log = notes := logged
    exact .inl ⟨texts, rfl, complete⟩
  · rw [ran]
    exact .inr ⟨failure, rfl, stopped⟩

theorem complete_of_generateStrings {count : Nat} {source : Random.Source} {texts : List Text}
    (given : (grammar.generateStrings limit symbol count source shown).1 = .ok texts) :
    Complete grammar limit symbol shown count source texts
      (grammar.generateStrings limit symbol count source shown).2 := by
  rcases generateStrings_cases grammar limit symbol count source shown with
    ⟨others, same, complete⟩ | ⟨failure, failed, _⟩
  · cases given.symm.trans same
    exact complete
  · cases given.symm.trans failed

theorem stopped_of_generateStrings {count : Nat} {source : Random.Source} {failure : RunFailure}
    (failed : (grammar.generateStrings limit symbol count source shown).1 = .error failure) :
    Stopped grammar limit symbol shown count source failure := by
  rcases generateStrings_cases grammar limit symbol count source shown with
    ⟨texts, given, _⟩ | ⟨other, same, stopped⟩
  · cases given.symm.trans failed
  · cases failed.symm.trans same
    exact stopped

/-- A longer batch that has all its texts begins with those of a shorter one. -/
theorem exists_prefix_of_generateStrings {fewer more : Nat} {source : Random.Source}
    {texts : List Text} (less : fewer ≤ more)
    (given : (grammar.generateStrings limit symbol more source shown).1 = .ok texts) :
    ∃ first, (grammar.generateStrings limit symbol fewer source shown).1 = .ok first ∧
      first <+: texts := by
  have complete := complete_of_generateStrings given
  rcases generateStrings_cases grammar limit symbol fewer source shown with
    ⟨first, shorter, part⟩ | ⟨failure, _, stopped⟩
  · refine ⟨first, shorter, ?_⟩
    obtain ⟨further, rfl⟩ := Nat.exists_eq_add_of_le less
    rw [part.listed, complete.listed, List.range_add, List.filterMap_append]
    exact List.prefix_append _ _
  · exact absurd (stopped.longer less) complete.not_stopped

/-- A failure of a batch is that of every longer one. -/
theorem generateStrings_error_of_le {fewer more : Nat} {source : Random.Source} {failure : RunFailure}
    (less : fewer ≤ more)
    (failed : (grammar.generateStrings limit symbol fewer source shown).1 = .error failure) :
    (grammar.generateStrings limit symbol more source shown).1 = .error failure := by
  have stopped := (stopped_of_generateStrings failed).longer less
  rcases generateStrings_cases grammar limit symbol more source shown with
    ⟨texts, _, complete⟩ | ⟨other, same, again⟩
  · exact absurd stopped complete.not_stopped
  · rw [same, stopped.unique again]

/--
A longer batch that has all its texts begins with those of a shorter one, and a
failure of a shorter batch is that of a longer one; each batch may show its
source in its own way, unless a leaf asks for that. The texts of a batch and its
notes of expansions that were skipped are as many as were asked for. The
attempts start from the source that the attempt before left, whatever became of
it; the texts are those of the attempts that have one, and a failure is that of
the first attempt that neither has one nor is skipped. No attempt is made if
fewer than one text is asked for.
-/
theorem batches_extend {grammar : Grammar} {symbol : Option String} {shown word : Text}
    (alike : ShownAlike grammar symbol shown word) (limit : Nat) (source : Random.Source) :
    (∀ fewer more : Int, fewer ≤ more →
      (∀ texts, (grammar.generateStrings limit symbol more.toNat source word).1 = .ok texts →
        ∃ first, (grammar.generateStrings limit symbol fewer.toNat source shown).1 = .ok first ∧
          first <+: texts) ∧
      ∀ failure,
        (grammar.generateStrings limit symbol fewer.toNat source shown).1 = .error failure →
          (grammar.generateStrings limit symbol more.toNat source word).1 = .error failure) ∧
    ∀ count : Int,
      (∀ texts, (grammar.generateStrings limit symbol count.toNat source shown).1 = .ok texts →
        (∃ skips : Nat, ((texts.length + skips : Nat) : Int) = max count 0 ∧
          (grammar.generateStrings limit symbol count.toNat source shown).2 =
            List.replicate skips (grammar.skipNote symbol)) ∧
        (∀ index < count.toNat,
          (∃ text, grammar.attemptAt limit symbol shown source index = .ok text) ∨
            grammar.attemptAt limit symbol shown source index = .error .tooDeep) ∧
        texts = (List.range count.toNat).filterMap fun index =>
          (grammar.attemptAt limit symbol shown source index).toOption) ∧
      ∀ failure,
        (grammar.generateStrings limit symbol count.toNat source shown).1 = .error failure →
          failure ≠ .tooDeep ∧ ∃ index < count.toNat,
            grammar.attemptAt limit symbol shown source index = .error failure ∧
            ∀ earlier < index,
              (∃ text, grammar.attemptAt limit symbol shown source earlier = .ok text) ∨
                grammar.attemptAt limit symbol shown source earlier = .error .tooDeep := by
  have passed {result : Except RunFailure Text} (passes : Passes result) :
      (∃ text, result = .ok text) ∨ result = .error .tooDeep := by
    cases result with
    | ok text => exact .inl ⟨text, rfl⟩
    | error failure => exact .inr (congrArg Except.error (passes failure rfl))
  refine ⟨fun fewer more less => ?_, fun count => ⟨fun texts given => ?_, fun failure failed => ?_⟩⟩
  · have bound : fewer.toNat ≤ more.toNat := Int.toNat_le_toNat less
    rw [← generateStrings_shown alike]
    exact ⟨fun texts => exists_prefix_of_generateStrings bound,
      fun failure => generateStrings_error_of_le bound⟩
  · obtain ⟨passes, listed, skips, total, notes⟩ := complete_of_generateStrings given
    refine ⟨⟨skips, ?_, notes⟩, fun index within => passed (passes index within), listed⟩
    omega
  · obtain ⟨deep, index, within, found, earlier⟩ := stopped_of_generateStrings failed
    exact ⟨deep, index, within, found, fun before behind => passed (earlier before behind)⟩

/-- A symbol that ends, expands to itself, or asks for what is not bound. -/
def straying : Grammar where
  table := ⟨[("S", ⟨"S", [[.leaf (.constant "String" "a")], [.symbol "S"], [.leaf (.reference "x")]],
    .empty, none⟩)], by decide⟩
  start := some "S"

/-- Draws for a text, an expansion that is too deep, a text, and a name that is not bound. -/
def strayingSource : Random.Source :=
  .script [0, 1, 1, 0, 2]

theorem batches_extend_straying :
    straying.ConcealsSource ∧
      (straying.generateStrings 2 none 3 strayingSource "here").1 = .ok ["a", "a"] ∧
      (∃ first, (straying.generateStrings 2 none 2 strayingSource "there").1 = .ok first ∧
        first <+: ["a", "a"]) ∧
      (∃ skips : Nat, ((["a", "a"].length + skips : Nat) : Int) = 3 ∧
        (straying.generateStrings 2 none 3 strayingSource "here").2 =
          List.replicate skips (.skipped "S")) ∧
      (straying.generateStrings 2 none 4 strayingSource "here").1 =
        .error (.bare (.unboundReference "x")) ∧
      (straying.generateStrings 2 none 6 strayingSource "there").1 =
        .error (.bare (.unboundReference "x")) ∧
      ∃ index < 4, straying.attemptAt 2 none "here" strayingSource index =
        .error (.bare (.unboundReference "x")) := by
  have conceals : straying.ConcealsSource := by decide
  have alike (shown word : Text) : ShownAlike straying none shown word :=
    fun key _ shows => absurd shows (conceals.not_showsSource key)
  have given : (straying.generateStrings 2 none 3 strayingSource "here").1 = .ok ["a", "a"] := by
    decide +kernel
  have failed : (straying.generateStrings 2 none 4 strayingSource "here").1 =
      .error (.bare (.unboundReference "x")) := by decide +kernel
  have shorter := (batches_extend (alike "there" "here") 2 strayingSource).1 2 3 (by decide)
  obtain ⟨longer, counts⟩ := batches_extend (alike "here" "there") 2 strayingSource
  obtain ⟨_, index, within, found, _⟩ := (counts 4).2 _ failed
  exact ⟨conceals, given, shorter.1 _ given, ((counts 3).1 _ given).1, failed,
    (longer 4 6 (by decide)).2 _ failed, index, within, found⟩

end Grammar

end PhraseGrammar
