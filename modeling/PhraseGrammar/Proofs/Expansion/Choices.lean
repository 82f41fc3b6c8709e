import Mathlib.Data.List.Forall2
import PhraseGrammar.Proofs.Expansion.Safety

/-!
# Variables and choices

An expansion is a sequence of pieces: the choice of a rule for every symbol that
it comes to, and what every leaf emits. Two expansions of a symbol whose sources
are in the same state, whatever else they see, have alike pieces: the same
choices and the same draws, and other texts only where a leaf refers to a name.
If they agree on all names that the symbol refers to, they end in the same way.
-/

namespace PhraseGrammar

/-- A rule of a symbol chosen by its index, or a text emitted by a leaf. -/
inductive Piece where
  | choice (key : String) (index : Nat)
  | emitted (emission : Emission) (text : Text)
  deriving DecidableEq, Repr

namespace Piece

/-- The text that pieces give, one after the other. -/
def textOf : List Piece → Text
  | [] => ""
  | .choice _ _ :: rest => textOf rest
  | .emitted _ text :: rest => text ++ textOf rest

theorem textOf_append (first second : List Piece) :
    textOf (first ++ second) = textOf first ++ textOf second := by
  induction first with
  | nil => exact (Text.empty_append _).symm
  | cons piece rest ih =>
      cases piece with
      | choice key index => exact ih
      | emitted emission text =>
          simp only [List.cons_append, textOf, ih, Text.append_assoc]

/-- The same piece, or two texts emitted for one name. -/
inductive Alike : Piece → Piece → Prop where
  | same (piece : Piece) : Alike piece piece
  | reference (name : String) (first second : Text) :
      Alike (.emitted (.lookup name) first) (.emitted (.lookup name) second)

end Piece

/-- What is left to see of an outcome, its value changed. -/
def Outcome.map {α β : Type} (change : α → β) (outcome : Outcome α) : Outcome β :=
  (outcome.1.map change, outcome.2)

namespace Environment

/-- The pieces of a rule's nodes from left to right. -/
def piecesOf (grammar : Grammar)
    (symbol : String → Environment → List Random.Source → Outcome (List Piece)) (owner : String) :
    List Node → Environment → List Random.Source → Outcome (List Piece)
  | [], _, sources => (.ok [], sources)
  | .leaf leaf :: rest, environment, sources =>
      (environment.emit leaf.emission sources).andThen fun text sources =>
        (piecesOf grammar symbol owner rest environment sources).andThen fun others sources =>
          (.ok (.emitted leaf.emission text :: others), sources)
  | .symbol key :: rest, environment, sources =>
      (symbol key environment sources).andThen fun inner sources =>
        (piecesOf grammar symbol owner rest
          (environment.set (grammar.nameOf key) (.value (.text (Piece.textOf inner))))
            sources).andThen fun others sources => (.ok (inner ++ others), sources)
  | .unresolved ref :: _, _, sources => (.error (.notExpandable (shownRef ref) owner), sources)
  | .stray text :: _, _, sources => (.error (.notExpandable (Text.quote text) owner), sources)

/-- The pieces of a nonterminal's expansion, its own choice first. -/
def pieces (grammar : Grammar) : Nat → String → Environment → List Random.Source →
    Outcome (List Piece)
  | 0, _, _, sources => (.error .tooDeep, sources)
  | limit + 1, key, environment, sources =>
      match grammar.get? key with
      | none => (.error (.undeclared key), sources)
      | some nonterminal =>
          (environment.draw nonterminal.rules.length sources).andThen fun index sources =>
            (piecesOf grammar (pieces grammar limit) nonterminal.name
              (nonterminal.rules.getD index []) (environment.override nonterminal.defaults)
                sources).andThen fun inner sources => (.ok (.choice key index :: inner), sources)

/-- The text of a rule is that of its pieces, if this is so of the symbols in it. -/
theorem nodes_eq_map {grammar : Grammar} {owner : String}
    {symbol : String → Environment → List Random.Source → Outcome Text}
    {expansion : String → Environment → List Random.Source → Outcome (List Piece)}
    (symbols : ∀ key environment sources,
      symbol key environment sources = (expansion key environment sources).map Piece.textOf)
    (rule : List Node) (environment : Environment) (sources : List Random.Source) :
    nodes grammar symbol owner rule environment sources =
      (piecesOf grammar expansion owner rule environment sources).map Piece.textOf := by
  induction rule generalizing environment sources with
  | nil => rfl
  | cons first rest ih =>
      cases first with
      | unresolved ref => rfl
      | stray text => rfl
      | leaf leaf =>
          simp only [nodes, piecesOf]
          rcases environment.emit leaf.emission sources with ⟨failure | text, after⟩
          · rfl
          · simp only [Outcome.andThen, ih]
            rcases piecesOf grammar expansion owner rest environment after with
              ⟨failure | others, last⟩ <;> rfl
      | symbol key =>
          simp only [nodes, piecesOf, symbols]
          rcases expansion key environment sources with ⟨failure | inner, after⟩
          · rfl
          · simp only [Outcome.andThen, Outcome.map, Except.map, ih]
            rcases piecesOf grammar expansion owner rest
              (environment.set (grammar.nameOf key) (.value (.text (Piece.textOf inner)))) after
              with ⟨failure | others, last⟩
            · rfl
            · simp only [Piece.textOf_append]

/-- An expansion is the text of its pieces: they are its account, and change nothing in it. -/
theorem evaluate_eq_map (grammar : Grammar) (limit : Nat) (key : String)
    (environment : Environment) (sources : List Random.Source) :
    evaluate grammar limit key environment sources =
      (pieces grammar limit key environment sources).map Piece.textOf := by
  induction limit generalizing key environment sources with
  | zero => rfl
  | succ limit ih =>
      simp only [evaluate, pieces]
      cases grammar.get? key with
      | none => rfl
      | some nonterminal =>
          dsimp only
          rcases environment.draw nonterminal.rules.length sources with ⟨failure | index, after⟩
          · rfl
          · simp only [Outcome.andThen, nodes_eq_map ih]
            rcases piecesOf grammar (pieces grammar limit) nonterminal.name
              (nonterminal.rules.getD index []) (environment.override nonterminal.defaults) after
              with ⟨failure | inner, last⟩ <;> rfl

/-! ## Two environments -/

/-- The name of the source stands for the left and the right source, or for none in both. -/
inductive Paired (left right : Nat) : Option Binding → Option Binding → Prop where
  | none : Paired left right none none
  | value (value other : Value) : Paired left right (some (.value value)) (some (.value other))
  | source (shown word : Text) :
      Paired left right (some (.source left shown)) (some (.source right word))

/--
Two environments that an expansion cannot tell apart by the source. Unless
references are free to differ, they agree on all names that may be referred to.
-/
structure Agrees (free : Prop) (names : String → Prop) (left right : Nat)
    (environment other : Environment) : Prop where
  paired : Paired left right (environment randomName) (other randomName)
  shown (bound : ¬free) (name : String) (referred : names name) : environment name = other name

/-- The same, but that what names are bound to may differ as long as it is shown alike. -/
structure Resembles (free : Prop) (names : String → Prop) (left right : Nat)
    (environment other : Environment) : Prop where
  paired : Paired left right (environment randomName) (other randomName)
  shown (bound : ¬free) (name : String) (referred : names name) :
    (environment name).map Expander.shownBinding? = (other name).map Expander.shownBinding?

variable {free : Prop} {names : String → Prop} {left right : Nat} {environment other : Environment}

theorem Agrees.resembles (agrees : Agrees free names left right environment other) :
    Resembles free names left right environment other :=
  ⟨agrees.paired, fun bound name referred => congrArg _ (agrees.shown bound name referred)⟩

namespace Resembles

theorem set (resembles : Resembles free names left right environment other) (name : String)
    {text word : Text} (same : ¬free → text = word) :
    Resembles free names left right (environment.set name (.value (.text text)))
      (other.set name (.value (.text word))) where
  paired := by
    unfold Environment.set
    split
    · exact .value _ _
    · exact resembles.paired
  shown := by
    intro bound asked referred
    unfold Environment.set
    split
    · rw [same bound]
    · exact resembles.shown bound asked referred

theorem override (resembles : Resembles free names left right environment other)
    (defaults : Table Value) :
    Resembles free names left right (environment.override defaults) (other.override defaults) where
  paired := by
    unfold Environment.override
    cases defaults.get? randomName with
    | none => exact resembles.paired
    | some value => exact .value value value
  shown := by
    intro bound asked referred
    unfold Environment.override
    rw [Option.map_or, Option.map_or, resembles.shown bound asked referred]

end Resembles

end Environment

/--
Two outcomes in step: related values or the same failure, and the sources in the
same state. If references are free to differ, either side may fail on its own.
-/
inductive Outcome.InStep (free : Prop) (left right : Nat) {α : Type} (related : α → α → Prop) :
    Outcome α → Outcome α → Prop where
  | ok {value other : α} (fits : related value other) {sources others : List Random.Source}
      (same : sources[left]? = others[right]?) :
      InStep free left right related (.ok value, sources) (.ok other, others)
  | error (failure : RunFailure) {sources others : List Random.Source}
      (same : sources[left]? = others[right]?) :
      InStep free left right related (.error failure, sources) (.error failure, others)
  | leftFails (may : free) (failure : RunFailure) (sources : List Random.Source)
      (other : Outcome α) : InStep free left right related (.error failure, sources) other
  | rightFails (may : free) (outcome : Outcome α) (failure : RunFailure)
      (others : List Random.Source) :
      InStep free left right related outcome (.error failure, others)

namespace Outcome.InStep

variable {free : Prop} {left right : Nat} {α β : Type}

theorem andThen {related : α → α → Prop} {result : β → β → Prop} {first other : Outcome α}
    {second further : α → List Random.Source → Outcome β}
    (begins : InStep free left right related first other)
    (follows : ∀ value word sources others, related value word →
      sources[left]? = others[right]? →
        InStep free left right result (second value sources) (further word others)) :
    InStep free left right result (first.andThen second) (other.andThen further) := by
  cases begins with
  | ok fits same => exact follows _ _ _ _ fits same
  | error failure same => exact .error failure same
  | leftFails may failure sources other => exact .leftFails may failure sources _
  | rightFails may outcome failure others => exact .rightFails may _ failure others

theorem mono {related weaker : α → α → Prop} {first other : Outcome α}
    (inStep : InStep free left right related first other)
    (implies : ∀ value word, related value word → weaker value word) :
    InStep free left right weaker first other := by
  cases inStep with
  | ok fits same => exact .ok (implies _ _ fits) same
  | error failure same => exact .error failure same
  | leftFails may failure sources other => exact .leftFails may failure sources other
  | rightFails may _ failure others => exact .rightFails may _ failure others

end Outcome.InStep

namespace Environment

variable {free : Prop} {names : String → Prop} {left right : Nat} {environment other : Environment}
  {sources others : List Random.Source}

/-- Draws below the same bound give the same number. -/
theorem inStep_draw (paired : Paired left right (environment randomName) (other randomName))
    (same : sources[left]? = others[right]?) (bound : Nat) :
    Outcome.InStep free left right Eq (environment.draw bound sources)
      (other.draw bound others) := by
  unfold draw
  generalize environment randomName = binding at paired ⊢
  generalize other randomName = counterpart at paired ⊢
  cases paired with
  | none => exact .error _ same
  | value value other => exact .error _ same
  | source shown word =>
      dsimp only
      split
      · exact .error _ same
      · rw [← same]
        cases found : sources[left]? with
        | none => exact .error _ same
        | some source =>
            refine .ok rfl ?_
            rw [List.getElem?_set_self', List.getElem?_set_self', same]

theorem inStep_write (same : sources[left]? = others[right]?) (text? : Option Text) :
    Outcome.InStep free left right Eq (write text? sources) (write text? others) := by
  cases text? with
  | none => exact .error _ same
  | some text => exact .ok rfl same

theorem inStep_drawBetween (paired : Paired left right (environment randomName) (other randomName))
    (same : sources[left]? = others[right]?) (lo hi : Int) :
    Outcome.InStep free left right Eq (environment.drawBetween lo hi sources)
      (other.drawBetween lo hi others) := by
  unfold drawBetween
  split
  · split
    · exact .error _ same
    · exact .error _ same
  · refine (inStep_draw paired same _).andThen ?_
    rintro offset _ after later rfl kept
    exact inStep_write kept _

/-- What one leaf emits in both: alike pieces, and one text unless references are free to differ. -/
def Emits (free : Prop) (emission : Emission) (text word : Text) : Prop :=
  Piece.Alike (.emitted emission text) (.emitted emission word) ∧ (¬free → text = word)

theorem Emits.of_eq (free : Prop) (emission : Emission) {text word : Text} (same : text = word) :
    Emits free emission text word := by
  subst same
  exact ⟨.same _, fun _ => rfl⟩

theorem lookup_snd (environment : Environment) (name : String) (sources : List Random.Source) :
    (environment.lookup name sources).2 = sources := by
  unfold lookup
  split <;> rfl

theorem inStep_lookup (resembles : Resembles free names left right environment other)
    (same : sources[left]? = others[right]?) {name : String} (referred : names name) :
    Outcome.InStep free left right (Emits free (.lookup name)) (environment.lookup name sources)
      (other.lookup name others) := by
  -- If references are free to differ, either side may find the name unbound and fail alone.
  by_cases may : free
  · have unmoved := lookup_snd environment name sources
    have still := lookup_snd other name others
    generalize environment.lookup name sources = outcome at unmoved ⊢
    generalize other.lookup name others = counterpart at still ⊢
    rcases outcome with ⟨failure | text, after⟩
    · exact .leftFails may failure after _
    · rcases counterpart with ⟨failure | word, later⟩
      · exact .rightFails may _ failure later
      · cases unmoved
        cases still
        exact .ok ⟨.reference name text word, fun bound => absurd may bound⟩ same
  · have shown := resembles.shown may name referred
    unfold lookup
    generalize environment name = binding?, other name = counterpart? at shown ⊢
    cases binding? with
    | none =>
        cases counterpart? with
        | none => exact .error _ same
        | some counterpart => cases shown
    | some binding =>
        cases counterpart? with
        | none => cases shown
        | some counterpart =>
            simp only [← Option.some.inj shown]
            exact (inStep_write same _).mono fun text word => .of_eq free _

theorem inStep_emit (resembles : Resembles free names left right environment other)
    (same : sources[left]? = others[right]?) (emission : Emission)
    (refers : ∀ name, emission = .lookup name → names name) :
    Outcome.InStep free left right (Emits free emission) (environment.emit emission sources)
      (other.emit emission others) := by
  cases emission with
  | text value => exact .ok (.of_eq free _ rfl) same
  | observe => exact .ok (.of_eq free _ rfl) same
  | lookup name => exact inStep_lookup resembles same (refers name rfl)
  | draw arguments =>
      simp only [emit]
      cases interval? arguments with
      | none => exact .error _ same
      | some ends =>
          exact (inStep_drawBetween resembles.paired same ends.1 ends.2).mono fun text word =>
            .of_eq free _

/-! ## Expansions in step -/

/-- Alike pieces, and the same ones unless references are free to differ. -/
def Matched (free : Prop) (pieces others : List Piece) : Prop :=
  List.Forall₂ Piece.Alike pieces others ∧ (¬free → pieces = others)

/-- The nodes of a rule, if the names that it refers to and its symbols are taken care of. -/
theorem inStep_piecesOf {grammar : Grammar} {owner : String} {rule : List Node}
    {expansion : String → Environment → List Random.Source → Outcome (List Piece)}
    (refers : ∀ leaf name, .leaf leaf ∈ rule → leaf.emission = .lookup name → names name)
    (symbols : ∀ key, .symbol key ∈ rule → ∀ (environment other : Environment)
      (sources others : List Random.Source), Resembles free names left right environment other →
        sources[left]? = others[right]? →
          Outcome.InStep free left right (Matched free) (expansion key environment sources)
            (expansion key other others))
    (resembles : Resembles free names left right environment other)
    (same : sources[left]? = others[right]?) :
    Outcome.InStep free left right (Matched free)
      (piecesOf grammar expansion owner rule environment sources)
      (piecesOf grammar expansion owner rule other others) := by
  induction rule generalizing environment other sources others with
  | nil => exact .ok ⟨.nil, fun _ => rfl⟩ same
  | cons first rest ih =>
      have remaining {environment other : Environment} {sources others : List Random.Source} :=
        @ih environment other sources others
          (fun leaf name member => refers leaf name (.tail _ member))
          (fun key member => symbols key (.tail _ member))
      cases first with
      | unresolved ref => exact .error _ same
      | stray text => exact .error _ same
      | leaf leaf =>
          refine (inStep_emit resembles same leaf.emission
            fun name => refers leaf name List.mem_cons_self).andThen ?_
          rintro text word after later ⟨alike, equal⟩ kept
          refine (remaining resembles kept).andThen ?_
          rintro pieces counterparts last final ⟨matched, equals⟩ end_same
          exact .ok ⟨.cons alike matched, fun bound => by rw [equal bound, equals bound]⟩ end_same
      | symbol key =>
          refine (symbols key List.mem_cons_self _ _ _ _ resembles same).andThen ?_
          rintro inner counterpart after later ⟨alike, equal⟩ kept
          have extended := resembles.set (grammar.nameOf key)
            fun bound => congrArg Piece.textOf (equal bound)
          refine (remaining extended kept).andThen ?_
          rintro pieces counterparts last final ⟨matched, equals⟩ end_same
          refine .ok ⟨?_, fun bound => by rw [equal bound, equals bound]⟩ end_same
          exact (List.rel_append (R := Piece.Alike)) alike matched

theorem mem_rules_of_getD {rules : List (List Node)} {index : Nat} {node : Node}
    (member : node ∈ rules.getD index []) : rules.getD index [] ∈ rules := by
  by_cases below : index < rules.length
  · rw [List.getD_eq_getElem _ _ below]
    exact List.getElem_mem below
  · rw [List.getD_eq_default _ _ (Nat.le_of_not_lt below)] at member
    cases member

/--
Expansions of a symbol stay in step, by induction on the limit, if references
are free to differ or the environments show the same under all names it refers to.
-/
theorem inStep_resembling {grammar : Grammar} (limit : Nat) {key : String}
    (refers : ∀ leaf name, grammar.ReachesLeaf key leaf → leaf.emission = .lookup name → names name)
    (resembles : Resembles free names left right environment other)
    (same : sources[left]? = others[right]?) :
    Outcome.InStep free left right (Matched free) (pieces grammar limit key environment sources)
      (pieces grammar limit key other others) := by
  induction limit generalizing key environment other sources others with
  | zero => exact .error _ same
  | succ limit ih =>
      unfold pieces
      cases found : grammar.get? key with
      | none => exact .error _ same
      | some nonterminal =>
          refine (inStep_draw resembles.paired same _).andThen ?_
          rintro index _ after later rfl kept
          refine (inStep_piecesOf ?_ ?_ (resembles.override nonterminal.defaults) kept).andThen ?_
          · intro leaf name member
            have chosen := mem_rules_of_getD member
            exact refers leaf name ⟨key, nonterminal, _, .refl, found, chosen, member⟩
          · intro inner member environment other sources others
            refine ih fun leaf name reached => refers leaf name ?_
            exact reached.before (.step .refl found (mem_rules_of_getD member) member)
          · rintro pieces counterparts last final ⟨matched, equals⟩ end_same
            exact .ok ⟨.cons (.same _) matched, fun bound => by rw [equals bound]⟩ end_same

/-- In particular, if the environments agree on all names it refers to. -/
theorem inStep_pieces {grammar : Grammar} (limit : Nat) {key : String}
    (refers : ∀ leaf name, grammar.ReachesLeaf key leaf → leaf.emission = .lookup name → names name)
    (agrees : Agrees free names left right environment other)
    (same : sources[left]? = others[right]?) :
    Outcome.InStep free left right (Matched free) (pieces grammar limit key environment sources)
      (pieces grammar limit key other others) :=
  inStep_resembling limit refers agrees.resembles same

end Environment

namespace Expander

/-- The pieces of an expansion in a run. -/
def pieces (grammar : Grammar) (limit : Nat) (key : String) (run : Run) : Outcome (List Piece) :=
  Environment.pieces grammar limit key run.scope.get? run.sources

theorem ofResult_expand_eq_map (grammar : Grammar) (limit : Nat) (key : String) (run : Run) :
    Outcome.ofResult (expand grammar limit key run) =
      (pieces grammar limit key run).map Piece.textOf :=
  ((follows_expand grammar limit key).outcome run).trans
    (Environment.evaluate_eq_map grammar limit key _ _)

/-- A text comes with its pieces. -/
theorem pieces_of_ok {grammar : Grammar} {limit : Nat} {key : String} {text : Text}
    {run after : Run}
    (expanded : expand grammar limit key run = .ok text after) :
    ∃ inner, pieces grammar limit key run = (.ok inner, after.sources) ∧
      Piece.textOf inner = text := by
  have outcome := ofResult_expand_eq_map grammar limit key run
  rw [expanded] at outcome
  generalize pieces grammar limit key run = account at outcome ⊢
  rcases account with ⟨failure | inner, sources⟩
  · cases outcome
  · cases outcome
    exact ⟨inner, rfl, rfl⟩

/-- What is seen of two expansions that are in step, as no reference is free to differ. -/
theorem same_of_inStep {grammar : Grammar} {limit : Nat} {key : String} {first second : Run}
    {left right : Nat}
    (inStep : Outcome.InStep False left right (Environment.Matched False)
      (pieces grammar limit key first) (pieces grammar limit key second)) :
    (Outcome.ofResult (expand grammar limit key first)).1 =
        (Outcome.ofResult (expand grammar limit key second)).1 ∧
      (Outcome.ofResult (expand grammar limit key first)).2[left]? =
        (Outcome.ofResult (expand grammar limit key second)).2[right]? := by
  rw [ofResult_expand_eq_map, ofResult_expand_eq_map]
  generalize pieces grammar limit key first = account at inStep ⊢
  generalize pieces grammar limit key second = other at inStep ⊢
  cases inStep with
  | ok fits same => exact ⟨congrArg (Except.ok ∘ Piece.textOf) (fits.2 id), same⟩
  | error failure same => exact ⟨rfl, same⟩
  | leftFails may => exact may.elim
  | rightFails may => exact may.elim

/--
Variables have no influence on the choices. If two runs see sources in the same
state and both give a text, the choices and draws are the same in both, and
texts differ only where leaves refer to names; the sources are in the same state
afterwards. If the runs agree on all names that the symbol refers to, they end
in the same way, be it with a text or with a failure.
-/
theorem expand_alike (grammar : Grammar) (limit : Nat) (key : String) {first second : Run}
    {left right : Nat} {leftShown rightShown : Text}
    (leftSeen : first.scope.get? randomName = some (.source left leftShown))
    (rightSeen : second.scope.get? randomName = some (.source right rightShown))
    (same : first.sources[left]? = second.sources[right]?) :
    (∀ text word after later, expand grammar limit key first = .ok text after →
        expand grammar limit key second = .ok word later →
          ∃ inner others, pieces grammar limit key first = (.ok inner, after.sources) ∧
            pieces grammar limit key second = (.ok others, later.sources) ∧
              Piece.textOf inner = text ∧ Piece.textOf others = word ∧
                List.Forall₂ Piece.Alike inner others ∧
                  after.sources[left]? = later.sources[right]?) ∧
      ((∀ leaf name, grammar.ReachesLeaf key leaf → leaf.emission = .lookup name →
          first.scope.get? name = second.scope.get? name) →
        (Outcome.ofResult (expand grammar limit key first)).1 =
            (Outcome.ofResult (expand grammar limit key second)).1 ∧
          (Outcome.ofResult (expand grammar limit key first)).2[left]? =
            (Outcome.ofResult (expand grammar limit key second)).2[right]?) := by
  have paired : Environment.Paired left right (first.scope.get? randomName)
      (second.scope.get? randomName) := by
    rw [leftSeen, rightSeen]
    exact .source _ _
  constructor
  · intro text word after later expanded further
    obtain ⟨inner, account, texts⟩ := pieces_of_ok expanded
    obtain ⟨others, counterpart, words⟩ := pieces_of_ok further
    have agrees : Environment.Agrees True (fun _ => True) left right first.scope.get?
        second.scope.get? := ⟨paired, fun bound => absurd trivial bound⟩
    have inStep : Outcome.InStep True left right (Environment.Matched True)
        (pieces grammar limit key first) (pieces grammar limit key second) :=
      Environment.inStep_pieces limit (fun _ _ _ _ => trivial) agrees same
    rw [account, counterpart] at inStep
    cases inStep with
    | ok fits kept => exact ⟨inner, others, account, counterpart, texts, words, fits.1, kept⟩
  · intro agree
    have agrees : Environment.Agrees False
        (fun name => ∃ leaf, grammar.ReachesLeaf key leaf ∧ leaf.emission = .lookup name)
        left right first.scope.get? second.scope.get? :=
      ⟨paired, fun _ name ⟨leaf, reached, refers⟩ => agree leaf name reached refers⟩
    exact same_of_inStep (Environment.inStep_pieces limit
      (fun leaf name reached refers => ⟨leaf, reached, refers⟩) agrees same)

/-- The symbols `S` and `A` refer to `who`, and `B` refers to another name. -/
def quoting : Grammar where
  table := ⟨[
    ("S", ⟨"S", [[.leaf ⟨"Reference", "who", .lookup "who"⟩, .symbol "A",
      .leaf ⟨"Reference", "A", .lookup "A"⟩]], .empty, none⟩),
    ("A", ⟨"A", [[.leaf ⟨"Reference", "who", .lookup "who"⟩],
      [.leaf ⟨"range", "9", .draw [9]⟩]], .empty, none⟩),
    ("B", ⟨"B", [[.leaf ⟨"range", "9", .draw [9]⟩, .leaf ⟨"Reference", "day", .lookup "day"⟩]],
      .empty, none⟩)], by decide⟩
  start := some "S"

def quotingText : String :=
  "S : $who A $A . A : $who ; | range(9) . B : range(9) $day ."

def forAnn : Run :=
  .fresh ((Table.empty.set "who" (.value (.text "Ann"))).set "day" (.value (.text "Monday")))
    (.script [0, 0, 5]) "here"

/-- Another name in a frame of its own, and the second of two sources. -/
def forBob : Run :=
  .start ⟨[Table.empty.set "who" (.value (.text "Bob")),
    (Table.empty.set "day" (.value (.text "Monday"))).set randomName (.source 1 "there")]⟩
    [.script [7], .script [0, 0, 5]]

theorem eq_of_reaches_quoting {key : String} (reached : quoting.Reaches "B" key) : key = "B" := by
  induction reached with
  | refl => rfl
  | step before declared chosen member ih =>
      subst ih
      cases declared
      cases List.mem_singleton.mp chosen
      simp at member

theorem agree_quoting (leaf : Leaf) (name : String) (reached : quoting.ReachesLeaf "B" leaf)
    (refers : leaf.emission = .lookup name) : forAnn.scope.get? name = forBob.scope.get? name := by
  obtain ⟨key, nonterminal, rule, path, declared, chosen, member⟩ := reached
  cases eq_of_reaches_quoting path
  cases declared
  cases List.mem_singleton.mp chosen
  simp only [List.mem_cons, List.not_mem_nil, or_false, Node.leaf.injEq] at member
  rcases member with rfl | rfl
  · cases refers
  · cases refers
    rfl

theorem expand_alike_quoting :
    (Grammar.parse Registry.default quotingText).1 = .ok quoting ∧
      (∃ after later inner others, expand quoting 2 "S" forAnn = .ok "AnnAnnAnn" after ∧
        expand quoting 2 "S" forBob = .ok "BobBobBob" later ∧
          pieces quoting 2 "S" forAnn = (.ok inner, after.sources) ∧
            pieces quoting 2 "S" forBob = (.ok others, later.sources) ∧
              List.Forall₂ Piece.Alike inner others ∧
                after.sources[0]? = later.sources[1]?) ∧
        ∀ limit, (Outcome.ofResult (expand quoting limit "B" forAnn)).1 =
          (Outcome.ofResult (expand quoting limit "B" forBob)).1 :=
  have accepted : (Grammar.parse Registry.default quotingText).1 = .ok quoting := by
    decide +kernel
  have influence (limit : Nat) (key : String) :=
    @expand_alike quoting limit key forAnn forBob 0 1 "here" "there" rfl rfl rfl
  ⟨accepted,
    have ⟨inner, others, account, counterpart, _, _, alike, kept⟩ :=
      (influence 2 "S").1 "AnnAnnAnn" "BobBobBob" _ _ rfl rfl
    ⟨_, _, inner, others, rfl, rfl, account, counterpart, alike, kept⟩,
    fun limit => ((influence limit "B").2 agree_quoting).1⟩

end Expander

end PhraseGrammar
