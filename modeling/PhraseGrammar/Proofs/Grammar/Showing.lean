import Mathlib.Data.List.Forall2
import PhraseGrammar.Grammar.Outline

/-!
# Two ways of showing a grammar

The tree and the lines of a grammar show the same. If one of them can be made,
so can the other, and the lines are those of the tree: a header, a line for each
rule and for each default binding, and an empty line. They meet what cannot be
shown in the same order, apart from the headers, which the tree writes last and
the lines first.
-/

namespace PhraseGrammar

section

variable {ε α β : Type}

/-- The failure of a result that is one. -/
def failure? : Except ε α → Option ε
  | .ok _ => none
  | .error failure => some failure

theorem failure?_eq_some_iff {result : Except ε α} {failure : ε} :
    failure? result = some failure ↔ result = .error failure := by
  cases result <;> simp [failure?]

theorem failure?_eq_none_iff {result : Except ε α} :
    failure? result = none ↔ ∃ value, result = .ok value := by
  cases result <;> simp [failure?]

@[simp] theorem failure?_pure (value : α) : failure? (pure value : Except ε α) = none := rfl

@[simp] theorem failure?_map (change : α → β) (result : Except ε α) :
    failure? (result.map change) = failure? result := by
  cases result <;> rfl

/-- Of two steps in a row the first one that fails shows, if the second always fails alike. -/
theorem failure?_bind {first : Except ε α} {second : α → Except ε β} {later : Option ε}
    (fails : ∀ value, failure? (second value) = later) :
    failure? (first >>= second) = (failure? first).or later := by
  cases first with
  | ok value => exact fails value
  | error failure => rfl

theorem failure?_mapM (step : α → Except ε β) (parts : List α) :
    failure? (parts.mapM step) = parts.findSome? fun part => failure? (step part) := by
  induction parts with
  | nil => rfl
  | cons part rest ih =>
      have whole : failure? ((part :: rest).mapM step) =
          (failure? (step part)).or (rest.findSome? fun part => failure? (step part)) := by
        rw [List.mapM_cons]
        refine failure?_bind fun value => ?_
        rw [failure?_bind (fun values => failure?_pure (value :: values)), Option.or_none, ih]
      rw [whole, List.findSome?_cons]
      cases failure? (step part) <;> rfl

/-- A sequence that succeeds does so step by step. -/
theorem exists_of_bind_eq_ok {first : Except ε α} {second : α → Except ε β} {result : β}
    (done : first >>= second = .ok result) :
    ∃ value, first = .ok value ∧ second value = .ok result := by
  cases first with
  | ok value => exact ⟨value, rfl, done⟩
  | error failure => cases done

theorem exists_of_map_eq_ok {change : α → β} {first : Except ε α} {result : β}
    (done : first.map change = .ok result) : ∃ value, first = .ok value ∧ change value = result := by
  cases first with
  | ok value => exact ⟨value, rfl, Except.ok.inj done⟩
  | error failure => cases done

/-- A list of steps succeeds if each of them does. -/
theorem mapM_eq_ok_iff {step : α → Except ε β} {parts : List α} {values : List β} :
    parts.mapM step = .ok values ↔
      List.Forall₂ (fun part value => step part = .ok value) parts values := by
  induction parts generalizing values with
  | nil =>
      rw [List.forall₂_nil_left_iff, List.mapM_nil]
      exact Except.ok.injEq [] values ▸ eq_comm
  | cons part rest ih =>
      rw [List.mapM_cons]
      constructor
      · intro given
        obtain ⟨value, here, given⟩ := exists_of_bind_eq_ok given
        obtain ⟨others, later, given⟩ := exists_of_bind_eq_ok given
        cases given
        exact .cons here (ih.mp later)
      · rintro (_ | ⟨here, later⟩)
        rw [here, ih.mpr later]
        rfl

/-- Where one step gives what another one gives, changed, a list of them does. -/
theorem mapM_eq_ok_map {γ : Type} {step : α → Except ε β} {other : α → Except ε γ} {change : β → γ}
    (follows : ∀ part value, step part = .ok value → other part = .ok (change value))
    {parts : List α} {values : List β} (given : parts.mapM step = .ok values) :
    parts.mapM other = .ok (values.map change) := by
  rw [mapM_eq_ok_iff, List.forall₂_map_right_iff]
  exact (mapM_eq_ok_iff.mp given).imp follows

end

/-! ## Lines of a tree -/

namespace Outline

/-- A rule is one line, the nodes of it side by side; each default binding has a line of its own. -/
def Group.lines (group : Group) : List Text :=
  if group.name = "Context" then group.members.map fun shown : Text => "    " ++ shown
  else ["    : " ++ Text.intercalate " . " group.members]

def Entry.lines (entry : Entry) : List Text :=
  .ofString entry.name :: (entry.groups.flatMap Group.lines ++ [.ofString ""])

/-- A tree as lines. Its own name is left out. -/
def flatten (outline : Outline) : Text :=
  Text.intercalate "\n" (outline.entries.flatMap Entry.lines)

end Outline

/-- What a nonterminal is shown with: its rules, numbered from one, and its context if there is any. -/
def Nonterminal.groupNames (nonterminal : Nonterminal) : List String :=
  ((List.range' 1 nonterminal.rules.length).map fun number => "rule " ++ toString number) ++
    if nonterminal.defaults.isEmpty then [] else ["Context"]

theorem ruleName_ne (number : Nat) : "rule " ++ toString number ≠ "Context" := by
  intro same
  have first := congrArg (fun text => text.toList.head?) same
  rw [String.toList_append, List.head?_append] at first
  cases first

namespace Grammar

variable {grammar : Grammar}

/-- The rules of the tree are numbered without gaps and have the lines of the rules. -/
theorem outlineRules_eq_ok {number : Nat} {rules : List (List Node)} {groups : List Outline.Group}
    (shown : grammar.outlineRules number rules = .ok groups) :
    groups.map Outline.Group.name =
        (List.range' number rules.length).map (fun number => "rule " ++ toString number) ∧
      (rules.mapM fun rule =>
        (rule.mapM grammar.describe).map fun members =>
          "    : " ++ Text.intercalate " . " members) =
          .ok (groups.flatMap Outline.Group.lines) := by
  induction rules generalizing number groups with
  | nil =>
      cases shown
      exact ⟨rfl, rfl⟩
  | cons rule rest ih =>
      unfold outlineRules at shown
      obtain ⟨members, here, shown⟩ := exists_of_bind_eq_ok shown
      obtain ⟨others, later, shown⟩ := exists_of_bind_eq_ok shown
      cases shown
      obtain ⟨names, lines⟩ := ih later
      refine ⟨congrArg (fun names => ("rule " ++ toString number) :: names) names, ?_⟩
      rw [List.mapM_cons, here, lines, List.flatMap_cons, Outline.Group.lines,
        if_neg (ruleName_ne number)]
      rfl

theorem outlineContext_eq_ok {defaults : Table Value} {groups : List Outline.Group}
    (shown : outlineContext defaults = .ok groups) :
    groups.map Outline.Group.name = (if defaults.isEmpty then [] else ["Context"]) ∧
      (defaults.entries.mapM fun entry => (showBinding entry).map fun shown : Text => "    " ++ shown) =
        .ok (groups.flatMap Outline.Group.lines) := by
  unfold outlineContext at shown
  split at shown
  · rename_i none
    cases shown
    rw [if_pos none]
    exact ⟨rfl, by rw [List.isEmpty_iff.mp none]; rfl⟩
  · rename_i filled
    obtain ⟨members, given, rfl⟩ := exists_of_map_eq_ok shown
    rw [if_neg filled]
    refine ⟨rfl, ?_⟩
    rw [mapM_eq_ok_map (fun entry text shown => by rw [shown]; rfl) given, List.flatMap_singleton]
    rfl

/-- Whatever a nonterminal is shown as in the tree, it has the lines of that. -/
theorem entryLines_of_outlineEntry {nonterminal : Nonterminal} {entry : Outline.Entry}
    (shown : grammar.outlineEntry nonterminal = .ok entry) :
    nonterminal.header = .ok entry.name ∧
      entry.groups.map Outline.Group.name = nonterminal.groupNames ∧
      grammar.entryLines nonterminal = .ok entry.lines := by
  unfold outlineEntry at shown
  obtain ⟨rules, given, shown⟩ := exists_of_bind_eq_ok shown
  obtain ⟨context, bound, shown⟩ := exists_of_bind_eq_ok shown
  obtain ⟨name, header, shown⟩ := exists_of_bind_eq_ok shown
  cases shown
  obtain ⟨ruleNames, ruleLines⟩ := outlineRules_eq_ok given
  obtain ⟨contextNames, contextLines⟩ := outlineContext_eq_ok bound
  refine ⟨header, ?_, ?_⟩
  · rw [List.map_append, ruleNames, contextNames]
    rfl
  · rw [entryLines, header, ruleLines, contextLines, Outline.Entry.lines, List.flatMap_append]
    rfl

/-- The lines are those of the tree. -/
theorem dump_of_outline {tree : Outline} (shown : grammar.outline = .ok tree) :
    grammar.dump = .ok tree.flatten := by
  unfold outline at shown
  obtain ⟨entries, given, shown⟩ := exists_of_bind_eq_ok shown
  cases shown
  rw [dump, mapM_eq_ok_map (fun entry _ shown => (entryLines_of_outlineEntry shown).2.2) given,
    Outline.flatten, List.flatMap_def]
  rfl

/-- The nonterminals of the tree are those of the table, with their headers and rules. -/
theorem entries_of_outline {tree : Outline} (shown : grammar.outline = .ok tree) :
    tree.entries.map (fun shown => (.ok shown.name, shown.groups.map Outline.Group.name)) =
      grammar.table.entries.map fun entry => (entry.2.header, entry.2.groupNames) := by
  unfold outline at shown
  obtain ⟨entries, given, shown⟩ := exists_of_bind_eq_ok shown
  cases shown
  rw [← List.forall₂_eq_eq_eq, List.forall₂_map_left_iff, List.forall₂_map_right_iff]
  refine ((mapM_eq_ok_iff.mp given).imp fun entry shown made => ?_).flip
  obtain ⟨header, groups, _⟩ := entryLines_of_outlineEntry made
  exact Prod.ext header.symm groups

end Grammar

/-! ## What cannot be shown -/

/-- What a nonterminal is shown with, apart from its header. -/
inductive Part where
  | node (node : Node)
  | binding (entry : String × Value)

/-- The nodes of the rules from left to right, and then the default bindings. -/
def Nonterminal.parts (nonterminal : Nonterminal) : List Part :=
  nonterminal.rules.flatten.map .node ++ nonterminal.defaults.entries.map .binding

namespace Grammar

variable (grammar : Grammar)

def parts : List Part :=
  grammar.table.entries.flatMap fun entry => entry.2.parts

def showPart : Part → Except ShowFailure Text
  | .node node => grammar.describe node
  | .binding entry => showBinding entry

/-- A part cannot be shown for this reason, and all parts before it can. -/
def FailsFirst (failure : ShowFailure) : Prop :=
  ∃ before part after, grammar.parts = before ++ part :: after ∧
    (∀ earlier ∈ before, ∃ text, grammar.showPart earlier = .ok text) ∧
    grammar.showPart part = .error failure

/-- The first failure among parts. -/
def firstFailure? (parts : List Part) : Option ShowFailure :=
  parts.findSome? fun part => failure? (grammar.showPart part)

theorem failsFirst_iff {failure : ShowFailure} :
    grammar.FailsFirst failure ↔ grammar.firstFailure? grammar.parts = some failure := by
  simp only [FailsFirst, firstFailure?, List.findSome?_eq_some_iff, failure?_eq_some_iff,
    failure?_eq_none_iff]
  constructor
  · rintro ⟨before, part, after, whole, shown, fails⟩
    exact ⟨before, part, after, whole, fails, shown⟩
  · rintro ⟨before, part, after, whole, fails, shown⟩
    exact ⟨before, part, after, whole, shown, fails⟩

theorem firstFailure?_append (first second : List Part) :
    grammar.firstFailure? (first ++ second) =
      (grammar.firstFailure? first).or (grammar.firstFailure? second) :=
  List.findSome?_append

theorem firstFailure?_rule (rule : List Node) :
    failure? (rule.mapM grammar.describe) = grammar.firstFailure? (rule.map .node) := by
  rw [failure?_mapM, firstFailure?, List.findSome?_map]
  rfl

theorem firstFailure?_rules {β : Type} {step : List Node → Except ShowFailure β}
    (shows : ∀ rule, failure? (step rule) = failure? (rule.mapM grammar.describe))
    (rules : List (List Node)) :
    failure? (rules.mapM step) = grammar.firstFailure? (rules.flatten.map .node) := by
  rw [failure?_mapM]
  induction rules with
  | nil => rfl
  | cons rule rest ih =>
      rw [List.findSome?_cons, List.flatten_cons, List.map_append, firstFailure?_append, ← ih,
        ← firstFailure?_rule, shows]
      cases failure? (rule.mapM grammar.describe) <;> rfl

theorem failure?_outlineRules (number : Nat) (rules : List (List Node)) :
    failure? (grammar.outlineRules number rules) =
      grammar.firstFailure? (rules.flatten.map .node) := by
  induction rules generalizing number with
  | nil => rfl
  | cons rule rest ih =>
      rw [outlineRules, List.flatten_cons, List.map_append, firstFailure?_append,
        ← firstFailure?_rule]
      refine failure?_bind fun members => ?_
      rw [failure?_bind fun _ => failure?_pure _, Option.or_none, ih]

theorem failure?_bindings {β : Type} {step : String × Value → Except ShowFailure β}
    (shows : ∀ entry, failure? (step entry) = failure? (showBinding entry))
    (entries : List (String × Value)) :
    failure? (entries.mapM step) = grammar.firstFailure? (entries.map .binding) := by
  rw [failure?_mapM, firstFailure?, List.findSome?_map]
  exact congrArg (List.findSome? · entries) (funext shows)

theorem failure?_outlineContext (defaults : Table Value) :
    failure? (outlineContext defaults) =
      grammar.firstFailure? (defaults.entries.map .binding) := by
  unfold outlineContext
  split
  · rename_i none
    rw [List.isEmpty_iff.mp none]
    rfl
  · rw [failure?_map]
    exact grammar.failure?_bindings (fun _ => rfl) defaults.entries

/-- In the tree the header comes after all parts. -/
theorem failure?_outlineEntry (nonterminal : Nonterminal) :
    failure? (grammar.outlineEntry nonterminal) =
      (grammar.firstFailure? nonterminal.parts).or (failure? nonterminal.header) := by
  rw [Nonterminal.parts, firstFailure?_append, Option.or_assoc, ← failure?_outlineRules,
    ← failure?_outlineContext]
  refine failure?_bind fun rules => failure?_bind fun context => ?_
  rw [failure?_bind fun _ => failure?_pure _, Option.or_none]

/-- In the lines the header comes before all parts. -/
theorem failure?_entryLines (nonterminal : Nonterminal) :
    failure? (grammar.entryLines nonterminal) =
      (failure? nonterminal.header).or (grammar.firstFailure? nonterminal.parts) := by
  rw [Nonterminal.parts, firstFailure?_append, ← firstFailure?_rules grammar (fun _ => failure?_map _ _),
    ← failure?_bindings grammar (fun _ => failure?_map _ _)]
  refine failure?_bind fun header => failure?_bind fun rules => ?_
  rw [failure?_bind fun _ => failure?_pure _, Option.or_none]

theorem failure?_outline :
    failure? grammar.outline = grammar.table.entries.findSome? fun entry =>
      (grammar.firstFailure? entry.2.parts).or (failure? entry.2.header) := by
  rw [outline, failure?_bind fun _ => failure?_pure _, Option.or_none, failure?_mapM]
  simp only [failure?_outlineEntry]

theorem failure?_dump :
    failure? grammar.dump = grammar.table.entries.findSome? fun entry =>
      (failure? entry.2.header).or (grammar.firstFailure? entry.2.parts) := by
  rw [dump, failure?_bind fun _ => failure?_pure _, Option.or_none, failure?_mapM]
  simp only [failure?_entryLines]

/-- Nothing fails in one order of showing if nothing fails in the other. -/
theorem failure?_outline_eq_none_iff :
    failure? grammar.outline = none ↔ failure? grammar.dump = none := by
  simp only [failure?_outline, failure?_dump, List.findSome?_eq_none_iff, Option.or_eq_none_iff]
  exact forall₂_congr fun _ _ => and_comm

/-- With all headers written, only the parts are left to fail. -/
theorem failure?_eq_firstFailure?
    (headers : ∀ entry ∈ grammar.table.entries, ∃ header, entry.2.header = .ok header) :
    failure? grammar.outline = grammar.firstFailure? grammar.parts ∧
      failure? grammar.dump = grammar.firstFailure? grammar.parts := by
  rw [failure?_outline, failure?_dump, parts]
  generalize grammar.table.entries = entries at headers
  induction entries with
  | nil => exact ⟨rfl, rfl⟩
  | cons entry rest ih =>
      have written : failure? entry.2.header = none :=
        failure?_eq_none_iff.mpr (headers entry (.head _))
      obtain ⟨tree, lines⟩ := ih fun other later => headers other (.tail _ later)
      rw [List.findSome?_cons, List.findSome?_cons, List.flatMap_cons, firstFailure?_append,
        written, Option.or_none, Option.none_or, tree, lines]
      cases grammar.firstFailure? entry.2.parts <;> exact ⟨rfl, rfl⟩

/--
A grammar has lines exactly if it has a tree, and these are the lines of the
tree, in which every nonterminal of the table has its header, its rules under
their numbers, and its context if there is any. If all headers can be written,
both fail at the same part, the first one that cannot be shown, and for the same
reason.
-/
theorem dump_flattens (grammar : Grammar) :
    (∀ text, grammar.dump = .ok text ↔ ∃ tree, grammar.outline = .ok tree ∧ tree.flatten = text) ∧
    (∀ tree, grammar.outline = .ok tree →
      tree.entries.map (fun shown => (.ok shown.name, shown.groups.map Outline.Group.name)) =
        grammar.table.entries.map fun entry => (entry.2.header, entry.2.groupNames)) ∧
    ((∀ entry ∈ grammar.table.entries, ∃ header, entry.2.header = .ok header) →
      ∀ failure, (grammar.outline = .error failure ↔ grammar.FailsFirst failure) ∧
        (grammar.dump = .error failure ↔ grammar.FailsFirst failure)) := by
  refine ⟨fun text => ⟨fun written => ?_, ?_⟩, fun tree => entries_of_outline,
    fun headers failure => ?_⟩
  · have complete : failure? grammar.outline = none := by
      rw [failure?_outline_eq_none_iff, written]
      rfl
    obtain ⟨tree, shown⟩ := failure?_eq_none_iff.mp complete
    have same := dump_of_outline shown
    rw [written] at same
    exact ⟨tree, shown, (Except.ok.inj same).symm⟩
  · rintro ⟨tree, shown, rfl⟩
    exact dump_of_outline shown
  · obtain ⟨tree, lines⟩ := grammar.failure?_eq_firstFailure? headers
    rw [failsFirst_iff, ← failure?_eq_some_iff, ← failure?_eq_some_iff, tree, lines]
    exact ⟨.rfl, .rfl⟩

/-- Nonterminals that are named like parts of a tree, one of them without rules. -/
def lookalikes : Grammar where
  table := .ofList [
    ("Context", ⟨"Context", [[.leaf (.constant "String" "a"), .symbol "rule 1"], []],
      .ofList [("v", .text "it's"), ("w", .integer 7)], some 8⟩),
    ("rule 1", ⟨"rule 1", [[.unresolved "B"]], .empty, none⟩),
    ("Z", ⟨"Z", [], .empty, none⟩)]
  start := none

def lookalikeLines : String :=
  "Context#8\n    : String(a) . rule 1\n    : \n    v = \"it's\"\n    w = 7\n\n" ++
    "rule 1\n    : B?\n\nZ\n"

/-- A text that is no node stands in front of an integer that is too long to be written. -/
def torn : Grammar where
  table := .ofList [
    ("S", ⟨"S", [[.unresolved "S"], [.stray "x", .stray "y"]],
      .ofList [("v", .integer (Nat.pow 10 Numeral.digitLimit))], none⟩)]
  start := some "S"

theorem dump_flattens_lookalikes :
    (∃ tree, lookalikes.outline = .ok tree ∧ tree.flatten = lookalikeLines ∧
      tree.entries.map (fun shown => (.ok shown.name, shown.groups.map Outline.Group.name)) =
        [((.ok "Context#8" : Except ShowFailure String), ["rule 1", "rule 2", "Context"]),
          (.ok "rule 1", ["rule 1"]), (.ok "Z", [])]) ∧
    torn.outline = .error (.unknownNode "x") ∧ torn.dump = .error (.unknownNode "x") := by
  have written : lookalikes.dump = .ok lookalikeLines := by decide +kernel
  obtain ⟨lines, entries, _⟩ := dump_flattens lookalikes
  obtain ⟨tree, shown, flat⟩ := (lines _).mp written
  have headers : ∀ entry ∈ torn.table.entries, ∃ header, entry.2.header = .ok header :=
    List.forall_mem_singleton.mpr ⟨"S", rfl⟩
  have first : torn.FailsFirst (.unknownNode "x") :=
    ⟨[.node (.unresolved "S")], .node (.stray "x"), _, rfl,
      List.forall_mem_singleton.mpr ⟨"S?", rfl⟩, rfl⟩
  obtain ⟨left, right⟩ := (dump_flattens torn).2.2 headers (.unknownNode "x")
  exact ⟨⟨tree, shown, flat, (entries tree shown).trans (by decide +kernel)⟩, left.mpr first,
    right.mpr first⟩

end Grammar

end PhraseGrammar
