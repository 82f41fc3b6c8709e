import PhraseGrammar.Grammar.Linking

/-!
# Complete links

When linking meets no unknown name, it replaces every bare name by the symbol
of that name, finds all of them in the table, and changes nothing else. It fails
for an unknown name only.
-/

namespace PhraseGrammar

namespace Linked

variable {α : Type}

/-- If no part fails, every part is linked. -/
theorem result_list {link : α → Linked α} {parts : List α}
    (complete : (list link parts).failure = none) :
    (list link parts).result = parts.map fun part => (link part).result := by
  induction parts with
  | nil => rfl
  | cons part rest ih =>
      simp only [list] at complete ⊢
      split at complete
      · cases complete
      · exact congrArg _ (ih complete)

/-- Linking that leaves every part alone leaves all of them alone. -/
theorem list_eq_self {link : α → Linked α} {parts : List α}
    (fixed : ∀ part ∈ parts, link part = ⟨part, 0, none⟩) : list link parts = ⟨parts, 0, none⟩ := by
  induction parts with
  | nil => rfl
  | cons part rest ih =>
      rw [list, fixed part (.head _), ih fun later member => fixed later (.tail _ member)]
      rfl

/-- Linking a list fails as one of its parts does. -/
theorem exists_of_list_failure {link : α → Linked α} {parts : List α} {cause : Cause}
    (failed : (list link parts).failure = some cause) :
    ∃ part ∈ parts, (link part).failure = some cause := by
  induction parts with
  | nil => cases failed
  | cons first rest ih =>
      simp only [list] at failed
      split at failed
      · rename_i other found
        exact ⟨first, List.mem_cons_self, found.trans failed⟩
      · obtain ⟨part, member, found⟩ := ih failed
        exact ⟨part, .tail _ member, found⟩

theorem failure_of_mem_list {link : α → Linked α} {parts : List α}
    (complete : (list link parts).failure = none) {part : α} (member : part ∈ parts) :
    (link part).failure = none := by
  induction parts with
  | nil => cases member
  | cons first rest ih =>
      simp only [list] at complete
      split at complete
      · cases complete
      · rename_i linked
        rcases List.mem_cons.mp member with rfl | later
        · exact linked
        · exact ih complete later

end Linked

theorem Nonterminal.result_link {keys : List String} {nonterminal : Nonterminal}
    (complete : (nonterminal.link keys).failure = none) :
    (nonterminal.link keys).result =
      { nonterminal with
        rules := nonterminal.rules.map fun rule =>
          rule.map fun node => (node.link keys nonterminal.name).result } := by
  have rules := Linked.result_list complete
  simp only [Nonterminal.link, Linked.map, Nonterminal.mk.injEq, true_and, and_true]
  rw [rules]
  apply List.map_congr_left
  intro rule member
  exact Linked.result_list (Linked.failure_of_mem_list complete member)

theorem Nonterminal.failure_node {keys : List String} {nonterminal : Nonterminal}
    (complete : (nonterminal.link keys).failure = none) {rule : List Node}
    (chosen : rule ∈ nonterminal.rules) {node : Node} (member : node ∈ rule) :
    (node.link keys nonterminal.name).failure = none :=
  Linked.failure_of_mem_list (Linked.failure_of_mem_list complete chosen) member

namespace Grammar

theorem get?_link {grammar : Grammar} (complete : grammar.link.failure = none) (key : String) :
    grammar.link.result.get? key =
      (grammar.get? key).map fun nonterminal => (nonterminal.link grammar.table.keys).result := by
  have linked := Linked.result_list complete
  change Table.findEntry key
    (Linked.list (linkEntry grammar.table.keys) grammar.table.entries).result = _
  rw [linked]
  exact Table.findEntry_map
    (fun nonterminal : Nonterminal => (nonterminal.link grammar.table.keys).result) key _

theorem failure_nonterminal {grammar : Grammar} (complete : grammar.link.failure = none)
    {key : String} {nonterminal : Nonterminal} (declared : grammar.get? key = some nonterminal) :
    (nonterminal.link grammar.table.keys).failure = none :=
  Linked.failure_of_mem_list complete (Table.mem_entries_of_get? declared)

/-- There is nothing to link in a grammar without bare names. -/
theorem link_eq_self {grammar : Grammar} (settled : ∀ entry ∈ grammar.table.entries,
    ∀ rule ∈ entry.2.rules, ∀ ref, .unresolved ref ∉ rule) : grammar.link = ⟨grammar, 0, none⟩ := by
  have entries : Linked.list (linkEntry grammar.table.keys) grammar.table.entries =
      ⟨grammar.table.entries, 0, none⟩ := by
    refine Linked.list_eq_self fun entry member => ?_
    have rules : Linked.list (Linked.list (Node.link grammar.table.keys entry.2.name))
        entry.2.rules = ⟨entry.2.rules, 0, none⟩ := by
      refine Linked.list_eq_self fun rule chosen => Linked.list_eq_self fun node inside => ?_
      cases node with
      | unresolved ref => exact absurd inside (settled entry member rule chosen ref)
      | _ => rfl
    rw [linkEntry, Nonterminal.link, rules]
    rfl
  simp only [link, entries]

/-- Only an unknown name makes linking fail. -/
theorem unknownReference_of_link {grammar : Grammar} {cause : Cause}
    (failed : grammar.link.failure = some cause) :
    ∃ ref name, cause = .unknownReference ref name := by
  obtain ⟨entry, _, rules⟩ := Linked.exists_of_list_failure failed
  obtain ⟨rule, _, nodes⟩ := Linked.exists_of_list_failure rules
  obtain ⟨node, _, found⟩ := Linked.exists_of_list_failure nodes
  cases node with
  | unresolved ref =>
      simp only [Node.link] at found
      split at found
      · cases found
      · cases found
        exact ⟨ref, _, rfl⟩
  | leaf leaf => cases found
  | symbol key => cases found
  | stray text => cases found

theorem keys_link (grammar : Grammar) : grammar.link.result.table.keys = grammar.table.keys :=
  map_fst_list_linkEntry _ _

end Grammar

end PhraseGrammar
