import PhraseGrammar.Proofs.Grammar.Linking

/-!
# The first unknown name

Linking comes upon the bare names in the order of table, rules and places. It
replaces all of them if the table holds them all. Otherwise it stops at the
first name that the table does not hold: what is before it is linked, and the
rest is as it was.
-/

namespace PhraseGrammar

namespace Linked

variable {α : Type}

/--
Linking of a part either links it, which takes that its names are known, or
fails for a cause and leaves something behind.
-/
def Decides (link : α → Linked α) (known : α → Prop) (linked : α → α)
    (stops : α → Cause → α → Prop) (part : α) : Prop :=
  (known part ∧ (link part).failure = none ∧ (link part).result = linked part) ∨
    ∃ cause, (link part).failure = some cause ∧ stops part cause (link part).result

/-- Linking of a list stops at the first part where linking stops; the parts behind it stay. -/
def StopsIn (known : α → Prop) (linked : α → α) (stops : α → Cause → α → Prop) (parts : List α)
    (cause : Cause) (reached : List α) : Prop :=
  ∃ before part after left, parts = before ++ part :: after ∧ (∀ earlier ∈ before, known earlier) ∧
    stops part cause left ∧ reached = before.map linked ++ left :: after

/-- What is decided for the parts is decided for the list of them. -/
theorem Decides.list {link : α → Linked α} {known : α → Prop} {linked : α → α}
    {stops : α → Cause → α → Prop} (each : ∀ part, Decides link known linked stops part)
    (parts : List α) :
    Decides (list link) (fun parts => ∀ part ∈ parts, known part) (List.map linked)
      (StopsIn known linked stops) parts := by
  induction parts with
  | nil => exact .inl ⟨nofun, rfl, rfl⟩
  | cons first rest ih =>
      rcases each first with ⟨here, complete, result⟩ | ⟨cause, failed, stopped⟩
      · have further : Linked.list link (first :: rest) =
            ⟨linked first :: (Linked.list link rest).result,
              (link first).count + (Linked.list link rest).count,
              (Linked.list link rest).failure⟩ := by
          simp only [Linked.list, complete, result]
        unfold Decides
        rw [further]
        rcases ih with ⟨all, none, results⟩ |
          ⟨cause, failed, before, part, after, left, rfl, earlier, stopped, results⟩
        · exact .inl ⟨List.forall_mem_cons.mpr ⟨here, all⟩, none, congrArg _ results⟩
        · exact .inr ⟨cause, failed, first :: before, part, after, left, rfl,
            List.forall_mem_cons.mpr ⟨here, earlier⟩, stopped, congrArg _ results⟩
      · refine .inr ⟨cause, ?_, [], first, rest, (link first).result, rfl, nofun, stopped, ?_⟩ <;>
          simp only [Linked.list, failed]
        rfl

end Linked

namespace Node

/-- A bare name as the symbol of that name. -/
def linked : Node → Node
  | .unresolved ref => .symbol ref
  | other => other

/-- A bare name that is not among the keys. -/
def Dangles (keys : List String) (node : Node) : Prop :=
  ∃ ref, node = .unresolved ref ∧ ref ∉ keys

/-- A node is linked, or it is a bare name that dangles and stays. -/
theorem decides_link (keys : List String) (owner : String) (node : Node) :
    Linked.Decides (link keys owner) (fun node => ¬node.Dangles keys) linked
      (fun node cause left => ∃ ref, node = .unresolved ref ∧ ref ∉ keys ∧
        cause = .unknownReference ref owner ∧ left = node) node := by
  cases node with
  | leaf leaf => exact .inl ⟨nofun, rfl, rfl⟩
  | symbol key => exact .inl ⟨nofun, rfl, rfl⟩
  | stray text => exact .inl ⟨nofun, rfl, rfl⟩
  | unresolved ref =>
      by_cases known : ref ∈ keys
      · have found : link keys owner (.unresolved ref) = ⟨.symbol ref, 1, none⟩ := if_pos known
        refine .inl ⟨?_, congrArg Linked.failure found, congrArg Linked.result found⟩
        rintro ⟨other, same, unknown⟩
        cases same
        exact unknown known
      · have stays : link keys owner (.unresolved ref) =
            ⟨.unresolved ref, 0, some (.unknownReference ref owner)⟩ := if_neg known
        exact .inr ⟨_, congrArg Linked.failure stays, ref, rfl, known, rfl,
          congrArg Linked.result stays⟩

end Node

namespace Nonterminal

/-- All bare names in the rules as symbols. -/
def linked (nonterminal : Nonterminal) : Nonterminal :=
  { nonterminal with rules := nonterminal.rules.map (·.map Node.linked) }

/-- No bare name in the rules dangles. -/
def Known (keys : List String) (nonterminal : Nonterminal) : Prop :=
  ∀ rule ∈ nonterminal.rules, ∀ node ∈ rule, ¬node.Dangles keys

/-- The first place in the rules where a bare name dangles: what is before it, and what behind. -/
structure Stop (keys : List String) (nonterminal : Nonterminal) where
  earlier : List (List Node)
  before : List Node
  ref : String
  after : List Node
  later : List (List Node)
  whole : nonterminal.rules = earlier ++ (before ++ .unresolved ref :: after) :: later
  unknown : ref ∉ keys
  known_earlier : ∀ rule ∈ earlier, ∀ node ∈ rule, ¬node.Dangles keys
  known_before : ∀ node ∈ before, ¬node.Dangles keys

/-- The nonterminal with the bare names before that place as symbols. -/
def Stop.linked {keys : List String} {nonterminal : Nonterminal} (stop : nonterminal.Stop keys) :
    Nonterminal :=
  { nonterminal with
    rules := stop.earlier.map (·.map Node.linked) ++
      (stop.before.map Node.linked ++ .unresolved stop.ref :: stop.after) :: stop.later }

/-- A nonterminal is linked, or linking stops at the first place where a bare name dangles. -/
theorem link_cases (keys : List String) (nonterminal : Nonterminal) :
    (nonterminal.Known keys ∧ (nonterminal.link keys).failure = none ∧
        (nonterminal.link keys).result = nonterminal.linked) ∨
      ∃ stop : nonterminal.Stop keys,
        (nonterminal.link keys).failure = some (.unknownReference stop.ref nonterminal.name) ∧
          (nonterminal.link keys).result = stop.linked := by
  unfold link Linked.map
  rcases Linked.Decides.list (Linked.Decides.list (Node.decides_link keys nonterminal.name))
    nonterminal.rules with ⟨known, complete, result⟩ | ⟨cause, failed, earlier, rule, later, reached,
    whole, known, ⟨before, node, after, left, rfl, first, ⟨ref, rfl, unknown, rfl, rfl⟩, rfl⟩, result⟩
  · refine .inl ⟨known, complete, ?_⟩
    simp only [result]
    rfl
  · refine .inr ⟨⟨earlier, before, ref, after, later, whole, unknown, known, first⟩, failed, ?_⟩
    simp only [result]
    rfl

end Nonterminal

namespace Grammar

/-- All bare names in the rules of the table as symbols. -/
def linked (grammar : Grammar) : Grammar :=
  { grammar with table := grammar.table.map Nonterminal.linked }

/-- A bare name in a rule of the table that the table does not hold. -/
def Dangles (grammar : Grammar) (ref : String) : Prop :=
  ref ∉ grammar.table.keys ∧
    ∃ entry ∈ grammar.table.entries, ∃ rule ∈ entry.2.rules, .unresolved ref ∈ rule

/-- The first place, in the order of table, rules and places, where a bare name dangles. -/
structure Stop (grammar : Grammar) where
  earlier : List (String × Nonterminal)
  key : String
  owner : Nonterminal
  later : List (String × Nonterminal)
  whole : grammar.table.entries = earlier ++ (key, owner) :: later
  known_earlier : ∀ entry ∈ earlier, entry.2.Known grammar.table.keys
  within : owner.Stop grammar.table.keys

/-- The entries of the table with the bare names before that place as symbols. -/
def Stop.linked {grammar : Grammar} (stop : grammar.Stop) : List (String × Nonterminal) :=
  stop.earlier.map (fun entry => (entry.1, entry.2.linked)) ++
    (stop.key, stop.within.linked) :: stop.later

theorem decides_linkEntry (keys : List String) (entry : String × Nonterminal) :
    Linked.Decides (linkEntry keys) (fun entry => entry.2.Known keys)
      (fun entry => (entry.1, entry.2.linked))
      (fun entry cause left => ∃ stop : entry.2.Stop keys,
        cause = .unknownReference stop.ref entry.2.name ∧ left = (entry.1, stop.linked)) entry := by
  rcases entry.2.link_cases keys with ⟨known, complete, result⟩ | ⟨stop, failed, result⟩
  · exact .inl ⟨known, complete, congrArg (Prod.mk entry.1) result⟩
  · exact .inr ⟨_, failed, stop, rfl, congrArg (Prod.mk entry.1) result⟩

/-- A grammar is linked, or linking stops at the first place where a bare name dangles. -/
theorem link_cases (grammar : Grammar) :
    ((∀ entry ∈ grammar.table.entries, entry.2.Known grammar.table.keys) ∧
        grammar.link.failure = none ∧ grammar.link.result = grammar.linked) ∨
      ∃ stop : grammar.Stop,
        grammar.link.failure = some (.unknownReference stop.within.ref stop.owner.name) ∧
          grammar.link.result.table.entries = stop.linked := by
  rcases Linked.Decides.list (decides_linkEntry grammar.table.keys) grammar.table.entries with
    ⟨known, complete, result⟩ | ⟨cause, failed, earlier, ⟨key, owner⟩, later, left, whole, known,
      ⟨stop, rfl, rfl⟩, result⟩
  · refine .inl ⟨known, complete, ?_⟩
    have table : grammar.link.result.table = grammar.linked.table := Table.ext_entries result
    exact congrArg (fun table : Table Nonterminal => { grammar with table }) table
  · exact .inr ⟨⟨earlier, key, owner, later, whole, known, stop⟩, failed, result⟩

/-- Linking succeeds exactly if no bare name dangles. -/
theorem failure_link_eq_none_iff {grammar : Grammar} :
    grammar.link.failure = none ↔ ∀ ref, ¬grammar.Dangles ref := by
  rcases grammar.link_cases with ⟨known, complete, _⟩ | ⟨stop, failed, _⟩
  · refine ⟨?_, fun _ => complete⟩
    rintro _ ref ⟨unknown, entry, member, rule, chosen, inside⟩
    exact known entry member rule chosen _ inside ⟨ref, rfl, unknown⟩
  · rw [failed]
    refine ⟨nofun, fun none => absurd ?_ (none stop.within.ref)⟩
    obtain ⟨earlier, key, owner, later, whole, _, rules, before, ref, after, further, cut, unknown,
      _, _⟩ := stop
    refine ⟨unknown, (key, owner), ?_, before ++ .unresolved ref :: after, ?_, ?_⟩
    · rw [whole]
      exact List.mem_append_right _ (.head _)
    · rw [cut]
      exact List.mem_append_right _ (.head _)
    · exact List.mem_append_right _ (.head _)

end Grammar

end PhraseGrammar
