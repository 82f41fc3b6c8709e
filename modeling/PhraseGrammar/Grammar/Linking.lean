import PhraseGrammar.Error
import PhraseGrammar.Grammar.Basic

/-!
# Linking

Every bare name in the rules is replaced by the nonterminal that the table
holds under it. Linking stops at the first name, in the order of table, rules
and places, that the table does not hold; what was replaced before stays
replaced.
-/

namespace PhraseGrammar

/-- The result of linking a part of a grammar. -/
structure Linked (α : Type) where
  /-- The part with the names before the first unknown one replaced. -/
  result : α
  /-- The number of names replaced. -/
  count : Nat
  /-- The first unknown name, if there is one. -/
  failure : Option Cause
  deriving Repr

namespace Linked

variable {α β : Type}

/-- Linking one part after the other; a failure leaves all later parts alone. -/
def list (link : α → Linked α) : List α → Linked (List α)
  | [] => ⟨[], 0, none⟩
  | part :: rest =>
      let first := link part
      match first.failure with
      | some cause => ⟨first.result :: rest, first.count, some cause⟩
      | none =>
          let others := list link rest
          ⟨first.result :: others.result, first.count + others.count, others.failure⟩

def map (change : α → β) (linked : Linked α) : Linked β :=
  ⟨change linked.result, linked.count, linked.failure⟩

end Linked

/-- A name that the keys hold becomes a symbol; `owner` names the rule's nonterminal. -/
def Node.link (keys : List String) (owner : String) : Node → Linked Node
  | .unresolved ref =>
      if ref ∈ keys then ⟨.symbol ref, 1, none⟩
      else ⟨.unresolved ref, 0, some (.unknownReference ref owner)⟩
  | other => ⟨other, 0, none⟩

def Nonterminal.link (keys : List String) (nonterminal : Nonterminal) : Linked Nonterminal :=
  (Linked.list (Linked.list (Node.link keys nonterminal.name)) nonterminal.rules).map
    fun rules => { nonterminal with rules }

/-- An entry of the table keeps its key. -/
def linkEntry (keys : List String) (entry : String × Nonterminal) :
    Linked (String × Nonterminal) :=
  (entry.2.link keys).map fun nonterminal => (entry.1, nonterminal)

theorem map_fst_list_linkEntry (keys : List String) (entries : List (String × Nonterminal)) :
    (Linked.list (linkEntry keys) entries).result.map Prod.fst = entries.map Prod.fst := by
  induction entries with
  | nil => rfl
  | cons entry rest ih =>
      simp only [Linked.list]
      split
      · rfl
      · simpa [linkEntry, Linked.map] using ih

namespace Grammar

def link (grammar : Grammar) : Linked Grammar :=
  let linked := Linked.list (linkEntry grammar.table.keys) grammar.table.entries
  { result :=
      { grammar with
        table :=
          { entries := linked.result
            nodup := (map_fst_list_linkEntry _ _).symm ▸ grammar.table.nodup } }
    count := linked.count
    failure := linked.failure }

end Grammar

end PhraseGrammar
