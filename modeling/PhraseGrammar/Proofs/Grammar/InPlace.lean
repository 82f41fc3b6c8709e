import Mathlib.Data.List.Nodup
import PhraseGrammar.Proofs.Grammar.Store
import PhraseGrammar.Proofs.Grammar.Unknown

/-!
# Exact linking

Linking is complete, minimal and ordered, for grammars and for grammars in
memory. A memory shows a grammar; if no rule of it is in two places, linking in
memory does to the grammar what linking the grammar comes to.
-/

namespace PhraseGrammar

namespace Store

/-- An item as a node, the nonterminal at an address being called by a name. -/
def Item.shown (naming : Nat → String) : Item → Node
  | .leaf constant => .leaf constant
  | .nonterminal address => .symbol (naming address)
  | .unresolved ref => .unresolved ref
  | .stray text => .stray text

def shownRule (store : Store) (naming : Nat → String) (address : Nat) : List Node :=
  (store.rules.getD address []).map (Item.shown naming)

def shownEntity (store : Store) (naming : Nat → String) (address : Nat) : Nonterminal :=
  match store.entities[address]? with
  | some entity =>
      ⟨entity.name, entity.rules.map (store.shownRule naming), entity.defaults, entity.depthHint⟩
  | none => ⟨"", [], .empty, none⟩

/-- The grammar that a memory holds. -/
def shown (store : Store) (naming : Nat → String) : Grammar where
  table := store.table.map (store.shownEntity naming)
  start := store.start

/-- The addresses of the rules of the nonterminal at an address. -/
def rulesOf (store : Store) (address : Nat) : List Nat :=
  (store.entities[address]?).elim [] Entity.rules

/-- No rule is in two places, and nonterminals are called by their keys. -/
structure Separate (store : Store) (naming : Nat → String) : Prop where
  rules : (store.table.entries.flatMap fun entry => store.rulesOf entry.2).Nodup
  named : ∀ key address, store.table.get? key = some address → naming address = key

/-- A step does to what is read what linking it comes to. -/
structure Performs {α : Type} (read : Store → α) (linked : Linked α)
    (reached : EStateM.Result Cause Store Unit) : Prop where
  result : read (after reached) = linked.result
  failure : cause? reached = linked.failure

section Loops

variable {ι α : Type} {base : Store} {action : ι → Action} {parts : List ι}

/-- What no turn of a loop changes, the loop does not change. -/
theorem read_forM {read : Store → α}
    (shape : ∀ part store, Alike store (after (action part store)))
    (keeps : ∀ part ∈ parts, ∀ store, Alike base store → read (after (action part store)) = read store)
    {store : Store} (alike : Alike base store) :
    read (after (parts.forM action store)) = read store := by
  induction parts generalizing store with
  | nil => rfl
  | cons first rest ih =>
      have here := keeps first (.head _) store alike
      have next := shape first store
      rw [forM_cons]
      cases ran : action first store with
      | error cause reached =>
          rw [ran] at here
          exact here
      | ok done reached =>
          rw [ran] at here next
          exact (ih (fun part member => keeps part (.tail _ member)) (alike.trans next)).trans here

/-- A loop over parts that do not interfere links all that is read of them. -/
theorem performs_forM (base : Store) (action : ι → Action) (parts : List ι)
    (read : ι → Store → α) (step : α → Linked α)
    (shape : ∀ part store, Alike store (after (action part store)))
    (performs : ∀ part ∈ parts, ∀ store, Alike base store →
      Performs (read part) (step (read part store)) (action part store))
    (apart : parts.Pairwise fun part other => ∀ store, Alike base store →
      read other (after (action part store)) = read other store ∧
        read part (after (action other store)) = read part store)
    {store : Store} (alike : Alike base store) :
    Performs (fun store => parts.map (read · store)) (Linked.list step (parts.map (read · store)))
      (parts.forM action store) := by
  induction parts generalizing store with
  | nil => exact ⟨rfl, rfl⟩
  | cons first rest ih =>
      obtain ⟨others, further⟩ := List.pairwise_cons.mp apart
      have here := performs first (.head _) store alike
      have next := shape first store
      have kept : rest.map (read · (after (action first store))) = rest.map (read · store) :=
        List.map_congr_left fun other member => (others other member store alike).1
      rw [forM_cons, List.map_cons, Linked.list]
      cases ran : action first store with
      | error cause reached =>
          rw [ran] at here kept
          rw [← here.failure]
          exact ⟨congr (congrArg List.cons here.result) kept, rfl⟩
      | ok done reached =>
          rw [ran] at here next kept
          have within := alike.trans next
          have stays : read first (after (rest.forM action reached)) = read first reached :=
            read_forM shape (fun other member store alike => (others other member store alike).2) within
          have tail := ih (fun part member => performs part (.tail _ member)) further within
          rw [kept] at tail
          rw [← here.failure]
          exact ⟨congr (congrArg List.cons (stays.trans here.result)) tail.result, tail.failure⟩

end Loops

/-! ## Linking what a memory shows -/

variable {base : Store} {naming : Nat → String}

/-- The node that a memory shows in a cell. -/
def shownCell (naming : Nat → String) (cell : Cell) (store : Store) : Node :=
  ((store.item? cell).map (Item.shown naming)).getD (.stray "")

/-- One step writes to its cell, or to none. -/
theorem after_linkPlace (place : Place) (store : Store) :
    after (linkPlace place store) = store ∨
      ∃ item, after (linkPlace place store) = store.write place.cell item := by
  unfold linkPlace
  split
  · split
    · exact .inr ⟨_, rfl⟩
    · exact .inl rfl
  · exact .inl rfl

theorem shape_place (place : Place) (store : Store) :
    Alike store (after (linkPlace place store)) := by
  rcases after_linkPlace place store with same | ⟨item, written⟩
  · rw [same]
    exact .refl store
  · rw [written]
    exact alike_write store place.cell item

theorem shape_rule (owner : String) (address : Nat) (store : Store) :
    Alike store (after (linkRule owner address store)) :=
  alike_places store (store.rulePlaces owner address)

theorem shape_entity (address : Nat) (store : Store) :
    Alike store (after (linkEntity address store)) := by
  rw [linkEntity_eq]
  exact alike_places store (store.entityPlaces address)

theorem shownRule_eq (naming : Nat → String) (owner : String) (address : Nat) (store : Store) :
    store.shownRule naming address =
      (store.rulePlaces owner address).map fun place => shownCell naming place.cell store := by
  have each (rule : List Item) : rule.map (Item.shown naming) =
      (List.range rule.length).map fun position =>
        ((rule[position]?).map (Item.shown naming)).getD (.stray "") := by
    refine List.ext_getElem (by simp) fun position here _ => ?_
    have within : position < rule.length := by simpa using here
    simp [within]
  rw [rulePlaces, List.map_map]
  exact each _

theorem shownRule_linkedAt {store : Store} {cells : List Cell} {address : Nat}
    (outside : ∀ cell ∈ cells, cell.1 ≠ address) :
    (store.linkedAt cells).shownRule naming address = store.shownRule naming address := by
  have same : (store.linkedAt cells).rules.getD address [] = store.rules.getD address [] := by
    refine List.ext_getElem? fun position => ?_
    have untouched : (address, position) ∉ cells := fun member => outside _ member rfl
    have item := item?_linkedAt store cells (address, position)
    simp only [if_neg untouched, Option.map_id'] at item
    exact item
  rw [shownRule, shownRule, same]

/-- Linking the rule at an address leaves the other rules alone. -/
theorem shownRule_after_rule {owner : String} {address other : Nat} (apart : address ≠ other)
    (store : Store) : (after (linkRule owner address store)).shownRule naming other =
      store.shownRule naming other := by
  obtain ⟨cells, inside, reached⟩ := exists_linkedAt store (store.rulePlaces owner address)
  rw [linkRule, reached]
  refine shownRule_linkedAt fun cell member => ?_
  obtain ⟨place, listed, rfl⟩ := inside cell member
  obtain ⟨position, _, rfl⟩ := List.mem_map.mp listed
  exact apart

theorem shownCell_after_place {place : Place} {cell : Cell} (apart : place.cell ≠ cell)
    (store : Store) :
    shownCell naming cell (after (linkPlace place store)) = shownCell naming cell store := by
  rcases after_linkPlace place store with same | ⟨item, written⟩
  · rw [same]
  · rw [written, shownCell, item?_write, if_neg apart.symm]
    rfl

/-- The places of a nonterminal lie in its rules. -/
theorem mem_rulesOf {store : Store} {address : Nat} {place : Place}
    (member : place ∈ store.entityPlaces address) : place.cell.1 ∈ store.rulesOf address := by
  unfold entityPlaces at member
  unfold rulesOf
  cases found : store.entities[address]? with
  | none =>
      rw [found] at member
      cases member
  | some entity =>
      rw [found] at member
      obtain ⟨rule, listed, inside⟩ := List.mem_flatMap.mp member
      obtain ⟨position, _, rfl⟩ := List.mem_map.mp inside
      exact listed

/-- Linking a nonterminal leaves those alone that have other rules. -/
theorem shownEntity_after_entity {address other : Nat}
    (apart : List.Disjoint (base.rulesOf address) (base.rulesOf other)) {store : Store}
    (alike : Alike base store) :
    (after (linkEntity address store)).shownEntity naming other = store.shownEntity naming other := by
  obtain ⟨cells, inside, reached⟩ := exists_linkedAt store (store.entityPlaces address)
  rw [linkEntity_eq, reached]
  have entities : (store.linkedAt cells).entities = store.entities := rfl
  unfold shownEntity
  rw [entities]
  cases found : store.entities[other]? with
  | none => rfl
  | some entity =>
      have same : entity.rules.map ((store.linkedAt cells).shownRule naming) =
          entity.rules.map (store.shownRule naming) := by
        refine List.map_congr_left fun rule member => shownRule_linkedAt fun cell visited here => ?_
        obtain ⟨place, listed, rfl⟩ := inside cell visited
        subst here
        have own := mem_rulesOf listed
        rw [rulesOf, alike.entities] at own
        have foreign : place.cell.1 ∈ base.rulesOf other := by
          rw [rulesOf, ← alike.entities, found]
          exact member
        exact apart own foreign
      simp only [same]

section Shown

variable (named : ∀ key address, base.table.get? key = some address → naming address = key)

include named

theorem performs_place (place : Place) {store : Store} (alike : Alike base store) :
    Performs (shownCell naming place.cell)
      (Node.link base.table.keys place.owner (shownCell naming place.cell store))
      (linkPlace place store) := by
  have table := alike.table
  by_cases bare : ∃ ref, store.item? place.cell = some (.unresolved ref)
  · obtain ⟨ref, found⟩ := bare
    have node : shownCell naming place.cell store = .unresolved ref := by rw [shownCell, found]; rfl
    rw [linkPlace_of_unresolved found, node, Node.link, ← table]
    cases known : store.table.get? ref with
    | none =>
        rw [if_neg (get?_eq_none_iff.mp known)]
        exact ⟨node, rfl⟩
    | some target =>
        have held : ref ∈ store.table.keys := by
          rw [← Table.contains_iff_mem_keys, Table.contains, known]
          rfl
        rw [if_pos held]
        refine ⟨?_, rfl⟩
        change shownCell naming place.cell (store.write place.cell (.nonterminal target)) = _
        rw [shownCell, item?_write, if_pos rfl, found]
        exact congrArg Node.symbol (named ref target (table ▸ known))
  · have plain : ∀ ref, store.item? place.cell ≠ some (.unresolved ref) := not_exists.mp bare
    rw [linkPlace_of_plain plain]
    have fixed : Node.link base.table.keys place.owner (shownCell naming place.cell store) =
        ⟨shownCell naming place.cell store, 0, none⟩ := by
      unfold shownCell
      cases found : store.item? place.cell with
      | none => rfl
      | some item =>
          cases item with
          | unresolved ref => exact absurd found (plain ref)
          | _ => rfl
    rw [fixed]
    exact ⟨rfl, rfl⟩

theorem performs_rule (owner : String) (address : Nat) {store : Store} (alike : Alike base store) :
    Performs (fun store => store.shownRule naming address)
      (Linked.list (Node.link base.table.keys owner) (store.shownRule naming address))
      (linkRule owner address store) := by
  have distinct : (store.rulePlaces owner address).Pairwise fun place other => place.cell ≠ other.cell := by
    refine List.pairwise_map.mpr (List.nodup_range.imp fun different same => ?_)
    exact different (Prod.mk.inj same).2
  have loop := performs_forM base linkPlace (store.rulePlaces owner address)
    (fun place => shownCell naming place.cell) (Node.link base.table.keys owner) shape_place
    (fun place member store alike => by
      obtain ⟨position, _, rfl⟩ := List.mem_map.mp member
      exact performs_place named ⟨owner, address, position⟩ alike)
    (distinct.imp fun apart store _ =>
      ⟨shownCell_after_place apart store, shownCell_after_place apart.symm store⟩) alike
  rw [shownRule_eq naming owner]
  refine ⟨?_, loop.failure⟩
  rw [← loop.result, shownRule_eq naming owner, (shape_rule owner address store).rulePlaces_eq]
  rfl

theorem performs_entity {address : Nat} (distinct : (base.rulesOf address).Nodup) {store : Store}
    (alike : Alike base store) :
    Performs (fun store => store.shownEntity naming address)
      ((store.shownEntity naming address).link base.table.keys) (linkEntity address store) := by
  have entities := (shape_entity address store).entities
  cases found : store.entities[address]? with
  | none =>
      have none : store.shownEntity naming address = ⟨"", [], .empty, none⟩ := by
        rw [shownEntity, found]
      have stays : linkEntity address store = .ok () store := by rw [linkEntity, found]
      rw [stays, none]
      exact ⟨none, rfl⟩
  | some entity =>
      have listed : base.rulesOf address = entity.rules := by
        rw [rulesOf, ← alike.entities, found]
        rfl
      rw [listed] at distinct
      have loop := performs_forM base (linkRule entity.name) entity.rules
        (fun address store => store.shownRule naming address)
        (Linked.list (Node.link base.table.keys entity.name)) (shape_rule entity.name)
        (fun address _ store alike => performs_rule named entity.name address alike)
        (distinct.imp fun apart store _ =>
          ⟨shownRule_after_rule apart store, shownRule_after_rule apart.symm store⟩) alike
      have run : linkEntity address store = entity.rules.forM (linkRule entity.name) store := by
        rw [linkEntity, found]
      rw [run] at entities ⊢
      have shown (reached : Store) (same : reached.entities = store.entities) :
          reached.shownEntity naming address = ⟨entity.name,
            entity.rules.map (reached.shownRule naming), entity.defaults, entity.depthHint⟩ := by
        rw [shownEntity, same, found]
      rw [shown store rfl]
      refine ⟨(shown _ entities).trans ?_, loop.failure⟩
      exact congrArg (fun rules => (⟨entity.name, rules, entity.defaults, entity.depthHint⟩ : Nonterminal))
        loop.result

end Shown

/-- Linking in memory does to the grammar that the memory holds what linking the grammar comes to. -/
theorem performs_link (separate : base.Separate naming) :
    (after (link base)).shown naming = (base.shown naming).link.result ∧
      cause? (link base) = (base.shown naming).link.failure := by
  obtain ⟨within, between⟩ := List.nodup_flatMap.mp separate.rules
  have loop := performs_forM base (fun entry => linkEntity entry.2) base.table.entries
    (fun entry store => (entry.1, store.shownEntity naming entry.2)) (linkEntry base.table.keys)
    (fun entry => shape_entity entry.2)
    (fun entry member store alike => by
      have performs := performs_entity separate.named (within entry member) alike
      exact ⟨congrArg (Prod.mk entry.1) performs.result, performs.failure⟩)
    (between.imp fun apart store alike =>
      ⟨congrArg (Prod.mk _) (shownEntity_after_entity apart alike),
        congrArg (Prod.mk _) (shownEntity_after_entity (fun _ own other => apart other own) alike)⟩)
    (.refl base)
  have keys : (base.shown naming).table.keys = base.table.keys := Table.keys_map _ _
  have shape : Alike base (after (link base)) := by
    rw [link_eq]
    exact alike_places base base.places
  have table : (after (link base)).shown naming = (base.shown naming).link.result := by
    have entries : ((after (link base)).shown naming).table.entries =
        (base.shown naming).link.result.table.entries := by
      change (after (link base)).table.entries.map _ = _
      rw [shape.table]
      refine loop.result.trans ?_
      rw [← keys]
      rfl
    exact congr (congrArg Grammar.mk (Table.ext_entries entries)) shape.start
  refine ⟨table, loop.failure.trans ?_⟩
  rw [← keys]
  rfl

end Store

/-! ## Exactness -/

namespace Grammar

/-- No bare name is left in a grammar with all of them as symbols. -/
theorem unresolved_linked {grammar : Grammar} {entry : String × Nonterminal}
    (member : entry ∈ grammar.linked.table.entries) {rule : List Node} (chosen : rule ∈ entry.2.rules)
    (ref : String) : .unresolved ref ∉ rule := by
  obtain ⟨before, _, rfl⟩ := List.mem_map.mp member
  obtain ⟨nodes, _, rfl⟩ := List.mem_map.mp chosen
  intro inside
  obtain ⟨node, _, same⟩ := List.mem_map.mp inside
  cases node <;> cases same

/--
Linking succeeds exactly if the table holds all bare names in its rules. Then
each of them is replaced by what the table holds under it, nothing else changes,
none is left, and linking once more does nothing. Otherwise the error names the
first one, in the order of table, rules and positions, that the table does not
hold, and exactly those before it are replaced. So it is with grammars, and with
grammars in memory, whose rules may be shared; where they are not, linking in
memory does to the grammar what linking the grammar comes to.
-/
theorem link_exact :
    (∀ grammar : Grammar,
      (grammar.link.failure = none ↔ ∀ ref, ¬grammar.Dangles ref) ∧
      (grammar.link.failure = none →
        grammar.link.result = grammar.linked ∧
        (∀ entry ∈ grammar.link.result.table.entries, ∀ rule ∈ entry.2.rules, ∀ ref,
          .unresolved ref ∉ rule) ∧
        grammar.link.result.link = ⟨grammar.link.result, 0, none⟩) ∧
      ∀ cause, grammar.link.failure = some cause → ∃ stop : grammar.Stop,
        cause = .unknownReference stop.within.ref stop.owner.name ∧
        grammar.link.result.table.entries = stop.linked ∧
        grammar.link.result.start = grammar.start) ∧
    (∀ store : Store,
      ((∃ reached, store.link = .ok () reached) ↔
        ∀ place ∈ store.places, ¬store.Dangles place.cell) ∧
      (∀ reached, store.link = .ok () reached →
        reached = store.linkedAt (store.places.map Store.Place.cell) ∧
        (∀ place ∈ reached.places, ∀ ref, reached.item? place.cell ≠ some (.unresolved ref)) ∧
        reached.link = .ok () reached) ∧
      ∀ cause reached, store.link = .error cause reached →
        ∃ before place after ref, store.places = before ++ place :: after ∧
          (∀ earlier ∈ before, ¬store.Dangles earlier.cell) ∧
          store.item? place.cell = some (.unresolved ref) ∧ ref ∉ store.table.keys ∧
          cause = .unknownReference ref place.owner ∧
          reached = store.linkedAt (before.map Store.Place.cell)) ∧
    ∀ (store : Store) (naming : Nat → String), store.Separate naming →
      (Store.after store.link).shown naming = (store.shown naming).link.result ∧
      Store.cause? store.link = (store.shown naming).link.failure := by
  refine ⟨fun grammar => ⟨failure_link_eq_none_iff, ?_, ?_⟩, fun store => ?_, ?_⟩
  · intro complete
    rcases grammar.link_cases with ⟨_, _, result⟩ | ⟨stop, failed, _⟩
    · have settled : ∀ entry ∈ grammar.link.result.table.entries, ∀ rule ∈ entry.2.rules, ∀ ref,
          .unresolved ref ∉ rule := by
        rw [result]
        exact fun entry member rule chosen => unresolved_linked member chosen
      exact ⟨result, settled, link_eq_self settled⟩
    · cases complete.symm.trans failed
  · intro cause failed
    rcases grammar.link_cases with ⟨_, complete, _⟩ | ⟨stop, stopped, entries⟩
    · cases complete.symm.trans failed
    · exact ⟨stop, Option.some.inj (failed.symm.trans stopped), entries, rfl⟩
  · rcases store.link_cases with ⟨held, complete⟩ |
      ⟨before, place, after, ref, whole, earlier, found, unknown, stopped⟩
    · rw [complete]
      refine ⟨⟨fun _ => held, fun _ => ⟨_, rfl⟩⟩, ?_, nofun⟩
      rintro reached same
      cases same
      have resolved : ∀ place ∈ (store.linkedAt (store.places.map Store.Place.cell)).places, ∀ ref,
          (store.linkedAt (store.places.map Store.Place.cell)).item? place.cell ≠
            some (.unresolved ref) := by
        rw [(Store.alike_linkedAt store _).places_eq]
        exact fun place member => Store.unresolved_linkedAt held member
      exact ⟨rfl, resolved, Store.link_of_resolved resolved⟩
    · rw [stopped]
      refine ⟨⟨?_, fun held => ?_⟩, nofun, ?_⟩
      · rintro ⟨_, same⟩
        cases same
      · have member : place ∈ store.places := whole ▸ List.mem_append_right _ (.head _)
        exact absurd ⟨ref, found, unknown⟩ (held place member)
      · rintro cause reached same
        cases same
        exact ⟨before, place, after, ref, whole, earlier, found, unknown, rfl, rfl⟩
  · exact fun store naming separate => Store.performs_link separate

/-- Two nonterminals, the second one under a key that is not its name; their rules are the given ones. -/
def pairStore (first second : List Nat) (rules : List (List Store.Item)) : Store where
  table := .ofList [("A", 0), ("B", 1)]
  start := some "A"
  entities := [⟨"A", first, .empty, none⟩, ⟨"bee", second, .empty, none⟩]
  rules := rules

/-- A name in the middle that the table does not hold. -/
def lackingStore : Store :=
  pairStore [0] [1] [[.unresolved "B", .unresolved "C"], [.unresolved "A"]]

/-- A rule that both nonterminals share, and one with a nonterminal in it. -/
def sharingStore : Store :=
  pairStore [0, 1] [0] [[.unresolved "B", .stray "x"], [.nonterminal 0, .unresolved "A"]]

/-- The same with all names linked. -/
def sharedStore : Store :=
  pairStore [0, 1] [0] [[.nonterminal 1, .stray "x"], [.nonterminal 0, .nonterminal 0]]

def pairNaming (address : Nat) : String :=
  if address = 0 then "A" else "B"

theorem link_exact_lacking :
    (lackingStore.shown pairNaming).link.failure = some (.unknownReference "C" "A") ∧
      (∃ stop : (lackingStore.shown pairNaming).Stop,
        .unknownReference "C" "A" = Cause.unknownReference stop.within.ref stop.owner.name ∧
        (lackingStore.shown pairNaming).link.result.table.entries = stop.linked ∧
        (lackingStore.shown pairNaming).link.result.start = some "A") ∧
      lackingStore.Separate pairNaming ∧
      (Store.after lackingStore.link).shown pairNaming = (lackingStore.shown pairNaming).link.result ∧
      sharingStore.link = .ok () sharedStore ∧ sharedStore.link = .ok () sharedStore := by
  have failed : (lackingStore.shown pairNaming).link.failure = some (.unknownReference "C" "A") := by
    rfl
  have linked : sharingStore.link = .ok () sharedStore := by rfl
  have separate : lackingStore.Separate pairNaming := by
    refine ⟨by decide, fun key address declared => ?_⟩
    have each : ∀ entry ∈ lackingStore.table.entries, pairNaming entry.2 = entry.1 := by decide
    exact each _ (Table.mem_entries_of_get? declared)
  exact ⟨failed, (link_exact.1 _).2.2 _ failed, separate, (link_exact.2.2 _ _ separate).1, linked,
    ((link_exact.2.1 _).2.1 _ linked).2.2⟩

end Grammar

end PhraseGrammar
