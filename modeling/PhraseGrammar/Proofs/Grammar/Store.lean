import PhraseGrammar.Grammar.Linking

/-!
# Linking in memory

Rules are lists that can be written to. Here they lie in a memory under
addresses, and so do the nonterminals; a nonterminal may stand under several
keys of the table, and a rule in several nonterminals. Linking goes from place
to place and writes the nonterminal that the table holds where a bare name
stands. At the first name that the table does not hold it stops, and then
exactly the places before that one are linked.
-/

namespace PhraseGrammar

/-- What stands at a place of a rule in memory. -/
inductive Store.Item where
  | leaf (leaf : Leaf)
  /-- The nonterminal at an address. -/
  | nonterminal (address : Nat)
  | unresolved (ref : String)
  | stray (text : String)
  deriving DecidableEq, Repr

/-- A nonterminal in memory, with the addresses of its rules. -/
structure Store.Entity where
  name : String
  rules : List Nat
  defaults : Table Value
  depthHint : Option Int
  deriving DecidableEq

/-- A grammar in memory; the table holds the addresses of nonterminals. -/
structure Store where
  table : Table Nat
  start : Option String
  entities : List Store.Entity
  rules : List (List Store.Item)
  deriving DecidableEq

namespace Store

/-- The address of a rule, and a position in it. -/
abbrev Cell := Nat × Nat

/-- A cell that linking comes to, and the name of the nonterminal whose rule it is in. -/
structure Place where
  owner : String
  cell : Cell
  deriving DecidableEq, Repr

/-- A step of linking. What was written before it fails stays. -/
abbrev Action := EStateM Cause Store Unit

def item? (store : Store) (cell : Cell) : Option Item :=
  (store.rules.getD cell.1 [])[cell.2]?

def write (store : Store) (cell : Cell) (item : Item) : Store :=
  { store with rules := store.rules.modify cell.1 fun rule => rule.set cell.2 item }

/-- A bare name is overwritten by the nonterminal that the table holds under it. -/
def linkPlace (place : Place) : Action := fun store =>
  match store.item? place.cell with
  | some (.unresolved ref) =>
      match store.table.get? ref with
      | some target => .ok () (store.write place.cell (.nonterminal target))
      | none => .error (.unknownReference ref place.owner) store
  | _ => .ok () store

/-- The places of the rule at an address. -/
def rulePlaces (store : Store) (owner : String) (address : Nat) : List Place :=
  (List.range (store.rules.getD address []).length).map fun position => ⟨owner, address, position⟩

def linkRule (owner : String) (address : Nat) : Action := fun store =>
  (store.rulePlaces owner address).forM linkPlace store

/-- Linking the rules of the nonterminal at an address. -/
def linkEntity (address : Nat) : Action := fun store =>
  match store.entities[address]? with
  | some entity => entity.rules.forM (linkRule entity.name) store
  | none => .ok () store

def link : Action := fun store =>
  store.table.entries.forM (fun entry => linkEntity entry.2) store

/-- The places of the nonterminal at an address, rule by rule. -/
def entityPlaces (store : Store) (address : Nat) : List Place :=
  (store.entities[address]?).elim [] fun entity =>
    entity.rules.flatMap (store.rulePlaces entity.name)

/-- All places, in the order of table, rules and positions. -/
def places (store : Store) : List Place :=
  store.table.entries.flatMap fun entry => store.entityPlaces entry.2

/-- A bare name as the nonterminal that the table holds under it, if it holds one. -/
def resolve (store : Store) : Item → Item
  | .unresolved ref => (store.table.get? ref).elim (.unresolved ref) .nonterminal
  | other => other

/-- The memory with bare names replaced in some cells, and nothing else changed. -/
def linkedAt (store : Store) (cells : List Cell) : Store :=
  { store with
    rules := store.rules.mapIdx fun address rule => rule.mapIdx fun position item =>
      if (address, position) ∈ cells then store.resolve item else item }

/-- A bare name stands in the cell that the table does not hold. -/
def Dangles (store : Store) (cell : Cell) : Prop :=
  ∃ ref, store.item? cell = some (.unresolved ref) ∧ ref ∉ store.table.keys

/-- The memory after a step, whether it succeeded or not. -/
def after : EStateM.Result Cause Store Unit → Store
  | .ok _ store => store
  | .error _ store => store

/-- Why a step failed, if it did. -/
def cause? : EStateM.Result Cause Store Unit → Option Cause
  | .ok _ _ => none
  | .error cause _ => some cause

/-- A loop takes one turn and goes on in the memory that it leaves, unless it fails. -/
theorem forM_cons {ι : Type} (action : ι → Action) (first : ι) (rest : List ι) (store : Store) :
    (first :: rest).forM action store =
      match action first store with
      | .ok _ next => rest.forM action next
      | .error cause next => .error cause next := by
  change EStateM.bind (action first) (fun _ => rest.forM action) store = _
  rw [EStateM.bind]
  cases action first store <;> rfl

/-- Memories that differ in what stands in the cells of their rules only. -/
structure Alike (first second : Store) : Prop where
  table : second.table = first.table
  start : second.start = first.start
  entities : second.entities = first.entities
  lengths : second.rules.map List.length = first.rules.map List.length

namespace Alike

variable {first second third : Store}

theorem refl (store : Store) : Alike store store :=
  ⟨rfl, rfl, rfl, rfl⟩

theorem trans (left : Alike first second) (right : Alike second third) : Alike first third :=
  ⟨right.table.trans left.table, right.start.trans left.start, right.entities.trans left.entities,
    right.lengths.trans left.lengths⟩

theorem symm (alike : Alike first second) : Alike second first :=
  ⟨alike.table.symm, alike.start.symm, alike.entities.symm, alike.lengths.symm⟩

theorem length_rule (alike : Alike first second) (address : Nat) :
    (second.rules.getD address []).length = (first.rules.getD address []).length := by
  have same := congrArg (fun lengths => lengths[address]?) alike.lengths
  simp only [List.getElem?_map] at same
  simp only [List.getD_eq_getElem?_getD]
  cases here : first.rules[address]? <;> cases there : second.rules[address]? <;> simp_all

theorem rulePlaces_eq (alike : Alike first second) (owner : String) (address : Nat) :
    second.rulePlaces owner address = first.rulePlaces owner address := by
  rw [rulePlaces, rulePlaces, alike.length_rule]

theorem entityPlaces_eq (alike : Alike first second) (address : Nat) :
    second.entityPlaces address = first.entityPlaces address := by
  have places := funext fun owner => funext fun address => alike.rulePlaces_eq owner address
  rw [entityPlaces, entityPlaces, alike.entities]
  simp only [places]

theorem places_eq (alike : Alike first second) : second.places = first.places := by
  rw [Store.places, Store.places, alike.table]
  exact congrArg (List.flatMap · _) (funext fun entry => alike.entityPlaces_eq entry.2)

/-- Nothing else differs if what stands in the cells is the same. -/
theorem eq_of_items (alike : Alike first second)
    (items : ∀ cell, second.item? cell = first.item? cell) : second = first := by
  obtain ⟨table, start, entities, rules⟩ := first
  obtain ⟨_, _, _, others⟩ := second
  obtain ⟨rfl, rfl, rfl, lengths⟩ := alike
  have count : others.length = rules.length := by
    simpa only [List.length_map] using congrArg List.length lengths
  have same : others = rules := by
    refine List.ext_getElem count fun address here there => List.ext_getElem? fun position => ?_
    have read := items (address, position)
    simpa only [item?, List.getD_eq_getElem?_getD, List.getElem?_eq_getElem here,
      List.getElem?_eq_getElem there, Option.getD_some] using read
  rw [same]

end Alike

theorem item?_write (store : Store) (cell other : Cell) (item : Item) :
    (store.write cell item).item? other =
      if other = cell then (store.item? cell).map fun _ => item else store.item? other := by
  obtain ⟨address, position⟩ := cell
  obtain ⟨rule, place⟩ := other
  simp only [item?, write, List.getD_eq_getElem?_getD, List.getElem?_modify, Prod.mk.injEq]
  by_cases same : address = rule
  · subst same
    cases store.rules[address]? with
    | none => simp
    | some items =>
        by_cases here : position = place
        · subst here
          by_cases within : position < items.length <;> simp [within]
        · simp [here, Ne.symm here]
  · simp [same, Ne.symm same]

theorem alike_write (store : Store) (cell : Cell) (item : Item) :
    Alike store (store.write cell item) := by
  refine ⟨rfl, rfl, rfl, List.ext_getElem? fun address => ?_⟩
  simp only [write, List.getElem?_map, List.getElem?_modify]
  cases store.rules[address]? with
  | none => rfl
  | some items => split <;> simp

theorem item?_linkedAt (store : Store) (cells : List Cell) (cell : Cell) :
    (store.linkedAt cells).item? cell =
      (store.item? cell).map fun item => if cell ∈ cells then store.resolve item else item := by
  simp only [item?, linkedAt, List.getD_eq_getElem?_getD, List.getElem?_mapIdx]
  cases store.rules[cell.1]? with
  | none => rfl
  | some items => simp [List.getElem?_mapIdx]

theorem alike_linkedAt (store : Store) (cells : List Cell) : Alike store (store.linkedAt cells) := by
  refine ⟨rfl, rfl, rfl, List.ext_getElem? fun address => ?_⟩
  simp only [linkedAt, List.getElem?_map, List.getElem?_mapIdx]
  cases store.rules[address]? with
  | none => rfl
  | some items => simp

theorem linkedAt_nil (store : Store) : store.linkedAt [] = store :=
  (alike_linkedAt store []).eq_of_items fun cell => by simp [item?_linkedAt]

/-! ## One place after the other -/

/-- The cell of a bare name that the table holds is linked by writing to it. -/
theorem write_linkedAt {store : Store} {cells : List Cell} {cell : Cell} {ref : String} {target : Nat}
    (found : store.item? cell = some (.unresolved ref)) (known : store.table.get? ref = some target) :
    (store.linkedAt cells).write cell (.nonterminal target) = store.linkedAt (cells ++ [cell]) := by
  have alike : Alike (store.linkedAt (cells ++ [cell]))
      ((store.linkedAt cells).write cell (.nonterminal target)) :=
    (alike_linkedAt store (cells ++ [cell])).symm.trans
      ((alike_linkedAt store cells).trans (alike_write _ cell _))
  refine alike.eq_of_items fun other => ?_
  rw [item?_write, item?_linkedAt, item?_linkedAt, item?_linkedAt]
  by_cases here : other = cell
  · subst here
    simp [found, resolve, known]
  · simp [here]

/-- A cell without a bare name, or with one that is linked, stays as it is. -/
theorem linkedAt_append_of_resolve {store : Store} {cells : List Cell} {cell : Cell}
    (fixed : ∀ item, store.item? cell = some item → cell ∉ cells → store.resolve item = item) :
    store.linkedAt (cells ++ [cell]) = store.linkedAt cells := by
  refine ((alike_linkedAt store cells).symm.trans (alike_linkedAt store _)).eq_of_items fun other => ?_
  rw [item?_linkedAt, item?_linkedAt]
  by_cases here : other = cell
  · subst here
    cases found : store.item? other with
    | none => rfl
    | some item =>
        by_cases visited : other ∈ cells
        · simp [visited]
        · simp [visited, fixed item found visited]
  · simp [here]

theorem get?_eq_none_iff {store : Store} {ref : String} :
    store.table.get? ref = none ↔ ref ∉ store.table.keys := by
  rw [← Table.contains_iff_mem_keys, Table.contains, Bool.not_eq_true, Option.isSome_eq_false_iff,
    Option.isNone_iff_eq_none]

theorem linkPlace_of_plain {store : Store} {place : Place}
    (plain : ∀ ref, store.item? place.cell ≠ some (.unresolved ref)) :
    linkPlace place store = .ok () store := by
  unfold linkPlace
  split
  · rename_i ref found
    exact absurd found (plain ref)
  · rfl

theorem linkPlace_of_unresolved {store : Store} {place : Place} {ref : String}
    (found : store.item? place.cell = some (.unresolved ref)) :
    linkPlace place store = match store.table.get? ref with
      | some target => .ok () (store.write place.cell (.nonterminal target))
      | none => .error (.unknownReference ref place.owner) store := by
  rw [linkPlace, found]

theorem resolve_of_plain {store : Store} {item : Item} (plain : ∀ ref, item ≠ .unresolved ref) :
    store.resolve item = item := by
  cases item with
  | unresolved ref => exact absurd rfl (plain ref)
  | _ => rfl

/-- A place is linked, or a bare name dangles there and linking stops. -/
theorem linkPlace_cases (store : Store) (cells : List Cell) (place : Place) :
    (¬store.Dangles place.cell ∧
        linkPlace place (store.linkedAt cells) = .ok () (store.linkedAt (cells ++ [place.cell]))) ∨
      ∃ ref, store.item? place.cell = some (.unresolved ref) ∧ ref ∉ store.table.keys ∧
        linkPlace place (store.linkedAt cells) =
          .error (.unknownReference ref place.owner) (store.linkedAt cells) := by
  have table : (store.linkedAt cells).table = store.table := rfl
  have item := item?_linkedAt store cells place.cell
  by_cases bare : ∃ ref, store.item? place.cell = some (.unresolved ref)
  · obtain ⟨ref, found⟩ := bare
    rw [found, Option.map_some] at item
    cases known : store.table.get? ref with
    | none =>
        refine .inr ⟨ref, found, get?_eq_none_iff.mp known, ?_⟩
        have stays : (store.linkedAt cells).item? place.cell = some (.unresolved ref) := by
          simp [item, resolve, known]
        rw [linkPlace_of_unresolved stays, table, known]
    | some target =>
        have held : ¬store.Dangles place.cell := by
          rintro ⟨other, there, unknown⟩
          cases found.symm.trans there
          cases known.symm.trans (get?_eq_none_iff.mpr unknown)
        refine .inl ⟨held, ?_⟩
        by_cases visited : place.cell ∈ cells
        · rw [linkPlace_of_plain (by simp [item, visited, resolve, known]),
            linkedAt_append_of_resolve fun _ _ fresh => absurd visited fresh]
        · have stays : (store.linkedAt cells).item? place.cell = some (.unresolved ref) := by
            simp [item, visited]
          rw [linkPlace_of_unresolved stays, table, known]
          exact congrArg _ (write_linkedAt found known)
  · have plain : ∀ ref, store.item? place.cell ≠ some (.unresolved ref) := not_exists.mp bare
    refine .inl ⟨fun ⟨ref, found, _⟩ => plain ref found, ?_⟩
    have fixed (item : Item) (found : store.item? place.cell = some item) :
        store.resolve item = item :=
      resolve_of_plain fun ref same => plain ref (same ▸ found)
    have stays : (store.linkedAt cells).item? place.cell = store.item? place.cell := by
      rw [item]
      cases found : store.item? place.cell with
      | none => rfl
      | some item => rw [Option.map_some, fixed item found, ite_self]
    rw [linkPlace_of_plain (stays ▸ plain),
      linkedAt_append_of_resolve fun item found _ => fixed item found]

/-- The places are linked one after the other, up to the first where a bare name dangles. -/
theorem run_places (store : Store) (places : List Place) (cells : List Cell) :
    ((∀ place ∈ places, ¬store.Dangles place.cell) ∧
        places.forM linkPlace (store.linkedAt cells) =
          .ok () (store.linkedAt (cells ++ places.map Place.cell))) ∨
      ∃ before place after ref, places = before ++ place :: after ∧
        (∀ earlier ∈ before, ¬store.Dangles earlier.cell) ∧
          store.item? place.cell = some (.unresolved ref) ∧ ref ∉ store.table.keys ∧
            places.forM linkPlace (store.linkedAt cells) =
              .error (.unknownReference ref place.owner)
                (store.linkedAt (cells ++ before.map Place.cell)) := by
  induction places generalizing cells with
  | nil => exact .inl ⟨nofun, by rw [List.map_nil, List.append_nil]; rfl⟩
  | cons first rest ih =>
      rw [forM_cons]
      rcases linkPlace_cases store cells first with ⟨held, linked⟩ | ⟨ref, found, unknown, stopped⟩
      · rw [linked]
        rcases ih (cells ++ [first.cell]) with ⟨all, complete⟩ |
          ⟨before, place, after, ref, rfl, earlier, found, unknown, stopped⟩
        · refine .inl ⟨List.forall_mem_cons.mpr ⟨held, all⟩, ?_⟩
          simp only [complete, List.append_assoc, List.map_cons, List.singleton_append]
        · refine .inr ⟨first :: before, place, after, ref, rfl,
            List.forall_mem_cons.mpr ⟨held, earlier⟩, found, unknown, ?_⟩
          simp only [stopped, List.append_assoc, List.map_cons, List.singleton_append]
      · refine .inr ⟨[], first, rest, ref, rfl, nofun, found, unknown, ?_⟩
        rw [stopped, List.map_nil, List.append_nil]

/-- Whatever places are linked, the memory changes in cells of theirs only. -/
theorem exists_linkedAt (store : Store) (places : List Place) :
    ∃ cells, (∀ cell ∈ cells, ∃ place ∈ places, place.cell = cell) ∧
      after (places.forM linkPlace store) = store.linkedAt cells := by
  have run := run_places store places []
  rw [linkedAt_nil] at run
  rcases run with ⟨_, complete⟩ | ⟨before, place, later, ref, rfl, _, _, _, stopped⟩
  · refine ⟨places.map Place.cell, fun cell member => List.mem_map.mp member, ?_⟩
    rw [complete]
    rfl
  · refine ⟨before.map Place.cell, fun cell member => ?_, ?_⟩
    · obtain ⟨earlier, inside, same⟩ := List.mem_map.mp member
      exact ⟨earlier, List.mem_append_left _ inside, same⟩
    · rw [stopped]
      rfl

theorem alike_places (store : Store) (places : List Place) :
    Alike store (after (places.forM linkPlace store)) := by
  obtain ⟨cells, _, reached⟩ := exists_linkedAt store places
  rw [reached]
  exact alike_linkedAt store cells

/-! ## From the loops to the places -/

/-- A loop over parts whose places do not depend on what stands there goes over all of them. -/
theorem forM_flatMap {ι : Type} {action : ι → Action} {places : Store → ι → List Place}
    (runs : ∀ part store, action part store = (places store part).forM linkPlace store)
    (steady : ∀ {first second}, Alike first second → places second = places first)
    (parts : List ι) (store : Store) :
    parts.forM action store = (parts.flatMap (places store)).forM linkPlace store := by
  induction parts generalizing store with
  | nil => rfl
  | cons first rest ih =>
      have split : ((first :: rest).flatMap (places store)).forM linkPlace =
          (do (places store first).forM linkPlace; (rest.flatMap (places store)).forM linkPlace) := by
        rw [List.flatMap_cons]
        exact List.forM_append
      have alike := alike_places store (places store first)
      rw [forM_cons, split, runs]
      change _ = EStateM.bind _ _ store
      rw [EStateM.bind]
      cases ran : (places store first).forM linkPlace store with
      | error cause next => rfl
      | ok done next =>
          rw [ran] at alike
          rw [← steady alike]
          exact ih next

theorem linkEntity_eq (address : Nat) (store : Store) :
    linkEntity address store = (store.entityPlaces address).forM linkPlace store := by
  unfold linkEntity entityPlaces
  cases store.entities[address]? with
  | none => rfl
  | some entity =>
      refine forM_flatMap (fun _ _ => rfl) (fun alike => ?_) entity.rules store
      exact funext fun address => alike.rulePlaces_eq entity.name address

theorem link_eq (store : Store) : link store = store.places.forM linkPlace store := by
  refine forM_flatMap (fun (entry : String × Nat) store => linkEntity_eq entry.2 store)
    (fun alike => ?_) _ store
  exact funext fun entry => alike.entityPlaces_eq entry.2

/--
Linking writes to all places, or it stops at the first one where a bare name
dangles, having written to those before.
-/
theorem link_cases (store : Store) :
    ((∀ place ∈ store.places, ¬store.Dangles place.cell) ∧
        link store = .ok () (store.linkedAt (store.places.map Place.cell))) ∨
      ∃ before place after ref, store.places = before ++ place :: after ∧
        (∀ earlier ∈ before, ¬store.Dangles earlier.cell) ∧
          store.item? place.cell = some (.unresolved ref) ∧ ref ∉ store.table.keys ∧
            link store = .error (.unknownReference ref place.owner)
              (store.linkedAt (before.map Place.cell)) := by
  have run := run_places store store.places []
  rwa [linkedAt_nil, List.nil_append, ← link_eq] at run

/-- Where all names are known none is left, and linking once more writes nothing. -/
theorem unresolved_linkedAt {store : Store}
    (held : ∀ place ∈ store.places, ¬store.Dangles place.cell) {place : Place}
    (member : place ∈ store.places) (ref : String) :
    (store.linkedAt (store.places.map Place.cell)).item? place.cell ≠ some (.unresolved ref) := by
  intro left
  rw [item?_linkedAt] at left
  obtain ⟨item, found, same⟩ := Option.map_eq_some_iff.mp left
  rw [if_pos (List.mem_map_of_mem member)] at same
  cases item with
  | unresolved name =>
      cases known : store.table.get? name with
      | none => exact held place member ⟨name, found, get?_eq_none_iff.mp known⟩
      | some target =>
          rw [resolve, known] at same
          cases same
  | leaf leaf => cases same
  | nonterminal address => cases same
  | stray text => cases same

theorem link_of_resolved {store : Store}
    (resolved : ∀ place ∈ store.places, ∀ ref, store.item? place.cell ≠ some (.unresolved ref)) :
    link store = .ok () store := by
  have same : store.linkedAt (store.places.map Place.cell) = store := by
    refine (alike_linkedAt store _).eq_of_items fun cell => ?_
    rw [item?_linkedAt]
    cases found : store.item? cell with
    | none => rfl
    | some item =>
        rw [Option.map_some]
        split
        · rename_i visited
          obtain ⟨place, member, rfl⟩ := List.mem_map.mp visited
          rw [resolve_of_plain fun ref same => resolved place member ref (same ▸ found)]
        · rfl
  rcases link_cases store with ⟨_, complete⟩ | ⟨before, place, later, ref, whole, _, found, _, _⟩
  · rw [complete, same]
  · have member : place ∈ store.places := whole ▸ List.mem_append_right _ (.head _)
    exact absurd found (resolved place member ref)

end Store

end PhraseGrammar
