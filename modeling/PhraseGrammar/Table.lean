/-!
# Tables

Values under distinct names, in the order in which the names were first set.
Setting a name again keeps its place.
-/

namespace PhraseGrammar

structure Table (α : Type) where
  entries : List (String × α)
  nodup : (entries.map Prod.fst).Nodup
  deriving DecidableEq

namespace Table

variable {α β : Type}

def empty : Table α :=
  ⟨[], List.nodup_nil⟩

instance : Inhabited (Table α) := ⟨empty⟩

def keys (table : Table α) : List String :=
  table.entries.map Prod.fst

def isEmpty (table : Table α) : Bool :=
  table.entries.isEmpty

def size (table : Table α) : Nat :=
  table.entries.length

/-- The first value under a name; in a table there is at most one. -/
def findEntry (name : String) : List (String × α) → Option α
  | [] => none
  | entry :: rest => if entry.1 = name then some entry.2 else findEntry name rest

def get? (table : Table α) (name : String) : Option α :=
  findEntry name table.entries

def contains (table : Table α) (name : String) : Bool :=
  (table.get? name).isSome

/-- The value under a name replaced where it stands, or put at the end. -/
def setEntry (name : String) (value : α) : List (String × α) → List (String × α)
  | [] => [(name, value)]
  | entry :: rest =>
      if entry.1 = name then (name, value) :: rest else entry :: setEntry name value rest

theorem map_fst_setEntry (name : String) (value : α) (entries : List (String × α)) :
    (setEntry name value entries).map Prod.fst =
      if name ∈ entries.map Prod.fst then entries.map Prod.fst
      else entries.map Prod.fst ++ [name] := by
  induction entries with
  | nil => rfl
  | cons entry rest ih =>
      by_cases same : entry.1 = name
      · simp [setEntry, same]
      · have other : ¬ name = entry.1 := fun h => same h.symm
        simp only [setEntry, same, if_false, List.map_cons, ih, List.mem_cons, other, false_or]
        split <;> rfl

def set (table : Table α) (name : String) (value : α) : Table α where
  entries := setEntry name value table.entries
  nodup := by
    rw [map_fst_setEntry]
    split
    · exact table.nodup
    · rename_i fresh
      exact List.nodup_append.2 ⟨table.nodup, by simp, by
        intro a ha b hb
        rw [List.mem_singleton.1 hb]
        exact fun same => fresh (same ▸ ha)⟩

def erase (table : Table α) (name : String) : Table α where
  entries := table.entries.filter fun entry => entry.1 ≠ name
  nodup := table.nodup.sublist (List.filter_sublist.map _)

/-- Later values of a name replace earlier ones. -/
def ofList (entries : List (String × α)) : Table α :=
  entries.foldl (fun table entry => table.set entry.1 entry.2) empty

/-- Every entry of `upper` set in `lower`. -/
def union (lower upper : Table α) : Table α :=
  upper.entries.foldl (fun table entry => table.set entry.1 entry.2) lower

/-- The values changed one by one, under the same names. -/
def map (change : α → β) (table : Table α) : Table β where
  entries := table.entries.map fun entry => (entry.1, change entry.2)
  nodup := by simpa [Function.comp_def] using table.nodup

/-! ## What the operations do to lookups and names -/

theorem ext_entries {left right : Table α} (same : left.entries = right.entries) :
    left = right := by
  cases left
  cases right
  simp_all

@[simp] theorem get?_empty (name : String) : (empty : Table α).get? name = none := rfl

theorem findEntry_setEntry (name other : String) (value : α) (entries : List (String × α)) :
    findEntry other (setEntry name value entries) =
      if other = name then some value else findEntry other entries := by
  induction entries with
  | nil =>
      by_cases asked : name = other
      · simp [setEntry, findEntry, asked]
      · simp [setEntry, findEntry, asked, Ne.symm asked]
  | cons entry rest ih =>
      by_cases same : entry.1 = name
      · by_cases asked : name = other
        · simp [setEntry, findEntry, same, asked]
        · simp [setEntry, findEntry, same, asked, Ne.symm asked]
      · by_cases asked : other = name
        · subst asked
          simp [setEntry, findEntry, same, ih]
        · simp [setEntry, findEntry, same, asked, ih]

@[simp] theorem get?_set (table : Table α) (name other : String) (value : α) :
    (table.set name value).get? other = if other = name then some value else table.get? other :=
  findEntry_setEntry name other value table.entries

theorem keys_set (table : Table α) (name : String) (value : α) :
    (table.set name value).keys =
      if name ∈ table.keys then table.keys else table.keys ++ [name] :=
  map_fst_setEntry name value table.entries

@[simp] theorem keys_map (change : α → β) (table : Table α) :
    (table.map change).keys = table.keys := by
  simp [keys, map, Function.comp_def]

theorem isEmpty_iff_keys_eq_nil (table : Table α) : table.isEmpty = true ↔ table.keys = [] := by
  rw [isEmpty, List.isEmpty_iff, keys, List.map_eq_nil_iff]

theorem findEntry_map (change : α → β) (name : String) (entries : List (String × α)) :
    findEntry name (entries.map fun entry => (entry.1, change entry.2)) =
      (findEntry name entries).map change := by
  induction entries with
  | nil => rfl
  | cons entry rest ih => by_cases same : entry.1 = name <;> simp [findEntry, same, ih]

@[simp] theorem get?_map (change : α → β) (table : Table α) (name : String) :
    (table.map change).get? name = (table.get? name).map change :=
  findEntry_map change name table.entries

theorem isSome_findEntry (name : String) (entries : List (String × α)) :
    (findEntry name entries).isSome = true ↔ name ∈ entries.map Prod.fst := by
  induction entries with
  | nil => simp [findEntry]
  | cons entry rest ih =>
      by_cases same : entry.1 = name
      · simp [findEntry, same]
      · simp [findEntry, same, Ne.symm same, ih]

theorem contains_iff_mem_keys (table : Table α) (name : String) :
    table.contains name = true ↔ name ∈ table.keys :=
  isSome_findEntry name table.entries

theorem mem_of_findEntry {name : String} {value : α} {entries : List (String × α)}
    (found : findEntry name entries = some value) : (name, value) ∈ entries := by
  induction entries with
  | nil => cases found
  | cons entry rest ih =>
      by_cases same : entry.1 = name
      · simp only [findEntry, same, if_true, Option.some.injEq] at found
        rw [← same, ← found]
        exact List.mem_cons_self
      · simp only [findEntry, same, if_false] at found
        exact List.mem_cons_of_mem _ (ih found)

theorem mem_entries_of_get? {table : Table α} {name : String} {value : α}
    (found : table.get? name = some value) : (name, value) ∈ table.entries :=
  mem_of_findEntry found

theorem findEntry_of_mem {entries : List (String × α)} (nodup : (entries.map Prod.fst).Nodup)
    {entry : String × α} (member : entry ∈ entries) :
    findEntry entry.1 entries = some entry.2 := by
  induction entries with
  | nil => cases member
  | cons first rest ih =>
      obtain ⟨fresh, distinct⟩ := List.nodup_cons.mp nodup
      rcases List.mem_cons.mp member with rfl | later
      · exact if_pos rfl
      · have other : first.1 ≠ entry.1 := fun same => fresh (same ▸ List.mem_map_of_mem later)
        rw [findEntry, if_neg other]
        exact ih distinct later

theorem get?_of_mem_entries {table : Table α} {entry : String × α} (member : entry ∈ table.entries) :
    table.get? entry.1 = some entry.2 :=
  findEntry_of_mem table.nodup member

theorem findEntry_eq_none {name : String} {entries : List (String × α)}
    (missing : name ∉ entries.map Prod.fst) : findEntry name entries = none :=
  Option.not_isSome_iff_eq_none.mp fun found => missing ((isSome_findEntry name entries).mp found)

theorem entries_ext {left right : List (String × α)}
    (names : left.map Prod.fst = right.map Prod.fst) (nodup : (left.map Prod.fst).Nodup)
    (values : ∀ name, findEntry name left = findEntry name right) : left = right := by
  induction left generalizing right with
  | nil => exact (List.map_eq_nil_iff.mp names.symm).symm
  | cons entry rest ih =>
      cases right with
      | nil => cases names
      | cons other others =>
          obtain ⟨same, tails⟩ := List.cons.inj names
          obtain ⟨fresh, distinct⟩ := List.nodup_cons.mp nodup
          have value := values entry.1
          simp only [findEntry, same, if_true, Option.some.injEq] at value
          have inner : rest = others := by
            refine ih tails distinct fun name => ?_
            by_cases first : entry.1 = name
            · subst first
              rw [findEntry_eq_none fresh, findEntry_eq_none (tails ▸ fresh)]
            · have further := values name
              rwa [findEntry, if_neg first, findEntry, if_neg (same ▸ first)] at further
          rw [inner, Prod.ext same value]

/-- Tables with the same names in the same order and the same values are equal. -/
theorem ext_get? {left right : Table α} (names : left.keys = right.keys)
    (values : ∀ name, left.get? name = right.get? name) : left = right :=
  ext_entries (entries_ext names left.nodup values)

end Table

end PhraseGrammar
