import Mathlib.Logic.Basic
import MatrixScript.Bindings

/-!
# Names in a table

A name is in a table if there is a thing under it.  Putting a thing under a name adds
that name and no other, and keeps the names as they are if it was there already.

`Bindings.find?` searches a stack of tables, as scopes and frames are searched.
-/

namespace MatrixScript

namespace Bindings

variable {α : Type}

theorem mem_names_iff (table : Bindings α) (name : String) :
    name ∈ table.names ↔ (table.get? name).isSome := by
  have entries : ∀ entries : List (String × α),
      name ∈ entries.map Prod.fst ↔ (findEntry name entries).isSome := by
    intro entries
    induction entries with
    | nil => simp [findEntry]
    | cons head tail ih =>
        rw [List.map_cons, List.mem_cons, findEntry, ih]
        split
        · rename_i same
          simp [same]
        · rename_i notSame
          simp [notSame]
  exact entries table.entries

theorem mem_of_findEntry {name : String} {thing : α} {entries : List (String × α)}
    (found : findEntry name entries = some thing) : (name, thing) ∈ entries := by
  induction entries with
  | nil => cases found
  | cons head tail ih =>
      rw [findEntry] at found
      split at found
      · rename_i same
        cases found
        rw [same]
        exact List.mem_cons_self
      · exact List.mem_cons_of_mem _ (ih found)

theorem mem_of_get? {table : Bindings α} {name : String} {thing : α}
    (found : table.get? name = some thing) : (name, thing) ∈ table.entries :=
  mem_of_findEntry found

/-- Names do not recur behind an entry. -/
theorem findEntry_tail {head : String × α} {tail : List (String × α)}
    (ordered : (head :: tail).Pairwise fun first second => first.1 < second.1) :
    findEntry head.1 tail = none := by
  rw [Option.eq_none_iff_forall_ne_some]
  intro thing found
  have below := (List.pairwise_cons.mp ordered).1 (head.1, thing) (mem_of_findEntry found)
  exact String.lt_irrefl head.1 below

theorem findEntry_of_mem {name : String} {thing : α} {entries : List (String × α)}
    (ordered : entries.Pairwise fun first second => first.1 < second.1)
    (member : (name, thing) ∈ entries) : findEntry name entries = some thing := by
  induction entries with
  | nil => cases member
  | cons head tail ih =>
      rcases List.pairwise_cons.mp ordered with ⟨headBelow, tailOrdered⟩
      rw [findEntry]
      rcases List.mem_cons.mp member with rfl | later
      · rw [if_pos rfl]
      · have notSame : name ≠ head.1 := by
          rintro rfl
          exact String.lt_irrefl head.1 (headBelow (head.1, thing) later)
        rw [if_neg notSame, ih tailOrdered later]

/-- The entries of a table are what its names lead to. -/
theorem mem_entries_iff (table : Bindings α) (name : String) (thing : α) :
    (name, thing) ∈ table.entries ↔ table.get? name = some thing :=
  ⟨findEntry_of_mem table.ordered, mem_of_get?⟩

theorem not_contains_iff (table : Bindings α) (name : String) :
    ¬ table.contains name = true ↔ table.get? name = none := by
  simp [contains]

/-- The last entry under a name is the only one. -/
theorem foldl_entries {entries : List (String × α)}
    (ordered : entries.Pairwise fun first second => first.1 < second.1) (name : String)
    (start : Option α) :
    entries.foldl (fun held entry => if name = entry.1 then some entry.2 else held) start =
      (findEntry name entries).or start := by
  induction entries generalizing start with
  | nil => rfl
  | cons head tail ih =>
      rw [List.foldl_cons, ih (List.pairwise_cons.mp ordered).2, findEntry]
      split
      · rename_i same
        rw [same, findEntry_tail ordered]
        rfl
      · rfl

theorem mem_names_insert (table : Bindings α) (name other : String) (thing : α) :
    other ∈ (table.insert name thing).names ↔ other = name ∨ other ∈ table.names := by
  rw [mem_names_iff, get?_insert, mem_names_iff]
  split
  · rename_i same
    simp [same]
  · rename_i notSame
    simp [notSame]

/-- Putting another thing under a name that is there keeps the names. -/
theorem names_insert_of_mem {table : Bindings α} {name : String} (thing : α)
    (present : name ∈ table.names) : (table.insert name thing).names = table.names := by
  have entries : ∀ entries : List (String × α),
      entries.Pairwise (fun first second => first.1 < second.1) →
      name ∈ entries.map Prod.fst →
      (insertEntry name thing entries).map Prod.fst = entries.map Prod.fst := by
    intro entries ordered present
    induction entries with
    | nil => simp at present
    | cons head tail ih =>
        rcases List.pairwise_cons.mp ordered with ⟨headBelow, tailOrdered⟩
        rw [List.map_cons, List.mem_cons] at present
        rw [insertEntry]
        -- The name cannot come before the head: all names from there on are greater.
        have notBelow : ¬ name < head.1 := by
          intro below
          rcases present with same | later
          · exact String.lt_irrefl _ (same ▸ below)
          · rcases List.mem_map.mp later with ⟨entry, member, rfl⟩
            exact String.lt_irrefl _ (String.lt_trans below (headBelow entry member))
        rw [if_neg notBelow]
        split
        · rename_i same
          simp [same]
        · rename_i notSame
          rw [List.map_cons, List.map_cons, ih tailOrdered (present.resolve_left notSame)]
  exact entries table.entries table.ordered present

theorem insertEntry_insertEntry (name : String) (old new : α) (entries : List (String × α)) :
    insertEntry name old (insertEntry name new entries) = insertEntry name old entries := by
  have again (rest : List (String × α)) :
      insertEntry name old ((name, new) :: rest) = (name, old) :: rest := by
    rw [insertEntry, if_neg (String.lt_irrefl name), if_pos rfl]
  induction entries with
  | nil => exact again []
  | cons head tail ih =>
      simp only [insertEntry]
      split
      · exact again _
      · rename_i notBelow
        split
        · exact again tail
        · rename_i notSame
          rw [insertEntry, if_neg notBelow, if_neg notSame, ih]

theorem insertEntry_of_findEntry {name : String} {thing : α} {entries : List (String × α)}
    (ordered : entries.Pairwise fun first second => first.1 < second.1)
    (found : findEntry name entries = some thing) : insertEntry name thing entries = entries := by
  induction entries with
  | nil => cases found
  | cons head tail ih =>
      rcases List.pairwise_cons.mp ordered with ⟨headBelow, tailOrdered⟩
      rw [findEntry] at found
      split at found
      · rename_i same
        subst same
        cases found
        rw [insertEntry, if_neg (String.lt_irrefl head.1), if_pos rfl]
      · rename_i notSame
        have above : head.1 < name := headBelow _ (mem_of_findEntry found)
        rw [insertEntry, if_neg (String.lt_asymm above), if_neg notSame, ih tailOrdered found]

/-- Putting in the thing that is there already changes nothing. -/
theorem insert_of_get? {table : Bindings α} {name : String} {thing : α}
    (found : table.get? name = some thing) : table.insert name thing = table :=
  ext (insertEntry_of_findEntry table.ordered found)

/-- Putting back the thing that was under a name restores the table. -/
theorem insert_insert_of_get? {table : Bindings α} {name : String} {old : α}
    (found : table.get? name = some old) (new : α) :
    (table.insert name new).insert name old = table := by
  have twice : (table.insert name new).insert name old = table.insert name old :=
    ext (insertEntry_insertEntry name old new table.entries)
  rw [twice, insert_of_get? found]

/-! ## Stacks of tables -/

/-- The thing under a name in the first of some tables that has the name. -/
def find? (tables : List (Bindings α)) (name : String) : Option α :=
  tables.findSome? fun table => table.get? name

theorem find?_cons (table : Bindings α) (tables : List (Bindings α)) (name : String) :
    find? (table :: tables) name = (table.get? name).or (find? tables name) := by
  rw [find?, List.findSome?_cons]
  cases table.get? name <;> rfl

theorem find?_of_some {table : Bindings α} {name : String} {thing : α}
    (here : table.get? name = some thing) (tables : List (Bindings α)) :
    find? (table :: tables) name = some thing := by
  rw [find?_cons, here]
  rfl

theorem find?_of_none {table : Bindings α} {name : String}
    (missing : table.get? name = none) (tables : List (Bindings α)) :
    find? (table :: tables) name = find? tables name := by
  rw [find?_cons, missing]
  rfl

theorem get?_insert_self (table : Bindings α) (name : String) (thing : α) :
    (table.insert name thing).get? name = some thing := by
  rw [get?_insert, if_pos rfl]

theorem get?_insert_of_ne {table : Bindings α} {name other : String} {thing : α}
    (different : other ≠ name) : (table.insert name thing).get? other = table.get? other := by
  rw [get?_insert, if_neg different]

end Bindings

end MatrixScript
