/-!
# Bindings

A table from names to things, kept in the order of the names.  Equal tables are
equal lists, and listing a table gives its names in order.
-/

namespace MatrixScript

/-- A table from names to things, with every name once and in ascending order. -/
structure Bindings (α : Type) where
  entries : List (String × α)
  ordered : entries.Pairwise fun first second => first.1 < second.1

namespace Bindings

variable {α : Type}

/-- The table without names. -/
def empty : Bindings α := ⟨[], .nil⟩

/-- Put a thing under its name into an ordered list, in place of the one before. -/
def insertEntry (name : String) (thing : α) : List (String × α) → List (String × α)
  | [] => [(name, thing)]
  | entry :: rest =>
      if name < entry.1 then (name, thing) :: entry :: rest
      else if name = entry.1 then (name, thing) :: rest
      else entry :: insertEntry name thing rest

theorem mem_insertEntry {name : String} {thing : α} {entries : List (String × α)}
    {entry : String × α} (member : entry ∈ insertEntry name thing entries) :
    entry = (name, thing) ∨ entry ∈ entries := by
  induction entries with
  | nil => simpa [insertEntry] using member
  | cons head tail ih =>
      simp only [insertEntry] at member
      split at member
      · simpa using member
      · split at member
        · rcases List.mem_cons.mp member with equal | old
          · exact Or.inl equal
          · exact Or.inr (List.mem_cons_of_mem _ old)
        · rcases List.mem_cons.mp member with equal | old
          · exact Or.inr (by simp [equal])
          · rcases ih old with equal | older
            · exact Or.inl equal
            · exact Or.inr (List.mem_cons_of_mem _ older)

theorem ordered_insertEntry (name : String) (thing : α) {entries : List (String × α)}
    (ordered : entries.Pairwise fun first second => first.1 < second.1) :
    (insertEntry name thing entries).Pairwise fun first second => first.1 < second.1 := by
  induction entries with
  | nil => simp [insertEntry]
  | cons head tail ih =>
      obtain ⟨headBelow, tailOrdered⟩ := List.pairwise_cons.mp ordered
      simp only [insertEntry]
      split
      · rename_i below
        refine List.pairwise_cons.mpr ⟨fun entry member => ?_, ordered⟩
        rcases List.mem_cons.mp member with rfl | old
        · exact below
        · exact String.lt_trans below (headBelow entry old)
      · split
        · rename_i same
          exact List.pairwise_cons.mpr
            ⟨fun entry member => same ▸ headBelow entry member, tailOrdered⟩
        · rename_i notBelow notSame
          refine List.pairwise_cons.mpr ⟨fun entry member => ?_, ih tailOrdered⟩
          rcases mem_insertEntry member with rfl | old
          · exact Std.lt_of_le_of_ne (Std.not_lt.mp notBelow) (Ne.symm notSame)
          · exact headBelow entry old

/-- Put a thing under a name. -/
def insert (table : Bindings α) (name : String) (thing : α) : Bindings α :=
  ⟨insertEntry name thing table.entries, ordered_insertEntry name thing table.ordered⟩

/-- The thing under a name in a list. -/
def findEntry (name : String) : List (String × α) → Option α
  | [] => none
  | entry :: rest => if name = entry.1 then some entry.2 else findEntry name rest

/-- The thing under a name. -/
def get? (table : Bindings α) (name : String) : Option α :=
  findEntry name table.entries

/-- There is a thing under the name. -/
def contains (table : Bindings α) (name : String) : Bool :=
  (table.get? name).isSome

/-- The names of a table, in order. -/
def names (table : Bindings α) : List String :=
  table.entries.map Prod.fst

@[ext]
theorem ext {first second : Bindings α} (equal : first.entries = second.entries) :
    first = second := by
  cases first
  cases second
  simp_all

@[simp]
theorem get?_empty (name : String) : (empty : Bindings α).get? name = none := rfl

theorem findEntry_insertEntry (name other : String) (thing : α) (entries : List (String × α)) :
    findEntry other (insertEntry name thing entries) =
      if other = name then some thing else findEntry other entries := by
  induction entries with
  | nil => rfl
  | cons head tail ih =>
      simp only [insertEntry]
      split
      · rfl
      · split
        · rename_i same
          simp only [findEntry, ← same]
          split <;> rfl
        · rename_i notSame
          simp only [findEntry, ih]
          split
          · rename_i headName
            have notName : other ≠ name := fun equal => notSame (equal.symm.trans headName)
            rw [if_neg notName]
          · rfl

/-- After putting a thing under a name, that name leads to it and the others are as before. -/
theorem get?_insert (table : Bindings α) (name other : String) (thing : α) :
    (table.insert name thing).get? other =
      if other = name then some thing else table.get? other :=
  findEntry_insertEntry name other thing table.entries

end Bindings

end MatrixScript
