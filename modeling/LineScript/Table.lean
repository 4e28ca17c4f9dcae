/-
Tables from names to values that remember the order in which names came in. A name that comes in
again keeps its place and takes the new value, so no name stands in a table twice.
-/

namespace LineScript

/-! ### Entries -/

/-- The entries with a value put under a name. -/
def putEntry {α : Type} (key : String) (value : α) : List (String × α) → List (String × α)
  | [] => [(key, value)]
  | (name, old) :: rest =>
    if name = key then (key, value) :: rest else (name, old) :: putEntry key value rest

theorem map_fst_putEntry {α : Type} (key : String) (value : α) (entries : List (String × α)) :
    (putEntry key value entries).map Prod.fst =
      if key ∈ entries.map Prod.fst then entries.map Prod.fst
      else entries.map Prod.fst ++ [key] := by
  induction entries with
  | nil => simp [putEntry]
  | cons entry rest inductionHypothesis =>
    obtain ⟨name, old⟩ := entry
    by_cases same : name = key
    · simp [putEntry, same]
    · have other : key ≠ name := fun equal => same equal.symm
      simp only [putEntry, if_neg same, List.map_cons, inductionHypothesis, List.mem_cons]
      by_cases later : key ∈ rest.map Prod.fst
      · simp [later]
      · simp [later, other]

theorem nodup_putEntry {α : Type} (key : String) (value : α) (entries : List (String × α))
    (distinct : (entries.map Prod.fst).Nodup) :
    ((putEntry key value entries).map Prod.fst).Nodup := by
  rw [map_fst_putEntry]
  split
  · exact distinct
  · rename_i fresh
    rw [List.nodup_append]
    refine ⟨distinct, by simp, ?_⟩
    intro name member other single equal
    rw [List.mem_singleton] at single
    exact fresh (single ▸ equal ▸ member)

/-! ### Tables -/

/-- A table from names to values, in the order of first arrival. -/
structure Table (α : Type) where
  entries : List (String × α)
  distinct : (entries.map Prod.fst).Nodup

namespace Table

variable {α : Type}

/-- The table without entries. -/
def empty : Table α := ⟨[], List.nodup_nil⟩

/-- The table with a value put under a name. -/
def insert (table : Table α) (key : String) (value : α) : Table α :=
  ⟨putEntry key value table.entries, nodup_putEntry key value table.entries table.distinct⟩

/-- The value under a name. -/
def get? (table : Table α) (key : String) : Option α :=
  table.entries.lookup key

/-- The number of names. -/
def size (table : Table α) : Nat :=
  table.entries.length

/-- The names, in order. -/
def keys (table : Table α) : List String :=
  table.entries.map Prod.fst

/-- The table of some entries, the last of those with one name giving the value. -/
def ofList (entries : List (String × α)) : Table α :=
  entries.foldl (fun table entry => table.insert entry.1 entry.2) empty

end Table

end LineScript
