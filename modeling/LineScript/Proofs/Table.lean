/-
This file says what a table answers after a value was put under a name: that value for the name
itself, and what it answered before for every other one. A name that is new comes last, so putting
the entries of a table one by one into an empty one gives the table again.
-/

import LineScript.Table

namespace LineScript

variable {α : Type}

theorem lookup_putEntry_self (key : String) (value : α) (entries : List (String × α)) :
    (putEntry key value entries).lookup key = some value := by
  induction entries with
  | nil => simp [putEntry]
  | cons entry rest inductionHypothesis =>
    obtain ⟨name, old⟩ := entry
    unfold putEntry
    by_cases same : name = key
    · rw [if_pos same, List.lookup_cons_self]
    · rw [if_neg same, List.lookup_cons, beq_false_of_ne (Ne.symm same)]
      exact inductionHypothesis

theorem lookup_putEntry_of_ne {key other : String} (different : other ≠ key) (value : α)
    (entries : List (String × α)) :
    (putEntry key value entries).lookup other = entries.lookup other := by
  induction entries with
  | nil => simp [putEntry, List.lookup_cons, beq_false_of_ne different]
  | cons entry rest inductionHypothesis =>
    obtain ⟨name, old⟩ := entry
    unfold putEntry
    by_cases same : name = key
    · rw [if_pos same, List.lookup_cons, List.lookup_cons, same, beq_false_of_ne different]
    · rw [if_neg same, List.lookup_cons, List.lookup_cons, inductionHypothesis]

theorem mem_putEntry {key : String} {value : α} {entries : List (String × α)} {entry : String × α}
    (member : entry ∈ putEntry key value entries) : entry = (key, value) ∨ entry ∈ entries := by
  induction entries with
  | nil => exact .inl (List.mem_singleton.mp member)
  | cons first rest inductionHypothesis =>
    obtain ⟨name, old⟩ := first
    unfold putEntry at member
    by_cases same : name = key
    · rw [if_pos same] at member
      rcases List.mem_cons.mp member with new | later
      · exact .inl new
      · exact .inr (List.mem_cons_of_mem _ later)
    · rw [if_neg same] at member
      rcases List.mem_cons.mp member with kept | later
      · exact .inr (kept ▸ List.mem_cons_self)
      · exact (inductionHypothesis later).imp_right (List.mem_cons_of_mem _)

theorem putEntry_of_not_mem {key : String} (value : α) {entries : List (String × α)}
    (fresh : key ∉ entries.map Prod.fst) :
    putEntry key value entries = entries ++ [(key, value)] := by
  induction entries with
  | nil => rfl
  | cons first rest inductionHypothesis =>
    obtain ⟨name, old⟩ := first
    rw [List.map_cons, List.mem_cons, not_or] at fresh
    unfold putEntry
    rw [if_neg (Ne.symm fresh.1), inductionHypothesis fresh.2, List.cons_append]

namespace Table

theorem ext_entries {first second : Table α} (same : first.entries = second.entries) :
    first = second := by
  cases first
  cases second
  cases same
  rfl

/-- New names come after the old ones, in their order. -/
theorem entries_foldl_insert (added : List (String × α)) (table : Table α)
    (distinct : ((table.entries ++ added).map Prod.fst).Nodup) :
    (added.foldl (fun table entry => table.insert entry.1 entry.2) table).entries =
      table.entries ++ added := by
  induction added generalizing table with
  | nil => rw [List.foldl_nil, List.append_nil]
  | cons entry rest inductionHypothesis =>
    have fresh : entry.1 ∉ table.entries.map Prod.fst := by
      intro member
      rw [List.map_append, List.nodup_append] at distinct
      exact distinct.2.2 entry.1 member entry.1 List.mem_cons_self rfl
    have grown : (table.insert entry.1 entry.2).entries = table.entries ++ [entry] :=
      putEntry_of_not_mem entry.2 fresh
    rw [List.foldl_cons, inductionHypothesis, grown, List.append_assoc, List.singleton_append]
    rw [grown, List.append_assoc, List.singleton_append]
    exact distinct

theorem ofList_entries (table : Table α) : ofList table.entries = table :=
  ext_entries (entries_foldl_insert table.entries empty table.distinct)

/-- A name stands in a table once, so what is found under it is its entry. -/
theorem get?_eq_some_iff {table : Table α} {key : String} {value : α} :
    table.get? key = some value ↔ (key, value) ∈ table.entries := by
  rw [get?, List.lookup_eq_some_iff]
  constructor
  · rintro ⟨front, back, same, -⟩
    rw [same]
    exact List.mem_append_right _ List.mem_cons_self
  · intro member
    obtain ⟨front, back, same⟩ := List.append_of_mem member
    refine ⟨front, back, same, fun entry inFront => bne_iff_ne.mpr ?_⟩
    have distinct := table.distinct
    rw [same, List.map_append, List.nodup_append] at distinct
    exact (distinct.2.2 entry.1 (List.mem_map_of_mem inFront) key List.mem_cons_self).symm

/-- What a table answers does not depend on the order of its entries. -/
theorem get?_of_perm {table other : Table α} (same : other.entries.Perm table.entries)
    (key : String) : other.get? key = table.get? key := by
  ext value
  rw [get?_eq_some_iff, get?_eq_some_iff, same.mem_iff]

@[simp]
theorem get?_insert_self (table : Table α) (key : String) (value : α) :
    (table.insert key value).get? key = some value :=
  lookup_putEntry_self key value table.entries

theorem get?_insert_of_ne (table : Table α) {key other : String} (different : other ≠ key)
    (value : α) : (table.insert key value).get? other = table.get? other :=
  lookup_putEntry_of_ne different value table.entries

end Table

end LineScript
