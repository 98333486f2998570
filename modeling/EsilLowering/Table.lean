/-! # Tables

A table gives at most one entry to each name. Its entries stand in increasing order of their names,
compared code point by code point, so a listing needs no sorting and equal content means equal tables. -/

namespace EsilLowering

/-- Entries under distinct names, in increasing order of the names. -/
structure Table (α : Type) where
  entries : List (String × α)
  increasing : (entries.map Prod.fst).Pairwise (· < ·)
  deriving DecidableEq

namespace Table
variable {α : Type}

/-- The table without entries. -/
def empty : Table α := ⟨[], .nil⟩

instance : Inhabited (Table α) := ⟨empty⟩

/-- The first of some entries that stands under a name. -/
def lookup (name : String) : List (String × α) → Option α
  | [] => none
  | entry :: rest => if entry.1 = name then some entry.2 else lookup name rest

/-- The entry under a name. -/
def get? (table : Table α) (name : String) : Option α := lookup name table.entries

/-- Whether a name has an entry. -/
def contains (table : Table α) (name : String) : Bool := (table.get? name).isSome

/-- The names that have an entry, in increasing order. -/
def names (table : Table α) : List String := table.entries.map Prod.fst

/-- Puts an entry where its name belongs, in place of the one under the same name. -/
def insertEntry (name : String) (value : α) : List (String × α) → List (String × α)
  | [] => [(name, value)]
  | entry :: rest =>
    if name < entry.1 then (name, value) :: entry :: rest
    else if entry.1 < name then entry :: insertEntry name value rest
    else (name, value) :: rest

theorem mem_insertEntry {name : String} {value : α} {entries : List (String × α)} {n : String} :
    n ∈ (insertEntry name value entries).map Prod.fst ↔ n = name ∨ n ∈ entries.map Prod.fst := by
  induction entries with
  | nil => simp [insertEntry]
  | cons entry rest ih =>
    unfold insertEntry
    split
    · simp
    · split
      · simp only [List.map_cons, List.mem_cons, ih]
        exact ⟨fun h => h.elim (.inr ∘ .inl) (·.elim .inl (.inr ∘ .inr)),
          fun h => h.elim (.inr ∘ .inl) (·.elim .inl (.inr ∘ .inr))⟩
      · rename_i h₁ h₂
        have same : entry.1 = name := String.le_antisymm (String.not_lt.mp h₁) (String.not_lt.mp h₂)
        simp [same]

theorem increasing_insertEntry {name : String} {value : α} {entries : List (String × α)}
    (h : (entries.map Prod.fst).Pairwise (· < ·)) :
    ((insertEntry name value entries).map Prod.fst).Pairwise (· < ·) := by
  induction entries with
  | nil => simp [insertEntry]
  | cons entry rest ih =>
    simp only [List.map_cons, List.pairwise_cons] at h
    unfold insertEntry
    split
    · rename_i before
      simp only [List.map_cons, List.pairwise_cons]
      refine ⟨fun n hn => ?_, h⟩
      rcases List.mem_cons.mp hn with rfl | hn
      · exact before
      · exact String.lt_trans before (h.1 n hn)
    · split
      · rename_i after
        simp only [List.map_cons, List.pairwise_cons]
        refine ⟨fun n hn => ?_, ih h.2⟩
        rcases mem_insertEntry.mp hn with rfl | hn
        · exact after
        · exact h.1 n hn
      · rename_i h₁ h₂
        have same : entry.1 = name := String.le_antisymm (String.not_lt.mp h₁) (String.not_lt.mp h₂)
        simp only [List.map_cons, List.pairwise_cons]
        exact ⟨fun n hn => same ▸ h.1 n hn, h.2⟩

/-- A table with an entry added, in place of the one under the same name. -/
def insert (table : Table α) (name : String) (value : α) : Table α :=
  ⟨insertEntry name value table.entries, increasing_insertEntry table.increasing⟩

/-- A table without the entry under a name. -/
def erase (table : Table α) (name : String) : Table α :=
  ⟨table.entries.filter (·.1 ≠ name), table.increasing.sublist (List.filter_sublist.map Prod.fst)⟩

/-- A table with entries added in turn. -/
def insertMany (table : Table α) (entries : List (String × α)) : Table α :=
  entries.foldl (fun table entry => table.insert entry.1 entry.2) table

/-- The table of some entries; of two under one name the later counts. -/
def ofList (entries : List (String × α)) : Table α := empty.insertMany entries

/-! ### What the operations do to a look-up -/

theorem lookup_insertEntry {name : String} {value : α} {entries : List (String × α)} {n : String} :
    lookup n (insertEntry name value entries) = if name = n then some value else lookup n entries := by
  induction entries with
  | nil => rfl
  | cons entry rest ih =>
    unfold insertEntry
    split
    · rfl
    · split
      · rename_i after
        by_cases h : name = n
        · subst h
          have other : entry.1 ≠ name := fun e => String.lt_irrefl name (by rwa [e] at after)
          simp [lookup, ih, other]
        · simp [lookup, ih, h]
      · rename_i h₁ h₂
        have same : entry.1 = name := String.le_antisymm (String.not_lt.mp h₁) (String.not_lt.mp h₂)
        by_cases h : name = n <;> simp [lookup, same, h]

theorem get?_insert (table : Table α) (name : String) (value : α) (n : String) :
    (table.insert name value).get? n = if name = n then some value else table.get? n :=
  lookup_insertEntry

theorem lookup_filter {name n : String} {entries : List (String × α)} :
    lookup n (entries.filter (·.1 ≠ name)) = if name = n then none else lookup n entries := by
  induction entries with
  | nil => simp [lookup]
  | cons entry rest ih =>
    rw [List.filter_cons, lookup]
    by_cases h : entry.1 = name
    · rw [if_neg (by simp [h]), ih, h]
      by_cases hn : name = n <;> simp [hn]
    · rw [if_pos (by simp [h]), lookup, ih]
      by_cases hn : entry.1 = n
      · have other : name ≠ n := fun e => h (hn.trans e.symm)
        simp [hn, other]
      · simp [hn]

theorem get?_erase (table : Table α) (name n : String) :
    (table.erase name).get? n = if name = n then none else table.get? n :=
  lookup_filter

theorem mem_of_lookup {name : String} {value : α} {entries : List (String × α)}
    (h : lookup name entries = some value) : (name, value) ∈ entries := by
  induction entries with
  | nil => cases h
  | cons entry rest ih =>
    rw [lookup] at h
    split at h
    · rename_i hname
      rw [← hname, ← Option.some.inj h]
      exact List.mem_cons_self
    · exact List.mem_cons_of_mem _ (ih h)

theorem mem_entries_of_get? {table : Table α} {name : String} {value : α} (h : table.get? name = some value) :
    (name, value) ∈ table.entries :=
  mem_of_lookup h

theorem mem_names_iff (table : Table α) (name : String) :
    name ∈ table.names ↔ (table.get? name).isSome := by
  simp only [names, get?]
  induction table.entries with
  | nil => simp [lookup]
  | cons entry rest ih =>
    rw [List.map_cons, List.mem_cons, ih, lookup]
    by_cases h : entry.1 = name
    · simp [h]
    · simp [h, Ne.symm h]

end Table
end EsilLowering
