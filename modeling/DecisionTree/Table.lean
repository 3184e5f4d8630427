/-!
A table keeps one value for each of its names, in the order of the names. Names are ordered by
code points, which is also the order of their UTF-8 bytes. `get?` is the view: `get?_insert` says
what insertion does to it, and `ext_get?` that a table is nothing more.
-/

namespace DecisionTree

/-- Values under distinct names, in ascending order of the names. -/
structure Table (α : Type) where
  entries : List (String × α)
  ascending : entries.Pairwise fun a b => a.1 < b.1

namespace Table

variable {α : Type}

def empty : Table α := ⟨[], .nil⟩

/-- Puts a value at its place among ascending names; a value already there is replaced. -/
def place (name : String) (value : α) : List (String × α) → List (String × α)
  | [] => [(name, value)]
  | entry :: rest =>
    if name < entry.1 then (name, value) :: entry :: rest
    else if name = entry.1 then (name, value) :: rest
    else entry :: place name value rest

theorem mem_place {name : String} {value : α} {entry : String × α}
    {entries : List (String × α)} (member : entry ∈ place name value entries) :
    entry = (name, value) ∨ entry ∈ entries := by
  induction entries with
  | nil => exact .inl (List.mem_singleton.mp member)
  | cons head rest ih =>
    unfold place at member
    split at member
    · exact (List.mem_cons.mp member)
    · split at member
      · exact (List.mem_cons.mp member).imp_right (List.mem_cons_of_mem head)
      · rcases List.mem_cons.mp member with same | later
        · exact .inr (same ▸ List.mem_cons_self ..)
        · exact (ih later).imp_right (List.mem_cons_of_mem head)

theorem lt_of_not_lt_of_ne {a b : String} (notLess : ¬a < b) (different : a ≠ b) : b < a := by
  by_cases less : b < a
  · exact less
  · exact absurd (String.le_antisymm (String.not_lt.mp less) (String.not_lt.mp notLess)) different

theorem pairwise_place (name : String) (value : α) {entries : List (String × α)}
    (ascending : entries.Pairwise fun a b => a.1 < b.1) :
    (place name value entries).Pairwise fun a b => a.1 < b.1 := by
  induction entries with
  | nil => exact List.pairwise_singleton ..
  | cons head rest ih =>
    have ⟨below, restAscending⟩ := List.pairwise_cons.mp ascending
    unfold place
    split
    next less =>
      refine .cons (fun entry member => ?_) ascending
      rcases List.mem_cons.mp member with same | later
      · exact same ▸ less
      · exact String.lt_trans less (below entry later)
    next notLess =>
      split
      next same => exact .cons (fun entry member => same ▸ below entry member) restAscending
      next different =>
        refine .cons (fun entry member => ?_) (ih restAscending)
        rcases mem_place member with same | later
        · exact same ▸ lt_of_not_lt_of_ne notLess different
        · exact below entry later

/-- The table with a value under a name; a value already there is replaced. -/
def insert (table : Table α) (name : String) (value : α) : Table α :=
  ⟨place name value table.entries, pairwise_place name value table.ascending⟩

def get? (table : Table α) (name : String) : Option α :=
  table.entries.lookup name

def contains (table : Table α) (name : String) : Bool :=
  (table.get? name).isSome

def names (table : Table α) : List String :=
  table.entries.map (·.1)

def size (table : Table α) : Nat :=
  table.entries.length

/-- Inserts entries in order, so that the last value given for a name stays. -/
def ofList (entries : List (String × α)) : Table α :=
  entries.foldl (fun table entry => table.insert entry.1 entry.2) empty

theorem lookup_head (name query : String) (value : α) (rest : List (String × α)) :
    ((name, value) :: rest).lookup query =
      if query = name then some value else rest.lookup query := by
  by_cases same : query = name
  · simp [same]
  · simp [List.lookup_cons, same, beq_eq_false_iff_ne.mpr same]

theorem lookup_place (name query : String) (value : α) (entries : List (String × α)) :
    (place name value entries).lookup query =
      if query = name then some value else entries.lookup query := by
  induction entries with
  | nil => simp [place, lookup_head]
  | cons head rest ih =>
    obtain ⟨other, held⟩ := head
    unfold place
    split
    · simp [lookup_head]
    · split
      next same =>
        subst same
        by_cases asked : query = name <;> simp [lookup_head, asked]
      next different =>
        by_cases asked : query = other
        · subst asked; simp [Ne.symm different]
        · simp [lookup_head, asked, ih]

@[simp] theorem get?_insert (table : Table α) (name query : String) (value : α) :
    (table.insert name value).get? query =
      if query = name then some value else table.get? query :=
  lookup_place name query value table.entries

@[simp] theorem get?_empty (query : String) : (empty : Table α).get? query = none := rfl

theorem lookup_eq_some_iff {entries : List (String × α)}
    (ascending : entries.Pairwise fun a b => a.1 < b.1) {name : String} {value : α} :
    entries.lookup name = some value ↔ (name, value) ∈ entries := by
  induction entries with
  | nil => simp
  | cons head rest ih =>
    obtain ⟨other, held⟩ := head
    have ⟨below, restAscending⟩ := List.pairwise_cons.mp ascending
    by_cases same : name = other
    · subst same
      have absent : (name, value) ∉ rest := fun member =>
        String.lt_irrefl name (below _ member)
      simp [absent, eq_comm]
    · simp [lookup_head, ih restAscending, same]

/-- A value is found under a name exactly when the entry is there. -/
theorem get?_eq_some_iff {table : Table α} {name : String} {value : α} :
    table.get? name = some value ↔ (name, value) ∈ table.entries :=
  lookup_eq_some_iff table.ascending

theorem entries_eq_of_mem_iff {first second : List (String × α)}
    (firstAscending : first.Pairwise fun a b => a.1 < b.1)
    (secondAscending : second.Pairwise fun a b => a.1 < b.1)
    (same : ∀ entry, entry ∈ first ↔ entry ∈ second) : first = second := by
  induction first generalizing second with
  | nil =>
    cases second with
    | nil => rfl
    | cons head _ => exact absurd ((same head).mpr (List.mem_cons_self ..)) (by simp)
  | cons head rest ih =>
    cases second with
    | nil => exact absurd ((same head).mp (List.mem_cons_self ..)) (by simp)
    | cons other others =>
      have ⟨below, restAscending⟩ := List.pairwise_cons.mp firstAscending
      have ⟨above, othersAscending⟩ := List.pairwise_cons.mp secondAscending
      have heads : head = other := by
        rcases List.mem_cons.mp ((same head).mp (List.mem_cons_self ..)) with equal | later
        · exact equal
        · rcases List.mem_cons.mp ((same other).mpr (List.mem_cons_self ..)) with equal | earlier
          · exact equal.symm
          · exact absurd (above head later) (String.lt_asymm (below other earlier))
      subst heads
      have tails : ∀ entry, entry ∈ rest ↔ entry ∈ others := fun entry => by
        constructor
        · intro member
          rcases List.mem_cons.mp ((same entry).mp (List.mem_cons_of_mem _ member)) with
            equal | later
          · exact absurd (equal ▸ below entry member) (String.lt_irrefl _)
          · exact later
        · intro member
          rcases List.mem_cons.mp ((same entry).mpr (List.mem_cons_of_mem _ member)) with
            equal | later
          · exact absurd (equal ▸ above entry member) (String.lt_irrefl _)
          · exact later
      rw [ih restAscending othersAscending tails]

/-- Tables with the same value under every name are equal. -/
theorem ext_get? {first second : Table α} (same : ∀ name, first.get? name = second.get? name) :
    first = second := by
  have entries : first.entries = second.entries :=
    entries_eq_of_mem_iff first.ascending second.ascending fun ⟨name, value⟩ => by
      rw [← get?_eq_some_iff, ← get?_eq_some_iff, same name]
  cases first; cases second; cases entries; rfl

end Table
end DecisionTree
