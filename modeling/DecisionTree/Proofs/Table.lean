import DecisionTree.Table
import Mathlib.Data.List.Nodup

namespace DecisionTree.Table

variable {α : Type} {table : Table α} {name key : String} {value : α}
  {entries before after : List (String × α)}

theorem contains_eq_false_iff : table.contains name = false ↔ table.get? name = none := by
  simp [contains]

theorem contains_insert_eq_false_iff :
    (table.insert name value).contains key = false ↔ key ≠ name ∧ table.contains key = false := by
  rw [contains_eq_false_iff, contains_eq_false_iff, get?_insert]
  by_cases same : key = name <;> simp [same]

theorem nodup_names (table : Table α) : (table.entries.map (·.1)).Nodup := by
  rw [List.Nodup, List.pairwise_map]
  apply table.ascending.imp
  intro first second less same
  rw [same] at less
  exact String.lt_irrefl _ less

theorem lookup_eq_none (absent : ∀ entry ∈ entries, entry.1 ≠ name) :
    entries.lookup name = none := by
  rw [List.lookup_eq_none_iff]
  intro entry member
  exact bne_iff_ne.mpr (absent entry member).symm

theorem lookup_of_mem (distinct : (entries.map (·.1)).Nodup) (member : (name, value) ∈ entries) :
    entries.lookup name = some value := by
  induction entries with
  | nil => cases member
  | cons head rest ih =>
    obtain ⟨first, distinct⟩ := List.nodup_cons.mp distinct
    rw [lookup_head]
    rcases List.mem_cons.mp member with rfl | later
    · rw [if_pos rfl]
    · have different : name ≠ head.1 := by
        intro same
        exact first (List.mem_map.mpr ⟨_, later, same⟩)
      rw [if_neg different]
      exact ih distinct later

/-- What stands before a name in ascending entries is what there is under smaller names. -/
theorem lookup_before
    (ascending : (before ++ (name, value) :: after).Pairwise fun a b => a.1 < b.1) :
    before.lookup key =
      if key < name then (before ++ (name, value) :: after).lookup key else none := by
  obtain ⟨-, behind, apart⟩ := List.pairwise_append.mp ascending
  split
  next less =>
    have later : ((name, value) :: after).lookup key = none := by
      apply lookup_eq_none
      intro entry member same
      rcases List.mem_cons.mp member with rfl | member
      · exact String.lt_irrefl key (same ▸ less)
      · have greater := (List.pairwise_cons.mp behind).1 entry member
        exact String.lt_asymm less (same ▸ greater)
    rw [List.lookup_append, later, Option.or_none]
  next notLess =>
    apply lookup_eq_none
    intro entry member same
    exact notLess (same ▸ apart entry member (name, value) List.mem_cons_self)

def insertAll (table : Table α) (entries : List (String × α)) : Table α :=
  entries.foldl (fun table entry => table.insert entry.1 entry.2) table

@[simp] theorem insertAll_cons (entry : String × α) (rest : List (String × α)) :
    table.insertAll (entry :: rest) = (table.insert entry.1 entry.2).insertAll rest := rfl

/-- Of entries under one name the last one inserted stays. -/
theorem get?_insertAll_reverse (table : Table α) (entries : List (String × α)) (key : String) :
    (table.insertAll entries).get? key = (entries.reverse.lookup key).or (table.get? key) := by
  induction entries generalizing table with
  | nil => rfl
  | cons entry rest ih =>
    rw [insertAll_cons, ih, get?_insert, List.reverse_cons, List.lookup_append, lookup_head,
      Option.or_assoc]
    split
    next => rfl
    next => rfl

theorem get?_ofList (entries : List (String × α)) (key : String) :
    (ofList entries).get? key = entries.reverse.lookup key :=
  (get?_insertAll_reverse empty entries key).trans (Option.or_none ..)

/-- The names of the entries are distinct, and the table has none of them. -/
structure IsNew (table : Table α) (entries : List (String × α)) : Prop where
  distinct : (entries.map (·.1)).Nodup
  absent : ∀ entry ∈ entries, table.contains entry.1 = false

namespace IsNew

variable {entry : String × α}

theorem head (isNew : table.IsNew (entry :: entries)) : table.contains entry.1 = false :=
  isNew.absent entry List.mem_cons_self

theorem tail (isNew : table.IsNew (entry :: entries)) :
    (table.insert entry.1 entry.2).IsNew entries := by
  obtain ⟨first, distinct⟩ := List.nodup_cons.mp isNew.distinct
  refine ⟨distinct, ?_⟩
  intro other member
  apply contains_insert_eq_false_iff.mpr
  constructor
  · intro same
    exact first (List.mem_map.mpr ⟨other, member, same⟩)
  · exact isNew.absent other (List.mem_cons_of_mem entry member)

end IsNew

theorem get?_insertAll (isNew : table.IsNew entries) :
    (table.insertAll entries).get? key = (table.get? key).or (entries.lookup key) := by
  induction entries generalizing table with
  | nil => exact (Option.or_none ..).symm
  | cons entry rest ih =>
    rw [insertAll_cons, ih isNew.tail, get?_insert, lookup_head]
    split
    next same =>
      subst same
      rw [contains_eq_false_iff.mp isNew.head]
      rfl
    next => rfl

theorem length_place (absent : entries.lookup name = none) :
    (place name value entries).length = entries.length + 1 := by
  induction entries with
  | nil => rfl
  | cons head rest ih =>
    rw [lookup_head] at absent
    split at absent
    next => cases absent
    next different =>
      unfold place
      rw [if_neg different]
      split
      · rfl
      · rw [List.length_cons, ih absent, List.length_cons]

theorem size_insertAll (isNew : table.IsNew entries) :
    (table.insertAll entries).size = table.size + entries.length := by
  induction entries generalizing table with
  | nil => rfl
  | cons entry rest ih =>
    have added : (table.insert entry.1 entry.2).size = table.size + 1 :=
      length_place (contains_eq_false_iff.mp isNew.head)
    rw [insertAll_cons, ih isNew.tail, added, List.length_cons]
    omega

/-- A table is found again from its entries in any order. -/
theorem insertAll_of_perm (order : entries.Perm table.entries) :
    empty.insertAll entries = table := by
  have distinct : (entries.map (·.1)).Nodup :=
    (order.map (·.1)).nodup_iff.mpr table.nodup_names
  have isNew : (empty : Table α).IsNew entries := ⟨distinct, fun _ _ => rfl⟩
  apply ext_get?
  intro name
  rw [get?_insertAll isNew, get?_empty, Option.none_or]
  cases found : table.get? name with
  | some value => exact lookup_of_mem distinct (order.mem_iff.mpr (get?_eq_some_iff.mp found))
  | none =>
    apply lookup_eq_none
    rintro ⟨_, value⟩ member rfl
    rw [get?_eq_some_iff.mpr (order.mem_iff.mp member)] at found
    cases found

def map {β : Type} (change : α → β) (table : Table α) : Table β :=
  ⟨table.entries.map fun entry => (entry.1, change entry.2), by
    rw [List.pairwise_map]
    exact table.ascending⟩

variable {β : Type} {change : α → β}

@[simp] theorem get?_map (table : Table α) (name : String) :
    (table.map change).get? name = (table.get? name).map change := by
  have lookup (entries : List (String × α)) :
      (entries.map fun entry => (entry.1, change entry.2)).lookup name =
        (entries.lookup name).map change := by
    induction entries with
    | nil => rfl
    | cons entry rest ih =>
      rw [List.map_cons, lookup_head, lookup_head, ih]
      split
      next => rfl
      next => rfl
  exact lookup table.entries

@[simp] theorem contains_map (table : Table α) (name : String) :
    (table.map change).contains name = table.contains name := by
  rw [contains, contains, get?_map, Option.isSome_map]

@[simp] theorem isEmpty_map (table : Table α) :
    (table.map change).entries.isEmpty = table.entries.isEmpty := by
  rw [map, List.isEmpty_map]

theorem map_insert (table : Table α) (name : String) (value : α) :
    (table.insert name value).map change = (table.map change).insert name (change value) := by
  apply ext_get?
  intro key
  simp only [get?_map, get?_insert]
  split
  next => rfl
  next => rfl

theorem map_id (table : Table α) : table.map id = table := by
  apply ext_get?
  intro name
  rw [get?_map, Option.map_id_fun, id]

end DecisionTree.Table
