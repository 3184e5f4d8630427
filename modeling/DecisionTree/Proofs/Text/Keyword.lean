import DecisionTree.Predicate.Error
import DecisionTree.Proofs.Text.Blank
import DecisionTree.Strategy
import Mathlib.Data.List.Nodup

namespace DecisionTree

namespace Vocabulary

/-- Every member is tried, and no two of them are spelled alike. -/
class Lawful (α : Type) [Vocabulary α] : Prop where
  complete : ∀ member : α, member ∈ (members : List α)
  distinct : ((members : List α).map fun member => folded (spelling member)).Nodup

variable {α : Type} [Vocabulary α]

/-- The text is the member's spelling up to outer blanks and ASCII letter case. -/
def Spells (member : α) (text : String) : Prop :=
  folded text = folded (spelling member)

theorem spells_spelling (member : α) : Spells member (spelling member) := rfl

@[simp] theorem folded_trim (text : String) : folded (Text.trim text) = folded text := by
  simp [folded, Text.trim]

@[simp] theorem spells_trim {member : α} {text : String} :
    Spells member (Text.trim text) ↔ Spells member text := by
  simp [Spells]

variable [Lawful α] {member other : α} {text : String}

theorem Spells.unique (one : Spells member text) (another : Spells other text) : member = other :=
  List.inj_on_of_nodup_map Lawful.distinct (Lawful.complete member) (Lawful.complete other)
    (one.symm.trans another)

/-- By its exact spelling a keyword is read as the member with that spelling. -/
theorem named?_eq_some_iff : named? text = some member ↔ text = spelling member := by
  constructor
  · intro named
    have agrees := List.find?_some named
    exact (beq_iff_eq.mp agrees).symm
  · rintro rfl
    cases named : named? (α := α) (spelling member) with
    | none =>
      have differs := List.find?_eq_none.mp named member (Lawful.complete member)
      exact absurd (beq_self_eq_true _) differs
    | some found =>
      have agrees := List.find?_some named
      have spells : Spells found (spelling member) := congrArg folded (beq_iff_eq.mp agrees).symm
      rw [spells.unique (spells_spelling member)]

end Vocabulary

namespace Lexicon

open Vocabulary (Lawful Spells folded spelling)

/-- The table has every member, and each at its own spelling in lower case only. -/
class Faithful (α : Type) [Lexicon α] : Prop extends Lawful α where
  spelled : ∀ entry ∈ (entries : List (String × α)), folded (spelling entry.2) = entry.1.toList
  entered : ∀ member : α, member ∈ (entries : List (String × α)).map Prod.snd

-- The entries of each table are gone through one by one.
instance : Faithful Comparison where
  complete member := by cases member <;> decide
  distinct := by decide
  spelled := by decide
  entered member := by cases member <;> decide

instance : Faithful Membership where
  complete member := by cases member <;> decide
  distinct := by decide
  spelled := by decide
  entered member := by cases member <;> decide

instance : Faithful Connective where
  complete member := by cases member <;> decide
  distinct := by decide
  spelled := by decide
  entered member := by cases member <;> decide

instance : Faithful MissingValueStrategy where
  complete member := by cases member <;> decide
  distinct := by decide
  spelled := by decide
  entered member := by cases member <;> decide

instance : Faithful NoTrueChildStrategy where
  complete member := by cases member <;> decide
  distinct := by decide
  spelled := by decide
  entered member := by cases member <;> decide

instance : Faithful Split where
  complete member := by cases member <;> decide
  distinct := by decide
  spelled := by decide
  entered member := by cases member <;> decide

variable {α : Type} [Lexicon α] {member : α} {text : String}

/-- A loosely read keyword is read by what is left of it without its outer blanks and letter
case. -/
theorem read?_congr {other : String} (same : folded text = folded other) :
    read? (α := α) text = read? other := by
  rw [read?, same, read?]

/-- What is read stands in the table at the text. -/
theorem exists_entry_of_read? (read : read? text = some member) :
    ∃ keyword, (keyword, member) ∈ entries ∧ keyword.toList = folded text := by
  obtain ⟨⟨keyword, _⟩, found, rfl⟩ := Option.map_eq_some_iff.mp read
  have same := List.find?_some found
  exact ⟨keyword, List.mem_of_find?_eq_some found, beq_iff_eq.mp same⟩

/-- Something is read where the table has an entry at the text. -/
theorem read?_isSome {keyword : String} (entry : (keyword, member) ∈ entries)
    (same : keyword.toList = folded text) : (read? (α := α) text).isSome = true := by
  rw [read?, Option.isSome_map, List.find?_isSome]
  exact ⟨_, entry, beq_iff_eq.mpr same⟩

/-- A keyword is read as the member that it spells. -/
theorem read?_eq_some_iff [Faithful α] : read? text = some member ↔ Spells member text := by
  have sound {found : α} (read : read? text = some found) : Spells found text := by
    obtain ⟨_, entry, same⟩ := exists_entry_of_read? read
    exact same.symm.trans (Faithful.spelled _ entry).symm
  constructor
  · exact sound
  · intro spells
    obtain ⟨⟨keyword, _⟩, entry, rfl⟩ := List.mem_map.mp (Faithful.entered member)
    have same : keyword.toList = folded text := (Faithful.spelled _ entry).symm.trans spells.symm
    obtain ⟨found, read⟩ := Option.isSome_iff_exists.mp (read?_isSome entry same)
    rw [read, (sound read).unique spells]

end Lexicon

open Lexicon (read?_eq_some_iff)
open Vocabulary (Spells)

variable {keyword : String}

theorem Comparison.read_eq_ok_iff {operator : Comparison} :
    Comparison.read keyword = .ok operator ↔ Spells operator keyword := by
  rw [← read?_eq_some_iff, Comparison.read]
  cases Lexicon.read? (α := Comparison) keyword <;> simp

theorem Membership.read_eq_ok_iff {operator : Membership} :
    Membership.read keyword = .ok operator ↔ Spells operator keyword := by
  rw [← read?_eq_some_iff, Membership.read]
  cases Lexicon.read? (α := Membership) keyword <;> simp

theorem Connective.read_eq_ok_iff {operator : Connective} :
    Connective.read keyword = .ok operator ↔ Spells operator keyword := by
  rw [← read?_eq_some_iff, Connective.read]
  cases Lexicon.read? (α := Connective) keyword <;> simp

theorem MissingValueStrategy.read_eq_ok_iff {strategy : MissingValueStrategy} :
    MissingValueStrategy.read keyword = .ok strategy ↔ Spells strategy keyword := by
  rw [← read?_eq_some_iff, MissingValueStrategy.read]
  cases Lexicon.read? (α := MissingValueStrategy) keyword <;> simp

theorem NoTrueChildStrategy.read_eq_ok_iff {strategy : NoTrueChildStrategy} :
    NoTrueChildStrategy.read keyword = .ok strategy ↔ Spells strategy keyword := by
  rw [← read?_eq_some_iff, NoTrueChildStrategy.read]
  cases Lexicon.read? (α := NoTrueChildStrategy) keyword <;> simp

theorem Split.read_eq_ok_iff {split : Split} :
    Split.read keyword = .ok split ↔ Spells split keyword := by
  rw [← read?_eq_some_iff, Split.read]
  cases Lexicon.read? (α := Split) keyword <;> simp

end DecisionTree
