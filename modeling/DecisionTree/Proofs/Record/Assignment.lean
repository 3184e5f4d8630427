import DecisionTree.Proofs.Text.Blank
import DecisionTree.Proofs.Text.Split
import DecisionTree.Record

namespace DecisionTree.Record

open Text (AllBlank)

variable {record : Record} {assignment name : List Char} {field other literal : String}

/-- Assignments that name no field. -/
inductive Malformed (assignment : List Char) : Prop
  | noSign (absent : '=' ∉ assignment)
  | noName {name literal : List Char} (cut : assignment = name ++ '=' :: literal)
      (first : '=' ∉ name) (blank : AllBlank name)

/-- In front of its first equals sign the assignment has the field's name, with or without blanks
around it, and behind it the literal. -/
inductive Assigns (assignment : List Char) (field literal : String) : Prop
  | named {name : List Char} (cut : assignment = name ++ '=' :: literal.toList)
      (first : '=' ∉ name) (solid : ¬AllBlank name) (trimmed : Text.trimmed name = field.toList)

theorem splitAssignment?_of_cut (first : '=' ∉ name) (literal : List Char) :
    splitAssignment? (name ++ '=' :: literal) =
      if AllBlank name then none
      else some (String.ofList (Text.trimmed name), String.ofList literal) := by
  simp only [splitAssignment?, Text.cutAt?_append first, List.isEmpty_iff, Text.trimmed_eq_nil_iff]

theorem splitAssignment?_eq_some_iff :
    splitAssignment? assignment = some (field, literal) ↔ Assigns assignment field literal := by
  constructor
  · intro split
    by_cases sign : '=' ∈ assignment
    · obtain ⟨name, behind, rfl, first⟩ := List.eq_append_cons_of_mem sign
      rw [splitAssignment?_of_cut first] at split
      split at split
      next => cases split
      next solid =>
        cases split
        exact .named (by simp) first solid (by simp)
    · rw [splitAssignment?, Text.cutAt?_eq_none_iff.mpr sign] at split
      cases split
  · rintro ⟨rfl, first, solid, trimmed⟩
    rw [splitAssignment?_of_cut first, if_neg solid, trimmed, String.ofList_toList,
      String.ofList_toList]

theorem splitAssignment?_eq_none_iff :
    splitAssignment? assignment = none ↔ Malformed assignment := by
  constructor
  · intro split
    by_cases sign : '=' ∈ assignment
    · obtain ⟨name, behind, rfl, first⟩ := List.eq_append_cons_of_mem sign
      rw [splitAssignment?_of_cut first] at split
      split at split
      next blank => exact .noName rfl first blank
      next => cases split
    · exact .noSign sign
  · rintro (absent | ⟨rfl, first, blank⟩)
    · rw [splitAssignment?, Text.cutAt?_eq_none_iff.mpr absent]
    · rw [splitAssignment?_of_cut first, if_pos blank]

theorem not_malformed_iff :
    ¬Malformed assignment ↔ ∃ field literal, Assigns assignment field literal := by
  simp only [← splitAssignment?_eq_none_iff, ← splitAssignment?_eq_some_iff, ← ne_eq,
    Option.ne_none_iff_exists', Prod.exists]

theorem insertAssignment_of_assigns (assigns : Assigns assignment field literal) :
    record.insertAssignment assignment =
      (record.insert field (Value.ofLiteral literal), none) := by
  rw [insertAssignment, splitAssignment?_eq_some_iff.mpr assigns]

/-- The error shows the assignment without outer blanks, and the record stays what it was. -/
theorem insertAssignment_of_malformed (malformed : Malformed assignment) :
    record.insertAssignment assignment =
      (record, some (.malformedAssignment (String.ofList (Text.trimmed assignment)))) := by
  rw [insertAssignment, splitAssignment?_eq_none_iff.mpr malformed]

end DecisionTree.Record
