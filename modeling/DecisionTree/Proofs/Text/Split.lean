import DecisionTree.Text.Split
import Mathlib.Data.List.TakeWhile

namespace DecisionTree.Text

variable {separator : Char} {cs before after : List Char}

theorem pieces_eq_splitOn (separator : Char) (cs : List Char) :
    pieces separator cs = cs.splitOn separator := by
  induction cs with
  | nil => rfl
  | cons c cs ih =>
    rw [pieces, ih, List.splitOn_cons_eq_if_modifyHead]
    by_cases cut : c = separator
    · simp [cut]
    · have nonempty := List.splitOn_ne_nil separator cs
      cases split : cs.splitOn separator with
      | nil => exact absurd split nonempty
      | cons first rest => simp [cut]

theorem pieces_append (separator : Char) (first second : List Char) :
    pieces separator (first ++ separator :: second) =
      pieces separator first ++ pieces separator second := by
  simp only [pieces_eq_splitOn, List.splitOn_append_cons_self]

/-- Pieces put together are found again if none of them has a separator. -/
theorem pieces_intercalate {segments : List (List Char)} (nonempty : segments ≠ [])
    (whole : ∀ segment ∈ segments, separator ∉ segment) :
    pieces separator (List.intercalate [separator] segments) = segments := by
  rw [pieces_eq_splitOn, List.splitOn_intercalate separator whole nonempty]

theorem cutAt?_append (absent : separator ∉ before) (after : List Char) :
    cutAt? separator (before ++ separator :: after) = some (before, after) := by
  have kept : ∀ c ∈ before, (c != separator) = true := by
    intro c member
    rw [bne_iff_ne]
    rintro rfl
    exact absent member
  rw [cutAt?, List.dropWhile_append_of_pos kept, List.takeWhile_append_of_pos kept]
  simp

theorem cutAt?_eq_none_iff : cutAt? separator cs = none ↔ separator ∉ cs := by
  constructor
  · intro uncut member
    obtain ⟨before, after, rfl, absent⟩ := List.eq_append_cons_of_mem member
    rw [cutAt?_append absent] at uncut
    cases uncut
  · intro absent
    have dropped : cs.dropWhile (· != separator) = [] := by
      rw [List.dropWhile_eq_nil_iff]
      intro c member
      rw [bne_iff_ne]
      rintro rfl
      exact absent member
    rw [cutAt?, dropped]

end DecisionTree.Text
