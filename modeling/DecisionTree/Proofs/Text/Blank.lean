import DecisionTree.Text.Blank
import Mathlib.Data.List.DropRight

namespace DecisionTree.Text

variable {cs blanks : List Char}

/-- Nothing but blanks, or nothing at all. -/
def AllBlank (cs : List Char) : Prop :=
  ∀ c ∈ cs, isBlank c = true

instance (cs : List Char) : Decidable (AllBlank cs) :=
  List.decidableBAll (fun c => isBlank c = true) cs

/-- No blanks at all. -/
def Solid (cs : List Char) : Prop :=
  ∀ c ∈ cs, isBlank c = false

instance (cs : List Char) : Decidable (Solid cs) :=
  List.decidableBAll (fun c => isBlank c = false) cs

theorem allBlank_nil : AllBlank [] :=
  fun _ absent => nomatch absent

theorem not_mem_of_allBlank {c : Char} (blank : AllBlank cs) (ink : isBlank c = false) : c ∉ cs :=
  fun member => Bool.false_ne_true (ink.symm.trans (blank c member))

private theorem dropWhile_of_prefix {test : Char → Bool} {cs ds : List Char} (start : ds <+: cs)
    (fresh : cs.dropWhile test = cs) : ds.dropWhile test = ds := by
  cases ds with
  | nil => rfl
  | cons d ds =>
    obtain ⟨rest, rfl⟩ := start
    simpa [List.dropWhile_eq_self_iff] using fresh

/-- Trimming leaves a trimmed text alone. -/
@[simp] theorem trimmed_trimmed (cs : List Char) : trimmed (trimmed cs) = trimmed cs := by
  have front : (trimmed cs).dropWhile isBlank = trimmed cs :=
    dropWhile_of_prefix (List.rdropWhile_prefix isBlank _) (List.dropWhile_idempotent ..)
  calc trimmed (trimmed cs) = dropEnd isBlank (trimmed cs) := congrArg (dropEnd isBlank) front
    _ = trimmed cs := List.rdropWhile_idempotent ..

/-- A text without blanks is trimmed. -/
theorem trimmed_of_solid (solid : Solid cs) : trimmed cs = cs := by
  have front : cs.dropWhile isBlank = cs := by
    rw [List.dropWhile_eq_self_iff]
    intro some
    rw [solid _ (List.getElem_mem some)]
    exact Bool.false_ne_true
  have back : cs.rdropWhile isBlank = cs := by
    rw [List.rdropWhile_eq_self_iff]
    intro some
    rw [solid _ (List.getLast_mem some)]
    exact Bool.false_ne_true
  calc trimmed cs = dropEnd isBlank cs := congrArg (dropEnd isBlank) front
    _ = cs := back

/-- No character from the exclamation mark up to the end of ASCII is blank. -/
theorem isBlank_of_visible {c : Char} (low : 0x20 < c.toNat) (high : c.toNat ≤ 0x7F) :
    isBlank c = false := by
  simp only [isBlank, blankRanges, List.any_cons, List.any_nil, Bool.or_false, Bool.or_eq_false_iff,
    Bool.and_eq_false_iff, decide_eq_false_iff_not]
  omega

theorem isBlank_of_isDigit {c : Char} (digit : c.isDigit = true) : isBlank c = false := by
  simp only [Char.isDigit, Bool.and_eq_true, decide_eq_true_eq] at digit
  have low : 48 ≤ c.toNat := UInt32.le_iff_toNat_le.mp digit.1
  have high : c.toNat ≤ 57 := UInt32.le_iff_toNat_le.mp digit.2
  exact isBlank_of_visible (by omega) (by omega)

private theorem isBlank_toLower (c : Char) : isBlank c.toLower = isBlank c := by
  by_cases upper : 'A'.val ≤ c.val ∧ c.val ≤ 'Z'.val
  · have low : 65 ≤ c.toNat := UInt32.le_iff_toNat_le.mp upper.1
    have high : c.toNat ≤ 90 := UInt32.le_iff_toNat_le.mp upper.2
    have lower : c.toLower.toNat = c.toNat + 32 := by
      rw [show c.toLower = _ from dif_pos upper]
      change (c.val + 32).toNat = c.toNat + 32
      rw [UInt32.toNat_add]
      exact Nat.mod_eq_of_lt (Nat.lt_of_le_of_lt (Nat.add_le_add_right high 32) (by decide))
    rw [isBlank_of_visible (by omega) (by omega), isBlank_of_visible (by omega) (by omega)]
  · exact congrArg isBlank (dif_neg upper)

theorem trimmed_map_toLower (cs : List Char) :
    trimmed (cs.map Char.toLower) = (trimmed cs).map Char.toLower := by
  have same : isBlank ∘ Char.toLower = isBlank := funext isBlank_toLower
  simp only [trimmed, dropEnd, List.dropWhile_map, same, ← List.map_reverse]

theorem trimmed_eq_nil_iff : trimmed cs = [] ↔ AllBlank cs := by
  change (cs.dropWhile isBlank).rdropWhile isBlank = [] ↔ AllBlank cs
  rw [List.rdropWhile_eq_nil_iff]
  constructor
  · intro left
    refine List.dropWhile_eq_nil_iff.mp ?_
    by_contra some
    have kept := List.head_dropWhile_not isBlank some
    rw [left _ (List.head_mem some)] at kept
    cases kept
  · intro blank c member
    exact blank c ((List.dropWhile_sublist isBlank).subset member)

private theorem trimmed_blanks_append (blank : AllBlank blanks) (cs : List Char) :
    trimmed (blanks ++ cs) = trimmed cs := by
  rw [trimmed, trimmed, List.dropWhile_append_of_pos blank]

private theorem dropEnd_append_blanks (blank : AllBlank blanks) (cs : List Char) :
    dropEnd isBlank (cs ++ blanks) = dropEnd isBlank cs := by
  have behind : ∀ c ∈ blanks.reverse, isBlank c = true := fun c member =>
    blank c (List.mem_reverse.mp member)
  rw [dropEnd, dropEnd, List.reverse_append, List.dropWhile_append_of_pos behind]

private theorem trimmed_append_blanks (blank : AllBlank blanks) (cs : List Char) :
    trimmed (cs ++ blanks) = trimmed cs := by
  rw [trimmed, trimmed, List.dropWhile_append]
  split
  next empty =>
    have none : blanks.dropWhile isBlank = [] := List.dropWhile_eq_nil_iff.mpr blank
    rw [none, List.isEmpty_iff.mp empty]
  next => rw [dropEnd_append_blanks blank]

/-- A text with any number of blanks on either side of it. -/
inductive Padded (core : List Char) : List Char → Prop
  | blanks {front behind : List Char} (before : AllBlank front) (after : AllBlank behind) :
      Padded core (front ++ core ++ behind)

namespace Padded

variable {core text : List Char} {c : Char}

theorem self (core : List Char) : Padded core core := by
  have padded : Padded core ([] ++ core ++ []) := .blanks allBlank_nil allBlank_nil
  rwa [List.nil_append, List.append_nil] at padded

theorem trimmed_eq (padded : Padded core text) : trimmed text = trimmed core := by
  obtain ⟨before, after⟩ := padded
  rw [trimmed_append_blanks after, trimmed_blanks_append before]

/-- No other characters have come in. -/
theorem not_mem (padded : Padded core text) (ink : isBlank c = false) (absent : c ∉ core) :
    c ∉ text := by
  obtain ⟨before, after⟩ := padded
  simp only [List.mem_append]
  rintro ((inFront | inside) | behind)
  · exact not_mem_of_allBlank before ink inFront
  · exact absent inside
  · exact not_mem_of_allBlank after ink behind

end Padded

/-- What stands at both ends keeps the blanks inside. -/
theorem trimmed_enclosed {c : Char} (ink : isBlank c = false) (cs : List Char) :
    trimmed (c :: (cs ++ [c])) = c :: (cs ++ [c]) := by
  simp [trimmed, dropEnd, ink]

end DecisionTree.Text
