import DecisionTree.Proofs.Predicate.Evaluation
import DecisionTree.Proofs.Predicate.Parts

/-!
Compounds are Kleene's logic on outcomes that may be errors. Conjunction, disjunction and exclusive
disjunction ask every operand, so that the first error among them is not hidden by an operand that
decides; a surrogate asks them one by one up to the first that is not unknown. Without surrogates an
error is therefore that of the first comparison that fails, however deep it stands.
-/

namespace DecisionTree

open Sequence (map_eq_error_iff mapM_eq_ok_iff mapM_eq_error_iff mapM_flatMap_eq_error_iff
  mapM_fails_iff)

/-- What a connective makes of outcomes, said of the outcomes. -/
inductive Connective.Yields : Connective → List Truth → Truth → Prop
  | andNo {outcomes : List Truth} (failing : .no ∈ outcomes) : Yields .and outcomes .no
  | andYes {outcomes : List Truth} (each : ∀ outcome ∈ outcomes, outcome = .yes) :
      Yields .and outcomes .yes
  | andUnknown {outcomes : List Truth} (unfailing : .no ∉ outcomes)
      (other : ∃ outcome ∈ outcomes, outcome ≠ .yes) : Yields .and outcomes .unknown
  | orYes {outcomes : List Truth} (holding : .yes ∈ outcomes) : Yields .or outcomes .yes
  | orNo {outcomes : List Truth} (each : ∀ outcome ∈ outcomes, outcome = .no) :
      Yields .or outcomes .no
  | orUnknown {outcomes : List Truth} (none : .yes ∉ outcomes)
      (other : ∃ outcome ∈ outcomes, outcome ≠ .no) : Yields .or outcomes .unknown
  | xorUnknown {outcomes : List Truth} (undecided : .unknown ∈ outcomes) :
      Yields .xor outcomes .unknown
  | xorYes {outcomes : List Truth} (decided : .unknown ∉ outcomes)
      (one : outcomes.count .yes = 1) : Yields .xor outcomes .yes
  | xorNo {outcomes : List Truth} (decided : .unknown ∉ outcomes)
      (number : outcomes.count .yes ≠ 1) : Yields .xor outcomes .no

namespace Connective

variable {operator : Connective} {outcomes : List Truth} {truth : Truth}

theorem yields_all (outcomes : List Truth) : and.Yields outcomes (Truth.all outcomes) := by
  unfold Truth.all
  split
  next failing => exact .andNo (List.contains_iff_mem.mp failing)
  next unfailing =>
    rw [List.contains_iff_mem] at unfailing
    split
    next undecided =>
      exact .andUnknown unfailing ⟨.unknown, List.contains_iff_mem.mp undecided, by decide⟩
    next decided =>
      rw [List.contains_iff_mem] at decided
      refine .andYes fun outcome member => ?_
      cases outcome with
      | yes => rfl
      | no => exact absurd member unfailing
      | unknown => exact absurd member decided

theorem yields_any (outcomes : List Truth) : or.Yields outcomes (Truth.any outcomes) := by
  unfold Truth.any
  split
  next holding => exact .orYes (List.contains_iff_mem.mp holding)
  next none =>
    rw [List.contains_iff_mem] at none
    split
    next undecided =>
      exact .orUnknown none ⟨.unknown, List.contains_iff_mem.mp undecided, by decide⟩
    next decided =>
      rw [List.contains_iff_mem] at decided
      refine .orNo fun outcome member => ?_
      cases outcome with
      | yes => exact absurd member none
      | no => rfl
      | unknown => exact absurd member decided

theorem yields_exactlyOne (outcomes : List Truth) :
    xor.Yields outcomes (Truth.exactlyOne outcomes) := by
  unfold Truth.exactlyOne
  split
  next undecided => exact .xorUnknown (List.contains_iff_mem.mp undecided)
  next decided =>
    rw [List.contains_iff_mem] at decided
    by_cases one : outcomes.count .yes = 1
    · rw [beq_iff_eq.mpr one]
      exact .xorYes decided one
    · rw [beq_eq_false_iff_ne.mpr one]
      exact .xorNo decided one

theorem yields_combine (gathers : operator ≠ .surrogate) (outcomes : List Truth) :
    operator.Yields outcomes (operator.combine outcomes) := by
  cases operator with
  | and => exact yields_all outcomes
  | or => exact yields_any outcomes
  | xor => exact yields_exactlyOne outcomes
  | surrogate => exact absurd rfl gathers

private theorem Yields.gathers (yields : operator.Yields outcomes truth) :
    operator ≠ .surrogate := by
  cases yields <;> decide

/-- Of the cases for a connective no two hold together. -/
theorem Yields.combine_eq (yields : operator.Yields outcomes truth) :
    operator.combine outcomes = truth := by
  cases yields with
  | andNo failing => simp [combine, Truth.all, failing]
  | andYes each =>
    have unfailing : .no ∉ outcomes := fun member => by cases each _ member
    have decided : .unknown ∉ outcomes := fun member => by cases each _ member
    simp [combine, Truth.all, unfailing, decided]
  | andUnknown unfailing other =>
    have undecided : .unknown ∈ outcomes := by
      obtain ⟨outcome, member, other⟩ := other
      cases outcome with
      | yes => exact absurd rfl other
      | no => exact absurd member unfailing
      | unknown => exact member
    simp [combine, Truth.all, unfailing, undecided]
  | orYes holding => simp [combine, Truth.any, holding]
  | orNo each =>
    have none : .yes ∉ outcomes := fun member => by cases each _ member
    have decided : .unknown ∉ outcomes := fun member => by cases each _ member
    simp [combine, Truth.any, none, decided]
  | orUnknown none other =>
    have undecided : .unknown ∈ outcomes := by
      obtain ⟨outcome, member, other⟩ := other
      cases outcome with
      | yes => exact absurd member none
      | no => exact absurd rfl other
      | unknown => exact member
    simp [combine, Truth.any, none, undecided]
  | xorUnknown undecided => simp [combine, Truth.exactlyOne, undecided]
  | xorYes decided one => simp [combine, Truth.exactlyOne, decided, one, Truth.ofBool]
  | xorNo decided number => simp [combine, Truth.exactlyOne, decided, number, Truth.ofBool]

end Connective

namespace Predicate

/-- What a compound evaluates to, said of what its operands evaluate to. -/
inductive Results (record : Record) :
    Connective → List Predicate → Except EvaluationError Truth → Prop
  | failed {operator : Connective} {before after : List Predicate} {operand : Predicate}
      {error : EvaluationError} (gathers : operator ≠ .surrogate)
      (passed : ∀ earlier ∈ before, ∃ truth, earlier.evaluate record = .ok truth)
      (failure : operand.evaluate record = .error error) :
      Results record operator (before ++ operand :: after) (.error error)
  | gathered {operator : Connective} {operands : List Predicate} {outcomes : List Truth}
      {truth : Truth} (evaluated : operands.map (evaluate record) = outcomes.map .ok)
      (yields : operator.Yields outcomes truth) : Results record operator operands (.ok truth)
  | decided {before after : List Predicate} {operand : Predicate}
      (unknown : ∀ earlier ∈ before, earlier.evaluate record = .ok .unknown)
      (decides : operand.evaluate record ≠ .ok .unknown) :
      Results record .surrogate (before ++ operand :: after) (operand.evaluate record)
  | undecided {operands : List Predicate}
      (unknown : ∀ operand ∈ operands, operand.evaluate record = .ok .unknown) :
      Results record .surrogate operands (.ok .unknown)

variable {record : Record} {operator : Connective} {predicate operand : Predicate}
  {before after operands : List Predicate} {outcome : Except EvaluationError Truth}
  {error : EvaluationError}

theorem evaluateFirst_append (unknown : ∀ earlier ∈ before, earlier.evaluate record = .ok .unknown)
    (rest : List Predicate) :
    evaluateFirst record (before ++ rest) = evaluateFirst record rest := by
  induction before with
  | nil => rfl
  | cons earlier before ih =>
    obtain ⟨head, tail⟩ := List.forall_mem_cons.mp unknown
    rw [List.cons_append, evaluateFirst_of_unknown head, ih tail]

theorem evaluateFirst_of_all_unknown
    (unknown : ∀ operand ∈ operands, operand.evaluate record = .ok .unknown) :
    evaluateFirst record operands = .ok .unknown := by
  have whole := evaluateFirst_append unknown []
  rwa [List.append_nil] at whole

/-- The operands of a surrogate are all unknown, or there is a first one that is not. -/
theorem exists_first_decided (some : ¬∀ operand ∈ operands, operand.evaluate record = .ok .unknown) :
    ∃ before operand after, operands = before ++ operand :: after ∧
      (∀ earlier ∈ before, earlier.evaluate record = .ok .unknown) ∧
      operand.evaluate record ≠ .ok .unknown := by
  induction operands with
  | nil => exact absurd (fun _ none => nomatch none) some
  | cons operand rest ih =>
    by_cases unknown : operand.evaluate record = .ok .unknown
    · have later : ¬∀ operand ∈ rest, operand.evaluate record = .ok .unknown :=
        fun each => some (List.forall_mem_cons.mpr ⟨unknown, each⟩)
      obtain ⟨before, decisive, after, rfl, each, decides⟩ := ih later
      exact ⟨operand :: before, decisive, after, rfl,
        List.forall_mem_cons.mpr ⟨unknown, each⟩, decides⟩
    · exact ⟨[], operand, rest, rfl, by simp, unknown⟩

theorem results_sound (results : Results record operator operands outcome) :
    (compound operator operands).evaluate record = outcome := by
  cases results with
  | failed gathers passed failure =>
    rw [evaluate_compound gathers, map_eq_error_iff, mapM_eq_error_iff]
    exact ⟨_, _, _, rfl, passed, failure⟩
  | gathered evaluated yields =>
    rw [evaluate_compound yields.gathers, mapM_eq_ok_iff.mpr evaluated]
    exact congrArg Except.ok yields.combine_eq
  | decided unknown decides =>
    rw [evaluate_surrogate, evaluateFirst_append unknown, evaluateFirst_of_decided decides]
  | undecided unknown => rw [evaluate_surrogate, evaluateFirst_of_all_unknown unknown]

theorem results_complete (record : Record) (operator : Connective) (operands : List Predicate) :
    Results record operator operands ((compound operator operands).evaluate record) := by
  by_cases gathers : operator = .surrogate
  · subst gathers
    by_cases unknown : ∀ operand ∈ operands, operand.evaluate record = .ok .unknown
    · rw [evaluate_surrogate, evaluateFirst_of_all_unknown unknown]
      exact .undecided unknown
    · obtain ⟨before, operand, after, rfl, unknown, decides⟩ := exists_first_decided unknown
      rw [evaluate_surrogate, evaluateFirst_append unknown, evaluateFirst_of_decided decides]
      exact .decided unknown decides
  · rw [evaluate_compound gathers]
    cases evaluated : operands.mapM (evaluate record) with
    | error error =>
      obtain ⟨before, operand, after, rfl, passed, failure⟩ := mapM_eq_error_iff.mp evaluated
      exact .failed gathers passed failure
    | ok outcomes =>
      exact .gathered (mapM_eq_ok_iff.mp evaluated) (Connective.yields_combine gathers outcomes)

/-- A compound evaluates to this and nothing else. -/
theorem evaluate_compound_eq_iff :
    (compound operator operands).evaluate record = outcome ↔
      Results record operator operands outcome := by
  constructor
  · rintro rfl
    exact results_complete record operator operands
  · exact results_sound

/-- Whether the predicate is a surrogate itself. -/
def isSurrogate : Predicate → Bool
  | .compound .surrogate _ => true
  | _ => false

/-- Whether the predicate is a comparison of a field with a literal. -/
def isComparison : Predicate → Bool
  | .compare .. => true
  | _ => false

/-- The comparisons in a predicate at any depth, from left to right. -/
def comparisons (predicate : Predicate) : List Predicate :=
  predicate.parts.filter isComparison

private theorem comparisons_compound (operator : Connective) (operands : List Predicate) :
    (compound operator operands).comparisons = operands.flatMap comparisons := by
  have inner : (partsOfAll operands).filter isComparison = operands.flatMap comparisons := by
    induction operands with
    | nil => rfl
    | cons operand rest ih =>
      rw [partsOfAll, List.filter_append, ih, List.flatMap_cons, comparisons]
  rw [comparisons, parts, List.filter_cons_of_neg (by simp [isComparison]), inner]

/-- Without surrogates a predicate fails as its comparisons do one after the other. -/
theorem evaluate_eq_error_iff_comparisons
    (plain : ∀ part ∈ predicate.parts, part.isSurrogate = false) :
    predicate.evaluate record = .error error ↔
      predicate.comparisons.mapM (evaluate record) = .error error := by
  induction predicate using Predicate.induction generalizing error with
  | always | never | member => simp [evaluate, comparisons, parts, isComparison, pure, Except.pure]
  | compare field operator literal =>
    rw [show comparisons (.compare field operator literal) = [.compare field operator literal]
      from rfl]
    cases outcome : evaluate record (.compare field operator literal) with
    | error => simp [Sequence.mapM_cons_of_error outcome]
    | ok truth => simp [Sequence.mapM_cons_of_ok outcome, map_eq_error_iff, pure, Except.pure]
  | compound operator operands ih =>
    obtain ⟨whole, inner⟩ := forall_parts_compound.mp plain
    have gathers : operator ≠ .surrogate := fun same => by
      subst same
      cases whole
    rw [evaluate_compound gathers, map_eq_error_iff, comparisons_compound]
    exact mapM_flatMap_eq_error_iff fun operand member error =>
      ih operand member (inner operand member)

/-- Compounds obey Kleene's tables. Those that are no surrogates fail exactly if an operand does,
with the first error; a surrogate has the outcome of the first operand that is not unknown, whatever
stands behind it. So a predicate without surrogates fails exactly if a comparison in it fails on its
own, with the error of the first one from left to right. -/
theorem evaluate_kleene (record : Record) :
    (∀ operator operands outcome, (compound operator operands).evaluate record = outcome ↔
        Results record operator operands outcome) ∧
      (∀ operator operands, operator ≠ .surrogate →
        ((∃ error, (compound operator operands).evaluate record = .error error) ↔
          ∃ operand ∈ operands, ∃ error, operand.evaluate record = .error error)) ∧
      (∀ operands later others,
        (∃ operand ∈ operands, operand.evaluate record ≠ .ok .unknown) →
        (compound .surrogate (operands ++ later)).evaluate record =
          (compound .surrogate (operands ++ others)).evaluate record) ∧
      ∀ predicate : Predicate, (∀ part ∈ predicate.parts, part.isSurrogate = false) →
        ((∃ error, predicate.evaluate record = .error error) ↔
          ∃ test ∈ predicate.comparisons, ∃ error, test.evaluate record = .error error) ∧
        ∀ error, predicate.evaluate record = .error error ↔
          ∃ before test after, predicate.comparisons = before ++ test :: after ∧
            (∀ earlier ∈ before, ∃ truth, earlier.evaluate record = .ok truth) ∧
            test.evaluate record = .error error := by
  refine ⟨fun operator operands outcome => evaluate_compound_eq_iff, ?_, ?_, ?_⟩
  · intro operator operands gathers
    simp only [evaluate_compound gathers, map_eq_error_iff, mapM_fails_iff]
  · rintro operands later others ⟨decisive, member, decides⟩
    obtain ⟨before, operand, after, rfl, unknown, decides⟩ :=
      exists_first_decided fun each => decides (each decisive member)
    simp only [List.append_assoc, List.cons_append]
    rw [results_sound (.decided unknown decides), results_sound (.decided unknown decides)]
  · intro predicate plain
    simp only [evaluate_eq_error_iff_comparisons plain]
    exact ⟨mapM_fails_iff, fun error => mapM_eq_error_iff⟩

/-- A record in which a strength is no number. -/
def breezy : Record :=
  Table.empty.insert "wind" (.text "strong")

/-- Whether a strength is above a number. -/
def windy : Predicate :=
  .compare "wind" .greaterThan (some "8")

/-- The error is hidden neither by a disjunction around it that is decided nor by its depth, but a
surrogate that is decided before does not see it. -/
theorem evaluate_kleene_windy :
    (compound .or [.always, .compound .and [.never, windy]]).evaluate breezy =
        .error (.notNumeric "wind" "strong" "8") ∧
      (compound .surrogate [.compare "sky" .equal (some "clear"), .always, windy]).evaluate breezy =
        .ok .yes := by
  obtain ⟨tables, -, -, plain⟩ := evaluate_kleene breezy
  constructor
  · refine ((plain _ (by decide)).2 _).mpr ⟨[], windy, [], rfl, by simp, ?_⟩
    rfl
  · have unknown : ∀ earlier ∈ [compare "sky" .equal (some "clear")],
        earlier.evaluate breezy = .ok .unknown := by
      rw [List.forall_mem_singleton]
      rfl
    have decided : Results breezy .surrogate (_ ++ .always :: [windy]) _ :=
      .decided unknown (by simp [evaluate])
    exact (tables _ _ _).mpr decided

end Predicate
end DecisionTree
