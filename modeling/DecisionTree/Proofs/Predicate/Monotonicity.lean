import DecisionTree.Proofs.Predicate.Extension
import DecisionTree.Proofs.Predicate.Failure
import DecisionTree.Proofs.Predicate.Kleene

namespace DecisionTree.Predicate

variable {small large record : Record} {predicate : Predicate} {error : EvaluationError}

private theorem isSurrogate_of_isSteady (steady : predicate.isSteady) :
    predicate.isSurrogate = false := by
  cases predicate with
  | compound operator operands =>
    cases operator with
    | surrogate => cases steady
    | and | or | xor => rfl
  | always | never | compare | member => rfl

private theorem FailsIn.isComparison (fails : FailsIn record error predicate) :
    predicate.isComparison := by
  cases fails
  rfl

theorem FailsIn.evaluate (fails : FailsIn record error predicate) :
    predicate.evaluate record = .error error := by
  cases fails with
  | compare tested present failure =>
    simp only [Predicate.evaluate]
    rw [evaluateComparison_of_some tested present, failure]
    rfl

/-- A comparison that fails does so on every record with the same value in its field. -/
theorem FailsIn.of_extends (more : large.Extends small) (fails : FailsIn small error predicate) :
    FailsIn large error predicate := by
  cases fails with
  | compare tested present failure => exact .compare tested (more _ _ present) failure

/-- Without surrogates no error inside is hidden. -/
theorem fails_of_part {part : Predicate} (steady : ∀ part ∈ predicate.parts, part.isSteady)
    (inside : part ∈ predicate.parts) (fails : FailsIn record error part) :
    ∃ first, predicate.evaluate record = .error first := by
  have plain := fun part member => isSurrogate_of_isSteady (steady part member)
  have comparison : part ∈ predicate.comparisons := List.mem_filter.mpr ⟨inside, fails.isComparison⟩
  obtain ⟨first, failed⟩ := Sequence.mapM_fails_iff.mpr ⟨part, comparison, error, fails.evaluate⟩
  exact ⟨first, (evaluate_eq_error_iff_comparisons plain).mpr failed⟩

/-- An error that more fields bring about comes from a field that was missing. -/
theorem exists_new_field (more : large.Extends small)
    (steady : ∀ part ∈ predicate.parts, part.isSteady) {truth : Truth}
    (before : predicate.evaluate small = .ok truth)
    (after : predicate.evaluate large = .error error) :
    ∃ field operator literal, .compare field operator literal ∈ predicate.parts ∧
      small.get? field = none ∧ (compare field operator literal).evaluate large = .error error := by
  obtain ⟨part, inside, fails⟩ := exists_failsIn after
  have failure := fails.evaluate
  cases fails with
  | @compare field operator literal value tested present failed =>
    refine ⟨field, operator, literal, inside, ?_, failure⟩
    cases found : small.get? field with
    | none => rfl
    | some old =>
      -- the field has kept its value, so the comparison failed before
      have same : old = value := Option.some.inj ((more field old found).symm.trans present)
      obtain ⟨_, early⟩ := fails_of_part steady inside (.compare tested (same ▸ found) failed)
      cases before.symm.trans early

/-- More fields never change a decision: it stays, or the predicate fails because of a field that
was missing. What failed before fails with more fields as well. -/
theorem evaluate_monotone (more : large.Extends small)
    (steady : ∀ part ∈ predicate.parts, part.isSteady) :
    (∀ truth other, truth ≠ .unknown → predicate.evaluate small = .ok truth →
      predicate.evaluate large = .ok other → other = truth) ∧
    (∀ truth error, predicate.evaluate small = .ok truth →
      predicate.evaluate large = .error error →
      ∃ field operator literal, .compare field operator literal ∈ predicate.parts ∧
        small.get? field = none ∧
        (compare field operator literal).evaluate large = .error error) ∧
    ((∃ error, predicate.evaluate small = .error error) →
      ∃ error, predicate.evaluate large = .error error) := by
  refine ⟨fun truth other decided before after => ?_, fun truth error before after => ?_, ?_⟩
  · exact ((evaluate_refines more steady before after).eq_of_decided decided).symm
  · exact exists_new_field more steady before after
  · rintro ⟨error, failed⟩
    obtain ⟨part, inside, fails⟩ := exists_failsIn failed
    exact fails_of_part steady inside (fails.of_extends more)

/-- Why presence tests are left out: this one turns around when the field comes. -/
example : (compare "wind" .isMissing none).evaluate Table.empty = .ok .yes ∧
    (compare "wind" .isMissing none).evaluate breezy = .ok .no := ⟨rfl, rfl⟩

/-- A clear sky, or a wind above a number. -/
def inviting : Predicate :=
  .compound .or [.compare "sky" .equal (some "clear"), windy]

/-- A record that says nothing of the wind. -/
def clearSky : Record :=
  Table.empty.insert "sky" (.text "clear")

/-- The decision for a clear sky outlasts a wind that is a number; one that is no number makes the
predicate fail, through the field that was missing. -/
theorem evaluate_monotone_inviting :
    (∃ other, inviting.evaluate (clearSky.insert "wind" (.number 3)) = .ok other ∧ other = .yes) ∧
      ∃ field operator literal, .compare field operator literal ∈ inviting.parts ∧
        clearSky.get? field = none ∧
        (compare field operator literal).evaluate (clearSky.insert "wind" (.text "strong")) =
          .error (.notNumeric "wind" "strong" "8") := by
  have steady : ∀ part ∈ inviting.parts, part.isSteady := by decide
  have absent : clearSky.get? "wind" = none := rfl
  have before : inviting.evaluate clearSky = .ok .yes := rfl
  have after : inviting.evaluate (clearSky.insert "wind" (.number 3)) = .ok .yes := by
    decide +kernel
  have failed : inviting.evaluate (clearSky.insert "wind" (.text "strong")) =
      .error (.notNumeric "wind" "strong" "8") := rfl
  obtain ⟨keeps, -, -⟩ := evaluate_monotone (Record.extends_insert absent (.number 3)) steady
  obtain ⟨-, brings, -⟩ := evaluate_monotone (Record.extends_insert absent (.text "strong")) steady
  exact ⟨⟨.yes, after, keeps .yes .yes (by decide) before after⟩, brings .yes _ before failed⟩

end DecisionTree.Predicate
