import DecisionTree.Pmml.Document
import DecisionTree.Proofs.Number.Amount
import DecisionTree.Proofs.Tree.Walk
import DecisionTree.Proofs.Validation.Findings

/-!
The confidence of a usable model is a probability, however sums of record counts are rounded, with
one exception: an infinite count passes the checks, and its share of the total is infinity over
infinity.
-/

namespace DecisionTree

open DecisionTree.Dyadic (magnitude)
open Number (IsAmount)
open Sequence (mem_toOption_iff)

variable {a b : Float}

namespace Number

/-- A part of a positive total, or 0. -/
def share (a b : Float) : Float :=
  if b > 0 then a / b else 0

theorem isProbability_zero : isProbability 0 = true :=
  isAmount_zero.isProbability_iff.mpr (Nat.zero_le _)

theorem isProbability_share (part : IsAmount a) (total : IsAmount b)
    (within : magnitude a ≤ magnitude b) (finite : ¬a.isInf = true) :
    isProbability (share a b) = true := by
  unfold share
  split
  next positive =>
    rw [gt_iff_lt, isAmount_zero.lt_iff total] at positive
    have less := lt_of_le_of_ne part.bound (mt isInf_iff.mpr finite)
    obtain ⟨amount, bounded⟩ := part.div total positive within less
    exact amount.isProbability_iff.mpr bounded
  next => exact isProbability_zero

private theorem isNaN_share (part : IsAmount a) (total : IsAmount b)
    (within : magnitude a ≤ magnitude b)
    (infinite : a.isInf = true) : (share a b).isNaN = true := by
  rw [isInf_iff] at infinite
  have infinite' := total.bound.antisymm (infinite ▸ within)
  have positive : 0 < b := by
    rw [isAmount_zero.lt_iff total, infinite']
    decide
  unfold share
  rw [if_pos positive]
  exact isNaN_div_infinite part total infinite infinite'

end Number

namespace Node

open Number

variable {distributions : List Distribution} {total : Float}

private theorem isNaN_foldl
    (nan : total.isNaN = true ∨ ∃ entry ∈ distributions, entry.recordCount.isNaN = true) :
    (distributions.foldl (fun total entry => total + entry.recordCount) total).isNaN = true := by
  induction distributions generalizing total with
  | nil => simpa using nan
  | cons entry rest ih =>
    rw [List.foldl_cons]
    apply ih
    rw [List.exists_mem_cons_iff, ← or_assoc] at nan
    exact nan.imp_left isNaN_add

/-- The total only grows from entry to entry. -/
theorem isAmount_foldl (start : IsAmount total)
    (amounts : ∀ entry ∈ distributions, IsAmount entry.recordCount) :
    let sum := distributions.foldl (fun total entry => total + entry.recordCount) total
    IsAmount sum ∧ magnitude total ≤ magnitude sum ∧
      ∀ entry ∈ distributions, magnitude entry.recordCount ≤ magnitude sum := by
  induction distributions generalizing total with
  | nil => exact ⟨start, le_rfl, fun _ absent => nomatch absent⟩
  | cons entry rest ih =>
    obtain ⟨first, later⟩ := List.forall_mem_cons.mp amounts
    obtain ⟨amount, least, added⟩ := start.add first
    obtain ⟨sum, grown, each⟩ := ih amount later
    rw [List.foldl_cons]
    exact ⟨sum, least.trans grown, List.forall_mem_cons.mpr ⟨added.trans grown, each⟩⟩

private theorem totalCount_isNaN (nan : ∃ entry ∈ distributions, entry.recordCount.isNaN = true) :
    (totalCount distributions).isNaN = true :=
  isNaN_foldl (.inr nan)

private theorem totalCount_isAmount
    (amounts : ∀ entry ∈ distributions, IsAmount entry.recordCount) :
    IsAmount (totalCount distributions) ∧
      ∀ entry ∈ distributions, magnitude entry.recordCount ≤ magnitude (totalCount distributions) :=
  have ⟨sum, _, each⟩ := isAmount_foldl isAmount_zero amounts
  ⟨sum, each⟩

/-- The entry of the value states no confidence and has an infinite count, and all counts are
numbers, so that the confidence is infinity over infinity. -/
def DividesInfinity (node : Node) (value : String) : Prop :=
  ∃ entry ∈ node.distributions.find? (·.value == value), entry.confidence = none ∧
    entry.recordCount.isInf = true ∧ ∀ other ∈ node.distributions, ¬other.recordCount.isNaN = true

variable {node : Node} {value : String} {entry : Distribution}

theorem dividesInfinity_iff (found : node.distributions.find? (·.value == value) = some entry) :
    node.DividesInfinity value ↔ entry.confidence = none ∧ entry.recordCount.isInf = true ∧
      ∀ other ∈ node.distributions, ¬other.recordCount.isNaN = true := by
  simp [DividesInfinity, found]

theorem confidenceFor_of_stated (found : node.distributions.find? (·.value == value) = some entry)
    {confidence : Float} (stated : entry.confidence = some confidence) :
    node.confidenceFor value = confidence := by
  simp only [confidenceFor, found, stated]

theorem confidenceFor_of_counted (found : node.distributions.find? (·.value == value) = some entry)
    (counted : entry.confidence = none) :
    node.confidenceFor value = share entry.recordCount (totalCount node.distributions) := by
  simp only [confidenceFor, found, counted, share]

/-- The confidence that comes from counts is a probability, or infinity over infinity. -/
theorem share_of_checked (checked : ∀ entry ∈ node.distributions, entry.Checked)
    (member : entry ∈ node.distributions) :
    let part := share entry.recordCount (totalCount node.distributions)
    let infinite := entry.recordCount.isInf = true ∧
      ∀ other ∈ node.distributions, ¬other.recordCount.isNaN = true
    (infinite → part.isNaN = true) ∧ (¬infinite → isProbability part = true) := by
  by_cases numbers : ∀ other ∈ node.distributions, ¬other.recordCount.isNaN = true
  · obtain ⟨total, within⟩ := totalCount_isAmount fun other inside =>
      isAmount_of_not_lt (checked other inside).count (numbers other inside)
    have part := isAmount_of_not_lt (checked entry member).count (numbers entry member)
    refine ⟨fun infinite => isNaN_share part total (within entry member) infinite.1, ?_⟩
    intro finite
    exact isProbability_share part total (within entry member) (not_and'.mp finite numbers)
  · have nan : (totalCount node.distributions).isNaN = true := by
      push Not at numbers
      exact totalCount_isNaN numbers
    have zero : share entry.recordCount (totalCount node.distributions) = 0 :=
      if_neg (not_lt_of_isNaN nan)
    dsimp only
    rw [zero]
    exact ⟨fun infinite => absurd infinite.2 numbers, fun _ => isProbability_zero⟩

theorem confidenceFor_of_checked (checked : ∀ entry ∈ node.distributions, entry.Checked)
    (value : String) :
    (node.DividesInfinity value → (node.confidenceFor value).isNaN = true) ∧
      (¬node.DividesInfinity value → isProbability (node.confidenceFor value) = true) := by
  cases found : node.distributions.find? (·.value == value) with
  | none =>
    have zero : node.confidenceFor value = 0 := by simp only [confidenceFor, found]
    have finite : ¬node.DividesInfinity value := by simp [DividesInfinity, found]
    rw [zero]
    exact ⟨fun infinite => absurd infinite finite, fun _ => isProbability_zero⟩
  | some entry =>
    have member := List.mem_of_find?_eq_some found
    rw [dividesInfinity_iff found]
    cases stated : entry.confidence with
    | some confidence =>
      rw [confidenceFor_of_stated found stated]
      have probable := (checked entry member).confidence confidence stated
      exact ⟨fun infinite => (nomatch infinite.1), fun _ => probable⟩
    | none =>
      rw [confidenceFor_of_counted found stated, and_iff_right rfl]
      exact share_of_checked checked member

end Node

/-- The predicted value's confidence at the last node is infinity over infinity. -/
def Prediction.DividesInfinity (prediction : Prediction) : Prop :=
  ∃ value ∈ prediction.value, ∃ node ∈ prediction.path.getLast?, node.DividesInfinity value

private theorem Walk.eq_of_conclude {walk : Walk} {strategies : Strategies}
    {prediction : Prediction}
    (concluded : walk.conclude strategies = .ok prediction) :
    prediction = walk.lastPrediction ∨ prediction = walk.nullPrediction := by
  unfold conclude at concluded
  split at concluded
  next => cases concluded; exact .inl rfl
  next => split at concluded <;> cases concluded <;> simp
  next => split at concluded <;> cases concluded <;> simp

namespace Walk

private theorem confidence_nullPrediction (walk : Walk) :
    ¬walk.nullPrediction.DividesInfinity ∧
      isProbability walk.nullPrediction.confidence = true :=
  ⟨fun ⟨_, absent, _⟩ => (nomatch absent), Number.isProbability_zero⟩

private theorem confidence_lastPrediction {walk : Walk}
    (checked : ∀ entry ∈ walk.last.distributions, entry.Checked) :
    (walk.lastPrediction.DividesInfinity → walk.lastPrediction.confidence.isNaN = true) ∧
      (¬walk.lastPrediction.DividesInfinity →
        isProbability walk.lastPrediction.confidence = true) := by
  unfold lastPrediction Prediction.DividesInfinity
  cases scores : walk.last.score with
  | none =>
    exact ⟨fun ⟨_, absent, _⟩ => (nomatch absent), fun _ => Number.isProbability_zero⟩
  | some value =>
    simp only [walk.getLast?_path, Option.mem_some, exists_eq_left', Option.map_some,
      Option.getD_some]
    exact Node.confidenceFor_of_checked checked value

end Walk

namespace Model

/-- Scoring a usable model gives a confidence from 0 to 1, except where it divides infinity by
infinity. -/
theorem confidence_of_isUsable {model : Model} {strategies : Strategies} {record : Record}
    {prediction : Prediction} (usable : model.isUsable = true)
    (scored : model.scoreWith strategies record = .ok prediction) :
    (prediction.DividesInfinity → prediction.confidence.isNaN = true) ∧
      (¬prediction.DividesInfinity → isProbability prediction.confidence = true) := by
  obtain ⟨walk, walked, concluded⟩ := Node.predict_eq_ok_iff.mp scored
  have inside := (Node.walk_eq_ok_iff.mp walked).1.last_mem_nodes
  have checked := Node.checked_of_violations_eq_nil (isUsable_iff.mp usable walk.last inside)
  rcases Walk.eq_of_conclude concluded with rfl | rfl
  · exact walk.confidence_lastPrediction checked
  · obtain ⟨finite, probable⟩ := walk.confidence_nullPrediction
    exact ⟨fun infinite => absurd infinite finite, fun _ => probable⟩

/-- A model that has seen one value twice and another one once. -/
def seen : Model where
  root := {
    predicate := .always
    score := some "go"
    distributions := [⟨"go", 2, none⟩, ⟨"stay", 1, none⟩] }

theorem confidence_of_isUsable_seen :
    ∃ prediction, seen.isUsable = true ∧ seen.scoreWith {} Table.empty = .ok prediction ∧
      ¬prediction.DividesInfinity ∧ isProbability prediction.confidence = true := by
  have usable : seen.isUsable = true := by decide +kernel
  have scored : seen.scoreWith {} Table.empty =
      .ok (Walk.lastPrediction ⟨[], seen.root, .leaf⟩) := rfl
  have finite : ¬(Walk.lastPrediction ⟨[], seen.root, .leaf⟩).DividesInfinity := by
    rintro ⟨_, ⟨⟩, _, ⟨⟩, entry, ⟨⟩, -, infinite, -⟩
    exact absurd infinite (by decide)
  exact ⟨_, usable, scored, finite, (confidence_of_isUsable usable scored).2 finite⟩

/-- A document with one model, which has seen one value without end. -/
def endlessDocument : String :=
  "<PMML><TreeModel modelName=\"endless\"><Node score=\"a\"><True/>"
    ++ "<ScoreDistribution value=\"a\" recordCount=\"inf\"/>"
    ++ "<ScoreDistribution value=\"b\" recordCount=\"1\"/></Node></TreeModel></PMML>"

/-- The model loads and has no findings, and yet its confidence is not a number. -/
theorem isNaN_confidence_endless :
    ∃ registry model prediction, Pmml.load endlessDocument = .ok registry ∧
      registry.models.get? "endless" = some model ∧ model.findings = [] ∧
      model.score Table.empty = .ok prediction ∧ prediction.confidence.isNaN = true ∧
      isProbability prediction.confidence = false := by
  have found : ∃ registry ∈ (Pmml.load endlessDocument).toOption,
      ∃ model ∈ registry.models.get? "endless", model.findings = [] ∧
        ∃ prediction ∈ (model.score Table.empty).toOption, prediction.confidence.isNaN = true ∧
          isProbability prediction.confidence = false := by
    decide +kernel
  obtain ⟨registry, loaded, model, registered, sound, prediction, scored, nan, improbable⟩ := found
  exact ⟨registry, model, prediction, mem_toOption_iff.mp loaded, registered, sound,
    mem_toOption_iff.mp scored, nan, improbable⟩

end Model
end DecisionTree
