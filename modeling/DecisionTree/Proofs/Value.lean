import DecisionTree.Proofs.Number.Notation
import DecisionTree.Proofs.Number.Order

namespace DecisionTree

namespace Number

theorem finite?_congr {text other : String} (same : Text.trim text = Text.trim other) :
    finite? text = finite? other := by
  rw [finite?, finite?, same]

/-- What a number displays reads as that number if it is finite, and as no number otherwise. -/
theorem finite?_display (x : Float) : finite? (display x) = (some x).filter Float.isFinite := by
  cases finite : x.isFinite with
  | true => rw [finite?, trim_display finite, read?_display finite]
  | false =>
    have named : display x = "NaN" ∨ display x = "-inf" ∨ display x = "inf" := by
      unfold display
      split
      next => exact .inl rfl
      next number =>
        split
        next =>
          split
          next => exact .inr (.inl rfl)
          next => exact .inr (.inr rfl)
        next bounded =>
          rw [isNaN_iff] at number
          rw [isInf_iff] at bounded
          have unbounded := mt isFinite_iff.mpr (Bool.eq_false_iff.mp finite)
          omega
    have none : (some x).filter Float.isFinite = none := by simp [finite]
    rw [none]
    rcases named with text | text | text <;> rw [text] <;> decide +kernel

end Number

namespace Value

/-- What comparisons see of a value. -/
inductive NormalForm where
  | number (q : ℚ)
  | label (text : String)
  deriving DecidableEq

/-- The exact value of the finite number that the value stands for, or else the text it displays
without outer blanks. -/
def normalForm (value : Value) : NormalForm :=
  match value.number? with
  | some x => .number (Number.exactValue x)
  | none => .label (Text.trim value.display)

variable {value other : Value} {literal : String} {a b : Float}

@[simp] theorem display_text (content : String) : (text content).display = content := rfl

private theorem normalForm_of_number (number : value.number? = some a) :
    value.normalForm = .number (Number.exactValue a) := by
  rw [normalForm, number]

/-- What a value displays stands for the same number as the value. -/
theorem finite?_display (value : Value) : Number.finite? value.display = value.number? := by
  cases value with
  | number x => exact Number.finite?_display x
  | text content => rfl

theorem normalForm_text_display (value : Value) :
    (text value.display).normalForm = value.normalForm := by
  have same : (text value.display).number? = value.number? := finite?_display value
  rw [normalForm, normalForm, same]
  rfl

/-- Numbers have one normal form if they compare as equal; the two zeros do. -/
theorem normalForm_eq_iff_beq (first : value.number? = some a) (second : other.number? = some b) :
    value.normalForm = other.normalForm ↔ (a == b) = true := by
  rw [normalForm_of_number first, normalForm_of_number second, NormalForm.number.injEq,
    Number.beq_iff_exactValue (number?_isFinite first) (number?_isFinite second)]

/-- Equal normal forms are of equal numbers or of one label. -/
theorem normalForm_eq_iff :
    value.normalForm = other.normalForm ↔
      (∃ a b, value.number? = some a ∧ other.number? = some b ∧
        Number.exactValue a = Number.exactValue b) ∨
      value.number? = none ∧ other.number? = none ∧
        Text.trim value.display = Text.trim other.display := by
  unfold normalForm
  cases value.number? <;> cases other.number? <;> simp

/-- A text that is a number is written differently from one that is none. -/
theorem trim_display_ne (number : value.number? = some a) (label : other.number? = none) :
    Text.trim value.display ≠ Text.trim other.display := by
  intro same
  have read := Number.finite?_congr same
  rw [finite?_display, finite?_display, number, label] at read
  cases read

/-- Equality with a literal is equality of normal forms. -/
theorem agrees_iff_normalForm :
    value.agrees literal = true ↔ value.normalForm = (text literal).normalForm := by
  have read : (text literal).number? = Number.finite? literal := rfl
  unfold agrees
  cases number : value.number? with
  | some a =>
    cases finite : Number.finite? literal with
    | some b => exact (normalForm_eq_iff_beq number (read.trans finite)).symm
    | none =>
      have apart := trim_display_ne number (read.trans finite)
      simpa [normalForm, number, read, finite] using apart
  | none =>
    cases finite : Number.finite? literal with
    | some b =>
      have apart := (trim_display_ne (read.trans finite) number).symm
      simpa [normalForm, number, read, finite] using apart
    | none => simp [normalForm, number, read, finite]

/-- Equality of texts is an equivalence, whatever they spell. -/
theorem equivalence_agrees :
    Equivalence fun first second : String => (text first).agrees second = true := by
  simp only [agrees_iff_normalForm]
  exact ⟨fun _ => rfl, Eq.symm, Eq.trans⟩

end Value
end DecisionTree
